/- module: SonicBmp/Bgp/EndingAddress
   digest: The last address of a prefix, as the two publishers and the link-state parser compute it. -/

import SonicBmp.Bgp.LinkState
import SonicBmp.Bgp.Nlri
import SonicBmp.Library.LeadingBits

set_option autoImplicit false
set_option relaxedAutoImplicit false

namespace SonicBmp.Bgp.EndingAddress

open SonicBmp.Library.Memory
open SonicBmp.Library.LeadingBits
open SonicBmp.Bgp.Common
open SonicBmp.Bgp.Nlri (maxBits)
open SonicBmp.Bgp.LinkState

/-- The octets of an address of the family. -/
def addrOctets (isIPv4 : Bool) : Nat := if isIPv4 then 4 else 16

/-- The 16 octets of the last address, from those that were there: a short IPv4 prefix
writes only the first four. -/
def ending (isIPv4 : Bool) (len : Nat) (prefixBin field : List UInt8) : List UInt8 :=
  if isIPv4 then endingV4 len prefixBin field else endingV6 len prefixBin

/-- What a tuple of `UpdateDBAdvPrefixes` makes of `rib_entry.prefix_bcast_bin`. -/
def advBcastBin (tuple : PrefixTuple) (field : List UInt8) : List UInt8 :=
  ending tuple.isIPv4 tuple.len tuple.prefixBin field

/-- What a tuple of `UpdateDBL3Vpn` makes of it. -/
def vpnBcastBin (tuple : VpnTuple) (field : List UInt8) : List UInt8 :=
  ending tuple.isIPv4 tuple.len tuple.prefixBin field

/-- One record serves all entries of a list: the octets in each entry of `rib_list`. -/
def bcastBins {τ : Type} (fill : τ → List UInt8 → List UInt8) :
    List UInt8 → List τ → List (List UInt8)
  | _, [] => []
  | field, tuple :: rest => fill tuple field :: bcastBins fill (fill tuple field) rest

/-- The greatest address with the leading bits of the prefix. -/
def lastAddress (isIPv4 : Bool) (len : Nat) (prefixBin : List UInt8) : List UInt8 :=
  let size := addrOctets isIPv4
  beBytes size (bigEndian (prefixBin.take size) ||| (2 ^ (8 * size - len) - 1))

theorem maxBits_eq (isIPv4 : Bool) : maxBits isIPv4 = 8 * addrOctets isIPv4 := by
  cases isIPv4 <;> rfl

theorem greatest_lastAddress {isIPv4 : Bool} {len : Nat} {prefixBin : List UInt8}
    (fits : len ≤ maxBits isIPv4) (length : prefixBin.length = 16) :
    Greatest len (prefixBin.take (addrOctets isIPv4)) (lastAddress isIPv4 len prefixBin) := by
  have size : addrOctets isIPv4 ≤ 16 := by cases isIPv4 <;> decide
  refine greatest_or_ones ?_ (by rwa [maxBits_eq] at fits)
  rw [List.length_take, length]
  exact Nat.min_eq_left size

/-- The mask of the source: `n` bits of a word of ones are left. -/
theorem ones_shiftRight {width n : Nat} (within : n ≤ width) :
    (2 ^ width - 1) >>> n = 2 ^ (width - n) - 1 := by
  apply Nat.eq_of_testBit_eq
  intro j
  rw [Nat.testBit_shiftRight, Nat.testBit_two_pow_sub_one, Nat.testBit_two_pow_sub_one]
  congr 1
  apply propext
  omega

theorem greatest_word {width n : Nat} {bs : List UInt8} (length : bs.length = width)
    (within : n ≤ 8 * width) :
    Greatest n bs (beBytes width (bigEndian bs ||| (2 ^ (8 * width) - 1) >>> n)) := by
  rw [ones_shiftRight within]
  exact greatest_or_ones length within

theorem greatest_endingV4 {len : Nat} {prefixBin : List UInt8} (field : List UInt8)
    (fits : len ≤ 32) (length : prefixBin.length = 16) :
    Greatest len (prefixBin.take 4) ((endingV4 len prefixBin field).take 4) := by
  have quad : (prefixBin.take 4).length = 4 := by
    rw [List.length_take, length]
    rfl
  unfold endingV4
  split
  · have word := greatest_word (n := len) quad (by omega)
    have written : (overwrite field (beBytes 4
        (bigEndian (prefixBin.take 4) ||| 0xFFFFFFFF >>> len))).take 4 =
          beBytes 4 (bigEndian (prefixBin.take 4) ||| 0xFFFFFFFF >>> len) :=
      List.take_left' (word.length.trans quad)
    rw [written]
    exact word
  · exact greatest_self (by omega)

theorem greatest_endingV6 {len : Nat} {prefixBin : List UInt8} (fits : len ≤ 128)
    (length : prefixBin.length = 16) : Greatest len prefixBin (endingV6 len prefixBin) := by
  have high : (prefixBin.take 8).length = 8 := by
    rw [List.length_take, length]
    rfl
  have low : (prefixBin.drop 8).length = 8 := by
    rw [List.length_drop, length]
  have halves := List.take_append_drop 8 prefixBin
  unfold endingV6
  split
  · split
    · -- the bits go on in the second half
      have word := greatest_word (n := len - 64) low (by omega)
      have whole := word.append (prefixBin.take 8)
      have count : 8 * (prefixBin.take 8).length + (len - 64) = len := by omega
      rwa [halves, count] at whole
    · have word := greatest_word (n := len) high (by omega)
      have ones : bigEndian (beBytes 8 0xFFFFFFFFFFFFFFFF) = 256 ^ (prefixBin.drop 8).length - 1 := by
        rw [low]
        decide
      have whole := word.append_ones (b := prefixBin.drop 8) (by omega) (by rw [low]; rfl) ones
      rwa [halves] at whole
  · exact greatest_self (by omega)

theorem greatest_ending {isIPv4 : Bool} {len : Nat} {prefixBin : List UInt8} (field : List UInt8)
    (fits : len ≤ maxBits isIPv4) (length : prefixBin.length = 16) :
    Greatest len (prefixBin.take (addrOctets isIPv4))
      ((ending isIPv4 len prefixBin field).take (addrOctets isIPv4)) := by
  cases isIPv4 with
  | true => exact greatest_endingV4 field fits length
  | false =>
    have last := greatest_endingV6 fits length
    have whole : prefixBin.take (addrOctets false) = prefixBin :=
      List.take_of_length_le (by rw [length]; rfl)
    have whole' : (ending false len prefixBin field).take (addrOctets false) =
        endingV6 len prefixBin :=
      List.take_of_length_le (by rw [ending, if_neg (by decide), last.length, length]; rfl)
    rwa [whole, whole']

/-- The address octets are a function of the prefix alone, which is the greatest address with
its leading bits. -/
structure EndsRight (isIPv4 : Bool) (len : Nat) (prefixBin out : List UInt8) : Prop where
  last : out.take (addrOctets isIPv4) = lastAddress isIPv4 len prefixBin
  greatest : Greatest len (prefixBin.take (addrOctets isIPv4)) (out.take (addrOctets isIPv4))

theorem endsRight_ending {isIPv4 : Bool} {len : Nat} {prefixBin : List UInt8} (field : List UInt8)
    (fits : len ≤ maxBits isIPv4) (length : prefixBin.length = 16) :
    EndsRight isIPv4 len prefixBin (ending isIPv4 len prefixBin field) where
  last := (greatest_ending field fits length).unique (greatest_lastAddress fits length)
  greatest := greatest_ending field fits length

/-- A tuple whose prefix length is one of its family. -/
structure Ranged (tuple : PrefixTuple) : Prop where
  len_le : tuple.len ≤ maxBits tuple.isIPv4
  bin : tuple.prefixBin.length = 16

theorem endsRight_bcastBins {τ : Type} (tupleOf : τ → PrefixTuple)
    (fill : τ → List UInt8 → List UInt8)
    (filled : ∀ t field, fill t field =
      ending (tupleOf t).isIPv4 (tupleOf t).len (tupleOf t).prefixBin field)
    (field : List UInt8) (tuples : List τ) (ranged : ∀ t ∈ tuples, Ranged (tupleOf t)) :
    List.Forall₂ (fun t out => EndsRight (tupleOf t).isIPv4 (tupleOf t).len (tupleOf t).prefixBin out)
      tuples (bcastBins fill field tuples) := by
  induction tuples generalizing field with
  | nil => exact List.Forall₂.nil
  | cons t tuples ih =>
    obtain ⟨first, rest⟩ := List.forall_mem_cons.mp ranged
    refine List.Forall₂.cons ?_ (ih _ rest)
    rw [filled]
    exact endsRight_ending field first.len_le first.bin

/-- IP reachability information, wholly there. -/
structure AtIpReach (m : Mem) (data dataLen : Nat) : Prop where
  type : u16 m data = 265
  some_ : 1 ≤ u16 m (data + 2)
  complete : 4 + u16 m (data + 2) ≤ dataLen

theorem length_copyPrefix (bytes : List UInt8) (info : PrefixDescriptor) :
    (copyPrefix bytes info).pre.length = 16 := by
  simp only [copyPrefix, overwrite, List.length_take, List.length_append, List.length_drop,
    List.length_replicate]
  omega

theorem endsRight_ipReach (m : Mem) (isIPv4 : Bool) (len data : Nat) (info : PrefixDescriptor)
    (short : (ipReach m isIPv4 len data info).prefixLen ≤ maxBits isIPv4) :
    EndsRight isIPv4 (ipReach m isIPv4 len data info).prefixLen (ipReach m isIPv4 len data info).pre
      (ipReach m isIPv4 len data info).preBcast :=
  endsRight_ending _ short (length_copyPrefix _ _)

theorem parse_ipReach {m : Mem} {data dataLen : Nat} (isIPv4 : Bool) (here : AtIpReach m data dataLen)
    (info : PrefixDescriptor) :
    ((parseDescrPrefix m isIPv4).parse data dataLen info).2 =
      ipReach m isIPv4 (u16 m (data + 2)) (data + 4) info := by
  obtain ⟨type, some_, complete⟩ := here
  simp only [parseDescrPrefix, parseDescr, type]
  rw [if_neg (by omega), if_neg (by omega)]
  simp only [prefixDescr]
  rw [if_neg (by omega)]

/-- In every list of prefixes, and for every reachability information, the three computations
give the greatest address with the leading bits of the prefix, whatever the record held
before. -/
theorem ending_addresses (field : List UInt8) (prefixes : List PrefixTuple)
    (ranged : ∀ t ∈ prefixes, Ranged t) (vpns : List VpnTuple)
    (ranged' : ∀ t ∈ vpns, Ranged t.toPrefixTuple) (m : Mem) (isIPv4 : Bool) (data dataLen : Nat)
    (here : AtIpReach m data dataLen) (info read : PrefixDescriptor)
    (parsed : ((parseDescrPrefix m isIPv4).parse data dataLen info).2 = read)
    (short : read.prefixLen ≤ maxBits isIPv4) :
    List.Forall₂ (fun t out => EndsRight t.isIPv4 t.len t.prefixBin out) prefixes
        (bcastBins advBcastBin field prefixes) ∧
      List.Forall₂ (fun t out => EndsRight t.isIPv4 t.len t.prefixBin out) vpns
        (bcastBins vpnBcastBin field vpns) ∧
      EndsRight isIPv4 read.prefixLen read.pre read.preBcast := by
  refine ⟨?_, ?_, ?_⟩
  · exact endsRight_bcastBins id advBcastBin (fun _ _ => rfl) field prefixes ranged
  · exact endsRight_bcastBins VpnTuple.toPrefixTuple vpnBcastBin (fun _ _ => rfl) field vpns ranged'
  · rw [parse_ipReach isIPv4 here info] at parsed
    subst parsed
    exact endsRight_ipReach m isIPv4 _ _ info short

private def tenSlashTwelve : VpnTuple where
  type := .labelUnicastV4
  len := 12
  prefixText := "10.17.2.3".toList
  prefixBin := [10, 17, 2, 3] ++ List.replicate 12 0
  pathId := 0
  isIPv4 := true
  labels := []
  rdAdministratorSubfield := []
  rdAssignedNumber := []
  rdType := 0

private theorem ranged_tenSlashTwelve : Ranged tenSlashTwelve.toPrefixTuple := ⟨by decide, rfl⟩

/-- `10.17.2.3/12` twice in a list, and once as reachability information: it ends at
`10.31.255.255`. -/
theorem ending_addresses_ten :
    lastAddress true 12 tenSlashTwelve.prefixBin = [10, 31, 255, 255] ∧
      List.Forall₂ (fun t out => EndsRight t.isIPv4 t.len t.prefixBin out)
        [tenSlashTwelve.toPrefixTuple, tenSlashTwelve.toPrefixTuple]
        (bcastBins advBcastBin (List.replicate 16 7)
          [tenSlashTwelve.toPrefixTuple, tenSlashTwelve.toPrefixTuple]) := by
  refine ⟨by decide, ?_⟩
  have ranged : ∀ t ∈ [tenSlashTwelve.toPrefixTuple, tenSlashTwelve.toPrefixTuple], Ranged t := by
    simp [ranged_tenSlashTwelve]
  exact (ending_addresses (List.replicate 16 7) _ ranged [tenSlashTwelve]
    (by simp [ranged_tenSlashTwelve]) (memOf [1, 9, 0, 5, 12, 10, 17, 2, 3]) true 0 9
    ⟨by decide, by decide, by decide⟩ PrefixDescriptor.zero _ rfl (by decide)).1

end SonicBmp.Bgp.EndingAddress
