/- module: SonicBmp/Bgp/NextHop
   digest: Which MP_REACH next hops are printed as the address they carry. -/

import SonicBmp.Bgp.AddressText
import SonicBmp.Bgp.Attributes

set_option autoImplicit false
set_option relaxedAutoImplicit false

namespace SonicBmp.Bgp.NextHop

open SonicBmp.Library.Memory
open SonicBmp.Library.Printing (Text)
open SonicBmp.Bgp.Common
open SonicBmp.Bgp.Nlri
open SonicBmp.Bgp.Attributes
open SonicBmp.Bgp.AddressText

/-! Next hops on the wire. -/

/-- The SAFIs whose next hop is an address. -/
inductive ReachSafi
  | unicast | label | vpn
  deriving DecidableEq

def ReachSafi.code : ReachSafi → Nat
  | .unicast => bgpSafiUnicast
  | .label => bgpSafiNlriLabel
  | .vpn => bgpSafiMpls

/-- An IPv4 address, an IPv6 address, or a global and a link-local one. -/
inductive HopAddr
  | v4 (address : Vector UInt8 4)
  | v6 (address : Vector UInt8 16)
  | v6Pair (address linkLocal : Vector UInt8 16)

namespace HopAddr

def isIPv4 : HopAddr → Bool
  | .v4 _ => true
  | _ => false

def first : HopAddr → List UInt8
  | .v4 address => address.toList
  | .v6 address => address.toList
  | .v6Pair address _ => address.toList

def text (a : HopAddr) : Text := inetNtop a.isIPv4 a.first

end HopAddr

/-- A next hop with the distinguishers that stand in front of its addresses in a VPN. -/
structure Hop where
  safi : ReachSafi
  addr : HopAddr
  rd : Vector UInt8 8
  linkRd : Vector UInt8 8

namespace Hop

def marked (h : Hop) (rd : Vector UInt8 8) (address : List UInt8) : List UInt8 :=
  if h.safi = .vpn then rd.toList ++ address else address

def rest (h : Hop) : List UInt8 :=
  match h.addr with
  | .v6Pair _ linkLocal => h.marked h.linkRd linkLocal.toList
  | _ => []

def bytes (h : Hop) : List UInt8 := h.marked h.rd (h.addr.first ++ h.rest)

/-- The attribute around a next hop. -/
def encode (isIPv4 : Bool) (h : Hop) (reserved : UInt8) (nlri : List UInt8) : List UInt8 :=
  put16 (bgpAfi isIPv4) ++ (put8 h.safi.code ++ (put8 h.bytes.length ++
    (h.bytes ++ (reserved :: nlri))))

/-- The attribute map gets the first address, printed in its own family. -/
def Shown (isIPv4 : Bool) (h : Hop) : Prop :=
  ∀ (D : Decoders) (m : Mem) (data : Nat) (st : UpdateState D) (reserved : UInt8)
    (nlri : List UInt8), Holds m data (h.encode isIPv4 reserved nlri) →
    (parseReachNlriAttr m (h.encode isIPv4 reserved nlri).length data st).data.attrs .nextHop =
      some h.addr.text

end Hop

/-! What the decoder prints. -/

/-- The bytes that reach the address buffer: only VPNv4 steps over the distinguisher. -/
def seen (isIPv4 : Bool) (h : Hop) : List UInt8 :=
  if h.safi = .vpn ∧ isIPv4 = true then h.bytes.drop 8 else h.bytes

def padded (bytes : List UInt8) : List UInt8 :=
  bytes.take 16 ++ List.replicate (16 - bytes.length) 0

theorem nextHopText_of_holds {m : Mem} {p : Nat} {bytes : List UInt8} (isIPv4 : Bool)
    (held : Holds m p bytes) :
    nextHopText isIPv4 m p bytes.length = inetNtop isIPv4 (padded bytes) := by
  have front : Holds m p (bytes.take 16) := by
    rw [← List.take_append_drop 16 bytes, holds_append] at held
    exact held.1
  have length : (bytes.take 16).length = min bytes.length 16 := by
    rw [List.length_take, Nat.min_comm]
  rw [nextHopText, copyRaw_of_holds 16 front length (Nat.min_le_right _ _), padded]
  congr 3
  omega

theorem Hop.length_bytes_le (h : Hop) : h.bytes.length ≤ 48 := by
  obtain ⟨safi, addr, rd, linkRd⟩ := h
  cases addr <;> cases safi <;> simp [Hop.bytes, Hop.marked, Hop.rest, HopAddr.first]

theorem Hop.bytes_vpn (h : Hop) (vpn : h.safi = .vpn) :
    h.bytes = h.rd.toList ++ (h.addr.first ++ h.rest) := if_pos vpn

/-- One text for the three SAFIs; VPNv4 alone reads eight octets on. -/
theorem reachIPv4IPv6_text {D : Decoders} (isIPv4 : Bool) (m : Mem) (nlri : MpReachNlri)
    (st : UpdateState D) (safi : ReachSafi) (here : nlri.safi = safi.code) :
    (reachIPv4IPv6 isIPv4 m nlri st).data.attrs .nextHop =
      some (if safi = .vpn ∧ isIPv4 = true then
          nextHopText isIPv4 m (nlri.nextHop + 8) ((nlri.nhLen + 256 - 8) % 256)
        else nextHopText isIPv4 m nlri.nextHop nlri.nhLen) := by
  rw [reachIPv4IPv6, here]
  cases safi with
  | unicast =>
    rw [if_pos (by decide)]
    exact st.setAttr_self .nextHop _
  | label =>
    rw [if_neg (by decide), if_pos (by decide)]
    exact st.setAttr_self .nextHop _
  | vpn =>
    rw [if_neg (by decide), if_neg (by decide), if_pos (by decide)]
    cases isIPv4 with
    | false => exact st.setAttr_self .nextHop _
    | true => exact st.setAttr_self .nextHop _

theorem reachIPv4IPv6_nextHop {D : Decoders} (isIPv4 : Bool) (m : Mem) (nlri : MpReachNlri)
    (st : UpdateState D) (h : Hop) (safi : nlri.safi = h.safi.code)
    (length : nlri.nhLen = h.bytes.length) (held : Holds m nlri.nextHop h.bytes) :
    (reachIPv4IPv6 isIPv4 m nlri st).data.attrs .nextHop =
      some (inetNtop isIPv4 (padded (seen isIPv4 h))) := by
  have short := h.length_bytes_le
  rw [reachIPv4IPv6_text isIPv4 m nlri st h.safi safi, length, seen]
  by_cases stripped : h.safi = .vpn ∧ isIPv4 = true
  · have bytes := h.bytes_vpn stripped.1
    rw [bytes, holds_append, Vector.length_toList] at held
    have left : (h.bytes.length + 256 - 8) % 256 = (h.addr.first ++ h.rest).length := by
      rw [bytes, List.length_append, Vector.length_toList] at short ⊢
      omega
    rw [if_pos stripped, if_pos stripped, left, bytes, List.drop_left' Vector.length_toList,
      nextHopText_of_holds isIPv4 held.2]
  · rw [if_neg stripped, if_neg stripped, nextHopText_of_holds isIPv4 held]

/-- The header of the attribute leads to the next hop. -/
theorem parseReachNlriAttr_nextHop {D : Decoders} {m : Mem} {data : Nat} (st : UpdateState D)
    (isIPv4 : Bool) (h : Hop) {reserved : UInt8} {nlri : List UInt8}
    (held : Holds m data (h.encode isIPv4 reserved nlri)) :
    (parseReachNlriAttr m (h.encode isIPv4 reserved nlri).length data st).data.attrs .nextHop =
      some (inetNtop isIPv4 (padded (seen isIPv4 h))) := by
  have short := h.length_bytes_le
  have size : (h.encode isIPv4 reserved nlri).length = 5 + h.bytes.length + nlri.length := by
    simp [Hop.encode]
    omega
  simp only [Hop.encode, holds_append, length_put16, length_put8, Nat.add_assoc, Nat.reduceAdd]
    at held
  obtain ⟨heldAfi, heldSafi, heldLen, heldHop, -⟩ := held
  have afi := heldAfi.u16 (by cases isIPv4 <;> decide)
  have safi := heldSafi.u8 (by cases h.safi <;> decide)
  have length := heldLen.u8 (by omega)
  rw [parseReachNlriAttr, length, safi, afi, size]
  rw [if_neg (by omega), reachAfi]
  cases isIPv4 with
  | false => exact reachIPv4IPv6_nextHop false m _ st h rfl rfl heldHop
  | true => exact reachIPv4IPv6_nextHop true m _ st h rfl rfl heldHop

theorem shown_iff_text (isIPv4 : Bool) (h : Hop) :
    h.Shown isIPv4 ↔ inetNtop isIPv4 (padded (seen isIPv4 h)) = h.addr.text := by
  constructor
  · intro shown
    have here := shown .silent _ 0 ⟨.fresh, .empty _⟩ 0 [] (holds_memOf _)
    rw [parseReachNlriAttr_nextHop _ isIPv4 h (holds_memOf _)] at here
    exact Option.some.inj here
  · intro same D m data st reserved nlri held
    rw [parseReachNlriAttr_nextHop st isIPv4 h held, same]

/-! When the printed text is that of the address. -/

/-- The families never print alike. -/
theorem inetNtop_family {isIPv4 isIPv4' : Bool} {src src' : List UInt8}
    (same : inetNtop isIPv4 src = inetNtop isIPv4' src') : isIPv4 = isIPv4' := by
  have apart (src src' : List UInt8) : inetNtop4 src ≠ inetNtop6 src' := by
    intro alike
    have colon := colon_mem_inetNtop6 src'
    rw [← alike] at colon
    exact colon_not_mem_inetNtop4 src colon
  match isIPv4, isIPv4' with
  | false, false => rfl
  | true, true => rfl
  | true, false => exact absurd same (apart src src')
  | false, true => exact absurd same.symm (apart src' src)

theorem HopAddr.length_first (a : HopAddr) : a.first.length = if a.isIPv4 then 4 else 16 := by
  cases a <;> simp [HopAddr.first, HopAddr.isIPv4]

theorem padded_append {front rest : List UInt8} (length : front.length = 16) :
    padded (front ++ rest) = front := by
  rw [padded, List.take_left' length, List.length_append, length, Nat.sub_eq_zero_of_le (by omega),
    List.replicate_zero, List.append_nil]

/-- In a VPNv6 route the address buffer holds the distinguisher and half of the address. -/
theorem padded_vpn (h : Hop) (vpn : h.safi = .vpn) (long : h.addr.first.length = 16) :
    padded h.bytes = h.rd.toList ++ h.addr.first.take 8 := by
  have half : (h.rd.toList ++ h.addr.first.take 8).length = 16 := by simp [long]
  rw [h.bytes_vpn vpn, ← List.take_append_drop 8 h.addr.first, List.append_assoc,
    ← List.append_assoc, List.take_append_drop]
  exact padded_append half

theorem half_eq_iff (h : Hop) :
    h.rd.toList ++ h.addr.first.take 8 = h.addr.first ↔
      h.addr.first = h.rd.toList ++ h.rd.toList := by
  constructor
  · intro same
    have front : h.addr.first.take 8 = h.rd.toList := by
      rw [← same, List.take_left' Vector.length_toList]
    rwa [front, eq_comm] at same
  · intro twice
    rw [twice, List.take_left' Vector.length_toList]

/-- The next hop is the printed form of the first address exactly if that address is of the
family of the AFI and, in a VPNv6 route, is the distinguisher twice over. -/
theorem nextHop_shown_iff (isIPv4 : Bool) (h : Hop) :
    h.Shown isIPv4 ↔ h.addr.isIPv4 = isIPv4 ∧
      (h.safi = .vpn → isIPv4 = false → h.addr.first = h.rd.toList ++ h.rd.toList) := by
  have length := h.addr.length_first
  rw [shown_iff_text]
  constructor
  · intro same
    have family : isIPv4 = h.addr.isIPv4 := inetNtop_family same
    refine ⟨family.symm, ?_⟩
    rintro vpn rfl
    rw [← family, if_neg Bool.false_ne_true] at length
    rw [seen, if_neg fun both => Bool.false_ne_true both.2, padded_vpn h vpn length,
      HopAddr.text, ← family] at same
    refine (half_eq_iff h).mp (inetNtop6_injective ?_ length same)
    simp [length]
  · rintro ⟨rfl, twice⟩
    rw [HopAddr.text]
    cases family : h.addr.isIPv4 with
    | true =>
      rw [family, if_pos rfl] at length
      have stripped : seen true h = h.addr.first ++ h.rest := by
        rw [seen]
        by_cases vpn : h.safi = .vpn
        · rw [if_pos ⟨vpn, rfl⟩, h.bytes_vpn vpn, List.drop_left' Vector.length_toList]
        · rw [if_neg fun both => vpn both.1, Hop.bytes, Hop.marked, if_neg vpn]
      have front : padded (h.addr.first ++ h.rest) =
          h.addr.first ++ (h.rest.take 12 ++ List.replicate (16 - (h.addr.first ++ h.rest).length) 0) := by
        rw [padded, List.take_append, length, List.take_of_length_le (by omega), List.append_assoc]
      rw [stripped, front]
      exact inetNtop4_append _ _ (by omega)
    | false =>
      rw [family] at length twice
      rw [seen, if_neg fun both => Bool.false_ne_true both.2]
      by_cases vpn : h.safi = .vpn
      · rw [padded_vpn h vpn length, (half_eq_iff h).mpr (twice vpn rfl)]
      · rw [Hop.bytes, Hop.marked, if_neg vpn, padded_append length]

/-- The VPNv6 next hop 2001:db8::1 behind the distinguisher 0:0. -/
theorem vpnv6_nextHop_not_shown :
    ¬ Hop.Shown false ⟨.vpn, .v6 #v[0x20, 0x01, 0x0d, 0xb8, 0, 0, 0, 0, 0, 0, 0, 0, 0, 0, 0, 1],
      Vector.replicate 8 0, Vector.replicate 8 0⟩ := by
  rw [shown_iff_text]
  decide

end SonicBmp.Bgp.NextHop
