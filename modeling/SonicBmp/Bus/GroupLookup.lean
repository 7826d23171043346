/- module: SonicBmp/Bus/GroupLookup
   digest: The groups of routers and peers by hostname, prefix range and ASN, and when the ranges decide as they read. -/

import SonicBmp.Bus.PrefixRanges
import SonicBmp.Library.LeadingBits

set_option autoImplicit false
set_option relaxedAutoImplicit false

namespace SonicBmp.Bus.GroupLookup

open SonicBmp.Library.Printing
open SonicBmp.Library.Memory
open SonicBmp.Library.LeadingBits
open SonicBmp.Bus.PrefixRanges

/-- `uint32_t prefix[4]`. -/
abbrev Words := Fin 4 → UInt32

/-- A word as a little-endian processor reads it from memory. -/
def word (octets : Vector UInt8 16) (j : Fin 4) : UInt32 :=
  UInt32.ofNat (leValue ((octets.toList.drop (4 * j)).take 4))

/-- `w <<= bits; w >>= bits`. A shift by 32 or more is undefined in the source; here it is
what the processor does, which takes the count modulo 32. -/
def shiftOut (w : UInt32) (bits : UInt8) : UInt32 := (w <<< bits.toUInt32) >>> bits.toUInt32

/-- `end_idx` and `bits` of the branch for IPv6. -/
def endOf (bits : UInt8) : UInt8 × UInt8 :=
  let endIdx := bits / 32
  let rest := bits - 32 * endIdx
  (if rest = 0 then endIdx - 1 else endIdx, rest)

/-- One turn of the loop over the ranges: the address is cut in place and compared. The
branch for IPv4 is taken whenever the families are the same. -/
def examine (isIPv4 : Bool) (range : MatchTypeIp) (address : Words) : Bool × Words :=
  if range.isIPv4 = isIPv4 then
    let address := Function.update address 0 (shiftOut (address 0) (32 - range.bits))
    (address 0 = word range.prefixOctets 0, address)
  else
    let address :=
      if inside : (endOf range.bits).1.toNat < 4 ∧ (endOf range.bits).2 < 32 then
        let last : Fin 4 := ⟨(endOf range.bits).1.toNat, inside.1⟩
        Function.update address last (shiftOut (address last) (endOf range.bits).2)
      else address
    (∀ j, address j = word range.prefixOctets j, address)

/-- The ranges of one group, up to the first that matches. -/
def examineAll (isIPv4 : Bool) : List MatchTypeIp → Words → Bool × Words
  | [], address => (false, address)
  | range :: ranges, address =>
    match examine isIPv4 range address with
    | (true, address) => (true, address)
    | (false, address) => examineAll isIPv4 ranges address

def prefixLoop (isIPv4 : Bool) : List (Text × List MatchTypeIp) → Words → Option Text
  | [], _ => none
  | (name, ranges) :: groups, address =>
    match examineAll isIPv4 ranges address with
    | (true, _) => some name
    | (false, address) => prefixLoop isIPv4 groups address

/-- An address text without a colon is an IPv4 address. -/
def isIPv4Text (ipAddr : Text) : Bool := decide (':' ∉ ipAddr)

def addressOctets (inet : InetPton) (ipAddr : Text) : Vector UInt8 16 :=
  inet.fill (isIPv4Text ipAddr) ipAddr

/-- The stage that the two lookups have in common. -/
def prefixStage (inet : InetPton) (map : GroupMap MatchTypeIp) (ipAddr : Text) : Option Text :=
  prefixLoop (isIPv4Text ipAddr) map.entries (word (addressOctets inet ipAddr))

/-- The groups of the configuration, with compiled expressions of type `ρ`. -/
structure GroupConfig (ρ : Type) where
  routerByName : GroupMap ρ
  routerByIp : GroupMap MatchTypeIp
  peerByName : GroupMap ρ
  peerByIp : GroupMap MatchTypeIp
  peerByAsn : GroupMap UInt32

structure MatchEnv (ρ : Type) where
  regexSearch : Text → ρ → Bool
  inetPton : InetPton

section Lookups

variable {ρ : Type} (env : MatchEnv ρ) (cfg : GroupConfig ρ)

def nameStage (map : GroupMap ρ) (hostname : Text) : Option Text :=
  if 0 < hostname.length then map.firstGroup (env.regexSearch hostname) else none

/-- `lookupRouterGroup`; the empty name is left if nothing matches. -/
def lookupRouterGroup (hostname ipAddr : Text) : Text :=
  match nameStage env cfg.routerByName hostname with
  | some name => name
  | none => (prefixStage env.inetPton cfg.routerByIp ipAddr).getD []

def lookupPeerGroup (hostname ipAddr : Text) (peerAsn : UInt32) : Text :=
  match nameStage env cfg.peerByName hostname with
  | some name => name
  | none =>
    match prefixStage env.inetPton cfg.peerByIp ipAddr with
    | some name => name
    | none => (cfg.peerByAsn.firstGroup (· = peerAsn)).getD []

end Lookups

/-! What the ranges say. -/

/-- A range of the family whose first bits are those of the address. -/
def Agrees (isIPv4 : Bool) (octets : Vector UInt8 16) (range : MatchTypeIp) : Prop :=
  range.isIPv4 = isIPv4 ∧ AgreeBits range.bits.toNat range.prefixOctets.toList octets.toList

instance (isIPv4 : Bool) (octets : Vector UInt8 16) : DecidablePred (Agrees isIPv4 octets) :=
  fun _ => instDecidableAnd

def firstAgreeing (inet : InetPton) (map : GroupMap MatchTypeIp) (ipAddr : Text) : Option Text :=
  map.firstGroup (fun range => Agrees (isIPv4Text ipAddr) (addressOctets inet ipAddr) range)

/-! What the loop compares. -/

/-- How many of the low bits of a word a range leaves in the address. -/
def kept (isIPv4 : Bool) (j : Fin 4) (range : MatchTypeIp) : Nat :=
  let bits := range.bits.toNat
  if range.isIPv4 = isIPv4 then if j = 0 then (bits - 1) % 32 + 1 else 32
  else if j.val = (bits - 1) / 32 then 32 - bits % 32 else 32

/-- How many are left after some ranges: the fewest that one of them leaves. -/
def left (isIPv4 : Bool) (seen : List MatchTypeIp) (j : Fin 4) : Nat :=
  (seen.map (kept isIPv4 j)).foldl min 32

/-- The number in the low bits that are left of a word of the address. -/
def cut (isIPv4 : Bool) (octets : Vector UInt8 16) (seen : List MatchTypeIp) (j : Fin 4) : Nat :=
  (word octets j).toNat % 2 ^ left isIPv4 seen j

/-- The range is matched after the ranges `seen`: its first word is what is left of the
address's first word if the family is the same, and all its words if it is not. -/
def Hits (isIPv4 : Bool) (octets : Vector UInt8 16) (seen : List MatchTypeIp)
    (range : MatchTypeIp) : Prop :=
  if range.isIPv4 = isIPv4 then
    cut isIPv4 octets (seen ++ [range]) 0 = (word range.prefixOctets 0).toNat
  else ∀ j, cut isIPv4 octets (seen ++ [range]) j = (word range.prefixOctets j).toNat

/-- One of the ranges of a group is matched. -/
def GroupHits (isIPv4 : Bool) (octets : Vector UInt8 16) :
    List MatchTypeIp → List MatchTypeIp → Prop
  | _, [] => False
  | seen, range :: ranges =>
    Hits isIPv4 octets seen range ∨ GroupHits isIPv4 octets (seen ++ [range]) ranges

/-- Up to the first group with a range that agrees, a group has a range that is matched
exactly if it has one that agrees. -/
def MatchesAsRead (isIPv4 : Bool) (octets : Vector UInt8 16) :
    List MatchTypeIp → List (Text × List MatchTypeIp) → Prop
  | _, [] => True
  | seen, (_, ranges) :: groups =>
    ((∃ range ∈ ranges, Agrees isIPv4 octets range) ↔ GroupHits isIPv4 octets seen ranges) ∧
      ((¬ ∃ range ∈ ranges, Agrees isIPv4 octets range) →
        MatchesAsRead isIPv4 octets (seen ++ ranges) groups)

/-! One turn. -/

theorem toNat_shiftOut (w : UInt32) (bits : UInt8) :
    (shiftOut w bits).toNat = w.toNat % 2 ^ (32 - bits.toNat % 32) := by
  rw [shiftOut, UInt32.toNat_shiftRight, UInt32.toNat_shiftLeft, UInt8.toNat_toUInt32,
    Nat.shiftLeft_eq, Nat.shiftRight_eq_div_pow]
  have whole : (2 : Nat) ^ 32 = 2 ^ (32 - bits.toNat % 32) * 2 ^ (bits.toNat % 32) := by
    rw [← pow_add]
    congr 1
    omega
  rw [whole, Nat.mul_mod_mul_right, Nat.mul_div_cancel _ (Nat.two_pow_pos _)]

/-- The address as the loop has it after some ranges. -/
def state (isIPv4 : Bool) (octets : Vector UInt8 16) (seen : List MatchTypeIp) : Words :=
  fun j => UInt32.ofNat (cut isIPv4 octets seen j)

section Turn

variable (isIPv4 : Bool) (octets : Vector UInt8 16) (seen : List MatchTypeIp)

theorem left_concat (range : MatchTypeIp) (j : Fin 4) :
    left isIPv4 (seen ++ [range]) j = min (left isIPv4 seen j) (kept isIPv4 j range) := by
  rw [left, List.map_append, List.foldl_append]
  rfl

theorem cut_lt (j : Fin 4) : cut isIPv4 octets seen j < 2 ^ 32 :=
  (Nat.mod_le _ _).trans_lt (UInt32.toNat_lt _)

theorem toNat_state (j : Fin 4) :
    (state isIPv4 octets seen j).toNat = cut isIPv4 octets seen j :=
  UInt32.toNat_ofNat_of_lt' (cut_lt isIPv4 octets seen j)

theorem cut_concat (range : MatchTypeIp) (j : Fin 4) :
    cut isIPv4 octets (seen ++ [range]) j =
      cut isIPv4 octets seen j % 2 ^ kept isIPv4 j range := by
  rw [cut, cut, left_concat]
  rcases Nat.le_total (left isIPv4 seen j) (kept isIPv4 j range) with few | few
  · have small := (Nat.mod_lt (word octets j).toNat (Nat.two_pow_pos (left isIPv4 seen j))).trans_le
      (Nat.pow_le_pow_right (by decide) few)
    rw [Nat.min_eq_left few, Nat.mod_eq_of_lt small]
  · rw [Nat.min_eq_right few, Nat.mod_mod_of_dvd _ (pow_dvd_pow 2 few)]

/-- A range that cuts the word `j` and leaves the others as they are. -/
theorem update_state {range : MatchTypeIp} (j : Fin 4) (bits : UInt8)
    (here : kept isIPv4 j range = 32 - bits.toNat % 32)
    (others : ∀ i, i ≠ j → kept isIPv4 i range = 32) :
    Function.update (state isIPv4 octets seen) j (shiftOut (state isIPv4 octets seen j) bits) =
      state isIPv4 octets (seen ++ [range]) := by
  funext i
  apply UInt32.toNat_inj.mp
  rw [toNat_state, cut_concat]
  by_cases own : i = j
  · subst own
    rw [Function.update_self, toNat_shiftOut, toNat_state, here]
  · rw [Function.update_of_ne own, toNat_state, others i own,
      Nat.mod_eq_of_lt (cut_lt isIPv4 octets seen i)]

/-- The last word that the bits of a range reach, and how many they take of it. -/
theorem toNat_endOf (range : MatchTypeIp) :
    (endOf range.bits).1.toNat = (range.bits.toNat - 1) / 32 ∧
      (endOf range.bits).2.toNat = range.bits.toNat % 32 := by
  have least : 1 ≤ range.bits.toNat := range.one_le_bits
  have most := range.bits.toNat_lt
  have whole : (range.bits / 32).toNat = range.bits.toNat / 32 := by simp
  have product : (32 * (range.bits / 32)).toNat = 32 * (range.bits.toNat / 32) := by
    rw [UInt8.toNat_mul, whole]
    exact Nat.mod_eq_of_lt (by show 32 * (range.bits.toNat / 32) < 256; omega)
  have rest : (range.bits - 32 * (range.bits / 32)).toNat = range.bits.toNat % 32 := by
    rw [UInt8.toNat_sub, product]
    omega
  refine ⟨?_, rest⟩
  unfold endOf
  dsimp only
  split
  · rename_i none_left
    rw [none_left] at rest
    have exactly : 0 = range.bits.toNat % 32 := rest
    rw [UInt8.toNat_sub, whole]
    show (256 - 1 + range.bits.toNat / 32) % 256 = _
    omega
  · rename_i some_left
    have more : range.bits.toNat % 32 ≠ 0 := fun none_left =>
      some_left (UInt8.toNat_inj.mp (rest.trans none_left))
    omega

theorem examine_eq (range : MatchTypeIp) :
    (examine isIPv4 range (state isIPv4 octets seen)).2 = state isIPv4 octets (seen ++ [range]) ∧
      ((examine isIPv4 range (state isIPv4 octets seen)).1 = true ↔
        Hits isIPv4 octets seen range) := by
  have least : 1 ≤ range.bits.toNat := range.one_le_bits
  have most : range.bits.toNat ≤ 128 := by
    refine range.bits_le.trans ?_
    cases range.isIPv4 <;> decide
  unfold examine Hits
  by_cases family : range.isIPv4 = isIPv4
  · have count : (32 - range.bits).toNat % 32 = 31 - (range.bits.toNat - 1) % 32 := by
      rw [UInt8.toNat_sub]
      show (256 - range.bits.toNat + 32) % 256 % 32 = _
      omega
    have here : kept isIPv4 0 range = 32 - (32 - range.bits).toNat % 32 := by
      rw [count, kept, if_pos family, if_pos rfl]
      omega
    have moved := update_state isIPv4 octets seen 0 (32 - range.bits) here
      (fun i other => by rw [kept, if_pos family, if_neg other])
    rw [if_pos family, if_pos family, moved]
    refine ⟨rfl, ?_⟩
    rw [decide_eq_true_iff, ← UInt32.toNat_inj, toNat_state]
  · obtain ⟨last, rest⟩ := toNat_endOf range
    rw [if_neg family, if_neg family]
    have inside : (endOf range.bits).1.toNat < 4 ∧ (endOf range.bits).2 < 32 := by
      refine ⟨by omega, UInt8.lt_iff_toNat_lt.mpr ?_⟩
      rw [rest]
      exact Nat.mod_lt _ (by decide)
    have here : kept isIPv4 ⟨(endOf range.bits).1.toNat, inside.1⟩ range =
        32 - (endOf range.bits).2.toNat % 32 := by
      rw [kept, if_neg family, if_pos last, rest, Nat.mod_mod]
    have others : ∀ i, i ≠ ⟨(endOf range.bits).1.toNat, inside.1⟩ →
        kept isIPv4 i range = 32 := by
      intro i other
      rw [kept, if_neg family, if_neg]
      rw [← last]
      exact fun same => other (Fin.ext same)
    rw [dif_pos inside, update_state isIPv4 octets seen _ _ here others]
    refine ⟨rfl, ?_⟩
    simp only [decide_eq_true_iff, ← UInt32.toNat_inj, toNat_state]

end Turn

/-! The loops. -/

section Loops

variable {isIPv4 : Bool} {octets : Vector UInt8 16} {seen ranges : List MatchTypeIp}

theorem examine_hit {range : MatchTypeIp} (hit : Hits isIPv4 octets seen range) :
    examine isIPv4 range (state isIPv4 octets seen) =
      (true, state isIPv4 octets (seen ++ [range])) :=
  Prod.ext ((examine_eq isIPv4 octets seen range).2.mpr hit) (examine_eq isIPv4 octets seen range).1

theorem examine_miss {range : MatchTypeIp} (miss : ¬ Hits isIPv4 octets seen range) :
    examine isIPv4 range (state isIPv4 octets seen) =
      (false, state isIPv4 octets (seen ++ [range])) := by
  refine Prod.ext (Bool.eq_false_iff.mpr ?_) (examine_eq isIPv4 octets seen range).1
  exact fun hit => miss ((examine_eq isIPv4 octets seen range).2.mp hit)

theorem examineAll_hit (hit : GroupHits isIPv4 octets seen ranges) :
    ∃ address, examineAll isIPv4 ranges (state isIPv4 octets seen) = (true, address) := by
  induction ranges generalizing seen with
  | nil => cases hit
  | cons range ranges ih =>
    by_cases now : Hits isIPv4 octets seen range
    · exact ⟨_, by rw [examineAll, examine_hit now]⟩
    · obtain ⟨address, later⟩ := ih (hit.resolve_left now)
      refine ⟨address, ?_⟩
      rw [examineAll, examine_miss now]
      exact later

theorem examineAll_miss (miss : ¬ GroupHits isIPv4 octets seen ranges) :
    examineAll isIPv4 ranges (state isIPv4 octets seen) =
      (false, state isIPv4 octets (seen ++ ranges)) := by
  induction ranges generalizing seen with
  | nil => rw [examineAll, List.append_nil]
  | cons range ranges ih =>
    rw [GroupHits, not_or] at miss
    have regrouped : seen ++ range :: ranges = seen ++ [range] ++ ranges := by simp
    rw [examineAll, examine_miss miss.1, regrouped]
    exact ih miss.2

theorem prefixLoop_mem {groups : List (Text × List MatchTypeIp)} {address : Words} {name : Text}
    (found : prefixLoop isIPv4 groups address = some name) :
    ∃ group ∈ groups, group.1 = name := by
  induction groups generalizing address with
  | nil => cases found
  | cons first groups ih =>
    rw [prefixLoop] at found
    split at found
    · exact ⟨first, List.mem_cons_self, Option.some.inj found⟩
    · obtain ⟨group, here, own⟩ := ih found
      exact ⟨group, List.mem_cons_of_mem _ here, own⟩

/-- What the loop gives is the first group with a range that agrees exactly when the groups
match as they read. That the names are different is used where the two go apart. -/
theorem prefixLoop_eq_iff (isIPv4 : Bool) (octets : Vector UInt8 16) (seen : List MatchTypeIp)
    {groups : List (Text × List MatchTypeIp)} (sorted : groups.Pairwise (fun a b => a.1 < b.1)) :
    prefixLoop isIPv4 groups (state isIPv4 octets seen) =
        (groups.find? (fun group => group.2.any (Agrees isIPv4 octets ·))).map Prod.fst ↔
      MatchesAsRead isIPv4 octets seen groups := by
  induction groups generalizing seen with
  | nil => simp [prefixLoop, MatchesAsRead]
  | cons group groups ih =>
    obtain ⟨name, ranges⟩ := group
    obtain ⟨least, tail⟩ := List.pairwise_cons.mp sorted
    have other {group : Text × List MatchTypeIp} (here : group ∈ groups) : group.1 ≠ name :=
      (least group here).ne'
    rw [MatchesAsRead, prefixLoop]
    by_cases agree : ∃ range ∈ ranges, Agrees isIPv4 octets range
    · have first : ((name, ranges) :: groups).find?
          (fun group => group.2.any (Agrees isIPv4 octets ·)) = some (name, ranges) :=
        List.find?_cons_of_pos (by simpa using agree)
      rw [first]
      by_cases hit : GroupHits isIPv4 octets seen ranges
      · obtain ⟨address, turn⟩ := examineAll_hit hit
        rw [turn]
        simp [agree, hit]
      · rw [examineAll_miss hit]
        simp only [agree, hit, iff_false, not_true_eq_false, false_and, Option.map_some]
        intro found
        obtain ⟨group, here, own⟩ := prefixLoop_mem found
        exact other here own
    · have rest : ((name, ranges) :: groups).find?
          (fun group => group.2.any (Agrees isIPv4 octets ·)) =
          groups.find? (fun group => group.2.any (Agrees isIPv4 octets ·)) :=
        List.find?_cons_of_neg (by simpa using agree)
      rw [rest]
      by_cases hit : GroupHits isIPv4 octets seen ranges
      · obtain ⟨address, turn⟩ := examineAll_hit hit
        rw [turn]
        simp only [agree, hit, iff_true, false_and, iff_false]
        intro found
        obtain ⟨group, here, own⟩ := Option.map_eq_some_iff.mp found.symm
        exact other (List.mem_of_find?_eq_some here) own
      · rw [examineAll_miss hit]
        simp only [agree, hit, not_false_eq_true, true_and, forall_const]
        exact ih (seen ++ ranges) tail

end Loops

theorem state_nil (isIPv4 : Bool) (octets : Vector UInt8 16) :
    state isIPv4 octets [] = word octets := by
  funext j
  apply UInt32.toNat_inj.mp
  rw [toNat_state]
  exact Nat.mod_eq_of_lt (UInt32.toNat_lt _)

/-! Ranges of whole octets. -/

/-- An IPv4 range of one to four whole octets, the octets behind them zero. -/
structure OctetRange (range : MatchTypeIp) : Prop where
  isIPv4 : range.isIPv4 = true
  whole : range.bits.toNat % 8 = 0
  host : ∀ b ∈ (range.prefixOctets.toList.take 4).drop (range.bits.toNat / 8), b = 0

/-- No range takes more bits than one before it. -/
def Shortens (ranges : List MatchTypeIp) : Prop := ranges.Pairwise (fun a b => b.bits ≤ a.bits)

theorem OctetRange.bits_le {range : MatchTypeIp} (octetRange : OctetRange range) :
    range.bits.toNat ≤ 32 := by
  have most := range.bits_le
  rwa [octetRange.isIPv4] at most

theorem OctetRange.kept {range : MatchTypeIp} (octetRange : OctetRange range) :
    kept true 0 range = range.bits.toNat := by
  have least : 1 ≤ range.bits.toNat := range.one_le_bits
  have most := octetRange.bits_le
  rw [GroupLookup.kept, if_pos octetRange.isIPv4, if_pos rfl]
  omega

theorem le_left {isIPv4 : Bool} {seen : List MatchTypeIp} {j : Fin 4} {n : Nat} (small : n ≤ 32)
    (all : ∀ range ∈ seen, n ≤ kept isIPv4 j range) : n ≤ left isIPv4 seen j := by
  unfold left
  generalize 32 = start at small
  induction seen generalizing start with
  | nil => exact small
  | cons range seen ih =>
    refine ih (fun other here => all other (List.mem_cons_of_mem _ here)) _ ?_
    exact Nat.le_min.mpr ⟨small, all range List.mem_cons_self⟩

theorem length_take_octets (octets : Vector UInt8 16) {k : Nat} (within : k ≤ 4) :
    (octets.toList.take k).length = k := by
  rw [List.length_take, Vector.length_toList]
  omega

/-- The first word of an address, with `k` octets apart from the rest. -/
theorem toNat_word (octets : Vector UInt8 16) {k : Nat} (within : k ≤ 4) :
    (word octets 0).toNat = leValue (octets.toList.take k) +
      2 ^ (8 * k) * leValue ((octets.toList.take 4).drop k) := by
  have first : (octets.toList.take 4).take k = octets.toList.take k := by
    rw [List.take_take, Nat.min_eq_left within]
  have whole : (word octets 0).toNat = leValue (octets.toList.take 4) := by
    have small := leValue_lt (octets.toList.take 4)
    rw [length_take_octets octets le_rfl] at small
    exact UInt32.toNat_ofNat_of_lt' small
  have split := leValue_append ((octets.toList.take 4).take k) ((octets.toList.take 4).drop k)
  rw [List.take_append_drop, first, length_take_octets octets within, pow_octets] at split
  rw [whole, split]

theorem agreeBits_octets {k : Nat} (a b : Vector UInt8 16) (within : k ≤ 4) :
    AgreeBits (8 * k) a.toList b.toList ↔ leValue (a.toList.take k) = leValue (b.toList.take k) := by
  have width := length_take_octets a within
  have lengths := width.trans (length_take_octets b within).symm
  have parts := agreeBits_append (n := 0) lengths (a.toList.drop k) (b.toList.drop k)
  rw [List.take_append_drop, List.take_append_drop, width, Nat.add_zero] at parts
  rw [parts]
  constructor
  · rintro ⟨same, -⟩
    rw [same]
  · intro same
    exact ⟨leValue_inj lengths same, fun i here => absurd here (Nat.not_lt_zero i)⟩

theorem hits_iff_agrees (octets : Vector UInt8 16) {seen : List MatchTypeIp} {range : MatchTypeIp}
    (octetRange : OctetRange range) (earlier : ∀ r ∈ seen, OctetRange r)
    (longer : ∀ r ∈ seen, range.bits ≤ r.bits) :
    Hits true octets seen range ↔ Agrees true octets range := by
  have most := octetRange.bits_le
  obtain ⟨k, bits⟩ : ∃ k, range.bits.toNat = 8 * k :=
    ⟨range.bits.toNat / 8, by have := octetRange.whole; omega⟩
  have within : k ≤ 4 := by omega
  -- no range before this one has left fewer bits
  have all : left true (seen ++ [range]) 0 = 8 * k := by
    rw [left_concat, octetRange.kept, bits, Nat.min_eq_right]
    refine le_left (bits ▸ most) fun r here => ?_
    rw [(earlier r here).kept, ← bits]
    exact UInt8.le_iff_toNat_le.mp (longer r here)
  have rest := octetRange.host
  have octetsOf : range.bits.toNat / 8 = k := by omega
  rw [octetsOf] at rest
  have pos := Nat.two_pow_pos (8 * k)
  have below := leValue_lt (octets.toList.take k)
  rw [length_take_octets octets within, pow_octets] at below
  rw [Hits, if_pos octetRange.isIPv4, Agrees, bits, cut, all, toNat_word octets within,
    toNat_word range.prefixOctets within, leValue_zeros rest, Nat.mul_zero, Nat.add_zero,
    Nat.add_mul_mod_self_left, Nat.mod_eq_of_lt below, agreeBits_octets _ _ within]
  exact ⟨fun same => ⟨octetRange.isIPv4, same.symm⟩, fun agree => agree.2.symm⟩

theorem groupHits_iff_agrees (octets : Vector UInt8 16) {seen ranges : List MatchTypeIp}
    (octetRanges : ∀ r ∈ seen ++ ranges, OctetRange r) (shortens : Shortens (seen ++ ranges)) :
    (∃ range ∈ ranges, Agrees true octets range) ↔ GroupHits true octets seen ranges := by
  induction ranges generalizing seen with
  | nil => simp [GroupHits]
  | cons range ranges ih =>
    have regrouped : seen ++ range :: ranges = seen ++ [range] ++ ranges := by simp
    have first := hits_iff_agrees octets (octetRanges range (by simp))
      (fun r here => octetRanges r (List.mem_append_left _ here))
      (fun r here => (List.pairwise_append.mp shortens).2.2 r here range List.mem_cons_self)
    rw [regrouped] at octetRanges shortens
    rw [GroupHits, first, ← ih octetRanges shortens]
    simp

/-- A configuration of IPv4 ranges of whole octets, examined from the longest to the shortest,
matches every IPv4 address as it reads. -/
theorem matchesAsRead_of_octetRanges (octets : Vector UInt8 16) {seen : List MatchTypeIp}
    {groups : List (Text × List MatchTypeIp)}
    (octetRanges : ∀ r ∈ seen ++ groups.flatMap Prod.snd, OctetRange r)
    (shortens : Shortens (seen ++ groups.flatMap Prod.snd)) :
    MatchesAsRead true octets seen groups := by
  induction groups generalizing seen with
  | nil => trivial
  | cons group groups ih =>
    obtain ⟨name, ranges⟩ := group
    rw [List.flatMap_cons, ← List.append_assoc] at octetRanges shortens
    refine ⟨groupHits_iff_agrees octets ?_ ?_, fun _ => ih octetRanges shortens⟩
    · exact fun r here => octetRanges r (List.mem_append_left _ here)
    · exact (List.pairwise_append.mp shortens).1

/-! The lookups. -/

/-- Without a match of the hostname both lookups go on with the prefix ranges, which give the
first group that has a range of the address's family with the address's first bits, exactly
when the groups match as they read. -/
theorem prefix_lookup_iff {ρ : Type} (env : MatchEnv ρ) (cfg : GroupConfig ρ)
    (hostname ipAddr : Text) (peerAsn : UInt32)
    (noRouter : nameStage env cfg.routerByName hostname = none)
    (noPeer : nameStage env cfg.peerByName hostname = none) :
    (lookupRouterGroup env cfg hostname ipAddr =
        (prefixStage env.inetPton cfg.routerByIp ipAddr).getD [] ∧
      lookupPeerGroup env cfg hostname ipAddr peerAsn =
        ((prefixStage env.inetPton cfg.peerByIp ipAddr).or
          (cfg.peerByAsn.firstGroup (· = peerAsn))).getD []) ∧
    ∀ map : GroupMap MatchTypeIp,
      prefixStage env.inetPton map ipAddr = firstAgreeing env.inetPton map ipAddr ↔
        MatchesAsRead (isIPv4Text ipAddr) (addressOctets env.inetPton ipAddr) [] map.entries := by
  refine ⟨⟨?_, ?_⟩, fun map => ?_⟩
  · rw [lookupRouterGroup, noRouter]
  · rw [lookupPeerGroup, noPeer]
    cases prefixStage env.inetPton cfg.peerByIp ipAddr <;> rfl
  · rw [prefixStage, firstAgreeing, ← state_nil (isIPv4Text ipAddr)]
    exact prefixLoop_eq_iff _ _ [] map.sorted

/-- The addresses that the two examples below read. -/
def quadPton : InetPton
  | true, text =>
    [("10.0.0.0".toList, #v[10, 0, 0, 0]), ("10.16.0.0".toList, #v[10, 16, 0, 0]),
      ("10.17.2.3".toList, #v[10, 17, 2, 3])].lookup text
  | false, _ => none

def quadEnv : MatchEnv Unit := ⟨fun _ _ => false, quadPton⟩

def byPrefix (map : GroupMap MatchTypeIp) : GroupConfig Unit :=
  ⟨.empty, map, .empty, map, .empty⟩

def tenRange : MatchTypeIp :=
  ⟨true, #v[10, 0, 0, 0, 0, 0, 0, 0, 0, 0, 0, 0, 0, 0, 0, 0], 8, by decide⟩

def tenMap : GroupMap MatchTypeIp := ⟨[("core".toList, [tenRange])], List.pairwise_singleton _ _⟩

theorem prefix_lookup_ten :
    nameStage quadEnv (byPrefix tenMap).routerByName [] = none ∧
      prefixStage quadPton tenMap "10.17.2.3".toList = some "core".toList := by
  refine ⟨rfl, ?_⟩
  have matches_ : MatchesAsRead true (addressOctets quadPton "10.17.2.3".toList) [] tenMap.entries := by
    refine matchesAsRead_of_octetRanges _ ?_ (List.pairwise_singleton _ _)
    intro r here
    obtain rfl : r = tenRange := by simpa [tenMap] using here
    refine ⟨rfl, rfl, ?_⟩
    intro b zero
    have zero : b ∈ [0, 0, 0] := zero
    simpa using zero
  have right := prefix_lookup_iff quadEnv (byPrefix tenMap) [] "10.17.2.3".toList 0 rfl rfl
  exact ((right.2 tenMap).mpr matches_).trans (by decide +kernel)

/-- A range of 12 bits: 10.17.2.3 is in 10.16.0.0/12, and no group is found. -/
theorem twelve_bits_missed :
    (parsePrefixList quadPton "core".toList [some "10.16.0.0/12".toList] .empty).toOption.map
        (fun map =>
          (lookupRouterGroup quadEnv (byPrefix map) [] "10.17.2.3".toList,
            prefixStage quadPton map "10.17.2.3".toList,
            firstAgreeing quadPton map "10.17.2.3".toList)) =
      some ([], none, some "core".toList) := by
  decide +kernel

end SonicBmp.Bus.GroupLookup
