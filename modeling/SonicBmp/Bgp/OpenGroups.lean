/- module: SonicBmp/Bgp/OpenGroups
   digest: Capabilities spread over the parameters of an OPEN message in any way. -/

import SonicBmp.Bgp.OpenCodec

set_option autoImplicit false
set_option relaxedAutoImplicit false

namespace SonicBmp.Bgp.OpenGroups

open SonicBmp.Library.Printing
open SonicBmp.Library.Memory
open SonicBmp.Library.Loop
open SonicBmp.Bgp.Common
open SonicBmp.Bgp.OpenMsg
open SonicBmp.Bgp.OpenCodec

/-- A capability parameter with the given capabilities. -/
def groupBytes (g : List OpenCapability) : List UInt8 :=
  put8 bgpCapParamType ++ (put8 (g.flatMap OpenCapability.bytes).length ++
    g.flatMap OpenCapability.bytes)

structure GroupedOpen where
  version : UInt8
  asn : UInt16
  holdTime : UInt16
  bgpId : UInt32
  groups : List (List OpenCapability)
  fits : (groups.flatMap groupBytes).length ≤ 255

def GroupedOpen.paramBytes (o : GroupedOpen) : List UInt8 := o.groups.flatMap groupBytes

def GroupedOpen.body (o : GroupedOpen) : List UInt8 :=
  put8 o.version.toNat ++ (put16 o.asn.toNat ++ (put16 o.holdTime.toNat ++ (put32 o.bgpId.toNat ++
    (put8 o.paramBytes.length ++ o.paramBytes))))

/-- What the message says, by the list of its capabilities alone. -/
def GroupedOpen.said (o : GroupedOpen) (stale : Int) (sentOpen : Bool) (cap : AddPathMap) :
    OpenResult :=
  ⟨o.body.length, o.holdTime.toNat, inetNtop4 (put32 o.bgpId.toNat),
    saidBy stale sentOpen o.groups.flatten ⟨o.asn.toNat, [], cap⟩⟩

/-- The message is read as what it says, wherever it stands and whatever stands around it. -/
def GroupedOpen.ReadRight (o : GroupedOpen) : Prop :=
  ∀ (stale : Int) (sentOpen : Bool) (m : Mem) (data : Nat) (cap : AddPathMap),
    Holds m data o.body →
      parseOpenMsg stale sentOpen m cap data o.body.length = o.said stale sentOpen cap

/-- The number of entries of an ADD_PATH capability, nothing for another one. -/
def kind : OpenCapability → Option Nat
  | .addPath tuples => some tuples.length
  | .other _ _ _ => none

/-- No ADD_PATH capability is followed by another one. -/
def AddPathLast (kinds : List (Option Nat)) : Prop := ∀ k ∈ kinds.dropLast, k = none

instance (kinds : List (Option Nat)) : Decidable (AddPathLast kinds) :=
  inferInstanceAs (Decidable (∀ k ∈ kinds.dropLast, k = none))

theorem addPathLast_cons_cons (k k' : Option Nat) (kinds : List (Option Nat)) :
    AddPathLast (k :: k' :: kinds) ↔ k = none ∧ AddPathLast (k' :: kinds) := by
  simp only [AddPathLast, List.dropLast_cons_cons, List.forall_mem_cons]

section

variable (stale : Int) (sentOpen : Bool)

theorem saidBy_nil (st : OpenState) : saidBy stale sentOpen [] st = st := by
  simp [saidBy, addTuples]

theorem saidBy_append (cs cs' : List OpenCapability) (st : OpenState) :
    saidBy stale sentOpen (cs ++ cs') st =
      saidBy stale sentOpen cs' (saidBy stale sentOpen cs st) := by
  simp [saidBy, addTuples_append]

theorem saidBy_cons (c : OpenCapability) (cs : List OpenCapability) (st : OpenState) :
    saidBy stale sentOpen (c :: cs) st =
      saidBy stale sentOpen cs (saidBy stale sentOpen [c] st) :=
  saidBy_append stale sentOpen [c] cs st

end

theorem moved_of_kind {c : OpenCapability} (other : kind c = none) : c.moved = 0 := by
  cases c with
  | addPath tuples => cases other
  | other code value known => rfl

section Right

variable (stale : Int) (sentOpen : Bool) {m : Mem}

/-- With ADD_PATH at the end the pointer is where the index says as long as it is used. -/
theorem capLoop_group {base paramLen : Nat} (g : List OpenCapability) :
    ∀ (c : Nat) (st : OpenState), AddPathLast (g.map kind) →
      Holds m (base + c) (g.flatMap OpenCapability.bytes) →
      paramLen = c + (g.flatMap OpenCapability.bytes).length → paramLen < 256 →
      capLoop stale sentOpen m paramLen c (base + c) st =
        (true, saidBy stale sentOpen g st) := by
  induction g with
  | nil =>
    intro c st _ _ len _
    rw [List.flatMap_nil, List.length_nil, Nat.add_zero] at len
    rw [capLoop, if_neg (by omega), saidBy_nil]
  | cons x g ih =>
    intro c st last held len small
    have size := x.length_bytes
    rw [List.flatMap_cons, List.length_append] at len
    rw [List.flatMap_cons, holds_append] at held
    rw [capLoop_turn stale sentOpen x (by omega) held.1 (by omega), saidBy_cons stale sentOpen x g]
    cases g with
    | nil =>
      rw [List.flatMap_nil, List.length_nil] at len
      rw [capLoop, if_neg (by omega), saidBy_nil]
    | cons y g =>
      obtain ⟨other, last⟩ := (addPathLast_cons_cons _ _ _).mp last
      have still := moved_of_kind other
      have place : base + c + x.moved + 2 + x.value.length = base + (c + 2 + x.value.length) := by
        omega
      rw [place]
      refine ih (c + 2 + x.value.length) _ last ?_ (by omega) small
      have next : base + (c + 2 + x.value.length) = base + c + x.bytes.length := by omega
      rw [next]
      exact held.2

theorem parseCapabilities_groups {data size : Nat} (groups : List (List OpenCapability)) :
    ∀ (i : Nat) (st : OpenState), (∀ g ∈ groups, AddPathLast (g.map kind)) →
      Holds m (data + i) (groups.flatMap groupBytes) →
      size = i + (groups.flatMap groupBytes).length → size < 256 →
      parseCapabilities stale sentOpen m data size i st =
        (size, saidBy stale sentOpen groups.flatten st) := by
  induction groups with
  | nil =>
    intro i st _ _ len _
    rw [List.flatMap_nil, List.length_nil, Nat.add_zero] at len
    rw [parseCapabilities, if_neg (by omega), len, List.flatten_nil, saidBy_nil]
  | cons g groups ih =>
    intro i st last held len small
    have size : (groupBytes g).length = 2 + (g.flatMap OpenCapability.bytes).length := by
      simp [groupBytes]
      omega
    rw [List.flatMap_cons, List.length_append] at len
    rw [List.flatMap_cons, holds_append, size] at held
    obtain ⟨here, later⟩ := held
    simp only [groupBytes, holds_append, length_put8] at here
    obtain ⟨htype, hlen, hgroup⟩ := here
    have type : u8 m (data + i) = bgpCapParamType := htype.u8 (by decide)
    have width := hlen.u8 (by omega)
    have rest := fun st => ih (i + 2 + (g.flatMap OpenCapability.bytes).length) st
      (fun g here => last g (List.mem_cons_of_mem _ here))
      (by rw [show data + (i + 2 + (g.flatMap OpenCapability.bytes).length) =
            data + i + (2 + (g.flatMap OpenCapability.bytes).length) by omega]
          exact later) (by omega) small
    rw [parseCapabilities, if_pos (by omega), List.flatten_cons, saidBy_append]
    simp only [type, width, true_and]
    split
    · have loop := capLoop_group stale sentOpen g 0 st (last g List.mem_cons_self) hgroup
        (Nat.zero_add _).symm (by omega)
      rw [show data + i + 2 = data + i + 1 + 1 + 0 from rfl, loop]
      exact rest _
    · rename_i empty
      have nothing : g = [] := by
        cases g with
        | nil => rfl
        | cons x g =>
          have head := x.length_bytes
          have inside : x.bytes.length ≤ ((x :: g).flatMap OpenCapability.bytes).length := by
            rw [List.flatMap_cons, List.length_append]
            omega
          exact absurd ⟨by omega, by omega⟩ empty
      subst nothing
      rw [saidBy_nil]
      exact rest st

theorem GroupedOpen.length_body (o : GroupedOpen) :
    o.body.length = openBgpHdrLen + o.paramBytes.length := by
  simp [GroupedOpen.body, openBgpHdrLen]
  omega

/-- The fields of the fixed part, and where the parameters stand. -/
theorem GroupedOpen.fields (o : GroupedOpen) {data : Nat} (held : Holds m data o.body) :
    u16 m (data + 1) = o.asn.toNat ∧ u16 m (data + 3) = o.holdTime.toNat ∧
      readBytes m (data + 5) 4 = put32 o.bgpId.toNat ∧ u8 m (data + 9) = o.paramBytes.length ∧
      Holds m (data + openBgpHdrLen) o.paramBytes := by
  have small : o.paramBytes.length ≤ 255 := o.fits
  simp only [GroupedOpen.body, holds_append, length_put8, length_put16, length_put32] at held
  obtain ⟨-, asn, hold, id, len, params⟩ := held
  exact ⟨asn.u16 o.asn.toNat_lt, hold.u16 o.holdTime.toNat_lt, id.read_of_length (length_put32 _),
    len.u8 (by omega), params⟩

theorem GroupedOpen.readRight_of_last (o : GroupedOpen)
    (last : ∀ g ∈ o.groups, AddPathLast (g.map kind)) : o.ReadRight := by
  intro stale sentOpen m data cap held
  have size := o.length_body
  have small : o.paramBytes.length ≤ 255 := o.fits
  obtain ⟨asn, hold, id, len, params⟩ := o.fields held
  have caps := parseCapabilities_groups stale sentOpen o.groups 0 ⟨o.asn.toNat, [], cap⟩ last params
    (Nat.zero_add _).symm (by change o.paramBytes.length < 256; omega)
  rw [parseOpenMsg, if_neg (by omega)]
  simp only [asn, hold, id, len]
  split
  · rename_i empty
    have nothing : o.groups.flatten = [] := by
      rw [List.length_eq_zero_iff, GroupedOpen.paramBytes, List.flatMap_eq_nil_iff] at empty
      rw [List.flatten_eq_nil_iff]
      intro g here
      have none_left := empty g here
      simp [groupBytes, put8] at none_left
    rw [GroupedOpen.said, nothing, saidBy_nil, size, empty, Nat.add_zero]
  · rename_i some_left
    have whole : (parseCapabilities stale sentOpen m (data + openBgpHdrLen) o.paramBytes.length 0
        ⟨o.asn.toNat, [], cap⟩) = (o.paramBytes.length,
          saidBy stale sentOpen o.groups.flatten ⟨o.asn.toNat, [], cap⟩) := caps
    rw [if_neg (by omega), whole, if_neg some_left, ← size]
    rfl

end Right

/-! Where ADD_PATH is followed by another capability, the pointer runs ahead of the index.
With the octets 7 and 0 in every entry and behind the message, it then meets a 7 where the
index says there is a capability left. -/

section Ahead

variable (stale : Int) (sentOpen : Bool) {m : Mem}

theorem addPathEntries_keeps {text : Text} (len p l : Nat) (st : OpenState)
    (here : text ∈ st.capabilities) :
    text ∈ (strideLoop 4 len (fun l st => addPathEntry stale sentOpen m (p + l) st) l
      st).capabilities := by
  fun_induction strideLoop 4 len (fun l st => addPathEntry stale sentOpen m (p + l) st) l st with
  | case1 l st more ih => exact ih (List.mem_append_left _ here)
  | case2 l st done => exact here

theorem capability_keeps {text : Text} (capPtr : Nat) (st : OpenState)
    (here : text ∈ st.capabilities) :
    text ∈ (capability stale sentOpen m capPtr st).1.capabilities := by
  have pushed (text' : Text) : text ∈ (st.push text').capabilities := List.mem_append_left _ here
  unfold capability
  dsimp only
  split
  · split
    · exact pushed _
    · exact here
  · exact pushed _
  · exact pushed _
  · exact pushed _
  · split
    · exact pushed _
    · exact here
  · exact pushed _
  · split
    · exact addPathEntries_keeps stale sentOpen _ _ _ _ here
    · exact here
  · exact pushed _
  · exact pushed _
  · exact pushed _

theorem capLoop_keeps {text : Text} (paramLen c capPtr : Nat) (st : OpenState)
    (here : text ∈ st.capabilities) :
    text ∈ (capLoop stale sentOpen m paramLen c capPtr st).2.capabilities := by
  induction rest : paramLen - c using Nat.strongRecOn generalizing c capPtr st with
  | ind n ih =>
    rw [capLoop]
    split
    · have kept := capability_keeps stale sentOpen (m := m) capPtr st here
      rcases step : capability stale sentOpen m capPtr st with ⟨st', next⟩
      rw [step] at kept
      cases next with
      | none => exact kept
      | some next => exact ih _ (by omega) _ _ _ kept rfl
    · exact here

theorem capNext_addPath {capPtr : Nat} (code : u8 m capPtr = 69)
    (whole : u8 m (capPtr + 1) % 4 = 0) :
    capNext m capPtr = some (capPtr + (2 + u8 m (capPtr + 1))) := by
  rw [capNext, if_neg (fun refused => absurd (code.symm.trans refused.1) (by decide)), if_pos code]
  split
  · congr 1
    omega
  · congr 1
    omega

/-- At an even distance from the start of the parameter stands either a 7 or the header of
a capability that ends within the parameter. -/
def Sevens (m : Mem) (base paramLen : Nat) : Prop :=
  ∀ e, e % 2 = 0 → u8 m (base + e) = 7 ∨
    ((u8 m (base + e) = 8 ∨ u8 m (base + e) = 69) ∧ u8 m (base + e + 1) % 4 = 0 ∧
      e + 2 + u8 m (base + e + 1) ≤ paramLen)

theorem capLoop_ahead {base paramLen : Nat} (sevens : Sevens m base paramLen) :
    ∀ (c d : Nat) (st : OpenState), c % 2 = 0 → d % 2 = 0 → 2 ≤ d → c < paramLen →
      decimal 7 ∈ (capLoop stale sentOpen m paramLen c (base + (c + d)) st).2.capabilities := by
  intro c
  induction rest : paramLen - c using Nat.strongRecOn generalizing c with
  | ind n ih =>
    intro d st even even' ahead more
    rw [capLoop, if_pos more]
    rcases sevens (c + d) (by omega) with seven | ⟨code, whole, inside⟩
    · have step : capability stale sentOpen m (base + (c + d)) st =
          (st.push (decimal 7), some (base + (c + d))) := by
        simp only [capability, seven]
      rw [step]
      exact capLoop_keeps stale sentOpen _ _ _ _ (List.mem_append_right _ List.mem_cons_self)
    · obtain ⟨extra, next, even''⟩ : ∃ extra, capNext m (base + (c + d)) =
          some (base + (c + d) + extra) ∧ extra % 2 = 0 := by
        rcases code with other | addPath
        · exact ⟨0, by simp [capNext, other], rfl⟩
        · exact ⟨_, capNext_addPath addPath whole, by omega⟩
      rw [← capability_next stale sentOpen m _ st] at next
      rcases step : capability stale sentOpen m (base + (c + d)) st with ⟨st', p⟩
      rw [step] at next
      obtain rfl := next
      have place : base + (c + d) + extra + 2 + u8 m (base + (c + d) + 1) =
          base + (c + 2 + u8 m (base + (c + d) + 1) + (d + extra)) := by omega
      dsimp only
      rw [place]
      exact ih _ (by omega) _ rfl (d + extra) st' (by omega) (by omega) (by omega) (by omega)

/-- An ADD_PATH capability that is followed by another: the index has not reached the end
and the pointer is ahead of it. -/
theorem capLoop_overtakes {base paramLen : Nat} (sevens : Sevens m base paramLen)
    (g : List OpenCapability) :
    ∀ (c : Nat) (st : OpenState), ¬ AddPathLast (g.map kind) →
      (∀ x ∈ g, kind x = none → x.value = []) →
      Holds m (base + c) (g.flatMap OpenCapability.bytes) →
      paramLen = c + (g.flatMap OpenCapability.bytes).length → paramLen < 256 → c % 2 = 0 →
      decimal 7 ∈ (capLoop stale sentOpen m paramLen c (base + c) st).2.capabilities := by
  induction g with
  | nil =>
    intro c st followed
    exact absurd (fun k here => by simp at here) followed
  | cons x g ih =>
    intro c st followed short held len small even
    have size := x.length_bytes
    rw [List.flatMap_cons, List.length_append] at len
    rw [List.flatMap_cons, holds_append] at held
    rw [capLoop_turn stale sentOpen x (by omega) held.1 (by omega)]
    cases g with
    | nil => exact absurd (fun k here => by simp at here) followed
    | cons y g =>
      have more := y.length_bytes
      have after : y.bytes.length ≤ ((y :: g).flatMap OpenCapability.bytes).length := by
        rw [List.flatMap_cons, List.length_append]
        omega
      cases x with
      | addPath tuples =>
        have entries : (OpenCapability.addPath tuples).value.length = 4 * tuples.length :=
          length_tuples tuples
        have moved : (OpenCapability.addPath tuples).moved = 2 + 4 * tuples.length := by
          rw [OpenCapability.moved, length_tuples]
        have place : base + c + (OpenCapability.addPath tuples).moved + 2 +
            (OpenCapability.addPath tuples).value.length =
            base + (c + 2 + (OpenCapability.addPath tuples).value.length +
              (2 + 4 * tuples.length)) := by omega
        rw [place]
        exact capLoop_ahead stale sentOpen sevens _ _ _ (by omega) (by omega) (by omega) (by omega)
      | other kind' value known =>
        have empty : value = [] := short _ List.mem_cons_self rfl
        subst empty
        have still : ¬ AddPathLast ((y :: g).map kind) := fun last =>
          followed ((addPathLast_cons_cons _ _ _).mpr ⟨rfl, last⟩)
        exact ih (c + 2) _ still (fun x here => short x (List.mem_cons_of_mem _ here)) held.2
          (by rw [len, size]; simp [OpenCapability.value]; omega) small (by omega)

/-- A text of the one parameter of a message is among the texts of the message. -/
theorem text_of_group {o : GroupedOpen} {g : List OpenCapability} (one : o.groups = [g])
    (some_ : 2 ≤ (g.flatMap OpenCapability.bytes).length) {data : Nat}
    (held : Holds m data o.body) (cap : AddPathMap) {text : Text}
    (found : ∀ st, text ∈ (capLoop stale sentOpen m (g.flatMap OpenCapability.bytes).length 0
      (data + 12) st).2.capabilities) :
    text ∈ (parseOpenMsg stale sentOpen m cap data o.body.length).state.capabilities := by
  have size := o.length_body
  have small : o.paramBytes.length ≤ 255 := o.fits
  have params : o.paramBytes = groupBytes g := by
    rw [GroupedOpen.paramBytes, one, List.flatMap_singleton]
  have len : o.paramBytes.length = 2 + (g.flatMap OpenCapability.bytes).length := by
    rw [params]
    simp [groupBytes]
    omega
  obtain ⟨asn, hold, id, paramLen, group⟩ := o.fields held
  rw [params] at group
  simp only [groupBytes, holds_append, length_put8] at group
  have type : u8 m (data + openBgpHdrLen) = bgpCapParamType := group.1.u8 (by decide)
  have width : u8 m (data + openBgpHdrLen + 1) = (g.flatMap OpenCapability.bytes).length :=
    group.2.1.u8 (by omega)
  have start : data + openBgpHdrLen + 2 = data + 12 := rfl
  have caps (st : OpenState) : text ∈ (parseCapabilities stale sentOpen m (data + openBgpHdrLen)
      o.paramBytes.length 0 st).2.capabilities := by
    have there := found st
    rw [parseCapabilities, if_pos (by omega)]
    simp only [Nat.add_zero, type, width, start]
    rw [if_pos ⟨trivial, some_, by omega⟩]
    rcases loop : capLoop stale sentOpen m (g.flatMap OpenCapability.bytes).length 0 (data + 12) st
      with ⟨good, st'⟩
    rw [loop] at there
    cases good with
    | false => exact there
    | true =>
      dsimp only
      rw [parseCapabilities, if_neg (by omega)]
      exact there
  rw [parseOpenMsg, if_neg (by omega)]
  simp only [paramLen]
  rw [if_neg (by omega), if_neg (by omega)]
  split <;> exact caps _

end Ahead

/-! The smallest message with given kinds of capabilities. -/

def sevenEntry : AddPathTuple := ⟨0x0700, 7, 0⟩

private theorem eight_known : (8 : UInt8) ≠ 69 ∧ ((8 : UInt8) = 1 → ([] : List UInt8).length = 4) := by
  decide

def plainCap : Option Nat → OpenCapability
  | some n => .addPath (List.replicate n sevenEntry)
  | none => .other 8 [] eight_known

def smallest (kinds : List (Option Nat)) : Nat := (kinds.map fun k => 2 + 4 * k.getD 0).sum

theorem kind_plainCap (k : Option Nat) : kind (plainCap k) = k := by
  cases k with
  | none => rfl
  | some n => rw [plainCap, kind, List.length_replicate]

theorem length_plainCap (k : Option Nat) : (plainCap k).bytes.length = 2 + 4 * k.getD 0 := by
  cases k with
  | none => rfl
  | some n =>
    rw [plainCap, OpenCapability.length_bytes, OpenCapability.value, length_tuples,
      List.length_replicate]
    rfl

theorem length_plainCaps (kinds : List (Option Nat)) :
    ((kinds.map plainCap).flatMap OpenCapability.bytes).length = smallest kinds := by
  induction kinds with
  | nil => rfl
  | cons k kinds ih =>
    rw [List.map_cons, List.flatMap_cons, List.length_append, ih, length_plainCap, smallest,
      smallest, List.map_cons, List.sum_cons]

theorem smallest_le (cs : List OpenCapability) :
    smallest (cs.map kind) ≤ (cs.flatMap OpenCapability.bytes).length := by
  induction cs with
  | nil => exact le_rfl
  | cons c cs ih =>
    have one : 2 + 4 * (kind c).getD 0 ≤ c.bytes.length := by
      rw [c.length_bytes]
      cases c with
      | addPath tuples =>
        rw [OpenCapability.value, length_tuples]
        exact le_rfl
      | other code value known => simp [kind]
    rw [List.map_cons, List.flatMap_cons, List.length_append, smallest, List.map_cons, List.sum_cons]
    exact Nat.add_le_add one ih

/-- Every message with these kinds takes a parameter header and the smallest capabilities. -/
theorem smallest_fits (o : GroupedOpen) (some_ : o.groups ≠ []) :
    2 + smallest (o.groups.flatten.map kind) ≤ o.paramBytes.length := by
  have all (groups : List (List OpenCapability)) : (groups.flatten.flatMap
      OpenCapability.bytes).length + 2 * groups.length = (groups.flatMap groupBytes).length := by
    induction groups with
    | nil => rfl
    | cons g groups ih =>
      have size : (groupBytes g).length = 2 + (g.flatMap OpenCapability.bytes).length := by
        simp [groupBytes]
        omega
      rw [List.flatten_cons, List.flatMap_append, List.flatMap_cons, List.length_append,
        List.length_append, List.length_cons, size, ← ih]
      omega
  have total := all o.groups
  have least := smallest_le o.groups.flatten
  have one := List.length_pos_iff.mpr some_
  rw [GroupedOpen.paramBytes]
  omega

theorem sevens_entries {m : Mem} (n : Nat) : ∀ q,
    Holds m q ((List.replicate n sevenEntry).flatMap AddPathTuple.bytes) →
      ∀ e, e % 2 = 0 → e < 4 * n → u8 m (q + e) = 7 := by
  induction n with
  | zero =>
    intro q _ e _ inside
    omega
  | succ n ih =>
    intro q held e even inside
    rw [List.replicate_succ, List.flatMap_cons, holds_append] at held
    obtain ⟨entry, rest⟩ := held
    by_cases later : 4 ≤ e
    · have at_e := ih (q + 4) rest (e - 4) (by omega) (by omega)
      rwa [show q + 4 + (e - 4) = q + e by omega] at at_e
    · have bytes : sevenEntry.bytes = [7, 0, 7, 0] := by decide
      rw [bytes] at entry
      simp only [holds_cons] at entry
      obtain rfl | rfl : e = 0 ∨ e = 2 := by omega
      · rw [u8, Nat.add_zero, entry.1]
        rfl
      · rw [u8, show q + 2 = q + 1 + 1 from rfl, entry.2.2.1]
        rfl

theorem sevens_caps {m : Mem} (kinds : List (Option Nat)) : ∀ q,
    Holds m q ((kinds.map plainCap).flatMap OpenCapability.bytes) → smallest kinds < 256 →
      ∀ e, e % 2 = 0 → e < smallest kinds → u8 m (q + e) = 7 ∨
        ((u8 m (q + e) = 8 ∨ u8 m (q + e) = 69) ∧ u8 m (q + e + 1) % 4 = 0 ∧
          e + 2 + u8 m (q + e + 1) ≤ smallest kinds) := by
  induction kinds with
  | nil =>
    intro q _ _ e _ inside
    exact absurd inside (Nat.not_lt_zero _)
  | cons k kinds ih =>
    intro q held small e even inside
    have size := length_plainCap k
    have total : smallest (k :: kinds) = 2 + 4 * k.getD 0 + smallest kinds := by
      rw [smallest, List.map_cons, List.sum_cons, smallest]
    rw [List.map_cons, List.flatMap_cons, holds_append, size] at held
    obtain ⟨here, rest⟩ := held
    by_cases later : 2 + 4 * k.getD 0 ≤ e
    · have found := ih _ rest (by omega) (e - (2 + 4 * k.getD 0)) (by omega) (by omega)
      rw [show q + (2 + 4 * k.getD 0) + (e - (2 + 4 * k.getD 0)) = q + e by omega] at found
      rcases found with seven | ⟨code, whole, ends⟩
      · exact Or.inl seven
      · exact Or.inr ⟨code, whole, by omega⟩
    · simp only [OpenCapability.bytes, holds_append, length_put8] at here
      obtain ⟨hcode, hlen, hvalue⟩ := here
      have code := hcode.u8 (plainCap k).code.toNat_lt
      have width : (plainCap k).value.length = 4 * k.getD 0 := by
        have whole := (plainCap k).length_bytes
        omega
      have len := hlen.u8 (by omega)
      by_cases start : e = 0
      · subst start
        right
        rw [Nat.add_zero, code, len, width]
        refine ⟨?_, by omega, by omega⟩
        cases k with
        | none => exact Or.inl rfl
        | some n => exact Or.inr rfl
      · cases k with
        | none =>
          simp only [Option.getD_none] at later
          omega
        | some n =>
          left
          simp only [Option.getD_some] at later
          have entry := sevens_entries n (q + 2) hvalue (e - 2) (by omega) (by omega)
          rwa [show q + 2 + (e - 2) = q + e by omega] at entry

/-- The texts these capabilities should give: 8 and those of entries. -/
theorem seven_not_said (kinds : List (Option Nat)) :
    decimal 7 ∉ (kinds.map plainCap).flatMap OpenCapability.texts := by
  intro here
  obtain ⟨c, among, text⟩ := List.mem_flatMap.mp here
  obtain ⟨k, -, rfl⟩ := List.mem_map.mp among
  cases k with
  | none => exact absurd text (by decide)
  | some n =>
    obtain ⟨t, -, same⟩ := List.mem_map.mp text
    have head : t.text.head? = some 'A' := rfl
    rw [same] at head
    exact absurd head (by decide)

/-- The octets around the message. -/
def sevensMem : Mem := fun i => if i % 2 = 0 then 7 else 0

theorem length_plainParams (kinds : List (Option Nat)) :
    ([kinds.map plainCap].flatMap groupBytes).length = 2 + smallest kinds := by
  have width := length_plainCaps kinds
  simp [groupBytes] at width ⊢
  omega

theorem map_kind_plainCap (kinds : List (Option Nat)) : (kinds.map plainCap).map kind = kinds := by
  rw [List.map_map]
  exact (List.map_congr_left fun k _ => kind_plainCap k).trans (List.map_id kinds)

theorem plainCaps_empty (kinds : List (Option Nat)) :
    ∀ x ∈ kinds.map plainCap, kind x = none → x.value = [] := by
  intro x here other
  obtain ⟨k, -, rfl⟩ := List.mem_map.mp here
  rw [kind_plainCap] at other
  subst other
  rfl

theorem two_le_smallest {kinds : List (Option Nat)} (followed : ¬ AddPathLast kinds) :
    2 ≤ smallest kinds := by
  rcases kinds with _ | ⟨k, kinds⟩
  · exact absurd (fun k here => by simp at here) followed
  · rw [smallest, List.map_cons, List.sum_cons]
    omega

section PlainOpen

variable {kinds : List (Option Nat)} (room : 2 + smallest kinds ≤ 255)

/-- The message with the plain capabilities of a list of kinds in one parameter. -/
def plainOpen : GroupedOpen :=
  ⟨4, 0, 0, 0, [kinds.map plainCap], (length_plainParams kinds).trans_le room⟩

/-- It stands at the start of the memory, with sevens behind it. -/
def plainMem : Mem := writeBytes sevensMem 0 (plainOpen room).body

theorem holds_plainMem : Holds (plainMem room) 0 (plainOpen room).body :=
  readBytes_writeBytes_same sevensMem 0 _

theorem plainMem_caps :
    Holds (plainMem room) 12 ((kinds.map plainCap).flatMap OpenCapability.bytes) := by
  have all := ((plainOpen room).fields (holds_plainMem room)).2.2.2.2
  simp only [plainOpen, GroupedOpen.paramBytes, List.flatMap_singleton, groupBytes, holds_append,
    length_put8] at all
  exact all.2.2

theorem sevens_plainMem : Sevens (plainMem room) 12 (smallest kinds) := by
  have size := (plainOpen room).length_body
  have params : (plainOpen room).paramBytes.length = 2 + smallest kinds := length_plainParams kinds
  have fixed : openBgpHdrLen = 10 := rfl
  intro e even
  by_cases inside : e < smallest kinds
  · exact sevens_caps kinds 12 (plainMem_caps room) (by omega) e even inside
  · left
    have beyond : ¬ (0 ≤ 12 + e ∧ 12 + e < 0 + (plainOpen room).body.length) := by omega
    rw [u8, plainMem, writeBytes, if_neg beyond, sevensMem, if_pos (by omega)]
    rfl

end PlainOpen

/-- A list of kinds in which ADD_PATH is followed by another capability has a message that
is misread, if there is one at all. -/
theorem exists_misread {kinds : List (Option Nat)} (followed : ¬ AddPathLast kinds)
    (room : 2 + smallest kinds ≤ 255) :
    ∃ o : GroupedOpen, o.groups.flatten.map kind = kinds ∧ ¬ o.ReadRight := by
  have width := length_plainCaps kinds
  have two := two_le_smallest followed
  have same := map_kind_plainCap kinds
  refine ⟨plainOpen room, ?_, ?_⟩
  · rw [plainOpen, List.flatten_singleton, same]
  intro right
  have held := holds_plainMem room
  -- the pointer overtakes the index, and a seven is read behind the capabilities
  have overtakes (st : OpenState) := capLoop_overtakes 0 true (sevens_plainMem room)
    (kinds.map plainCap) 0 st (by rwa [same]) (plainCaps_empty kinds) (plainMem_caps room)
    (by omega) (by omega) rfl
  have found := text_of_group 0 true (o := plainOpen room) rfl (width ▸ two) held (fun _ => none)
    (fun st => width.symm ▸ overtakes st)
  rw [right 0 true _ 0 _ held] at found
  have texts : ((plainOpen room).said 0 true (fun _ => none)).state.capabilities =
      (kinds.map plainCap).flatMap OpenCapability.texts := by
    simp [plainOpen, GroupedOpen.said, saidBy]
  rw [texts] at found
  exact seven_not_said kinds found

theorem addPathLast_append {kinds kinds' : List (Option Nat)} (last : AddPathLast (kinds ++ kinds')) :
    AddPathLast kinds ∧ AddPathLast kinds' := by
  constructor
  · intro k here
    refine last k ?_
    rw [List.dropLast_append]
    split
    · exact here
    · exact List.mem_append_left _ (List.mem_of_mem_dropLast here)
  · intro k here
    refine last k ?_
    rw [List.dropLast_append]
    split
    · rename_i empty
      rw [List.isEmpty_iff.mp empty] at here
      simp at here
    · exact List.mem_append_right _ here

theorem addPathLast_groups (groups : List (List OpenCapability))
    (last : AddPathLast (groups.flatten.map kind)) : ∀ g ∈ groups, AddPathLast (g.map kind) := by
  induction groups with
  | nil => simp
  | cons g groups ih =>
    rw [List.flatten_cons, List.map_append] at last
    obtain ⟨here, later⟩ := addPathLast_append last
    exact List.forall_mem_cons.mpr ⟨here, ih later⟩

/-- A message in which no ADD_PATH capability is followed by another in its parameter is read
as its capabilities say, however they are spread over the parameters. For a list of kinds,
every message is read so, whatever its parameters, exactly if ADD_PATH stands at the end of
the list only, or no message holds the list at all. -/
theorem open_groups_iff (kinds : List (Option Nat)) :
    (∀ o : GroupedOpen, (∀ g ∈ o.groups, AddPathLast (g.map kind)) → o.ReadRight) ∧
      ((∀ o : GroupedOpen, o.groups.flatten.map kind = kinds → o.ReadRight) ↔
        AddPathLast kinds ∨ 255 < 2 + smallest kinds) := by
  refine ⟨fun o last => o.readRight_of_last last, ⟨?_, ?_⟩⟩
  · intro right
    by_contra neither
    push Not at neither
    obtain ⟨o, same, misread⟩ := exists_misread neither.1 neither.2
    exact misread (right o same)
  · rintro (last | large) o same
    · exact o.readRight_of_last (addPathLast_groups o.groups (same.symm ▸ last))
    · have small : o.paramBytes.length ≤ 255 := o.fits
      have some_ : o.groups ≠ [] := by
        intro empty
        rw [empty] at same
        subst same
        exact absurd large (by decide)
      have least := smallest_fits o some_
      rw [same] at least
      omega

private theorem refresh_known :
    (2 : UInt8) ≠ 69 ∧ ((2 : UInt8) = 1 → ([] : List UInt8).length = 4) := by decide

private theorem asn_known :
    (65 : UInt8) ≠ 69 ∧ ((65 : UInt8) = 1 → ([0, 0, 0, 100] : List UInt8).length = 4) := by decide

/-- Add-path for IPv4 unicast, route refresh and the ASN 100. -/
private def threeCaps : List OpenCapability :=
  [.addPath [⟨1, 1, 3⟩], .other 2 [] refresh_known, .other 65 [0, 0, 0, 100] asn_known]

private theorem apart_fits : ((threeCaps.map fun c => [c]).flatMap groupBytes).length ≤ 255 := by
  decide

private def apartOpen : GroupedOpen := ⟨4, 23456, 180, 0, threeCaps.map fun c => [c], apart_fits⟩

theorem open_groups_apart : apartOpen.ReadRight := (open_groups_iff []).1 apartOpen (by decide)

private theorem together_fits :
    ([threeCaps.take 2, threeCaps.drop 2].flatMap groupBytes).length ≤ 255 := by decide

private def togetherOpen : GroupedOpen :=
  ⟨4, 23456, 180, 0, [threeCaps.take 2, threeCaps.drop 2], together_fits⟩

/-- With add-path and route refresh in one parameter, the octets of the ASN are taken for the
second capability. -/
theorem route_refresh_misread :
    (parseOpenMsg 0 true (memOf togetherOpen.body) (fun _ => none) 0
        togetherOpen.body.length).state.capabilities =
      [AddPathTuple.text ⟨1, 1, 3⟩, decimal 0, "4 Octet ASN (65)".toList] ∧
    (togetherOpen.said 0 true (fun _ => none)).state.capabilities =
      [AddPathTuple.text ⟨1, 1, 3⟩, "Route Refresh (2)".toList, "4 Octet ASN (65)".toList] := by
  decide +kernel

end SonicBmp.Bgp.OpenGroups
