/- module: SonicBmp/Bgp/AttrWalk
   digest: The attributes that the attribute walk looks at, decodes and passes over. -/

import SonicBmp.Bgp.UpdateDb

set_option autoImplicit false
set_option relaxedAutoImplicit false

namespace SonicBmp.Bgp.AttrWalk

open SonicBmp.Library.Memory
open SonicBmp.Bgp.Common
open SonicBmp.Bgp.Attributes
open SonicBmp.Bgp.AttrCodec
open SonicBmp.Bgp.UpdateDb (updateDBAttrs)

/-! The walk without its effects. -/

/-- One turn of the loop: where its flags octet lies in the section, how wide the length
field is, and whether the value is handed to `parseAttrData`. -/
structure AttrVisit where
  offset : Nat
  width : Nat
  type : Nat
  attrLen : Nat
  decoded : Bool
  deriving DecidableEq

def AttrVisit.value (v : AttrVisit) : Nat := v.offset + 2 + v.width

def AttrVisit.stop (v : AttrVisit) : Nat := v.value + v.attrLen

def lengthWidth (m : Mem) (data : Nat) : Nat := if attrFlagExtended (u8 m data) then 2 else 1

def lengthField (m : Mem) (data : Nat) : Nat :=
  if attrFlagExtended (u8 m data) then u16 m (data + 2) else u8 m (data + 2)

/-- The counter of the bound test has the length field in it, but not yet the flags
and type octets. -/
def visitAt (m : Mem) (base len offset : Nat) : AttrVisit :=
  let width := lengthWidth m (base + offset)
  let attrLen := lengthField m (base + offset)
  { offset := offset, width := width, type := u8 m (base + offset + 1), attrLen := attrLen,
    decoded := decide (0 < attrLen ∧ offset + width + attrLen ≤ len) }

theorem offset_lt_stop (m : Mem) (base len offset : Nat) :
    offset < (visitAt m base len offset).stop := by
  simp only [AttrVisit.stop, AttrVisit.value, visitAt]
  omega

def attrVisits (m : Mem) (base len offset : Nat) : List AttrVisit :=
  if offset < len then
    let v := visitAt m base len offset
    if v.decoded ∨ v.attrLen = 0 then v :: attrVisits m base len v.stop else [v]
  else []
termination_by len - offset
decreasing_by
  have := offset_lt_stop m base len offset
  omega

/-- The turns of `parseAttributes` over the section of `len` bytes at `base`. -/
def sectionVisits (m : Mem) (base len : Nat) : List AttrVisit :=
  if len < 3 then [] else attrVisits m base len 0

/-- The arguments of one call of `parseAttrData`; the value by its offset. -/
structure AttrCall where
  type : Nat
  attrLen : Nat
  value : Nat
  deriving DecidableEq

def AttrVisit.call (v : AttrVisit) : AttrCall := ⟨v.type, v.attrLen, v.value⟩

def attrCalls (m : Mem) (base len : Nat) : List AttrCall :=
  ((sectionVisits m base len).filter AttrVisit.decoded).map AttrVisit.call

variable {D : Decoders}

def runCall (D : Decoders) (m : Mem) (base : Nat) (st : UpdateState D) (c : AttrCall) :
    UpdateState D :=
  parseAttrData D m c.type c.attrLen (base + c.value) st

/-- The data pointer runs with the counter, which has all of an attribute in it at the
end of the turn. -/
private theorem attrLoop_turn (m : Mem) (base len offset : Nat) (more : offset < len)
    (v : AttrVisit) (here : visitAt m base len offset = v) (st : UpdateState D) :
    attrLoop D m len (base + offset) offset st =
      if v.decoded then attrLoop D m len (base + v.stop) v.stop (runCall D m base st v.call)
      else if v.attrLen = 0 then attrLoop D m len (base + v.stop) v.stop st
      else st := by
  have turn : attrLoop D m len (base + offset) offset st =
      if 0 < v.attrLen ∧ offset + v.width + v.attrLen ≤ len then
        attrLoop D m len (base + offset + 2 + v.width + v.attrLen)
          (offset + v.width + v.attrLen + 2)
          (parseAttrData D m v.type v.attrLen (base + offset + 2 + v.width) st)
      else if v.attrLen = 0 then
        attrLoop D m len (base + offset + 2 + v.width) (offset + v.width + 2) st
      else st := by
    subst here
    rw [attrLoop, if_pos more]
    rfl
  have start : v.offset = offset := by rw [← here]; rfl
  have value : base + offset + 2 + v.width = base + v.value := by
    rw [AttrVisit.value, start]
    omega
  have test : v.decoded = decide (0 < v.attrLen ∧ offset + v.width + v.attrLen ≤ len) := by
    rw [← here]
    rfl
  rw [turn, value, test]
  simp only [decide_eq_true_eq]
  by_cases decoded : 0 < v.attrLen ∧ offset + v.width + v.attrLen ≤ len
  · have counted : offset + v.width + v.attrLen + 2 = v.stop := by
      rw [AttrVisit.stop, AttrVisit.value, start]
      omega
    rw [if_pos decoded, if_pos decoded, counted, Nat.add_assoc base]
    rfl
  · rw [if_neg decoded, if_neg decoded]
    by_cases empty : v.attrLen = 0
    · have counted : offset + v.width + 2 = v.stop := by
        rw [AttrVisit.stop, AttrVisit.value, start]
        omega
      have same : v.value = v.stop := by rw [AttrVisit.stop, empty, Nat.add_zero]
      rw [if_pos empty, if_pos empty, counted, same]
    · rw [if_neg empty, if_neg empty]

private theorem attrLoop_eq_visits (m : Mem) (base len offset : Nat) (st : UpdateState D) :
    attrLoop D m len (base + offset) offset st =
      (((attrVisits m base len offset).filter AttrVisit.decoded).map AttrVisit.call).foldl
        (runCall D m base) st := by
  fun_induction attrVisits m base len offset generalizing st with
  | case1 offset more v goes_on ih =>
    rw [attrLoop_turn m base len offset more v rfl]
    cases decoded : v.decoded with
    | true =>
      rw [if_pos rfl, List.filter_cons_of_pos decoded, List.map_cons, List.foldl_cons]
      exact ih _
    | false =>
      have empty : v.attrLen = 0 := by simpa [decoded] using goes_on
      rw [if_neg Bool.false_ne_true, if_pos empty, List.filter_cons_of_neg (by simp [decoded])]
      exact ih st
  | case2 offset more v stopped =>
    obtain ⟨skipped, some_value⟩ := not_or.mp stopped
    rw [attrLoop_turn m base len offset more v rfl, if_neg skipped, if_neg some_value,
      List.filter_cons_of_neg skipped]
    rfl
  | case3 offset done =>
    rw [attrLoop, if_neg done]
    rfl

theorem parseAttributes_eq_calls (m : Mem) (base len : Nat) (st : UpdateState D) :
    parseAttributes D m base len st = (attrCalls m base len).foldl (runCall D m base) st := by
  unfold parseAttributes attrCalls sectionVisits
  split
  · rfl
  · exact attrLoop_eq_visits m base len 0 st

/-! Sections of whole attributes. -/

def PathAttr.headLen (a : PathAttr) : Nat :=
  2 + if attrFlagExtended a.flags.toNat then 2 else 1

theorem PathAttr.length_encode (a : PathAttr) :
    a.encode.length = PathAttr.headLen a + a.value.length := by
  simp only [PathAttr.encode, PathAttr.headLen, List.length_append, List.length_cons,
    List.length_nil]
  split <;> simp only [length_put16, length_put8] <;> omega

/-- One call for every attribute, in order, with the place of its value. -/
def expectedCalls : Nat → List PathAttr → List AttrCall
  | _, [] => []
  | offset, a :: attrs =>
    ⟨a.code.toNat, a.value.length, offset + PathAttr.headLen a⟩ ::
      expectedCalls (offset + a.encode.length) attrs

/-- The turn at an encoded attribute. The octets the counter lacks are part of the
attribute, so the test is passed unless the value is empty. -/
theorem visitAt_encode {m : Mem} {base offset : Nat} (len : Nat) (a : PathAttr)
    (held : Holds m (base + offset) a.encode) (room : offset + a.encode.length ≤ len) :
    (visitAt m base len offset).call =
        ⟨a.code.toNat, a.value.length, offset + PathAttr.headLen a⟩ ∧
      (visitAt m base len offset).decoded = decide (0 < a.value.length) ∧
      (visitAt m base len offset).stop = offset + a.encode.length := by
  obtain ⟨size, code, -, whole⟩ := encode_head a held
  have attrLen : lengthField m (base + offset) = a.value.length := size
  have width : lengthWidth m (base + offset) + 2 = PathAttr.headLen a := by
    have := PathAttr.length_encode a
    unfold lengthWidth
    omega
  have head := PathAttr.length_encode a
  refine ⟨?_, ?_, ?_⟩
  · simp only [AttrVisit.call, AttrVisit.value, visitAt, attrLen, code, AttrCall.mk.injEq, true_and]
    omega
  · simp only [visitAt, attrLen, decide_eq_decide]
    omega
  · simp only [AttrVisit.stop, AttrVisit.value, visitAt, attrLen]
    omega

private theorem attrVisits_encode {m : Mem} {base len : Nat} (attrs : List PathAttr) (offset : Nat)
    (held : Holds m (base + offset) (encodeAttrs attrs))
    (whole : len = offset + (encodeAttrs attrs).length) :
    ((attrVisits m base len offset).filter AttrVisit.decoded).map AttrVisit.call =
      (expectedCalls offset attrs).filter (fun c => decide (0 < c.attrLen)) := by
  induction attrs generalizing offset with
  | nil =>
    rw [attrVisits, if_neg (by simp [encodeAttrs] at whole; omega)]
    rfl
  | cons a attrs ih =>
    have parts : encodeAttrs (a :: attrs) = a.encode ++ encodeAttrs attrs := rfl
    rw [parts, holds_append] at held
    rw [parts, List.length_append] at whole
    obtain ⟨call, decoded, stop⟩ := visitAt_encode len a held.1 (by omega)
    have three := a.three_le_length
    have rest := ih (offset + a.encode.length) (by rw [← Nat.add_assoc]; exact held.2) (by omega)
    have empty_or : (visitAt m base len offset).decoded = true ∨
        (visitAt m base len offset).attrLen = 0 := by
      have attrLen : (visitAt m base len offset).attrLen = a.value.length :=
        congrArg AttrCall.attrLen call
      rw [decoded, attrLen, decide_eq_true_eq]
      omega
    rw [attrVisits, if_pos (by omega)]
    simp only
    rw [if_pos empty_or, stop, expectedCalls, List.filter_cons, List.filter_cons, decoded]
    split
    · rw [List.map_cons, call, rest]
    · exact rest

/-- Of the expected calls the walk leaves out those with an empty value. -/
theorem attrCalls_encode {m : Mem} {base : Nat} (attrs : List PathAttr)
    (held : Holds m base (encodeAttrs attrs)) :
    attrCalls m base (encodeAttrs attrs).length =
      (expectedCalls 0 attrs).filter (fun c => decide (0 < c.attrLen)) := by
  unfold attrCalls sectionVisits
  split
  · rename_i short
    cases attrs with
    | nil => rfl
    | cons a attrs =>
      have := a.three_le_length
      simp [encodeAttrs] at short
      omega
  · exact attrVisits_encode attrs 0 held (by simp)

theorem forall_expectedCalls (offset : Nat) (attrs : List PathAttr) :
    (∀ c ∈ expectedCalls offset attrs, 0 < c.attrLen) ↔ ∀ a ∈ attrs, a.value ≠ [] := by
  induction attrs generalizing offset with
  | nil => simp [expectedCalls]
  | cons a attrs ih =>
    rw [expectedCalls, List.forall_mem_cons, List.forall_mem_cons, ih, List.length_pos_iff]

/-! The atomic aggregate flag. -/

/-- The parsed data before the first attribute: nothing in the attribute map. -/
def beforeAttributes (info : PeerInfo) (data : ParsedUpdateData D) : UpdateState D :=
  ⟨info, { data with attrs := fun _ => none }⟩

/-- What `UpdateDBAttrs` publishes after a walk over the section. -/
def publishedAtomicAgg (D : Decoders) (info : PeerInfo) (before : ParsedUpdateData D) (m : Mem)
    (base len : Nat) : Bool :=
  (updateDBAttrs (parseAttributes D m base len (beforeAttributes info before)).data.attrs).atomicAgg

private theorem exists_mem_concat {α : Type} (P : α → Prop) (before : List α) (a : α) :
    (∃ x ∈ before ++ [a], P x) ↔ (∃ x ∈ before, P x) ∨ P a := by
  simp only [List.mem_append, List.mem_singleton, or_and_right, exists_or, exists_eq_left]

private theorem atomicAggregate_after (m : Mem) (base : Nat) (attrs : List PathAttr)
    (st : UpdateState D) (none_yet : st.data.attrs .atomicAggregate = none)
    (held : Holds m base (encodeAttrs attrs)) :
    (parseAttributes D m base (encodeAttrs attrs).length st).data.attrs .atomicAggregate =
      if ∃ a ∈ attrs, a.code = 6 ∧ a.value ≠ [] then some ['1'] else none := by
  rw [← List.map_id attrs] at held ⊢
  refine parseAttributes_rule id
    (fun before st => st.data.attrs .atomicAggregate =
      if ∃ a ∈ before.map id, a.code = 6 ∧ a.value ≠ [] then some ['1'] else none) attrs
    ?_ ?_ st (by simpa using none_yet) base held
  · intro before a after st p _ inv some_value _
    simp only [List.map_id, exists_mem_concat, id] at inv some_value ⊢
    by_cases own : a.code = 6
    · rw [if_pos (Or.inr ⟨own, some_value⟩), own]
      rfl
    · rw [parseAttrData_frame (fun same => own (UInt8.toNat_inj.mp same)) (by rintro ⟨⟩), inv]
      simp only [own, false_and, or_false]
  · intro before a after st _ inv empty
    simp only [List.map_id, exists_mem_concat, id] at inv empty ⊢
    rw [inv]
    simp only [empty, ne_eq, not_true_eq_false, and_false, or_false]

/-- The flag comes from non-empty values of type 6 alone. -/
theorem publishedAtomicAgg_iff (info : PeerInfo) (before : ParsedUpdateData D) {m : Mem}
    {base : Nat} (attrs : List PathAttr) (held : Holds m base (encodeAttrs attrs)) :
    publishedAtomicAgg D info before m base (encodeAttrs attrs).length = true ↔
      ∃ a ∈ attrs, a.code = 6 ∧ a.value ≠ [] := by
  have after := atomicAggregate_after m base attrs (beforeAttributes info before) rfl held
  simp only [publishedAtomicAgg, updateDBAttrs, ParsedAttrsMap.at, decide_eq_true_eq, after]
  split
  · rename_i present
    exact iff_of_true rfl present
  · rename_i absent
    exact iff_of_false (by decide) absent

/-- The contract of the walk on a section of whole attributes: every attribute is decoded
once, in order, from its own value, and the published flag says whether an empty
ATOMIC_AGGREGATE is among them. -/
def WalkContract (D : Decoders) (info : PeerInfo) (before : ParsedUpdateData D) (m : Mem)
    (base : Nat) (attrs : List PathAttr) : Prop :=
  attrCalls m base (encodeAttrs attrs).length = expectedCalls 0 attrs ∧
    (publishedAtomicAgg D info before m base (encodeAttrs attrs).length = true ↔
      ∃ a ∈ attrs, a.code = 6 ∧ a.value = [])

/-- The contract holds for exactly the sections that have no empty value, and then for
those without ATOMIC_AGGREGATE. -/
theorem walkContract_iff (D : Decoders) (info : PeerInfo) (before : ParsedUpdateData D) {m : Mem}
    {base : Nat} (attrs : List PathAttr) (held : Holds m base (encodeAttrs attrs)) :
    WalkContract D info before m base attrs ↔
      (∀ a ∈ attrs, a.value ≠ []) ∧ ∀ a ∈ attrs, a.code ≠ 6 := by
  unfold WalkContract
  rw [publishedAtomicAgg_iff info before attrs held, attrCalls_encode attrs held,
    List.filter_eq_self]
  simp only [decide_eq_true_eq, forall_expectedCalls]
  refine and_congr_right fun some_value => ?_
  have no_empty : ¬ ∃ a ∈ attrs, a.code = 6 ∧ a.value = [] := by
    rintro ⟨a, here, -, empty⟩
    exact some_value a here empty
  simp only [no_empty, iff_false, not_exists, not_and]
  exact ⟨fun none_six a here six => none_six a here six (some_value a here),
    fun none_six a here six => absurd six (none_six a here)⟩

private def originIgp : PathAttr := ⟨0x40, 1, [0], by decide⟩

private def atomicAggregate : PathAttr := ⟨0x40, 6, [], by decide⟩

theorem originIgp_walk :
    WalkContract Decoders.silent PeerInfo.fresh (ParsedUpdateData.empty _)
      (memOf (encodeAttrs [originIgp])) 0 [originIgp] :=
  (walkContract_iff _ _ _ [originIgp] (holds_memOf _)).mpr (by decide)

/-- A lone ATOMIC_AGGREGATE is passed over and published as absent. -/
theorem atomicAggregate_not_published :
    ¬ WalkContract Decoders.silent PeerInfo.fresh (ParsedUpdateData.empty _)
      (memOf (encodeAttrs [atomicAggregate])) 0 [atomicAggregate] := by
  rintro ⟨calls, published⟩
  have held := holds_memOf (encodeAttrs [atomicAggregate])
  rw [publishedAtomicAgg_iff _ _ _ held] at published
  exact absurd (published.mpr ⟨atomicAggregate, by simp, rfl, rfl⟩) (by simp [atomicAggregate])

/-! Sections of arbitrary bytes. -/

/-- The size of the header at the start of a byte string and the value length it
announces, when the header is whole. -/
def attrHead : List UInt8 → Option (Nat × Nat)
  | flags :: _ :: rest =>
    if attrFlagExtended flags.toNat then
      match rest with
      | hi :: lo :: _ => some (4, hi.toNat * 256 + lo.toNat)
      | _ => none
    else
      match rest with
      | len :: _ => some (3, len.toNat)
      | [] => none
  | _ => none

theorem attrHead_readBytes (m : Mem) (p n : Nat) :
    attrHead (readBytes m p n) =
      if n < 2 + lengthWidth m p then none else some (2 + lengthWidth m p, lengthField m p) := by
  cases extended : attrFlagExtended (u8 m p) with
  | true =>
    have width : lengthWidth m p = 2 := if_pos extended
    have field : lengthField m p = u16 m (p + 2) := if_pos extended
    have flag : attrFlagExtended (m p).toNat = true := extended
    rw [width, field]
    rcases n with _ | _ | _ | _ | n <;> simp [readBytes, attrHead, flag, u16, u8]
  | false =>
    have width : lengthWidth m p = 1 := if_neg (by simp [extended])
    have field : lengthField m p = u8 m (p + 2) := if_neg (by simp [extended])
    have flag : attrFlagExtended (m p).toNat = false := extended
    rw [width, field]
    rcases n with _ | _ | _ | n <;> simp [readBytes, attrHead, flag, u8]

/-- What is left of a byte string after its whole attributes. -/
def unfinished (bs : List UInt8) : List UInt8 :=
  match attrHead bs with
  | some (head, value) =>
    if 0 < head ∧ head + value ≤ bs.length then unfinished (bs.drop (head + value)) else bs
  | none => bs
termination_by bs.length
decreasing_by
  rename_i whole
  rw [List.length_drop]
  omega

/-- Nothing is left, or a header that announces at least three bytes more than there are. -/
def Harmless (rest : List UInt8) : Prop :=
  match attrHead rest with
  | some (head, value) => rest.length + 2 < head + value
  | none => rest = []

/-- Every header the walk looks at lies in the section, and so does every value it has
decoded: none that claims more bytes than remain is decoded. -/
def VisitsInside (m : Mem) (base len : Nat) : Prop :=
  ∀ v ∈ sectionVisits m base len, v.value ≤ len ∧ (v.decoded = true → v.stop ≤ len)

/-- One attribute is taken off the front at a time. -/
private theorem harmless_unfinished (m : Mem) (p n : Nat) :
    Harmless (unfinished (readBytes m p n)) ↔
      if n < 2 + lengthWidth m p then n = 0
      else if 2 + lengthWidth m p + lengthField m p ≤ n then
        Harmless (unfinished (readBytes m (p + (2 + lengthWidth m p + lengthField m p))
          (n - (2 + lengthWidth m p + lengthField m p))))
      else n + 2 < 2 + lengthWidth m p + lengthField m p := by
  have head := attrHead_readBytes m p n
  rw [unfinished]
  split_ifs with short whole
  · rw [if_pos short] at head
    simp only [head, Harmless, ← List.length_eq_zero_iff, length_readBytes]
  · rw [if_neg short] at head
    have rest : (readBytes m p n).drop (2 + lengthWidth m p + lengthField m p) =
        readBytes m (p + (2 + lengthWidth m p + lengthField m p))
          (n - (2 + lengthWidth m p + lengthField m p)) := by
      rw [readBytes_split m p whole]
      exact List.drop_left' (length_readBytes m p _)
    simp only [head, length_readBytes, if_pos (And.intro (show 0 < 2 + lengthWidth m p by omega) whole),
      rest]
  · rw [if_neg short] at head
    simp only [head, length_readBytes, if_neg (fun both => whole (And.right both)), Harmless]

private theorem visits_inside_iff (m : Mem) (base len offset : Nat) (within : offset ≤ len) :
    (∀ v ∈ attrVisits m base len offset, v.value ≤ len ∧ (v.decoded = true → v.stop ≤ len)) ↔
      Harmless (unfinished (readBytes m (base + offset) (len - offset))) := by
  fun_induction attrVisits m base len offset with
  | case1 offset more v goes_on ih =>
    have value : v.value = offset + 2 + lengthWidth m (base + offset) := rfl
    have stop : v.stop = v.value + lengthField m (base + offset) := rfl
    have test : v.decoded = true ↔ 0 < lengthField m (base + offset) ∧
        offset + lengthWidth m (base + offset) + lengthField m (base + offset) ≤ len :=
      decide_eq_true_iff
    have field : v.attrLen = lengthField m (base + offset) := rfl
    rw [test, field] at goes_on
    rw [List.forall_mem_cons, harmless_unfinished, test]
    split_ifs with short whole
    · refine iff_of_false (fun both => ?_) ?_ <;> omega
    · have next : base + offset + (2 + lengthWidth m (base + offset) +
          lengthField m (base + offset)) = base + v.stop := by omega
      have left : len - offset - (2 + lengthWidth m (base + offset) +
          lengthField m (base + offset)) = len - v.stop := by omega
      rw [next, left, ← ih (by omega)]
      exact and_iff_right ⟨by omega, fun _ => by omega⟩
    · refine iff_of_false (fun both => ?_) ?_ <;> omega
  | case2 offset more v stopped =>
    have value : v.value = offset + 2 + lengthWidth m (base + offset) := rfl
    have test : v.decoded = true ↔ 0 < lengthField m (base + offset) ∧
        offset + lengthWidth m (base + offset) + lengthField m (base + offset) ≤ len :=
      decide_eq_true_iff
    have field : v.attrLen = lengthField m (base + offset) := rfl
    rw [test, field] at stopped
    rw [List.forall_mem_singleton, harmless_unfinished, test]
    split_ifs with short whole <;> omega
  | case3 offset done =>
    have none_left : len - offset = 0 := by omega
    rw [harmless_unfinished, none_left, if_pos (by omega)]
    simp

/-- The walk stays inside a section exactly when the bytes behind its last whole
attribute are none or announce at least three bytes too many: the counter of the bound
test lags two bytes behind the data pointer. -/
theorem visitsInside_iff (m : Mem) (base len : Nat) :
    VisitsInside m base len ↔ len < 3 ∨ Harmless (unfinished (readBytes m base len)) := by
  unfold VisitsInside sectionVisits
  split
  · rename_i short
    simp [short]
  · rename_i long
    rw [visits_inside_iff m base len 0 (by omega)]
    simp only [long, false_or, Nat.add_zero, Nat.sub_zero]

/-- A MED of four bytes of which the section holds two. -/
theorem cut_med_decoded : ¬ VisitsInside (memOf [0x80, 4, 4, 0, 0]) 0 5 := by
  intro inside
  have visited : visitAt (memOf [0x80, 4, 4, 0, 0]) 0 5 0 ∈
      sectionVisits (memOf [0x80, 4, 4, 0, 0]) 0 5 := by
    rw [sectionVisits, if_neg (by decide), attrVisits, if_pos (by decide)]
    simp only
    rw [if_pos (by decide)]
    exact List.mem_cons_self
  exact absurd ((inside _ visited).2 (by decide)) (by decide)

end SonicBmp.Bgp.AttrWalk
