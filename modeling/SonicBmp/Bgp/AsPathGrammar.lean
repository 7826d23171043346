/- module: SonicBmp/Bgp/AsPathGrammar
   digest: Exactly which AS_PATH values are accepted, with either ASN width, and the calls it takes. -/

import SonicBmp.Library.Turns
import SonicBmp.Bgp.AttrCodec

set_option autoImplicit false
set_option relaxedAutoImplicit false

namespace SonicBmp.Bgp.AsPathGrammar

open SonicBmp.Library.Memory
open SonicBmp.Library.Turns
open SonicBmp.Library.Printing (decimal)
open SonicBmp.Bgp.Common
open SonicBmp.Bgp.Attributes
open SonicBmp.Bgp.AttrCodec

variable {D : Decoders}

/-! What the decoder should do with a value. -/

/-- The value is these segments and nothing else. -/
def IsPath (w : AsnWidth) (value : List UInt8) (segs : List (PathSegment w)) : Prop :=
  value = segs.flatMap PathSegment.encode

/-- The three entries of a path: its text, the number of its ASNs and the last of them. -/
def recordPath {w : AsnWidth} (segs : List (PathSegment w)) (st : UpdateState D) : UpdateState D :=
  ((st.setAttr .asPath (segs.flatMap PathSegment.text)).setAttr .internalAsCount
    (decimal (segmentAsns segs).length)).setAttr .internalAsOrigin
      (decimal ((segmentAsns segs).getLast?.getD 0))

def switchToTwo (st : UpdateState D) : UpdateState D :=
  { st with info := { st.info with using2OctetAsn := true } }

/-- The state after a value, by the width in use and the width that fits. -/
structure Exact (value : List UInt8) (st after : UpdateState D) : Prop where
  two_path : st.info.using2OctetAsn = true → 2 ≤ value.length →
    ∀ segs, IsPath .two value segs → after = recordPath segs st
  two_other : st.info.using2OctetAsn = true →
    (value.length < 2 ∨ ∀ segs, ¬ IsPath .two value segs) → after = st
  four_short : st.info.using2OctetAsn = false → value.length < 4 → after = st
  four_path : st.info.using2OctetAsn = false → 4 ≤ value.length →
    ∀ segs, IsPath .four value segs → after = recordPath segs st
  four_then_two : st.info.using2OctetAsn = false → 4 ≤ value.length →
    (∀ segs, ¬ IsPath .four value segs) →
    ∀ segs, IsPath .two value segs → after = recordPath segs (switchToTwo st)
  four_then_none : st.info.using2OctetAsn = false → 4 ≤ value.length →
    (∀ segs, ¬ IsPath .four value segs) → (∀ segs, ¬ IsPath .two value segs) →
    after = switchToTwo st

/-! The calls of the decoder. -/

/-- The segment loop over the bytes read so far. -/
def segmentWalk (size : Nat) (m : Mem) (attrLen data : Nat) : CountingLoop Nat where
  bound := attrLen
  count := id
  next read :=
    let segment := 2 + u8 m (data + read + 1) * size
    if attrLen - read < segment then none else some (read + segment)
  advances := by
    intro read next _ goes
    dsimp only at goes
    split at goes
    · cases goes
    · cases goes
      simp only [id]
      omega

/-- The segments a call looks at. -/
def segmentTurns (size : Nat) (m : Mem) (attrLen data : Nat) : List Nat :=
  if attrLen < size then [] else (segmentWalk size m attrLen data).turns 0

/-- `parseAttr_AsPath` with its recursive call, and beside the result the segments that
each call looks at. -/
def asPathCalls (m : Mem) (attrLen data : Nat) (st : UpdateState D) :
    UpdateState D × List (List Nat) :=
  let size := if st.info.using2OctetAsn then 2 else 4
  let turns := segmentTurns size m attrLen data
  match asPathAttempt size m attrLen data st.data.attrs with
  | some attrs => ({ st with data := { st.data with attrs := attrs } }, [turns])
  | none =>
    if st.info.using2OctetAsn then (st, [turns])
    else
      let rest := asPathCalls m attrLen data (switchToTwo st)
      (rest.1, turns :: rest.2)
termination_by if st.info.using2OctetAsn then 0 else 1
decreasing_by
  rename_i four
  rw [if_neg four]
  exact Nat.one_pos

section Calls

variable (m : Mem) (attrLen data : Nat) (st : UpdateState D)

def withAttrs (attrs : ParsedAttrsMap) (st : UpdateState D) : UpdateState D :=
  { st with data := { st.data with attrs := attrs } }

theorem parse_two (two : st.info.using2OctetAsn = true) :
    parseAttrAsPath D m attrLen data st =
      (asPathAttempt AsnWidth.two.size m attrLen data st.data.attrs).elim st (withAttrs · st) := by
  rw [parseAttrAsPath]
  simp only [two, if_true, AsnWidth.size]
  cases asPathAttempt 2 m attrLen data st.data.attrs with
  | some attrs => rfl
  | none => rfl

/-- Where four octets do not fit, the peer is switched and the value tried again. -/
theorem parse_four (four : st.info.using2OctetAsn = false) :
    parseAttrAsPath D m attrLen data st =
      (asPathAttempt AsnWidth.four.size m attrLen data st.data.attrs).elim
        (parseAttrAsPath D m attrLen data (switchToTwo st)) (withAttrs · st) := by
  rw [parse_two m attrLen data (switchToTwo st) rfl, parseAttrAsPath]
  simp only [four, Bool.false_eq_true, if_false, AsnWidth.size]
  cases asPathAttempt 4 m attrLen data st.data.attrs with
  | some attrs => rfl
  | none =>
    rw [Option.elim_none]
    show _ = (asPathAttempt 2 m attrLen data st.data.attrs).elim _ _
    cases asPathAttempt 2 m attrLen data st.data.attrs with
    | some attrs => rfl
    | none => rfl

/-- A call at width two is the last one. -/
theorem asPathCalls_two (two : st.info.using2OctetAsn = true) :
    asPathCalls m attrLen data st =
      (parseAttrAsPath D m attrLen data st, [segmentTurns 2 m attrLen data]) := by
  rw [asPathCalls, parse_two m attrLen data st two]
  simp only [two, if_true, AsnWidth.size]
  cases asPathAttempt 2 m attrLen data st.data.attrs with
  | some attrs => rfl
  | none => rfl

theorem asPathCalls_four (four : st.info.using2OctetAsn = false) :
    asPathCalls m attrLen data st =
      (parseAttrAsPath D m attrLen data st,
        segmentTurns 4 m attrLen data ::
          if asPathAttempt 4 m attrLen data st.data.attrs = none then
            [segmentTurns 2 m attrLen data] else []) := by
  rw [asPathCalls, parse_four m attrLen data st four,
    asPathCalls_two m attrLen data (switchToTwo st) rfl]
  simp only [four, Bool.false_eq_true, if_false, AsnWidth.size]
  cases asPathAttempt 4 m attrLen data st.data.attrs with
  | some attrs => rfl
  | none => rfl

theorem asPathCalls_eq : (asPathCalls m attrLen data st).1 = parseAttrAsPath D m attrLen data st := by
  cases width : st.info.using2OctetAsn with
  | true => rw [asPathCalls_two m attrLen data st width]
  | false => rw [asPathCalls_four m attrLen data st width]

/-- At most one recursive call. -/
theorem length_asPathCalls_le : (asPathCalls m attrLen data st).2.length ≤ 2 := by
  cases width : st.info.using2OctetAsn with
  | true => simp [asPathCalls_two m attrLen data st width]
  | false =>
    rw [asPathCalls_four m attrLen data st width]
    split <;> simp

end Calls

/-! Any bytes that the loop accepts are segments. -/

section Segments

variable (w : AsnWidth) (m : Mem) (data : Nat)

theorem put_asnAt : w.put (asnAt w.size m data) = readBytes m data w.size := by
  cases w with
  | two => exact (readBytes_two m data).symm
  | four => exact (readBytes_four m data).symm

theorem asnAt_lt : asnAt w.size m data < 256 ^ w.size := by
  cases w with
  | two => exact u16_lt m data
  | four => exact u32_lt m data

def asnsAt (count : Nat) : List Nat :=
  (List.range count).map fun i => asnAt w.size m (data + i * w.size)

theorem flatMap_put_asnsAt (count : Nat) :
    (asnsAt w m data count).flatMap w.put = readBytes m data (count * w.size) := by
  rw [asnsAt, List.flatMap_map, readBytes_chunks]
  exact List.flatMap_congr fun i _ => put_asnAt w m _

/-- The segment that the bytes at an address write. -/
def segmentAt : PathSegment w where
  type := m data
  asns := asnsAt w m (data + 2) (u8 m (data + 1))
  asns_lt := by
    intro asn here
    obtain ⟨i, -, rfl⟩ := List.mem_map.mp here
    exact asnAt_lt w m _
  count_le := by
    have := u8_lt m (data + 1)
    simp only [asnsAt, List.length_map, List.length_range]
    omega

theorem encode_segmentAt :
    (segmentAt w m data).encode = readBytes m data (2 + u8 m (data + 1) * w.size) := by
  have count : (segmentAt w m data).asns.length = u8 m (data + 1) := by
    simp [segmentAt, asnsAt]
  rw [PathSegment.encode, count, ← readBytes_one, readBytes_add, segmentAt, flatMap_put_asnsAt]
  rfl

variable {w m data}

theorem isPath_of_loop {pathLen : Nat} {acc out : AsPathAcc}
    (accepted : asPathLoop w.size m pathLen data acc = some out) :
    ∃ segs, IsPath w (readBytes m data pathLen) segs := by
  induction pathLen using Nat.strongRecOn generalizing data acc with
  | ind pathLen ih =>
    rw [asPathLoop] at accepted
    split at accepted
    · dsimp only at accepted
      split at accepted
      · cases accepted
      · rename_i more fits
        obtain ⟨segs, rest⟩ := ih _ (by omega) accepted
        refine ⟨segmentAt w m data :: segs, ?_⟩
        rw [IsPath] at rest ⊢
        rw [List.flatMap_cons, encode_segmentAt, ← rest, Nat.add_assoc data, ← readBytes_add]
        congr 1
        omega
    · rename_i done
      obtain rfl : pathLen = 0 := by omega
      exact ⟨[], rfl⟩

end Segments

/-! One attempt. -/

section Attempt

variable {w : AsnWidth} {m : Mem} {attrLen data : Nat} {attrs : ParsedAttrsMap}

theorem attempt_path {segs : List (PathSegment w)} (small : attrLen ≤ 65535)
    (enough : w.size ≤ attrLen) (path : IsPath w (readBytes m data attrLen) segs)
    (st : UpdateState D) :
    asPathAttempt w.size m attrLen data st.data.attrs = some (recordPath segs st).data.attrs := by
  have length : attrLen = (segs.flatMap PathSegment.encode).length := by
    rw [← path, length_readBytes]
  have held : Holds m data (segs.flatMap PathSegment.encode) := path ▸ holds_readBytes m data attrLen
  have wide : 0 < w.size := by cases w <;> decide
  have asns := segmentAsns_length segs
  have count : (segmentAsns segs).length ≤ (segmentAsns segs).length * w.size :=
    Nat.le_mul_of_pos_right _ wide
  rw [asPathAttempt, if_neg (by omega), length,
    asPathLoop_of_holds segs data ⟨[], 0, 0⟩ held (by simp only; omega)]
  simp only [Option.map_some, AsPathAcc.extend, List.nil_append, Nat.zero_add, foldl_last]
  rfl

theorem attempt_short (short : attrLen < w.size) :
    asPathAttempt w.size m attrLen data attrs = some attrs := by
  rw [asPathAttempt, if_pos short]

theorem attempt_none (enough : w.size ≤ attrLen)
    (none_path : ∀ segs, ¬ IsPath w (readBytes m data attrLen) segs) :
    asPathAttempt w.size m attrLen data attrs = none := by
  rw [asPathAttempt, if_neg (by omega), Option.map_eq_none_iff]
  cases accepted : asPathLoop w.size m attrLen data ⟨[], 0, 0⟩ with
  | none => rfl
  | some out =>
    obtain ⟨segs, path⟩ := isPath_of_loop accepted
    exact absurd path (none_path segs)

end Attempt

/-- An AS_PATH value is accepted exactly if it is a list of segments of the width in use,
or, once that has failed with four octets, of two; at most one recursive call is made. -/
theorem asPath_accepted_exactly (m : Mem) (attrLen data : Nat) (small : attrLen ≤ 65535)
    (st : UpdateState D) :
    Exact (readBytes m data attrLen) st (parseAttrAsPath D m attrLen data st) ∧
      (asPathCalls m attrLen data st).1 = parseAttrAsPath D m attrLen data st ∧
      (asPathCalls m attrLen data st).2.length ≤ 2 := by
  refine ⟨?_, asPathCalls_eq m attrLen data st, length_asPathCalls_le m attrLen data st⟩
  have length := length_readBytes m data attrLen
  have two_of_four : 4 ≤ attrLen → AsnWidth.two.size ≤ attrLen := Nat.le_trans (by decide)
  constructor
  case two_path =>
    intro two enough segs path
    rw [length] at enough
    rw [parse_two m attrLen data st two, @attempt_path D .two _ _ _ segs small enough path st]
    rfl
  case two_other =>
    intro two unfit
    rw [length] at unfit
    rw [parse_two m attrLen data st two]
    by_cases short : attrLen < 2
    · rw [attempt_short short]
      rfl
    · rw [attempt_none (Nat.not_lt.mp short) (unfit.resolve_left short), Option.elim_none]
  case four_short =>
    intro four short
    rw [length] at short
    rw [parse_four m attrLen data st four, attempt_short short]
    rfl
  case four_path =>
    intro four enough segs path
    rw [length] at enough
    rw [parse_four m attrLen data st four, @attempt_path D .four _ _ _ segs small enough path st]
    rfl
  case four_then_two =>
    intro four enough none_path segs path
    rw [length] at enough
    rw [parse_four m attrLen data st four, @attempt_none .four _ _ _ _ enough none_path,
      Option.elim_none, parse_two m attrLen data (switchToTwo st) rfl,
      attempt_path small (two_of_four enough) path _]
    rfl
  case four_then_none =>
    intro four enough none_path none_two
    rw [length] at enough
    rw [parse_four m attrLen data st four, @attempt_none .four _ _ _ _ enough none_path,
      Option.elim_none, parse_two m attrLen data (switchToTwo st) rfl,
      attempt_none (two_of_four enough) none_two, Option.elim_none]

/-- AS 7 alone, in four octets, from a peer of whom nothing is known. -/
theorem single_asn_accepted :
    6 ≤ 65535 ∧
      parseAttrAsPath Decoders.silent (memOf [2, 1, 0, 0, 0, 7]) 6 0 ⟨.fresh, .empty _⟩ =
        recordPath [(⟨2, [7], by decide, by decide⟩ : PathSegment .four)] ⟨.fresh, .empty _⟩ :=
  ⟨by decide, (asPath_accepted_exactly _ 6 0 (by decide) _).1.four_path rfl (by decide) _ rfl⟩

end SonicBmp.Bgp.AsPathGrammar
