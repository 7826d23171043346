/- module: SonicBmp/Bgp/UpdateReads
   digest: The bytes that the UPDATE parser looks at outside attribute values. -/

import SonicBmp.Library.Footprint
import SonicBmp.Bgp.AttrWalk
import SonicBmp.Bgp.UpdateSections

set_option autoImplicit false
set_option relaxedAutoImplicit false

namespace SonicBmp.Bgp.UpdateReads

open SonicBmp.Library.Memory
open SonicBmp.Library.Footprint
open SonicBmp.Bgp.Common
open SonicBmp.Bgp.Nlri
open SonicBmp.Bgp.Attributes
open SonicBmp.Bgp.Update
open SonicBmp.Bgp.UpdateSafety
open SonicBmp.Bgp.AttrWalk
open SonicBmp.Bgp.UpdateSections

/-! NLRI of the classic parser. -/

/-- Path identifier and length octet of each entry, and its address unless it is too long. -/
def nlriReads (addPath : Bool) (m : Mem) (len data readSize : Nat) : List Span :=
  if readSize < len then
    let id := pathIdAt addPath m data (len - readSize)
    let bits := u8 m (data + id.2)
    let addr := data + id.2 + 1
    [⟨data, id.2 + 1⟩] ++
      if addrBytes bits ≤ 4 then
        [⟨addr, addrBytes bits⟩] ++
          nlriReads addPath m len (addr + addrBytes bits) (readSize + id.2 + addrBytes bits + 1)
      else nlriReads addPath m len addr (readSize + id.2 + 1)
  else []
termination_by len - readSize

/-- The address at which the walk ends. -/
def nlriStop (addPath : Bool) (m : Mem) (len data readSize : Nat) : Nat :=
  if readSize < len then
    let id := pathIdAt addPath m data (len - readSize)
    let bits := u8 m (data + id.2)
    let addr := data + id.2 + 1
    if addrBytes bits ≤ 4 then
      nlriStop addPath m len (addr + addrBytes bits) (readSize + id.2 + addrBytes bits + 1)
    else nlriStop addPath m len addr (readSize + id.2 + 1)
  else data
termination_by len - readSize

section

variable (addPath : Bool) (m : Mem) (len : Nat)

/-- The spans of the walk are adjacent, so its end decides. -/
private theorem inside_nlriReads_from (lo hi data readSize : Nat) (above : lo ≤ data) :
    Inside lo hi (nlriReads addPath m len data readSize) ∧ data ≤ hi ↔
      nlriStop addPath m len data readSize ≤ hi := by
  fun_induction nlriStop addPath m len data readSize with
  | case1 data readSize more id bits addr short ih =>
    have reads : nlriReads addPath m len data readSize =
        [⟨data, id.2 + 1⟩] ++ ([⟨addr, addrBytes bits⟩] ++
          nlriReads addPath m len (addr + addrBytes bits)
            (readSize + id.2 + addrBytes bits + 1)) := by
      rw [nlriReads, if_pos more]
      exact congrArg (([⟨data, id.2 + 1⟩] : List Span) ++ ·) (if_pos short)
    have after : addr = data + id.2 + 1 := rfl
    rw [← ih (by omega), reads]
    simp only [inside_append, inside_cons, inside_nil, Span.stop, and_true]
    constructor
    · rintro ⟨⟨⟨-, first⟩, ⟨-, second⟩, rest⟩, -⟩
      exact ⟨rest, second⟩
    · rintro ⟨rest, second⟩
      exact ⟨⟨⟨above, by omega⟩, ⟨by omega, second⟩, rest⟩, by omega⟩
  | case2 data readSize more id bits addr long ih =>
    have reads : nlriReads addPath m len data readSize =
        [⟨data, id.2 + 1⟩] ++ nlriReads addPath m len addr (readSize + id.2 + 1) := by
      rw [nlriReads, if_pos more]
      exact congrArg (([⟨data, id.2 + 1⟩] : List Span) ++ ·) (if_neg long)
    have after : addr = data + id.2 + 1 := rfl
    rw [← ih (by omega), reads]
    simp only [inside_append, inside_cons, inside_nil, Span.stop, and_true]
    constructor
    · rintro ⟨⟨⟨-, first⟩, rest⟩, -⟩
      exact ⟨rest, by omega⟩
    · rintro ⟨rest, first⟩
      exact ⟨⟨⟨above, by omega⟩, rest⟩, by omega⟩
  | case3 data readSize done =>
    rw [nlriReads, if_neg done]
    simp

theorem inside_nlriReads (lo hi data : Nat) (above : lo ≤ data) :
    Inside lo hi (nlriReads addPath m len data 0) ↔
      len = 0 ∨ nlriStop addPath m len data 0 ≤ hi := by
  by_cases empty : len = 0
  · rw [nlriReads, if_neg (by omega)]
    simp [empty]
  · rw [← inside_nlriReads_from addPath m len lo hi data 0 above]
    simp only [empty, false_or, iff_self_and]
    intro inside
    rw [nlriReads, if_pos (by omega)] at inside
    have first := (inside_append _ _ _ _).mp inside
    have bound := ((inside_cons _ _ _ _).mp first.1).1.2
    simp only [Span.stop] at bound
    omega

end

theorem tupleV4_readsOnly (data bits pathId : Nat) :
    ReadsOnly (fun m => tupleV4 m data bits pathId) (fun _ => [⟨data, addrBytes bits⟩]) := by
  refine ReadsOnly.read fun m m' same => ?_
  simp only [tupleV4, copyRaw, show readBytes m data (addrBytes bits) = _ from same]

/-- How many octets of a path identifier are read. -/
private def idWidth (addPath : Bool) (remaining : Nat) : Nat :=
  if addPath && 4 ≤ remaining then 4 else 0

private theorem pathIdAt_snd (addPath : Bool) (m : Mem) (data remaining : Nat) :
    (pathIdAt addPath m data remaining).2 = idWidth addPath remaining := by
  unfold pathIdAt idWidth
  split <;> rfl

private theorem entryHead_readsOnly (addPath : Bool) (data remaining : Nat) :
    ReadsOnly (fun m => ((pathIdAt addPath m data remaining).1,
        u8 m (data + idWidth addPath remaining)))
      (fun _ => [⟨data, idWidth addPath remaining + 1⟩]) := by
  refine ReadsOnly.read fun m m' same => ?_
  unfold pathIdAt
  unfold idWidth at same ⊢
  split_ifs at same ⊢
  · exact Prod.ext (same.u32 0 (by omega)) (same.u8 4 (by omega))
  · exact Prod.ext rfl (same.u8 0 (by omega))

theorem nlriLoopV4_readsOnly (addPath : Bool) (len data readSize : Nat)
    (prefixes : List PrefixTuple) :
    ReadsOnly (fun m => nlriLoopV4 addPath m len data readSize prefixes)
      (fun m => nlriReads addPath m len data readSize) := by
  induction rest : len - readSize using Nat.strongRecOn generalizing data readSize prefixes with
  | ind n ih =>
    by_cases more : readSize < len
    · let w := idWidth addPath (len - readSize)
      refine ((entryHead_readsOnly addPath data (len - readSize)).bind
        (g := fun h m =>
          if addrBytes h.2 ≤ 4 then
            nlriLoopV4 addPath m len (data + w + 1 + addrBytes h.2)
              (readSize + w + addrBytes h.2 + 1) (prefixes ++ [tupleV4 m (data + w + 1) h.2 h.1])
          else nlriLoopV4 addPath m len (data + w + 1) (readSize + w + 1) prefixes)
        (t := fun h m =>
          if addrBytes h.2 ≤ 4 then
            [⟨data + w + 1, addrBytes h.2⟩] ++
              nlriReads addPath m len (data + w + 1 + addrBytes h.2)
                (readSize + w + addrBytes h.2 + 1)
          else nlriReads addPath m len (data + w + 1) (readSize + w + 1))
        ?_).of_eq ?_ ?_
      · rintro ⟨pathId, bits⟩
        refine ReadsOnly.ite (fun _ => ?_) (fun _ => ih _ (by omega) _ _ _ rfl)
        exact (tupleV4_readsOnly (data + w + 1) bits pathId).bind
          (g := fun tuple m => nlriLoopV4 addPath m len (data + w + 1 + addrBytes bits)
            (readSize + w + addrBytes bits + 1) (prefixes ++ [tuple]))
          (fun tuple => ih (len - (readSize + w + addrBytes bits + 1)) (by omega) _ _ _ rfl)
      · intro m
        rw [nlriLoopV4, if_pos more]
        simp only [pathIdAt_snd]
        rfl
      · intro m
        rw [nlriReads, if_pos more]
        simp only [pathIdAt_snd]
        rfl
    · refine (ReadsOnly.pure prefixes).of_eq (fun m => ?_) (fun m => ?_)
      · rw [nlriLoopV4, if_neg more]
      · rw [nlriReads, if_neg more]

theorem parseNlriDataV4_readsOnly (info : PeerInfo) (data len : Nat)
    (prefixes : List PrefixTuple) :
    ReadsOnly (fun m => parseNlriDataV4 info m data len prefixes)
      (fun m => nlriReads (info.addPathUnicast true) m len data 0) := by
  refine (nlriLoopV4_readsOnly _ len data 0 prefixes).of_eq (fun m => ?_) (fun m => rfl)
  unfold parseNlriDataV4
  split
  · rw [nlriLoopV4, if_neg (by omega)]
  · rfl

/-! Attribute headers. -/

def AttrVisit.span (base : Nat) (v : AttrVisit) : Span := ⟨base + v.offset, 2 + v.width⟩

def headReads (m : Mem) (base len : Nat) : List Span :=
  (sectionVisits m base len).map (AttrVisit.span base)

theorem inside_headReads (m : Mem) (lo hi base len : Nat) (above : lo ≤ base) :
    Inside lo hi (headReads m base len) ↔ ∀ v ∈ sectionVisits m base len, base + v.value ≤ hi := by
  unfold Inside headReads
  rw [List.forall_mem_map]
  refine forall₂_congr fun v _ => ?_
  simp only [AttrVisit.span, Span.stop, AttrVisit.value]
  omega

private theorem visitAt_readsOnly (base len offset : Nat) :
    ReadsOnly (fun m => visitAt m base len offset)
      (fun m => [AttrVisit.span base (visitAt m base len offset)]) := by
  intro m m' agree
  have head : SameBytes (2 + lengthWidth m (base + offset)) m (base + offset) m' (base + offset) :=
    agree _ List.mem_cons_self
  have flags : u8 m (base + offset) = u8 m' (base + offset) := head.u8 0 (by omega)
  have width : lengthWidth m (base + offset) = lengthWidth m' (base + offset) := by
    unfold lengthWidth
    rw [flags]
  have type : u8 m (base + offset + 1) = u8 m' (base + offset + 1) := head.u8 1 (by omega)
  have field : lengthField m (base + offset) = lengthField m' (base + offset) := by
    unfold lengthWidth at head
    unfold lengthField
    rw [flags] at head ⊢
    split_ifs at head ⊢
    · exact head.u16 2 (by omega)
    · exact head.u8 2 (by omega)
  have same : visitAt m base len offset = visitAt m' base len offset := by
    simp only [visitAt, width, type, field]
  exact ⟨same, congrArg (fun v => [AttrVisit.span base v]) same⟩

theorem attrVisits_readsOnly (base len offset : Nat) :
    ReadsOnly (fun m => attrVisits m base len offset)
      (fun m => (attrVisits m base len offset).map (AttrVisit.span base)) := by
  induction rest : len - offset using Nat.strongRecOn generalizing offset with
  | ind n ih =>
    by_cases more : offset < len
    · refine ((visitAt_readsOnly base len offset).bind_range
        (g := fun v m =>
          if v.decoded ∨ v.attrLen = 0 then v :: attrVisits m base len v.stop else [v])
        (t := fun v m =>
          if v.decoded ∨ v.attrLen = 0 then
            (attrVisits m base len v.stop).map (AttrVisit.span base)
          else [])
        (fun m => ?_)).of_eq (fun m => ?_) (fun m => ?_)
      · have further := offset_lt_stop m base len offset
        exact ReadsOnly.ite (fun _ => (ih _ (by omega) _ rfl).map _) (fun _ => ReadsOnly.pure _)
      · rw [attrVisits, if_pos more]
      · rw [attrVisits, if_pos more]
        simp only
        split <;> rfl
    · refine (ReadsOnly.pure []).of_eq (fun m => ?_) (fun m => ?_)
      · rw [attrVisits, if_neg more]
      · rw [attrVisits, if_neg more, List.map_nil]

theorem sectionVisits_readsOnly (base len : Nat) :
    ReadsOnly (fun m => sectionVisits m base len) (fun m => headReads m base len) := by
  unfold headReads sectionVisits
  split
  · exact ReadsOnly.pure []
  · exact attrVisits_readsOnly base len 0

/-! The message body. -/

def lengthReads (m : Mem) (data size : Nat) : List Span :=
  if size < 2 then []
  else [⟨data, 2⟩] ++ if size - 2 < withdrawnLen m data then [] else [⟨data + 2 + withdrawnLen m data, 2⟩]

theorem handedSections_readsOnly (data size : Nat) :
    ReadsOnly (fun m => handedSections m data size) (fun m => lengthReads m data size) := by
  by_cases short : size < 2
  · refine (ReadsOnly.pure none).of_eq (fun m => ?_) (fun m => ?_)
    · simp only [handedSections, if_pos short]
    · simp only [lengthReads, if_pos short]
  · have first : ReadsOnly (fun m => withdrawnLen m data) (fun _ => [⟨data, 2⟩]) :=
      ReadsOnly.read fun m m' same => same.u16 0 (by omega)
    refine (first.bind
      (g := fun w m =>
        if size - 2 < w then none
        else if subSize size (4 + w) < u16 m (data + 2 + w) then none
        else some ⟨⟨2, w⟩, ⟨4 + w, u16 m (data + 2 + w)⟩,
          ⟨4 + w + u16 m (data + 2 + w), subSize size (4 + w + u16 m (data + 2 + w)) % 65536⟩⟩)
      (t := fun w m => if size - 2 < w then [] else [⟨data + 2 + w, 2⟩])
      (fun w => ReadsOnly.ite (fun _ => ReadsOnly.pure none) fun _ => ?_)).of_eq
        (fun m => ?_) (fun m => ?_)
    · refine ReadsOnly.read fun m m' same => ?_
      have attr : u16 m (data + 2 + w) = u16 m' (data + 2 + w) := same.u16 0 (by omega)
      simp only [attr]
    · simp only [handedSections, if_neg short]
    · simp only [lengthReads, if_neg short]

/-- What of a message body is known before any attribute value is decoded. -/
structure Skeleton where
  sections : Sections
  withdrawn : List PrefixTuple
  visits : List AttrVisit
  advertised : List PrefixTuple

def skeletonOf (info : PeerInfo) (m : Mem) (data : Nat) (s : Sections) : Skeleton where
  sections := s
  withdrawn := parseNlriDataV4 info m (data + s.withdrawn.start) s.withdrawn.len []
  visits := sectionVisits m (data + s.attributes.start) s.attributes.len
  advertised := parseNlriDataV4 info m (data + s.nlri.start) s.nlri.len []

def updateSkeleton (info : PeerInfo) (m : Mem) (data size : Nat) : Option Skeleton :=
  (handedSections m data size).map (skeletonOf info m data)

def sectionReads (info : PeerInfo) (m : Mem) (data : Nat) (s : Sections) : List Span :=
  nlriReads (info.addPathUnicast true) m s.withdrawn.len (data + s.withdrawn.start) 0 ++
    (headReads m (data + s.attributes.start) s.attributes.len ++
      nlriReads (info.addPathUnicast true) m s.nlri.len (data + s.nlri.start) 0)

def updateReads (info : PeerInfo) (m : Mem) (data size : Nat) : List Span :=
  lengthReads m data size ++ (handedSections m data size).elim [] (sectionReads info m data)

theorem updateSkeleton_readsOnly (info : PeerInfo) (data size : Nat) :
    ReadsOnly (fun m => updateSkeleton info m data size) (fun m => updateReads info m data size) := by
  refine (handedSections_readsOnly data size).bind
    (g := fun sections m => sections.map (skeletonOf info m data))
    (t := fun sections m => sections.elim [] (sectionReads info m data)) ?_
  rintro (_ | s)
  · exact ReadsOnly.pure none
  · exact (parseNlriDataV4_readsOnly info _ _ []).bind fun withdrawn =>
      (sectionVisits_readsOnly _ _).bind fun visits =>
        (parseNlriDataV4_readsOnly info _ _ []).map fun advertised =>
          some (⟨s, withdrawn, visits, advertised⟩ : Skeleton)

/-! The parser is its skeleton and the decoders of attribute values. -/

theorem nlriLoopV4_append (addPath : Bool) (m : Mem) (len data readSize : Nat)
    (before prefixes : List PrefixTuple) :
    nlriLoopV4 addPath m len data readSize (before ++ prefixes) =
      before ++ nlriLoopV4 addPath m len data readSize prefixes := by
  fun_induction nlriLoopV4 addPath m len data readSize prefixes with
  | case1 data readSize prefixes more id bits addr short ih =>
    rw [nlriLoopV4, if_pos more]
    refine (if_pos short).trans ?_
    simpa only [List.append_assoc] using ih
  | case2 data readSize prefixes more id bits addr long ih =>
    rw [nlriLoopV4, if_pos more]
    exact (if_neg long).trans ih
  | case3 data readSize prefixes done => rw [nlriLoopV4, if_neg done]

theorem parseNlriDataV4_append {info info' : PeerInfo}
    (mode : info'.addPathUnicast true = info.addPathUnicast true) (m : Mem) (data len : Nat)
    (prefixes : List PrefixTuple) :
    parseNlriDataV4 info' m data len prefixes =
      prefixes ++ parseNlriDataV4 info m data len [] := by
  unfold parseNlriDataV4
  rw [mode]
  split
  · rw [List.append_nil]
  · rw [← nlriLoopV4_append, List.append_nil]

variable {D : Decoders}

def addWithdrawn (st : UpdateState D) (prefixes : List PrefixTuple) : UpdateState D :=
  { st with data := { st.data with withdrawn := st.data.withdrawn ++ prefixes } }

/-- The attribute values are decoded in order into the state, and the NLRI is appended. -/
def Skeleton.fill (k : Skeleton) (m : Mem) (data : Nat) (st : UpdateState D) : UpdateState D :=
  let calls := (k.visits.filter AttrVisit.decoded).map AttrVisit.call
  let st := calls.foldl (runCall D m (data + k.sections.attributes.start))
    (addWithdrawn st k.withdrawn)
  { st with data := { st.data with advertised := st.data.advertised ++ k.advertised } }

theorem runSections_eq_fill (m : Mem) (data : Nat) (s : Sections) (st : UpdateState D) :
    runSections m data s st = (skeletonOf st.info m data s).fill m data st := by
  let withdrawn := parseNlriDataV4 st.info m (data + s.withdrawn.start) s.withdrawn.len []
  have walked := parseAttributes_eq_calls m (data + s.attributes.start) s.attributes.len
    (addWithdrawn st withdrawn)
  have latches := parseAttributes_latches m (data + s.attributes.start) s.attributes.len
    (addWithdrawn st withdrawn)
  have start : runSections m data s st =
      let st := parseAttributes D m (data + s.attributes.start) s.attributes.len
        (addWithdrawn st withdrawn)
      { st with data := { st.data with
          advertised := parseNlriDataV4 st.info m (data + s.nlri.start) s.nlri.len
            st.data.advertised } } := by
    unfold runSections
    rw [parseNlriDataV4_append rfl m (data + s.withdrawn.start) s.withdrawn.len st.data.withdrawn]
    rfl
  rw [start]
  simp only
  rw [parseNlriDataV4_append (latches.addPathUnicast true), walked]
  rfl

theorem parseUpdateMsg_eq_skeleton (info : PeerInfo) (m : Mem) (data : Nat) {size : Nat}
    (hsize : size < 2 ^ 64) :
    parseUpdateMsg D info m data size =
      match updateSkeleton info m data size with
      | none => (0, ⟨info, ParsedUpdateData.empty D⟩)
      | some k =>
        (size,
          if k.sections.withdrawn.len = 0 ∧ size = 4 ∧ k.sections.attributes.len = 0 then
            ⟨{ info with endOfRIB := true }, ParsedUpdateData.empty D⟩
          else k.fill m data ⟨info, ParsedUpdateData.empty D⟩) := by
  rw [parseUpdateMsg_eq_sections info m data hsize, updateSkeleton]
  cases handedSections m data size with
  | none => rfl
  | some s =>
    simp only [Option.map_some, runSections_eq_fill]
    rfl

end SonicBmp.Bgp.UpdateReads
