/- module: SonicBmp/Bgp/OpenReads
   digest: The bytes that the OPEN parser looks at. -/

import SonicBmp.Library.Footprint
import SonicBmp.Bgp.OpenMsg

set_option autoImplicit false
set_option relaxedAutoImplicit false

namespace SonicBmp.Bgp.OpenReads

open SonicBmp.Library.Memory
open SonicBmp.Library.Loop (strideLoop strideLoop_congr)
open SonicBmp.Library.Footprint
open SonicBmp.Bgp.Common
open SonicBmp.Bgp.OpenMsg

/-! The loops once more, collecting what they read instead of what they find. -/

def capValueReads (code len value : Nat) : List Span :=
  match code with
  | 1 | 65 => if len = 4 then [⟨value, 4⟩] else []
  | 69 => if 4 ≤ len then [⟨value, 4 * ((len + 3) / 4)⟩] else []
  | _ => []

def capabilityReads (m : Mem) (capPtr : Nat) : List Span :=
  ⟨capPtr, 2⟩ :: capValueReads (u8 m capPtr) (u8 m (capPtr + 1)) (capPtr + 2)

section

variable (stale : Int) (sentOpen : Bool) (m : Mem)

def capLoopReads (paramLen c capPtr : Nat) (st : OpenState) : List Span :=
  if c < paramLen then
    let len := u8 m (capPtr + 1)
    capabilityReads m capPtr ++
      match capability stale sentOpen m capPtr st with
      | (_, none) => []
      | (st, some capPtr) => capLoopReads paramLen (c + 2 + len) (capPtr + 2 + len) st
  else []
termination_by paramLen - c

def parseCapabilitiesReads (data size i : Nat) (st : OpenState) : List Span :=
  if i < size then
    let bufPtr := data + i
    let len := u8 m (bufPtr + 1)
    [⟨bufPtr, 2⟩] ++
      if u8 m bufPtr = bgpCapParamType ∧ 2 ≤ len ∧ i + 2 + len ≤ size then
        capLoopReads stale sentOpen m len 0 (bufPtr + 2) st ++
          match capLoop stale sentOpen m len 0 (bufPtr + 2) st with
          | (false, _) => []
          | (true, st) => parseCapabilitiesReads data size (i + 2 + len) st
      else parseCapabilitiesReads data size (i + 2 + len) st
  else []
termination_by size - i

/-- The part of the parameters that is walked: all of them, or what the message holds. -/
def walkedParams (size paramLen : Nat) : Nat := min paramLen (size - openBgpHdrLen)

def openReads (addPath : AddPathMap) (data size : Nat) : List Span :=
  if size < openBgpHdrLen then []
  else
    [⟨data, openBgpHdrLen⟩] ++
      parseCapabilitiesReads stale sentOpen m (data + openBgpHdrLen)
        (walkedParams size (u8 m (data + 9))) 0 ⟨u16 m (data + 1), [], addPath⟩

end

/-! They look at nothing else. -/

section

variable (stale : Int) (sentOpen : Bool)

private theorem addPathEntry_congr {m m' : Mem} {p : Nat} (same : SameBytes 4 m p m' p)
    (st : OpenState) : addPathEntry stale sentOpen m p st = addPathEntry stale sentOpen m' p st := by
  have afi : u16 m p = u16 m' p := same.u16 0 (by omega)
  simp only [addPathEntry, afi, same.u8 2 (by omega), same.u8 3 (by omega)]

theorem capability_readsOnly (capPtr : Nat) (st : OpenState) :
    ReadsOnly (fun m => (u8 m (capPtr + 1), capability stale sentOpen m capPtr st))
      (fun m => capabilityReads m capPtr) := by
  intro m m' agree
  have head : SameBytes 2 m capPtr m' capPtr := agree ⟨capPtr, 2⟩ List.mem_cons_self
  have code : u8 m capPtr = u8 m' capPtr := head.u8 0 (by omega)
  have len : u8 m (capPtr + 1) = u8 m' (capPtr + 1) := head.u8 1 (by omega)
  have value : Agree (capValueReads (u8 m capPtr) (u8 m (capPtr + 1)) (capPtr + 2)) m m' :=
    fun s here => agree s (List.mem_cons_of_mem _ here)
  rw [code, len] at value
  simp only [capabilityReads, capability, code, len]
  generalize u8 m' capPtr = code at value
  generalize u8 m' (capPtr + 1) = len at value
  refine ⟨congrArg (Prod.mk len) ?_, trivial⟩
  split
  · -- MPBGP
    by_cases whole : len = 4
    · have four : SameBytes 4 m (capPtr + 2) m' (capPtr + 2) :=
        value ⟨capPtr + 2, 4⟩ (by simp [capValueReads, whole])
      have afi : u16 m (capPtr + 2) = u16 m' (capPtr + 2) := four.u16 0 (by omega)
      have safi : u8 m (capPtr + 5) = u8 m' (capPtr + 5) := four.u8 3 (by omega)
      simp only [whole, afi, safi]
    · simp only [whole, if_false]
  · rfl
  · rfl
  · rfl
  · -- four-octet ASN
    by_cases whole : len = 4
    · have four : SameBytes 4 m (capPtr + 2) m' (capPtr + 2) :=
        value ⟨capPtr + 2, 4⟩ (by simp [capValueReads, whole])
      have asn : u32 m (capPtr + 2) = u32 m' (capPtr + 2) := four.u32 0 (by omega)
      simp only [whole, asn]
    · simp only [whole, if_false]
  · rfl
  · -- ADD_PATH
    by_cases some_entry : 4 ≤ len
    · have entries : SameBytes (4 * ((len + 3) / 4)) m (capPtr + 2) m' (capPtr + 2) :=
        value ⟨capPtr + 2, _⟩ (by simp [capValueReads, some_entry])
      have loops : strideLoop 4 len
          (fun l st => addPathEntry stale sentOpen m (capPtr + 2 + l) st) 0 st =
          strideLoop 4 len (fun l st => addPathEntry stale sentOpen m' (capPtr + 2 + l) st) 0 st :=
        strideLoop_congr (fun l st more at_l =>
          addPathEntry_congr stale sentOpen (entries.within l 4 (by omega)) st) 0 st (dvd_zero 4)
      simp only [some_entry, if_true, loops]
    · simp only [some_entry, if_false]
  · rfl
  · rfl
  · rfl

theorem capLoop_readsOnly (paramLen c capPtr : Nat) (st : OpenState) :
    ReadsOnly (fun m => capLoop stale sentOpen m paramLen c capPtr st)
      (fun m => capLoopReads stale sentOpen m paramLen c capPtr st) := by
  induction rest : paramLen - c using Nat.strongRecOn generalizing c capPtr st with
  | ind n ih =>
    by_cases more : c < paramLen
    · refine ((capability_readsOnly stale sentOpen capPtr st).bind
        (g := fun r m => match r.2 with
          | (st, none) => (false, st)
          | (st, some next) =>
            capLoop stale sentOpen m paramLen (c + 2 + r.1) (next + 2 + r.1) st)
        (t := fun r m => match r.2 with
          | (_, none) => []
          | (st, some next) =>
            capLoopReads stale sentOpen m paramLen (c + 2 + r.1) (next + 2 + r.1) st)
        ?_).of_eq ?_ ?_
      · rintro ⟨len, st', _ | next⟩
        · exact ReadsOnly.pure (false, st')
        · exact ih (paramLen - (c + 2 + len)) (by omega) _ _ _ rfl
      · intro m
        rw [capLoop]
        exact if_pos more
      · intro m
        rw [capLoopReads, if_pos more]
    · refine (ReadsOnly.pure (true, st)).of_eq (fun m => ?_) (fun m => ?_)
      · rw [capLoop, if_neg more]
      · rw [capLoopReads, if_neg more]

theorem parseCapabilities_readsOnly (data size i : Nat) (st : OpenState) :
    ReadsOnly (fun m => parseCapabilities stale sentOpen m data size i st)
      (fun m => parseCapabilitiesReads stale sentOpen m data size i st) := by
  induction rest : size - i using Nat.strongRecOn generalizing i st with
  | ind n ih =>
    by_cases more : i < size
    · have header : ReadsOnly (fun m => (u8 m (data + i), u8 m (data + i + 1)))
          (fun _ => [⟨data + i, 2⟩]) := by
        refine ReadsOnly.read fun m m' same => ?_
        exact Prod.ext (same.u8 0 (by omega)) (same.u8 1 (by omega))
      refine (header.bind
        (g := fun h m =>
          if h.1 = bgpCapParamType ∧ 2 ≤ h.2 ∧ i + 2 + h.2 ≤ size then
            match capLoop stale sentOpen m h.2 0 (data + i + 2) st with
            | (false, st) => (0, st)
            | (true, st) => parseCapabilities stale sentOpen m data size (i + 2 + h.2) st
          else parseCapabilities stale sentOpen m data size (i + 2 + h.2) st)
        (t := fun h m =>
          if h.1 = bgpCapParamType ∧ 2 ≤ h.2 ∧ i + 2 + h.2 ≤ size then
            capLoopReads stale sentOpen m h.2 0 (data + i + 2) st ++
              match capLoop stale sentOpen m h.2 0 (data + i + 2) st with
              | (false, _) => []
              | (true, st) => parseCapabilitiesReads stale sentOpen m data size (i + 2 + h.2) st
          else parseCapabilitiesReads stale sentOpen m data size (i + 2 + h.2) st)
        ?_).of_eq ?_ ?_
      · rintro ⟨type, len⟩
        have next (st : OpenState) := ih (size - (i + 2 + len)) (by omega) (i + 2 + len) st rfl
        refine ReadsOnly.ite (fun _ => ?_) (fun _ => next st)
        refine (capLoop_readsOnly stale sentOpen len 0 (data + i + 2) st).bind
          (g := fun r m => match r with
            | (false, st) => (0, st)
            | (true, st) => parseCapabilities stale sentOpen m data size (i + 2 + len) st)
          (t := fun r m => match r with
            | (false, _) => []
            | (true, st) => parseCapabilitiesReads stale sentOpen m data size (i + 2 + len) st) ?_
        rintro ⟨_ | _, st'⟩
        · exact ReadsOnly.pure (0, st')
        · exact next st'
      · intro m
        rw [parseCapabilities]
        exact if_pos more
      · intro m
        rw [parseCapabilitiesReads, if_pos more]
    · refine (ReadsOnly.pure (i, st)).of_eq (fun m => ?_) (fun m => ?_)
      · rw [parseCapabilities, if_neg more]
      · rw [parseCapabilitiesReads, if_neg more]

/-- The result of `parseOpenMsg` by its fixed fields and what the capability loops return. -/
private def openResult (size asn holdTime paramLen : Nat) (bgpId : List UInt8)
    (addPath : AddPathMap) (caps : Nat × OpenState) : OpenResult :=
  if paramLen = 0 then ⟨openBgpHdrLen, holdTime, inetNtop4 bgpId, ⟨asn, [], addPath⟩⟩
  else if size - openBgpHdrLen < paramLen then ⟨size, holdTime, inetNtop4 bgpId, caps.2⟩
  else if caps.1 = 0 then ⟨0, holdTime, inetNtop4 bgpId, caps.2⟩
  else ⟨openBgpHdrLen + paramLen, holdTime, inetNtop4 bgpId, caps.2⟩

private theorem parseOpenMsg_eq (m : Mem) (addPath : AddPathMap) (data size : Nat)
    (long : ¬ size < openBgpHdrLen) :
    parseOpenMsg stale sentOpen m addPath data size =
      openResult size (u16 m (data + 1)) (u16 m (data + 3)) (u8 m (data + 9))
        (readBytes m (data + 5) 4) addPath
        (parseCapabilities stale sentOpen m (data + openBgpHdrLen)
          (walkedParams size (u8 m (data + 9))) 0 ⟨u16 m (data + 1), [], addPath⟩) := by
  by_cases none_given : u8 m (data + 9) = 0
  · simp only [parseOpenMsg, openResult, if_neg long, if_pos none_given]
  by_cases cut : size - openBgpHdrLen < u8 m (data + 9)
  · rw [show walkedParams size (u8 m (data + 9)) = size - openBgpHdrLen from
      Nat.min_eq_right cut.le]
    simp only [parseOpenMsg, openResult, if_neg long, if_neg none_given, if_pos cut]
  · rw [show walkedParams size (u8 m (data + 9)) = u8 m (data + 9) from
      Nat.min_eq_left (Nat.not_lt.mp cut)]
    simp only [parseOpenMsg, openResult, if_neg long, if_neg none_given, if_neg cut]

theorem parseOpenMsg_readsOnly (addPath : AddPathMap) (data size : Nat) :
    ReadsOnly (fun m => parseOpenMsg stale sentOpen m addPath data size)
      (fun m => openReads stale sentOpen m addPath data size) := by
  by_cases short : size < openBgpHdrLen
  · refine (ReadsOnly.pure ⟨0, 0, [], ⟨0, [], addPath⟩⟩).of_eq (fun m => ?_) (fun m => ?_)
    · rw [parseOpenMsg, if_pos short]
    · rw [openReads, if_pos short]
  · have header : ReadsOnly (fun m => (u16 m (data + 1), u16 m (data + 3), u8 m (data + 9),
        readBytes m (data + 5) 4)) (fun _ => [⟨data, openBgpHdrLen⟩]) := by
      refine ReadsOnly.read fun m m' same => ?_
      have id : SameBytes 4 m (data + 5) m' (data + 5) := same.within 5 4 (by decide)
      exact Prod.ext (same.u16 1 (by decide)) (Prod.ext (same.u16 3 (by decide))
        (Prod.ext (same.u8 9 (by decide)) id))
    refine (header.bind
      (g := fun h m => openResult size h.1 h.2.1 h.2.2.1 h.2.2.2 addPath
        (parseCapabilities stale sentOpen m (data + openBgpHdrLen) (walkedParams size h.2.2.1) 0
          ⟨h.1, [], addPath⟩))
      (t := fun h m => parseCapabilitiesReads stale sentOpen m (data + openBgpHdrLen)
        (walkedParams size h.2.2.1) 0 ⟨h.1, [], addPath⟩) ?_).of_eq ?_ ?_
    · intro h
      exact (parseCapabilities_readsOnly stale sentOpen _ _ 0 _).map _
    · intro m
      exact parseOpenMsg_eq stale sentOpen m addPath data size short
    · intro m
      rw [openReads, if_neg short]

end

end SonicBmp.Bgp.OpenReads
