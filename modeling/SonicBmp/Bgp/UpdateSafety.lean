/- module: SonicBmp/Bgp/UpdateSafety
   digest: What arbitrary bytes can make the UPDATE handler publish or change. -/

import SonicBmp.Bgp.Update

set_option autoImplicit false
set_option relaxedAutoImplicit false

namespace SonicBmp.Bgp.UpdateSafety

open SonicBmp.Library.Memory
open SonicBmp.Bgp.Common
open SonicBmp.Bgp.Attributes
open SonicBmp.Bgp.Update

variable {D : Decoders} {B : Type} (updateDB : ParsedUpdateData D → List B)

private theorem subSize_eq_zero {a b : Nat} (ha : a < 2 ^ 64) (hb : b < 2 ^ 64)
    (h : subSize a b = 0) : a = b := by
  unfold subSize at h
  omega

/-- The parser returns its whole size argument, or zero before it has touched anything. -/
theorem parseUpdateMsg_cases (info : PeerInfo) (m : Mem) (data size : Nat) (hsize : size < 2 ^ 64) :
    (parseUpdateMsg D info m data size).1 = size ∨
      parseUpdateMsg D info m data size = (0, ⟨info, ParsedUpdateData.empty D⟩) := by
  have wlen := u16_lt m data
  have alen := u16_lt m (data + 2 + u16 m data)
  have whole (h : subSize size (4 + u16 m data + u16 m (data + 2 + u16 m data)) = 0) :
      4 + u16 m data + u16 m (data + 2 + u16 m data) = size :=
    (subSize_eq_zero hsize (by omega) h).symm
  simp only [parseUpdateMsg]
  split_ifs with short withdrawnShort attrShort marker
  · exact Or.inr rfl
  · exact Or.inr rfl
  · exact Or.inr rfl
  · exact Or.inl (whole marker.2.1)
  -- the two remaining exits differ in whether NLRI bytes are left
  all_goals first
    | exact Or.inl rfl
    | exact Or.inl (whole (by omega))

theorem withdrawnSection_info (m : Mem) (data len : Nat) (st : UpdateState D) :
    (withdrawnSection m data len st).info = st.info := by
  unfold withdrawnSection
  split <;> rfl

theorem nlriSection_info (m : Mem) (data len : Nat) (st : UpdateState D) :
    (nlriSection m data len st).info = st.info := rfl

theorem withdrawnAndAttributes_latches (m : Mem) (data withdrawnLen attrLen : Nat)
    (st : UpdateState D) :
    Latches st.info (withdrawnAndAttributes D m data withdrawnLen attrLen st).info := by
  simp only [withdrawnAndAttributes]
  rw [← withdrawnSection_info m (data + 2) withdrawnLen st]
  split
  · exact parseAttributes_latches m _ attrLen _
  · exact Latches.refl _

theorem parseUpdateMsg_latches (info : PeerInfo) (m : Mem) (data size : Nat) :
    Latches info (parseUpdateMsg D info m data size).2.info := by
  have walk := withdrawnAndAttributes_latches (D := D) m data (u16 m data)
    (u16 m (data + 2 + u16 m data)) ⟨info, ParsedUpdateData.empty D⟩
  simp only [parseUpdateMsg]
  split_ifs
  · exact Latches.refl info
  · exact Latches.refl info
  · exact Latches.refl info
  · exact Latches.endOfRIB_set info
  · rw [nlriSection_info]
    exact walk
  · exact walk

/-- The two ways out of the handler for a message of type UPDATE, by whether the size
that was read, pushed through an `int`, is that of the buffer without its header. -/
theorem handleUpdate_cases (info : PeerInfo) (m : Mem) (data size : Nat) :
    let remaining := (parseBgpHeader m data size).2
    let parsed := parseUpdateMsg D info m (data + bgpMsgHdrLen) remaining
    let out := handleUpdate D updateDB info m data size
    (parseBgpHeader m data size).1 ≠ bgpMsgUpdate ∧ out = ⟨false, none, [], info⟩ ∨
    (parseBgpHeader m data size).1 = bgpMsgUpdate ∧
      throughInt parsed.1 ≠ subSize size bgpMsgHdrLen ∧ out = ⟨true, none, [], parsed.2.info⟩ ∨
    (parseBgpHeader m data size).1 = bgpMsgUpdate ∧
      throughInt parsed.1 = subSize size bgpMsgHdrLen ∧
      out = ⟨false, some parsed.2.data, updateDB parsed.2.data, parsed.2.info⟩ := by
  by_cases type : (parseBgpHeader m data size).1 = bgpMsgUpdate
  · by_cases whole : throughInt (parseUpdateMsg D info m (data + bgpMsgHdrLen)
        (parseBgpHeader m data size).2).1 = subSize size bgpMsgHdrLen
    · exact Or.inr (Or.inr ⟨type, whole, by simp only [handleUpdate, if_pos type, whole, ne_eq,
        not_true_eq_false, if_false]⟩)
    · exact Or.inr (Or.inl ⟨type, whole, by simp only [handleUpdate, if_pos type, ne_eq, whole,
        not_false_eq_true, if_true]⟩)
  · exact Or.inl ⟨type, by simp only [handleUpdate, if_neg type]⟩

/-- A message of type UPDATE has a whole header, and the size left is the length field
less the header, modulo the width of `unsigned int`. -/
theorem parseBgpHeader_update {m : Mem} {data size : Nat}
    (type : (parseBgpHeader m data size).1 = bgpMsgUpdate) :
    19 ≤ size ∧ u8 m (data + 18) = bgpMsgUpdate ∧
      (parseBgpHeader m data size).2 = (u16 m (data + 16) + 2 ^ 32 - 19) % 2 ^ 32 := by
  unfold parseBgpHeader at type ⊢
  have hdr : bgpMsgHdrLen = 19 := rfl
  split at type
  · exact absurd type (by decide)
  · rename_i long
    rw [if_neg long]
    exact ⟨by omega, type, rfl⟩

/-- The conversions keep exactly one size apart: only a length field that equals the
buffer size survives them. -/
private theorem throughInt_remaining {len size : Nat} (hlen : len < 65536) (hsize : size < 2 ^ 31)
    (long : 19 ≤ size)
    (h : throughInt ((len + 2 ^ 32 - 19) % 2 ^ 32) = subSize size bgpMsgHdrLen) : len = size := by
  have hdr : bgpMsgHdrLen = 19 := rfl
  rw [hdr, subSize_of_le long (by omega)] at h
  unfold throughInt at h
  split at h <;> omega

/-- Routes reach `UpdateDB` only from a message of type UPDATE whose length field is
the buffer size, whatever lies behind the buffer. -/
theorem handleUpdate_publishes_whole_message (info : PeerInfo) (m : Mem) (data size : Nat)
    (hsize : size < 2 ^ 31) (parsed : ParsedUpdateData D)
    (passed : (handleUpdate D updateDB info m data size).passed = some parsed)
    (some_route : parsed.advertised ≠ [] ∨ parsed.withdrawn ≠ []) :
    u8 m (data + 18) = bgpMsgUpdate ∧ u16 m (data + 16) = size := by
  have cases := handleUpdate_cases updateDB info m data size
  simp only at cases
  rcases cases with ⟨-, out⟩ | ⟨-, -, out⟩ | ⟨type, whole, out⟩
  · rw [out] at passed
    exact absurd passed (by simp)
  · rw [out] at passed
    exact absurd passed (by simp)
  · obtain ⟨long, isUpdate, remaining⟩ := parseBgpHeader_update type
    refine ⟨isUpdate, ?_⟩
    rw [out] at passed
    have data_eq := Option.some.inj passed
    rcases parseUpdateMsg_cases (D := D) info m (data + bgpMsgHdrLen) (parseBgpHeader m data size).2
      (by rw [remaining]; omega) with all | nothing
    · rw [all, remaining] at whole
      exact throughInt_remaining (u16_lt m _) hsize long whole
    · rw [nothing] at data_eq
      subst data_eq
      exact absurd some_route (by simp [ParsedUpdateData.empty])

private def defaultUpdate : UpdateMessage PeerInfo.fresh.addPathUnicast :=
  ⟨[], [], [⟨0, [], 0, by decide, rfl⟩], by decide⟩

theorem defaultUpdate_whole_message :
    u8 (memOf defaultUpdate.bytes) (0 + 18) = bgpMsgUpdate ∧
      u16 (memOf defaultUpdate.bytes) (0 + 16) = defaultUpdate.bytes.length := by
  obtain ⟨parsed, info', out, -, adv, -⟩ := handleUpdate_message (D := Decoders.silent)
    (fun data => data.advertised) PeerInfo.fresh rfl defaultUpdate (holds_memOf _)
  exact handleUpdate_publishes_whole_message (D := Decoders.silent) (fun data => data.advertised)
    PeerInfo.fresh _ 0 _ (by decide) parsed (by rw [out])
    (Or.inl (by rw [adv]; simp [UpdateMessage.advertises, defaultUpdate]))

/-- On error nothing is published and of the peer only the latches may have moved; they
too are as before when the length field is the buffer size. -/
theorem handleUpdate_error_effects (info : PeerInfo) (m : Mem) (data size : Nat)
    (error : (handleUpdate D updateDB info m data size).error = true) :
    (handleUpdate D updateDB info m data size).calls = [] ∧
      Latches info (handleUpdate D updateDB info m data size).info ∧
      (u16 m (data + 16) = size → (handleUpdate D updateDB info m data size).info = info) := by
  have cases := handleUpdate_cases updateDB info m data size
  simp only at cases
  rcases cases with ⟨-, out⟩ | ⟨type, differs, out⟩ | ⟨-, -, out⟩
  · rw [out] at error
    exact absurd error (by simp)
  · obtain ⟨long, -, remaining⟩ := parseBgpHeader_update type
    rw [out]
    refine ⟨rfl, parseUpdateMsg_latches info m _ _, fun whole => ?_⟩
    have len := u16_lt m (data + 16)
    have left : (parseBgpHeader m data size).2 = size - 19 := by
      rw [remaining, whole]
      omega
    rw [left] at differs ⊢
    rcases parseUpdateMsg_cases (D := D) info m (data + bgpMsgHdrLen) (size - 19) (by omega)
      with all | nothing
    · have hdr : bgpMsgHdrLen = 19 := rfl
      rw [all, throughInt_of_lt (by omega), hdr, subSize_of_le long (by omega)] at differs
      exact absurd rfl differs
    · rw [nothing]
  · rw [out] at error
    exact absurd error (by simp)

/-- An End-of-RIB body in a buffer one byte longer than its length field says. -/
private def longMarker : List UInt8 := bgpMarker ++ ([0, 23, 2, 0, 0, 0, 0] ++ [0])

theorem longMarker_error_and_endOfRIB :
    (handleUpdate Decoders.silent (fun data => data.advertised) PeerInfo.fresh
        (memOf longMarker) 0 24).error = true ∧
      (handleUpdate Decoders.silent (fun data => data.advertised) PeerInfo.fresh
        (memOf longMarker) 0 24).info.endOfRIB = true ∧ PeerInfo.fresh.endOfRIB = false := by
  decide

theorem truncated_error_keeps_peer :
    (handleUpdate Decoders.silent (fun data => data.advertised) PeerInfo.fresh
      (memOf (bgpMarker ++ [0, 20, 2, 0])) 0 20).info = PeerInfo.fresh :=
  (handleUpdate_error_effects (D := Decoders.silent) (fun data => data.advertised) PeerInfo.fresh
    (memOf (bgpMarker ++ [0, 20, 2, 0])) 0 20 (by decide)).2.2 (by decide)

end SonicBmp.Bgp.UpdateSafety
