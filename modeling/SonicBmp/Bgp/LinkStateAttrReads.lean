/- module: SonicBmp/Bgp/LinkStateAttrReads
   digest: What the BGP-LS attribute decoder reads of each TLV. -/

import SonicBmp.Bgp.LinkStateAttr
import SonicBmp.Library.Footprint

set_option autoImplicit false
set_option relaxedAutoImplicit false

namespace SonicBmp.Bgp.LinkStateAttrReads

open SonicBmp.Library.Memory
open SonicBmp.Library.Loop
open SonicBmp.Library.Printing
open SonicBmp.Library.CStrings
open SonicBmp.Library.Footprint
open SonicBmp.Bus.InfoText (strncpyBytes)
open SonicBmp.Bgp.LinkState (LsData)
open SonicBmp.Bgp.LinkStateAttr

/-! Spans. -/

/-- The octets `strncpy` looks at: up to the first NUL and no more than its bound. -/
def strnRead (m : Mem) (p : Nat) : Nat → Nat
  | 0 => 0
  | n + 1 => if m p = 0 then 1 else strnRead m (p + 1) n + 1

/-- Every turn reads a range and the header of a sub-TLV, and a SID if it goes on. -/
def srSpans (m : Mem) (len l p : Nat) : List Span :=
  if l < len then
    ⟨p, 7⟩ :: if u16 m (p + 3) = 1161 then
        if u16 m (p + 5) = 3 then ⟨p + 7, 3⟩ :: srSpans m len (l + 10) (p + 7)
        else if u16 m (p + 5) = 4 then ⟨p + 7, 4⟩ :: srSpans m len (l + 11) (p + 7)
        else []
      else []
  else []
termination_by len - l

/-- The flags are read if the name of the protocol is not before "IS-IS". -/
def flagSpans (protocol : Text) (data : Nat) : List Span :=
  if strcmpGe protocol "IS-IS".toList then [⟨data, 1⟩] else []

def sidSpans (data len : Nat) : List Span :=
  if len = 3 then [⟨data, 3⟩]
  else if 16 ≤ len then [⟨data, 16⟩]
  else if len = 4 then [⟨data, 4⟩]
  else []

/-- A value that is read if it has the right length. -/
def exactSpans (size len data : Nat) : List Span := if len = size then [⟨data, size⟩] else []

/-- A value that is read if it is not too long. -/
def upToSpans (size len data : Nat) : List Span := if len ≤ size then [⟨data, len⟩] else []

/-- What the cases of `parseAttrLinkStateTLV` read of a value. -/
def valueSpans (stale : Text) (ls : LsData) (m : Mem) (type len data : Nat) : List Span :=
  match type with
  | 263 => [⟨data, 2 * ((len + 1) / 2)⟩]
  | 1024 => [⟨data, 1⟩]
  | 1026 => [⟨data, strnRead m data len⟩]
  | 1027 => upToSpans 8 len data
  | 1028 => exactSpans 4 len data
  | 1029 => exactSpans 16 len data
  | 1030 => exactSpans 4 len data
  | 1031 => exactSpans 16 len data
  | 1034 => flagSpans (front stale (ls.nodes.map (·.protocol))) data ++ srSpans m len 2 (data + 2)
  | 1088 => exactSpans 4 len data
  | 1089 => exactSpans 4 len data
  | 1090 => exactSpans 4 len data
  | 1091 => exactSpans 32 len data
  | 1092 => upToSpans 4 len data
  | 1095 => upToSpans 4 len data
  | 1098 => [⟨data, strnRead m data len⟩]
  | 1099 => flagSpans (front stale (ls.links.map (·.protocol))) data ++
      (⟨data + 1, 1⟩ :: sidSpans (data + 4) (len - 4))
  | 1101 => ⟨data, 2⟩ :: sidSpans (data + 4) (len - 4)
  | 1153 => exactSpans 4 len data
  | 1155 => upToSpans 4 len data
  | 1158 => flagSpans (front stale (ls.prefixes.map (·.protocol))) data ++
      (⟨data + 1, 1⟩ :: sidSpans (data + 4) (len - 4))
  | _ => []

def tlvSpans (stale : Text) (ls : LsData) (m : Mem) (attrLen data : Nat) : List Span :=
  if attrLen < 4 then []
  else ⟨data, 4⟩ :: valueSpans stale ls m (u16 m data) (u16 m (data + 2)) (data + 4)

/-! The decoder looks at nothing else. -/

section Reads

variable {m m' : Mem} {data : Nat}

theorem strnRead_congr (n : Nat) : ∀ p, SameBytes (strnRead m p n) m p m' p →
    strnRead m p n = strnRead m' p n ∧
      (readBytes m p n).takeWhile (· ≠ 0) = (readBytes m' p n).takeWhile (· ≠ 0) := by
  induction n with
  | zero =>
    intro p _
    exact ⟨rfl, rfl⟩
  | succ n ih =>
    intro p same
    have first : m p = m' p := same.at 0 (by unfold strnRead; split <;> omega)
    by_cases nul : m p = 0
    · have nul' : m' p = 0 := first ▸ nul
      simp [strnRead, readBytes, nul, nul']
    · have other : m' p ≠ 0 := fun nul' => nul (first.trans nul')
      rw [strnRead, if_neg nul] at same
      have rest := ih (p + 1) (same.within 1 _ (by omega))
      rw [strnRead, if_neg nul, strnRead, if_neg other, rest.1, readBytes, readBytes,
        List.takeWhile_cons_of_pos (by simpa using nul),
        List.takeWhile_cons_of_pos (by simpa using other), rest.2, first]
      exact ⟨rfl, rfl⟩

theorem nameOps_congr {len : Nat} (same : SameBytes (strnRead m data len) m data m' data) :
    nameOps m len data = nameOps m' len data := by
  have text := (strnRead_congr len data same).2
  have taken (m : Mem) : (readBytes m data len).take len = readBytes m data len :=
    List.take_of_length_le (length_readBytes m data len).le
  simp only [nameOps, strncpyBytes, taken, text]

theorem listText_congr {stride len : Nat} {item item' : Nat → Text}
    (same : ∀ i, i < len → stride ∣ i → item (data + i) = item' (data + i)) :
    listText stride item len data = listText stride item' len data :=
  strideLoop_congr (fun i text more at_i => by rw [same i more at_i]) 0 [] (dvd_zero stride)

theorem mtIdText_congr {len : Nat} (same : SameBytes (2 * ((len + 1) / 2)) m data m' data) :
    mtIdText m len data = mtIdText m' len data := by
  refine listText_congr fun i more even => ?_
  rw [same.u16 i (by omega)]

theorem unresvBwText_congr (same : SameBytes 32 m data m' data) :
    unresvBwText m data = unresvBwText m' data := by
  refine listText_congr fun i more even => ?_
  rw [same.u32 i (by omega)]

theorem protocolFlags_congr {protocol : Text} (isis ospf : Nat → Text)
    (agree : Agree (flagSpans protocol data) m m') :
    protocolFlags protocol (isis (u8 m data)) (ospf (u8 m data)) =
      protocolFlags protocol (isis (u8 m' data)) (ospf (u8 m' data)) := by
  rw [protocolFlags_eq, protocolFlags_eq]
  split
  · rename_i after
    rw [flagSpans, if_pos after] at agree
    have flags : u8 m data = u8 m' data := (agree ⟨data, 1⟩ List.mem_cons_self).u8 0 Nat.one_pos
    rw [flags]
  · rfl

theorem parseSidValue_congr {len : Nat} (agree : Agree (sidSpans data len) m m') :
    parseSidValue m data len = parseSidValue m' data len := by
  unfold parseSidValue
  unfold sidSpans at agree
  split
  · rename_i three
    rw [if_pos three] at agree
    rw [show u24 m data = u24 m' data from (agree _ List.mem_cons_self).u24 0 le_rfl]
  · rename_i three
    rw [if_neg three] at agree
    split
    · rename_i sixteen
      rw [if_pos sixteen] at agree
      rw [show readBytes m data 16 = readBytes m' data 16 from agree ⟨data, 16⟩ List.mem_cons_self]
    · rename_i sixteen
      rw [if_neg sixteen] at agree
      split
      · rename_i four
        rw [if_pos four] at agree
        rw [show u32 m data = u32 m' data from (agree _ List.mem_cons_self).u32 0 le_rfl]
      · rfl

theorem srEntries_congr {len l p : Nat} (agree : Agree (srSpans m len l p) m m') :
    srEntries m len l p = srEntries m' len l p ∧ srSpans m len l p = srSpans m' len l p := by
  fun_induction srSpans m len l p with
  | case1 l p more shorter longer =>
    have header : SameBytes 7 m p m' p := agree _ List.mem_cons_self
    have range : u24 m p = u24 m' p := header.u24 0 (by decide)
    have type : u16 m (p + 3) = u16 m' (p + 3) := header.u16 3 (by decide)
    have size : u16 m (p + 5) = u16 m' (p + 5) := header.u16 5 (by decide)
    have later (span : Span) := agree span ∘ List.mem_cons_of_mem _
    rw [srEntries.eq_def m, srEntries.eq_def m', srSpans.eq_def m', if_pos more, if_pos more,
      if_pos more, ← range, ← type, ← size]
    by_cases known : u16 m (p + 3) = 1161
    · simp only [if_pos known] at later ⊢
      by_cases three : u16 m (p + 5) = 3
      · simp only [if_pos three] at later ⊢
        have sid : u24 m (p + 7) = u24 m' (p + 7) := (later _ List.mem_cons_self).u24 0 le_rfl
        obtain ⟨text, spans⟩ := shorter fun span here => later span (List.mem_cons_of_mem _ here)
        rw [sid, text, spans]
        exact ⟨rfl, rfl⟩
      · simp only [if_neg three] at later ⊢
        by_cases four : u16 m (p + 5) = 4
        · simp only [if_pos four] at later ⊢
          have sid : u32 m (p + 7) = u32 m' (p + 7) := (later _ List.mem_cons_self).u32 0 le_rfl
          obtain ⟨text, spans⟩ := longer fun span here => later span (List.mem_cons_of_mem _ here)
          rw [sid, text, spans]
          exact ⟨rfl, rfl⟩
        · simp only [if_neg four, and_self]
    · simp only [if_neg known, and_self]
  | case2 l p done =>
    rw [srEntries.eq_def m, srEntries.eq_def m', srSpans.eq_def m', if_neg done, if_neg done, if_neg done]
    exact ⟨rfl, rfl⟩

theorem adjacencySidText_congr {protocol : Text} {len : Nat}
    (agree : Agree (flagSpans protocol data ++ (⟨data + 1, 1⟩ :: sidSpans (data + 4) (len - 4))) m m') :
    adjacencySidText protocol m len data = adjacencySidText protocol m' len data ∧
      prefixSidText protocol m len data = prefixSidText protocol m' len data := by
  have flags : Agree (flagSpans protocol data) m m' :=
    fun span here => agree span (List.mem_append_left _ here)
  have rest (span : Span) := agree span ∘ List.mem_append_right _
  have param : u8 m (data + 1) = u8 m' (data + 1) := (rest _ List.mem_cons_self).u8 0 Nat.one_pos
  have sid := parseSidValue_congr fun span here => rest span (List.mem_cons_of_mem _ here)
  rw [adjacencySidText, adjacencySidText, prefixSidText, prefixSidText, param, sid,
    protocolFlags_congr (parseFlagsToString · lsFlagsPeerAdjSidIsis)
      (parseFlagsToString · lsFlagsPeerAdjSidOspf) flags,
    protocolFlags_congr (parseFlagsToString · lsFlagsPrefixSidIsis)
      (parseFlagsToString · lsFlagsPrefixSidOspf) flags]
  exact ⟨rfl, rfl⟩

theorem srCapabilitiesText_congr {protocol : Text} {len : Nat}
    (agree : Agree (flagSpans protocol data ++ srSpans m len 2 (data + 2)) m m') :
    srCapabilitiesText protocol m len data = srCapabilitiesText protocol m' len data ∧
      srSpans m len 2 (data + 2) = srSpans m' len 2 (data + 2) := by
  have flags : Agree (flagSpans protocol data) m m' :=
    fun span here => agree span (List.mem_append_left _ here)
  obtain ⟨text, spans⟩ := srEntries_congr fun span here => agree span (List.mem_append_right _ here)
  rw [srCapabilitiesText, srCapabilitiesText, text,
    protocolFlags_congr (parseFlagsToString · lsFlagsSrCapIsis) decimal flags]
  exact ⟨rfl, spans⟩

theorem epeNodeSidText_congr {len : Nat}
    (agree : Agree (⟨data, 2⟩ :: sidSpans (data + 4) (len - 4)) m m') :
    epeNodeSidText m len data = epeNodeSidText m' len data := by
  have two : SameBytes 2 m data m' data := agree _ List.mem_cons_self
  have flags : u8 m data = u8 m' data := two.u8 0 (by decide)
  have weight : u8 m (data + 1) = u8 m' (data + 1) := two.u8 1 (by decide)
  have sid := parseSidValue_congr fun span here => agree span (List.mem_cons_of_mem _ here)
  rw [epeNodeSidText, epeNodeSidText, flags, weight, sid]

theorem exactSpans_same {size len : Nat} (agree : Agree (exactSpans size len data) m m')
    (right : len = size) : SameBytes size m data m' data := by
  rw [exactSpans, if_pos right] at agree
  exact agree _ List.mem_cons_self

theorem upToSpans_same {size len : Nat} (agree : Agree (upToSpans size len data) m m')
    (short : len ≤ size) : SameBytes len m data m' data := by
  rw [upToSpans, if_pos short] at agree
  exact agree _ List.mem_cons_self

theorem hostBytes_congr {len : Nat} (same : SameBytes len m data m' data) :
    hostBytes m data len = hostBytes m' data len := congrArg List.reverse same

theorem copyOps_congr {size len : Nat} (agree : Agree (exactSpans size len data) m m') :
    copyOps size m len data = copyOps size m' len data :=
  ite_congr rfl (fun right => by
    rw [show readBytes m data size = readBytes m' data size from exactSpans_same agree right])
    fun _ => rfl

theorem wordOps_congr {len : Nat} (agree : Agree (exactSpans 4 len data) m m') :
    wordOps m len data = wordOps m' len data :=
  ite_congr rfl (fun right => by rw [hostBytes_congr (exactSpans_same agree right)]) fun _ => rfl

theorem bandwidthOps_congr {len : Nat} (agree : Agree (exactSpans 4 len data) m m') :
    bandwidthOps m len data = bandwidthOps m' len data :=
  ite_congr rfl (fun right => by
    rw [show u32 m data = u32 m' data from (exactSpans_same agree right).u32 0 le_rfl]) fun _ => rfl

theorem metricBytes_congr {len : Nat} (same : SameBytes len m data m' data) :
    metricBytes m data len = metricBytes m' data len :=
  congrArg (· ++ List.replicate (4 - len) 0) (hostBytes_congr same)

end Reads

theorem tlvOps_reads (stale : Text) (ls : LsData) (type len data : Nat) (slot : Slot) :
    ReadsOnly (fun m => tlvOps stale ls m type len data slot)
      (fun m => valueSpans stale ls m type len data) := by
  intro m m' agree
  dsimp only at agree ⊢
  unfold tlvOps
  split <;> simp only [valueSpans] at agree ⊢
  · rw [mtIdText_congr (agree _ List.mem_cons_self)]
    exact ⟨rfl, trivial⟩
  · rw [show u8 m data = u8 m' data from (agree _ List.mem_cons_self).u8 0 Nat.one_pos]
    exact ⟨rfl, trivial⟩
  · have same := agree _ List.mem_cons_self
    rw [(strnRead_congr len data same).1]
    exact ⟨nameOps_congr same, rfl⟩
  · refine ⟨congrArg (fun ops => some (ops ++ _)) (ite_congr rfl (fun short => ?_) fun _ => rfl), trivial⟩
    rw [show readBytes m data len = readBytes m' data len from upToSpans_same agree short]
  · exact ⟨copyOps_congr agree, trivial⟩
  · exact ⟨copyOps_congr agree, trivial⟩
  · exact ⟨copyOps_congr agree, trivial⟩
  · exact ⟨copyOps_congr agree, trivial⟩
  · obtain ⟨text, spans⟩ := srCapabilitiesText_congr agree
    rw [text, spans]
    exact ⟨rfl, rfl⟩
  · exact ⟨wordOps_congr agree, trivial⟩
  · exact ⟨bandwidthOps_congr agree, trivial⟩
  · exact ⟨bandwidthOps_congr agree, trivial⟩
  · refine ⟨ite_congr rfl (fun right => ?_) fun _ => rfl, trivial⟩
    rw [unresvBwText_congr (exactSpans_same agree right)]
  · refine ⟨ite_congr rfl (fun short => ?_) fun _ => rfl, trivial⟩
    rw [hostBytes_congr (upToSpans_same agree short)]
  · refine ⟨ite_congr rfl (fun short => ?_) fun _ => rfl, trivial⟩
    rw [metricBytes_congr (upToSpans_same agree short)]
  · have same := agree _ List.mem_cons_self
    rw [(strnRead_congr len data same).1]
    exact ⟨nameOps_congr same, rfl⟩
  · exact ⟨congrArg (appendOps slot) (adjacencySidText_congr agree).1, trivial⟩
  · rw [epeNodeSidText_congr agree]
    exact ⟨rfl, trivial⟩
  · exact ⟨wordOps_congr agree, trivial⟩
  · refine ⟨congrArg (fun bytes => some [SlotOp.put 0 bytes]) (ite_congr rfl (fun short => ?_) fun _ => rfl),
      trivial⟩
    exact metricBytes_congr (upToSpans_same agree short)
  · exact ⟨congrArg (appendOps slot) (adjacencySidText_congr agree).2, trivial⟩
  · exact ⟨trivial, trivial⟩

/-- The decoder of a TLV looks at its header and these octets of its value. -/
theorem parseAttrLinkStateTLV_reads (stale : Text) (ls : LsData) (attrLen data : Nat)
    (attrs : LsAttrs) :
    ReadsOnly (fun m => parseAttrLinkStateTLV stale ls m attrLen data attrs)
      (fun m => tlvSpans stale ls m attrLen data) := by
  intro m m' agree
  simp only [parseAttrLinkStateTLV, tlvSpans] at agree ⊢
  by_cases short : attrLen < 4
  · simp only [if_pos short, and_self]
  · simp only [if_neg short] at agree ⊢
    have head : SameBytes 4 m data m' data := agree _ List.mem_cons_self
    have type : u16 m data = u16 m' data := head.u16 0 (by decide)
    have len : u16 m (data + 2) = u16 m' (data + 2) := head.u16 2 (by decide)
    obtain ⟨ops, spans⟩ := tlvOps_reads stale ls (u16 m data) (u16 m (data + 2)) (data + 4)
      (slotOf attrs (u16 m data)) m m' fun span here => agree span (List.mem_cons_of_mem _ here)
    dsimp only at ops spans
    rw [← type, ← len, ops, spans]
    exact ⟨rfl, rfl⟩

end SonicBmp.Bgp.LinkStateAttrReads
