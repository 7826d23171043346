/- module: SonicBmp/Bgp/LinkStateAttrBounds
   digest: Which BGP-LS attributes are decoded without a read or a write out of bounds. -/

import SonicBmp.Bgp.AddressText
import SonicBmp.Bgp.LinkStateAttrReads
import SonicBmp.Library.Turns
import Mathlib.Algebra.Order.BigOperators.Group.List

set_option autoImplicit false
set_option relaxedAutoImplicit false

namespace SonicBmp.Bgp.LinkStateAttrBounds

open SonicBmp.Library.Memory
open SonicBmp.Library.Loop
open SonicBmp.Library.Printing
open SonicBmp.Library.CStrings
open SonicBmp.Library.Footprint
open SonicBmp.Library.Turns
open SonicBmp.Bus.InfoText (length_strncpyBytes)
open SonicBmp.Bus.Kafka (textBytes length_textBytes)
open SonicBmp.Bgp.AddressText (inetNtop6_length_le)
open SonicBmp.Bgp.LinkState (LsData)
open SonicBmp.Bgp.LinkStateAttr
open SonicBmp.Bgp.LinkStateAttrReads

/-! What a TLV needs. -/

/-- The octets behind the flags that are needed for the ranges: seven for each turn, and the
SID of the last one. -/
def srNeed (m : Mem) (len l p : Nat) : Nat :=
  if l < len then
    7 + if u16 m (p + 3) = 1161 then
        if u16 m (p + 5) = 3 then max 3 (srNeed m len (l + 10) (p + 7))
        else if u16 m (p + 5) = 4 then max 4 (srNeed m len (l + 11) (p + 7))
        else 0
      else 0
  else 0
termination_by len - l

/-- The weight or algorithm, and a SID of three, four or sixteen octets. -/
def sidNeed (len : Nat) : Nat :=
  if len = 7 then 7 else if 20 ≤ len then 20 else if len = 8 then 8 else 2

/-- How many octets of its value a TLV is decoded from. -/
def valueNeed (stale : Text) (ls : LsData) (m : Mem) (type len data : Nat) : Nat :=
  match type with
  | 263 => 2 * ((len + 1) / 2)
  | 1024 => 1
  | 1026 => strnRead m data len
  | 1027 => if len ≤ 8 then len else 0
  | 1028 => if len = 4 then 4 else 0
  | 1029 => if len = 16 then 16 else 0
  | 1030 => if len = 4 then 4 else 0
  | 1031 => if len = 16 then 16 else 0
  | 1034 =>
    if 2 < len then 2 + srNeed m len 2 (data + 2)
    else if strcmpGe (front stale (ls.nodes.map (·.protocol))) "IS-IS".toList then 1
    else 0
  | 1088 => if len = 4 then 4 else 0
  | 1089 => if len = 4 then 4 else 0
  | 1090 => if len = 4 then 4 else 0
  | 1091 => if len = 32 then 32 else 0
  | 1092 => if len ≤ 4 then len else 0
  | 1095 => if len ≤ 4 then len else 0
  | 1098 => strnRead m data len
  | 1099 => sidNeed len
  | 1101 => sidNeed len
  | 1153 => if len = 4 then 4 else 0
  | 1155 => if len ≤ 4 then len else 0
  | 1158 => sidNeed len
  | _ => 0

/-- The length of a list once another item is behind it. -/
def withItem (used : Nat) (item : Text) : Nat := used + ((if 0 < used then 2 else 0) + item.length)

/-- The texts that have to fit: topology identifiers with their NUL, names, SR capabilities,
and the lists of SIDs with their NUL, where `used` octets of the slot are in use. The other
values always fit. -/
def RoomFor (stale : Text) (ls : LsData) (m : Mem) (type len data used : Nat) : Prop :=
  match type with
  | 263 => (mtIdText m len data).length ≤ 254
  | 1026 => len ≤ 255
  | 1034 => (srCapabilitiesText (front stale (ls.nodes.map (·.protocol))) m len data).length ≤ 255
  | 1098 => len ≤ 255
  | 1099 => withItem used
      (adjacencySidText (front stale (ls.links.map (·.protocol))) m len data) ≤ 254
  | 1158 => withItem used
      (prefixSidText (front stale (ls.prefixes.map (·.protocol))) m len data) ≤ 254
  | _ => True

section Value

variable {stale : Text} {ls : LsData} {m : Mem} {lo hi : Nat}

theorem srNeed_done {len l : Nat} (p : Nat) (done : ¬ l < len) : srNeed m len l p = 0 := by
  rw [srNeed, if_neg done]

theorem inside_srSpans {len l p : Nat} (after : lo ≤ p) :
    Inside lo hi (srSpans m len l p) ↔ (l < len → p + srNeed m len l p ≤ hi) := by
  fun_induction srSpans m len l p with
  | case1 l p more shorter longer =>
    have shorter := shorter (by omega)
    have longer := longer (by omega)
    have last (k : Nat) : ¬ l + k < len → srNeed m len (l + k) (p + 7) = 0 := srNeed_done (p + 7)
    rw [srNeed, if_pos more, inside_cons]
    by_cases known : u16 m (p + 3) = 1161
    · rw [if_pos known, if_pos known]
      by_cases three : u16 m (p + 5) = 3
      · rw [if_pos three, if_pos three, inside_cons, shorter]
        have last := last 10
        simp only [Span.stop]
        omega
      · rw [if_neg three, if_neg three]
        by_cases four : u16 m (p + 5) = 4
        · rw [if_pos four, if_pos four, inside_cons, longer]
          have last := last 11
          simp only [Span.stop]
          omega
        · simp [if_neg four, Span.stop, after, more]
    · simp [if_neg known, Span.stop, after, more]
  | case2 l p done => simp [done]

theorem inside_exactSpans {size len data : Nat} (after : lo ≤ data) (starts : data ≤ hi) :
    Inside lo hi (exactSpans size len data) ↔ data + (if len = size then size else 0) ≤ hi := by
  unfold exactSpans
  split
  · simp [Span.stop, after]
  · simp [starts]

theorem inside_upToSpans {size len data : Nat} (after : lo ≤ data) (starts : data ≤ hi) :
    Inside lo hi (upToSpans size len data) ↔ data + (if len ≤ size then len else 0) ≤ hi := by
  unfold upToSpans
  split
  · simp [Span.stop, after]
  · simp [starts]

theorem inside_flagSpans {protocol : Text} {data : Nat} (after : lo ≤ data) (starts : data ≤ hi) :
    Inside lo hi (flagSpans protocol data) ↔
      data + (if strcmpGe protocol "IS-IS".toList then 1 else 0) ≤ hi := by
  unfold flagSpans
  split
  · simp [Span.stop, after]
  · simp [starts]

/-- The weight or algorithm and the SID; the flags stand before them. -/
theorem inside_sid {len data : Nat} (after : lo ≤ data) :
    Inside lo hi (⟨data + 1, 1⟩ :: sidSpans (data + 4) (len - 4)) ↔ data + sidNeed len ≤ hi := by
  unfold sidSpans sidNeed
  by_cases seven : len = 7
  · subst seven
    simp [Span.stop]
    omega
  · rw [if_neg (by omega), if_neg seven]
    by_cases twenty : 20 ≤ len
    · rw [if_pos (by omega), if_pos twenty]
      simp [Span.stop]
      omega
    · rw [if_neg (by omega), if_neg twenty]
      by_cases eight : len = 8
      · subst eight
        simp [Span.stop]
        omega
      · rw [if_neg (by omega), if_neg eight]
        simp [Span.stop]
        omega

theorem two_le_sidNeed (len : Nat) : 2 ≤ sidNeed len := by
  unfold sidNeed
  split
  · decide
  · split
    · decide
    · split <;> decide

theorem inside_sidTlv {protocol : Text} {len data : Nat} (after : lo ≤ data) :
    Inside lo hi (flagSpans protocol data ++ (⟨data + 1, 1⟩ :: sidSpans (data + 4) (len - 4))) ↔
      data + sidNeed len ≤ hi := by
  rw [inside_append, inside_sid after]
  have two := two_le_sidNeed len
  constructor
  · exact And.right
  · intro fits
    refine ⟨(inside_flagSpans after (by omega)).mpr ?_, fits⟩
    split <;> omega

theorem inside_epeTlv {len data : Nat} (after : lo ≤ data) :
    Inside lo hi (⟨data, 2⟩ :: sidSpans (data + 4) (len - 4)) ↔ data + sidNeed len ≤ hi := by
  have two := two_le_sidNeed len
  rw [← inside_sid after, inside_cons, inside_cons]
  simp only [Span.stop]
  refine and_congr_left fun _ => ?_
  omega

theorem inside_srTlv {protocol : Text} {len data : Nat} (after : lo ≤ data) (starts : data ≤ hi) :
    Inside lo hi (flagSpans protocol data ++ srSpans m len 2 (data + 2)) ↔
      data + (if 2 < len then 2 + srNeed m len 2 (data + 2)
        else if strcmpGe protocol "IS-IS".toList then 1 else 0) ≤ hi := by
  rw [inside_append, inside_flagSpans after starts, inside_srSpans (by omega)]
  by_cases entries : 2 < len
  · rw [if_pos entries]
    constructor
    · intro fits
      have := fits.2 entries
      omega
    · intro fits
      refine ⟨?_, fun _ => by omega⟩
      split <;> omega
  · rw [if_neg entries]
    exact and_iff_left fun more => absurd more entries

/-- The reads of a value are inside exactly if the octets it needs are. -/
theorem inside_valueSpans {type len data : Nat} (after : lo ≤ data) (starts : data ≤ hi) :
    Inside lo hi (valueSpans stale ls m type len data) ↔
      data + valueNeed stale ls m type len data ≤ hi := by
  have one (n : Nat) : Inside lo hi [⟨data, n⟩] ↔ data + n ≤ hi := by
    simp [Span.stop, after]
  unfold valueSpans
  split <;> simp only [valueNeed]
  · exact one _
  · exact one _
  · exact one _
  · exact inside_upToSpans after starts
  · exact inside_exactSpans after starts
  · exact inside_exactSpans after starts
  · exact inside_exactSpans after starts
  · exact inside_exactSpans after starts
  · exact inside_srTlv after starts
  · exact inside_exactSpans after starts
  · exact inside_exactSpans after starts
  · exact inside_exactSpans after starts
  · exact inside_exactSpans after starts
  · exact inside_upToSpans after starts
  · exact inside_upToSpans after starts
  · exact one _
  · exact inside_sidTlv after
  · exact inside_epeTlv after
  · exact inside_exactSpans after starts
  · exact inside_upToSpans after starts
  · exact inside_sidTlv after
  · simpa using starts

end Value

/-! What is written. -/

/-- Nothing is written behind the 255 octets of the slot. -/
def KeepsSlot (ops : Option (List SlotOp)) : Prop := ∀ op ∈ ops.getD [], op.stop ≤ 255

theorem keepsSlot_none : KeepsSlot none := by
  intro op here
  exact absurd here List.not_mem_nil

theorem keepsSlot_put {bytes : List UInt8} : KeepsSlot (some [.put 0 bytes]) ↔ bytes.length ≤ 255 := by
  simp [KeepsSlot, SlotOp.stop]

theorem keepsSlot_fill_put {bytes : List UInt8} :
    KeepsSlot (some [.fill, .put 0 bytes]) ↔ bytes.length ≤ 255 := by
  simp [KeepsSlot, SlotOp.stop]

theorem keepsSlot_ite {c : Prop} [Decidable c] {bytes : List UInt8} (short : c → bytes.length ≤ 255) :
    KeepsSlot (if c then some [.put 0 bytes] else none) := by
  split
  · rename_i holds
    exact keepsSlot_put.mpr (short holds)
  · exact keepsSlot_none

theorem length_flags_le (octet : Nat) (flags : List String) : ∀ mask,
    (flagsFrom octet mask flags).length ≤ (flags.map fun flag => flag.toList.length).sum := by
  induction flags with
  | nil =>
    intro mask
    exact le_rfl
  | cons flag flags ih =>
    intro mask
    have rest := ih (mask / 2)
    rw [flagsFrom, List.length_append, List.map_cons, List.sum_cons]
    split
    · omega
    · simp only [List.length_nil]
      omega

theorem length_parseSidValue_le (m : Mem) (data len : Nat) : (parseSidValue m data len).length ≤ 39 := by
  unfold parseSidValue
  split
  · have small := u24_lt m data
    exact (length_decimal_le (k := 8) (by decide) (by omega)).trans (by decide)
  · split
    · exact inetNtop6_length_le _
    · split
      · have small := u32_lt m data
        exact (length_decimal_le (k := 10) (by decide) (by omega)).trans (by decide)
      · exact Nat.zero_le _

theorem ieeeFloatToKbps_lt (word : Nat) : ieeeFloatToKbps word < 2 ^ 32 := by
  unfold ieeeFloatToKbps
  dsimp only
  split
  · decide
  · split
    · split <;> decide
    · split
      · decide
      · omega

theorem length_signedDecimal_le {word : Nat} (small : word < 2 ^ 32) :
    (signedDecimal word).length ≤ 11 := by
  unfold signedDecimal
  split
  · exact (length_decimal_le (k := 10) (by decide) (by omega)).trans (by decide)
  · rw [List.length_cons]
    exact Nat.succ_le_succ (length_decimal_le (k := 10) (by decide) (by omega))

/-- Eight numbers with commas between them. -/
theorem length_unresvBwText_le (m : Mem) (data : Nat) : (unresvBwText m data).length ≤ 104 := by
  have text : unresvBwText m data = _ := strideLoop_pieces (by decide : 0 < 4) (fun i =>
    if i = 0 then signedDecimal (ieeeFloatToKbps (u32 m (data + i)))
    else ", ".toList ++ signedDecimal (ieeeFloatToKbps (u32 m (data + i)))) 8
  rw [text, List.length_flatMap]
  refine (List.sum_le_card_nsmul _ 13 ?_).trans (by simp)
  intro n here
  obtain ⟨i, -, rfl⟩ := List.mem_map.mp here
  have number := length_signedDecimal_le (ieeeFloatToKbps_lt (u32 m (data + i * 4)))
  have comma : ", ".toList.length = 2 := by decide
  split
  · omega
  · rw [List.length_append, comma]
    omega

theorem length_epeNodeSidText_le (m : Mem) (len data : Nat) :
    (epeNodeSidText m len data).length ≤ 46 := by
  have sid := length_parseSidValue_le m (data + 4) (len - 4)
  have weight : (decimal (u8 m (data + 1))).length ≤ 3 :=
    length_decimal_le (by decide) ((u8_lt m (data + 1)).trans (by decide))
  have letter (c : Prop) [Decidable c] (flag : String) (one : flag.toList.length = 1) :
      (if c then flag.toList else []).length ≤ 1 := by
    split
    · exact one.le
    · exact Nat.zero_le 1
  have value := letter (u8 m data &&& 0x80 ≠ 0) "V" (by decide)
  have local_ := letter (u8 m data &&& 0x40 ≠ 0) "L" (by decide)
  simp only [epeNodeSidText, List.length_append, List.length_cons]
  omega

theorem length_listed (slot : Slot) (item : Text) :
    (listed slot item).length = (if 0 < slot.strlen then 2 else 0) + item.length := by
  have comma : ", ".toList.length = 2 := by decide
  unfold listed
  split
  · rw [List.length_append, comma]
  · rw [Nat.zero_add]

/-- What `strncat` writes, and whether its NUL is still in the slot. -/
theorem keepsSlot_append (slot : Slot) (item : Text) :
    KeepsSlot (appendOps slot item) ↔ withItem slot.strlen item ≤ 254 := by
  have used := slot.strlen_le
  have length := length_listed slot item
  simp only [KeepsSlot, appendOps, Option.getD_some, List.mem_singleton, forall_eq, SlotOp.stop,
    CArray.strncatBytes, List.length_append, List.length_take, length_textBytes, length,
    List.length_singleton, withItem]
  omega

section Value

variable (stale : Text) (ls : LsData) (m : Mem)

theorem keepsSlot_name (len data : Nat) : KeepsSlot (nameOps m len data) ↔ len ≤ 255 := by
  rw [nameOps, keepsSlot_fill_put, length_strncpyBytes]

theorem keepsSlot_copy {size : Nat} (small : size ≤ 255) (len data : Nat) :
    KeepsSlot (copyOps size m len data) :=
  keepsSlot_ite fun _ => (length_readBytes m data size).trans_le small

theorem keepsSlot_word (len data : Nat) : KeepsSlot (wordOps m len data) :=
  keepsSlot_ite fun _ => by simp [hostBytes]

theorem keepsSlot_bandwidth (len data : Nat) : KeepsSlot (bandwidthOps m len data) :=
  keepsSlot_ite fun _ => by simp

theorem length_metricBytes {len : Nat} (short : len ≤ 4) (data : Nat) :
    (metricBytes m data len).length = 4 := by
  simp only [metricBytes, hostBytes, List.length_append, List.length_reverse, length_readBytes,
    List.length_replicate]
  omega

/-- At most eight octets of the area, and its length behind them. -/
theorem keepsSlot_area (len data : Nat) :
    KeepsSlot (some ((if len ≤ 8 then [.put 0 (readBytes m data len)] else []) ++
      [.put 8 [UInt8.ofNat len]])) := by
  intro op here
  rcases List.mem_append.mp here with area | length
  · split at area
    · rename_i short
      rw [List.mem_singleton.mp area, SlotOp.stop, length_readBytes]
      omega
    · exact absurd area List.not_mem_nil
  · rw [List.mem_singleton.mp length]
    exact (by decide : 8 + 1 ≤ 255)

/-- A TLV stays inside its slot exactly if there is room for its text. -/
theorem keepsSlot_tlvOps (type len data : Nat) (slot : Slot) :
    KeepsSlot (tlvOps stale ls m type len data slot) ↔
      RoomFor stale ls m type len data slot.strlen := by
  unfold tlvOps
  split <;> simp only [RoomFor, iff_true]
  · rw [keepsSlot_put, List.length_append, length_textBytes, List.length_singleton]
    exact Nat.succ_le_succ_iff
  · rw [keepsSlot_fill_put, length_textBytes]
    exact (length_flags_le _ lsFlagsNodeNlri 0x80).trans (by decide)
  · exact keepsSlot_name m len data
  · exact keepsSlot_area m len data
  · exact keepsSlot_copy m (by decide) len data
  · exact keepsSlot_copy m (by decide) len data
  · exact keepsSlot_copy m (by decide) len data
  · exact keepsSlot_copy m (by decide) len data
  · rw [keepsSlot_put, length_textBytes]
  · exact keepsSlot_word m len data
  · exact keepsSlot_bandwidth m len data
  · exact keepsSlot_bandwidth m len data
  · refine keepsSlot_ite fun _ => ?_
    rw [length_textBytes]
    exact (length_unresvBwText_le m data).trans (by decide)
  · refine keepsSlot_ite fun short => ?_
    rw [hostBytes, List.length_reverse, length_readBytes]
    omega
  · exact keepsSlot_ite fun short => (length_metricBytes m short data).trans_le (by decide)
  · exact keepsSlot_name m len data
  · exact keepsSlot_append _ _
  · rw [keepsSlot_put, length_textBytes]
    exact (length_epeNodeSidText_le m len data).trans (by decide)
  · exact keepsSlot_word m len data
  · rw [keepsSlot_put]
    split
    · rename_i short
      exact (length_metricBytes m short data).trans_le (by decide)
    · decide
  · exact keepsSlot_append _ _
  · exact keepsSlot_none

/-- The length of the list of SIDs a TLV leaves in its slot. -/
def usedAfter (type len data used : Nat) : Nat :=
  match type with
  | 1099 => withItem used (adjacencySidText (front stale (ls.links.map (·.protocol))) m len data)
  | 1158 => withItem used (prefixSidText (front stale (ls.prefixes.map (·.protocol))) m len data)
  | _ => used

variable {stale ls m}

theorem roomFor_congr {type len data used used' : Nat}
    (same : type = 1099 ∨ type = 1158 → used = used') :
    RoomFor stale ls m type len data used ↔ RoomFor stale ls m type len data used' := by
  unfold RoomFor
  split
  · exact Iff.rfl
  · exact Iff.rfl
  · exact Iff.rfl
  · exact Iff.rfl
  · rw [same (Or.inl rfl)]
  · rw [same (Or.inr rfl)]
  · exact Iff.rfl

/-- A list that still fits has the length it was given. -/
theorem strlen_append {slot : Slot} {item : Text} (plain : ItemText item)
    (fits : withItem slot.strlen item ≤ 254) :
    (slot.strncat (textBytes (listed slot item))).strlen = withItem slot.strlen item := by
  have length := length_listed slot item
  unfold withItem at fits ⊢
  rw [CArray.strlen, CArray.text_strncat slot (nul_not_mem_listed slot plain), List.length_take,
    List.length_append, length_textBytes, length]
  show min 255 (slot.strlen + _) = _
  omega

end Value

/-! The loop. -/

/-- A turn: the offset in the attribute, and the map at that time. -/
structure AttrCursor where
  off : Nat
  attrs : LsAttrs

section Walk

variable (stale : Text) (ls : LsData) (m : Mem) (base attrLen : Nat)

def turnTlv (c : AttrCursor) : Nat × LsAttrs :=
  parseAttrLinkStateTLV stale ls m (attrLen - c.off) (base + c.off) c.attrs

theorem turnTlv_pos {c : AttrCursor} (more : c.off < attrLen) :
    0 < (turnTlv stale ls m base attrLen c).1 := by
  unfold turnTlv parseAttrLinkStateTLV
  split
  · exact Nat.sub_pos_of_lt more
  · exact Nat.succ_pos _

def attrWalk : CountingLoop AttrCursor where
  bound := attrLen
  count c := c.off
  next c := some ⟨c.off + (turnTlv stale ls m base attrLen c).1, (turnTlv stale ls m base attrLen c).2⟩
  advances := by
    rintro c _ more ⟨⟩
    exact Nat.lt_add_of_pos_right (turnTlv_pos stale ls m base attrLen more)

/-- The turns are those of the loop. -/
theorem parseAttrLinkState_eq_turns (c : AttrCursor) :
    parseAttrLinkState stale ls m (attrLen - c.off) (base + c.off) c.attrs =
      ((attrWalk stale ls m base attrLen).turns c).foldl
        (fun _ c => (turnTlv stale ls m base attrLen c).2) c.attrs := by
  induction c using (attrWalk stale ls m base attrLen).induct with
  | done c done =>
    have none_left : ¬ 0 < attrLen - c.off := by
      have := not_lt.mp done
      simp only [attrWalk] at this
      omega
    rw [CountingLoop.turns_done _ done, parseAttrLinkState, if_neg none_left, List.foldl_nil]
  | last c more ends => cases ends
  | step c c' more goes ih =>
    have left : 0 < attrLen - c.off := Nat.sub_pos_of_lt more
    cases goes
    rw [CountingLoop.turns_next _ more rfl, List.foldl_cons, ← ih, parseAttrLinkState, if_pos left]
    simp only [turnTlv, Nat.add_assoc, Nat.sub_sub]

/-- What is written at a turn. -/
def turnOps (c : AttrCursor) : Option (List SlotOp) :=
  if attrLen - c.off < 4 then none
  else tlvOps stale ls m (u16 m (base + c.off)) (u16 m (base + c.off + 2)) (base + c.off + 4)
    (slotOf c.attrs (u16 m (base + c.off)))

structure AttrTurnSafe (c : AttrCursor) : Prop where
  reads : Inside base (base + attrLen) (tlvSpans stale ls m (attrLen - c.off) (base + c.off))
  writes : KeepsSlot (turnOps stale ls m base attrLen c)

/-- The decoder comes to an end, and no turn reads outside the attribute or writes outside a
slot. -/
structure AttrSafe (attrs : LsAttrs) : Prop where
  ends : ((attrWalk stale ls m base attrLen).turns ⟨0, attrs⟩).length ≤ attrLen
  safe : ∀ c ∈ (attrWalk stale ls m base attrLen).turns ⟨0, attrs⟩,
    AttrTurnSafe stale ls m base attrLen c

/-- The TLVs from an offset on, each where the length of the one before says, up to fewer
octets than a header: what each is decoded from is in the attribute, and there is room for its
text. -/
inductive FitsFrom : Nat → (Nat → Nat) → Prop
  | rest {off : Nat} {used : Nat → Nat} (short : attrLen < off + 4) : FitsFrom off used
  | tlv {off : Nat} {used : Nat → Nat} (header : off + 4 ≤ attrLen)
      (value : off + 4 + valueNeed stale ls m (u16 m (base + off)) (u16 m (base + off + 2))
        (base + off + 4) ≤ attrLen)
      (room : RoomFor stale ls m (u16 m (base + off)) (u16 m (base + off + 2)) (base + off + 4)
        (used (u16 m (base + off))))
      (behind : FitsFrom (off + (u16 m (base + off + 2) + 4)) fun type =>
        if type = u16 m (base + off) then
          usedAfter stale ls m type (u16 m (base + off + 2)) (base + off + 4) (used type)
        else used type) : FitsFrom off used

variable {stale ls m base attrLen}

/-- The lists of SIDs in the map have these lengths. -/
def Uses (attrs : LsAttrs) (used : Nat → Nat) : Prop :=
  ∀ type, type = 1099 ∨ type = 1158 → (slotOf attrs type).strlen = used type

/-- A TLV with room for its text leaves the lists with the lengths that are counted for it. -/
theorem Uses.step {attrs : LsAttrs} {used : Nat → Nat} {type len data : Nat} (uses : Uses attrs used)
    (room : RoomFor stale ls m type len data (used type)) :
    Uses (updateSlot attrs type (tlvOps stale ls m type len data (slotOf attrs type))) fun t =>
      if t = type then usedAfter stale ls m t len data (used t) else used t := by
  intro t sid
  by_cases same : t = type
  · subst same
    have before := uses t sid
    dsimp only
    rw [if_pos rfl]
    rcases sid with rfl | rfl
    · have fits : withItem (slotOf attrs 1099).strlen _ ≤ 254 := before ▸ room
      exact (congrArg CArray.strlen (slotOf_append attrs 1099 _)).trans
        ((strlen_append (itemText_adjacencySidText _ _ _ _) fits).trans (by rw [before]; rfl))
    · have fits : withItem (slotOf attrs 1158).strlen _ ≤ 254 := before ▸ room
      exact (congrArg CArray.strlen (slotOf_append attrs 1158 _)).trans
        ((strlen_append (itemText_prefixSidText _ _ _ _) fits).trans (by rw [before]; rfl))
  · dsimp only
    rw [if_neg same, slotOf_updateSlot_ne attrs (Ne.symm same)]
    exact uses t sid

theorem attrTurnSafe_short {c : AttrCursor} (short : attrLen < c.off + 4) :
    AttrTurnSafe stale ls m base attrLen c := by
  have cut : attrLen - c.off < 4 := by omega
  constructor
  · rw [tlvSpans, if_pos cut]
    exact inside_nil _ _
  · rw [turnOps, if_pos cut]
    exact keepsSlot_none

theorem attrTurnSafe_iff {c : AttrCursor} {used : Nat → Nat} (header : c.off + 4 ≤ attrLen)
    (uses : Uses c.attrs used) :
    AttrTurnSafe stale ls m base attrLen c ↔
      c.off + 4 + valueNeed stale ls m (u16 m (base + c.off)) (u16 m (base + c.off + 2))
          (base + c.off + 4) ≤ attrLen ∧
        RoomFor stale ls m (u16 m (base + c.off)) (u16 m (base + c.off + 2)) (base + c.off + 4)
          (used (u16 m (base + c.off))) := by
  have whole : ¬ attrLen - c.off < 4 := by omega
  have value : Inside base (base + attrLen) (tlvSpans stale ls m (attrLen - c.off) (base + c.off)) ↔
      c.off + 4 + valueNeed stale ls m (u16 m (base + c.off)) (u16 m (base + c.off + 2))
        (base + c.off + 4) ≤ attrLen := by
    rw [tlvSpans, if_neg whole, inside_cons, inside_valueSpans (by omega) (by omega)]
    simp only [Span.stop]
    omega
  have room : KeepsSlot (turnOps stale ls m base attrLen c) ↔
      RoomFor stale ls m (u16 m (base + c.off)) (u16 m (base + c.off + 2)) (base + c.off + 4)
        (used (u16 m (base + c.off))) := by
    rw [turnOps, if_neg whole, keepsSlot_tlvOps]
    exact roomFor_congr (uses _)
  rw [← value, ← room]
  exact ⟨fun safe => ⟨safe.reads, safe.writes⟩, fun both => ⟨both.1, both.2⟩⟩

theorem turnTlv_whole {c : AttrCursor} (header : c.off + 4 ≤ attrLen) :
    turnTlv stale ls m base attrLen c =
      (u16 m (base + c.off + 2) + 4, updateSlot c.attrs (u16 m (base + c.off))
        (tlvOps stale ls m (u16 m (base + c.off)) (u16 m (base + c.off + 2)) (base + c.off + 4)
          (slotOf c.attrs (u16 m (base + c.off))))) :=
  if_neg (by omega)

/-- The turns from a cursor on are safe exactly if the TLVs from its offset on fit. -/
theorem turns_safe_iff (c : AttrCursor) : ∀ used, Uses c.attrs used →
    ((∀ t ∈ (attrWalk stale ls m base attrLen).turns c, AttrTurnSafe stale ls m base attrLen t) ↔
      FitsFrom stale ls m base attrLen c.off used) := by
  induction c using (attrWalk stale ls m base attrLen).induct with
  | done c done =>
    intro used _
    have beyond : attrLen ≤ c.off := not_lt.mp done
    rw [CountingLoop.turns_done _ done]
    exact ⟨fun _ => .rest (by omega), fun _ t here => absurd here List.not_mem_nil⟩
  | last c more ends => cases ends
  | step c c' more goes ih =>
    intro used uses
    rw [CountingLoop.turns_next _ more goes, List.forall_mem_cons]
    cases goes
    by_cases header : c.off + 4 ≤ attrLen
    · have turn : turnTlv stale ls m base attrLen c = _ := turnTlv_whole header
      rw [attrTurnSafe_iff header uses]
      rw [turn] at ih ⊢
      constructor
      · rintro ⟨⟨value, room⟩, rest⟩
        exact .tlv header value room ((ih _ (uses.step room)).mp rest)
      · intro fits
        cases fits with
        | rest short => omega
        | tlv _ value room behind => exact ⟨⟨value, room⟩, (ih _ (uses.step room)).mpr behind⟩
    · have short : attrLen < c.off + 4 := not_le.mp header
      have turn : turnTlv stale ls m base attrLen c = (attrLen - c.off, c.attrs) := if_pos (by omega)
      have finished : ¬ c.off + (turnTlv stale ls m base attrLen c).1 < attrLen := by
        rw [turn]
        omega
      rw [CountingLoop.turns_done _ finished]
      exact ⟨fun _ => .rest short,
        fun _ => ⟨attrTurnSafe_short short, fun t here => absurd here List.not_mem_nil⟩⟩

end Walk

/-- On any octets, and whatever the slots hold before, the attribute is decoded within its
bounds exactly if its TLVs fit. -/
theorem attr_safe_iff (stale : Text) (ls : LsData) (m : Mem) (base attrLen : Nat) (attrs : LsAttrs) :
    AttrSafe stale ls m base attrLen attrs ↔
      FitsFrom stale ls m base attrLen 0 fun type => (slotOf attrs type).strlen := by
  have turns : (∀ c ∈ (attrWalk stale ls m base attrLen).turns ⟨0, attrs⟩,
      AttrTurnSafe stale ls m base attrLen c) ↔
        FitsFrom stale ls m base attrLen 0 fun type => (slotOf attrs type).strlen :=
    turns_safe_iff ⟨0, attrs⟩ _ fun _ _ => rfl
  constructor
  · intro safe
    exact turns.mp safe.safe
  · intro fits
    refine ⟨?_, turns.mpr fits⟩
    have few := (attrWalk stale ls m base attrLen).length_turns_le_div Nat.one_pos
      (fun c c' more goes => (attrWalk stale ls m base attrLen).advances c c' more goes) ⟨0, attrs⟩
    simpa [attrWalk] using few

/-- An attribute with a node name of 256 octets. -/
def longName : Mem := memOf ([0x04, 0x02, 0x01, 0x00] ++ List.replicate 256 0x61)

/-- The last octet of the name is written behind the slot. -/
theorem node_name_overflows : ¬ AttrSafe [] LsData.none longName 0 260 fun _ => none := by
  intro safe
  have first : (⟨0, fun _ => none⟩ : AttrCursor) ∈
      (attrWalk [] LsData.none longName 0 260).turns ⟨0, fun _ => none⟩ := by
    rw [CountingLoop.turns_next _ (by decide) rfl]
    exact List.mem_cons_self
  have kept := (safe.safe _ first).writes
  have type : u16 longName 0 = 1026 := by decide +kernel
  have len : u16 longName 2 = 256 := by decide +kernel
  rw [turnOps, if_neg (by decide), keepsSlot_tlvOps] at kept
  simp only [Nat.add_zero, Nat.zero_add, type, len] at kept
  exact absurd (show 256 ≤ 255 from kept) (by decide)

end SonicBmp.Bgp.LinkStateAttrBounds
