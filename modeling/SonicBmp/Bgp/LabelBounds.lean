/- module: SonicBmp/Bgp/LabelBounds
   digest: What a labelled or VPN entry counts, copies and reads, on any bytes. -/

import SonicBmp.Bgp.EvpnCodec
import SonicBmp.Bgp.ParserBounds
import SonicBmp.Library.Footprint

set_option autoImplicit false
set_option relaxedAutoImplicit false

namespace SonicBmp.Bgp.LabelBounds

open SonicBmp.Library.Memory
open SonicBmp.Library.Footprint
open SonicBmp.Library.Turns
open SonicBmp.Bgp.Common
open SonicBmp.Bgp.Nlri
open SonicBmp.Bgp.LabelCodec (addPathLabel labelStack)
open SonicBmp.Bgp.EvpnCodec (labelWord_congr)
open SonicBmp.Bgp.ParserBounds

/-! Label stacks. -/

section Stack

/-- Label `k` is the first to end the stack at `data`. -/
structure StackEnds (m : Mem) (data k : Nat) : Prop where
  ends : endsStack (labelWord m (data + 3 * k)) = true
  before : ∀ j < k, endsStack (labelWord m (data + 3 * j)) = false

/-- A stack that goes on after its first label ends where the stack behind that label does. -/
theorem stackEnds_succ {m : Mem} {data k : Nat} (going : endsStack (labelWord m data) = false) :
    StackEnds m data (k + 1) ↔ StackEnds m (data + 3) k := by
  have place (j : Nat) : data + 3 * (j + 1) = data + 3 + 3 * j := by omega
  constructor
  · rintro ⟨ends, before⟩
    refine ⟨place k ▸ ends, ?_⟩
    intro j below
    exact place j ▸ before (j + 1) (Nat.succ_lt_succ below)
  · rintro ⟨ends, before⟩
    refine ⟨(place k).symm ▸ ends, ?_⟩
    intro j below
    cases j with
    | zero => exact going
    | succ j => exact (place j).symm ▸ before j (Nat.lt_of_succ_lt_succ below)

variable (m : Mem) (data len : Nat)

/-- From a count on: the stack ends at a label that is still read, or the loop goes beyond its
bound. -/
theorem turns_cases (read : Nat) :
    (∃ k, read + 3 * k ≤ len ∧ StackEnds m (data + read) k ∧
      ((stackWalk m data len).turns read).length = k + 1) ∨
    (len < read + 3 * ((stackWalk m data len).turns read).length ∧
      ∀ k, read + 3 * k ≤ len → ¬ StackEnds m (data + read) k) := by
  induction read using (stackWalk m data len).induct with
  | done read done =>
    have past : ¬ read ≤ len := fun within => done (Nat.lt_succ_of_le within)
    right
    rw [(stackWalk m data len).turns_done done]
    refine ⟨by simpa using past, ?_⟩
    intro k within
    omega
  | last read more ends =>
    have within : read ≤ len := Nat.le_of_lt_succ more
    have ended : endsStack (labelWord m (data + read)) = true := by
      simpa [stackWalk] using ends
    left
    rw [(stackWalk m data len).turns_last more ends]
    exact ⟨0, within, ⟨ended, fun j below => absurd below (Nat.not_lt_zero j)⟩, rfl⟩
  | step read next more goes ih =>
    obtain ⟨going, rfl⟩ : endsStack (labelWord m (data + read)) = false ∧ read + 3 = next := by
      simpa [stackWalk] using goes
    rw [(stackWalk m data len).turns_next more goes, List.length_cons]
    rcases ih with ⟨k, within, stack, length⟩ | ⟨beyond, none_⟩
    · left
      exact ⟨k + 1, by omega, (stackEnds_succ going).mpr stack, by rw [length]⟩
    · right
      refine ⟨by omega, ?_⟩
      intro k within stack
      cases k with
      | zero =>
        have ended : endsStack (labelWord m (data + read)) = true := stack.ends
        rw [going] at ended
        cases ended
      | succ k => exact none_ k (by omega) ((stackEnds_succ going).mp stack)

theorem decodeLabel_cases :
    (∃ k, 3 * k ≤ len ∧ StackEnds m data k ∧ (decodeLabel m data len).1 = 3 * (k + 1)) ∨
      (len < (decodeLabel m data len).1 ∧ ∀ k, 3 * k ≤ len → ¬ StackEnds m data k) := by
  have cases_ := turns_cases m data len 0
  simp only [Nat.zero_add, Nat.add_zero] at cases_
  rw [decodeLabel_eq_turns]
  rcases cases_ with ⟨k, within, stack, length⟩ | beyond
  · refine Or.inl ⟨k, within, stack, ?_⟩
    rw [stackTurns, length]
  · exact Or.inr beyond

theorem StackEnds.unique {m : Mem} {data k k' : Nat} (one : StackEnds m data k)
    (two : StackEnds m data k') : k = k' := by
  have least {k k' : Nat} (one : StackEnds m data k) (two : StackEnds m data k') : ¬ k < k' := by
    intro less
    have going := two.before k less
    rw [one.ends] at going
    cases going
  have := least one two
  have := least two one
  omega

theorem decodeLabel_of_ends {k : Nat} (stack : StackEnds m data k) (within : 3 * k ≤ len) :
    (decodeLabel m data len).1 = 3 * (k + 1) := by
  rcases decodeLabel_cases m data len with ⟨k', -, stack', octets⟩ | ⟨-, none_⟩
  · rw [octets, stack.unique stack']
  · exact absurd stack (none_ k within)

variable {m data len}

/-- The loop looks at the labels it counts. -/
theorem turns_congr {m' : Mem} (read : Nat) :
    SameBytes (3 * ((stackWalk m data len).turns read).length) m (data + read) m' (data + read) →
      (stackWalk m data len).turns read = (stackWalk m' data len).turns read ∧
        ∀ r ∈ (stackWalk m data len).turns read,
          labelWord m (data + r) = labelWord m' (data + r) := by
  induction read using (stackWalk m data len).induct with
  | done read done =>
    intro _
    have past : ¬ (stackWalk m' data len).count read < (stackWalk m' data len).bound := done
    rw [(stackWalk m data len).turns_done done, (stackWalk m' data len).turns_done past]
    exact ⟨rfl, fun r here => absurd here List.not_mem_nil⟩
  | last read more ends =>
    intro same
    have more' : (stackWalk m' data len).count read < (stackWalk m' data len).bound := more
    rw [(stackWalk m data len).turns_last more ends, List.length_singleton, Nat.mul_one] at same
    have word : labelWord m (data + read) = labelWord m' (data + read) := labelWord_congr same
    have ends' : (stackWalk m' data len).next read = none := by
      simpa only [stackWalk, word] using ends
    rw [(stackWalk m data len).turns_last more ends, (stackWalk m' data len).turns_last more' ends']
    exact ⟨rfl, by simpa using word⟩
  | step read next more goes ih =>
    intro same
    obtain ⟨-, rfl⟩ : endsStack (labelWord m (data + read)) = false ∧ read + 3 = next := by
      simpa [stackWalk] using goes
    have more' : (stackWalk m' data len).count read < (stackWalk m' data len).bound := more
    rw [(stackWalk m data len).turns_next more goes, List.length_cons] at same
    have word : labelWord m (data + read) = labelWord m' (data + read) :=
      labelWord_congr (same.within 0 3 (by omega))
    have goes' : (stackWalk m' data len).next read = some (read + 3) := by
      simpa only [stackWalk, word] using goes
    obtain ⟨turns, words⟩ := ih (same.within 3 _ (by omega))
    rw [(stackWalk m data len).turns_next more goes, (stackWalk m' data len).turns_next more' goes',
      turns]
    refine ⟨rfl, List.forall_mem_cons.mpr ⟨word, ?_⟩⟩
    rw [← turns]
    exact words

theorem decodeLabel_congr {m' : Mem}
    (same : SameBytes (decodeLabel m data len).1 m data m' data) :
    decodeLabel m data len = decodeLabel m' data len := by
  rw [decodeLabel_eq_turns] at same
  obtain ⟨turns, words⟩ := @turns_congr m data len m' 0 same
  have shown : ∀ r ∈ stackTurns m data len, shownLabel m data r = shownLabel m' data r := by
    intro r here
    rw [shownLabel, shownLabel, words r here]
  have stack : stackTurns m data len = stackTurns m' data len := turns
  rw [decodeLabel_eq_turns, decodeLabel_eq_turns, List.flatMap_congr shown, stack]

end Stack

/-! Entries. -/

section Entry

variable (isVPN addPath : Bool) (m : Mem) (len : Nat)

/-- The octets of the path identifier of an entry at an offset. -/
def idOctets (off : Nat) : Nat := if (addPath && !isVPN) && 4 ≤ len - off then 4 else 0

/-- The length octet of the entry at `data`, the offset `off` of its section. -/
def bitsOf (data off : Nat) : Nat := u8 m (data + idOctets isVPN addPath len off)

/-- Where its labels start. -/
def stackOf (data off : Nat) : Nat := data + idOctets isVPN addPath len off + 1

/-- What `decodeLabel` counts. -/
def labelOctets (data off : Nat) : Nat :=
  (decodeLabel m (stackOf isVPN addPath len data off)
    (addrBytes (bitsOf isVPN addPath m len data off))).1

/-- A distinguisher is read if eight octets are left. -/
def hasRd (data off : Nat) : Bool :=
  isVPN && labelOctets isVPN addPath m len data off + 8 ≤
    addrBytes (bitsOf isVPN addPath m len data off)

def rdOctets (data off : Nat) : Nat := if hasRd isVPN addPath m len data off then 8 else 0

/-- What is copied into the address buffer. -/
def copiedOctets (data off : Nat) : Nat :=
  addrBytes (bitsOf isVPN addPath m len data off) - labelOctets isVPN addPath m len data off -
    rdOctets isVPN addPath m len data off

/-- What is read of a distinguisher. -/
def rdSpans (rd : Nat) : List Span :=
  ⟨rd + 1, 1⟩ :: if u8 m (rd + 1) ≤ 2 then [⟨rd + 2, 6⟩] else []

/-- What is read of the entry. -/
def entrySpans (data off : Nat) : List Span :=
  let stack := stackOf isVPN addPath len data off
  let labels := labelOctets isVPN addPath m len data off
  let copied := copiedOctets isVPN addPath m len data off
  [⟨data, idOctets isVPN addPath len off + 1⟩, ⟨stack, labels⟩] ++
    ((if hasRd isVPN addPath m len data off then rdSpans m (stack + labels) else []) ++
      if 0 < copied then [⟨stack + labels + rdOctets isVPN addPath m len data off, copied⟩] else [])

theorem pathIdAt_eq (data off : Nat) :
    (pathIdAt (addPath && !isVPN) m data (len - off)).2 = idOctets isVPN addPath len off := by
  unfold pathIdAt idOctets
  split <;> rfl

theorem parseRouteDistinguisher_len (data : Nat) (tuple : VpnTuple) :
    (parseRouteDistinguisher m data tuple).len = tuple.len := by
  unfold parseRouteDistinguisher
  split <;> rfl

variable (c : LabelCursor)

theorem labelHead_eq :
    labelHead isVPN addPath m len c =
      ({ tuple := { c.tuple with
          pathId := (pathIdAt (addPath && !isVPN) m c.data (len - c.readSize)).1
          labels := (decodeLabel m (stackOf isVPN addPath len c.data c.readSize)
            (addrBytes (bitsOf isVPN addPath m len c.data c.readSize))).2
          len := (bitsOf isVPN addPath m len c.data c.readSize + 2048 -
            8 * labelOctets isVPN addPath m len c.data c.readSize) % 256 }
         data := stackOf isVPN addPath len c.data c.readSize +
           labelOctets isVPN addPath m len c.data c.readSize
         readSize := c.readSize + idOctets isVPN addPath len c.readSize +
           labelOctets isVPN addPath m len c.data c.readSize },
        (addrBytes (bitsOf isVPN addPath m len c.data c.readSize) : Int) -
          labelOctets isVPN addPath m len c.data c.readSize) := by
  simp only [labelHead, pathIdAt_eq]
  rfl

theorem labelRd_condition :
    (isVPN && decide (8 ≤ (labelHead isVPN addPath m len c).2)) =
      hasRd isVPN addPath m len c.data c.readSize := by
  rw [labelHead_eq, hasRd]
  congr 1
  rw [decide_eq_decide]
  omega

/-- The octets left behind labels and distinguisher. -/
theorem labelRd_left :
    (labelRd isVPN m (labelHead isVPN addPath m len c)).2 =
      (addrBytes (bitsOf isVPN addPath m len c.data c.readSize) : Int) -
        labelOctets isVPN addPath m len c.data c.readSize -
        rdOctets isVPN addPath m len c.data c.readSize := by
  unfold labelRd rdOctets
  rw [labelRd_condition, labelHead_eq]
  split
  · rfl
  · rw [Nat.cast_zero, sub_zero]

theorem labelRd_data :
    (labelRd isVPN m (labelHead isVPN addPath m len c)).1.data =
      stackOf isVPN addPath len c.data c.readSize +
        labelOctets isVPN addPath m len c.data c.readSize +
        rdOctets isVPN addPath m len c.data c.readSize := by
  unfold labelRd rdOctets
  rw [labelRd_condition, labelHead_eq]
  split <;> rfl

theorem labelRd_count :
    (labelRd isVPN m (labelHead isVPN addPath m len c)).1.readSize =
      c.readSize + idOctets isVPN addPath len c.readSize +
        labelOctets isVPN addPath m len c.data c.readSize +
        rdOctets isVPN addPath m len c.data c.readSize := by
  unfold labelRd rdOctets
  rw [labelRd_condition, labelHead_eq]
  split <;> rfl

/-- The length octet, an 8-bit number. -/
theorem labelRd_len :
    (labelRd isVPN m (labelHead isVPN addPath m len c)).1.tuple.len =
      ((bitsOf isVPN addPath m len c.data c.readSize + 2048 -
        8 * labelOctets isVPN addPath m len c.data c.readSize) % 256 + 256 -
        8 * rdOctets isVPN addPath m len c.data c.readSize) % 256 := by
  unfold labelRd rdOctets
  rw [labelRd_condition, labelHead_eq]
  split
  · simp only [parseRouteDistinguisher_len]
  · dsimp only
    omega

theorem copied_eq :
    (labelRd isVPN m (labelHead isVPN addPath m len c)).2.toNat =
      copiedOctets isVPN addPath m len c.data c.readSize := by
  rw [labelRd_left, copiedOctets]
  omega

variable (isIPv4 : Bool)

theorem labelAddr_count (c : LabelCursor × Int) :
    (labelAddr isIPv4 m c).readSize = c.1.readSize + c.2.toNat := by
  unfold labelAddr
  split
  · rfl
  · dsimp only
    omega

theorem labelAddr_data (c : LabelCursor × Int) :
    (labelAddr isIPv4 m c).data = c.1.data + c.2.toNat := by
  unfold labelAddr
  split
  · rfl
  · dsimp only
    omega

theorem labelAddr_len (c : LabelCursor × Int) :
    (labelAddr isIPv4 m c).tuple.len = c.1.tuple.len := by
  unfold labelAddr
  split <;> rfl

end Entry

/-- What is asked of the entry at a cursor of a section of `len` octets at `base`. -/
structure EntrySafe (isIPv4 isVPN addPath : Bool) (m : Mem) (base len : Nat) (c : LabelCursor) :
    Prop where
  labels : labelOctets isVPN addPath m len c.data c.readSize ≤
    addrBytes (bitsOf isVPN addPath m len c.data c.readSize)
  prefixLen : ((labelEntry isIPv4 isVPN addPath m len c).tuple.len : Int) =
    bitsOf isVPN addPath m len c.data c.readSize -
      8 * labelOctets isVPN addPath m len c.data c.readSize -
      8 * rdOctets isVPN addPath m len c.data c.readSize
  copied : copiedOctets isVPN addPath m len c.data c.readSize ≤ 16
  reads : Inside base (base + len) (entrySpans isVPN addPath m len c.data c.readSize)

/-! What the entries read. -/

section Reads

variable {m m' : Mem}

theorem parseRouteDistinguisher_agree {rd : Nat} (agree : Agree (rdSpans m rd) m m')
    (tuple : VpnTuple) :
    u8 m (rd + 1) = u8 m' (rd + 1) ∧
      parseRouteDistinguisher m rd tuple = parseRouteDistinguisher m' rd tuple := by
  have type : u8 m (rd + 1) = u8 m' (rd + 1) :=
    (agree ⟨rd + 1, 1⟩ List.mem_cons_self).u8 0 Nat.one_pos
  refine ⟨type, ?_⟩
  by_cases known : u8 m (rd + 1) ≤ 2
  · rw [rdSpans, if_pos known] at agree
    have value : SameBytes 6 m (rd + 2) m' (rd + 2) :=
      agree ⟨rd + 2, 6⟩ (List.mem_cons_of_mem _ List.mem_cons_self)
    have address : readBytes m (rd + 2) 4 = readBytes m' (rd + 2) 4 := value.within 0 4 (by omega)
    have first : u16 m (rd + 2) = u16 m' (rd + 2) := value.u16 0 (by omega)
    have last : u16 m (rd + 6) = u16 m' (rd + 6) := value.u16 4 (by omega)
    have head : u32 m (rd + 2) = u32 m' (rd + 2) := value.u32 0 (by omega)
    have tail : u32 m (rd + 4) = u32 m' (rd + 4) := value.u32 2 (by omega)
    simp only [parseRouteDistinguisher, type, address, first, last, head, tail]
  · have other (m : Mem) (beyond : ¬ u8 m (rd + 1) ≤ 2) :
        parseRouteDistinguisher m rd tuple = { tuple with rdType := u8 m (rd + 1) } := by
      unfold parseRouteDistinguisher
      split
      · omega
      · omega
      · omega
      · rfl
    rw [other m known, other m' (type ▸ known), type]

variable {isVPN addPath : Bool} {len : Nat} {c : LabelCursor}

theorem head_agree
    (agree : Agree (entrySpans isVPN addPath m len c.data c.readSize) m m') :
    bitsOf isVPN addPath m len c.data c.readSize = bitsOf isVPN addPath m' len c.data c.readSize ∧
      labelHead isVPN addPath m len c = labelHead isVPN addPath m' len c ∧
      labelOctets isVPN addPath m len c.data c.readSize =
        labelOctets isVPN addPath m' len c.data c.readSize := by
  have first : SameBytes (idOctets isVPN addPath len c.readSize + 1) m c.data m' c.data :=
    agree _ (List.mem_append_left _ List.mem_cons_self)
  have stack : SameBytes (labelOctets isVPN addPath m len c.data c.readSize) m
      (stackOf isVPN addPath len c.data c.readSize) m'
      (stackOf isVPN addPath len c.data c.readSize) :=
    agree _ (List.mem_append_left _ (List.mem_cons_of_mem _ List.mem_cons_self))
  have bits : bitsOf isVPN addPath m len c.data c.readSize =
      bitsOf isVPN addPath m' len c.data c.readSize := first.u8 _ (Nat.lt_succ_self _)
  have pathId : pathIdAt (addPath && !isVPN) m c.data (len - c.readSize) =
      pathIdAt (addPath && !isVPN) m' c.data (len - c.readSize) := by
    unfold idOctets at first
    unfold pathIdAt
    split
    · rename_i given
      rw [if_pos given] at first
      exact Prod.ext (first.u32 0 (by omega)) rfl
    · rfl
  have decoded := decodeLabel_congr stack
  rw [bits] at decoded
  have labels : labelOctets isVPN addPath m len c.data c.readSize =
      labelOctets isVPN addPath m' len c.data c.readSize := by
    rw [labelOctets, bits]
    exact congrArg Prod.fst decoded
  refine ⟨bits, ?_, labels⟩
  rw [labelHead_eq, labelHead_eq, bits, labels, decoded, pathId]

section Parts

variable (agree : Agree (entrySpans isVPN addPath m len c.data c.readSize) m m')

include agree

theorem rd_agree :
    hasRd isVPN addPath m len c.data c.readSize = hasRd isVPN addPath m' len c.data c.readSize ∧
      rdOctets isVPN addPath m len c.data c.readSize =
        rdOctets isVPN addPath m' len c.data c.readSize ∧
      copiedOctets isVPN addPath m len c.data c.readSize =
        copiedOctets isVPN addPath m' len c.data c.readSize := by
  obtain ⟨bits, -, labels⟩ := head_agree agree
  have rd : hasRd isVPN addPath m len c.data c.readSize =
      hasRd isVPN addPath m' len c.data c.readSize := by
    rw [hasRd, hasRd, bits, labels]
  have octets : rdOctets isVPN addPath m len c.data c.readSize =
      rdOctets isVPN addPath m' len c.data c.readSize := by
    rw [rdOctets, rdOctets, rd]
  refine ⟨rd, octets, ?_⟩
  rw [copiedOctets, copiedOctets, bits, labels, octets]

theorem rdSpans_agree (given : hasRd isVPN addPath m len c.data c.readSize = true) :
    Agree (rdSpans m (stackOf isVPN addPath len c.data c.readSize +
      labelOctets isVPN addPath m len c.data c.readSize)) m m' := by
  intro span here
  refine agree span (List.mem_append_right _ (List.mem_append_left _ ?_))
  rw [if_pos given]
  exact here

theorem labelRd_agree :
    labelRd isVPN m (labelHead isVPN addPath m len c) =
      labelRd isVPN m' (labelHead isVPN addPath m' len c) := by
  obtain ⟨-, head, -⟩ := head_agree agree
  unfold labelRd
  rw [labelRd_condition, labelRd_condition, ← (rd_agree agree).1, ← head]
  split
  · rename_i given
    have place : (labelHead isVPN addPath m len c).1.data =
        stackOf isVPN addPath len c.data c.readSize +
          labelOctets isVPN addPath m len c.data c.readSize := by
      rw [labelHead_eq]
    rw [place, (parseRouteDistinguisher_agree (rdSpans_agree agree given) _).2]
  · rfl

theorem labelAddr_agree (isIPv4 : Bool) :
    labelAddr isIPv4 m (labelRd isVPN m (labelHead isVPN addPath m len c)) =
      labelAddr isIPv4 m' (labelRd isVPN m (labelHead isVPN addPath m len c)) := by
  unfold labelAddr
  split
  · rename_i some_
    have size := copied_eq isVPN addPath m len c
    have address : SameBytes (copiedOctets isVPN addPath m len c.data c.readSize) m
        (labelRd isVPN m (labelHead isVPN addPath m len c)).1.data m'
        (labelRd isVPN m (labelHead isVPN addPath m len c)).1.data := by
      rw [labelRd_data]
      refine agree ⟨_, copiedOctets isVPN addPath m len c.data c.readSize⟩
        (List.mem_append_right _ (List.mem_append_right _ ?_))
      rw [if_pos (by omega)]
      exact List.mem_cons_self
    have raw : copyRaw 16 m (labelRd isVPN m (labelHead isVPN addPath m len c)).1.data
          (copiedOctets isVPN addPath m len c.data c.readSize) =
        copyRaw 16 m' (labelRd isVPN m (labelHead isVPN addPath m len c)).1.data
          (copiedOctets isVPN addPath m len c.data c.readSize) := by
      unfold copyRaw
      rw [show readBytes m _ _ = _ from address]
    dsimp only
    rw [size, raw]
  · rfl

theorem entrySpans_agree :
    entrySpans isVPN addPath m len c.data c.readSize =
      entrySpans isVPN addPath m' len c.data c.readSize := by
  obtain ⟨-, -, labels⟩ := head_agree agree
  obtain ⟨rd, octets, copied⟩ := rd_agree agree
  unfold entrySpans
  dsimp only
  rw [← labels, ← rd, ← copied, ← octets]
  congr 2
  split
  · rename_i given
    rw [rdSpans, rdSpans, (parseRouteDistinguisher_agree (rdSpans_agree agree given) c.tuple).1]
  · rfl

end Parts

/-- An entry looks at nothing else. -/
theorem labelEntry_reads (isIPv4 isVPN addPath : Bool) (len : Nat) (c : LabelCursor) :
    ReadsOnly (fun m => labelEntry isIPv4 isVPN addPath m len c)
      (fun m => entrySpans isVPN addPath m len c.data c.readSize) := by
  intro m m' agree
  refine ⟨?_, entrySpans_agree agree⟩
  show labelAddr isIPv4 m _ = labelAddr isIPv4 m' _
  rw [labelAddr_agree agree, labelRd_agree agree]

end Reads

/-! Sections. -/

section Section

variable (isVPN addPath : Bool) (m : Mem) (base len : Nat)

/-- The octets an entry is read to: its own, but of a distinguisher of another type than 0, 1
and 2 that no address follows, only those up to the type. -/
def extent (off k : Nat) : Nat :=
  let bits := bitsOf isVPN addPath m len (base + off) off
  let rd := stackOf isVPN addPath len (base + off) off + 3 * (k + 1)
  if isVPN = true ∧ addrBytes bits = 3 * (k + 1) + 8 ∧ 2 < u8 m (rd + 1) then 3 * (k + 1) + 2
  else addrBytes bits

/-- A well-formed entry at an offset: label `k` ends its stack and is inside the entry, bits
that are left are no address of more than 128 bits, of a VPN entry neither a distinguisher cut
short, and what is read is inside the section. -/
structure LegalEntry (off k : Nat) : Prop where
  stack : StackEnds m (stackOf isVPN addPath len (base + off) off) k
  labels : 24 * (k + 1) ≤ bitsOf isVPN addPath m len (base + off) off
  plain : isVPN = false → bitsOf isVPN addPath m len (base + off) off ≤ 24 * (k + 1) + 128
  vpn : isVPN = true → bitsOf isVPN addPath m len (base + off) off < 24 * (k + 1) + 57 ∨
    24 * (k + 1) + 64 ≤ bitsOf isVPN addPath m len (base + off) off ∧
      bitsOf isVPN addPath m len (base + off) off ≤ 24 * (k + 1) + 192
  inside : off + idOctets isVPN addPath len off + 1 + extent isVPN addPath m base len off k ≤ len

/-- The entries from an offset on, each behind the octets of the one before. -/
inductive LegalFrom : Nat → Prop
  | done {off : Nat} (over_ : len ≤ off) : LegalFrom off
  | entry {off k : Nat} (more : off < len) (legal : LegalEntry isVPN addPath m base len off k)
      (rest : LegalFrom (off + idOctets isVPN addPath len off + 1 +
        addrBytes (bitsOf isVPN addPath m len (base + off) off))) : LegalFrom off

variable {isVPN addPath m base len} {isIPv4 : Bool}

theorem addrBytes_eq (bits : Nat) : addrBytes bits = (bits + 7) / 8 := by
  unfold addrBytes
  split <;> omega

theorem labelEntry_len (c : LabelCursor) :
    (labelEntry isIPv4 isVPN addPath m len c).tuple.len =
      ((bitsOf isVPN addPath m len c.data c.readSize + 2048 -
        8 * labelOctets isVPN addPath m len c.data c.readSize) % 256 + 256 -
        8 * rdOctets isVPN addPath m len c.data c.readSize) % 256 := by
  rw [labelEntry, labelAddr_len, labelRd_len]

theorem labelEntry_data (c : LabelCursor) :
    (labelEntry isIPv4 isVPN addPath m len c).data =
      stackOf isVPN addPath len c.data c.readSize +
        labelOctets isVPN addPath m len c.data c.readSize +
        rdOctets isVPN addPath m len c.data c.readSize +
        copiedOctets isVPN addPath m len c.data c.readSize := by
  rw [labelEntry, labelAddr_data, labelRd_data, copied_eq]

theorem labelEntry_count (c : LabelCursor) :
    (labelEntry isIPv4 isVPN addPath m len c).readSize =
      c.readSize + idOctets isVPN addPath len c.readSize +
        labelOctets isVPN addPath m len c.data c.readSize +
        rdOctets isVPN addPath m len c.data c.readSize +
        copiedOctets isVPN addPath m len c.data c.readSize := by
  rw [labelEntry, labelAddr_count, labelRd_count, copied_eq]

theorem inside_rdSpans {rd : Nat} (above : base ≤ rd) :
    Inside base (base + len) (rdSpans m rd) ↔
      rd + 2 ≤ base + len ∧ (u8 m (rd + 1) ≤ 2 → rd + 8 ≤ base + len) := by
  unfold rdSpans
  split
  · rename_i known
    simp only [inside_cons, Span.stop, inside_nil, and_true, known, true_implies]
    omega
  · rename_i other
    simp only [inside_cons, Span.stop, inside_nil, and_true, other, false_implies]
    omega

theorem inside_entrySpans {off : Nat} :
    Inside base (base + len) (entrySpans isVPN addPath m len (base + off) off) ↔
      stackOf isVPN addPath len (base + off) off +
          labelOctets isVPN addPath m len (base + off) off ≤ base + len ∧
      (hasRd isVPN addPath m len (base + off) off = true →
        Inside base (base + len) (rdSpans m (stackOf isVPN addPath len (base + off) off +
          labelOctets isVPN addPath m len (base + off) off))) ∧
      (0 < copiedOctets isVPN addPath m len (base + off) off →
        stackOf isVPN addPath len (base + off) off +
          labelOctets isVPN addPath m len (base + off) off +
          rdOctets isVPN addPath m len (base + off) off +
          copiedOctets isVPN addPath m len (base + off) off ≤ base + len) := by
  have stack : stackOf isVPN addPath len (base + off) off =
    base + off + idOctets isVPN addPath len off + 1 := rfl
  have optional (given : Prop) [Decidable given] (spans : List Span) :
      Inside base (base + len) (if given then spans else []) ↔
        (given → Inside base (base + len) spans) := by
    split <;> simp_all
  unfold entrySpans
  dsimp only
  rw [inside_append, inside_append, optional, optional]
  simp only [inside_cons, Span.stop, inside_nil, and_true]
  rw [stack]
  constructor
  · rintro ⟨⟨-, labels⟩, rd, copied⟩
    exact ⟨by omega, rd, fun some_ => by have := copied some_; omega⟩
  · rintro ⟨labels, rd, copied⟩
    exact ⟨⟨by omega, by omega⟩, rd, fun some_ => by have := copied some_; omega⟩

theorem hasRd_iff {off k : Nat}
    (octets : labelOctets isVPN addPath m len (base + off) off = 3 * (k + 1)) :
    hasRd isVPN addPath m len (base + off) off = true ↔
      isVPN = true ∧ 3 * (k + 1) + 8 ≤ addrBytes (bitsOf isVPN addPath m len (base + off) off) := by
  rw [hasRd, octets, Bool.and_eq_true, decide_eq_true_eq]

/-- What is read of an entry whose stack ends at label `k`, and is inside it. -/
theorem inside_iff_extent {off k : Nat}
    (octets : labelOctets isVPN addPath m len (base + off) off = 3 * (k + 1))
    (room : 3 * (k + 1) ≤ addrBytes (bitsOf isVPN addPath m len (base + off) off)) :
    Inside base (base + len) (entrySpans isVPN addPath m len (base + off) off) ↔
      off + idOctets isVPN addPath len off + 1 + extent isVPN addPath m base len off k ≤ len := by
  have place : stackOf isVPN addPath len (base + off) off =
    base + off + idOctets isVPN addPath len off + 1 := rfl
  have rd := hasRd_iff octets
  rw [inside_entrySpans, inside_rdSpans (by omega), copiedOctets, rdOctets, octets, extent]
  by_cases given : hasRd isVPN addPath m len (base + off) off = true
  · obtain ⟨vpn, eight⟩ := rd.mp given
    rw [if_pos given]
    by_cases short : isVPN = true ∧
        addrBytes (bitsOf isVPN addPath m len (base + off) off) = 3 * (k + 1) + 8 ∧
          2 < u8 m (stackOf isVPN addPath len (base + off) off + 3 * (k + 1) + 1)
    · rw [if_pos short]
      constructor
      · rintro ⟨-, distinguisher, -⟩
        have := (distinguisher given).1
        omega
      · intro inside
        exact ⟨by omega, fun _ => ⟨by omega, fun known => by omega⟩, fun some_ => by omega⟩
    · rw [if_neg short]
      constructor
      · rintro ⟨-, distinguisher, address⟩
        by_cases some_ : 0 < addrBytes (bitsOf isVPN addPath m len (base + off) off) - 3 * (k + 1) - 8
        · have := address some_
          omega
        · have known : ¬ 2 < u8 m (stackOf isVPN addPath len (base + off) off + 3 * (k + 1) + 1) :=
            fun other => short ⟨vpn, by omega, other⟩
          have := (distinguisher given).2 (by omega)
          omega
      · intro inside
        exact ⟨by omega, fun _ => ⟨by omega, fun _ => by omega⟩, fun _ => by omega⟩
  · have whole : ¬ (isVPN = true ∧
        addrBytes (bitsOf isVPN addPath m len (base + off) off) = 3 * (k + 1) + 8 ∧
          2 < u8 m (stackOf isVPN addPath len (base + off) off + 3 * (k + 1) + 1)) := by
      rintro ⟨vpn, eight, -⟩
      exact given (rd.mpr ⟨vpn, eight.ge⟩)
    rw [if_neg whole, if_neg given]
    constructor
    · rintro ⟨labels, -, address⟩
      by_cases some_ : 0 < addrBytes (bitsOf isVPN addPath m len (base + off) off) - 3 * (k + 1) - 0
      · have := address some_
        omega
      · omega
    · intro inside
      exact ⟨by omega, fun yes => absurd yes given, fun _ => by omega⟩

/-- The arithmetic of an entry whose stack ends at label `k`. -/
theorem entrySafe_iff_of_ends {tuple : VpnTuple} {off k : Nat}
    (stack : StackEnds m (stackOf isVPN addPath len (base + off) off) k)
    (octets : labelOctets isVPN addPath m len (base + off) off = 3 * (k + 1)) :
    EntrySafe isIPv4 isVPN addPath m base len ⟨tuple, base + off, off⟩ ↔
      LegalEntry isVPN addPath m base len off k := by
  have bits_lt : bitsOf isVPN addPath m len (base + off) off < 256 := u8_lt m _
  have bytes := addrBytes_eq (bitsOf isVPN addPath m len (base + off) off)
  have entryLen := @labelEntry_len isVPN addPath m len isIPv4 ⟨tuple, base + off, off⟩
  have rd : rdOctets isVPN addPath m len (base + off) off =
      if isVPN = true ∧ 3 * (k + 1) + 8 ≤ addrBytes (bitsOf isVPN addPath m len (base + off) off)
      then 8 else 0 := if_congr (hasRd_iff octets) rfl rfl
  have copied : copiedOctets isVPN addPath m len (base + off) off =
      addrBytes (bitsOf isVPN addPath m len (base + off) off) - 3 * (k + 1) -
        rdOctets isVPN addPath m len (base + off) off := by
    rw [copiedOctets, octets]
  dsimp only at entryLen
  rw [octets] at entryLen
  constructor
  · rintro ⟨labels, prefixLen, sixteen, reads⟩
    dsimp only at labels prefixLen sixteen reads
    rw [octets] at labels prefixLen
    rw [copied] at sixteen
    refine ⟨stack, by omega, ?_, ?_, (inside_iff_extent octets labels).mp reads⟩
    · intro plain
      rw [if_neg (by simp [plain])] at rd
      omega
    · intro vpn
      split at rd
      · omega
      · rename_i none_
        have short : ¬ 3 * (k + 1) + 8 ≤ addrBytes (bitsOf isVPN addPath m len (base + off) off) :=
          fun long => none_ ⟨vpn, long⟩
        omega
  · rintro ⟨-, labels, plain, vpn, inside⟩
    have room : 3 * (k + 1) ≤ addrBytes (bitsOf isVPN addPath m len (base + off) off) := by omega
    have bounds : rdOctets isVPN addPath m len (base + off) off * 8 + 24 * (k + 1) ≤
        bitsOf isVPN addPath m len (base + off) off ∧
        addrBytes (bitsOf isVPN addPath m len (base + off) off) - 3 * (k + 1) -
          rdOctets isVPN addPath m len (base + off) off ≤ 16 := by
      cases isVPN with
      | false =>
        have := plain rfl
        rw [if_neg (by simp)] at rd
        omega
      | true =>
        have := vpn rfl
        simp only [true_and] at rd
        split at rd <;> omega
    refine ⟨by dsimp only; omega, ?_, by dsimp only; omega, (inside_iff_extent octets room).mpr inside⟩
    dsimp only
    rw [entryLen, octets]
    omega

theorem entrySafe_iff {tuple : VpnTuple} {off : Nat} :
    EntrySafe isIPv4 isVPN addPath m base len ⟨tuple, base + off, off⟩ ↔
      ∃ k, LegalEntry isVPN addPath m base len off k := by
  constructor
  · intro safe
    rcases decodeLabel_cases m (stackOf isVPN addPath len (base + off) off)
      (addrBytes (bitsOf isVPN addPath m len (base + off) off)) with
      ⟨k, -, stack, octets⟩ | ⟨beyond, -⟩
    · exact ⟨k, (entrySafe_iff_of_ends stack octets).mp safe⟩
    · exact absurd safe.labels (not_le.mpr beyond)
  · rintro ⟨k, legal⟩
    have labels := legal.labels
    have bytes := addrBytes_eq (bitsOf isVPN addPath m len (base + off) off)
    have octets := decodeLabel_of_ends m _
      (addrBytes (bitsOf isVPN addPath m len (base + off) off)) legal.stack (by omega)
    exact (entrySafe_iff_of_ends legal.stack octets).mpr legal

/-- Where the next entry starts. -/
theorem next_eq {tuple : VpnTuple} {off : Nat}
    (room : labelOctets isVPN addPath m len (base + off) off ≤
      addrBytes (bitsOf isVPN addPath m len (base + off) off)) :
    (labelWalk isIPv4 isVPN addPath m len).next ⟨tuple, base + off, off⟩ =
      some ⟨(labelEntry isIPv4 isVPN addPath m len ⟨tuple, base + off, off⟩).tuple,
        base + (off + idOctets isVPN addPath len off + 1 +
          addrBytes (bitsOf isVPN addPath m len (base + off) off)),
        off + idOctets isVPN addPath len off + 1 +
          addrBytes (bitsOf isVPN addPath m len (base + off) off)⟩ := by
  have place : stackOf isVPN addPath len (base + off) off =
    base + off + idOctets isVPN addPath len off + 1 := rfl
  have data := @labelEntry_data isVPN addPath m len isIPv4 ⟨tuple, base + off, off⟩
  have count := @labelEntry_count isVPN addPath m len isIPv4 ⟨tuple, base + off, off⟩
  have rd : rdOctets isVPN addPath m len (base + off) off ≤
      addrBytes (bitsOf isVPN addPath m len (base + off) off) -
        labelOctets isVPN addPath m len (base + off) off := by
    unfold rdOctets
    split
    · rename_i given
      rw [hasRd, Bool.and_eq_true, decide_eq_true_eq] at given
      omega
    · exact Nat.zero_le _
  dsimp only [copiedOctets] at data count
  simp only [labelWalk, Option.some.injEq, LabelCursor.mk.injEq, true_and]
  omega

theorem safe_iff_legalFrom (left : Nat) : ∀ off tuple, len - off = left →
    ((∀ c ∈ (labelWalk isIPv4 isVPN addPath m len).turns ⟨tuple, base + off, off⟩,
        EntrySafe isIPv4 isVPN addPath m base len c) ↔ LegalFrom isVPN addPath m base len off) := by
  induction left using Nat.strong_induction_on with
  | _ left ih =>
    intro off tuple size
    by_cases more : off < len
    · have enters : (labelWalk isIPv4 isVPN addPath m len).count ⟨tuple, base + off, off⟩ <
          (labelWalk isIPv4 isVPN addPath m len).bound := more
      constructor
      · intro safe
        have here : EntrySafe isIPv4 isVPN addPath m base len ⟨tuple, base + off, off⟩ := by
          refine safe _ ?_
          rw [(labelWalk isIPv4 isVPN addPath m len).turns_next enters rfl]
          exact List.mem_cons_self
        obtain ⟨k, legal⟩ := entrySafe_iff.mp here
        rw [(labelWalk isIPv4 isVPN addPath m len).turns_next enters (next_eq here.labels),
          List.forall_mem_cons] at safe
        exact .entry more legal ((ih _ (by omega) _ _ rfl).mp safe.2)
      · intro legal
        cases legal with
        | done over_ => exact absurd more (not_lt.mpr over_)
        | @entry _ k _ legal rest =>
          have here : EntrySafe isIPv4 isVPN addPath m base len ⟨tuple, base + off, off⟩ :=
            entrySafe_iff.mpr ⟨k, legal⟩
          rw [(labelWalk isIPv4 isVPN addPath m len).turns_next enters (next_eq here.labels),
            List.forall_mem_cons]
          exact ⟨here, (ih _ (by omega) _ _ rfl).mpr rest⟩
    · have leaves : ¬ (labelWalk isIPv4 isVPN addPath m len).count ⟨tuple, base + off, off⟩ <
          (labelWalk isIPv4 isVPN addPath m len).bound := more
      rw [(labelWalk isIPv4 isVPN addPath m len).turns_done leaves]
      exact ⟨fun _ => .done (not_lt.mp more), fun _ c here => absurd here List.not_mem_nil⟩

end Section

/-- On any bytes, the entries of a labelled or VPN section keep within their own octets, the
address buffer and the section exactly if they are well formed, one behind the other. -/
theorem label_entries_safe_iff (isIPv4 isVPN : Bool) (stack : VpnTuple) (info : PeerInfo) (m : Mem)
    (base len : Nat) :
    (∀ c ∈ labelTurns isIPv4 isVPN m len stack info base,
        EntrySafe isIPv4 isVPN (addPathLabel info isIPv4 isVPN) m base len c) ↔
      LegalFrom isVPN (addPathLabel info isIPv4 isVPN) m base len 0 :=
  safe_iff_legalFrom (len - 0) 0 (labelStack isIPv4 stack) rfl

private def emptyTuple : VpnTuple :=
  ⟨⟨.labelUnicastV4, 0, [], List.replicate 16 0, 0, true, []⟩, [], [], 0⟩

/-- A section of one octet, a prefix of no bits: the three octets behind it are taken as its
label. -/
theorem zero_length_entry_unsafe :
    ¬ ∀ c ∈ labelTurns true false (memOf [0]) 1 emptyTuple PeerInfo.fresh 0,
      EntrySafe true false (addPathLabel PeerInfo.fresh true false) (memOf [0]) 0 1 c := by
  intro safe
  have here : (⟨labelStack true emptyTuple, 0, 0⟩ : LabelCursor) ∈
      labelTurns true false (memOf [0]) 1 emptyTuple PeerInfo.fresh 0 := by
    rw [labelTurns, CountingLoop.turns_next _ (by decide) rfl]
    exact List.mem_cons_self
  have labels := (safe _ here).labels
  revert labels
  decide +kernel

end SonicBmp.Bgp.LabelBounds
