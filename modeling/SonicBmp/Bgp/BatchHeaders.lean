/- module: SonicBmp/Bgp/BatchHeaders
   digest: Headers and sequence numbers of the batch messages, over whole runs of the bus. -/

import SonicBmp.Bgp.ExtCommunity
import SonicBmp.Bgp.KafkaDb
import SonicBmp.Bus.KafkaBatch

set_option autoImplicit false
set_option relaxedAutoImplicit false

namespace SonicBmp.Bgp.BatchHeaders

open SonicBmp.Library.Memory
open SonicBmp.Library.Printing
open SonicBmp.Library.Batch
open SonicBmp.Bgp.Common
open SonicBmp.Bgp.Update
open SonicBmp.Bgp.ExtCommunity
open SonicBmp.Bgp.KafkaDb
open SonicBmp.Bus.Interface
open SonicBmp.Bus.Kafka
open SonicBmp.Bus.KafkaText
open SonicBmp.Bus.KafkaBatch

/-! One message. -/

/-- The sequence numbers of the rows in the message. -/
def producedSeqs (b : Batch) : List Nat := (b.rows.take (keptRows b)).map NumberedRow.seq

/-- The line feeds of the rows that are in the message, as far as the row buffer holds them,
and for link-state nodes those in the memory behind the message buffer. -/
def lineFeeds (beyond : Nat → Char) (b : Batch) : Nat :=
  ((b.texts.take (keptRows b)).map fun text => (snprintf b.topic.rowBuf text).count '\n').sum +
    if b.topic = .lsNode then
      ((List.range (b.bufLen - msgbusWorkingBufSize)).map beyond).count '\n'
    else 0

theorem length_message (beyond : Nat → Char) (b : Batch) :
    (b.message beyond).length = (b.message beyond).data.length := by
  have bounds := length_catRows_le b.topic.rowBuf msgbusWorkingBufSize 0 b.texts
  have printed : b.prepBuf.length ≤ b.bufLen := bounds.1
  have held : b.prepBuf.length ≤ msgbusWorkingBufSize := bounds.2
  unfold Batch.message
  split
  · simp only [List.length_append, List.length_replicate, List.length_map, List.length_range]
    omega
  · rfl

theorem rows_message (beyond : Nat → Char) (b : Batch) :
    (b.message beyond).rows = b.rows.length := by
  unfold Batch.message
  split <;> rfl

theorem count_prepBuf (b : Batch) :
    b.prepBuf.count '\n' = ((b.texts.take (keptRows b)).map fun text =>
      (snprintf b.topic.rowBuf text).count '\n').sum := by
  rw [Batch.prepBuf, catRows_eq_take, List.count_flatMap]
  rfl

theorem count_message (beyond : Nat → Char) (b : Batch) :
    (b.message beyond).data.count '\n' = lineFeeds beyond b := by
  unfold Batch.message lineFeeds
  rw [← count_prepBuf]
  split
  · rename_i node
    rw [if_pos node, List.count_append, List.count_append, List.count_replicate]
    simp
  · rename_i other
    rw [if_neg other]
    rfl

/-! Runs. -/

/-- Every message has the headers `L` and `R` that its data calls for, and the sequence
numbers go on from `start` without a gap. -/
structure Sound (beyond : Nat → Char) (start : Nat) (batches : List Batch) : Prop where
  length : ∀ b ∈ batches, (b.message beyond).length = (b.message beyond).data.length
  rows : ∀ b ∈ batches, (b.message beyond).rows = (b.message beyond).data.count '\n'
  noGap : batches.flatMap producedSeqs =
    List.range' start (batches.flatMap producedSeqs).length

/-- A call numbers its rows from the counter of its topic on, and counts them. -/
theorem step_numbers (md5 : Md5) (env : PrintEnv) (bus : BatchBus) (call : BatchCall)
    (topic : BatchTopic) :
    match (bus.step md5 env call).2 with
    | none => (bus.step md5 env call).1.seq topic = bus.seq topic
    | some b =>
      b.rows.map NumberedRow.seq = List.range' (bus.seq b.topic) b.rows.length ∧
        (bus.step md5 env call).1.seq topic =
          if b.topic = topic then bus.seq topic + b.rows.length else bus.seq topic := by
  cases call with
  | router ip => cases topic <;> rfl
  | unicastPrefix peer entries attr code | l3vpn peer entries attr code
  | evpn peer entries attr code =>
    by_cases stop : abandoned entries attr code = true
    · simp only [BatchBus.step, if_pos stop]
    · simp only [BatchBus.step, if_neg stop, length_numberedRows, numberedRows_seq]
      exact ⟨rfl, by cases topic <;> rfl⟩
  | lsNode peer attr nodes code =>
    simp only [BatchBus.step, length_numberedRows, numberedRows_seq, length_withIsisAreas]
    exact ⟨rfl, by cases topic <;> rfl⟩

theorem producedSeqs_eq {b : Batch} {start : Nat}
    (numbered : b.rows.map NumberedRow.seq = List.range' start b.rows.length) :
    producedSeqs b = List.range' start (keptRows b) := by
  have bounded : keptRows b ≤ b.rows.length :=
    (kept_le_length _ _ _).trans_eq (List.length_map _)
  obtain ⟨leftOut, split⟩ := Nat.exists_eq_add_of_le bounded
  rw [producedSeqs, List.map_take, numbered, split, ← List.range'_append_1,
    List.take_left' List.length_range']

theorem batches_numbers (md5 : Md5) (env : PrintEnv) (bus : BatchBus) (calls : List BatchCall)
    (topic : BatchTopic) :
    (bus.batches md5 env calls topic).flatMap producedSeqs =
      keptNumbers (bus.seq topic)
        ((bus.batches md5 env calls topic).map fun b => (b.rows.length, keptRows b)) := by
  induction calls generalizing bus with
  | nil => rfl
  | cons call calls ih =>
    have later := ih (bus.step md5 env call).1
    have numbers := step_numbers md5 env bus call topic
    have first : bus.batches md5 env (call :: calls) topic =
        (bus.step md5 env call).2.toList.filter (·.topic = topic) ++
          (bus.step md5 env call).1.batches md5 env calls topic := List.filter_append ..
    rw [first, List.flatMap_append, List.map_append, later]
    cases made : (bus.step md5 env call).2 with
    | none =>
      rw [made] at numbers
      rw [numbers]
      rfl
    | some b =>
      rw [made] at numbers
      obtain ⟨numbered, counted⟩ := numbers
      rw [counted]
      by_cases own : b.topic = topic
      · subst own
        simp [keptNumbers, producedSeqs_eq numbered]
      · simp [own]

private def publisher : Publisher (withExtCommunities Decoders.silent) where
  md5 := fun _ => HashId.zero
  peer := ⟨ObjBgpPeer.zero, HashId.zero, HashId.zero, []⟩
  lsSize := fun _ _ => 0
  memoryHash := HashId.zero

private def plainEnv : PrintEnv := ⟨fun _ => [], fun _ _ => [], []⟩

/-- NEXT_HOP `10.0.0.1` and an EVPN MAC mobility community with the flags octet 10, for
`10.0.0.0/8`. -/
private def mobilityUpdate : List UInt8 :=
  bgpUpdate [] ([0x40, 3, 4, 10, 0, 0, 1] ++ [0xc0, 16, 8, 6, 0, 10, 0, 0, 0, 0, 1]) [8, 10]

private def mobilityCalls : List BatchCall :=
  batchCalls (fun _ => HashId.zero) (MsgBusKafka.new true)
    (handleUpdate (withExtCommunities Decoders.silent) (updateDBKafka publisher) PeerInfo.fresh
      (memOf mobilityUpdate) 0 mobilityUpdate.length).calls

private def freshBus : BatchBus := view 0 (MsgBusKafka.new true)

end SonicBmp.Bgp.BatchHeaders
