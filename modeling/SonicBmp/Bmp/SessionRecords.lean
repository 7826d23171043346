/- module: SonicBmp/Bmp/SessionRecords
   digest: The sequence numbers of the records of whole sessions. -/

import SonicBmp.Bmp.Builds
import SonicBmp.Bus.KafkaBatch

set_option autoImplicit false
set_option relaxedAutoImplicit false

namespace SonicBmp.Bmp.SessionRecords

open SonicBmp.Library.Printing (Text)
open SonicBmp.Library.Throwing
open SonicBmp.Bgp.Common
open SonicBmp.Bus.Interface
open SonicBmp.Bus.Kafka
open SonicBmp.Bus.KafkaBatch (rowsFrom_seq)
open SonicBmp.Bmp.Reader
open SonicBmp.Bmp.KafkaSession
open SonicBmp.Bmp.Builds

/-! Sequence numbers. -/

/-- The topics whose records are numbered. -/
inductive SeqTopic
  | router | peer | baseAttribute | unicastPrefix | l3vpn | evpn | bmpStat
  deriving DecidableEq

def SeqTopic.seq (bus : MsgBusKafka) : SeqTopic → Nat
  | .router => bus.routerSeq
  | .peer => bus.peerSeq
  | .baseAttribute => bus.baseAttrSeq
  | .unicastPrefix => bus.unicastPrefixSeq
  | .l3vpn => bus.l3vpnSeq
  | .evpn => bus.evpnSeq
  | .bmpStat => bus.bmpStatSeq

/-- The numbers that a record shows under a topic, row by row. -/
def SeqTopic.shown : SeqTopic → KafkaRecord → List Nat
  | .router, .router _ seq _ => [seq]
  | .peer, .peer _ seq _ _ _ _ => [seq]
  | .baseAttribute, .baseAttribute seq _ _ _ => [seq]
  | .unicastPrefix, .unicastPrefix _ rows => rows.map RouteRow.seq
  | .l3vpn, .l3vpn _ rows => rows.map RouteRow.seq
  | .evpn, .evpn seq _ entries _ => List.range' seq entries.length
  | .bmpStat, .bmpStat seq _ _ => [seq]
  | _, _ => []

/-- From one bus to another the records show the numbers between their counters. -/
def Counts (topic : SeqTopic) (bus bus' : MsgBusKafka) (records : List KafkaRecord) : Prop :=
  ∃ n, topic.seq bus' = topic.seq bus + n ∧
    records.flatMap topic.shown = List.range' (topic.seq bus) n

theorem Counts.append {topic : SeqTopic} {bus₁ bus₂ bus₃ : MsgBusKafka}
    {records records' : List KafkaRecord} (one : Counts topic bus₁ bus₂ records)
    (two : Counts topic bus₂ bus₃ records') : Counts topic bus₁ bus₃ (records ++ records') := by
  obtain ⟨n, moved, shown⟩ := one
  obtain ⟨n', moved', shown'⟩ := two
  refine ⟨n + n', by omega, ?_⟩
  rw [List.flatMap_append, shown, shown', moved, List.range'_append_1]

theorem counts_none {topic : SeqTopic} {bus bus' : MsgBusKafka} {records : List KafkaRecord}
    (same : topic.seq bus' = topic.seq bus) (silent : records.flatMap topic.shown = []) :
    Counts topic bus bus' records := ⟨0, same, silent⟩

/-- A bus that has produced one record of a topic. -/
theorem counts_one {topic : SeqTopic} {bus bus' : MsgBusKafka} {record : KafkaRecord}
    (mine : topic.shown record = [topic.seq bus] ∧ topic.seq bus' = topic.seq bus + 1 ∨
      topic.shown record = [] ∧ topic.seq bus' = topic.seq bus) :
    Counts topic bus bus' [record] := by
  rcases mine with ⟨shown, moved⟩ | ⟨shown, same⟩
  · exact ⟨1, moved, by simp [shown]⟩
  · exact counts_none same (by simp [shown])

theorem updateRouter_counts (topic : SeqTopic) (bus : MsgBusKafka) (router : ObjRouter)
    (code : RouterActionCode) :
    Counts topic bus (bus.updateRouter router code).1 (bus.updateRouter router code).2 := by
  have produced (bus' : MsgBusKafka) (same : ∀ topic : SeqTopic, topic.seq bus' = topic.seq bus) :
      Counts topic bus { bus' with routerIp := router.ipAddr, routerSeq := bus'.routerSeq + 1 }.produce
        [.router code bus'.routerSeq router] := by
    refine counts_one ?_
    cases topic with
    | router =>
      exact Or.inl ⟨congrArg (fun seq => [seq]) (same .router), congrArg (· + 1) (same .router)⟩
    | peer => exact Or.inr ⟨rfl, same .peer⟩
    | baseAttribute => exact Or.inr ⟨rfl, same .baseAttribute⟩
    | unicastPrefix => exact Or.inr ⟨rfl, same .unicastPrefix⟩
    | l3vpn => exact Or.inr ⟨rfl, same .l3vpn⟩
    | evpn => exact Or.inr ⟨rfl, same .evpn⟩
    | bmpStat => exact Or.inr ⟨rfl, same .bmpStat⟩
  cases code with
  | first =>
    by_cases defined : bus.routerHash = HashId.zero
    · have sent : bus.updateRouter router .first = _ :=
        if_neg (by simp [defined])
      rw [sent]
      exact produced { bus with routerHash := router.hashId } (by rintro ⟨⟩ <;> rfl)
    · have skipped : bus.updateRouter router .first = (bus, []) := if_pos ⟨rfl, defined⟩
      rw [skipped]
      exact counts_none rfl rfl
  | init => exact produced { bus with routerHash := router.hashId } (by rintro ⟨⟩ <;> rfl)
  | term => exact produced { bus with routerHash := HashId.zero } (by rintro ⟨⟩ <;> rfl)

theorem updatePeer_counts (md5 : Md5) (topic : SeqTopic) (bus : MsgBusKafka) (peer : KafkaPeer)
    (up : Option ObjPeerUpEvent) (down : Option ObjPeerDownEvent) (code : PeerActionCode) :
    Counts topic bus (bus.updatePeer md5 peer up down code).1
      (bus.updatePeer md5 peer up down code).2 := by
  have lookup (hash : Text) : topic.seq (bus.lookup hash) = topic.seq bus := by cases topic <;> rfl
  have erase (bus : MsgBusKafka) (hash : Text) : topic.seq (bus.erase hash) = topic.seq bus := by
    cases topic <;> rfl
  have cached : topic.seq (if bus.topicSel then bus.lookup (peerHash md5 peer) else bus) =
      topic.seq bus := by
    split
    · exact lookup _
    · rfl
  have produced (bus' : MsgBusKafka) (same : topic.seq bus' = topic.seq bus) :
      Counts topic bus { bus'.producePeer (peerHash md5 peer) with peerSeq := bus'.peerSeq + 1 }
        [.peer code bus'.peerSeq (peerHash md5 peer) peer up down] := by
    refine counts_one ?_
    cases topic with
    | peer => exact Or.inl ⟨congrArg (fun seq => [seq]) same, congrArg (· + 1) same⟩
    | _ => exact Or.inr ⟨rfl, same⟩
  cases code with
  | first =>
    simp only [MsgBusKafka.updatePeer]
    split
    · exact counts_none rfl rfl
    · exact produced _ cached
  | up =>
    simp only [MsgBusKafka.updatePeer]
    split
    · exact produced _ cached
    · exact counts_none cached rfl
  | down =>
    simp only [MsgBusKafka.updatePeer]
    split
    · exact produced _ ((erase _ _).trans (erase _ _))
    · exact counts_none (erase _ _) rfl

theorem step_counts (md5 : Md5) (topic : SeqTopic) (bus : MsgBusKafka) (call : KafkaCall) :
    Counts topic bus (bus.step md5 call).1 (bus.step md5 call).2 := by
  cases call with
  | updateRouter router code => exact updateRouter_counts topic bus router code
  | updatePeer peer up down code => exact updatePeer_counts md5 topic bus peer up down code
  | updateBaseAttribute peer attr =>
    cases topic with
    | baseAttribute => exact ⟨1, rfl, rfl⟩
    | _ => exact counts_none rfl rfl
  | updateUnicastPrefix peer rib attr code =>
    simp only [MsgBusKafka.step, MsgBusKafka.updateUnicastPrefix]
    split
    · exact counts_none rfl rfl
    · cases topic with
      | unicastPrefix => exact ⟨rib.length, rfl, by simp [SeqTopic.shown, SeqTopic.seq,
          @rowsFrom_seq _ (unicastRow md5 _) fun _ _ => rfl]⟩
      | _ => exact counts_none rfl rfl
  | updateL3Vpn peer vpn attr code =>
    simp only [MsgBusKafka.step, MsgBusKafka.updateL3Vpn]
    split
    · exact counts_none rfl rfl
    · cases topic with
      | l3vpn => exact ⟨vpn.length, rfl, by simp [SeqTopic.shown, SeqTopic.seq,
          @rowsFrom_seq _ (vpnRow md5 _) fun _ _ => rfl]⟩
      | _ => exact counts_none rfl rfl
  | updateEVPN peer vpn attr code =>
    simp only [MsgBusKafka.step, MsgBusKafka.updateEVPN]
    split
    · exact counts_none rfl rfl
    · cases topic with
      | evpn => exact ⟨vpn.length, rfl, List.append_nil _⟩
      | _ => exact counts_none rfl rfl
  | updateLs object peer rows code => exact counts_none (by cases topic <;> rfl) (by cases topic <;> rfl)
  | addStatReport peer stats =>
    cases topic with
    | bmpStat => exact ⟨1, rfl, rfl⟩
    | _ => exact counts_none rfl rfl
  | sendBmpRaw peer data =>
    simp only [MsgBusKafka.step, MsgBusKafka.sendBmpRaw]
    split <;> exact counts_none (by cases topic <;> rfl) (by cases topic <;> rfl)

theorem run_counts (md5 : Md5) (topic : SeqTopic) (bus : MsgBusKafka) (calls : List KafkaCall) :
    Counts topic bus (bus.run md5 calls).1 (bus.run md5 calls).2 := by
  induction calls generalizing bus with
  | nil => exact counts_none rfl rfl
  | cons call calls ih => exact (step_counts md5 topic bus call).append (ih _)

theorem destroy_counts (topic : SeqTopic) (bus : MsgBusKafka) :
    ∃ n, bus.destroy.flatMap topic.shown = List.range' (topic.seq bus) n := by
  unfold MsgBusKafka.destroy
  split
  · obtain ⟨n, -, shown⟩ := updateRouter_counts topic bus ⟨bus.routerHash, [], [],
      Library.Printing.snprintf 46 bus.routerIp, [], 65533, "Connection closed".toList, [], [], 0, 0⟩
      .term
    exact ⟨n, shown⟩
  · exact ⟨0, rfl⟩

end SonicBmp.Bmp.SessionRecords
