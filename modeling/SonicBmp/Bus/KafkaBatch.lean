/- module: SonicBmp/Bus/KafkaBatch
   digest: The messages of the four batch printers: their headers and the sequence numbers of their rows. -/

import SonicBmp.Library.Batch
import SonicBmp.Bus.KafkaText

set_option autoImplicit false
set_option relaxedAutoImplicit false

namespace SonicBmp.Bus.KafkaBatch

open SonicBmp.Library.Printing
open SonicBmp.Library.Batch
open SonicBmp.Bgp.Common (EvpnTuple)
open SonicBmp.Bus.Interface
open SonicBmp.Bus.Kafka
open SonicBmp.Bus.KafkaText

/-! Batches as they are printed. -/

inductive BatchTopic
  | unicastPrefix | l3vpn | evpn | lsNode
  deriving DecidableEq

/-- `sizeof(buf2)`. -/
def BatchTopic.rowBuf : BatchTopic → Nat
  | .lsNode => 8192
  | _ => rowBufSize

structure NumberedRow where
  seq : Nat
  text : Text

structure Batch where
  topic : BatchTopic
  rows : List NumberedRow

def Batch.texts (b : Batch) : List Text := b.rows.map NumberedRow.text

/-- `prep_buf` as a string. -/
def Batch.prepBuf (b : Batch) : Text := catRows b.topic.rowBuf msgbusWorkingBufSize 0 b.texts

/-- How many rows are in the message. -/
def keptRows (b : Batch) : Nat := kept msgbusWorkingBufSize 0 b.texts

/-- `buf_len`. -/
def Batch.bufLen (b : Batch) : Nat := (b.texts.map List.length).sum

/-- What `produce` sends: the headers `L` and `R`, and the data behind them. -/
structure KafkaMessage where
  length : Nat
  rows : Nat
  data : Text

/-- Link-state nodes are sent with the length they were counted with, from a buffer that
was cleared before; `beyond` is the memory behind it. -/
def Batch.message (beyond : Nat → Char) (b : Batch) : KafkaMessage :=
  match b.topic with
  | .lsNode =>
    { length := b.bufLen
      rows := b.rows.length
      data := b.prepBuf ++
        List.replicate (min b.bufLen msgbusWorkingBufSize - b.prepBuf.length) '\x00' ++
        (List.range (b.bufLen - msgbusWorkingBufSize)).map beyond }
  | _ => { length := b.prepBuf.length, rows := b.rows.length, data := b.prepBuf }

/-! The bus, as far as the batches depend on it. -/

structure BatchBus where
  routerIp : Text
  unicastPrefixSeq : Nat
  l3vpnSeq : Nat
  evpnSeq : Nat
  lsNodeSeq : Nat

def BatchBus.seq (bus : BatchBus) : BatchTopic → Nat
  | .unicastPrefix => bus.unicastPrefixSeq
  | .l3vpn => bus.l3vpnSeq
  | .evpn => bus.evpnSeq
  | .lsNode => bus.lsNodeSeq

inductive BatchCall
  | router (ip : Text)
  | unicastPrefix (peer : KafkaPeer) (rib : List ObjRib) (attr : Option KafkaAttr)
      (code : UnicastPrefixActionCode)
  | l3vpn (peer : KafkaPeer) (vpn : List ObjVpn) (attr : Option KafkaAttr)
      (code : UnicastPrefixActionCode)
  | evpn (peer : KafkaPeer) (vpn : List EvpnTuple) (attr : Option KafkaAttr)
      (code : UnicastPrefixActionCode)
  | lsNode (peer : KafkaPeer) (attr : KafkaAttr) (nodes : List ObjLsNode)
      (code : UnicastPrefixActionCode)

def numberedRows {α : Type} (text : Nat → α → Text) : Nat → List α → List NumberedRow
  | _, [] => []
  | seq, x :: xs => ⟨seq, text seq x⟩ :: numberedRows text (seq + 1) xs

/-- The nodes of a batch, each with the text that `isis_area_id` holds when it is printed. -/
def withIsisAreas : Text → List ObjLsNode → List (Text × ObjLsNode)
  | _, [] => []
  | before, node :: nodes =>
    (node.isisText before, node) :: withIsisAreas (node.isisText before) nodes

def BatchBus.step (md5 : Md5) (env : PrintEnv) (bus : BatchBus) :
    BatchCall → BatchBus × Option Batch
  | .router ip => ({ bus with routerIp := ip }, none)
  | .unicastPrefix peer rib attr code =>
    if abandoned rib attr code then (bus, none)
    else
      ({ bus with unicastPrefixSeq := bus.unicastPrefixSeq + rib.length },
        some ⟨.unicastPrefix, numberedRows
          (fun seq x => (unicastRow md5 ⟨bus.routerIp, peer, attr, code⟩ seq x).text)
          bus.unicastPrefixSeq rib⟩)
  | .l3vpn peer vpn attr code =>
    if abandoned vpn attr code then (bus, none)
    else
      ({ bus with l3vpnSeq := bus.l3vpnSeq + vpn.length },
        some ⟨.l3vpn, numberedRows
          (fun seq x => (vpnRow md5 ⟨bus.routerIp, peer, attr, code⟩ seq x).text)
          bus.l3vpnSeq vpn⟩)
  | .evpn peer vpn attr code =>
    if abandoned vpn attr code then (bus, none)
    else
      ({ bus with evpnSeq := bus.evpnSeq + vpn.length },
        some ⟨.evpn, numberedRows
          (fun seq x => tsvRow (evpnColumns md5 ⟨bus.routerIp, peer, attr, code⟩ seq x))
          bus.evpnSeq vpn⟩)
  | .lsNode peer attr nodes code =>
    ({ bus with lsNodeSeq := bus.lsNodeSeq + nodes.length },
      some ⟨.lsNode, numberedRows
        (fun seq x => tsvRow (lsNodeColumns env bus.routerIp peer attr code seq x.1 x.2))
        bus.lsNodeSeq (withIsisAreas [] nodes)⟩)

/-- A sequence of calls: the bus it leaves and the batches it printed, in order. -/
def BatchBus.run (md5 : Md5) (env : PrintEnv) : BatchBus → List BatchCall → BatchBus × List Batch
  | bus, [] => (bus, [])
  | bus, call :: calls =>
    let now := bus.step md5 env call
    let later := now.1.run md5 env calls
    (later.1, now.2.toList ++ later.2)

/-- The batches of one topic. -/
def BatchBus.batches (md5 : Md5) (env : PrintEnv) (bus : BatchBus) (calls : List BatchCall)
    (topic : BatchTopic) : List Batch :=
  (bus.run md5 env calls).2.filter (·.topic = topic)

/-! The bus of the whole build prints the same batches. -/

def view (lsNodeSeq : Nat) (bus : MsgBusKafka) : BatchBus :=
  ⟨bus.routerIp, bus.unicastPrefixSeq, bus.l3vpnSeq, bus.evpnSeq, lsNodeSeq⟩

/-- A call as far as it concerns the batches; link-state calls carry no nodes there. -/
def batchCall (bus : MsgBusKafka) : KafkaCall → List BatchCall
  | .updateRouter router code =>
    if (bus.updateRouter router code).2 = [] then [] else [.router router.ipAddr]
  | .updateUnicastPrefix peer rib attr code => [.unicastPrefix peer rib attr code]
  | .updateL3Vpn peer vpn attr code => [.l3vpn peer vpn attr code]
  | .updateEVPN peer vpn attr code => [.evpn peer vpn attr code]
  | _ => []

def batchCalls (md5 : Md5) : MsgBusKafka → List KafkaCall → List BatchCall
  | _, [] => []
  | bus, call :: calls => batchCall bus call ++ batchCalls md5 (bus.step md5 call).1 calls

/-- The batch that a record stands for; EVPN records keep the entries instead of a text. -/
def Printed : KafkaRecord → Batch → Prop
  | .unicastPrefix message rows, b =>
    b.topic = .unicastPrefix ∧ b.prepBuf = message ∧
      b.rows.map NumberedRow.seq = rows.map RouteRow.seq
  | .l3vpn message rows, b =>
    b.topic = .l3vpn ∧ b.prepBuf = message ∧ b.rows.map NumberedRow.seq = rows.map RouteRow.seq
  | .evpn seq _ entries _, b =>
    b.topic = .evpn ∧ b.rows.map NumberedRow.seq = List.range' seq entries.length
  | _, _ => False

def isBatch : KafkaRecord → Bool
  | .unicastPrefix _ _ | .l3vpn _ _ | .evpn _ _ _ _ => true
  | _ => false

theorem numberedRows_seq {α : Type} (text : Nat → α → Text) (seq : Nat) (xs : List α) :
    (numberedRows text seq xs).map NumberedRow.seq = List.range' seq xs.length := by
  induction xs generalizing seq with
  | nil => rfl
  | cons x xs ih =>
    rw [numberedRows, List.map_cons, ih, List.length_cons, List.range'_succ]

@[simp] theorem length_numberedRows {α : Type} (text : Nat → α → Text) (seq : Nat) (xs : List α) :
    (numberedRows text seq xs).length = xs.length := by
  simpa using congrArg List.length (numberedRows_seq text seq xs)

@[simp] theorem length_withIsisAreas (before : Text) (nodes : List ObjLsNode) :
    (withIsisAreas before nodes).length = nodes.length := by
  induction nodes generalizing before with
  | nil => rfl
  | cons node nodes ih => rw [withIsisAreas, List.length_cons, ih, List.length_cons]

theorem prepBuf_eq_catRows (bufLen : Nat) (rows : List RouteRow) :
    prepBuf bufLen rows =
      catRows rowBufSize msgbusWorkingBufSize bufLen (rows.map RouteRow.text) := by
  induction rows generalizing bufLen with
  | nil => rfl
  | cons row rows ih => simp only [prepBuf, List.map_cons, catRows, ih]

section

variable {α : Type} {row : Nat → α → RouteRow}

theorem numberedRows_text (seq : Nat) (xs : List α) :
    (numberedRows (fun seq x => (row seq x).text) seq xs).map NumberedRow.text =
      (rowsFrom row seq xs).map RouteRow.text := by
  induction xs generalizing seq with
  | nil => rfl
  | cons x xs ih => simp only [numberedRows, rowsFrom, List.map_cons, ih]

theorem rowsFrom_seq (own : ∀ seq x, (row seq x).seq = seq) (seq : Nat) (xs : List α) :
    (rowsFrom row seq xs).map RouteRow.seq = List.range' seq xs.length := by
  induction xs generalizing seq with
  | nil => rfl
  | cons x xs ih =>
    rw [rowsFrom, List.map_cons, ih, List.length_cons, List.range'_succ, own]

/-- A batch of routes is what `prepBuf` makes of its rows. -/
theorem printed_rows (own : ∀ seq x, (row seq x).seq = seq) (topic : BatchTopic)
    (buf : topic.rowBuf = rowBufSize) (seq : Nat) (xs : List α) :
    let b : Batch := ⟨topic, numberedRows (fun seq x => (row seq x).text) seq xs⟩
    b.prepBuf = prepBuf 0 (rowsFrom row seq xs) ∧
      b.rows.map NumberedRow.seq = (rowsFrom row seq xs).map RouteRow.seq := by
  constructor
  · rw [prepBuf_eq_catRows, ← numberedRows_text, ← buf]
    rfl
  · rw [rowsFrom_seq own, numberedRows_seq]

end

theorem BatchBus.run_append (md5 : Md5) (env : PrintEnv) (bus : BatchBus)
    (calls calls' : List BatchCall) :
    bus.run md5 env (calls ++ calls') =
      (((bus.run md5 env calls).1.run md5 env calls').1,
        (bus.run md5 env calls).2 ++ ((bus.run md5 env calls).1.run md5 env calls').2) := by
  induction calls generalizing bus with
  | nil => rfl
  | cons call calls ih => simp only [List.cons_append, BatchBus.run, ih, List.append_assoc]

/-- A router update is skipped, or it changes the address. -/
theorem view_updateRouter (n : Nat) (bus : MsgBusKafka) (router : ObjRouter)
    (code : RouterActionCode) :
    ((bus.updateRouter router code).2 = [] ∧
        view n (bus.updateRouter router code).1 = view n bus) ∨
      (bus.updateRouter router code).2 = [.router code bus.routerSeq router] ∧
        view n (bus.updateRouter router code).1 =
          { view n bus with routerIp := router.ipAddr } := by
  cases code with
  | first =>
    by_cases defined : bus.routerHash = HashId.zero
    · exact .inr (by simp [MsgBusKafka.updateRouter, defined, view, MsgBusKafka.produce])
    · exact .inl (by simp [MsgBusKafka.updateRouter, defined])
  | init => exact .inr ⟨rfl, rfl⟩
  | term => exact .inr ⟨rfl, rfl⟩

theorem view_updatePeer (md5 : Md5) (n : Nat) (bus : MsgBusKafka) (peer : KafkaPeer)
    (up : Option ObjPeerUpEvent) (down : Option ObjPeerDownEvent) (code : PeerActionCode) :
    view n (bus.updatePeer md5 peer up down code).1 = view n bus := by
  have cached (hash : Text) : view n (if bus.topicSel then bus.lookup hash else bus) = view n bus := by
    split <;> rfl
  cases code <;> simp only [MsgBusKafka.updatePeer] <;> split <;>
    first | rfl | exact cached _

/-- A peer update produces nothing or one record. -/
theorem updatePeer_records (md5 : Md5) (bus : MsgBusKafka) (peer : KafkaPeer)
    (up : Option ObjPeerUpEvent) (down : Option ObjPeerDownEvent) (code : PeerActionCode) :
    (bus.updatePeer md5 peer up down code).2 = [] ∨
      (bus.updatePeer md5 peer up down code).2 =
        [.peer code bus.peerSeq (peerHash md5 peer) peer up down] := by
  have cached (hash : Text) :
      (if bus.topicSel then bus.lookup hash else bus).peerSeq = bus.peerSeq := by
    split <;> rfl
  cases code <;> simp only [MsgBusKafka.updatePeer] <;> split
  all_goals first
    | exact .inl rfl
    | exact .inr rfl
    | exact .inr (by rw [cached])

/-- One call on the whole bus, seen as a call on the batches. -/
theorem step_printed (md5 : Md5) (env : PrintEnv) (n : Nat) (bus : MsgBusKafka)
    (call : KafkaCall) :
    ((view n bus).run md5 env (batchCall bus call)).1 = view n (bus.step md5 call).1 ∧
      List.Forall₂ Printed ((bus.step md5 call).2.filter isBatch)
        ((view n bus).run md5 env (batchCall bus call)).2 := by
  cases call with
  | updateRouter router code =>
    simp only [batchCall, MsgBusKafka.step]
    rcases view_updateRouter n bus router code with ⟨skipped, same⟩ | ⟨record, changed⟩
    · rw [if_pos skipped, skipped, same]
      exact ⟨rfl, .nil⟩
    · rw [record, if_neg (List.cons_ne_nil _ _), changed]
      exact ⟨rfl, .nil⟩
  | updatePeer peer up down code =>
    simp only [batchCall, MsgBusKafka.step]
    rw [view_updatePeer]
    rcases updatePeer_records md5 bus peer up down code with records | records
    all_goals
      rw [records]
      exact ⟨rfl, .nil⟩
  | updateUnicastPrefix peer rib attr code =>
    simp only [batchCall, BatchBus.run, BatchBus.step, MsgBusKafka.step,
      MsgBusKafka.updateUnicastPrefix]
    split
    · exact ⟨rfl, .nil⟩
    · have own : ∀ seq x, (unicastRow md5 ⟨bus.routerIp, peer, attr, code⟩ seq x).seq = seq :=
        fun _ _ => rfl
      obtain ⟨text, seqs⟩ := printed_rows own .unicastPrefix rfl bus.unicastPrefixSeq rib
      exact ⟨rfl, .cons ⟨rfl, text, seqs⟩ .nil⟩
  | updateL3Vpn peer vpn attr code =>
    simp only [batchCall, BatchBus.run, BatchBus.step, MsgBusKafka.step, MsgBusKafka.updateL3Vpn]
    split
    · exact ⟨rfl, .nil⟩
    · have own : ∀ seq x, (vpnRow md5 ⟨bus.routerIp, peer, attr, code⟩ seq x).seq = seq :=
        fun _ _ => rfl
      obtain ⟨text, seqs⟩ := printed_rows own .l3vpn rfl bus.l3vpnSeq vpn
      exact ⟨rfl, .cons ⟨rfl, text, seqs⟩ .nil⟩
  | updateEVPN peer vpn attr code =>
    simp only [batchCall, BatchBus.run, BatchBus.step, MsgBusKafka.step, MsgBusKafka.updateEVPN]
    split
    · exact ⟨rfl, .nil⟩
    · exact ⟨rfl, .cons ⟨rfl, numberedRows_seq _ _ _⟩ .nil⟩
  | sendBmpRaw peer data =>
    simp only [batchCall, MsgBusKafka.step, MsgBusKafka.sendBmpRaw]
    split <;> exact ⟨rfl, .nil⟩
  | _ => exact ⟨rfl, .nil⟩

/-- Whatever the bus is called with, its batch records are the batches printed here. -/
theorem run_printed (md5 : Md5) (env : PrintEnv) (n : Nat) (bus : MsgBusKafka)
    (calls : List KafkaCall) :
    List.Forall₂ Printed ((bus.run md5 calls).2.filter isBatch)
      ((view n bus).run md5 env (batchCalls md5 bus calls)).2 := by
  induction calls generalizing bus with
  | nil => exact .nil
  | cons call calls ih =>
    obtain ⟨after, printed⟩ := step_printed md5 env n bus call
    rw [MsgBusKafka.run, batchCalls, BatchBus.run_append, List.filter_append, after]
    exact List.rel_append printed (ih _)

end SonicBmp.Bus.KafkaBatch
