/- module: SonicBmp/Bmp/RecordFields
   digest: Router, peer and EVPN records as single lines of the documented number of fields. -/

import SonicBmp.Library.Tsv
import SonicBmp.Bus.KafkaBatch
import SonicBmp.Bmp.KafkaSession

set_option autoImplicit false
set_option relaxedAutoImplicit false

namespace SonicBmp.Bmp.RecordFields

open SonicBmp.Library.Printing
open SonicBmp.Library.Batch
open SonicBmp.Library.Tsv
open SonicBmp.Bgp.Common
open SonicBmp.Bus.Interface
open SonicBmp.Bus.Kafka
open SonicBmp.Bus.KafkaText
open SonicBmp.Bus.KafkaBatch
open SonicBmp.Bus.InfoText (tableName)
open SonicBmp.Bmp.Reader
open SonicBmp.Bmp.KafkaSession hiding routerAction

/-! The records as they are sent. -/

inductive RecordKind
  | router | peer | evpn

/-- The lengths of the tables in `MESSAGE_BUS_API.md`. -/
def RecordKind.fields : RecordKind → Nat
  | .router => 12
  | .peer => 31
  | .evpn => 40

structure Emitted where
  kind : RecordKind
  data : Text

/-- `sizeof(buf)` of `update_Router` and `update_Peer`. -/
def bufSize : Nat := 4096

/-- A router record goes out with the length `snprintf` returned: behind a cut row follow its
NUL and `stale`, the stack behind the buffer. -/
def routerData (stale : Nat → Char) (row : Text) : Text :=
  if row.length < bufSize then row
  else row.take (bufSize - 1) ++ '\x00' :: (List.range (row.length - bufSize)).map stale

def emittedRecord (env : PrintEnv) (stale : Nat → Char) (routerIp : Text) :
    KafkaRecord → List Emitted
  | .router code seq router =>
    [⟨.router, routerData stale (tsvRow (routerColumns env code seq router))⟩]
  | .peer code seq hash peer up down =>
    [⟨.peer, snprintf bufSize (tsvRow (peerColumns env routerIp code seq hash peer up down))⟩]
  | _ => []

def evpnBatch (md5 : Md5) (env : PrintEnv) (bus : MsgBusKafka) : KafkaCall → Option Batch
  | .updateEVPN peer vpn attr code =>
    ((view 0 bus).step md5 env (.evpn peer vpn attr code)).2
  | _ => none

/-- The rows that are in the message, each as far as the row buffer holds it. -/
def emittedRows (b : Batch) : List Emitted :=
  (b.texts.take (keptRows b)).map fun text => ⟨.evpn, snprintf b.topic.rowBuf text⟩

def emitted (md5 : Md5) (env : PrintEnv) (stale : Nat → Char) (bus : MsgBusKafka)
    (call : KafkaCall) : List Emitted :=
  (bus.step md5 call).2.flatMap (emittedRecord env stale bus.routerIp) ++
    (evpnBatch md5 env bus call).toList.flatMap emittedRows

/-- What a sequence of calls emits. -/
def emittedBy (md5 : Md5) (env : PrintEnv) (stale : Nat → Char) :
    MsgBusKafka → List KafkaCall → List Emitted
  | _, [] => []
  | bus, call :: calls =>
    emitted md5 env stale bus call ++ emittedBy md5 env stale (bus.step md5 call).1 calls

/-- Whatever the stack holds, every record is one line of the documented number of fields. -/
def SingleLines (md5 : Md5) (env : PrintEnv) (bus : MsgBusKafka) (calls : List KafkaCall) : Prop :=
  ∀ stale, ∀ e ∈ emittedBy md5 env stale bus calls, OneRecord e.kind.fields e.data

/-! The texts that can do harm. -/

/-- The columns of a router record that are printed as they are. -/
def routerTexts (env : PrintEnv) (router : ObjRouter) : List Text :=
  [routerName env router, router.ipAddr, router.termReasonText,
    env.timestamp router.timestampSecs router.timestampUs, router.bgpId]

def eventTexts : Option ObjPeerUpEvent → Option ObjPeerDownEvent → PeerActionCode → List Text
  | some up, _, .up => [up.localIp, up.localBgpId, up.sentCap, up.recvCap]
  | _, some down, .down => [down.errorText]
  | _, _, _ => []

def peerTexts (env : PrintEnv) (routerIp : Text) (code : PeerActionCode) (peer : KafkaPeer)
    (up : Option ObjPeerUpEvent) (down : Option ObjPeerDownEvent) : List Text :=
  [env.hostname peer.peer.peerAddr, peer.peer.peerBgpId, routerIp, peer.timestamp,
      peer.peer.peerAddr, peer.peer.peerRd] ++
    eventTexts up down code ++ [if code = .down then [] else tableName env.beyond peer.peer]

/-- A router record must not be cut. A peer record that is cut has lost its line feed, and is
a record only when another one stands at the cut. -/
def CleanRecord (env : PrintEnv) (routerIp : Text) : KafkaRecord → Prop
  | .router code seq router =>
    (tsvRow (routerColumns env code seq router)).length < bufSize ∧
      ∀ text ∈ routerTexts env router, Plain text
  | .peer code seq hash peer up down =>
    let row := tsvRow (peerColumns env routerIp code seq hash peer up down)
    if row.length < bufSize then ∀ text ∈ peerTexts env routerIp code peer up down, Plain text
    else OneRecord RecordKind.peer.fields (row.take (bufSize - 1))
  | _ => True

/-- An EVPN row is printed with a column less than documented: it has the right number of
fields only when a text brings in one tab. -/
def CleanRow (columns : List Text) : Prop :=
  let row := tsvRow columns
  if row.length < rowBufSize then
    (∀ column ∈ columns, '\n' ∉ column) ∧ (columns.map (List.count '\t')).sum = 1
  else OneRecord RecordKind.evpn.fields (row.take (rowBufSize - 1))

def evpnRows (md5 : Md5) (ctx : RowContext) : Nat → List EvpnTuple → List (List Text)
  | _, [] => []
  | seq, x :: xs => evpnColumns md5 ctx seq x :: evpnRows md5 ctx (seq + 1) xs

def Clean (md5 : Md5) (env : PrintEnv) (bus : MsgBusKafka) (call : KafkaCall) : Prop :=
  (∀ record ∈ (bus.step md5 call).2, CleanRecord env bus.routerIp record) ∧
    match call with
    | .updateEVPN peer vpn attr code =>
      let rows := evpnRows md5 ⟨bus.routerIp, peer, attr, code⟩ bus.evpnSeq vpn
      abandoned vpn attr code = true ∨
        ∀ columns ∈ rows.take (kept msgbusWorkingBufSize 0 (rows.map tsvRow)), CleanRow columns
    | _ => True

def CleanRun (md5 : Md5) (env : PrintEnv) : MsgBusKafka → List KafkaCall → Prop
  | _, [] => True
  | bus, call :: calls => Clean md5 env bus call ∧ CleanRun md5 env (bus.step md5 call).1 calls

/-! Columns that are always plain. -/

theorem plain_of_alphanum {text : Text} (alphanum : text.all Char.isAlphanum = true) :
    Plain text := by
  have class_of := List.all_eq_true.mp alphanum
  exact ⟨fun feed => absurd (class_of _ feed) (by decide),
    fun tab => absurd (class_of _ tab) (by decide)⟩

@[simp] theorem plain_nil : Plain [] := ⟨List.not_mem_nil, List.not_mem_nil⟩

@[simp] theorem plain_decimal (n : Nat) : Plain (decimal n) := by
  apply plain_of_alphanum
  rw [List.all_eq_true]
  exact fun c here => decimal_isAlphanum here

@[simp] theorem plain_bit (b : Bool) : Plain (bit b) := by
  cases b <;> exact plain_of_alphanum (by decide)

@[simp] theorem plain_routerAction (code : RouterActionCode) : Plain (routerAction code) := by
  cases code <;> exact plain_of_alphanum (by decide)

@[simp] theorem plain_peerAction (code : PeerActionCode) : Plain (peerAction code) := by
  cases code <;> exact plain_of_alphanum (by decide)

@[simp] theorem plain_hashToStr (hash : HashId) : Plain (hashToStr hash) := by
  have digit : ∀ n : Fin 16, n.val.digitChar.isAlphanum = true := by decide
  apply plain_of_alphanum
  rw [List.all_eq_true]
  intro c here
  obtain ⟨b, -, here⟩ := List.mem_flatMap.mp here
  have high : b.toNat / 16 < 16 := Nat.div_lt_of_lt_mul b.toNat_lt
  have low : b.toNat % 16 < 16 := Nat.mod_lt _ (by decide)
  rcases List.mem_pair.mp here with rfl | rfl
  · exact digit ⟨_, high⟩
  · exact digit ⟨_, low⟩

/-- The replacement leaves neither line feeds nor tabs. -/
@[simp] theorem plain_escaped (text : Text) : Plain (escaped text) := by
  constructor
  all_goals
    intro here
    obtain ⟨c, -, here⟩ := List.mem_flatMap.mp here
    split at here
    · exact absurd here (by decide)
    · split at here
      · exact absurd here (by decide)
      · rename_i noFeed noTab
        obtain rfl := List.mem_singleton.mp here
        contradiction

theorem routerColumns_plain_iff (env : PrintEnv) (code : RouterActionCode) (seq : Nat)
    (router : ObjRouter) :
    (∀ column ∈ routerColumns env code seq router, Plain column) ↔
      ∀ text ∈ routerTexts env router, Plain text := by
  simp only [routerColumns, routerTexts, List.forall_mem_cons, plain_routerAction, plain_decimal,
    plain_hashToStr, plain_escaped, true_and]

theorem eventColumns_plain_iff (up : Option ObjPeerUpEvent) (down : Option ObjPeerDownEvent)
    (code : PeerActionCode) :
    (∀ column ∈ eventColumns up down code, Plain column) ↔
      ∀ text ∈ eventTexts up down code, Plain text := by
  cases up <;> cases down <;> cases code <;> simp [eventColumns, eventTexts]

theorem length_eventColumns (up : Option ObjPeerUpEvent) (down : Option ObjPeerDownEvent)
    (code : PeerActionCode) : (eventColumns up down code).length = 14 := by
  cases up <;> cases down <;> cases code <;> rfl

theorem peerColumns_plain_iff (env : PrintEnv) (routerIp : Text) (code : PeerActionCode)
    (seq : Nat) (hash : HashId) (peer : KafkaPeer) (up : Option ObjPeerUpEvent)
    (down : Option ObjPeerDownEvent) :
    (∀ column ∈ peerColumns env routerIp code seq (hashToStr hash) peer up down, Plain column) ↔
      ∀ text ∈ peerTexts env routerIp code peer up down, Plain text := by
  simp only [peerColumns, peerTexts, List.forall_mem_append, List.forall_mem_cons,
    eventColumns_plain_iff, plain_peerAction, plain_decimal, plain_hashToStr, plain_bit, true_and]

/-! One record. -/

theorem oneRecord_snprintf (n size : Nat) (row : Text) :
    OneRecord n (snprintf size row) ↔
      if row.length < size then OneRecord n row else OneRecord n (row.take (size - 1)) := by
  split
  · rename_i short
    rw [snprintf, List.take_of_length_le (by omega)]
  · rfl

theorem oneRecord_routerData (row : Text) (n : Nat) :
    (∀ stale, OneRecord n (routerData stale row)) ↔ row.length < bufSize ∧ OneRecord n row := by
  by_cases short : row.length < bufSize
  · simp [routerData, short]
  · simp only [short, false_and, iff_false, not_forall]
    -- with NULs on the stack, the last character is one
    refine ⟨fun _ => '\x00', fun record => ?_⟩
    rw [routerData, if_neg short, List.map_const', List.length_range, ← List.replicate_succ,
      List.replicate_succ', ← List.append_assoc] at record
    exact absurd record.last (by decide)

/-- The hash in a peer record is a printed one. -/
def HashPrinted (md5 : Md5) : KafkaRecord → Prop
  | .peer _ _ hash peer _ _ => hash = peerHash md5 peer
  | _ => True

theorem emittedRecord_iff {md5 : Md5} (env : PrintEnv) (routerIp : Text) {record : KafkaRecord}
    (printed : HashPrinted md5 record) :
    (∀ stale, ∀ e ∈ emittedRecord env stale routerIp record, OneRecord e.kind.fields e.data) ↔
      CleanRecord env routerIp record := by
  cases record with
  | router code seq router =>
    have some_column : routerColumns env code seq router ≠ [] := List.cons_ne_nil _ _
    simp only [emittedRecord, List.forall_mem_singleton, CleanRecord]
    rw [oneRecord_routerData, ← routerColumns_plain_iff env code seq,
      ← oneRecord_iff_plain some_column]
    rfl
  | peer code seq hash peer up down =>
    obtain rfl : hash = peerHash md5 peer := printed
    have plain := peerColumns_plain_iff env routerIp code seq (md5 (peerHashInput peer.peer
      peer.routerHashId)) peer up down
    have length : (peerColumns env routerIp code seq (peerHash md5 peer) peer up down).length =
        RecordKind.peer.fields := by
      simp [peerColumns, length_eventColumns, RecordKind.fields]
    simp only [emittedRecord, List.forall_mem_singleton, CleanRecord, forall_const]
    rw [oneRecord_snprintf, ← plain, ← oneRecord_iff_plain (by simp [peerColumns]), ← length]
    rfl
  | _ => simp [emittedRecord, CleanRecord]

theorem step_hashPrinted (md5 : Md5) (bus : MsgBusKafka) (call : KafkaCall) :
    ∀ record ∈ (bus.step md5 call).2, HashPrinted md5 record := by
  cases call with
  | updateRouter router code =>
    rcases view_updateRouter 0 bus router code with ⟨records, -⟩ | ⟨records, -⟩ <;>
      simp [MsgBusKafka.step, records, HashPrinted]
  | updatePeer peer up down code =>
    rcases updatePeer_records md5 bus peer up down code with records | records <;>
      simp [MsgBusKafka.step, records, HashPrinted]
  | updateUnicastPrefix peer rib attr code =>
    simp only [MsgBusKafka.step, MsgBusKafka.updateUnicastPrefix]
    split <;> simp [HashPrinted]
  | updateL3Vpn peer vpn attr code =>
    simp only [MsgBusKafka.step, MsgBusKafka.updateL3Vpn]
    split <;> simp [HashPrinted]
  | updateEVPN peer vpn attr code =>
    simp only [MsgBusKafka.step, MsgBusKafka.updateEVPN]
    split <;> simp [HashPrinted]
  | sendBmpRaw peer data =>
    simp only [MsgBusKafka.step, MsgBusKafka.sendBmpRaw]
    split <;> simp [HashPrinted]
  | updateBaseAttribute peer attr | updateLs object peer rows code | addStatReport peer stats =>
    exact List.forall_mem_singleton.mpr trivial

/-! EVPN rows. -/

theorem length_evpnColumns (md5 : Md5) (ctx : RowContext) (seq : Nat) (evpn : EvpnTuple) :
    (evpnColumns md5 ctx seq evpn).length = 39 := by
  have attrs (attr : Option ObjPathAttr) : (attrColumns attr).length = 14 := by
    cases attr <;> rfl
  simp [evpnColumns, attrs]

theorem length_of_mem_evpnRows {md5 : Md5} {ctx : RowContext} {seq : Nat} {vpn : List EvpnTuple}
    {columns : List Text} (here : columns ∈ evpnRows md5 ctx seq vpn) : columns.length = 39 := by
  induction vpn generalizing seq with
  | nil => exact absurd here List.not_mem_nil
  | cons x xs ih =>
    rcases List.mem_cons.mp here with rfl | later
    · exact length_evpnColumns md5 ctx seq x
    · exact ih later

theorem evpnRow_iff {columns : List Text} (length : columns.length = 39) :
    OneRecord RecordKind.evpn.fields (snprintf rowBufSize (tsvRow columns)) ↔
      CleanRow columns := by
  have some_column : columns ≠ [] := by
    rintro rfl
    exact absurd length (by decide)
  have one_tab : (columns.map (List.count '\t')).sum + columns.length = RecordKind.evpn.fields ↔
      (columns.map (List.count '\t')).sum = 1 := by
    rw [length, RecordKind.fields]
    omega
  rw [oneRecord_snprintf, CleanRow, ← one_tab, ← oneRecord_fields some_column]
  rfl

theorem texts_evpn (md5 : Md5) (ctx : RowContext) (seq : Nat) (vpn : List EvpnTuple) :
    (numberedRows (fun seq x => tsvRow (evpnColumns md5 ctx seq x)) seq vpn).map NumberedRow.text =
      (evpnRows md5 ctx seq vpn).map tsvRow := by
  induction vpn generalizing seq with
  | nil => rfl
  | cons x xs ih => simp only [numberedRows, evpnRows, List.map_cons, ih]

theorem emittedRows_iff (md5 : Md5) (ctx : RowContext) (seq : Nat) (vpn : List EvpnTuple) :
    let rows := evpnRows md5 ctx seq vpn
    (∀ e ∈ emittedRows ⟨.evpn, numberedRows (fun seq x => tsvRow (evpnColumns md5 ctx seq x))
        seq vpn⟩, OneRecord e.kind.fields e.data) ↔
      ∀ columns ∈ rows.take (kept msgbusWorkingBufSize 0 (rows.map tsvRow)), CleanRow columns := by
  intro rows
  have texts := texts_evpn md5 ctx seq vpn
  rw [emittedRows, keptRows, Batch.texts, texts, ← List.map_take, List.map_map,
    List.forall_mem_map]
  exact forall₂_congr fun columns here =>
    evpnRow_iff (length_of_mem_evpnRows (List.mem_of_mem_take here))

/-! Runs. -/

/-- One call emits single lines exactly when its texts are clean. -/
theorem emitted_iff (md5 : Md5) (env : PrintEnv) (bus : MsgBusKafka) (call : KafkaCall) :
    (∀ stale, ∀ e ∈ emitted md5 env stale bus call, OneRecord e.kind.fields e.data) ↔
      Clean md5 env bus call := by
  have records : (∀ stale, ∀ e ∈ (bus.step md5 call).2.flatMap
        (emittedRecord env stale bus.routerIp), OneRecord e.kind.fields e.data) ↔
      ∀ record ∈ (bus.step md5 call).2, CleanRecord env bus.routerIp record := by
    simp only [List.mem_flatMap, forall_exists_index, and_imp]
    constructor
    · intro all record here
      exact (emittedRecord_iff env bus.routerIp (step_hashPrinted md5 bus call record here)).mp
        fun stale e printed => all stale e record here printed
    · intro clean stale e record here printed
      exact (emittedRecord_iff env bus.routerIp (step_hashPrinted md5 bus call record here)).mpr
        (clean record here) stale e printed
  simp only [emitted, List.forall_mem_append, forall_and, records, forall_const, Clean]
  refine and_congr_right fun _ => ?_
  cases call with
  | updateEVPN peer vpn attr code =>
    simp only [evpnBatch, BatchBus.step]
    by_cases stop : abandoned vpn attr code = true
    · simp [stop]
    · rw [if_neg stop, Option.toList_some, List.flatMap_singleton, or_iff_right stop]
      exact emittedRows_iff md5 _ _ vpn
  | _ => simp [evpnBatch]

theorem singleLines_iff (md5 : Md5) (env : PrintEnv) (bus : MsgBusKafka)
    (calls : List KafkaCall) : SingleLines md5 env bus calls ↔ CleanRun md5 env bus calls := by
  induction calls generalizing bus with
  | nil => exact ⟨fun _ => trivial, fun _ _ e here => absurd here List.not_mem_nil⟩
  | cons call calls ih =>
    rw [CleanRun, ← ih, ← emitted_iff]
    simp only [SingleLines, emittedBy, List.forall_mem_append, forall_and]

/-! Messages. -/

/-- The reader with router objects as the information TLVs leave them, next to the bytes
`stack` behind the buffer that they are copied from. -/
def wired {D : Decoders} (stack : List UInt8) (env : KafkaEnv D) : KafkaEnv D :=
  { env with
    initRouter := fun tlvs =>
      Bus.InfoText.initRouter (env.initRouter tlvs).hashId env.routerIp stack tlvs
    termRouter := fun tlvs => Bus.InfoText.termRouter env.routerHashId env.routerIp stack tlvs }

private def plainPrint : PrintEnv := ⟨fun _ => [], fun _ _ => [], []⟩

private def routerEnv : KafkaEnv Decoders.silent where
  toEnv := quietEnv
  routerHashId := Vector.replicate 16 1
  initRouter := fun _ => ⟨Vector.replicate 16 1, [], [], [], [], 0, [], [], [], 0, 0⟩
  termRouter := fun _ => ⟨Vector.replicate 16 1, [], [], [], [], 0, [], [], [], 0, 0⟩
  memoryHash := HashId.zero
  timestamp := fun _ _ => []
  lsSize := fun _ _ => 0

/-- An initiation message with the system name `a`, tab, `b`. -/
private def tabbedName : List UInt8 := [3, 0, 0, 0, 13, 4] ++ [0, 2, 0, 3, 97, 9, 98]

end SonicBmp.Bmp.RecordFields
