/- module: SonicBmp/Bgp/KafkaReplay
   digest: Replaying the unicast rows of an UPDATE against the routes it withdraws and advertises. -/

import SonicBmp.Bgp.RouteHash
import SonicBmp.Library.Replay

set_option autoImplicit false
set_option relaxedAutoImplicit false

namespace SonicBmp.Bgp.KafkaReplay

open SonicBmp.Library.Printing
open SonicBmp.Library.Memory
open SonicBmp.Library.Replay
open SonicBmp.Bgp.Common
open SonicBmp.Bgp.Nlri
open SonicBmp.Bgp.Update
open SonicBmp.Bgp.UpdateDb
open SonicBmp.Bgp.LabelCodec
open SonicBmp.Bgp.FamilyCodec
open SonicBmp.Bgp.KafkaDb
open SonicBmp.Bgp.RouteHash
open SonicBmp.Bus.Interface
open SonicBmp.Bus.Kafka

/-! The rows that a message holds whole. -/

def Uncut (rows : List RouteRow) (i : Nat) : Prop :=
  ∀ row, rows[i]? = some row → row.text.length < rowBufSize

/-- The characters printed up to the end of row `i`. -/
def printedUpTo (rows : List RouteRow) (i : Nat) : Nat :=
  ((rows.take (i + 1)).map (fun row => row.text.length)).sum

/-- Row `i` stands whole in its message: the printed length up to its end stays below the
buffer size, and neither it nor the row before it is cut. -/
def Stands (rows : List RouteRow) (i : Nat) : Prop :=
  printedUpTo rows i < msgbusWorkingBufSize ∧ Uncut rows i ∧ ∀ k, i = k + 1 → Uncut rows k

private theorem mem_wholeRows_from (rows : List RouteRow) (bufLen : Nat) (cut : Bool)
    (row : RouteRow) :
    row ∈ wholeRows bufLen cut rows ↔ ∃ i, rows[i]? = some row ∧
      bufLen + printedUpTo rows i < msgbusWorkingBufSize ∧ Uncut rows i ∧
      (∀ k, i = k + 1 → Uncut rows k) ∧ (i = 0 → cut = false) := by
  induction rows generalizing bufLen cut with
  | nil => simp [wholeRows]
  | cons r rows ih =>
    have later (i : Nat) : printedUpTo (r :: rows) (i + 1) =
        r.text.length + printedUpTo rows i := by
      simp [printedUpTo]
    have uncut (i : Nat) : Uncut (r :: rows) (i + 1) ↔ Uncut rows i := by
      simp [Uncut]
    have here : Uncut (r :: rows) 0 ↔ r.text.length < rowBufSize := by
      simp [Uncut]
    rw [← Nat.or_exists_add_one, wholeRows]
    split
    · rename_i room
      rw [List.mem_append, ih]
      apply or_congr
      · have first : printedUpTo (r :: rows) 0 = r.text.length := by simp [printedUpTo]
        rw [first, here]
        split
        · rename_i own
          simp [own.1, own.2, room, eq_comm]
        · rename_i other
          simp only [List.not_mem_nil, false_iff]
          rintro ⟨-, -, short, -, uncut_before⟩
          exact other ⟨short, uncut_before trivial⟩
      · refine exists_congr fun i => ?_
        rw [later, uncut, List.getElem?_cons_succ, Nat.add_assoc]
        have before : (∀ k, i + 1 = k + 1 → Uncut (r :: rows) k) ↔
            (∀ k, i = k + 1 → Uncut rows k) ∧
              (i = 0 → decide (rowBufSize ≤ r.text.length) = false) := by
          cases i with
          | zero => simp [here]
          | succ i => simp [uncut]
        rw [before]
        simp
    · rename_i full
      rw [ih]
      constructor
      · rintro ⟨i, -, room, -⟩
        omega
      · rintro (⟨-, room, -⟩ | ⟨i, -, room, -⟩)
        · simp only [printedUpTo, List.take_succ_cons, List.map_cons, List.sum_cons] at room
          omega
        · rw [later] at room
          omega

theorem mem_wholeRows (rows : List RouteRow) (row : RouteRow) :
    row ∈ wholeRows 0 false rows ↔ ∃ i, rows[i]? = some row ∧ Stands rows i := by
  simp [mem_wholeRows_from, Stands]

/-! Routes by the names they are published under. -/

/-- What a unicast row names its route by. -/
structure RouteKey where
  prefixText : Text
  prefixLen : Nat
  pathId : Nat
  labelled : Bool
  deriving DecidableEq

def ribKey (rib : ObjRib) : RouteKey :=
  ⟨rib.prefixText, rib.prefixLen, rib.pathId, decide (rib.labels ≠ [])⟩

def RouteIdentity.key (id : RouteIdentity) : RouteKey :=
  ⟨inetNtop id.isIPv4 (id.addr ++ List.replicate (16 - id.addr.length) 0), id.len, id.pathId,
    decide (id.safi ≠ bgpSafiUnicast)⟩

theorem prefixTuple_key {ap : Modes} (stack : VpnTuple) (e : WireRoute) (tuple : PrefixTuple)
    (shown : WireRoute.prefixTuple ap stack e = some tuple) :
    ribKey (ribEntry tuple) = RouteIdentity.key (e.identity ap) := by
  obtain ⟨text, len, pathId, labels, -⟩ := prefixTuple_ribEntry stack e tuple shown
  simp only [ribKey, RouteIdentity.key, text, len, pathId, ne_eq, labels]

/-- The keys of the unicast and labelled routes among those of a message. -/
def routeKeys (ap : Modes) (routes : List WireRoute) : List RouteKey :=
  (ofTopic .unicastPrefix routes).map (fun e => RouteIdentity.key (e.identity ap))

def rowEdit (row : RouteRow) : Edit RouteKey :=
  match row.code with
  | .add => .add (ribKey row.rib)
  | .del => .remove (ribKey row.rib)

variable {D : Decoders}

/-- The rows that the unicast messages hold whole, in the order they are published. -/
def publishedRows (records : List KafkaRecord) : List RouteRow :=
  (Topic.unicastPrefix.messages records).flatMap (wholeRows 0 false)

/-- The add rows and the del rows printed for parsed data. -/
def addRows (P : Publisher D) (bus : MsgBusKafka) (parsed : ParsedUpdateData D) : List RouteRow :=
  rowsFrom (unicastRow P.md5 ⟨bus.routerIp, P.peer, some (baseAttr P parsed.attrs), .add⟩)
    bus.unicastPrefixSeq (parsed.advertised.map ribEntry)

def delRows (P : Publisher D) (bus : MsgBusKafka) (parsed : ParsedUpdateData D) : List RouteRow :=
  rowsFrom (unicastRow P.md5 ⟨bus.routerIp, P.peer, none, .del⟩)
    (bus.unicastPrefixSeq + parsed.advertised.length) (parsed.withdrawn.map ribEntry)

/-- When the rows give what the message says: every advertised route has an add row that
stands, none of them has a del row that stands, and every route that is only withdrawn has
a del row that stands. -/
structure RowsExact (advertised withdrawn : List RouteKey) (adds dels : List RouteRow) : Prop where
  added : ∀ key ∈ advertised, ∃ i, advertised[i]? = some key ∧ Stands adds i
  kept : ∀ key ∈ advertised, ∀ i, withdrawn[i]? = some key → ¬ Stands dels i
  removed : ∀ key ∈ withdrawn, key ∉ advertised →
    ∃ i, withdrawn[i]? = some key ∧ Stands dels i

private theorem mem_whole_keys {rows : List RouteRow} {keys : List RouteKey}
    (named : rows.map (fun row => ribKey row.rib) = keys) (key : RouteKey) :
    key ∈ (wholeRows 0 false rows).map (fun row => ribKey row.rib) ↔
      ∃ i, keys[i]? = some key ∧ Stands rows i := by
  simp only [List.mem_map, mem_wholeRows, ← named, List.getElem?_map, Option.map_eq_some_iff]
  constructor
  · rintro ⟨row, ⟨i, here, stands⟩, rfl⟩
    exact ⟨i, ⟨row, here, rfl⟩, stands⟩
  · rintro ⟨i, ⟨row, here, rfl⟩, stands⟩
    exact ⟨row, ⟨i, here, stands⟩, rfl⟩

private theorem map_rowEdit_wholeRows {rows : List RouteRow} {code : UnicastPrefixActionCode}
    {edit : RouteKey → Edit RouteKey} (codes : ∀ row ∈ rows, row.code = code)
    (edits : ∀ row : RouteRow, row.code = code → rowEdit row = edit (ribKey row.rib)) :
    (wholeRows 0 false rows).map rowEdit =
      ((wholeRows 0 false rows).map (fun row => ribKey row.rib)).map edit := by
  rw [List.map_map]
  apply List.map_congr_left
  intro row whole
  obtain ⟨i, here, -⟩ := (mem_wholeRows rows row).mp whole
  exact edits row (codes row (List.mem_of_getElem? here))

private theorem rowsFrom_keys (md5 : Md5) (ctx : RowContext) (seq : Nat) (ribs : List ObjRib) :
    (rowsFrom (unicastRow md5 ctx) seq ribs).map (fun row => ribKey row.rib) =
      ribs.map ribKey := by
  induction ribs generalizing seq with
  | nil => rfl
  | cons rib ribs ih => simp [rowsFrom, ih, unicastRow, routeRow]

private theorem map_ribKey {ap : Modes} (stack : VpnTuple) (ts : List PrefixTuple)
    (es : List WireRoute)
    (here : ts.map plain = es.filterMap (WireRoute.prefixTuple ap stack)) :
    (ts.map ribEntry).map ribKey = routeKeys ap es := by
  rw [routeKeys, ← map_filterMap_ofTopic (WireRoute.prefixTuple ap stack)
    (fun t => ribKey (ribEntry t)) _ (fun e => by cases e <;> rfl) (prefixTuple_key stack),
    ← here, List.map_map, List.map_map]
  rfl

private theorem oneMessage_wholeRows (rows : List RouteRow) :
    (oneMessage rows).flatMap (wholeRows 0 false) = wholeRows 0 false rows := by
  unfold oneMessage
  split
  · rename_i empty
    rw [empty]
    rfl
  · simp

private theorem map_rowEdit_addRows (P : Publisher D) (bus : MsgBusKafka)
    (parsed : ParsedUpdateData D) :
    (wholeRows 0 false (addRows P bus parsed)).map rowEdit =
      ((wholeRows 0 false (addRows P bus parsed)).map (fun row => ribKey row.rib)).map .add := by
  have codes : ∀ row ∈ addRows P bus parsed, row.code = .add := by
    apply rowsFrom_code
    exact fun _ _ => rfl
  exact map_rowEdit_wholeRows codes (fun row code => by simp [rowEdit, code])

private theorem map_rowEdit_delRows (P : Publisher D) (bus : MsgBusKafka)
    (parsed : ParsedUpdateData D) :
    (wholeRows 0 false (delRows P bus parsed)).map rowEdit =
      ((wholeRows 0 false (delRows P bus parsed)).map (fun row => ribKey row.rib)).map .remove := by
  have codes : ∀ row ∈ delRows P bus parsed, row.code = .del := by
    apply rowsFrom_code
    exact fun _ _ => rfl
  exact map_rowEdit_wholeRows codes (fun row code => by simp [rowEdit, code])

/-- Adding what stands of the add rows and then removing what stands of the del rows. -/
private theorem replay_wholeRows_iff {adds dels : List RouteRow}
    {advertised withdrawn : List RouteKey}
    (added : adds.map (fun row => ribKey row.rib) = advertised)
    (deleted : dels.map (fun row => ribKey row.rib) = withdrawn) :
    (∀ prior, replay
        (((wholeRows 0 false adds).map (fun row => ribKey row.rib)).map .add ++
          ((wholeRows 0 false dels).map (fun row => ribKey row.rib)).map .remove) prior =
        (prior \ {key | key ∈ withdrawn}) ∪ {key | key ∈ advertised}) ↔
      RowsExact advertised withdrawn adds dels := by
  rw [replay_exact_iff]
  · simp only [mem_whole_keys added, mem_whole_keys deleted, Set.mem_ofPred_eq]
    constructor
    · rintro ⟨all, once, rest⟩
      exact ⟨all, fun key here i at_i stands => once key here ⟨i, at_i, stands⟩, rest⟩
    · rintro ⟨all, once, rest⟩
      refine ⟨all, ?_, rest⟩
      rintro key here ⟨i, at_i, stands⟩
      exact once key here i at_i stands
  · intro key whole
    obtain ⟨i, here, -⟩ := (mem_whole_keys added key).mp whole
    exact List.mem_of_getElem? here
  · intro key whole
    obtain ⟨i, here, -⟩ := (mem_whole_keys deleted key).mp whole
    exact List.mem_of_getElem? here

/-- Replaying what an UPDATE publishes on the unicast topic gives, from every prior set,
that set without the withdrawn and with the advertised routes, iff its rows are exact. -/
theorem replay_update_iff (P : Publisher D) (bus : MsgBusKafka) (info : PeerInfo)
    (u : FamilyUpdate (modes info)) (m : Mem) (data : Nat) (h : Holds m data u.bytes) :
    let advertised := routeKeys (modes info) (FamilyUpdate.reached u)
    let withdrawn := routeKeys (modes info) (FamilyUpdate.unreached u)
    ∃ parsed,
      (handleUpdate D (updateDBKafka P) info m data u.bytes.length).passed = some parsed ∧
        ((∀ prior, replay ((publishedRows
              (updateRecords P bus info m data u.bytes.length)).map rowEdit) prior =
            (prior \ {key | key ∈ withdrawn}) ∪ {key | key ∈ advertised}) ↔
          RowsExact advertised withdrawn (addRows P bus parsed) (delRows P bus parsed)) := by
  obtain ⟨parsed, info', outcome, -, lists⟩ := handleUpdate_family (updateDBKafka P) info u h
  refine ⟨parsed, by rw [outcome], ?_⟩
  simp only [FamilyUpdate.lists_eq, routeLists, listsOf, RouteLists.mk.injEq] at lists
  have added : (addRows P bus parsed).map (fun row => ribKey row.rib) =
      routeKeys (modes info) (FamilyUpdate.reached u) := by
    rw [addRows, rowsFrom_keys, map_ribKey D.stackTuple _ _ lists.1]
  have deleted : (delRows P bus parsed).map (fun row => ribKey row.rib) =
      routeKeys (modes info) (FamilyUpdate.unreached u) := by
    rw [delRows, rowsFrom_keys, map_ribKey D.stackTuple _ _ lists.2.1]
  have published : (publishedRows (updateRecords P bus info m data u.bytes.length)).map rowEdit =
      ((wholeRows 0 false (addRows P bus parsed)).map (fun row => ribKey row.rib)).map .add ++
        ((wholeRows 0 false (delRows P bus parsed)).map (fun row => ribKey row.rib)).map
          .remove := by
    simp only [publishedRows, updateRecords, outcome, updateDBKafka_unicast, List.flatMap_append,
      List.map_append, oneMessage_wholeRows]
    exact congrArg₂ (· ++ ·) (map_rowEdit_addRows P bus parsed) (map_rowEdit_delRows P bus parsed)
  rw [published]
  exact replay_wholeRows_iff added deleted

private def tenOnce : FamilyUpdate (modes PeerInfo.fresh) where
  withdrawn := []
  attrs := []
  nlri := [tenSlashEight]
  fits := by decide

theorem replay_update_iff_ten : ∃ parsed,
    (handleUpdate Decoders.silent (updateDBKafka plainPublisher) PeerInfo.fresh
        (memOf tenOnce.bytes) 0 tenOnce.bytes.length).passed = some parsed ∧
      ((∀ prior, replay ((publishedRows (updateRecords plainPublisher (MsgBusKafka.new true)
            PeerInfo.fresh (memOf tenOnce.bytes) 0 tenOnce.bytes.length)).map rowEdit) prior =
          (prior \ {key | key ∈ routeKeys (modes PeerInfo.fresh) (FamilyUpdate.unreached tenOnce)}) ∪
            {key | key ∈ routeKeys (modes PeerInfo.fresh) (FamilyUpdate.reached tenOnce)}) ↔
        RowsExact (routeKeys (modes PeerInfo.fresh) (FamilyUpdate.reached tenOnce))
          (routeKeys (modes PeerInfo.fresh) (FamilyUpdate.unreached tenOnce))
          (addRows plainPublisher (MsgBusKafka.new true) parsed)
          (delRows plainPublisher (MsgBusKafka.new true) parsed)) :=
  replay_update_iff plainPublisher (MsgBusKafka.new true) PeerInfo.fresh tenOnce _ 0 (holds_memOf _)

/-! An UPDATE that withdraws and advertises one prefix. -/

private def tenTwice : FamilyUpdate (modes PeerInfo.fresh) where
  withdrawn := [tenSlashEight]
  attrs := []
  nlri := [tenSlashEight]
  fits := by decide

private def tenKey : RouteKey := ⟨"10.0.0.0".toList, 8, 0, false⟩

/-- The prefix is advertised, and the rows leave it out of every set: its del row is
published after its add row. -/
theorem readvertised_prefix_ends_absent :
    let rows := publishedRows (updateRecords plainPublisher (MsgBusKafka.new true) PeerInfo.fresh
      (memOf tenTwice.bytes) 0 tenTwice.bytes.length)
    tenKey ∈ routeKeys (modes PeerInfo.fresh) (FamilyUpdate.reached tenTwice) ∧
      rows.map (fun row => (row.code, row.seq, ribKey row.rib)) =
        [(.add, 0, tenKey), (.del, 1, tenKey)] ∧
      ∀ prior, tenKey ∉ replay (rows.map rowEdit) prior := by
  have shown : (publishedRows (updateRecords plainPublisher (MsgBusKafka.new true) PeerInfo.fresh
      (memOf tenTwice.bytes) 0 tenTwice.bytes.length)).map
        (fun row => (row.code, row.seq, ribKey row.rib)) =
      [(.add, 0, tenKey), (.del, 1, tenKey)] := by
    decide +kernel
  refine ⟨by decide +kernel, shown, fun prior => ?_⟩
  have edits : (publishedRows (updateRecords plainPublisher (MsgBusKafka.new true) PeerInfo.fresh
      (memOf tenTwice.bytes) 0 tenTwice.bytes.length)).map rowEdit =
      [.add tenKey, .remove tenKey] := by
    have asEdits := congrArg (List.map (fun action : UnicastPrefixActionCode × Nat × RouteKey =>
      match action.1 with
      | .add => Edit.add action.2.2
      | .del => Edit.remove action.2.2)) shown
    rw [List.map_map] at asEdits
    exact asEdits
  rw [edits]
  simp [replay, Edit.apply]

end SonicBmp.Bgp.KafkaReplay
