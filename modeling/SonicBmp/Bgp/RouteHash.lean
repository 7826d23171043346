/- module: SonicBmp/Bgp/RouteHash
   digest: The bytes hashed for a route name the route and not its labels. -/

import SonicBmp.Bgp.KafkaDb

set_option autoImplicit false
set_option relaxedAutoImplicit false

namespace SonicBmp.Bgp.RouteHash

open SonicBmp.Library.Printing
open SonicBmp.Library.Memory
open SonicBmp.Bgp.Common
open SonicBmp.Bgp.Nlri
open SonicBmp.Bgp.Update
open SonicBmp.Bgp.UpdateDb
open SonicBmp.Bgp.LabelCodec
open SonicBmp.Bgp.FamilyCodec
open SonicBmp.Bgp.KafkaDb
open SonicBmp.Bus.Interface
open SonicBmp.Bus.Kafka

/-! The routes of a message. -/

inductive WireRoute
  | unicast (isIPv4 : Bool) (p : Prefix isIPv4)
  | labelled (isIPv4 : Bool) (e : LabelRoute isIPv4 false)
  | vpn (isIPv4 : Bool) (e : LabelRoute isIPv4 true)

def WireRoute.topic : WireRoute → Topic
  | .unicast _ _ | .labelled _ _ => .unicastPrefix
  | .vpn _ _ => .l3vpn

/-- What tells two routes of a peer apart; labels are no part of it. -/
structure RouteIdentity where
  safi : Nat
  isIPv4 : Bool
  len : Nat
  addr : List UInt8
  pathId : Nat
  rd : Option RouteDistinguisher
  deriving DecidableEq

def WireRoute.identity (ap : Modes) : WireRoute → RouteIdentity
  | .unicast isIPv4 p =>
    ⟨bgpSafiUnicast, isIPv4, p.len, p.addr, if ap.unicast isIPv4 then p.pathId.toNat else 0, none⟩
  | .labelled isIPv4 e =>
    ⟨bgpSafiNlriLabel, isIPv4, e.route.len, e.route.addr,
      if ap.label isIPv4 false then e.route.pathId.toNat else 0, none⟩
  | .vpn isIPv4 e => ⟨bgpSafiMpls, isIPv4, e.route.len, e.route.addr, 0, e.rd⟩

variable {isIPv4 : Bool} {ap : Modes}

def Routes.wire : Routes isIPv4 → List WireRoute
  | .unicast ps => ps.map (.unicast isIPv4)
  | .labelled es => es.map (.labelled isIPv4)
  | .vpn es => es.map (.vpn isIPv4)

def FamilyBody.reached : FamilyBody → List WireRoute
  | .reach r => Routes.wire r.routes
  | _ => []

def FamilyBody.unreached : FamilyBody → List WireRoute
  | .unreach u => Routes.wire u.routes
  | _ => []

/-- The routes an UPDATE advertises and withdraws, in the order they are read. -/
def FamilyUpdate.reached (u : FamilyUpdate ap) : List WireRoute :=
  u.attrs.flatMap (fun a => FamilyBody.reached a.body) ++ u.nlri.map (.unicast true)

def FamilyUpdate.unreached (u : FamilyUpdate ap) : List WireRoute :=
  u.withdrawn.map (.unicast true) ++ u.attrs.flatMap (fun a => FamilyBody.unreached a.body)

def WireRoute.prefixTuple (ap : Modes) (stack : VpnTuple) : WireRoute → Option PrefixTuple
  | .unicast isIPv4 p => some (plain (p.tuple (ap.unicast isIPv4)))
  | .labelled isIPv4 e => some (e.tuple (ap.label isIPv4 false) stack).toPrefixTuple
  | .vpn _ _ => none

def WireRoute.vpnTuple (ap : Modes) (stack : VpnTuple) : WireRoute → Option VpnTuple
  | .vpn isIPv4 e => some (e.tuple (ap.label isIPv4 true) stack)
  | _ => none

section Lists

variable (stack : VpnTuple)

private theorem filterMap_wire (r : Routes isIPv4) :
    (Routes.wire r).filterMap (WireRoute.prefixTuple ap stack) = r.prefixes ap stack ∧
      (Routes.wire r).filterMap (WireRoute.vpnTuple ap stack) = r.vpns ap stack := by
  cases r with
  | unicast ps => simp [Routes.wire, Routes.prefixes, Routes.vpns, WireRoute.prefixTuple,
      WireRoute.vpnTuple, List.filterMap_map, Function.comp_def]
  | labelled es => simp [Routes.wire, Routes.prefixes, Routes.vpns, WireRoute.prefixTuple,
      WireRoute.vpnTuple, List.filterMap_map, Function.comp_def]
  | vpn es => simp [Routes.wire, Routes.prefixes, Routes.vpns, WireRoute.prefixTuple,
      WireRoute.vpnTuple, List.filterMap_map, Function.comp_def]

/-- The lists that routes of a message leave. -/
def listsOf (ap : Modes) (reached unreached : List WireRoute) : RouteLists where
  advertised := reached.filterMap (WireRoute.prefixTuple ap stack)
  withdrawn := unreached.filterMap (WireRoute.prefixTuple ap stack)
  vpn := reached.filterMap (WireRoute.vpnTuple ap stack)
  vpnWithdrawn := unreached.filterMap (WireRoute.vpnTuple ap stack)

private theorem addAll_listsOf (reached unreached : List WireRoute) (attrs : List (FamilyAttr ap)) :
    addAll stack (listsOf stack ap reached unreached) attrs =
      listsOf stack ap (reached ++ attrs.flatMap (fun a => FamilyBody.reached a.body))
        (unreached ++ attrs.flatMap (fun a => FamilyBody.unreached a.body)) := by
  induction attrs generalizing reached unreached with
  | nil => simp [addAll]
  | cons a attrs ih =>
    have step : a.body.add ap stack (listsOf stack ap reached unreached) =
        listsOf stack ap (reached ++ FamilyBody.reached a.body)
          (unreached ++ FamilyBody.unreached a.body) := by
      cases a.body with
      | reach r => simp [FamilyBody.add, listsOf, RouteLists.reach, FamilyBody.reached,
          FamilyBody.unreached, filterMap_wire]
      | unreach u => simp [FamilyBody.add, listsOf, RouteLists.unreach, FamilyBody.reached,
          FamilyBody.unreached, filterMap_wire]
      | _ => simp [FamilyBody.add, FamilyBody.reached, FamilyBody.unreached]
    have rest := ih (reached ++ FamilyBody.reached a.body)
      (unreached ++ FamilyBody.unreached a.body)
    simp only [addAll, List.foldl_cons, step, List.flatMap_cons] at rest ⊢
    rw [rest, List.append_assoc, List.append_assoc]

theorem FamilyUpdate.lists_eq (u : FamilyUpdate ap) :
    u.lists stack = listsOf stack ap (FamilyUpdate.reached u) (FamilyUpdate.unreached u) := by
  have classic (ps : List (Prefix true)) :
      (ps.map (WireRoute.unicast true)).filterMap (WireRoute.prefixTuple ap stack) =
          classicPrefixes ap ps ∧
        (ps.map (WireRoute.unicast true)).filterMap (WireRoute.vpnTuple ap stack) = [] := by
    simp [classicPrefixes, WireRoute.prefixTuple, WireRoute.vpnTuple, List.filterMap_map,
      Function.comp_def]
  have start : (⟨[], classicPrefixes ap u.withdrawn, [], []⟩ : RouteLists) =
      listsOf stack ap [] (u.withdrawn.map (.unicast true)) := by
    simp [listsOf, classic]
  rw [FamilyUpdate.lists, start, addAll_listsOf]
  simp [listsOf, RouteLists.reach, FamilyUpdate.reached, FamilyUpdate.unreached, classic]

end Lists

/-! The hashed bytes of a route. -/

/-- The bytes hashed for a route, from what identifies it. -/
def RouteIdentity.hashInput (pHashStr : Text) (id : RouteIdentity) : List UInt8 :=
  textBytes (inetNtop id.isIPv4 (id.addr ++ List.replicate (16 - id.addr.length) 0)) ++
    (UInt8.ofNat id.len ::
      (id.rd.elim [] (fun rd => textBytes rd.administratorText ++ textBytes rd.assignedText) ++
        (textBytes pHashStr ++ ((if 0 < id.pathId then wordBytes id.pathId else []) ++
          (if id.safi = bgpSafiUnicast then [] else [1])))))

theorem strncpy_inetNtop (isIPv4 : Bool) (src : List UInt8) :
    strncpy 46 (inetNtop isIPv4 src) = inetNtop isIPv4 src :=
  List.take_of_length_le (inetNtop_length_le isIPv4 src)

/-- A label text survives the cut to its buffer as a mark that there are labels. -/
theorem snprintf_labels (f : LabelField) : snprintf 255 f.text ≠ [] := by
  simp [snprintf, f.text_ne_nil]

/-- What the RIB entry of a unicast or labelled route keeps of its identity. -/
theorem prefixTuple_ribEntry (stack : VpnTuple) (e : WireRoute) (tuple : PrefixTuple)
    (shown : WireRoute.prefixTuple ap stack e = some tuple) :
    let id := e.identity ap
    (ribEntry tuple).prefixText =
        inetNtop id.isIPv4 (id.addr ++ List.replicate (16 - id.addr.length) 0) ∧
      (ribEntry tuple).prefixLen = id.len ∧ (ribEntry tuple).pathId = id.pathId ∧
      ((ribEntry tuple).labels = [] ↔ id.safi = bgpSafiUnicast) ∧ id.rd = none := by
  cases e with
  | unicast isIPv4 p =>
    obtain rfl := Option.some.inj shown
    exact ⟨strncpy_inetNtop _ _, rfl, rfl, iff_of_true rfl rfl, rfl⟩
  | labelled isIPv4 e =>
    obtain rfl := Option.some.inj shown
    have pathId : (LabelRoute.tuple (ap.label isIPv4 false) stack e).pathId =
        if ap.label isIPv4 false then e.route.pathId.toNat else 0 := by
      simp [LabelRoute.tuple, LabelRoute.write, forgetBin]
    exact ⟨strncpy_inetNtop _ _, rfl, pathId,
      iff_of_false (snprintf_labels _) (show ¬ bgpSafiNlriLabel = bgpSafiUnicast by decide), rfl⟩
  | vpn isIPv4 e => cases shown

theorem prefixTuple_hashInput (pHashStr : Text) (stack : VpnTuple) (e : WireRoute)
    (tuple : PrefixTuple) (shown : WireRoute.prefixTuple ap stack e = some tuple) :
    ribHashInput pHashStr (ribEntry tuple) = (e.identity ap).hashInput pHashStr := by
  obtain ⟨text, len, pathId, labels, rd⟩ := prefixTuple_ribEntry stack e tuple shown
  simp only [ribHashInput, hashTail, RouteIdentity.hashInput, text, len, pathId, rd, ne_eq, labels,
    ite_not, Option.elim_none, List.nil_append]

theorem vpnTuple_hashInput (pHashStr : Text) (stack : VpnTuple) (e : WireRoute)
    (tuple : VpnTuple) (shown : WireRoute.vpnTuple ap stack e = some tuple) :
    vpnHashInput pHashStr (vpnEntry tuple) = (e.identity ap).hashInput pHashStr := by
  cases e with
  | vpn isIPv4 e =>
    obtain rfl := Option.some.inj shown
    have other : ¬ bgpSafiMpls = bgpSafiUnicast := by decide
    obtain ⟨rd, known⟩ := Option.isSome_iff_exists.mp e.rd_isSome
    simp [vpnHashInput, vpnEntry, ribEntry, hashTail, RouteIdentity.hashInput,
      WireRoute.identity, LabelRoute.tuple, LabelRoute.write, forgetBin, Prefix.bin,
      strncpy_inetNtop, snprintf_labels, other, known]
  | unicast isIPv4 p => cases shown
  | labelled isIPv4 e => cases shown

/-! The rows of a message. -/

/-- The rows of one action that a topic got for an UPDATE, in order. -/
def actionRows (topic : Topic) (code : UnicastPrefixActionCode) (records : List KafkaRecord) :
    List RouteRow :=
  (topic.messages records).flatten.filter (fun row => row.code = code)

def ofTopic (topic : Topic) (routes : List WireRoute) : List WireRoute :=
  routes.filter (fun e => e.topic = topic)

section Rows

variable {α : Type} {row : Nat → α → RouteRow} {code : UnicastPrefixActionCode}

theorem rowsFrom_code (own : ∀ seq x, (row seq x).code = code) (seq : Nat) (xs : List α) :
    ∀ r ∈ rowsFrom row seq xs, r.code = code := by
  induction xs generalizing seq with
  | nil => simp [rowsFrom]
  | cons x xs ih =>
    simp only [rowsFrom, List.mem_cons, forall_eq_or_imp]
    exact ⟨own seq x, ih (seq + 1)⟩

private theorem filter_rowsFrom (own : ∀ seq x, (row seq x).code = code)
    (code' : UnicastPrefixActionCode) (seq : Nat) (xs : List α) :
    (rowsFrom row seq xs).filter (fun r => r.code = code') =
      if code = code' then rowsFrom row seq xs else [] := by
  have codes := rowsFrom_code own seq xs
  split
  · rename_i same
    exact List.filter_eq_self.mpr (fun r hr => by simp [codes r hr, same])
  · rename_i other
    exact List.filter_eq_nil_iff.mpr (fun r hr => by simp [codes r hr, other])

private theorem map_hashInput_rowsFrom {hash : α → List UInt8}
    (own : ∀ seq x, (row seq x).hashInput = hash x) (seq : Nat) (xs : List α) :
    (rowsFrom row seq xs).map RouteRow.hashInput = xs.map hash := by
  induction xs generalizing seq with
  | nil => rfl
  | cons x xs ih => simp [rowsFrom, own, ih]

private theorem flatten_oneMessage (rows : List RouteRow) : (oneMessage rows).flatten = rows := by
  unfold oneMessage
  split <;> simp_all

private theorem actionRows_hashInputs {addRow delRow : Nat → α → RouteRow}
    {hash : α → List UInt8} {topic : Topic} {records : List KafkaRecord} {seq seq' : Nat}
    {xs ys : List α}
    (sent : topic.messages records =
      oneMessage (rowsFrom addRow seq xs) ++ oneMessage (rowsFrom delRow seq' ys))
    (added : ∀ seq x, (addRow seq x).code = .add ∧ (addRow seq x).hashInput = hash x)
    (deleted : ∀ seq x, (delRow seq x).code = .del ∧ (delRow seq x).hashInput = hash x) :
    (actionRows topic .add records).map RouteRow.hashInput = xs.map hash ∧
      (actionRows topic .del records).map RouteRow.hashInput = ys.map hash := by
  simp only [actionRows, sent, List.flatten_append, flatten_oneMessage, List.filter_append,
    filter_rowsFrom (fun seq x => (added seq x).1), filter_rowsFrom (fun seq x => (deleted seq x).1),
    reduceCtorEq, if_true, if_false, List.append_nil, List.nil_append]
  exact ⟨map_hashInput_rowsFrom (fun seq x => (added seq x).2) seq xs,
    map_hashInput_rowsFrom (fun seq x => (deleted seq x).2) seq' ys⟩

end Rows

variable {D : Decoders}

/-- What the tuples of the routes of one topic give, read off the routes themselves. -/
theorem map_filterMap_ofTopic {β γ : Type} {topic : Topic} (tuple : WireRoute → Option β)
    (ofTuple : β → γ) (ofRoute : WireRoute → γ)
    (shown : ∀ e, (tuple e).isSome = decide (e.topic = topic))
    (same : ∀ e t, tuple e = some t → ofTuple t = ofRoute e) (es : List WireRoute) :
    (es.filterMap tuple).map ofTuple = (ofTopic topic es).map ofRoute := by
  induction es with
  | nil => rfl
  | cons e es ih =>
    have own := shown e
    simp only [ofTopic] at ih ⊢
    cases made : tuple e with
    | none =>
      have other : ¬ e.topic = topic := by simpa [made] using own
      simpa [made, other] using ih
    | some t =>
      have here : e.topic = topic := by simpa [made] using own
      simp [made, here, same e t made, ih]

/-- The hashed bytes of the rows of an UPDATE are those of its routes, in order. -/
theorem updateDBKafka_hashInputs (P : Publisher D) (bus : MsgBusKafka)
    (parsed : ParsedUpdateData D) (ap : Modes) (reached unreached : List WireRoute)
    (lists : routeLists parsed = listsOf D.stackTuple ap reached unreached) (topic : Topic) :
    let records := (bus.run P.md5 (updateDBKafka P parsed)).2
    let hash (e : WireRoute) := (e.identity ap).hashInput (hashToStr P.peer.hashId)
    (actionRows topic .add records).map RouteRow.hashInput = (ofTopic topic reached).map hash ∧
      (actionRows topic .del records).map RouteRow.hashInput =
        (ofTopic topic unreached).map hash := by
  simp only [routeLists, listsOf, RouteLists.mk.injEq] at lists
  obtain ⟨advertised, withdrawn, vpn, vpnWithdrawn⟩ := lists
  dsimp only
  -- no row hashes the binary address, so the lists may be read without it
  cases topic with
  | unicastPrefix =>
    have hashes (ts : List PrefixTuple) (es : List WireRoute)
        (here : ts.map plain = es.filterMap (WireRoute.prefixTuple ap D.stackTuple)) :
        (ts.map ribEntry).map (ribHashInput (hashToStr P.peer.hashId)) =
          (ofTopic .unicastPrefix es).map
            (fun e => (e.identity ap).hashInput (hashToStr P.peer.hashId)) := by
      rw [← map_filterMap_ofTopic (WireRoute.prefixTuple ap D.stackTuple)
        (fun t => ribHashInput (hashToStr P.peer.hashId) (ribEntry t)) _
        (fun e => by cases e <;> rfl) (prefixTuple_hashInput _ _), ← here, List.map_map, List.map_map]
      rfl
    rw [← hashes _ _ advertised, ← hashes _ _ withdrawn]
    exact actionRows_hashInputs (updateDBKafka_unicast P P.md5 bus parsed)
      (fun _ _ => ⟨rfl, rfl⟩) (fun _ _ => ⟨rfl, rfl⟩)
  | l3vpn =>
    have hashes (ts : List VpnTuple) (es : List WireRoute)
        (here : ts.map forgetBin = es.filterMap (WireRoute.vpnTuple ap D.stackTuple)) :
        (ts.map vpnEntry).map (vpnHashInput (hashToStr P.peer.hashId)) =
          (ofTopic .l3vpn es).map
            (fun e => (e.identity ap).hashInput (hashToStr P.peer.hashId)) := by
      rw [← map_filterMap_ofTopic (WireRoute.vpnTuple ap D.stackTuple)
        (fun t => vpnHashInput (hashToStr P.peer.hashId) (vpnEntry t)) _
        (fun e => by cases e <;> rfl) (vpnTuple_hashInput _ _), ← here, List.map_map, List.map_map]
      rfl
    rw [← hashes _ _ vpn, ← hashes _ _ vpnWithdrawn]
    exact actionRows_hashInputs (updateDBKafka_l3vpn P P.md5 bus parsed)
      (fun _ _ => ⟨rfl, rfl⟩) (fun _ _ => ⟨rfl, rfl⟩)

/-- The records that the Kafka bus produces for an UPDATE. -/
def updateRecords (P : Publisher D) (bus : MsgBusKafka) (info : PeerInfo) (m : Mem)
    (data size : Nat) : List KafkaRecord :=
  (bus.run P.md5 (handleUpdate D (updateDBKafka P) info m data size).calls).2

theorem updateRecords_hashInputs (P : Publisher D) (bus : MsgBusKafka) (info : PeerInfo)
    (u : FamilyUpdate (modes info)) {m : Mem} {data : Nat} (h : Holds m data u.bytes)
    (topic : Topic) :
    let records := updateRecords P bus info m data u.bytes.length
    let hash (e : WireRoute) := (e.identity (modes info)).hashInput (hashToStr P.peer.hashId)
    (actionRows topic .add records).map RouteRow.hashInput =
        (ofTopic topic (FamilyUpdate.reached u)).map hash ∧
      (actionRows topic .del records).map RouteRow.hashInput =
        (ofTopic topic (FamilyUpdate.unreached u)).map hash := by
  obtain ⟨parsed, info', outcome, -, lists⟩ := handleUpdate_family (updateDBKafka P) info u h
  rw [FamilyUpdate.lists_eq] at lists
  simp only [updateRecords, outcome]
  exact updateDBKafka_hashInputs P bus parsed (modes info) _ _ lists topic

/-- A route that one UPDATE advertises and another one withdraws, with any label field
there and here, gets an add row and a del row with the same hashed bytes. -/
theorem add_del_hash_agree (P P' : Publisher D) (samePeer : P.peer.hashId = P'.peer.hashId)
    (bus bus' : MsgBusKafka) (info info' : PeerInfo) (session : modes info = modes info')
    (u : FamilyUpdate (modes info)) (w : FamilyUpdate (modes info')) (m m' : Mem)
    (data data' : Nat) (h : Holds m data u.bytes) (h' : Holds m' data' w.bytes) (topic : Topic)
    (i j : Nat) (e e' : WireRoute)
    (advertised : (ofTopic topic (FamilyUpdate.reached u))[i]? = some e)
    (withdrawn : (ofTopic topic (FamilyUpdate.unreached w))[j]? = some e')
    (same : e.identity (modes info) = e'.identity (modes info)) :
    ∃ row row',
      (actionRows topic .add (updateRecords P bus info m data u.bytes.length))[i]? = some row ∧
        (actionRows topic .del (updateRecords P' bus' info' m' data' w.bytes.length))[j]? =
          some row' ∧ row.hashInput = row'.hashInput := by
  have adds := congrArg (·[i]?) (updateRecords_hashInputs P bus info u h topic).1
  have dels := congrArg (·[j]?) (updateRecords_hashInputs P' bus' info' w h' topic).2
  simp only [List.getElem?_map, advertised, withdrawn, Option.map_some, Option.map_eq_some_iff] at adds dels
  obtain ⟨row, at_i, bytes⟩ := adds
  obtain ⟨row', at_j, bytes'⟩ := dels
  exact ⟨row, row', at_i, at_j, by rw [bytes, bytes', same, session, samePeer]⟩

def plainPublisher : Publisher Decoders.silent where
  md5 := fun _ => HashId.zero
  peer := ⟨ObjBgpPeer.zero, HashId.zero, HashId.zero, []⟩
  lsSize := fun _ _ => 0
  memoryHash := HashId.zero

private def stackOf (last : Label) (ends : last.Ends) : LabelField := ⟨[], last, by simp, ends⟩

private def label100 : LabelField := stackOf ⟨0, 6, 0x41⟩ (by decide)

private def labelWithdrawn : LabelField := stackOf .withdrawn (by decide)

private def tenLabelled (labels : LabelField) (one : labels.upper = []) : LabelRoute true false where
  labels := labels
  rd := none
  route := tenSlashEight
  rd_isSome := rfl
  fits := by simp [labels.length_bytes, one, tenSlashEight]

private def tenAdvertised : FamilyUpdate (modes PeerInfo.fresh) where
  withdrawn := []
  attrs := [⟨0x80, .reach ⟨true, [10, 0, 0, 1], 0, .labelled [tenLabelled label100 rfl],
    by decide⟩, by decide⟩]
  nlri := []
  fits := by decide

private def tenWithdrawn : FamilyUpdate (modes PeerInfo.fresh) where
  withdrawn := []
  attrs := [⟨0x80, .unreach ⟨true, .labelled [tenLabelled labelWithdrawn rfl]⟩, by decide⟩]
  nlri := []
  fits := by decide

theorem add_del_hash_agree_ten : ∃ row row',
    (actionRows .unicastPrefix .add (updateRecords plainPublisher (MsgBusKafka.new true)
        PeerInfo.fresh (memOf tenAdvertised.bytes) 0 tenAdvertised.bytes.length))[0]? = some row ∧
      (actionRows .unicastPrefix .del (updateRecords plainPublisher (MsgBusKafka.new true)
        PeerInfo.fresh (memOf tenWithdrawn.bytes) 0 tenWithdrawn.bytes.length))[0]? = some row' ∧
      row.hashInput = row'.hashInput :=
  add_del_hash_agree plainPublisher plainPublisher rfl (MsgBusKafka.new true)
    (MsgBusKafka.new true) PeerInfo.fresh PeerInfo.fresh rfl tenAdvertised tenWithdrawn _ _ 0 0
    (holds_memOf _) (holds_memOf _) .unicastPrefix 0 0 (.labelled true (tenLabelled label100 rfl))
    (.labelled true (tenLabelled labelWithdrawn rfl)) rfl rfl rfl

/-! A VPN route with a path identifier, which the parser does not expect. -/

private def vpnAddPath : PeerInfo :=
  { PeerInfo.fresh with
    addPathCapability := addAddPath 0 (addAddPath 0 (fun _ => none) 1 bgpSafiMpls 3 true) 1
      bgpSafiMpls 3 false }

private def tenVpn (labels : LabelField) (one : labels.upper = []) : LabelRoute true true where
  labels := labels
  rd := some (.asn2 65000 1)
  route := { tenSlashEight with pathId := 0x30000001 }
  rd_isSome := rfl
  fits := by simp [labels.length_bytes, one, tenSlashEight]

/-- The route as a session with add-path for VPN routes encodes it. -/
private def tenVpnBytes (e : LabelRoute true true) : List UInt8 :=
  put32 e.route.pathId.toNat ++ e.body

private def vpnAdvertised : List UInt8 :=
  bgpUpdate [] ([0x80, 14, 34, 0, 1, 128, 12] ++ List.replicate 12 0 ++
    (0 :: tenVpnBytes (tenVpn label100 rfl))) []

private def vpnWithdrawn : List UInt8 :=
  bgpUpdate [] ([0x80, 15, 20, 0, 1, 128] ++ tenVpnBytes (tenVpn labelWithdrawn rfl)) []

/-- The first octet of the path identifier is taken for the length and its rest for a
label, so the label field of the route becomes part of the address that is hashed. -/
theorem vpn_path_id_hashes_differ :
    let added := actionRows .l3vpn .add (updateRecords plainPublisher (MsgBusKafka.new true)
      vpnAddPath (memOf vpnAdvertised) 0 vpnAdvertised.length)
    let deleted := actionRows .l3vpn .del (updateRecords plainPublisher (MsgBusKafka.new true)
      vpnAddPath (memOf vpnWithdrawn) 0 vpnWithdrawn.length)
    isAddPathEnabled vpnAddPath.addPathCapability 1 bgpSafiMpls = true ∧
      (WireRoute.vpn true (tenVpn label100 rfl)).identity (modes vpnAddPath) =
        (WireRoute.vpn true (tenVpn labelWithdrawn rfl)).identity (modes vpnAddPath) ∧
      added ≠ [] ∧ deleted ≠ [] ∧
      ∀ row ∈ added, ∀ row' ∈ deleted, row.hashInput ≠ row'.hashInput := by
  decide +kernel

end SonicBmp.Bgp.RouteHash
