/- module: SonicBmp/Bgp/KafkaDb
   digest: Publishing of a parsed UPDATE in the Kafka build, and the bytes hashed for its routes. -/

import SonicBmp.Bgp.FamilyCodec
import SonicBmp.Bgp.UpdateDb
import SonicBmp.Bus.Kafka

set_option autoImplicit false
set_option relaxedAutoImplicit false

namespace SonicBmp.Bgp.KafkaDb

open SonicBmp.Library.Printing
open SonicBmp.Library.Memory
open SonicBmp.Bgp.Common
open SonicBmp.Bgp.Nlri
open SonicBmp.Bgp.Update
open SonicBmp.Bgp.UpdateDb
open SonicBmp.Bgp.LabelCodec
open SonicBmp.Bgp.FamilyCodec
open SonicBmp.Bus.Interface
open SonicBmp.Bus.Kafka

/-! `parseBGP::UpdateDB` as compiled for Kafka. -/

/-- The record `UpdateDBL3Vpn` fills from a tuple. -/
def vpnEntry (tuple : VpnTuple) : ObjVpn where
  toObjRib := ribEntry tuple.toPrefixTuple
  rdAdministratorSubfield := tuple.rdAdministratorSubfield
  rdAssignedNumber := tuple.rdAssignedNumber
  rdType := tuple.rdType

/-- What an UPDATE is published with besides its parsed data: the peer, the number of
entries in link-state data, and the hash a new `base_attr` finds in memory. -/
structure Publisher (D : Decoders) where
  md5 : Md5
  peer : KafkaPeer
  lsSize : D.LsData → LsObject → Nat
  memoryHash : HashId

variable {D : Decoders} (P : Publisher D)

/-- `base_attr` once `UpdateDBAttrs` is done; `update_baseAttribute` stores the hash. -/
def baseAttr (attrs : ParsedAttrsMap) : KafkaAttr where
  attr := updateDBAttrs attrs
  hashId :=
    if attrs.at .nextHop = [] then P.memoryHash
    else P.md5 (attrHashInput (hashToStr P.peer.hashId) (updateDBAttrs attrs))

/-- The call of `UpdateDBAttrs`, which is skipped without a next hop. -/
def publishAttrs (attrs : ParsedAttrsMap) : List KafkaCall :=
  if attrs.at .nextHop = [] then [] else [.updateBaseAttribute P.peer (updateDBAttrs attrs)]

def updateDbBgpLs (code : UnicastPrefixActionCode) (lsData : D.LsData) : List KafkaCall :=
  [LsObject.node, .link, .pfx].flatMap fun object =>
    if 0 < P.lsSize lsData object then [.updateLs object P.peer (P.lsSize lsData object) code]
    else []

def publishUnicast (attr : Option KafkaAttr) (code : UnicastPrefixActionCode)
    (prefixes : List PrefixTuple) : List KafkaCall :=
  let ribList := prefixes.map ribEntry
  if 0 < ribList.length then [.updateUnicastPrefix P.peer ribList attr code] else []

def updateDBL3Vpn (attr : KafkaAttr) (code : UnicastPrefixActionCode)
    (prefixes : List VpnTuple) : List KafkaCall :=
  let ribList := prefixes.map vpnEntry
  if 0 < ribList.length then [.updateL3Vpn P.peer ribList (some attr) code] else []

def updateDBeVPN (attr : KafkaAttr) (code : UnicastPrefixActionCode)
    (nlris : List EvpnTuple) : List KafkaCall :=
  if 0 < nlris.length then [.updateEVPN P.peer nlris (some attr) code] else []

/-- `parseBGP::UpdateDB`: advertised prefixes go out before withdrawn ones. -/
def updateDBKafka (parsed : ParsedUpdateData D) : List KafkaCall :=
  let attr := baseAttr P parsed.attrs
  publishAttrs P parsed.attrs ++
    (updateDbBgpLs P .add parsed.ls ++ updateDbBgpLs P .del parsed.lsWithdrawn) ++
    publishUnicast P (some attr) .add parsed.advertised ++
    (updateDBL3Vpn P attr .add parsed.vpn ++ updateDBL3Vpn P attr .del parsed.vpnWithdrawn) ++
    (updateDBeVPN P attr .add parsed.evpn ++ updateDBeVPN P attr .del parsed.evpnWithdrawn) ++
    publishUnicast P none .del parsed.withdrawn

/-! The rows of the two prefix topics. -/

inductive Topic
  | unicastPrefix | l3vpn
  deriving DecidableEq

def Topic.rows : Topic → KafkaRecord → List RouteRow
  | .unicastPrefix, .unicastPrefix _ rows => rows
  | .l3vpn, .l3vpn _ rows => rows
  | _, _ => []

def Topic.seq : Topic → MsgBusKafka → Nat
  | .unicastPrefix, bus => bus.unicastPrefixSeq
  | .l3vpn, bus => bus.l3vpnSeq

/-- The calls that touch neither the topic nor the router address. -/
def Topic.quiet : Topic → KafkaCall → Bool
  | _, .updateRouter _ _ => false
  | .unicastPrefix, .updateUnicastPrefix _ _ _ _ => false
  | .l3vpn, .updateL3Vpn _ _ _ _ => false
  | _, _ => true

/-- What the rows of a topic are numbered and printed with. -/
def Topic.view (topic : Topic) (bus : MsgBusKafka) : Nat × Text := (topic.seq bus, bus.routerIp)

/-- The messages of a topic, each as its rows. -/
def Topic.messages (topic : Topic) (records : List KafkaRecord) : List (List RouteRow) :=
  (records.map topic.rows).filter (fun rows => rows ≠ [])

@[simp] theorem messages_append (topic : Topic) (records records' : List KafkaRecord) :
    topic.messages (records ++ records') = topic.messages records ++ topic.messages records' := by
  simp [Topic.messages]

theorem step_quiet (md5 : Md5) (topic : Topic) (bus : MsgBusKafka) (call : KafkaCall)
    (quiet : topic.quiet call = true) :
    topic.view (bus.step md5 call).1 = topic.view bus ∧
      topic.messages (bus.step md5 call).2 = [] := by
  cases call with
  | updateRouter router code => simp [Topic.quiet] at quiet
  | updatePeer peer up down code =>
    simp only [MsgBusKafka.step, MsgBusKafka.updatePeer]
    cases code <;> simp only <;> split <;>
      (cases sel : bus.topicSel <;> cases topic <;> simp [Topic.view, Topic.seq, Topic.messages,
        Topic.rows, MsgBusKafka.producePeer, MsgBusKafka.produce, MsgBusKafka.lookup,
        MsgBusKafka.erase])
  | updateBaseAttribute peer attr => cases topic <;> exact ⟨rfl, rfl⟩
  | updateLs object peer rows code => cases topic <;> exact ⟨rfl, rfl⟩
  | addStatReport peer stats => cases topic <;> exact ⟨rfl, rfl⟩
  | updateUnicastPrefix peer rib attr code =>
    cases topic with
    | unicastPrefix => simp [Topic.quiet] at quiet
    | l3vpn =>
      simp only [MsgBusKafka.step, MsgBusKafka.updateUnicastPrefix]
      split <;> exact ⟨rfl, rfl⟩
  | updateL3Vpn peer vpn attr code =>
    cases topic with
    | l3vpn => simp [Topic.quiet] at quiet
    | unicastPrefix =>
      simp only [MsgBusKafka.step, MsgBusKafka.updateL3Vpn]
      split <;> exact ⟨rfl, rfl⟩
  | updateEVPN peer vpn attr code =>
    simp only [MsgBusKafka.step, MsgBusKafka.updateEVPN]
    split <;> cases topic <;> exact ⟨rfl, rfl⟩
  | sendBmpRaw peer data =>
    simp only [MsgBusKafka.step, MsgBusKafka.sendBmpRaw]
    split <;> cases topic <;> exact ⟨rfl, rfl⟩

/-- What a sequence of calls does on a topic, from any bus: how many rows it numbers, and
its messages from the next number and the router address. -/
def Publishes (md5 : Md5) (topic : Topic) (calls : List KafkaCall) (added : Nat)
    (messages : Nat → Text → List (List RouteRow)) : Prop :=
  ∀ bus : MsgBusKafka,
    topic.view (bus.run md5 calls).1 = (topic.seq bus + added, bus.routerIp) ∧
      topic.messages (bus.run md5 calls).2 = messages (topic.seq bus) bus.routerIp

section Topics

variable {md5 : Md5} {topic : Topic}

theorem Publishes.append {calls calls' : List KafkaCall} {added added' : Nat}
    {messages messages' : Nat → Text → List (List RouteRow)}
    (first : Publishes md5 topic calls added messages)
    (second : Publishes md5 topic calls' added' messages') :
    Publishes md5 topic (calls ++ calls') (added + added')
      (fun seq ip => messages seq ip ++ messages' (seq + added) ip) := by
  intro bus
  obtain ⟨view, sent⟩ := first bus
  obtain ⟨view', sent'⟩ := second (bus.run md5 calls).1
  obtain ⟨seq, ip⟩ := Prod.mk.inj view
  rw [MsgBusKafka.run_append, messages_append, sent, sent', view', seq, ip, Nat.add_assoc]
  exact ⟨rfl, rfl⟩

theorem Publishes.of_quiet {calls : List KafkaCall}
    (quiet : ∀ call ∈ calls, topic.quiet call = true) :
    Publishes md5 topic calls 0 (fun _ _ => []) := by
  induction calls with
  | nil => exact fun bus => ⟨rfl, rfl⟩
  | cons call calls ih =>
    intro bus
    obtain ⟨view, sent⟩ := step_quiet md5 topic bus call (quiet call List.mem_cons_self)
    obtain ⟨view', sent'⟩ := ih (fun c hc => quiet c (List.mem_cons_of_mem _ hc))
      (bus.step md5 call).1
    obtain ⟨seq, ip⟩ := Prod.mk.inj view
    rw [MsgBusKafka.run, messages_append, sent, sent', view', seq, ip]
    exact ⟨rfl, rfl⟩

/-- The one message of a publisher, which an empty list does not cause. -/
def oneMessage (rows : List RouteRow) : List (List RouteRow) := if rows = [] then [] else [rows]

theorem publishUnicast_publishes (attr : Option KafkaAttr) (code : UnicastPrefixActionCode)
    (prefixes : List PrefixTuple) (given : code = .add → attr.isSome = true) :
    Publishes md5 .unicastPrefix (publishUnicast P attr code prefixes) prefixes.length
      (fun seq ip => oneMessage (rowsFrom (unicastRow md5 ⟨ip, P.peer, attr, code⟩) seq
        (prefixes.map ribEntry))) := by
  intro bus
  cases prefixes with
  | nil => exact ⟨rfl, rfl⟩
  | cons tuple rest =>
    have kept : abandoned ((tuple :: rest).map ribEntry) attr code = false := by
      cases code <;> simp_all [abandoned]
    have sent : publishUnicast P attr code (tuple :: rest) =
        [.updateUnicastPrefix P.peer ((tuple :: rest).map ribEntry) attr code] := rfl
    simp only [sent, MsgBusKafka.run, MsgBusKafka.step, MsgBusKafka.updateUnicastPrefix, kept,
      Bool.false_eq_true, if_false, List.append_nil, List.length_map]
    exact ⟨rfl, rfl⟩

theorem updateDBL3Vpn_publishes (attr : KafkaAttr) (code : UnicastPrefixActionCode)
    (prefixes : List VpnTuple) :
    Publishes md5 .l3vpn (updateDBL3Vpn P attr code prefixes) prefixes.length
      (fun seq ip => oneMessage (rowsFrom (vpnRow md5 ⟨ip, P.peer, some attr, code⟩) seq
        (prefixes.map vpnEntry))) := by
  intro bus
  cases prefixes with
  | nil => exact ⟨rfl, rfl⟩
  | cons tuple rest =>
    have kept : abandoned ((tuple :: rest).map vpnEntry) (some attr) code = false := by
      simp [abandoned]
    have sent : updateDBL3Vpn P attr code (tuple :: rest) =
        [.updateL3Vpn P.peer ((tuple :: rest).map vpnEntry) (some attr) code] := rfl
    simp only [sent, MsgBusKafka.run, MsgBusKafka.step, MsgBusKafka.updateL3Vpn, kept,
      Bool.false_eq_true, if_false, List.append_nil, List.length_map]
    exact ⟨rfl, rfl⟩

theorem publishAttrs_quiet (attrs : ParsedAttrsMap) :
    ∀ call ∈ publishAttrs P attrs, topic.quiet call = true := by
  unfold publishAttrs
  split <;> cases topic <;> simp [Topic.quiet]

theorem updateDbBgpLs_quiet (code : UnicastPrefixActionCode) (ls : D.LsData) :
    ∀ call ∈ updateDbBgpLs P code ls, topic.quiet call = true := by
  intro call sent
  simp only [updateDbBgpLs, List.mem_flatMap] at sent
  obtain ⟨object, -, sent⟩ := sent
  split at sent
  · rw [List.mem_singleton] at sent
    cases topic <;> simp [sent, Topic.quiet]
  · simp at sent

theorem updateDBeVPN_quiet (attr : KafkaAttr) (code : UnicastPrefixActionCode)
    (evpn : List EvpnTuple) : ∀ call ∈ updateDBeVPN P attr code evpn, topic.quiet call = true := by
  unfold updateDBeVPN
  split <;> cases topic <;> simp [Topic.quiet]

theorem publishUnicast_quiet (attr : Option KafkaAttr) (code : UnicastPrefixActionCode)
    (prefixes : List PrefixTuple) :
    ∀ call ∈ publishUnicast P attr code prefixes, Topic.l3vpn.quiet call = true := by
  unfold publishUnicast
  dsimp only
  split <;> simp [Topic.quiet]

theorem updateDBL3Vpn_quiet (attr : KafkaAttr) (code : UnicastPrefixActionCode)
    (prefixes : List VpnTuple) :
    ∀ call ∈ updateDBL3Vpn P attr code prefixes, Topic.unicastPrefix.quiet call = true := by
  unfold updateDBL3Vpn
  dsimp only
  split <;> simp [Topic.quiet]

end Topics

section Update

variable (md5 : Md5) (bus : MsgBusKafka) (parsed : ParsedUpdateData D)

private theorem attrs_ls_publish (topic : Topic) :
    Publishes md5 topic (publishAttrs P parsed.attrs ++
      (updateDbBgpLs P .add parsed.ls ++ updateDbBgpLs P .del parsed.lsWithdrawn)) 0
      (fun _ _ => []) :=
  (Publishes.of_quiet (publishAttrs_quiet P parsed.attrs)).append
    ((Publishes.of_quiet (updateDbBgpLs_quiet P .add parsed.ls)).append
      (Publishes.of_quiet (updateDbBgpLs_quiet P .del parsed.lsWithdrawn)))

private theorem evpn_publish (topic : Topic) (attr : KafkaAttr) :
    Publishes md5 topic (updateDBeVPN P attr .add parsed.evpn ++
      updateDBeVPN P attr .del parsed.evpnWithdrawn) 0 (fun _ _ => []) :=
  (Publishes.of_quiet (updateDBeVPN_quiet P attr .add parsed.evpn)).append
    (Publishes.of_quiet (updateDBeVPN_quiet P attr .del parsed.evpnWithdrawn))

/-- The unicast messages of an UPDATE: its advertised prefixes, then its withdrawn ones. -/
theorem updateDBKafka_unicast :
    Topic.unicastPrefix.messages (bus.run md5 (updateDBKafka P parsed)).2 =
      oneMessage (rowsFrom (unicastRow md5
          ⟨bus.routerIp, P.peer, some (baseAttr P parsed.attrs), .add⟩)
        bus.unicastPrefixSeq (parsed.advertised.map ribEntry)) ++
      oneMessage (rowsFrom (unicastRow md5 ⟨bus.routerIp, P.peer, none, .del⟩)
        (bus.unicastPrefixSeq + parsed.advertised.length) (parsed.withdrawn.map ribEntry)) := by
  let attr := baseAttr P parsed.attrs
  have vpn : Publishes md5 .unicastPrefix (updateDBL3Vpn P attr .add parsed.vpn ++
      updateDBL3Vpn P attr .del parsed.vpnWithdrawn) 0 (fun _ _ => []) :=
    (Publishes.of_quiet (updateDBL3Vpn_quiet P attr .add parsed.vpn)).append
      (Publishes.of_quiet (updateDBL3Vpn_quiet P attr .del parsed.vpnWithdrawn))
  have whole := ((((attrs_ls_publish P md5 parsed .unicastPrefix).append
    (publishUnicast_publishes P (some attr) .add parsed.advertised (fun _ => rfl))).append
      vpn).append (evpn_publish P md5 parsed .unicastPrefix attr)).append
    (publishUnicast_publishes P none .del parsed.withdrawn (by simp))
  simpa [updateDBKafka, Topic.seq, attr] using (whole bus).2

/-- The VPN messages of an UPDATE: its advertised routes, then its withdrawn ones. -/
theorem updateDBKafka_l3vpn :
    Topic.l3vpn.messages (bus.run md5 (updateDBKafka P parsed)).2 =
      oneMessage (rowsFrom (vpnRow md5
          ⟨bus.routerIp, P.peer, some (baseAttr P parsed.attrs), .add⟩)
        bus.l3vpnSeq (parsed.vpn.map vpnEntry)) ++
      oneMessage (rowsFrom (vpnRow md5
          ⟨bus.routerIp, P.peer, some (baseAttr P parsed.attrs), .del⟩)
        (bus.l3vpnSeq + parsed.vpn.length) (parsed.vpnWithdrawn.map vpnEntry)) := by
  let attr := baseAttr P parsed.attrs
  have unicast := fun attr code prefixes =>
    @Publishes.of_quiet md5 .l3vpn _ (publishUnicast_quiet P attr code prefixes)
  have whole := ((((attrs_ls_publish P md5 parsed .l3vpn).append
    (unicast (some attr) .add parsed.advertised)).append
      ((updateDBL3Vpn_publishes P attr .add parsed.vpn).append
        (updateDBL3Vpn_publishes P attr .del parsed.vpnWithdrawn))).append
      (evpn_publish P md5 parsed .l3vpn attr)).append (unicast none .del parsed.withdrawn)
  simpa [updateDBKafka, Topic.seq, attr] using (whole bus).2

end Update

end SonicBmp.Bgp.KafkaDb
