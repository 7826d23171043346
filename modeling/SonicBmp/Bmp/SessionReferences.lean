/- module: SonicBmp/Bmp/SessionReferences
   digest: In a session, the peer and the base attributes that a record refers to were published before it. -/

import SonicBmp.Bmp.Builds
import SonicBmp.Bus.KafkaPeers
import SonicBmp.Library.References

set_option autoImplicit false
set_option relaxedAutoImplicit false

namespace SonicBmp.Bmp.SessionReferences

open SonicBmp.Library.Printing (Text)
open SonicBmp.Library.Memory (Mem)
open SonicBmp.Library.Throwing
open SonicBmp.Library.References
open SonicBmp.Bgp.Common
open SonicBmp.Bgp.Update
open SonicBmp.Bgp.UpdateDb
open SonicBmp.Bgp.KafkaDb
open SonicBmp.Bus.Interface
open SonicBmp.Bus.Kafka
open SonicBmp.Bus.KafkaPeers (lookedUp step_lookedUp step_updatePeer)
open SonicBmp.Bmp.ParseBmp
open SonicBmp.Bmp.Reader
open SonicBmp.Bmp.KafkaSession
open SonicBmp.Bmp.Builds

/-! The peer stays the same while the body of its message is read. -/

theorem recv_keeps (len : Nat) : Keeps Parser.peer (recv len) := by
  rintro s got s' ⟨⟩
  simp only [Parser.keep]
  split <;> rfl

theorem bufferBMPMessage_keeps : Keeps Parser.peer bufferBMPMessage := by
  refine keeps_get_bind fun s => ?_
  refine keeps_ite (keeps_pure _) ?_
  refine keeps_ite (keeps_throw _) ?_
  refine (recv_keeps _).bind fun got => ?_
  exact keeps_ite (keeps_throw _) (keeps_modify fun _ => rfl)

theorem parsePeerDownEventHdr_keeps : Keeps Parser.peer parsePeerDownEventHdr := by
  refine (recv_keeps 1).bind fun got => ?_
  cases got with
  | nil => exact keeps_pure _
  | cons reason _ =>
    refine keeps_modify_bind (fun _ => rfl) ?_
    exact keeps_pure _

theorem finishPeerUp_keeps (isParseGood : Bool) (bytesRead : Nat) (upEvent : ObjPeerUpEvent) :
    Keeps Parser.peer (finishPeerUp isParseGood bytesRead upEvent) := by
  refine keeps_modify_bind (fun _ => rfl) ?_
  refine bufferBMPMessage_keeps.bind fun _ => ?_
  exact keeps_ite (keeps_pure _) (bufferBMPMessage_keeps.bind fun _ => keeps_pure _)

theorem parsePeerUpEventHdr_keeps (upEvent : ObjPeerUpEvent) :
    Keeps Parser.peer (parsePeerUpEventHdr upEvent) := by
  refine keeps_get_bind fun s => ?_
  refine (recv_keeps 16).bind fun addr => ?_
  refine keeps_ite (finishPeerUp_keeps _ _ _) ?_
  refine (recv_keeps 2).bind fun port => ?_
  refine keeps_ite (finishPeerUp_keeps _ _ _) ?_
  refine (recv_keeps 2).bind fun port' => ?_
  exact keeps_ite (finishPeerUp_keeps _ _ _) (finishPeerUp_keeps _ _ _)

theorem skipBytes_keeps (n : Nat) : Keeps Parser.peer (skipBytes n) := by
  induction n with
  | zero => exact keeps_pure _
  | succ n ih => exact (recv_keeps 1).bind fun _ => ih

theorem statsLoop_keeps (n : Nat) (stats : ObjStatsReport) : Keeps Parser.peer (statsLoop n stats) := by
  induction n generalizing stats with
  | zero => exact keeps_pure _
  | succ n ih =>
    refine (recv_keeps 2).bind fun type => ?_
    refine keeps_ite (keeps_throw _) ?_
    refine (recv_keeps 2).bind fun len => ?_
    refine keeps_ite (keeps_throw _) ?_
    refine keeps_modify_bind (fun _ => rfl) ?_
    refine keeps_ite ?_ ((skipBytes_keeps _).bind fun _ => ih stats)
    refine (recv_keeps _).bind fun b => ?_
    refine keeps_ite ?_ (ih stats)
    refine keeps_modify_bind (fun _ => rfl) ?_
    exact ih _

theorem handleStatsReport_keeps : Keeps Parser.peer handleStatsReport := by
  refine (recv_keeps 4).bind fun b => ?_
  refine keeps_ite (keeps_throw _) ?_
  refine keeps_modify_bind (fun _ => rfl) ?_
  exact statsLoop_keeps _ _

theorem handleInitMsg_keeps (beyond : Mem) : Keeps Parser.peer (handleInitMsg beyond) :=
  bufferBMPMessage_keeps.bind fun _ => keeps_get_bind fun _ => keeps_pure _

theorem handleTermMsg_keeps (beyond : Mem) : Keeps Parser.peer (handleTermMsg beyond) :=
  bufferBMPMessage_keeps.bind fun _ => keeps_get_bind fun _ => keeps_pure _

/-! Hashes. -/

/-- The hash that a call enters into the cache of peers without producing a peer record: that
of the peer it publishes something about, or of a peer that comes up without an event. -/
def usesHash (md5 : Md5) : KafkaCall → Option Text
  | .updatePeer peer none _ .up => some (peerHash md5 peer)
  | .updateRouter _ _ | .updatePeer _ _ _ _ => none
  | .updateBaseAttribute peer _ | .updateUnicastPrefix peer _ _ _ | .updateL3Vpn peer _ _ _
  | .updateEVPN peer _ _ _ | .updateLs _ peer _ _ | .addStatReport peer _ | .sendBmpRaw peer _ =>
    some (hashToStr peer.hashId)

def NeedsPeer (md5 : Md5) (call : KafkaCall) (hash : Text) : Prop := usesHash md5 call = some hash

/-- The call after which a peer record with this hash has been produced. -/
def GivesPeer (md5 : Md5) : KafkaCall → Text → Prop
  | .updatePeer peer up down code, hash =>
    hash = peerHash md5 peer ∧
      match code with
      | .first => True
      | .up => up.isSome
      | .down => down.isSome
  | _, _ => False

/-- The attributes whose hash the rows of a call show, with their peer. -/
def shownAttr : KafkaCall → Option (KafkaPeer × KafkaAttr)
  | .updateUnicastPrefix peer _ attr .add | .updateL3Vpn peer _ attr .add | .updateEVPN peer _ attr _ =>
    attr.map fun attr => (peer, attr)
  | _ => none

def NeedsAttr (call : KafkaCall) (key : KafkaPeer × KafkaAttr) : Prop := shownAttr call = some key

def GivesAttr (md5 : Md5) : KafkaCall → KafkaPeer × KafkaAttr → Prop
  | .updateBaseAttribute peer attr, key =>
    key = (peer, ⟨attr, md5 (attrHashInput (hashToStr peer.hashId) attr)⟩)
  | _, _ => False

/-- Attributes without a next hop are not published. -/
def NoNextHop (key : KafkaPeer × KafkaAttr) : Prop := key.2.attr.nextHop = []

section Message

variable {D : Decoders} {md5 : Md5} {env : KafkaEnv D}

/-- Two peers that are hashed alike. -/
def SameKey (peer peer' : ObjBgpPeer) : Prop :=
  peer.peerAddr = peer'.peerAddr ∧ peer.peerRd = peer'.peerRd

theorem SameKey.hash {peer peer' : ObjBgpPeer} (same : SameKey peer peer') :
    (env.peer md5 peer).hashId = (env.peer md5 peer').hashId := by
  simp only [KafkaEnv.peer, peerHashInput, same.1, same.2]

/-- The hash of the peer of a message. -/
def hashText (md5 : Md5) (env : KafkaEnv D) (s : Parser) : Text :=
  hashToStr (env.peer md5 s.peer).hashId

/-- A header brings a peer record unless the message has no peer or is a PEER_UP itself. -/
def Announced (s : Parser) : Prop := hasPeer s = true ∧ s.bmpType ≠ typePeerUp

/-- What the body of a message publishes: only things about its own peer, which has then been
announced, and a peer record where it has one. -/
structure Body (md5 : Md5) (env : KafkaEnv D) (s : Parser) (calls : List KafkaCall)
    (aboutPeer : List BusCall) (s' : Parser) : Prop where
  key : SameKey s'.peer s.peer
  uses : ∀ call ∈ calls, ∀ hash, NeedsPeer md5 call hash →
    hash = hashText md5 env s ∧ Announced s
  gives : (∃ peer up down code, BusCall.updatePeer peer up down code ∈ aboutPeer) →
    ∃ call ∈ calls, GivesPeer md5 call (hashText md5 env s)
  attrs : Justified (GivesAttr md5) NeedsAttr NoNextHop calls

theorem peerDown_body (s : Parser) :
    Returns (peerDown env.toEnv) s
      (fun calls s' => Body md5 env s (calls.map (env.call md5)) calls s') := by
  refine (parsePeerDownEventHdr_keeps s).bind fun reason s₁ same => ?_
  cases reason with
  | none => exact returns_throw
  | some reason =>
    refine (bufferBMPMessage_keeps s₁).bind fun _ s₂ same' => ?_
    have key : s₂.peer = s.peer := same'.trans same
    apply returns_get_bind
    split
    · exact returns_throw
    · refine returns_pure ⟨by rw [key]; exact ⟨rfl, rfl⟩,
        by simp [NeedsPeer, usesHash, KafkaEnv.call], fun _ => ?_,
        by simp [Justified, NeedsAttr, shownAttr, KafkaEnv.call]⟩
      refine ⟨_, List.mem_cons_self, ?_, rfl⟩
      rw [hashText, ← key]
      rfl

theorem peerUp_body (info : PeerInfo) (s : Parser) :
    Returns (peerUp env.toEnv info) s
      (fun result s' => Body md5 env s (result.1.map (env.call md5)) result.1 s') := by
  refine (parsePeerUpEventHdr_keeps _ s).bind fun header s₁ same => ?_
  obtain ⟨isParseGood, upEvent⟩ := header
  cases isParseGood with
  | false => exact returns_pure ⟨by rw [same]; exact ⟨rfl, rfl⟩, by simp, by simp, trivial⟩
  | true =>
    refine (bufferBMPMessage_keeps s₁).bind fun _ s₂ same' => ?_
    have key : s₂.peer = s.peer := same'.trans same
    apply returns_get_bind
    dsimp only
    split
    · exact returns_throw
    · rename_i read upEvent info' handled
      have informed (tlvs : List InfoTlv) : SameKey
          (if read < s₂.bmpData.length then { s₂.peer with info := tlvs } else s₂.peer) s.peer := by
        rw [← key]
        split <;> exact ⟨rfl, rfl⟩
      apply returns_modify_bind
      refine returns_pure ⟨informed _, by simp [NeedsPeer, usesHash, KafkaEnv.call], fun _ => ?_,
        by simp [Justified, NeedsAttr, shownAttr, KafkaEnv.call]⟩
      refine ⟨_, List.mem_cons_self, ?_, rfl⟩
      exact congrArg hashToStr (informed _).hash.symm

/-- The calls of an UPDATE after that of its attributes. -/
inductive RouteCall (peer : KafkaPeer) (attr : KafkaAttr) : KafkaCall → Prop
  | ls (object : LsObject) (rows : Nat) (code : UnicastPrefixActionCode) :
    RouteCall peer attr (.updateLs object peer rows code)
  | advertised (rib : List ObjRib) : RouteCall peer attr (.updateUnicastPrefix peer rib (some attr) .add)
  | vpn (entries : List ObjVpn) (code : UnicastPrefixActionCode) :
    RouteCall peer attr (.updateL3Vpn peer entries (some attr) code)
  | evpn (entries : List EvpnTuple) (code : UnicastPrefixActionCode) :
    RouteCall peer attr (.updateEVPN peer entries (some attr) code)
  | withdrawn (rib : List ObjRib) : RouteCall peer attr (.updateUnicastPrefix peer rib none .del)

theorem updateDBKafka_split (P : Publisher D) (parsed : ParsedUpdateData D) :
    ∃ rest, updateDBKafka P parsed = publishAttrs P parsed.attrs ++ rest ∧
      ∀ call ∈ rest, RouteCall P.peer (baseAttr P parsed.attrs) call := by
  have single {entries : Nat} {call : KafkaCall}
      (route : RouteCall P.peer (baseAttr P parsed.attrs) call) :
      ∀ call' ∈ (if 0 < entries then [call] else []),
        RouteCall P.peer (baseAttr P parsed.attrs) call' := by
    intro call' here
    split at here
    · rw [List.mem_singleton.mp here]
      exact route
    · simp at here
  have ls (code : UnicastPrefixActionCode) (data : D.LsData) :
      ∀ call ∈ updateDbBgpLs P code data, RouteCall P.peer (baseAttr P parsed.attrs) call := by
    intro call here
    obtain ⟨object, -, here⟩ := List.mem_flatMap.mp here
    exact single (.ls object _ code) call here
  simp only [updateDBKafka, List.append_assoc]
  refine ⟨_, rfl, ?_⟩
  simp only [List.forall_mem_append]
  exact ⟨ls _ _, ls _ _, single (.advertised _), single (.vpn _ _), single (.vpn _ _),
    single (.evpn _ _), single (.evpn _ _), single (.withdrawn _)⟩

/-- Everything an UPDATE publishes is about its peer. -/
theorem updateDBKafka_uses (md5 : Md5) (P : Publisher D) (parsed : ParsedUpdateData D) :
    ∀ call ∈ updateDBKafka P parsed, usesHash md5 call = some (hashToStr P.peer.hashId) := by
  obtain ⟨rest, split, routes⟩ := updateDBKafka_split P parsed
  rw [split]
  intro call here
  rcases List.mem_append.mp here with attrs | route
  · unfold publishAttrs at attrs
    split at attrs
    · simp at attrs
    · rw [List.mem_singleton.mp attrs]
      rfl
  · cases routes call route <;> rfl

/-- The attributes of an UPDATE go out before the routes that show their hash. -/
theorem updateDBKafka_attrs (P : Publisher D) (parsed : ParsedUpdateData D) :
    Justified (GivesAttr P.md5) NeedsAttr NoNextHop (updateDBKafka P parsed) := by
  have given : NoNextHop (P.peer, baseAttr P parsed.attrs) ∨
      ∃ call ∈ publishAttrs P parsed.attrs, GivesAttr P.md5 call (P.peer, baseAttr P parsed.attrs) := by
    unfold publishAttrs
    split
    · rename_i missing
      left
      simp only [NoNextHop, baseAttr, updateDBAttrs, missing]
      rfl
    · rename_i present
      refine Or.inr ⟨_, List.mem_cons_self, ?_⟩
      simp only [GivesAttr, baseAttr, if_neg present]
  obtain ⟨rest, split, routes⟩ := updateDBKafka_split P parsed
  rw [split]
  refine justified_append.mpr ⟨?_, justified_of_needs_known fun call here key need => ?_⟩
  · unfold publishAttrs
    split
    · trivial
    · exact ⟨fun key need => absurd need (by simp [NeedsAttr, shownAttr]), trivial⟩
  · have shown : key = (P.peer, baseAttr P parsed.attrs) := by
      cases routes call here with
      | ls | withdrawn => cases need
      | advertised | evpn => exact (Option.some.inj need).symm
      | vpn entries code =>
        cases code with
        | add => exact (Option.some.inj need).symm
        | del => cases need
    rw [shown]
    exact given

theorem routeMonKafka_body (info : PeerInfo) (s : Parser) (type : s.bmpType = typeRouteMon) :
    Returns (routeMonKafka D md5 env info) s (fun result s' => Body md5 env s result.1 [] s') := by
  refine (bufferBMPMessage_keeps s).bind fun _ s₁ same => ?_
  apply returns_get_bind
  let P : Publisher D := ⟨md5, env.peer md5 s₁.peer, env.lsSize, env.memoryHash⟩
  have published := (handleUpdate_publishes (updateDBKafka P) (updateDBKafka P) info
    (bmpDataMem env.beyond s₁.bmpData) 0 s₁.bmpData.length).2
  refine returns_pure ⟨by rw [same]; exact ⟨rfl, rfl⟩, ?_, by simp, ?_⟩
  · intro call here hash need
    rw [published] at here
    refine ⟨?_, by simp [hasPeer, type, typeRouteMon], by rw [type]; decide⟩
    cases parsed : (handleUpdate D (updateDBKafka P) info (bmpDataMem env.beyond s₁.bmpData) 0
        s₁.bmpData.length).passed with
    | none =>
      rw [parsed] at here
      simp at here
    | some data =>
      rw [parsed] at here
      rw [hashText, ← same]
      exact Option.some.inj (need.symm.trans (updateDBKafka_uses md5 P data call here))
  · rw [published]
    cases (handleUpdate D (updateDBKafka P) info (bmpDataMem env.beyond s₁.bmpData) 0
        s₁.bmpData.length).passed with
    | none => trivial
    | some data => exact updateDBKafka_attrs P data

/-- The other bodies: a router or a peer record, statistics, or nothing. -/
theorem processMessage_body (peers : PeerInfoMap) (s : Parser) (other : s.bmpType ≠ typeRouteMon) :
    Returns (processMessage D env.toEnv peers) s
      (fun done s' => Body md5 env s (done.calls.map (env.call md5)) done.calls s') := by
  apply returns_get_bind
  dsimp only
  split
  · exact (peerDown_body s).bind fun calls s₁ body => returns_pure body
  split
  · exact (peerUp_body _ s).bind fun result s₁ body => returns_pure body
  split
  · rename_i type
    refine (handleStatsReport_keeps s).bind fun stats s₁ same => returns_pure ?_
    refine ⟨by rw [same]; exact ⟨rfl, rfl⟩, ?_, by simp, by simp [Justified, NeedsAttr, shownAttr, KafkaEnv.call]⟩
    intro call here hash need
    rw [List.map_singleton, List.mem_singleton] at here
    rw [here] at need
    refine ⟨(Option.some.inj need).symm, by simp [hasPeer, type, typeStatsReport], by rw [type]; decide⟩
  split
  · refine (handleInitMsg_keeps _ s).bind fun tlvs s₁ same => returns_pure ?_
    exact ⟨by rw [same]; exact ⟨rfl, rfl⟩, by simp [NeedsPeer, usesHash, KafkaEnv.call], by simp,
      by simp [Justified, NeedsAttr, shownAttr, KafkaEnv.call]⟩
  split
  · refine (handleTermMsg_keeps _ s).bind fun tlvs s₁ same => returns_pure ?_
    exact ⟨by rw [same]; exact ⟨rfl, rfl⟩, by simp [NeedsPeer, usesHash, KafkaEnv.call], by simp,
      by simp [Justified, NeedsAttr, shownAttr, KafkaEnv.call]⟩
  · exact returns_pure ⟨⟨rfl, rfl⟩, by simp, by simp, trivial⟩

theorem processMessageKafka_body (peers : PeerInfoMap) (s : Parser) :
    Returns (processMessageKafka D md5 env peers) s
      (fun done s' => Body md5 env s done.calls done.aboutPeer s') := by
  apply returns_get_bind
  split
  · rename_i type
    exact (routeMonKafka_body _ s type).bind fun result s₁ body => returns_pure body
  · rename_i other
    exact (processMessage_body peers s other).bind fun done s₁ body => returns_pure body

theorem mem_headerCalls {s : Parser} {call : BusCall} (here : call ∈ headerCalls s) :
    call = .updateRouter [] .first ∨ call = .updatePeer s.peer none none .first ∧ Announced s := by
  rcases List.mem_append.mp here with router | peer
  · split at router
    · exact Or.inl (List.mem_singleton.mp router)
    · simp at router
  · split at peer
    · rename_i announced
      exact Or.inr ⟨List.mem_singleton.mp peer, announced⟩
    · simp at peer

/-- The calls of the header need nothing. -/
theorem headerCalls_justified {κ : Type} {gives needs : KafkaCall → κ → Prop} {known : κ → Prop}
    (router : ∀ router code key, ¬ needs (.updateRouter router code) key)
    (peer : ∀ peer up down key, ¬ needs (.updatePeer peer up down .first) key) (s : Parser) :
    Justified gives needs known ((headerCalls s).map (env.call md5)) := by
  refine justified_of_needs_known fun call here key need => ?_
  obtain ⟨call, inHeader, rfl⟩ := List.mem_map.mp here
  rcases mem_headerCalls inHeader with rfl | ⟨rfl, -⟩
  · exact absurd need (router _ _ key)
  · exact absurd need (peer _ _ _ key)

theorem headerCalls_gives {s : Parser} (announced : Announced s) :
    ∃ call ∈ (headerCalls s).map (env.call md5), GivesPeer md5 call (hashText md5 env s) := by
  refine ⟨env.call md5 (.updatePeer s.peer none none .first), ?_, rfl, trivial⟩
  apply List.mem_map_of_mem
  simp [headerCalls, announced.1, announced.2]

/-- The raw packet goes out under the hash of the peer only where a call was about it. -/
theorem rawCall_needs {calls : List BusCall} {peer : ObjBgpPeer} {data : List UInt8} {hash : Text}
    (need : NeedsPeer md5 (env.rawCall md5 calls peer data) hash) :
    hash = hashToStr env.memoryHash ∨
      hash = hashToStr (env.peer md5 peer).hashId ∧
        ∃ peer up down code, BusCall.updatePeer peer up down code ∈ calls := by
  unfold KafkaEnv.rawCall at need
  dsimp only at need
  split at need
  · rename_i about
    obtain ⟨call, here, isPeer⟩ := List.any_eq_true.mp about
    refine Or.inr ⟨(Option.some.inj need).symm, ?_⟩
    cases call with
    | updatePeer peer up down code => exact ⟨peer, up, down, code, here⟩
    | _ => cases isPeer
  · exact Or.inl (Option.some.inj need).symm

/-- What a message publishes: a router record when it cannot be read, and otherwise the calls
of its header, followed by such a record, or by those of its body and the raw packet. -/
inductive MessageCalls (md5 : Md5) (env : KafkaEnv D) : List KafkaCall → Prop
  | unread (router : ObjRouter) : MessageCalls md5 env [.updateRouter router .term]
  | thrown (s : Parser) (router : ObjRouter) :
    MessageCalls md5 env ((headerCalls s).map (env.call md5) ++ [.updateRouter router .term])
  | whole {s s' : Parser} {calls : List KafkaCall} {aboutPeer : List BusCall}
    (body : Body md5 env s calls aboutPeer s') :
    MessageCalls md5 env ((headerCalls s).map (env.call md5) ++ calls ++
      [env.rawCall md5 (headerCalls s ++ aboutPeer) s'.peer s'.packet])

theorem readIncomingMsgKafka_calls (peers : PeerInfoMap) (stream : List UInt8) :
    MessageCalls md5 env (readIncomingMsgKafka D md5 env peers stream).calls := by
  unfold readIncomingMsgKafka
  cases (handleMessage env.clock).run (Parser.new stream) with
  | error text => exact .unread _
  | ok parsed =>
    obtain ⟨⟨⟩, s⟩ := parsed
    dsimp only
    cases run : (processMessageKafka D md5 env (notePeer peers s)).run s with
    | error text => exact .thrown s _
    | ok processed =>
      obtain ⟨done, s'⟩ := processed
      exact .whole (processMessageKafka_body (notePeer peers s) s done s' run)

/-- Each message introduces its peer before it publishes anything about it; only a raw packet
without a peer goes out under the hash that was in memory. -/
theorem MessageCalls.peers {calls : List KafkaCall} (message : MessageCalls md5 env calls) :
    Justified (GivesPeer md5) (NeedsPeer md5) (fun hash => hash = hashToStr env.memoryHash) calls := by
  have router (router : ObjRouter) (code : RouterActionCode) (hash : Text) :
      ¬ NeedsPeer md5 (.updateRouter router code) hash := by
    intro need
    cases need
  have first (peer : KafkaPeer) (up : Option ObjPeerUpEvent) (down : Option ObjPeerDownEvent)
      (hash : Text) : ¬ NeedsPeer md5 (.updatePeer peer up down .first) hash := by
    intro need
    cases up <;> cases need
  have header := @headerCalls_justified D md5 env _ (GivesPeer md5) (NeedsPeer md5)
    (fun hash => hash = hashToStr env.memoryHash) router first
  cases message with
  | unread => exact ⟨fun hash need => absurd need (router _ _ hash), trivial⟩
  | thrown s =>
    exact (header s).append ⟨fun hash need => absurd need (router _ _ hash), trivial⟩
  | whole body =>
    refine justified_append.mpr ⟨justified_append.mpr ⟨header _, ?_⟩, ?_, trivial⟩
    · refine justified_of_needs_known fun call here hash need => ?_
      obtain ⟨rfl, announced⟩ := body.uses call here hash need
      exact Or.inr (headerCalls_gives announced)
    · intro hash need
      rcases rawCall_needs need with garbage | ⟨rfl, peer, up, down, code, here⟩
      · exact Or.inl garbage
      · right
        rw [body.key.hash]
        rcases List.mem_append.mp here with inHeader | inBody
        · rcases mem_headerCalls inHeader with other | ⟨-, announced⟩
          · cases other
          · obtain ⟨call, mem, gives⟩ := @headerCalls_gives D md5 env _ announced
            exact ⟨call, List.mem_append_left _ mem, gives⟩
        · obtain ⟨call, mem, gives⟩ := body.gives ⟨peer, up, down, code, inBody⟩
          exact ⟨call, List.mem_append_right _ mem, gives⟩

/-- Each message publishes its attributes before the routes that show their hash. -/
theorem MessageCalls.attrs {calls : List KafkaCall} (message : MessageCalls md5 env calls) :
    Justified (GivesAttr md5) NeedsAttr NoNextHop calls := by
  have router (router : ObjRouter) (code : RouterActionCode) (key : KafkaPeer × KafkaAttr) :
      ¬ NeedsAttr (.updateRouter router code) key := by
    intro need
    cases need
  have first (peer : KafkaPeer) (up : Option ObjPeerUpEvent) (down : Option ObjPeerDownEvent)
      (key : KafkaPeer × KafkaAttr) : ¬ NeedsAttr (.updatePeer peer up down .first) key := by
    intro need
    cases need
  have header := @headerCalls_justified D md5 env _ (GivesAttr md5) NeedsAttr NoNextHop router first
  cases message with
  | unread => exact ⟨fun key need => absurd need (router _ _ key), trivial⟩
  | thrown s => exact (header s).append ⟨fun key need => absurd need (router _ _ key), trivial⟩
  | whole body =>
    refine ((header _).append body.attrs).append ⟨fun key need => ?_, trivial⟩
    unfold KafkaEnv.rawCall at need
    dsimp only at need
    split at need <;> cases need

end Message

/-! Sessions. -/

section Session

variable (D : Decoders) (md5 : Md5)

/-- The hashes that raw packets without a peer may go out under. -/
def FromMemory (envs : Nat → KafkaEnv D) (hash : Text) : Prop :=
  ∃ i, hash = hashToStr (envs i).memoryHash

theorem session_justified (envs : Nat → KafkaEnv D) (n : Nat) (peers : PeerInfoMap)
    (stream : List UInt8) :
    Justified (GivesPeer md5) (NeedsPeer md5) (FromMemory D envs)
      (sessionCalls D md5 envs n peers stream).1 := by
  refine sessionCalls_induct D md5 trivial Justified.append (fun i peers stream => ?_) n peers stream
  exact (readIncomingMsgKafka_calls peers stream).peers.mono fun hash same => ⟨i, same⟩

theorem session_attrs (envs : Nat → KafkaEnv D) (n : Nat) (peers : PeerInfoMap)
    (stream : List UInt8) :
    Justified (GivesAttr md5) NeedsAttr NoNextHop (sessionCalls D md5 envs n peers stream).1 :=
  sessionCalls_induct D md5 trivial Justified.append (fun _ peers stream =>
    (readIncomingMsgKafka_calls peers stream).attrs) n peers stream

end Session

/-! The bus. -/

/-- A peer record with this hash is among the records. -/
def Recorded (records : List KafkaRecord) (hash : Text) : Prop :=
  ∃ action seq peer up down, KafkaRecord.peer action seq hash peer up down ∈ records

theorem Recorded.mono {records records' : List KafkaRecord} {hash : Text}
    (recorded : Recorded records hash) (more : records ⊆ records') : Recorded records' hash := by
  obtain ⟨action, seq, peer, up, down, here⟩ := recorded
  exact ⟨action, seq, peer, up, down, more here⟩

theorem needsPeer_of_lookedUp {md5 : Md5} {call : KafkaCall} {hash : Text}
    (looked : lookedUp call = some hash) : NeedsPeer md5 call hash := by
  cases call with
  | updateRouter => cases looked
  | updatePeer => cases looked
  | updateBaseAttribute => exact looked
  | updateLs => exact looked
  | addStatReport => exact looked
  | updateUnicastPrefix | updateL3Vpn | updateEVPN | sendBmpRaw =>
    simp only [lookedUp] at looked
    split at looked
    · cases looked
    · exact looked

/-- A hash comes into the cache by a call that needs or gives its peer. -/
theorem peerList_step {md5 : Md5} {bus : MsgBusKafka} {call : KafkaCall} {hash : Text}
    (cached : (bus.step md5 call).1.peerList hash = true) :
    bus.peerList hash = true ∨ NeedsPeer md5 call hash ∨ GivesPeer md5 call hash := by
  by_cases own : ∃ peer up down code, call = .updatePeer peer up down code
  · obtain ⟨peer, up, down, code, rfl⟩ := own
    rw [(step_updatePeer peer up down code hash).1] at cached
    split at cached
    · rename_i same
      right
      cases code with
      | first => exact Or.inr ⟨same, trivial⟩
      | up =>
        cases up with
        | none => exact Or.inl (by rw [same]; rfl)
        | some event => exact Or.inr ⟨same, rfl⟩
      | down => exact Or.inr ⟨same, cached⟩
    · exact Or.inl cached
  · push Not at own
    rw [(step_lookedUp call own).2] at cached
    cases looked : lookedUp call with
    | none =>
      rw [looked] at cached
      exact Or.inl cached
    | some hash' =>
      rw [looked, Option.elim_some] at cached
      by_cases same : hash = hash'
      · exact Or.inr (Or.inl (needsPeer_of_lookedUp (by rw [looked, same])))
      · rw [Function.update_of_ne same] at cached
        exact Or.inl cached

/-- A call that gives a peer produces its record unless the peer is in the cache. -/
theorem gives_step {md5 : Md5} {call : KafkaCall} {hash : Text} (gives : GivesPeer md5 call hash)
    (bus : MsgBusKafka) :
    bus.peerList hash = true ∨ Recorded (bus.step md5 call).2 hash := by
  cases call with
  | updatePeer peer up down code =>
    obtain ⟨rfl, event⟩ := gives
    cases code with
    | first =>
      by_cases cached : bus.peerList (peerHash md5 peer) = true
      · exact Or.inl cached
      · right
        simp only [MsgBusKafka.step, MsgBusKafka.updatePeer, if_neg cached]
        exact ⟨_, _, _, _, _, List.mem_cons_self⟩
    | up =>
      right
      simp only [MsgBusKafka.step, MsgBusKafka.updatePeer, if_pos event]
      exact ⟨_, _, _, _, _, List.mem_cons_self⟩
    | down =>
      right
      simp only [MsgBusKafka.step, MsgBusKafka.updatePeer, if_pos event]
      exact ⟨_, _, _, _, _, List.mem_cons_self⟩
  | _ => exact gives.elim

/-- The bus has produced a record for every hash in its cache, but for those known from the
start; a call that needs only such hashes keeps this, and what it gives is then recorded. -/
theorem step_recorded {md5 : Md5} {known : Text → Prop} {bus : MsgBusKafka} {call : KafkaCall}
    {records : List KafkaRecord}
    (cached : ∀ hash, bus.peerList hash = true → known hash ∨ Recorded records hash)
    (needs : ∀ hash, NeedsPeer md5 call hash → known hash ∨ Recorded records hash) (hash : Text)
    (after : (bus.step md5 call).1.peerList hash = true ∨ GivesPeer md5 call hash) :
    known hash ∨ Recorded (records ++ (bus.step md5 call).2) hash := by
  have earlier : known hash ∨ Recorded records hash →
      known hash ∨ Recorded (records ++ (bus.step md5 call).2) hash :=
    Or.imp_right fun recorded => recorded.mono (List.subset_append_left _ _)
  have given (gives : GivesPeer md5 call hash) :
      known hash ∨ Recorded (records ++ (bus.step md5 call).2) hash := by
    rcases gives_step gives bus with before | now
    · exact earlier (cached hash before)
    · exact Or.inr (now.mono (List.subset_append_right _ _))
  rcases after with now | gives
  · rcases peerList_step now with before | need | gives
    · exact earlier (cached hash before)
    · exact earlier (needs hash need)
    · exact given gives
  · exact given gives

theorem run_recorded {md5 : Md5} {known known' : Text → Prop} {calls : List KafkaCall}
    {bus : MsgBusKafka} {records : List KafkaRecord}
    (just : Justified (GivesPeer md5) (NeedsPeer md5) known' calls)
    (cached : ∀ hash, bus.peerList hash = true → known hash ∨ Recorded records hash)
    (before : ∀ hash, known' hash → known hash ∨ Recorded records hash) (hash : Text)
    (given : ∃ call ∈ calls, GivesPeer md5 call hash) :
    known hash ∨ Recorded (records ++ (bus.run md5 calls).2) hash := by
  induction calls generalizing known' bus records with
  | nil => simp at given
  | cons call calls ih =>
    have step := step_recorded cached fun hash need => before hash (just.1 hash need)
    rw [MsgBusKafka.run, ← List.append_assoc]
    obtain ⟨giver, here, gives⟩ := given
    rcases List.mem_cons.mp here with rfl | later
    · exact (step hash (Or.inr gives)).imp_right fun recorded =>
        recorded.mono (List.subset_append_left _ _)
    · refine ih just.2 (fun hash now => step hash (Or.inl now)) (fun hash known => ?_)
        ⟨giver, later, gives⟩
      rcases known with known | given
      · exact (before hash known).imp_right fun recorded =>
          recorded.mono (List.subset_append_left _ _)
      · exact step hash (Or.inr given)

/-- Whatever a session publishes about a peer comes after a peer record with its hash. -/
theorem peer_recorded_before (D : Decoders) (md5 : Md5) (envs : Nat → KafkaEnv D) (n : Nat)
    (peers : PeerInfoMap) (stream : List UInt8) (topicSel : Bool) (before after : List KafkaCall)
    (call : KafkaCall) (hash : Text)
    (session : (sessionCalls D md5 envs n peers stream).1 = before ++ call :: after)
    (need : NeedsPeer md5 call hash) :
    FromMemory D envs hash ∨ Recorded ((MsgBusKafka.new topicSel).run md5 before).2 hash := by
  have just := session_justified D md5 envs n peers stream
  rw [session] at just
  rcases just.split need with garbage | given
  · exact Or.inl garbage
  · exact @run_recorded md5 _ _ before (MsgBusKafka.new topicSel) [] (justified_append.mp just).1
      (fun _ cached => Bool.noConfusion cached) (fun _ => Or.inl) hash given

/-- A statistics report without any counter. -/
def statsMsg : List UInt8 := [3, 0, 0, 0, 52, 1] ++ List.replicate 46 0

def onesMd5 : Md5 := fun _ => Vector.replicate 16 1

/-- The session of a single statistics report. -/
def statsCalls : List KafkaCall :=
  (sessionCalls Decoders.silent onesMd5 (fun _ => plainEnv) 1 (fun _ => none) statsMsg).1

theorem peer_recorded_before_stats :
    Recorded ((MsgBusKafka.new false).run onesMd5 (statsCalls.take 2)).2 (hashToStr (onesMd5 [])) := by
  have session : statsCalls = statsCalls.take 2 ++ statsCalls.get ⟨2, by decide⟩ :: statsCalls.drop 3 :=
    rfl
  rcases peer_recorded_before Decoders.silent onesMd5 (fun _ => plainEnv) 1 (fun _ => none) statsMsg
    false _ _ _ (hashToStr (onesMd5 [])) session rfl with ⟨_, garbage⟩ | recorded
  · have other : hashToStr (onesMd5 []) ≠ hashToStr HashId.zero := by decide
    exact absurd garbage other
  · exact recorded

/-- What one of the calls of a run produces is among the records. -/
theorem step_subset_run {md5 : Md5} {calls : List KafkaCall} {call : KafkaCall} (here : call ∈ calls)
    (bus : MsgBusKafka) : ∃ bus' : MsgBusKafka, (bus'.step md5 call).2 ⊆ (bus.run md5 calls).2 := by
  induction calls generalizing bus with
  | nil => simp at here
  | cons first calls ih =>
    rcases List.mem_cons.mp here with rfl | later
    · exact ⟨bus, List.subset_append_left _ _⟩
    · obtain ⟨bus', subset⟩ := ih later (bus.step md5 first).1
      exact ⟨bus', List.subset_append_of_subset_right _ subset⟩

/-- An UPDATE that announces 10.0.0.0/8 with a next hop. -/
def routeMsg : List UInt8 :=
  [3, 0, 0, 0, 80, 0] ++ List.replicate 42 0 ++ List.replicate 16 255 ++
    [0, 32, 2, 0, 0, 0, 7, 64, 3, 4, 1, 2, 3, 4, 8, 10]

def routeCalls : List KafkaCall :=
  (sessionCalls Decoders.silent onesMd5 (fun _ => plainEnv) 1 (fun _ => none) routeMsg).1

end SonicBmp.Bmp.SessionReferences
