/- module: SonicBmp/Bmp/KafkaSession
   digest: The reader of the Kafka build, and the router records of a whole session. -/

import SonicBmp.Bgp.KafkaDb
import SonicBmp.Bmp.Reader

set_option autoImplicit false
set_option relaxedAutoImplicit false

namespace SonicBmp.Bmp.KafkaSession

open SonicBmp.Library.Printing (Text snprintf)
open SonicBmp.Library.Throwing
open SonicBmp.Bgp.Common
open SonicBmp.Bgp.Update
open SonicBmp.Bgp.UpdateDb (handleUpdate_publishes)
open SonicBmp.Bgp.KafkaDb
open SonicBmp.Bus.Interface
open SonicBmp.Bus.Kafka
open SonicBmp.Bmp.ParseBmp
open SonicBmp.Bmp.Framing (v3Stream)
open SonicBmp.Bmp.Reader

/-! The reader. -/

/-- What the Kafka build reads besides: the hash of the router, its object as filled from
the TLVs of an initiation or termination message, the hash a new object finds in memory,
the printed timestamps, and the number of entries in link-state data. -/
structure KafkaEnv (D : Decoders) extends Env where
  routerHashId : HashId
  initRouter : List InfoTlv → ObjRouter
  termRouter : List InfoTlv → ObjRouter
  memoryHash : HashId
  timestamp : Nat → Nat → Text
  lsSize : D.LsData → LsObject → Nat

variable {D : Decoders} (md5 : Md5)

/-- `r_object` as the reader sets it up for every message. -/
def KafkaEnv.router (env : KafkaEnv D) : ObjRouter :=
  ⟨env.routerHashId, [], [], env.routerIp, [], 0, [], [], [], 0, 0⟩

/-- The object of `BMPReader::disconnect`. -/
def KafkaEnv.disconnected (env : KafkaEnv D) (text : Text) : ObjRouter :=
  { env.router with termReasonCode := 65534, termReasonText := snprintf 255 text }

/-- The peer once `update_Peer` has hashed it. -/
def KafkaEnv.peer (env : KafkaEnv D) (peer : ObjBgpPeer) : KafkaPeer where
  peer := peer
  routerHashId := env.routerHashId
  hashId := md5 (peerHashInput peer env.routerHashId)
  timestamp := env.timestamp peer.timestampSecs peer.timestampUs

/-- A call that both builds make, on the objects of this one. -/
def KafkaEnv.call (env : KafkaEnv D) : BusCall → KafkaCall
  | .updateRouter _ .first => .updateRouter env.router .first
  | .updateRouter info .init => .updateRouter (env.initRouter info) .init
  | .updateRouter info .term => .updateRouter (env.termRouter info) .term
  | .updatePeer peer up down code => .updatePeer (env.peer md5 peer) up down code
  | .updateUnicastPrefix peer rib attr code =>
    .updateUnicastPrefix (env.peer md5 peer) rib (attr.map (fun a => ⟨a, env.memoryHash⟩)) code
  | .addStatReport peer stats => .addStatReport (env.peer md5 peer) stats
  | .sendBmpRaw peer data => .sendBmpRaw (env.peer md5 peer) data

/-- The raw packet goes out under the hash of the peer, or under what was in memory when
no call before it was about a peer. -/
def KafkaEnv.rawCall (env : KafkaEnv D) (calls : List BusCall) (peer : ObjBgpPeer)
    (data : List UInt8) : KafkaCall :=
  let aboutPeer : BusCall → Bool := fun call => match call with
    | .updatePeer _ _ _ _ => true
    | _ => false
  if calls.any aboutPeer then .sendBmpRaw (env.peer md5 peer) data
  else .sendBmpRaw { env.peer md5 peer with hashId := env.memoryHash } data

variable (D)

def routeMonKafka (env : KafkaEnv D) (info : PeerInfo) : Parse (List KafkaCall × PeerInfo) := do
  bufferBMPMessage
  let s ← get
  let publisher : Publisher D := ⟨md5, env.peer md5 s.peer, env.lsSize, env.memoryHash⟩
  let outcome := handleUpdate D (updateDBKafka publisher) info (bmpDataMem env.beyond s.bmpData) 0
    s.bmpData.length
  pure (outcome.calls, outcome.info)

structure KafkaProcessed where
  more : Bool
  calls : List KafkaCall
  peers : PeerInfoMap
  aboutPeer : List BusCall

/-- The switch on the message type: only route monitoring differs between the builds. -/
def processMessageKafka (env : KafkaEnv D) (peers : PeerInfoMap) : Parse KafkaProcessed := do
  let s ← get
  if s.bmpType = typeRouteMon then do
    let key := peerInfoKey s.peer
    let result ← routeMonKafka D md5 env (peers.at key)
    pure ⟨true, result.1, Function.update peers key (some result.2), []⟩
  else do
    let done ← processMessage D env.toEnv peers
    pure ⟨done.more, done.calls.map (env.call md5), done.peers, done.calls⟩

structure KafkaOutcome where
  calls : List KafkaCall
  result : Except Text (Bool × PeerInfoMap × List UInt8)

/-- `BMPReader::ReadIncomingMsg` on the Kafka bus. -/
def readIncomingMsgKafka (env : KafkaEnv D) (peers : PeerInfoMap) (stream : List UInt8) :
    KafkaOutcome :=
  match (handleMessage env.clock).run (Parser.new stream) with
  | .error text => ⟨[.updateRouter (env.disconnected text) .term], .error text⟩
  | .ok (_, s) =>
    let header := (headerCalls s).map (env.call md5)
    match (processMessageKafka D md5 env (notePeer peers s)).run s with
    | .error text => ⟨header ++ [.updateRouter (env.disconnected text) .term], .error text⟩
    | .ok (done, s') =>
      ⟨header ++ done.calls ++
          [env.rawCall md5 (headerCalls s ++ done.aboutPeer) s'.peer s'.packet],
        .ok (done.more, done.peers, s'.sock)⟩

/-- `BMPReader::readerThreadLoop` until its thread is told to stop after `n` rounds. -/
def readerThreadLoopKafka (envs : Nat → KafkaEnv D) : Nat → MsgBusKafka → PeerInfoMap →
    List UInt8 → MsgBusKafka × List KafkaRecord
  | 0, bus, _, _ => (bus, [])
  | n + 1, bus, peers, stream =>
    let outcome := readIncomingMsgKafka D md5 (envs 0) peers stream
    let now := bus.run md5 outcome.calls
    match outcome.result with
    | .ok (true, peers, stream) =>
      let later := readerThreadLoopKafka (fun i => envs (i + 1)) n now.1 peers stream
      (later.1, now.2 ++ later.2)
    | .ok (false, _, _) | .error _ => now

/-- All records from the creation of the bus to its destruction. -/
def sessionRecords (envs : Nat → KafkaEnv D) (n : Nat) (topicSel : Bool) (stream : List UInt8) :
    List KafkaRecord :=
  let ended := readerThreadLoopKafka D md5 envs n (MsgBusKafka.new topicSel) (fun _ => none) stream
  ended.2 ++ ended.1.destroy

/-! The router as the bus sees it: defined or not. -/

def routerCode : KafkaCall → Option RouterActionCode
  | .updateRouter _ code => some code
  | _ => none

def routerAction : KafkaRecord → Option RouterActionCode
  | .router action _ _ => some action
  | _ => none

def routerDefined (bus : MsgBusKafka) : Bool := decide (bus.routerHash ≠ HashId.zero)

/-- What a router call does to a router that is defined or not. -/
def routerStep (defined : Bool) : RouterActionCode → Bool × List RouterActionCode
  | .first => (true, if defined then [] else [.first])
  | .init => (true, [.init])
  | .term => (false, [.term])

def routerRun : Bool → List RouterActionCode → Bool × List RouterActionCode
  | defined, [] => (defined, [])
  | defined, code :: codes =>
    let now := routerStep defined code
    let later := routerRun now.1 codes
    (later.1, now.2 ++ later.2)

/-- A FIRST or INIT call never comes with an all-zero hash. -/
def Hashed : KafkaCall → Prop
  | .updateRouter router code => code ≠ .term → router.hashId ≠ HashId.zero
  | _ => True

section Bus

variable {md5 : Md5}

private theorem step_router (bus : MsgBusKafka) (call : KafkaCall) (hashed : Hashed call) :
    let after := routerRun (routerDefined bus) (routerCode call).toList
    routerDefined (bus.step md5 call).1 = after.1 ∧
      (bus.step md5 call).2.filterMap routerAction = after.2 := by
  cases call with
  | updateRouter router code =>
    simp only [routerCode, Option.toList, routerRun, List.append_nil, MsgBusKafka.step,
      MsgBusKafka.updateRouter]
    cases code with
    | first =>
      have nonzero : router.hashId ≠ HashId.zero := hashed (by simp)
      by_cases defined : bus.routerHash = HashId.zero
      · simp [routerStep, routerDefined, defined, nonzero, MsgBusKafka.produce, routerAction]
      · simp [routerStep, routerDefined, defined]
    | init =>
      have nonzero : router.hashId ≠ HashId.zero := hashed (by simp)
      simp [routerStep, routerDefined, nonzero, MsgBusKafka.produce, routerAction]
    | term => simp [routerStep, routerDefined, MsgBusKafka.produce, routerAction]
  | updatePeer peer up down code =>
    have kept : (bus.updatePeer md5 peer up down code).1.routerHash = bus.routerHash ∧
        (bus.updatePeer md5 peer up down code).2.filterMap routerAction = [] := by
      unfold MsgBusKafka.updatePeer
      cases code <;> simp only <;> split <;>
        (cases sel : bus.topicSel <;> simp [routerAction, MsgBusKafka.producePeer,
          MsgBusKafka.produce, MsgBusKafka.lookup, MsgBusKafka.erase])
    simp [MsgBusKafka.step, routerDefined, kept, routerCode, routerRun]
  | updateBaseAttribute peer attr => exact ⟨rfl, rfl⟩
  | updateLs object peer rows code => exact ⟨rfl, rfl⟩
  | addStatReport peer stats => exact ⟨rfl, rfl⟩
  | updateUnicastPrefix peer rib attr code =>
    simp only [MsgBusKafka.step, MsgBusKafka.updateUnicastPrefix]
    split <;> exact ⟨rfl, rfl⟩
  | updateL3Vpn peer vpn attr code =>
    simp only [MsgBusKafka.step, MsgBusKafka.updateL3Vpn]
    split <;> exact ⟨rfl, rfl⟩
  | updateEVPN peer vpn attr code =>
    simp only [MsgBusKafka.step, MsgBusKafka.updateEVPN]
    split <;> exact ⟨rfl, rfl⟩
  | sendBmpRaw peer data =>
    simp only [MsgBusKafka.step, MsgBusKafka.sendBmpRaw]
    split <;> exact ⟨rfl, rfl⟩

theorem routerRun_append (defined : Bool) (codes codes' : List RouterActionCode) :
    routerRun defined (codes ++ codes') =
      ((routerRun (routerRun defined codes).1 codes').1,
        (routerRun defined codes).2 ++ (routerRun (routerRun defined codes).1 codes').2) := by
  induction codes generalizing defined with
  | nil => rfl
  | cons code codes ih => simp only [List.cons_append, routerRun, ih, List.append_assoc]

/-- The bus handles its router calls as the machine does. -/
theorem run_router (bus : MsgBusKafka) (calls : List KafkaCall)
    (hashed : ∀ call ∈ calls, Hashed call) :
    let after := routerRun (routerDefined bus) (calls.filterMap routerCode)
    routerDefined (bus.run md5 calls).1 = after.1 ∧
      (bus.run md5 calls).2.filterMap routerAction = after.2 := by
  induction calls generalizing bus with
  | nil => exact ⟨rfl, rfl⟩
  | cons call calls ih =>
    obtain ⟨defined, actions⟩ := @step_router md5 bus call (hashed call List.mem_cons_self)
    obtain ⟨defined', actions'⟩ := ih (bus.step md5 call).1
      (fun c hc => hashed c (List.mem_cons_of_mem _ hc))
    have codes : (call :: calls).filterMap routerCode =
        (routerCode call).toList ++ calls.filterMap routerCode := by
      cases code : routerCode call <;> simp [code]
    simp only [MsgBusKafka.run, List.filterMap_append, codes, routerRun_append]
    rw [defined', actions', defined, actions]
    exact ⟨rfl, rfl⟩

theorem destroy_router (bus : MsgBusKafka) :
    bus.destroy.filterMap routerAction = if routerDefined bus then [.term] else [] := by
  unfold MsgBusKafka.destroy routerDefined
  by_cases defined : bus.routerHash = HashId.zero
  · simp [defined]
  · simp [defined, MsgBusKafka.updateRouter, routerAction]

end Bus

/-! The router calls of one message. -/

section Message

variable {D} {md5} {env : KafkaEnv D}

/-- Both hashes of a router, its own and the one an initiation message may give it. -/
def RouterHashed (env : KafkaEnv D) : Prop :=
  env.routerHashId ≠ HashId.zero ∧ ∀ info, (env.initRouter info).hashId ≠ HashId.zero

/-- The router codes of calls whose objects carry a hash. -/
def Codes (calls : List KafkaCall) (codes : List RouterActionCode) : Prop :=
  (∀ call ∈ calls, Hashed call) ∧ calls.filterMap routerCode = codes

theorem Codes.append {calls calls' : List KafkaCall} {codes codes' : List RouterActionCode}
    (first : Codes calls codes) (second : Codes calls' codes') :
    Codes (calls ++ calls') (codes ++ codes') := by
  refine ⟨?_, by rw [List.filterMap_append, first.2, second.2]⟩
  intro call here
  rcases List.mem_append.mp here with here | here
  · exact first.1 call here
  · exact second.1 call here

theorem codes_nil : Codes [] [] := ⟨by simp, rfl⟩

/-- A call that is not about the router. -/
theorem Codes.of_none {call : KafkaCall} (other : routerCode call = none) : Codes [call] [] := by
  refine ⟨?_, by simp [other]⟩
  intro c here
  obtain rfl := List.mem_singleton.mp here
  cases c with
  | updateRouter router code => simp [routerCode] at other
  | _ => trivial

theorem codes_header (hashed : RouterHashed env) (s : Parser) :
    Codes ((headerCalls s).map (env.call md5)) (if s.bmpType ≠ typeInitMsg then [.first] else []) := by
  have first : Codes ((if s.bmpType ≠ typeInitMsg then [BusCall.updateRouter [] .first]
      else []).map (env.call md5)) (if s.bmpType ≠ typeInitMsg then [.first] else []) := by
    split
    · exact ⟨by simpa [KafkaEnv.call, Hashed, KafkaEnv.router] using hashed.1, rfl⟩
    · exact codes_nil
  have peer : Codes ((if hasPeer s ∧ s.bmpType ≠ typePeerUp then
      [BusCall.updatePeer s.peer none none .first] else []).map (env.call md5)) [] := by
    split
    · exact Codes.of_none rfl
    · exact codes_nil
  rw [headerCalls, List.map_append]
  simpa using first.append peer

theorem Codes.of_forall_none {calls : List KafkaCall}
    (other : ∀ call ∈ calls, routerCode call = none) : Codes calls [] := by
  induction calls with
  | nil => exact codes_nil
  | cons call calls ih =>
    exact (Codes.of_none (other call List.mem_cons_self)).append
      (ih (fun c here => other c (List.mem_cons_of_mem _ here)))

private theorem routerCode_of_quiet {topic : Topic} {call : KafkaCall}
    (quiet : topic.quiet call = true) : routerCode call = none := by
  cases call with
  | updateRouter router code => cases topic <;> cases quiet
  | _ => rfl

theorem codes_publish (P : Publisher D) (parsed : ParsedUpdateData D) :
    Codes (updateDBKafka P parsed) [] := by
  refine Codes.of_forall_none fun call here => ?_
  simp only [updateDBKafka, List.mem_append] at here
  rcases here with ((((here | here | here) | here) | here | here) | here | here) | here
  · exact routerCode_of_quiet (@publishAttrs_quiet _ P .l3vpn _ call here)
  · exact routerCode_of_quiet (@updateDbBgpLs_quiet _ P .l3vpn _ _ call here)
  · exact routerCode_of_quiet (@updateDbBgpLs_quiet _ P .l3vpn _ _ call here)
  · exact routerCode_of_quiet (publishUnicast_quiet P _ _ _ call here)
  · exact routerCode_of_quiet (updateDBL3Vpn_quiet P _ _ _ call here)
  · exact routerCode_of_quiet (updateDBL3Vpn_quiet P _ _ _ call here)
  · exact routerCode_of_quiet (@updateDBeVPN_quiet _ P .l3vpn _ _ _ call here)
  · exact routerCode_of_quiet (@updateDBeVPN_quiet _ P .l3vpn _ _ _ call here)
  · exact routerCode_of_quiet (publishUnicast_quiet P _ _ _ call here)

private theorem codes_peerDown (md5 : Md5) (s : Parser) :
    Returns (peerDown env.toEnv) s (fun calls _ => Codes (calls.map (env.call md5)) []) := by
  refine (returns_true _ s).bind ?_
  intro reason s₁ _
  cases reason with
  | none => exact returns_throw
  | some reason =>
    refine (returns_true _ s₁).bind ?_
    intro _ s₂ _
    apply returns_get_bind
    split
    · exact returns_throw
    · exact returns_pure (Codes.of_none rfl)

private theorem codes_peerUp (md5 : Md5) (info : PeerInfo) (s : Parser) :
    Returns (peerUp env.toEnv info) s (fun result _ => Codes (result.1.map (env.call md5)) []) := by
  refine (returns_true _ s).bind ?_
  rintro ⟨isParseGood, upEvent⟩ s₁ _
  cases isParseGood with
  | false => exact returns_pure codes_nil
  | true =>
    refine (returns_true _ s₁).bind ?_
    intro _ s₂ _
    apply returns_get_bind
    dsimp only
    split
    · exact returns_throw
    · apply returns_modify_bind
      exact returns_pure (Codes.of_none rfl)

/-- The router codes a message of the given type adds to those of its headers. -/
def bodyCodes (bmpType : Nat) : List RouterActionCode :=
  if bmpType = typeInitMsg then [.init] else if bmpType = typeTermMsg then [.term] else []

private theorem codes_processMessage (hashed : RouterHashed env) (peers : PeerInfoMap)
    (s : Parser) (other : s.bmpType ≠ typeRouteMon) :
    Returns (processMessage D env.toEnv peers) s (fun done _ =>
      Codes (done.calls.map (env.call md5)) (bodyCodes s.bmpType) ∧
        done.more = !decide (s.bmpType = typeTermMsg)) := by
  apply returns_get_bind
  dsimp only
  split
  · rename_i type
    refine (codes_peerDown md5 s).bind fun calls s₁ codes => returns_pure ⟨?_, by rw [type]; rfl⟩
    rwa [type]
  split
  · rename_i type
    refine (codes_peerUp md5 _ s).bind fun result s₁ codes => returns_pure ⟨?_, by rw [type]; rfl⟩
    rwa [type]
  split
  · rename_i type
    refine (returns_true _ s).bind fun stats s₁ _ => returns_pure ⟨?_, by rw [type]; rfl⟩
    rw [type]
    exact Codes.of_forall_none (by simp [KafkaEnv.call, routerCode])
  split
  · rename_i type
    refine (returns_true _ s).bind fun tlvs s₁ _ => returns_pure ⟨?_, by rw [type]; rfl⟩
    rw [type]
    exact ⟨by simp [KafkaEnv.call, Hashed, hashed.2], rfl⟩
  split
  · rename_i type
    refine (returns_true _ s).bind fun tlvs s₁ _ => returns_pure ⟨?_, by rw [type]; rfl⟩
    rw [type]
    exact ⟨by simp [KafkaEnv.call, Hashed], rfl⟩
  · rename_i notInit notTerm
    refine returns_pure ⟨?_, by simp [notTerm]⟩
    rw [bodyCodes, if_neg notInit, if_neg notTerm]
    exact codes_nil

theorem codes_process (hashed : RouterHashed env) (peers : PeerInfoMap) (s : Parser) :
    Returns (processMessageKafka D md5 env peers) s (fun done _ =>
      Codes done.calls (bodyCodes s.bmpType) ∧
        done.more = !decide (s.bmpType = typeTermMsg)) := by
  unfold processMessageKafka
  apply returns_get_bind
  split
  · rename_i type
    have codes : Returns (routeMonKafka D md5 env (peers.at (peerInfoKey s.peer))) s
        (fun result _ => Codes result.1 []) := by
      refine (returns_true _ s).bind fun _ s₁ _ => ?_
      apply returns_get_bind
      refine returns_pure ?_
      let publisher : Publisher D := ⟨md5, env.peer md5 s₁.peer, env.lsSize, env.memoryHash⟩
      rw [(handleUpdate_publishes (updateDBKafka publisher) (updateDBKafka publisher) _ _ _ _).2]
      cases (handleUpdate D (updateDBKafka publisher) (peers.at (peerInfoKey s.peer))
        (bmpDataMem env.beyond s₁.bmpData) 0 s₁.bmpData.length).passed with
      | none => exact codes_nil
      | some parsed => exact codes_publish publisher parsed
    refine codes.bind fun result s₁ codes => returns_pure ⟨?_, by rw [type]; rfl⟩
    rwa [type]
  · rename_i other
    exact (codes_processMessage hashed peers s other).bind fun done s₁ codes => returns_pure codes

/-- The router calls of a message: one that opens the router as long as the reader goes
on, and a closing one with or without it when the reader ends. -/
theorem codes_readIncomingMsg (md5 : Md5) (hashed : RouterHashed env) (peers : PeerInfoMap)
    (stream : List UInt8) :
    let outcome := readIncomingMsgKafka D md5 env peers stream
    match outcome.result with
    | .ok (true, _, _) => Codes outcome.calls [.first] ∨ Codes outcome.calls [.init]
    | .ok (false, _, _) | .error _ =>
      Codes outcome.calls [.first, .term] ∨ Codes outcome.calls [.term] := by
  have disconnect (text : Text) :
      Codes [.updateRouter (env.disconnected text) .term] [.term] :=
    ⟨by simp [Hashed], rfl⟩
  dsimp only
  cases headers : (handleMessage env.clock).run (Parser.new stream) with
  | error text =>
    simp only [readIncomingMsgKafka, headers]
    exact Or.inr (disconnect text)
  | ok parsed =>
    obtain ⟨⟨⟩, s⟩ := parsed
    have header := @codes_header D md5 env hashed s
    cases body : (processMessageKafka D md5 env (notePeer peers s)).run s with
    | error text =>
      simp only [readIncomingMsgKafka, headers, body]
      have all := header.append (disconnect text)
      by_cases init : s.bmpType = typeInitMsg
      · exact Or.inr (by simpa [init] using all)
      · exact Or.inl (by simpa [init] using all)
    | ok processed =>
      obtain ⟨done, s'⟩ := processed
      obtain ⟨codes, more⟩ := codes_process hashed (notePeer peers s) s done s' body
      have raw : Codes [env.rawCall md5 (headerCalls s ++ done.aboutPeer) s'.peer s'.packet] [] := by
        apply Codes.of_none
        unfold KafkaEnv.rawCall
        dsimp only
        split <;> rfl
      have all := (header.append codes).append raw
      simp only [readIncomingMsgKafka, headers, body, more]
      by_cases term : s.bmpType = typeTermMsg
      · rw [term] at all
        simp only [term, decide_true, Bool.not_true]
        exact Or.inl all
      · simp only [term, decide_false, Bool.not_false]
        by_cases init : s.bmpType = typeInitMsg
        · rw [init] at all
          exact Or.inr all
        · simp only [bodyCodes, term, init, if_false, ne_eq, not_false_eq_true, if_true] at all
          exact Or.inl all

end Message

/-! Whole sessions. -/

/-- The router actions of a session, or of what is left of one whose router is defined: the
router is opened, with FIRST at most as the very first action, and once it is open it is
closed exactly once, at the end. -/
structure RouterTrace (defined : Bool) (opened closed : List RouterActionCode) : Prop where
  open_only : .term ∉ opened
  first_once : .first ∉ if defined then opened else opened.tail
  closed_once : closed = [] ∨ closed = [.term]
  closes : defined = true ∨ opened ≠ [] → closed = [.term]

def Traced (defined : Bool) (actions : List RouterActionCode) : Prop :=
  ∃ opened closed, actions = opened ++ closed ∧ RouterTrace defined opened closed

theorem Traced.first {actions : List RouterActionCode} (defined : Bool)
    (rest : Traced true actions) :
    Traced defined ((if defined then [] else [.first]) ++ actions) := by
  obtain ⟨opened, closed, rfl, trace⟩ := rest
  refine ⟨(if defined then [] else [.first]) ++ opened, closed, by simp, ?_⟩
  have closes := trace.closes (Or.inl rfl)
  have noFirst : .first ∉ opened := trace.first_once
  cases defined with
  | true => exact ⟨trace.open_only, noFirst, trace.closed_once, fun _ => closes⟩
  | false =>
    exact ⟨by simpa using trace.open_only, by simpa using noFirst, trace.closed_once,
      fun _ => closes⟩

theorem Traced.init {actions : List RouterActionCode} (defined : Bool)
    (rest : Traced true actions) : Traced defined (.init :: actions) := by
  obtain ⟨opened, closed, rfl, trace⟩ := rest
  have noFirst : .first ∉ opened := trace.first_once
  refine ⟨.init :: opened, closed, rfl, by simpa using trace.open_only, ?_, trace.closed_once,
    fun _ => trace.closes (Or.inl rfl)⟩
  cases defined <;> simpa using noFirst

theorem traced_term (defined : Bool) : Traced defined [.term] :=
  ⟨[], [.term], rfl, by simp, by simp, Or.inr rfl, fun _ => rfl⟩

theorem traced_destroy (bus : MsgBusKafka) :
    Traced (routerDefined bus) (bus.destroy.filterMap routerAction) := by
  rw [destroy_router]
  cases routerDefined bus with
  | true => exact traced_term true
  | false => exact ⟨[], [], rfl, by simp, by simp, Or.inl rfl, by simp⟩

/-- The actions of the rounds left and of the destructor, from any bus. -/
theorem traced_loop (envs : Nat → KafkaEnv D) (hashed : ∀ i, RouterHashed (envs i)) (n : Nat)
    (bus : MsgBusKafka) (peers : PeerInfoMap) (stream : List UInt8) :
    let ended := readerThreadLoopKafka D md5 envs n bus peers stream
    Traced (routerDefined bus) ((ended.2 ++ ended.1.destroy).filterMap routerAction) := by
  induction n generalizing envs bus peers stream with
  | zero => exact traced_destroy bus
  | succ n ih =>
    have codes := codes_readIncomingMsg md5 (hashed 0) peers stream
    let outcome := readIncomingMsgKafka D md5 (envs 0) peers stream
    have router {codes : List RouterActionCode} (here : Codes outcome.calls codes) :
        routerDefined (bus.run md5 outcome.calls).1 = (routerRun (routerDefined bus) codes).1 ∧
          (bus.run md5 outcome.calls).2.filterMap routerAction =
            (routerRun (routerDefined bus) codes).2 := by
      rw [← here.2]
      exact run_router bus outcome.calls here.1
    dsimp only
    rw [readerThreadLoopKafka]
    dsimp only
    split
    · rename_i peers' rest result
      simp only [result] at codes
      simp only [List.append_assoc, List.filterMap_append]
      have later := ih (fun i => envs (i + 1)) (fun i => hashed (i + 1))
        (bus.run md5 outcome.calls).1 peers' rest
      simp only [List.filterMap_append] at later
      rcases codes with codes | codes
      · obtain ⟨defined, actions⟩ := router codes
        rw [defined] at later
        rw [actions]
        simpa [routerRun, routerStep] using Traced.first (routerDefined bus) later
      · obtain ⟨defined, actions⟩ := router codes
        rw [defined] at later
        rw [actions]
        simpa [routerRun, routerStep] using Traced.init (routerDefined bus) later
    all_goals
      rename_i result
      simp only [result] at codes
      rw [List.filterMap_append, destroy_router]
      rcases codes with codes | codes
      · obtain ⟨defined, actions⟩ := router codes
        rw [defined, actions]
        simpa [routerRun, routerStep] using
          Traced.first (routerDefined bus) (traced_term true)
      · obtain ⟨defined, actions⟩ := router codes
        rw [defined, actions]
        simpa [routerRun, routerStep] using traced_term (routerDefined bus)

/-- From the creation of the bus to its destruction, after any number of rounds over any
stream, the router is opened by FIRST or INIT records, of which FIRST is only the very first
one, and then closed by exactly one TERM record; without opening it at most a TERM record is
produced. -/
theorem session_router_records (envs : Nat → KafkaEnv D) (hashed : ∀ i, RouterHashed (envs i))
    (n : Nat) (topicSel : Bool) (stream : List UInt8) :
    ∃ opened closed,
      (sessionRecords D md5 envs n topicSel stream).filterMap routerAction = opened ++ closed ∧
        .term ∉ opened ∧ .first ∉ opened.tail ∧ (closed = [] ∨ closed = [.term]) ∧
        (opened ≠ [] → closed = [.term]) := by
  obtain ⟨opened, closed, split, trace⟩ :=
    traced_loop D md5 envs hashed n (MsgBusKafka.new topicSel) (fun _ => none) stream
  exact ⟨opened, closed, split, trace.open_only, trace.first_once, trace.closed_once,
    fun some_open => trace.closes (Or.inr some_open)⟩

private def oneHash : HashId := Vector.replicate 16 1

private def oneRouter : ObjRouter := ⟨oneHash, [], [], [], [], 0, [], [], [], 0, 0⟩

private def oneEnv : KafkaEnv Decoders.silent where
  toEnv := quietEnv
  routerHashId := oneHash
  initRouter := fun _ => oneRouter
  termRouter := fun _ => oneRouter
  memoryHash := oneHash
  timestamp := fun _ _ => []
  lsSize := fun _ _ => 0

theorem session_router_records_initiation :
    (sessionRecords Decoders.silent (fun _ => oneHash) (fun _ => oneEnv) 1 true
        (v3Stream 6 4 [])).filterMap routerAction = [.init, .term] ∧
      ∃ opened closed,
        (sessionRecords Decoders.silent (fun _ => oneHash) (fun _ => oneEnv) 1 true
          (v3Stream 6 4 [])).filterMap routerAction = opened ++ closed ∧
          .term ∉ opened ∧ .first ∉ opened.tail ∧ (closed = [] ∨ closed = [.term]) ∧
          (opened ≠ [] → closed = [.term]) :=
  have nonzero : oneHash ≠ HashId.zero := by decide
  ⟨by decide +kernel, session_router_records Decoders.silent (fun _ => oneHash) (fun _ => oneEnv)
    (fun _ => ⟨nonzero, fun _ => nonzero⟩) 1 true (v3Stream 6 4 [])⟩

end SonicBmp.Bmp.KafkaSession
