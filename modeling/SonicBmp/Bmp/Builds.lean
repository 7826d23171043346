/- module: SonicBmp/Bmp/Builds
   digest: The two builds of the reader go through every session together. -/

import SonicBmp.Bmp.KafkaSession
import SonicBmp.Library.Lockstep

set_option autoImplicit false
set_option relaxedAutoImplicit false

namespace SonicBmp.Bmp.Builds

open SonicBmp.Library.Throwing
open SonicBmp.Library.Lockstep
open SonicBmp.Bgp.Common
open SonicBmp.Bgp.Update
open SonicBmp.Bgp.UpdateDb
open SonicBmp.Bgp.KafkaDb
open SonicBmp.Bus.Interface
open SonicBmp.Bus.Kafka
open SonicBmp.Bmp.ParseBmp
open SonicBmp.Bmp.Reader
open SonicBmp.Bmp.KafkaSession

/-! The calls of a session. -/

section Calls

variable (D : Decoders) (md5 : Md5)

/-- The calls of the first `n` rounds on the Kafka bus, and what the next round starts from
unless the loop has ended. -/
def sessionCalls (envs : Nat → KafkaEnv D) : Nat → PeerInfoMap → List UInt8 →
    List KafkaCall × Option (PeerInfoMap × List UInt8)
  | 0, peers, stream => ([], some (peers, stream))
  | n + 1, peers, stream =>
    let outcome := readIncomingMsgKafka D md5 (envs 0) peers stream
    match outcome.result with
    | .ok (true, peers, stream) =>
      let later := sessionCalls (fun i => envs (i + 1)) n peers stream
      (outcome.calls ++ later.1, later.2)
    | .ok (false, _, _) | .error _ => (outcome.calls, none)

/-- The loop hands its calls to the bus round by round. -/
theorem readerThreadLoopKafka_eq (envs : Nat → KafkaEnv D) (n : Nat) (bus : MsgBusKafka)
    (peers : PeerInfoMap) (stream : List UInt8) :
    readerThreadLoopKafka D md5 envs n bus peers stream =
      bus.run md5 (sessionCalls D md5 envs n peers stream).1 := by
  induction n generalizing envs bus peers stream with
  | zero => rfl
  | succ n ih =>
    rw [readerThreadLoopKafka, sessionCalls]
    obtain ⟨calls, result⟩ := readIncomingMsgKafka D md5 (envs 0) peers stream
    rcases result with text | ⟨_ | _, peers', rest⟩
    · rfl
    · rfl
    · dsimp only
      rw [ih, MsgBusKafka.run_append]

/-- A property of lists of calls that concatenation keeps holds of a session if it holds of
every message. -/
theorem sessionCalls_induct {motive : List KafkaCall → Prop} (nil : motive [])
    (append : ∀ {calls calls'}, motive calls → motive calls' → motive (calls ++ calls'))
    {envs : Nat → KafkaEnv D}
    (message : ∀ i peers stream, motive (readIncomingMsgKafka D md5 (envs i) peers stream).calls)
    (n : Nat) (peers : PeerInfoMap) (stream : List UInt8) :
    motive (sessionCalls D md5 envs n peers stream).1 := by
  induction n generalizing envs peers stream with
  | zero => exact nil
  | succ n ih =>
    have now := message 0 peers stream
    rw [sessionCalls]
    generalize readIncomingMsgKafka D md5 (envs 0) peers stream = outcome at now ⊢
    obtain ⟨calls, result⟩ := outcome
    rcases result with text | ⟨_ | _, peers', rest⟩
    · exact now
    · exact now
    · exact append now (ih (fun i => message (i + 1)) peers' rest)

end Calls

/-! What both builds publish. -/

/-- A call without what only one of the buses has: the router object, the hashes and the
printed times, and the path attributes of a route. -/
inductive Shared
  | router (code : RouterActionCode)
  | peer (peer : ObjBgpPeer) (up : Option ObjPeerUpEvent) (down : Option ObjPeerDownEvent)
      (code : PeerActionCode)
  | unicastPrefix (peer : ObjBgpPeer) (rib : List ObjRib) (code : UnicastPrefixActionCode)
  | statReport (peer : ObjBgpPeer) (stats : ObjStatsReport)
  | bmpRaw (peer : ObjBgpPeer) (data : List UInt8)
  deriving DecidableEq

def ofRedis : BusCall → Shared
  | .updateRouter _ code => .router code
  | .updatePeer peer up down code => .peer peer up down code
  | .updateUnicastPrefix peer rib _ code => .unicastPrefix peer rib code
  | .addStatReport peer stats => .statReport peer stats
  | .sendBmpRaw peer data => .bmpRaw peer data

/-- Base attributes, VPN, EVPN and link-state entries go to the Kafka bus only. -/
def ofKafka : KafkaCall → Option Shared
  | .updateRouter _ code => some (.router code)
  | .updatePeer peer up down code => some (.peer peer.peer up down code)
  | .updateUnicastPrefix peer rib _ code => some (.unicastPrefix peer.peer rib code)
  | .addStatReport peer stats => some (.statReport peer.peer stats)
  | .sendBmpRaw peer data => some (.bmpRaw peer.peer data)
  | .updateBaseAttribute _ _ | .updateL3Vpn _ _ _ _ | .updateEVPN _ _ _ _ | .updateLs _ _ _ _ => none

/-- The calls of the two builds come to the same. -/
def Alike (calls : List KafkaCall) (calls' : List BusCall) : Prop :=
  calls.filterMap ofKafka = calls'.map ofRedis

theorem Alike.append {calls₁ calls₂ : List KafkaCall} {calls₁' calls₂' : List BusCall}
    (one : Alike calls₁ calls₁') (two : Alike calls₂ calls₂') :
    Alike (calls₁ ++ calls₂) (calls₁' ++ calls₂') := by
  rw [Alike, List.filterMap_append, List.map_append, one, two]

section Message

variable {D : Decoders} {md5 : Md5} {env : KafkaEnv D}

theorem ofKafka_call (call : BusCall) : ofKafka (env.call md5 call) = some (ofRedis call) := by
  cases call with
  | updateRouter info code => cases code <;> rfl
  | updatePeer peer up down code => rfl
  | updateUnicastPrefix peer rib attr code => rfl
  | addStatReport peer stats => rfl
  | sendBmpRaw peer data => rfl

theorem alike_map_call (calls : List BusCall) : Alike (calls.map (env.call md5)) calls := by
  rw [Alike, List.filterMap_map, ← List.filterMap_eq_map]
  congr 1
  funext call
  exact ofKafka_call call

theorem alike_rawCall (calls : List BusCall) (peer : ObjBgpPeer) (data : List UInt8) :
    Alike [env.rawCall md5 calls peer data] [.sendBmpRaw peer data] := by
  unfold KafkaEnv.rawCall
  dsimp only
  split <;> rfl

/-- Of an UPDATE, the unicast prefixes are published by both builds, in the same order. -/
theorem alike_updateDB (P : Publisher D) (attr : ObjPathAttr) (parsed : ParsedUpdateData D) :
    Alike (updateDBKafka P parsed) (updateDB P.peer.peer attr parsed) := by
  have none_of (calls : List KafkaCall) (only : ∀ call ∈ calls, ofKafka call = none) :
      calls.filterMap ofKafka = [] := List.filterMap_eq_nil_iff.mpr only
  have attrs : (publishAttrs P parsed.attrs).filterMap ofKafka = [] := by
    unfold publishAttrs
    split <;> rfl
  have ls (code : UnicastPrefixActionCode) (data : D.LsData) :
      (updateDbBgpLs P code data).filterMap ofKafka = [] := by
    refine none_of _ fun call here => ?_
    obtain ⟨object, -, here⟩ := List.mem_flatMap.mp here
    split at here
    · rw [List.mem_singleton.mp here]
      rfl
    · simp at here
  have vpn (attr : KafkaAttr) (code : UnicastPrefixActionCode) (prefixes : List VpnTuple) :
      (updateDBL3Vpn P attr code prefixes).filterMap ofKafka = [] := by
    unfold updateDBL3Vpn
    dsimp only
    split <;> rfl
  have evpn (attr : KafkaAttr) (code : UnicastPrefixActionCode) (nlris : List EvpnTuple) :
      (updateDBeVPN P attr code nlris).filterMap ofKafka = [] := by
    unfold updateDBeVPN
    split <;> rfl
  have announced : (publishUnicast P (some (baseAttr P parsed.attrs)) .add
      parsed.advertised).filterMap ofKafka =
        (updateDBAdvPrefixes P.peer.peer attr parsed.advertised).map ofRedis := by
    unfold publishUnicast updateDBAdvPrefixes
    dsimp only
    split <;> rfl
  have withdrawn : (publishUnicast P none .del parsed.withdrawn).filterMap ofKafka =
      (updateDBWdrawnPrefixes P.peer.peer parsed.withdrawn).map ofRedis := by
    unfold publishUnicast updateDBWdrawnPrefixes
    dsimp only
    split <;> rfl
  simp only [Alike, updateDBKafka, updateDB, List.filterMap_append, List.map_append, attrs, ls, vpn,
    evpn, announced, withdrawn, List.nil_append, List.append_nil]

theorem routeMon_inStep (info : PeerInfo) :
    InStep (fun result result' => Alike result.1 result'.1 ∧ result.2 = result'.2)
      (routeMonKafka D md5 env info) (routeMon D env.toEnv info) := by
  refine (inStep_refl bufferBMPMessage).bind fun _ _ _ => ?_
  refine inStep_get_bind fun s => inStep_pure ?_ s
  simp only [handleUpdate]
  split
  · split
    · exact ⟨rfl, rfl⟩
    · exact ⟨alike_updateDB _ _ _, rfl⟩
  · exact ⟨rfl, rfl⟩

theorem processMessage_inStep (peers : PeerInfoMap) :
    InStep (fun done done' => done.more = done'.more ∧ Alike done.calls done'.calls ∧
        done.peers = done'.peers)
      (processMessageKafka D md5 env peers) (processMessage D env.toEnv peers) := by
  refine inStep_get_bind fun s => ?_
  by_cases type : s.bmpType = typeRouteMon
  · rw [if_pos type]
    have here : InStep (fun done done' => done.more = done'.more ∧
        Alike done.calls done'.calls ∧ done.peers = done'.peers)
      (routeMonKafka D md5 env (peers.at (peerInfoKey s.peer)) >>= fun result =>
        pure (⟨true, result.1, Function.update peers (peerInfoKey s.peer) (some result.2), []⟩ :
          KafkaProcessed))
      (routeMon D env.toEnv (peers.at (peerInfoKey s.peer)) >>= fun result =>
        pure (⟨true, result.1, Function.update peers (peerInfoKey s.peer) (some result.2)⟩ :
          Processed)) := by
      refine (routeMon_inStep _).bind fun result result' same => inStep_pure ?_
      exact ⟨rfl, same.1, by rw [same.2]⟩
    have turn := here s
    simpa [type, typeRouteMon, typePeerDown, typePeerUp] using turn
  · rw [if_neg type]
    have here : InStep (fun done done' => done.more = done'.more ∧
        Alike done.calls done'.calls ∧ done.peers = done'.peers)
      (processMessage D env.toEnv peers >>= fun done =>
        pure (⟨done.more, done.calls.map (env.call md5), done.peers, done.calls⟩ : KafkaProcessed))
      (processMessage D env.toEnv peers >>= pure) := by
      refine (inStep_refl _).bind fun done done' same => inStep_pure ?_
      rw [same]
      exact ⟨rfl, alike_map_call _, rfl⟩
    rw [bind_pure] at here
    exact here s

/-- One message: both builds throw or go on together, from the same peers at the same place. -/
theorem readIncomingMsg_alike (peers : PeerInfoMap) (stream : List UInt8) :
    (readIncomingMsgKafka D md5 env peers stream).result =
        (readIncomingMsg D env.toEnv peers stream).result ∧
      Alike (readIncomingMsgKafka D md5 env peers stream).calls
        (readIncomingMsg D env.toEnv peers stream).calls := by
  unfold readIncomingMsgKafka readIncomingMsg
  cases (handleMessage env.clock).run (Parser.new stream) with
  | error text => exact ⟨rfl, rfl⟩
  | ok parsed =>
    obtain ⟨⟨⟩, s⟩ := parsed
    dsimp only
    have ends := @processMessage_inStep D md5 env (notePeer peers s) s
    generalize (processMessageKafka D md5 env (notePeer peers s)).run s = one,
      (processMessage D env.toEnv (notePeer peers s)).run s = two at ends
    have header := @alike_map_call D md5 env (headerCalls s)
    cases ends with
    | thrown text => exact ⟨rfl, header.append rfl⟩
    | returned s' related =>
      obtain ⟨more, calls, peers⟩ := related
      dsimp only
      rw [more, peers]
      exact ⟨rfl, (header.append calls).append (alike_rawCall _ _ _)⟩

end Message

/-- In every session the two builds make the same rounds, keep the same peer information, stop
at the same place, and publish the same router, peer, unicast prefix, statistics and raw
messages in the same order; only what goes with them differs, and base attributes, VPN, EVPN
and link-state messages, which the Kafka build adds. -/
theorem builds_alike (D : Decoders) (md5 : Md5) (envs : Nat → KafkaEnv D) (n : Nat)
    (peers : PeerInfoMap) (stream : List UInt8) :
    let kafka := sessionCalls D md5 envs n peers stream
    let redis := readerThreadLoop D (fun i => (envs i).toEnv) n peers stream
    kafka.2 = redis.2 ∧ Alike kafka.1 redis.1 := by
  induction n generalizing envs peers stream with
  | zero => exact ⟨rfl, rfl⟩
  | succ n ih =>
    obtain ⟨result, calls⟩ := @readIncomingMsg_alike D md5 (envs 0) peers stream
    dsimp only
    rw [sessionCalls, readerThreadLoop]
    dsimp only
    rw [result]
    rcases (readIncomingMsg D (envs 0).toEnv peers stream).result with text | ⟨_ | _, peers', rest⟩
    · exact ⟨rfl, calls⟩
    · exact ⟨rfl, calls⟩
    · obtain ⟨state, later⟩ := ih (fun i => envs (i + 1)) peers' rest
      exact ⟨state, calls.append later⟩

/-! An environment for examples. -/

def plainEnv : KafkaEnv Decoders.silent where
  toEnv := quietEnv
  routerHashId := HashId.zero
  initRouter := fun _ => ⟨HashId.zero, [], [], [], [], 0, [], [], [], 0, 0⟩
  termRouter := fun _ => ⟨HashId.zero, [], [], [], [], 0, [], [], [], 0, 0⟩
  memoryHash := HashId.zero
  timestamp := fun _ _ => []
  lsSize := fun _ _ => 0

end SonicBmp.Bmp.Builds
