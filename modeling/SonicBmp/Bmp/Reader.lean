/- module: SonicBmp/Bmp/Reader
   digest: The BMP reader: one message from the stream, what it publishes, and exact framing. -/

import SonicBmp.Bgp.PeerEvent
import SonicBmp.Bgp.UpdateDb
import SonicBmp.Bmp.Framing

set_option autoImplicit false
set_option relaxedAutoImplicit false

namespace SonicBmp.Bmp.Reader

open SonicBmp.Library.Printing
open SonicBmp.Library.Memory
open SonicBmp.Library.Throwing
open SonicBmp.Bgp.Common
open SonicBmp.Bgp.Update
open SonicBmp.Bgp.UpdateDb
open SonicBmp.Bgp.PeerEvent
open SonicBmp.Bus.Interface
open SonicBmp.Bmp.ParseBmp
open SonicBmp.Bmp.Framing

/-- What the handling of one message depends on besides the stream: the memory behind
`bmp_data`, the memory a new `parseBGP` object is created over, the time of day, the
indeterminate half of a new add-path entry, and the router address. -/
structure Env where
  beyond : Mem
  memory : ObjPathAttr
  clock : Nat × Nat
  stale : Int
  routerIp : Text

def quietEnv : Env where
  beyond := fun _ => 0
  memory := ⟨[], [], 0, 0, false, [], [], false, 0, 0, [], [], [], [], []⟩
  clock := (0, 0)
  stale := 0
  routerIp := []

abbrev PeerInfoMap := Text → Option PeerInfo

def peerInfoKey (peer : ObjBgpPeer) : Text := peer.peerAddr ++ peer.peerRd

def PeerInfoMap.at (peers : PeerInfoMap) (key : Text) : PeerInfo := (peers key).getD PeerInfo.fresh

theorem PeerInfoMap.at_update_self (peers : PeerInfoMap) (key : Text) (info : PeerInfo) :
    PeerInfoMap.at (Function.update peers key (some info)) key = info := by
  rw [PeerInfoMap.at, Function.update_self, Option.getD_some]

theorem PeerInfoMap.at_update_of_ne (peers : PeerInfoMap) {key key' : Text} (other : key' ≠ key)
    (info : PeerInfo) :
    PeerInfoMap.at (Function.update peers key (some info)) key' = peers.at key' := by
  rw [PeerInfoMap.at, Function.update_of_ne other, PeerInfoMap.at]

/-- `bmp_type < 4` on a `char`: also true for bytes from 128 on. -/
def hasPeer (s : Parser) : Bool := s.bmpType < 4 || 128 ≤ s.bmpType

def noteTwoOctet (peer : ObjBgpPeer) (info : PeerInfo) : PeerInfo :=
  if peer.isTwoOctet then { info with using2OctetAsn := true } else info

/-- The entry of the message's peer, which is created when it is missing. -/
def notePeer (peers : PeerInfoMap) (s : Parser) : PeerInfoMap :=
  if hasPeer s then
    Function.update peers (peerInfoKey s.peer)
      (some (noteTwoOctet s.peer (peers.at (peerInfoKey s.peer))))
  else peers

/-- The down event of a peer-down message whose BGP part lies at the start of `m`. -/
def downEvent (env : Env) (peer : ObjBgpPeer) (reason : Nat) (m : Mem) (size : Nat) :
    Except Text ObjPeerDownEvent :=
  let event (text : Text) : ObjPeerDownEvent := ⟨reason, 0, 0, snprintf 255 text⟩
  match reason with
  | 1 => (handleDownEvent m 0 size (event ("Local close by (".toList ++ (env.routerIp ++
      (") for peer (".toList ++ (peer.peerAddr ++ ") : ".toList)))))).map Prod.snd
  | 2 => .ok (event ("Local (".toList ++ (env.routerIp ++ (") closed peer (".toList ++
      (peer.peerAddr ++ (") session: fsm_event=".toList ++ (decimal (u16 m 0) ++
        ", No BGP notify message.".toList)))))))
  | 3 => (handleDownEvent m 0 size (event ("Remote peer (".toList ++ (env.routerIp ++
      (") closed local (".toList ++ (peer.peerAddr ++ ") session: ".toList)))))).map Prod.snd
  | _ => .ok (event [])

def peerDown (env : Env) : Parse (List BusCall) := do
  let reason ← parsePeerDownEventHdr
  match reason with
  | none => throw "BMPReader: Unable to read from client socket".toList
  | some reason => do
    bufferBMPMessage
    let s ← get
    match downEvent env s.peer reason (bmpDataMem env.beyond s.bmpData) s.bmpData.length with
    | .error text => throw text
    | .ok event => pure [.updatePeer s.peer none (some event) .down]

/-- The `TYPE_PEER_UP` case, with the peer information it leaves. -/
def peerUp (env : Env) (info : PeerInfo) : Parse (List BusCall × PeerInfo) := do
  let header ← parsePeerUpEventHdr ObjPeerUpEvent.zero
  if header.1 then do
    bufferBMPMessage
    let s ← get
    let m := bmpDataMem env.beyond s.bmpData
    match handleUpEvent env.stale m 0 s.bmpData.length header.2 info with
    | .error text => throw text
    | .ok (read, upEvent, info) => do
      let peer := if read < s.bmpData.length then
          { s.peer with info := parsePeerUpInfo m read (s.bmpData.length - read) }
        else s.peer
      modify fun s => { s with peer := peer }
      pure ([.updatePeer peer (some upEvent) none .up], info)
  else pure ([], info)

variable (D : Decoders)

def routeMon (env : Env) (info : PeerInfo) : Parse (List BusCall × PeerInfo) := do
  bufferBMPMessage
  let s ← get
  let outcome := handleUpdate D (updateDB s.peer (freshAttr env.memory)) info
    (bmpDataMem env.beyond s.bmpData) 0 s.bmpData.length
  pure (outcome.calls, outcome.info)

/-- What a message does after its headers: whether the session goes on, the bus calls,
and the peer information. -/
structure Processed where
  more : Bool
  calls : List BusCall
  peers : PeerInfoMap

/-- The switch on the message type; a type of the older versions that is not listed does
nothing. -/
def processMessage (env : Env) (peers : PeerInfoMap) : Parse Processed := do
  let s ← get
  let key := peerInfoKey s.peer
  if s.bmpType = typePeerDown then do
    let calls ← peerDown env
    pure ⟨true, calls, peers⟩
  else if s.bmpType = typePeerUp then do
    let result ← peerUp env (peers.at key)
    pure ⟨true, result.1, Function.update peers key (some result.2)⟩
  else if s.bmpType = typeRouteMon then do
    let result ← routeMon D env (peers.at key)
    pure ⟨true, result.1, Function.update peers key (some result.2)⟩
  else if s.bmpType = typeStatsReport then do
    let stats ← handleStatsReport
    pure ⟨true, [.addStatReport s.peer stats], peers⟩
  else if s.bmpType = typeInitMsg then do
    let tlvs ← handleInitMsg env.beyond
    pure ⟨true, [.updateRouter tlvs .init], peers⟩
  else if s.bmpType = typeTermMsg then do
    let tlvs ← handleTermMsg env.beyond
    pure ⟨false, [.updateRouter tlvs .term], peers⟩
  else pure ⟨true, [], peers⟩

def headerCalls (s : Parser) : List BusCall :=
  (if s.bmpType ≠ typeInitMsg then [.updateRouter [] .first] else []) ++
    (if hasPeer s ∧ s.bmpType ≠ typePeerUp then [.updatePeer s.peer none none .first] else [])

/-- What a call of `ReadIncomingMsg` leaves behind: its bus calls, and its result with
the peer information and the rest of the stream, or the text it throws. -/
structure ReadOutcome where
  calls : List BusCall
  result : Except Text (Bool × PeerInfoMap × List UInt8)

/-- `BMPReader::ReadIncomingMsg`. A throw closes the router entry and is passed on;
otherwise the raw packet is sent last. -/
def readIncomingMsg (env : Env) (peers : PeerInfoMap) (stream : List UInt8) : ReadOutcome :=
  match (handleMessage env.clock).run (Parser.new stream) with
  | .error text => ⟨[.updateRouter [] .term], .error text⟩
  | .ok (_, s) =>
    match (processMessage D env (notePeer peers s)).run s with
    | .error text => ⟨headerCalls s ++ [.updateRouter [] .term], .error text⟩
    | .ok (done, s') =>
      ⟨headerCalls s ++ done.calls ++ [.sendBmpRaw s'.peer s'.packet],
        .ok (done.more, done.peers, s'.sock)⟩

/-- The first `n` rounds of `BMPReader::readerThreadLoop`: the bus calls, and what the
next round starts from unless the loop has ended. -/
def readerThreadLoop (envs : Nat → Env) : Nat → PeerInfoMap → List UInt8 →
    List BusCall × Option (PeerInfoMap × List UInt8)
  | 0, peers, stream => ([], some (peers, stream))
  | n + 1, peers, stream =>
    let outcome := readIncomingMsg D (envs 0) peers stream
    match outcome.result with
    | .ok (true, peers, stream) =>
      let later := readerThreadLoop (fun i => envs (i + 1)) n peers stream
      (outcome.calls ++ later.1, later.2)
    | .ok (false, _, _) | .error _ => (outcome.calls, none)

theorem readerThreadLoop_succ {envs : Nat → Env} {n : Nat} {peers peers' : PeerInfoMap}
    {stream rest : List UInt8}
    (round : (readIncomingMsg D (envs 0) peers stream).result = .ok (true, peers', rest)) :
    (readerThreadLoop D envs (n + 1) peers stream).1 =
      (readIncomingMsg D (envs 0) peers stream).calls ++
        (readerThreadLoop D (fun i => envs (i + 1)) n peers' rest).1 := by
  rw [readerThreadLoop]
  simp only [round]

theorem readerThreadLoop_succ_state {envs : Nat → Env} {n : Nat} {peers peers' : PeerInfoMap}
    {stream rest : List UInt8}
    (round : (readIncomingMsg D (envs 0) peers stream).result = .ok (true, peers', rest)) :
    (readerThreadLoop D envs (n + 1) peers stream).2 =
      (readerThreadLoop D (fun i => envs (i + 1)) n peers' rest).2 := by
  rw [readerThreadLoop]
  simp only [round]

/-- What one call can do: throw, or run both stages and send the raw packet. -/
theorem readIncomingMsg_cases (env : Env) (peers : PeerInfoMap) (stream : List UInt8) :
    (∃ text, (readIncomingMsg D env peers stream).result = .error text) ∨
      ∃ s done s', (handleMessage env.clock).run (Parser.new stream) = .ok ((), s) ∧
        (processMessage D env (notePeer peers s)).run s = .ok (done, s') ∧
        readIncomingMsg D env peers stream =
          ⟨headerCalls s ++ done.calls ++ [.sendBmpRaw s'.peer s'.packet],
            .ok (done.more, done.peers, s'.sock)⟩ := by
  unfold readIncomingMsg
  split
  · exact Or.inl ⟨_, rfl⟩
  · rename_i s headers
    split
    · exact Or.inl ⟨_, rfl⟩
    · rename_i done s' body
      exact Or.inr ⟨s, done, s', headers, body, rfl⟩

theorem readIncomingMsg_of_ok {env : Env} {peers : PeerInfoMap} {stream : List UInt8}
    {s s' : Parser} {done : Processed}
    (headers : (handleMessage env.clock).run (Parser.new stream) = .ok ((), s))
    (body : (processMessage D env (notePeer peers s)).run s = .ok (done, s')) :
    readIncomingMsg D env peers stream =
      ⟨headerCalls s ++ done.calls ++ [.sendBmpRaw s'.peer s'.packet],
        .ok (done.more, done.peers, s'.sock)⟩ := by
  unfold readIncomingMsg
  rw [headers]
  simp only [body]

/-! Framing: a message is consumed to its end or the reader throws. -/

section

variable {stream : List UInt8} {total n slack : Nat} {s : Parser}

/-- The end of a message is reached, and the raw packet has not been sent yet. -/
def AtEnd (stream : List UInt8) (total : Nat) (calls : List BusCall) (s : Parser) : Prop :=
  Consumed stream total s ∧ calls.filterMap BusCall.raw? = []

theorem peerDown_returns (env : Env) (framed : Framed stream total n slack s)
    (fits : total ≤ stream.length) (small : total < bmpPacketBufSize) (hs : slack + 1 < 2 ^ 31) :
    Returns (peerDown env) s (AtEnd stream total) := by
  refine (parsePeerDownEventHdr_returns framed fits small (by omega)).bind ?_
  intro reason s₁ header
  cases reason with
  | none => exact returns_throw
  | some reason =>
    have framed₁ := header.resolve_left (by simp)
    refine (bufferBMPMessage_returns framed₁ fits small hs).bind ?_
    rintro _ s₂ ⟨consumed, -⟩
    apply returns_get_bind
    split
    · exact returns_throw
    · exact returns_pure ⟨consumed, rfl⟩

theorem peerUp_returns (env : Env) (info : PeerInfo) (framed : Framed stream total n slack s)
    (fits : total ≤ stream.length) (small : total < bmpPacketBufSize) (hs : slack + 20 < 2 ^ 31)
    (header : n + 20 ≤ stream.length) (room : n + 20 < bmpPacketBufSize) :
    Returns (peerUp env info) s (fun result => AtEnd stream total result.1) := by
  refine (parsePeerUpEventHdr_returns _ framed fits small hs header room).bind ?_
  rintro ⟨isParseGood, upEvent⟩ s₁ ⟨consumed, empty⟩
  cases isParseGood with
  | false => exact returns_pure ⟨consumed, rfl⟩
  | true =>
    have done : Framed stream total total 0 s₁ := Or.inl ⟨consumed, by rw [empty]; rfl⟩
    refine (bufferBMPMessage_returns done fits small (by decide)).bind ?_
    rintro _ s₂ ⟨consumed, -⟩
    apply returns_get_bind
    dsimp only
    split
    · exact returns_throw
    · apply returns_modify_bind
      exact returns_pure ⟨⟨consumed.1, consumed.2⟩, rfl⟩

theorem updateDB_raw {D : Decoders} (peer : ObjBgpPeer) (baseAttr : ObjPathAttr)
    (parsed : ParsedUpdateData D) :
    (updateDB peer baseAttr parsed).filterMap BusCall.raw? = [] := by
  simp only [updateDB, updateDBAdvPrefixes, updateDBWdrawnPrefixes, List.filterMap_append]
  split <;> split <;> rfl

theorem handleUpdate_raw {D : Decoders} (peer : ObjBgpPeer) (baseAttr : ObjPathAttr)
    (info : PeerInfo) (m : Mem) (data size : Nat) :
    (handleUpdate D (updateDB peer baseAttr) info m data size).calls.filterMap BusCall.raw? =
      [] := by
  rw [(handleUpdate_publishes _ (updateDB peer baseAttr) info m data size).2]
  cases (handleUpdate D (updateDB peer baseAttr) info m data size).passed with
  | none => rfl
  | some parsed => exact updateDB_raw peer baseAttr parsed

theorem routeMon_returns (env : Env) (info : PeerInfo) (framed : Framed stream total n slack s)
    (fits : total ≤ stream.length) (small : total < bmpPacketBufSize) (hs : slack < 2 ^ 31) :
    Returns (routeMon D env info) s (fun result => AtEnd stream total result.1) := by
  refine (bufferBMPMessage_returns framed fits small hs).bind ?_
  rintro _ s₁ ⟨consumed, -⟩
  apply returns_get_bind
  exact returns_pure ⟨consumed, handleUpdate_raw _ _ _ _ _ _⟩

/-- A message of a framed type ends where its length field says. -/
theorem processMessage_returns (env : Env) (peers : PeerInfoMap)
    (fits : total ≤ stream.length) (small : total < bmpPacketBufSize)
    (kind : s.bmpType ≤ typeTermMsg ∧ s.bmpType ≠ typeStatsReport)
    (withPeer : s.bmpType < typeInitMsg → Framed stream total 48 42 s)
    (withoutPeer : typeInitMsg ≤ s.bmpType → Framed stream total 6 0 s)
    (upHeader : s.bmpType = typePeerUp → 68 ≤ stream.length) :
    Returns (processMessage D env peers) s (fun done => AtEnd stream total done.calls) := by
  have size : bmpPacketBufSize = 68000 := rfl
  apply returns_get_bind
  dsimp only
  split
  · rename_i type
    refine (peerDown_returns env (withPeer (by rw [type]; decide)) fits small (by decide)).bind ?_
    exact fun calls s₁ done => returns_pure done
  split
  · rename_i type
    refine (peerUp_returns env _ (withPeer (by rw [type]; decide)) fits small (by decide)
      (upHeader type) (by decide)).bind ?_
    exact fun result s₁ done => returns_pure done
  split
  · rename_i type
    refine (routeMon_returns D env _ (withPeer (by rw [type]; decide)) fits small
      (by decide)).bind ?_
    exact fun result s₁ done => returns_pure done
  split
  · rename_i type
    exact absurd type kind.2
  split
  · rename_i type
    refine (handleInitMsg_returns _ (withoutPeer (by rw [type])) fits small (by decide)).bind ?_
    exact fun tlvs s₁ done => returns_pure ⟨done, rfl⟩
  split
  · rename_i type
    refine (handleTermMsg_returns _ (withoutPeer (by rw [type]; decide)) fits small
      (by decide)).bind ?_
    exact fun tlvs s₁ done => returns_pure ⟨done, rfl⟩
  · simp only [typePeerDown, typePeerUp, typeRouteMon, typeStatsReport, typeInitMsg,
      typeTermMsg] at *
    omega

private theorem framed_type {type : UInt8} (kind : type ∈ ([0, 2, 3, 4, 5] : List UInt8)) :
    type.toNat ≤ typeTermMsg ∧ type.toNat ≠ typeStatsReport := by
  simp only [List.mem_cons, List.not_mem_nil, or_false] at kind
  rcases kind with rfl | rfl | rfl | rfl | rfl <;> decide

private theorem headerCalls_raw (s : Parser) :
    (headerCalls s).filterMap BusCall.raw? = [] := by
  unfold headerCalls
  split <;> split <;> rfl

end

/-- A v3 message of a type other than statistics, in a stream that holds its `len` bytes
and, for a peer-up message, the 68 bytes of all its headers: the reader throws, or it
consumes exactly those `len` bytes and hands exactly them to `send_bmp_raw`. -/
theorem readIncomingMsg_consumes (env : Env) (peers : PeerInfoMap) (len : UInt32) (type : UInt8)
    (rest : List UInt8) (kind : type ∈ ([0, 2, 3, 4, 5] : List UInt8))
    (enough : len.toNat ≤ (v3Stream len type rest).length)
    (upHeader : type = 3 → 68 ≤ (v3Stream len type rest).length) :
    (∃ text, (readIncomingMsg D env peers (v3Stream len type rest)).result = .error text) ∨
      (∃ more peers', (readIncomingMsg D env peers (v3Stream len type rest)).result =
        .ok (more, peers', (v3Stream len type rest).drop len.toNat)) ∧
      (readIncomingMsg D env peers (v3Stream len type rest)).calls.filterMap BusCall.raw? =
        [(v3Stream len type rest).take len.toNat] := by
  rcases readIncomingMsg_cases D env peers (v3Stream len type rest) with
    thrown | ⟨s, done, s', headers, body, returned⟩
  · exact Or.inl thrown
  · obtain ⟨types, small, withPeer, withoutPeer⟩ :=
      handleMessage_returns env.clock len type rest enough _ _ headers
    have kinds := framed_type kind
    rw [← types] at kinds withPeer withoutPeer
    have up (isUp : s.bmpType = typePeerUp) : 68 ≤ (v3Stream len type rest).length :=
      upHeader (UInt8.toNat_inj.mp (by rw [← types, isUp]; rfl))
    obtain ⟨⟨sock, packet⟩, noRaw⟩ := processMessage_returns D env (notePeer peers s) enough small
      kinds withPeer withoutPeer up _ _ body
    rw [returned]
    refine Or.inr ⟨⟨done.more, done.peers, by rw [sock]⟩, ?_⟩
    simp [headerCalls_raw, noRaw, BusCall.raw?, packet]

theorem readIncomingMsg_consumes_initiation :
    (∃ more peers', (readIncomingMsg Decoders.silent quietEnv (fun _ => none)
        (v3Stream 6 4 [9])).result = .ok (more, peers', [9])) ∧
      (readIncomingMsg Decoders.silent quietEnv (fun _ => none)
        (v3Stream 6 4 [9])).calls.filterMap BusCall.raw? = [[3, 0, 0, 0, 6, 4]] := by
  rcases readIncomingMsg_consumes Decoders.silent quietEnv (fun _ => none) 6 4 [9]
    (by decide) (by decide) (by decide) with ⟨text, thrown⟩ | consumed
  · have returns : (readIncomingMsg Decoders.silent quietEnv (fun _ => none)
        (v3Stream 6 4 [9])).result.isOk = true := by decide +kernel
    rw [thrown] at returns
    cases returns
  · exact consumed

end SonicBmp.Bmp.Reader
