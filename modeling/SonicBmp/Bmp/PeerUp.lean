/- module: SonicBmp/Bmp/PeerUp
   digest: Well-formed peer-up messages, and the add-path table they leave for their peer. -/

import SonicBmp.Bgp.OpenCodec
import SonicBmp.Bmp.RouteMonitoring

set_option autoImplicit false
set_option relaxedAutoImplicit false

namespace SonicBmp.Bmp.PeerUp

open SonicBmp.Library.Printing (Text)
open SonicBmp.Library.Memory
open SonicBmp.Library.Throwing
open SonicBmp.Bgp.Common
open SonicBmp.Bgp.Update
open SonicBmp.Bgp.PeerEvent
open SonicBmp.Bgp.OpenCodec
open SonicBmp.Bus.Interface
open SonicBmp.Bmp.ParseBmp
open SonicBmp.Bmp.Framing
open SonicBmp.Bmp.Reader
open SonicBmp.Bmp.RouteMonitoring

/-- A BMP v3 peer-up message: any per-peer header, local address and ports, the two OPEN
messages, and any information TLVs. -/
structure PeerUpMsg where
  header : List UInt8
  localAddr : List UInt8
  localPort : UInt16
  remotePort : UInt16
  sent : OpenMessage
  received : OpenMessage
  tlvs : List UInt8
  header_length : header.length = bmpPeerHdrLen
  localAddr_length : localAddr.length = 16
  fits : bmpPeerHdrLen + (20 + ((sent.bytes ++ received.bytes) ++ tlvs).length) ≤ bgpMaxMsgSize

def PeerUpMsg.opens (up : PeerUpMsg) : List UInt8 := (up.sent.bytes ++ up.received.bytes) ++ up.tlvs

def PeerUpMsg.body (up : PeerUpMsg) : List UInt8 :=
  up.localAddr ++ (put16 up.localPort.toNat ++ (put16 up.remotePort.toNat ++ up.opens))

def PeerUpMsg.len (up : PeerUpMsg) : UInt32 := UInt32.ofNat (48 + up.body.length)

def PeerUpMsg.bytes (up : PeerUpMsg) : List UInt8 := v3Stream up.len 3 (up.header ++ up.body)

def PeerUpMsg.peer (up : PeerUpMsg) (clock : Nat × Nat) : ObjBgpPeer :=
  peerEntry clock (memOf up.header) ObjBgpPeer.zero

theorem PeerUpMsg.length_body (up : PeerUpMsg) : up.body.length = 20 + up.opens.length := by
  simp [PeerUpMsg.body, up.localAddr_length]
  omega

theorem PeerUpMsg.len_toNat (up : PeerUpMsg) : up.len.toNat = 48 + up.body.length := by
  have fits := up.fits
  have body := up.length_body
  have opens : up.opens.length = ((up.sent.bytes ++ up.received.bytes) ++ up.tlvs).length := rfl
  simp only [bmpPeerHdrLen, bgpMaxMsgSize] at fits
  simp only [PeerUpMsg.len, UInt32.toNat_ofNat']
  omega

/-- The fixed part of a body, with the octets that follow it. -/
def upBody (localAddr : List UInt8) (localPort remotePort : UInt16) (opens : List UInt8) :
    List UInt8 :=
  localAddr ++ (put16 localPort.toNat ++ (put16 remotePort.toNat ++ opens))

/-- The fixed part is read field by field, the OPEN messages and TLVs into the buffer. -/
theorem parsePeerUpEventHdr_run (upEvent : ObjPeerUpEvent) (s : Parser)
    {localAddr opens rest : List UInt8} {localPort remotePort : UInt16}
    (addr : localAddr.length = 16) (fits : bmpPeerHdrLen + (20 + opens.length) ≤ bgpMaxMsgSize)
    (sock : s.sock = upBody localAddr localPort remotePort opens ++ rest)
    (len : s.bmpLen = 20 + opens.length) (data : s.bmpData = []) (packet : s.packet.length = 48) :
    ∃ upEvent', (parsePeerUpEventHdr upEvent).run s = .ok ((true, upEvent'),
      { s with
        sock := rest
        packet := s.packet ++ upBody localAddr localPort remotePort opens
        bmpLen := 0
        bmpData := opens }) := by
  have size : bmpPacketBufSize = 68000 := rfl
  have max : bgpMaxMsgSize = 65535 := rfl
  have hdr : bmpPeerHdrLen = 42 := rfl
  let ports := put16 localPort.toNat ++ (put16 remotePort.toNat ++ (opens ++ rest))
  let s₁ : Parser := { s with sock := ports, packet := s.packet ++ localAddr }
  let s₂ : Parser := { s₁ with
    sock := put16 remotePort.toNat ++ (opens ++ rest)
    packet := s₁.packet ++ put16 localPort.toNat }
  let s₃ : Parser := { s₂ with
    sock := opens ++ rest
    packet := s₂.packet ++ put16 remotePort.toNat }
  have read₁ : (recv 16).run s = .ok (localAddr, s₁) := by
    have read := recv_append s localAddr ports (by simp [sock, upBody, ports]) (by omega)
    rwa [addr] at read
  have read₂ : (recv 2).run s₁ = .ok (put16 localPort.toNat, s₂) :=
    recv_append s₁ (put16 localPort.toNat) _ rfl (by simp [s₁, addr, packet, size])
  have read₃ : (recv 2).run s₂ = .ok (put16 remotePort.toNat, s₃) :=
    recv_append s₂ (put16 remotePort.toNat) _ rfl (by simp [s₂, s₁, addr, packet, size])
  let s₄ : Parser := { s₃ with bmpLen := sub32 s₃.bmpLen 20 }
  have left : s₄.bmpLen = opens.length := by
    have whole : s₃.bmpLen = 20 + opens.length := len
    simp only [s₄, whole, sub32]
    omega
  have buffered := bufferBMPMessage_payload s₄ opens rest rfl left data (by
    simp [s₄, s₃, s₂, s₁, addr, packet, size]
    omega)
  unfold parsePeerUpEventHdr
  rw [run_get_bind, run_bind_of_ok read₁, if_neg (by simp [addr]), run_bind_of_ok read₂,
    if_neg (by simp), run_bind_of_ok read₃, if_neg (by simp)]
  unfold finishPeerUp
  rw [run_modify_bind, run_bind_of_ok buffered, if_pos rfl]
  have read : s₄.packet ++ opens = s.packet ++ upBody localAddr localPort remotePort opens := by
    simp [s₄, s₃, s₂, s₁, upBody]
  rw [read]
  exact ⟨_, rfl⟩

variable (D : Decoders)

/-- The information a peer-up message leaves for its peer. -/
structure UpInfo (env : Env) (up : PeerUpMsg) (before after : PeerInfo) : Prop where
  fourOctet : after.using2OctetAsn = false
  addPath : after.addPathCapability = addTuples env.stale false
    (addTuples env.stale true before.addPathCapability up.sent.tuples) up.received.tuples

private theorem bufferBMPMessage_done {s : Parser} (empty : s.bmpLen = 0) :
    bufferBMPMessage.run s = .ok ((), s) := by
  unfold bufferBMPMessage
  rw [run_get_bind, if_pos empty]
  rfl

theorem peerUp_of_error {env : Env} {info : PeerInfo} {s s₁ : Parser} {upEvent : ObjPeerUpEvent}
    {text : Text}
    (header : (parsePeerUpEventHdr ObjPeerUpEvent.zero).run s = .ok ((true, upEvent), s₁))
    (empty : s₁.bmpLen = 0)
    (handled : handleUpEvent env.stale (bmpDataMem env.beyond s₁.bmpData) 0 s₁.bmpData.length
      upEvent info = .error text) :
    (peerUp env info).run s = .error text := by
  unfold peerUp
  rw [run_bind_of_ok header, if_pos rfl, run_bind_of_ok (bufferBMPMessage_done empty), run_get_bind]
  dsimp only
  rw [handled]
  rfl

theorem peerUp_of_ok {env : Env} {info info' : PeerInfo} {s s₁ : Parser}
    {upEvent upEvent' : ObjPeerUpEvent} {read : Nat}
    (header : (parsePeerUpEventHdr ObjPeerUpEvent.zero).run s = .ok ((true, upEvent), s₁))
    (empty : s₁.bmpLen = 0)
    (handled : handleUpEvent env.stale (bmpDataMem env.beyond s₁.bmpData) 0 s₁.bmpData.length
      upEvent info = .ok (read, upEvent', info')) :
    ∃ calls s', (peerUp env info).run s = .ok ((calls, info'), s') ∧ s'.sock = s₁.sock ∧
      s'.peer = if read < s₁.bmpData.length then
          { s₁.peer with
            info := parsePeerUpInfo (bmpDataMem env.beyond s₁.bmpData) read
              (s₁.bmpData.length - read) }
        else s₁.peer := by
  unfold peerUp
  rw [run_bind_of_ok header, if_pos rfl, run_bind_of_ok (bufferBMPMessage_done empty), run_get_bind]
  dsimp only
  rw [handled]
  dsimp only
  rw [run_modify_bind]
  exact ⟨_, _, rfl, rfl, rfl⟩

theorem peerUp_body (env : Env) (info : PeerInfo) (s : Parser) (up : PeerUpMsg)
    (rest : List UInt8) (sock : s.sock = up.body ++ rest) (len : s.bmpLen = up.body.length)
    (data : s.bmpData = []) (packet : s.packet.length = 48) :
    ∃ calls info' s', (peerUp env info).run s = .ok ((calls, info'), s') ∧ s'.sock = rest ∧
      UpInfo env up info info' := by
  obtain ⟨upEvent, header⟩ := parsePeerUpEventHdr_run ObjPeerUpEvent.zero s up.localAddr_length
    up.fits sock (len.trans up.length_body) data packet
  have held : Holds (bmpDataMem env.beyond up.opens) 0 (up.sent.bytes ++ up.received.bytes) := by
    have all := holds_bmpDataMem env.beyond up.opens
    rw [PeerUpMsg.opens, holds_append] at all
    exact all.1
  have room : (up.sent.bytes ++ up.received.bytes).length ≤ up.opens.length := by
    simp only [PeerUpMsg.opens, List.length_append]
    omega
  obtain ⟨upEvent', info', handled, four, table⟩ :=
    handleUpEvent_of_holds env.stale up.sent up.received held room upEvent info
  obtain ⟨calls, s', run, left, -⟩ := peerUp_of_ok header rfl handled
  exact ⟨calls, info', s', run, left, four, table⟩

private theorem processMessage_peerUp {env : Env} {peers : PeerInfoMap} {s s' : Parser}
    {calls : List BusCall} {info' : PeerInfo} (type : s.bmpType = typePeerUp)
    (handled : (peerUp env (peers.at (peerInfoKey s.peer))).run s = .ok ((calls, info'), s')) :
    (processMessage D env peers).run s =
      .ok (⟨true, calls, Function.update peers (peerInfoKey s.peer) (some info')⟩, s') := by
  unfold processMessage
  rw [run_get_bind, if_neg (by rw [type]; decide), if_pos type, run_bind_of_ok handled]
  rfl

theorem noteTwoOctet_addPathCapability (peer : ObjBgpPeer) (info : PeerInfo) :
    (noteTwoOctet peer info).addPathCapability = info.addPathCapability := by
  unfold noteTwoOctet
  split <;> rfl

/-- Reading a peer-up message: the entry of its peer is the only one that changes. -/
theorem readIncomingMsg_peerUp (env : Env) (peers : PeerInfoMap) (up : PeerUpMsg)
    (rest : List UInt8) :
    ∃ info', (readIncomingMsg D env peers (up.bytes ++ rest)).result =
        .ok (true, Function.update peers (peerInfoKey (up.peer env.clock)) (some info'), rest) ∧
      UpInfo env up (peers.at (peerInfoKey (up.peer env.clock))) info' := by
  have fits := up.fits
  have body := up.length_body
  have opens : up.opens.length = ((up.sent.bytes ++ up.received.bytes) ++ up.tlvs).length := rfl
  let s : Parser :=
    { sock := up.body ++ rest
      packet := [3] ++ (put32 up.len.toNat ++ [3]) ++ up.header
      bmpType := typePeerUp
      bmpLen := up.body.length
      bmpData := []
      peer := up.peer env.clock }
  have headers : (handleMessage env.clock).run (Parser.new (up.bytes ++ rest)) = .ok ((), s) :=
    handleMessage_perPeer env.clock up.len 3 up.header up.body rest up.header_length (by omega)
      up.len_toNat (by decide)
  have noted : notePeer peers s = Function.update peers (peerInfoKey (up.peer env.clock))
      (some (noteTwoOctet (up.peer env.clock)
        (peers.at (peerInfoKey (up.peer env.clock))))) := rfl
  have own : (notePeer peers s).at (peerInfoKey s.peer) = noteTwoOctet (up.peer env.clock)
      (peers.at (peerInfoKey (up.peer env.clock))) := by
    rw [noted]
    exact PeerInfoMap.at_update_self _ _ _
  obtain ⟨calls, info', s', handled, left, four, table⟩ := peerUp_body env
    ((notePeer peers s).at (peerInfoKey s.peer)) s up rest rfl rfl rfl
    (by simp [s, up.header_length, bmpPeerHdrLen])
  have outcome := readIncomingMsg_of_ok D headers (processMessage_peerUp D rfl handled)
  refine ⟨info', ?_, four, ?_⟩
  · rw [outcome, noted, Function.update_idem, left]
  · rw [table, own, noteTwoOctet_addPathCapability]

/-- What the two OPEN messages of a peer-up message agree on for a family: paths are sent
with identifiers when one side can receive and the other can send them. -/
def PeerUpMsg.Negotiated (up : PeerUpMsg) (afi safi : Nat) : Prop :=
  (∃ code ∈ codesFor up.sent.tuples afi safi, CanReceive code) ∧
    ∃ code ∈ codesFor up.received.tuples afi safi, CanSend code

/-- From any peer table, so at any point of any session: right after a peer-up message
add-path is on for exactly the families its OPEN messages negotiate, iff each family is
settled by them whatever the table and the memory held before. -/
theorem peerUp_negotiated_iff (env : Env) (peers : PeerInfoMap) (up : PeerUpMsg)
    (rest : List UInt8) :
    ∃ peers', (readIncomingMsg D env peers (up.bytes ++ rest)).result = .ok (true, peers', rest) ∧
      ((∀ afi safi, isAddPathEnabled
          (peers'.at (peerInfoKey (up.peer env.clock))).addPathCapability afi safi = true ↔
            up.Negotiated afi safi) ↔
        ∀ afi safi, Settles env.stale
          ((peers.at (peerInfoKey (up.peer env.clock))).addPathCapability
            (getAFiSafiKeyString afi safi))
          (codesFor up.sent.tuples afi safi) (codesFor up.received.tuples afi safi)) := by
  obtain ⟨info', result, -, table⟩ := readIncomingMsg_peerUp D env peers up rest
  refine ⟨_, result, forall_congr' fun afi => forall_congr' fun safi => ?_⟩
  rw [PeerInfoMap.at_update_self, isAddPathEnabled_iff, table, addTuples_entry, addTuples_entry]
  exact negotiated_iff_settles _ _ _ _

/-! A session that is restarted without add-path. -/

private def bareOpen (params : List OpenParam)
    (fits : (params.flatMap OpenParam.bytes).length ≤ 255) : OpenMessage :=
  ⟨4, 65000, 180, 0x0a000001, params, fits⟩

private def openWithPaths : OpenMessage :=
  bareOpen [.capability (.addPath [⟨1, 1, 3⟩])] (by decide)

private theorem openTwice_fits (o : OpenMessage) (small : o.bytes.length ≤ 284) :
    bmpPeerHdrLen + (20 + ((o.bytes ++ o.bytes) ++ []).length) ≤ bgpMaxMsgSize := by
  simp only [List.append_nil, List.length_append, bmpPeerHdrLen, bgpMaxMsgSize]
  omega

private def upWith (o : OpenMessage) (small : o.bytes.length ≤ 284) : PeerUpMsg where
  header := PeerHeader.plain.bytes
  localAddr := List.replicate 16 0
  localPort := 179
  remotePort := 179
  sent := o
  received := o
  tlvs := []
  header_length := PeerHeader.plain.length_bytes
  localAddr_length := rfl
  fits := openTwice_fits o small

private def upWithPaths : PeerUpMsg := upWith openWithPaths (by decide)

private def upWithoutPaths : PeerUpMsg := upWith (bareOpen [] (by decide)) (by decide)

/-- Both OPEN messages of the restarted session leave add-path out, and it stays on. -/
theorem addPath_survives_restart :
    ∃ peers, (readerThreadLoop Decoders.silent (fun _ => quietEnv) 2 (fun _ => none)
        (upWithPaths.bytes ++ (upWithoutPaths.bytes ++ []))).2 = some (peers, []) ∧
      isAddPathEnabled (peers.at
        (peerInfoKey (upWithoutPaths.peer quietEnv.clock))).addPathCapability 1 1 = true ∧
      ¬ upWithoutPaths.Negotiated 1 1 := by
  obtain ⟨info, first, -, table⟩ := readIncomingMsg_peerUp Decoders.silent quietEnv (fun _ => none)
    upWithPaths (upWithoutPaths.bytes ++ [])
  obtain ⟨info', second, -, table'⟩ := readIncomingMsg_peerUp Decoders.silent quietEnv
    (Function.update (fun _ => none) (peerInfoKey (upWithPaths.peer quietEnv.clock)) (some info))
    upWithoutPaths []
  have samePeer : upWithPaths.peer quietEnv.clock = upWithoutPaths.peer quietEnv.clock := rfl
  have kept : info'.addPathCapability = info.addPathCapability := by
    rw [table', samePeer, PeerInfoMap.at_update_self]
    rfl
  refine ⟨Function.update (Function.update (fun _ => none)
    (peerInfoKey (upWithPaths.peer quietEnv.clock)) (some info))
    (peerInfoKey (upWithoutPaths.peer quietEnv.clock)) (some info'), ?_, ?_, ?_⟩
  · exact (@readerThreadLoop_succ_state _ (fun _ => quietEnv) _ _ _ _ _ first).trans
      (@readerThreadLoop_succ_state _ (fun _ => quietEnv) 0 _ _ _ _ second)
  · rw [PeerInfoMap.at_update_self, kept, table]
    decide
  · rintro ⟨⟨code, listed, -⟩, -⟩
    simp [upWithoutPaths, upWith, bareOpen, OpenMessage.tuples, codesFor] at listed

end SonicBmp.Bmp.PeerUp
