/- module: SonicBmp/Bmp/RouteMonitoring
   digest: Well-formed route-monitoring messages: how they are read and which rows they write. -/

import SonicBmp.Bmp.Reader

set_option autoImplicit false
set_option relaxedAutoImplicit false

namespace SonicBmp.Bmp.RouteMonitoring

open SonicBmp.Library.Printing (Text strncpy)
open SonicBmp.Library.Memory
open SonicBmp.Library.Throwing
open SonicBmp.Bgp.Common
open SonicBmp.Bgp.Attributes (Latches)
open SonicBmp.Bgp.Update
open SonicBmp.Bgp.UpdateDb
open SonicBmp.Bus.Interface
open SonicBmp.Bus.Redis
open SonicBmp.Bmp.ParseBmp
open SonicBmp.Bmp.Framing
open SonicBmp.Bmp.Reader

/-- A v3 per-peer header. -/
structure PeerHeader where
  bytes : List UInt8
  length_bytes : bytes.length = bmpPeerHdrLen

def PeerHeader.plain : PeerHeader := ⟨List.replicate bmpPeerHdrLen 0, rfl⟩

def PeerHeader.type (h : PeerHeader) : UInt8 := memOf h.bytes 0

def PeerHeader.peer (h : PeerHeader) (clock : Nat × Nat) : ObjBgpPeer :=
  peerEntry clock (memOf h.bytes) ObjBgpPeer.zero

/-- A BMP v3 route-monitoring message: any per-peer header and any payload within the
length the reader accepts. -/
structure RouteMsg where
  header : List UInt8
  payload : List UInt8
  header_length : header.length = bmpPeerHdrLen
  fits : bmpPeerHdrLen + payload.length ≤ bgpMaxMsgSize

def RouteMsg.len (msg : RouteMsg) : UInt32 := UInt32.ofNat (48 + msg.payload.length)

def RouteMsg.bytes (msg : RouteMsg) : List UInt8 :=
  v3Stream msg.len 0 (msg.header ++ msg.payload)

def RouteMsg.peer (msg : RouteMsg) (clock : Nat × Nat) : ObjBgpPeer :=
  peerEntry clock (memOf msg.header) ObjBgpPeer.zero

theorem peerEntry_isAdjIn (clock : Nat × Nat) (hdr : Mem) (entry : ObjBgpPeer) :
    (peerEntry clock hdr entry).isAdjIn = (parsePeerFlags (hdr 0) (hdr 1) entry).isAdjIn := rfl

theorem peerEntry_peerAddr (clock : Nat × Nat) (hdr : Mem) (entry : ObjBgpPeer) :
    (peerEntry clock hdr entry).peerAddr =
      strncpy 46 (printedAddr (parsePeerFlags (hdr 0) (hdr 1) entry).isIPv4 hdr 10) := rfl

/-- The time of day plays no part in what names a peer's routes. -/
theorem RouteMsg.peer_clock (msg : RouteMsg) (clock clock' : Nat × Nat) :
    ribTable (msg.peer clock) = ribTable (msg.peer clock') ∧
      (msg.peer clock).peerAddr = (msg.peer clock').peerAddr := by
  constructor
  · have adjIn : (msg.peer clock).isAdjIn = (msg.peer clock').isAdjIn := by
      rw [RouteMsg.peer, RouteMsg.peer, peerEntry_isAdjIn, peerEntry_isAdjIn]
    rw [ribTable, ribTable, adjIn]
  · rw [RouteMsg.peer, RouteMsg.peer, peerEntry_peerAddr, peerEntry_peerAddr]

theorem recv_append (s : Parser) (got rest : List UInt8) (sock : s.sock = got ++ rest)
    (room : s.packet.length + got.length < bmpPacketBufSize) :
    (recv got.length).run s = .ok (got, { s with sock := rest, packet := s.packet ++ got }) := by
  have kept : s.keep got = { s with packet := s.packet ++ got } := by
    rw [Parser.keep, if_pos room]
  unfold recv
  simp only [StateT.run, sock, List.take_left, List.drop_left, kept]

theorem handleMessage_v3 (clock : Nat × Nat) (s : Parser) (rest : List UInt8)
    (sock : s.sock = [3] ++ rest) (room : s.packet.length + 1 < bmpPacketBufSize) :
    (handleMessage clock).run s =
      (parseBMPv3 clock).run { s with sock := rest, packet := s.packet ++ [3] } := by
  have read : (recv 1).run s = _ := recv_append s [3] rest sock room
  unfold handleMessage
  rw [run_bind_of_ok read]
  rfl

/-- The common header of a message that goes on with a per-peer header. -/
theorem parseBMPv3_common (clock : Nat × Nat) (s : Parser) (len : UInt32) (type : UInt8)
    (rest : List UInt8) (sock : s.sock = put32 len.toNat ++ [type] ++ rest)
    (room : s.packet.length + bmpHdrV3Len < bmpPacketBufSize)
    (small : sub32 len.toNat (1 + bmpHdrV3Len) ≤ bgpMaxMsgSize)
    (withPeer : type.toNat = typeRouteMon ∨ type.toNat = typeStatsReport ∨
      type.toNat = typePeerUp ∨ type.toNat = typePeerDown) :
    (parseBMPv3 clock).run s = (parsePeerHdr clock).run { s with
      sock := rest
      packet := s.packet ++ (put32 len.toNat ++ [type])
      bmpType := type.toNat
      bmpLen := sub32 len.toNat (1 + bmpHdrV3Len) } := by
  have read : (recv bmpHdrV3Len).run s = _ :=
    recv_append s (put32 len.toNat ++ [type]) rest sock room
  obtain ⟨lenField, typeField⟩ := v3Header_fields len type
  unfold parseBMPv3
  rw [run_bind_of_ok read, if_neg (by simp [bmpHdrV3Len]), lenField, typeField]
  dsimp only
  rw [if_neg (by omega), run_modify_bind, if_pos withPeer]

theorem parsePeerHdr_header (clock : Nat × Nat) (s : Parser) (header rest : List UInt8)
    (length : header.length = bmpPeerHdrLen) (sock : s.sock = header ++ rest)
    (room : s.packet.length + bmpPeerHdrLen < bmpPacketBufSize) :
    (parsePeerHdr clock).run s = .ok ((), { s with
      sock := rest
      packet := s.packet ++ header
      bmpLen := sub32 s.bmpLen bmpPeerHdrLen
      peer := peerEntry clock (memOf header) s.peer }) := by
  have read := recv_append s header rest sock (by rw [length]; exact room)
  rw [length] at read
  unfold parsePeerHdr
  rw [run_bind_of_ok read, run_modify]

theorem RouteMsg.len_toNat (msg : RouteMsg) : msg.len.toNat = 48 + msg.payload.length := by
  have fits := msg.fits
  simp only [bmpPeerHdrLen, bgpMaxMsgSize] at fits
  simp only [RouteMsg.len, UInt32.toNat_ofNat']
  omega

/-- The headers of a message with a per-peer header are read as they stand. -/
theorem handleMessage_perPeer (clock : Nat × Nat) (len : UInt32) (type : UInt8)
    (header body rest : List UInt8) (length : header.length = bmpPeerHdrLen)
    (fits : bmpPeerHdrLen + body.length ≤ bgpMaxMsgSize) (whole : len.toNat = 48 + body.length)
    (withPeer : type.toNat = typeRouteMon ∨ type.toNat = typeStatsReport ∨
      type.toNat = typePeerUp ∨ type.toNat = typePeerDown) :
    (handleMessage clock).run (Parser.new (v3Stream len type (header ++ body) ++ rest)) =
      .ok ((), {
        sock := body ++ rest
        packet := [3] ++ (put32 len.toNat ++ [type]) ++ header
        bmpType := type.toNat
        bmpLen := body.length
        bmpData := []
        peer := peerEntry clock (memOf header) ObjBgpPeer.zero }) := by
  have max : bgpMaxMsgSize = 65535 := rfl
  have hdr : bmpPeerHdrLen = 42 := rfl
  have left : sub32 len.toNat (1 + bmpHdrV3Len) = 42 + body.length := by
    simp only [sub32, bmpHdrV3Len]
    omega
  have left' : sub32 (42 + body.length) bmpPeerHdrLen = body.length := by
    simp only [sub32]
    omega
  have bytes : v3Stream len type (header ++ body) ++ rest =
      [3] ++ (put32 len.toNat ++ [type] ++ (header ++ (body ++ rest))) := by
    simp [v3Stream]
  rw [handleMessage_v3 clock _ _ bytes (by simp [Parser.new, bmpPacketBufSize]),
    parseBMPv3_common clock _ len type _ rfl (by simp [Parser.new, bmpPacketBufSize, bmpHdrV3Len])
      (by omega) withPeer,
    parsePeerHdr_header clock _ header _ length rfl (by simp [Parser.new, bmpPacketBufSize, hdr])]
  simp only [left, left']
  rfl

def RouteMsg.afterHeaders (msg : RouteMsg) (clock : Nat × Nat) (rest : List UInt8) : Parser where
  sock := msg.payload ++ rest
  packet := [3] ++ (put32 msg.len.toNat ++ [0]) ++ msg.header
  bmpType := typeRouteMon
  bmpLen := msg.payload.length
  bmpData := []
  peer := msg.peer clock

theorem handleMessage_routeMsg (clock : Nat × Nat) (msg : RouteMsg) (rest : List UInt8) :
    (handleMessage clock).run (Parser.new (msg.bytes ++ rest)) =
      .ok ((), msg.afterHeaders clock rest) :=
  handleMessage_perPeer clock msg.len 0 msg.header msg.payload rest msg.header_length msg.fits
    msg.len_toNat (by decide)

theorem bufferBMPMessage_payload (s : Parser) (payload rest : List UInt8)
    (sock : s.sock = payload ++ rest) (len : s.bmpLen = payload.length) (data : s.bmpData = [])
    (room : s.packet.length + payload.length < bmpPacketBufSize) :
    bufferBMPMessage.run s = .ok ((),
      { s with
        sock := rest
        packet := s.packet ++ payload
        bmpLen := 0
        bmpData := payload }) := by
  unfold bufferBMPMessage
  rw [run_get_bind]
  by_cases empty : s.bmpLen = 0
  · have none_left : payload = [] := List.length_eq_zero_iff.mp (len ▸ empty)
    subst none_left
    rw [if_pos empty]
    cases s
    simp_all
    rfl
  · have read := recv_append s payload rest sock room
    rw [← len] at read
    rw [if_neg empty, if_neg (by omega), run_bind_of_ok read, if_neg (by simp [len])]
    rfl

section

variable (D : Decoders)

def RouteMsg.update (msg : RouteMsg) (env : Env) (info : PeerInfo) : UpdateOutcome D BusCall :=
  handleUpdate D (updateDB (msg.peer env.clock) (freshAttr env.memory)) info
    (bmpDataMem env.beyond msg.payload) 0 msg.payload.length

theorem processMessage_routeMon (env : Env) (peers : PeerInfoMap) (msg : RouteMsg)
    (rest : List UInt8) (s : Parser) (type : s.bmpType = typeRouteMon)
    (sock : s.sock = msg.payload ++ rest) (len : s.bmpLen = msg.payload.length)
    (data : s.bmpData = []) (peer : s.peer = msg.peer env.clock) (packet : s.packet.length = 48) :
    let outcome := msg.update D env (peers.at (peerInfoKey s.peer))
    (processMessage D env peers).run s = .ok (
      { more := true
        calls := outcome.calls
        peers := Function.update peers (peerInfoKey s.peer) (some outcome.info) },
      { s with
        sock := rest
        packet := s.packet ++ msg.payload
        bmpLen := 0
        bmpData := msg.payload }) := by
  have fits := msg.fits
  have size : bmpPacketBufSize = 68000 := rfl
  have max : bgpMaxMsgSize = 65535 := rfl
  have hdr : bmpPeerHdrLen = 42 := rfl
  have buffered := bufferBMPMessage_payload s msg.payload rest sock len data (by omega)
  unfold processMessage
  rw [run_get_bind, if_neg (by rw [type]; decide), if_neg (by rw [type]; decide), if_pos type]
  have handled : (routeMon D env (peers.at (peerInfoKey s.peer))).run s =
      .ok (((msg.update D env (peers.at (peerInfoKey s.peer))).calls,
          (msg.update D env (peers.at (peerInfoKey s.peer))).info),
        { s with
          sock := rest
          packet := s.packet ++ msg.payload
          bmpLen := 0
          bmpData := msg.payload }) := by
    unfold routeMon
    rw [run_bind_of_ok buffered, run_get_bind, RouteMsg.update, ← peer]
    rfl
  rw [run_bind_of_ok handled]
  rfl

def RouteMsg.info (msg : RouteMsg) (env : Env) (peers : PeerInfoMap) : PeerInfo :=
  noteTwoOctet (msg.peer env.clock) (peers.at (peerInfoKey (msg.peer env.clock)))

/-- Reading a route-monitoring message: its UPDATE is published between the records of
the router and the peer and the raw packet. -/
theorem readIncomingMsg_routeMsg (env : Env) (peers : PeerInfoMap) (msg : RouteMsg)
    (rest : List UInt8) :
    readIncomingMsg D env peers (msg.bytes ++ rest) =
      { calls := [.updateRouter [] .first, .updatePeer (msg.peer env.clock) none none .first] ++
          (msg.update D env (msg.info env peers)).calls ++
            [.sendBmpRaw (msg.peer env.clock) msg.bytes]
        result := .ok (true, Function.update peers (peerInfoKey (msg.peer env.clock))
          (some (msg.update D env (msg.info env peers)).info), rest) } := by
  have noted : notePeer peers (msg.afterHeaders env.clock rest) =
      Function.update peers (peerInfoKey (msg.peer env.clock)) (some (msg.info env peers)) := rfl
  have body := processMessage_routeMon D env (notePeer peers (msg.afterHeaders env.clock rest)) msg
    rest (msg.afterHeaders env.clock rest) rfl rfl rfl rfl rfl
    (by simp [RouteMsg.afterHeaders, msg.header_length, bmpPeerHdrLen])
  refine (readIncomingMsg_of_ok D (handleMessage_routeMsg env.clock msg rest) body).trans ?_
  have packet : (msg.afterHeaders env.clock rest).packet ++ msg.payload = msg.bytes := by
    simp [RouteMsg.afterHeaders, RouteMsg.bytes, v3Stream]
  have peer : (msg.afterHeaders env.clock rest).peer = msg.peer env.clock := rfl
  have calls : headerCalls (msg.afterHeaders env.clock rest) =
      [.updateRouter [] .first, .updatePeer (msg.peer env.clock) none none .first] := rfl
  simp only [noted, packet, peer, calls, PeerInfoMap.at_update_self, Function.update_idem]

theorem commands_routeMsg (redisMgr : RedisManager) (env : Env) (peers : PeerInfoMap)
    (msg : RouteMsg) (rest : List UInt8) :
    (readIncomingMsg D env peers (msg.bytes ++ rest)).calls.flatMap (commands redisMgr) =
      updatePeer redisMgr (msg.peer env.clock) none none .first ++
        (msg.update D env (msg.info env peers)).calls.flatMap (commands redisMgr) := by
  rw [readIncomingMsg_routeMsg]
  simp [commands]

end

/-- A route-monitoring message with an encoded UPDATE, add-path off. -/
structure UnicastMsg where
  header : List UInt8
  update : UpdateMessage (fun _ => false)
  header_length : header.length = bmpPeerHdrLen
  fits : bmpPeerHdrLen + update.bytes.length ≤ bgpMaxMsgSize

def UnicastMsg.routeMsg (msg : UnicastMsg) : RouteMsg :=
  ⟨msg.header, msg.update.bytes, msg.header_length, msg.fits⟩

/-- Its routes are published, and of the peer information only the latches may move. -/
theorem UnicastMsg.published {D : Decoders} (msg : UnicastMsg) (env : Env) (info : PeerInfo)
    (off : info.addPathUnicast = fun _ => false) :
    ∃ parsed : ParsedUpdateData D, (msg.routeMsg.update D env info).calls =
        updateDB (msg.routeMsg.peer env.clock) (freshAttr env.memory) parsed ∧
      parsed.advertised = msg.update.advertises ∧ parsed.withdrawn = msg.update.withdraws ∧
      Latches info (msg.routeMsg.update D env info).info := by
  obtain ⟨parsed, info', outcome, latches, adv, wdr⟩ := handleUpdate_message (D := D)
    (updateDB (msg.routeMsg.peer env.clock) (freshAttr env.memory)) info off msg.update
    (holds_bmpDataMem env.beyond msg.update.bytes)
  have result : msg.routeMsg.update D env info = _ := outcome
  refine ⟨parsed, ?_, adv, wdr, ?_⟩
  · rw [result]
  · rw [result]
    exact latches

theorem noteTwoOctet_addPathUnicast (peer : ObjBgpPeer) (info : PeerInfo) :
    (noteTwoOctet peer info).addPathUnicast = info.addPathUnicast := by
  unfold noteTwoOctet
  split <;> rfl

/-- The database commands of an encoded UPDATE: a row for every route it advertises. -/
theorem commands_unicastMsg (D : Decoders) (redisMgr : RedisManager) (env : Env)
    (peers : PeerInfoMap) (msg : UnicastMsg) (rest : List UInt8)
    (off : (peers.at (peerInfoKey (msg.routeMsg.peer env.clock))).addPathUnicast = fun _ => false) :
    (readIncomingMsg D env peers (msg.routeMsg.bytes ++ rest)).calls.flatMap (commands redisMgr) =
      updatePeer redisMgr (msg.routeMsg.peer env.clock) none none .first ++
        msg.update.advertises.flatMap (fun tuple =>
          redisMgr.writeBMPTable (ribTable (msg.routeMsg.peer env.clock))
            [prefixKey (ribEntry tuple), (msg.routeMsg.peer env.clock).peerAddr]
            (addFieldValues (freshAttr env.memory))) := by
  obtain ⟨parsed, calls, adv, -⟩ := msg.published (D := D) env (msg.routeMsg.info env peers)
    ((noteTwoOctet_addPathUnicast _ _).trans off)
  rw [commands_routeMsg, calls, commands_updateDB, adv]

/-! The table of the rows. -/

def RibRowsIn (table : BmpTable) (cmds : List RedisCommand) : Prop :=
  ∀ table' key fieldValues, .set table' key fieldValues ∈ cmds → table' = .nei ∨ table' = table

/-- The table that the O flag of a per-peer header stands for. -/
def directionTable (flags : UInt8) : BmpTable := if flagSet flags 0x10 then .ribOut else .ribIn

/-- A fresh entry outside the Loc-RIB type. Its direction is decided by the L flag alone:
the O flag only clears what is clear, and a message without the L flag is taken for
Adj-RIB-In. -/
theorem parsePeerFlags_zero {type flags : UInt8} (notLocRib : type ≠ 3) :
    let entry := parsePeerFlags type flags ObjBgpPeer.zero
    entry.isAdjIn = !flagSet flags 0x40 ∧ entry.isTwoOctet = flagSet flags 0x20 ∧
      entry.isIPv4 = !flagSet flags 0x80 := by
  unfold parsePeerFlags
  rw [if_neg notLocRib]
  cases flagSet flags 0x10 <;> cases flagSet flags 0x20 <;> cases flagSet flags 0x40 <;>
    exact ⟨rfl, rfl, rfl⟩

theorem RouteMsg.ribTable_peer (msg : RouteMsg) (clock : Nat × Nat) {type flags : UInt8}
    (header : msg.header.take 2 = [type, flags]) (notLocRib : type ≠ 3) :
    ribTable (msg.peer clock) = if flagSet flags 0x40 then .ribOut else .ribIn := by
  have bytes : memOf msg.header 0 = type ∧ memOf msg.header 1 = flags := by
    rcases hdr : msg.header with _ | ⟨a, _ | ⟨b, tail⟩⟩ <;> simp [hdr] at header
    simp [memOf_apply, header]
  have adjIn : (msg.peer clock).isAdjIn = !flagSet flags 0x40 := by
    rw [RouteMsg.peer, peerEntry_isAdjIn, bytes.1, bytes.2, (parsePeerFlags_zero notLocRib).1]
  rw [ribTable, adjIn]
  cases flagSet flags 0x40 <;> rfl

/-- Whatever the payload, the RIB rows of a message lie in the table of its peer entry. -/
theorem ribRowsIn_peerTable (D : Decoders) (redisMgr : RedisManager) (env : Env)
    (peers : PeerInfoMap) (msg : RouteMsg) (rest : List UInt8) :
    RibRowsIn (ribTable (msg.peer env.clock))
      ((readIncomingMsg D env peers (msg.bytes ++ rest)).calls.flatMap (commands redisMgr)) := by
  have written (table table' : BmpTable) (keys : List Text) (fields fields' : List FieldValue)
      (key : Text) (row : .set table' key fields' ∈ redisMgr.writeBMPTable table keys fields) :
      table' = table := by
    unfold RedisManager.writeBMPTable at row
    split at row <;> simp_all
  intro table' key fields row
  rw [commands_routeMsg, List.mem_append] at row
  rcases row with row | row
  · exact Or.inl (written _ _ _ _ _ _ row)
  · right
    rw [RouteMsg.update, (handleUpdate_publishes _ (fun parsed => [parsed]) _ _ _ _).2] at row
    cases passed : (handleUpdate D (fun parsed => [parsed]) (msg.info env peers)
        (bmpDataMem env.beyond msg.payload) 0 msg.payload.length).passed with
    | none => rw [passed] at row; simp at row
    | some parsed =>
      rw [passed, Option.elim_some, commands_updateDB, List.mem_flatMap] at row
      obtain ⟨tuple, -, row⟩ := row
      exact written _ _ _ _ _ _ row

def allTables : RedisManager := ⟨['|'], fun _ => true⟩

def tenUpdate : UpdateMessage (fun _ => false) :=
  ⟨[], [], [tenSlashEight], by decide⟩

/-- That UPDATE under a header with the given type and flags, all else zero. -/
def tenMsg (type flags : UInt8) : UnicastMsg where
  header := type :: flags :: List.replicate 40 0
  update := tenUpdate
  header_length := rfl
  fits := by decide

/-- The rows follow the O flag, whatever the payload, exactly for the headers whose L flag
agrees with it. -/
theorem ribRows_direction_iff (D : Decoders) (type flags : UInt8) (notLocRib : type ≠ 3) :
    (∀ msg : RouteMsg, msg.header.take 2 = [type, flags] →
      ∀ (env : Env) (redisMgr : RedisManager) (peers : PeerInfoMap) (rest : List UInt8),
        RibRowsIn (directionTable flags)
          ((readIncomingMsg D env peers (msg.bytes ++ rest)).calls.flatMap (commands redisMgr))) ↔
      flagSet flags 0x40 = flagSet flags 0x10 := by
  constructor
  · intro follows
    have table := (tenMsg type flags).routeMsg.ribTable_peer quietEnv.clock rfl notLocRib
    have rows := follows (tenMsg type flags).routeMsg rfl quietEnv allTables (fun _ => none) []
    rw [commands_unicastMsg D allTables quietEnv (fun _ => none) (tenMsg type flags) [] rfl] at rows
    have row := rows (ribTable ((tenMsg type flags).routeMsg.peer quietEnv.clock)) _ _
      (List.mem_append_right _ (List.mem_flatMap.mpr
        ⟨_, List.mem_cons_self, List.mem_cons_self⟩))
    rw [table, directionTable] at row
    revert row
    cases flagSet flags 0x40 <;> cases flagSet flags 0x10 <;> simp
  · intro agree msg header env redisMgr peers rest
    have rows := ribRowsIn_peerTable D redisMgr env peers msg rest
    rw [msg.ribTable_peer env.clock header notLocRib, agree] at rows
    exact rows

theorem ribRows_direction_prePolicy :
    RibRowsIn .ribIn
      ((readIncomingMsg Decoders.silent quietEnv (fun _ => none)
        ((tenMsg 0 0).routeMsg.bytes ++ [])).calls.flatMap (commands allTables)) :=
  (ribRows_direction_iff Decoders.silent 0 0 (by decide)).mpr (by decide)
    (tenMsg 0 0).routeMsg rfl quietEnv allTables _ []

/-- A post-policy message of Adj-RIB-In, with the O flag clear, writes to the table of
Adj-RIB-Out. -/
theorem postPolicy_row_in_ribOut :
    flagSet 0x40 0x10 = false ∧
      .set .ribOut "10.0.0.0/8|0.0.0.0".toList (addFieldValues quietEnv.memory) ∈
        (readIncomingMsg Decoders.silent quietEnv (fun _ => none)
          ((tenMsg 0 0x40).routeMsg.bytes ++ [])).calls.flatMap (commands allTables) := by
  rw [commands_unicastMsg Decoders.silent allTables quietEnv (fun _ => none) (tenMsg 0 0x40) [] rfl]
  decide +kernel

end SonicBmp.Bmp.RouteMonitoring
