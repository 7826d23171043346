/- module: SonicBmp/Bmp/ParseBmp
   digest: Reading one BMP message from the socket: headers, buffering and the raw packet copy. -/

import SonicBmp.Bus.Interface
import SonicBmp.Library.Throwing

set_option autoImplicit false
set_option relaxedAutoImplicit false

namespace SonicBmp.Bmp.ParseBmp

open SonicBmp.Library.Printing
open SonicBmp.Library.Memory
open SonicBmp.Library.Throwing
open SonicBmp.Bgp.Common
open SonicBmp.Bus.Interface

def bmpHdrV3Len : Nat := 5

def bmpHdrV1V2Len : Nat := 43

def bmpPeerHdrLen : Nat := 42

def bmpInfoTlvHdrLen : Nat := 4

def bmpPacketBufSize : Nat := 68000

/-- `uint32_t` subtraction. -/
def sub32 (a b : Nat) : Nat := (a + 2 ^ 32 - b) % 2 ^ 32

/-- A `parseBMP` object with the socket it reads from: `sock` holds the bytes that will
still arrive before the socket is closed, `packet` and `bmpData` the filled parts of the
two buffers, `bmpType` the byte that is stored as a `char`. -/
structure Parser where
  sock : List UInt8
  packet : List UInt8
  bmpType : Nat
  bmpLen : Nat
  bmpData : List UInt8
  peer : ObjBgpPeer

def Parser.new (sock : List UInt8) : Parser := ⟨sock, [], 255, 0, [], ObjBgpPeer.zero⟩

abbrev Parse := Throws Text Parser

/-- The copy kept by `Recv`: bytes that would reach the end of the buffer are dropped. -/
def Parser.keep (s : Parser) (got : List UInt8) : Parser :=
  if s.packet.length + got.length < bmpPacketBufSize then { s with packet := s.packet ++ got }
  else s

/-- `parseBMP::Recv` with `MSG_WAITALL`: fewer bytes only when the socket is closed. -/
def recv (len : Nat) : Parse (List UInt8) := fun s =>
  let got := s.sock.take len
  .ok (got, { s.keep got with sock := s.sock.drop len })

/-- `parseBMP::Recv` with `MSG_PEEK`: the bytes stay in the socket but are kept all the same. -/
def peek (len : Nat) : Parse (List UInt8) := fun s =>
  let got := s.sock.take len
  .ok (got, s.keep got)

/-- The memory around `bmp_data` from its first byte on: the rest of the buffer is zero,
what follows it is not the parser's. -/
def bmpDataMem (beyond : Mem) (bmpData : List UInt8) : Mem :=
  writeBytes beyond 0 (bmpData ++ List.replicate (bmpPacketBufSize + 1 - bmpData.length) 0)

/-! The per-peer headers. -/

/-- The address of a header printed for a family; an IPv4 address stands in the last
four bytes. -/
def printedAddr (isIPv4 : Bool) (m : Mem) (addr : Nat) : Text :=
  if isIPv4 then inetNtop4 (readBytes m (addr + 12) 4) else inetNtop6 (readBytes m addr 16)

def asUnsignedLong (n : Nat) : Nat := if n < 2 ^ 31 then n else n + 2 ^ 64 - 2 ^ 32

def flagSet (flags bit : UInt8) : Bool := flags &&& bit != 0

def parsePeerFlags (peerType peerFlags : UInt8) (entry : ObjBgpPeer) : ObjBgpPeer :=
  if peerType = 3 then
    let entry := { entry with isLocRib := true }
    if flagSet peerFlags 0x80 then { entry with isLocRibFiltered := true } else entry
  else
    let entry := { entry with isLocRib := false, isIPv4 := !flagSet peerFlags 0x80 }
    let entry := if flagSet peerFlags 0x10 then { entry with isAdjIn := false } else entry
    let entry := if flagSet peerFlags 0x20 then { entry with isTwoOctet := true } else entry
    let entry := if flagSet peerFlags 0x40 then { entry with isPrePolicy := false }
      else { entry with isPrePolicy := true, isAdjIn := true }
    { entry with isL3VPN := decide (peerType = 1) }

def printedRd (m : Mem) (dist : Nat) : Text :=
  match u8 m (dist + 1) with
  | 1 => inetNtop4 (readBytes m (dist + 2) 4) ++ ':' :: decimal (u16 m (dist + 6))
  | 2 => decimal (asUnsignedLong (u32 m (dist + 2))) ++ ':' :: decimal (u16 m (dist + 6))
  | _ => decimal (u16 m (dist + 2)) ++ ':' :: decimal (asUnsignedLong (u32 m (dist + 4)))

/-- The route distinguisher as the v1/v2 parser prints it; without a known type its
fields start one byte early. -/
def printedRdOld (m : Mem) (dist : Nat) : Text :=
  match u16 m dist with
  | 1 => inetNtop4 (readBytes m (dist + 2) 4) ++ ':' :: decimal (u16 m (dist + 6))
  | 2 => decimal (asUnsignedLong (u32 m (dist + 2))) ++ ':' :: decimal (u16 m (dist + 6))
  | _ => decimal (u16 m (dist + 1)) ++ ':' :: decimal (asUnsignedLong
      (u8 m (dist + 3) * 2 ^ 24 + u8 m (dist + 4) * 2 ^ 16 + u8 m (dist + 5) * 2 ^ 8 +
        (u8 m (dist + 6) ||| u8 m (dist + 7))))

/-- The peer entry after a v3 per-peer header; `clock` is the time of day. -/
def peerEntry (clock : Nat × Nat) (hdr : Mem) (entry : ObjBgpPeer) : ObjBgpPeer :=
  let entry := parsePeerFlags (hdr 0) (hdr 1) entry
  let secs := u32 hdr 34
  { entry with
    peerAddr := strncpy 46 (printedAddr entry.isIPv4 hdr 10)
    peerAs := u32 hdr 26
    peerBgpId := strncpy 16 (inetNtop4 (readBytes hdr 30 4))
    peerRd := strncpy 32 (printedRd hdr 2)
    timestampSecs := if secs ≠ 0 then secs else clock.1
    timestampUs := if secs ≠ 0 then u32 hdr 38 % 1000000 else clock.2 }

/-- `parseBMP::parsePeerHdr`: a short read is only logged, and the missing bytes are zero. -/
def parsePeerHdr (clock : Nat × Nat) : Parse Unit := do
  let got ← recv bmpPeerHdrLen
  modify fun s => { s with
    bmpLen := sub32 s.bmpLen bmpPeerHdrLen
    peer := peerEntry clock (memOf got) s.peer }

def peerEntryOld (clock : Nat × Nat) (hdr : Mem) (entry : ObjBgpPeer) : ObjBgpPeer :=
  let isIPv4 := !flagSet (hdr 2) 0x80
  let secs := u32 hdr 35
  { entry with
    isIPv4 := isIPv4
    peerAddr := strncpy 40 (printedAddr isIPv4 hdr 11)
    peerAs := u32 hdr 27
    peerBgpId := strncpy 16 (inetNtop4 (readBytes hdr 31 4))
    peerRd := strncpy 32 (printedRdOld hdr 3)
    timestampSecs := if secs ≠ 0 then secs else clock.1
    isL3VPN := decide (u8 hdr 0 = 1) }

/-! The common headers. -/

/-- What the v1/v2 parser does for the message type before it reads the peer fields. A
peer-down message is given up exactly when its reason byte could be read. -/
def oldTypeStep (type : Nat) : Parse Unit :=
  match type with
  | 0 => do
    let buf ← peek 18
    if buf.length = 18 then modify fun s => { s with bmpLen := u16 (memOf buf) 16 }
    else throw "Failed to read BGP message for BMP length".toList
  | 2 => do
    let buf ← peek 1
    if buf.length ≠ 1 then pure ()
    else throw "Failed to read BMP peer down reason".toList
  | 3 => throw "ERROR: Will need to add support for peer up if it's really used.".toList
  | _ => pure ()

def parseBMPv2 (clock : Nat × Nat) : Parse Unit := do
  let got ← recv bmpHdrV1V2Len
  if got.length ≠ bmpHdrV1V2Len then
    throw "ERROR: Cannot read v1/v2 BMP common header.".toList
  else do
    let hdr := memOf got
    modify fun s => { s with bmpType := u8 hdr 0 }
    oldTypeStep (u8 hdr 0)
    modify fun s => { s with peer := peerEntryOld clock hdr s.peer }

def typeRouteMon : Nat := 0

def typeStatsReport : Nat := 1

def typePeerDown : Nat := 2

def typePeerUp : Nat := 3

def typeInitMsg : Nat := 4

def typeTermMsg : Nat := 5

/-- `parseBMP::parseBMPv3`: the length check comes after an unsigned subtraction. -/
def parseBMPv3 (clock : Nat × Nat) : Parse Unit := do
  let got ← recv bmpHdrV3Len
  if got.length ≠ bmpHdrV3Len then throw "ERROR: Cannot read v3 BMP common header.".toList
  else
    let len := sub32 (u32 (memOf got) 0) (1 + bmpHdrV3Len)
    let type := u8 (memOf got) 4
    if bgpMaxMsgSize < len then
      throw "ERROR: BMP length is larger than max possible BGP size".toList
    else do
      modify fun s => { s with bmpType := type, bmpLen := len }
      if type = typeRouteMon ∨ type = typeStatsReport ∨ type = typePeerUp ∨ type = typePeerDown then
        parsePeerHdr clock
      else if type = typeInitMsg ∨ type = typeTermMsg then pure ()
      else throw "ERROR: BMP message type is not supported".toList

def handleMessage (clock : Nat × Nat) : Parse Unit := do
  let got ← recv 1
  match got with
  | [] => throw "(2) Connection closed".toList
  | ver :: _ =>
    if ver = 3 then parseBMPv3 clock
    else if ver = 1 ∨ ver = 2 then parseBMPv2 clock
    else throw "ERROR: Unsupported BMP message version".toList

/-! The rest of a message. -/

def bufferBMPMessage : Parse Unit := do
  let s ← get
  if s.bmpLen = 0 then pure ()
  else if bmpPacketBufSize + 1 < s.bmpLen then
    throw "BMP message length is too large for buffer, invalid BMP sender".toList
  else do
    let got ← recv s.bmpLen
    if got.length ≠ s.bmpLen then throw "Error while reading BMP data into buffer".toList
    else modify fun s => { s with bmpData := got, bmpLen := 0 }

/-- `parseBMP::parsePeerDownEventHdr`: the reason, `none` when it cannot be read. -/
def parsePeerDownEventHdr : Parse (Option Nat) := do
  let got ← recv 1
  match got with
  | [] => pure none
  | reason :: _ => do
    modify fun s => { s with bmpLen := sub32 s.bmpLen 1 }
    pure (some reason.toNat)

/-- The end of `parsePeerUpEventHdr`, once `bytesRead` bytes of whole fields are read. -/
def finishPeerUp (isParseGood : Bool) (bytesRead : Nat) (upEvent : ObjPeerUpEvent) :
    Parse (Bool × ObjPeerUpEvent) := do
  modify fun s => { s with bmpLen := sub32 s.bmpLen bytesRead }
  bufferBMPMessage
  if isParseGood then pure (true, upEvent)
  else do
    bufferBMPMessage
    pure (false, upEvent)

/-- `parseBMP::parsePeerUpEventHdr`. -/
def parsePeerUpEventHdr (upEvent : ObjPeerUpEvent) : Parse (Bool × ObjPeerUpEvent) := do
  let isIPv4 := (← get).peer.isIPv4
  let addr ← recv 16
  if addr.length ≠ 16 then finishPeerUp false 0 upEvent
  else do
    let upEvent := { upEvent with localIp := printedAddr isIPv4 (memOf addr) 0 }
    let port ← recv 2
    if port.length ≠ 2 then finishPeerUp false 16 upEvent
    else do
      let upEvent := { upEvent with localPort := u16 (memOf port) 0 }
      let port ← recv 2
      if port.length ≠ 2 then finishPeerUp false 18 upEvent
      else finishPeerUp true 20 { upEvent with remotePort := u16 (memOf port) 0 }

/-- The information TLVs of `len` bytes at `data`, from offset `i` on; at most `bufSize`
bytes of a value are copied, and the loop goes on behind the copied bytes. -/
def infoTlvs (bufSize : Nat) (m : Mem) (data len i : Nat) : List InfoTlv :=
  if i < len then
    let infoLen := min bufSize (u16 m (data + i + 2))
    { offset := i
      type := u16 m (data + i)
      len := u16 m (data + i + 2)
      info := readBytes m (data + i + bmpInfoTlvHdrLen) infoLen } ::
        infoTlvs bufSize m data len (i + bmpInfoTlvHdrLen + infoLen)
  else []
termination_by len - i
decreasing_by simp only [bmpInfoTlvHdrLen]; omega

/-- `parseBMP::parsePeerUpInfo`: the TLVs it goes through. -/
def parsePeerUpInfo (m : Mem) (data len : Nat) : List InfoTlv := infoTlvs 255 m data len 0

/-- `parseBMP::handleInitMsg`: the TLVs that fill the router entry, empty ones skipped. -/
def handleInitMsg (beyond : Mem) : Parse (List InfoTlv) := do
  bufferBMPMessage
  let data := (← get).bmpData
  pure ((infoTlvs 4096 (bmpDataMem beyond data) 0 data.length 0).filter (fun tlv => 0 < tlv.len))

/-- `parseBMP::handleTermMsg`: the TLVs that fill the router entry. -/
def handleTermMsg (beyond : Mem) : Parse (List InfoTlv) := do
  bufferBMPMessage
  let data := (← get).bmpData
  pure (infoTlvs 4096 (bmpDataMem beyond data) 0 data.length 0)

/-! Statistics reports. -/

def statCounter (stats : ObjStatsReport) (statType : Nat) : Nat :=
  match statType with
  | 0 => stats.prefixesRej
  | 1 => stats.knownDupPrefixes
  | 2 => stats.knownDupWithdraws
  | 3 => stats.invalidClusterList
  | 4 => stats.invalidAsPathLoop
  | 5 => stats.invalidOriginatorId
  | 6 => stats.invalidAsConfedLoop
  | 7 => stats.routesAdjRibIn
  | 8 => stats.routesLocRib
  | _ => 0

def setStatCounter (stats : ObjStatsReport) (statType value : Nat) : ObjStatsReport :=
  match statType with
  | 0 => { stats with prefixesRej := value }
  | 1 => { stats with knownDupPrefixes := value }
  | 2 => { stats with knownDupWithdraws := value }
  | 3 => { stats with invalidClusterList := value }
  | 4 => { stats with invalidAsPathLoop := value }
  | 5 => { stats with invalidOriginatorId := value }
  | 6 => { stats with invalidAsConfedLoop := value }
  | 7 => { stats with routesAdjRibIn := value }
  | 8 => { stats with routesLocRib := value }
  | _ => stats

/-- The `memcpy` of a counter of `statLen` bytes into the report. The first seven counters
have 32 bits and lie next to each other, so eight bytes run into the next one, and behind
the seventh into padding; of a 64-bit counter four bytes replace only the low half. -/
def copyStat (stats : ObjStatsReport) (statType statLen value : Nat) : ObjStatsReport :=
  if statType < 7 then
    let stats := setStatCounter stats statType (value % 2 ^ 32)
    if statLen = 8 ∧ statType < 6 then setStatCounter stats (statType + 1) (value / 2 ^ 32)
    else stats
  else if statLen = 8 then setStatCounter stats statType value
  else setStatCounter stats statType (statCounter stats statType / 2 ^ 32 * 2 ^ 32 + value)

def skipBytes : Nat → Parse Unit
  | 0 => pure ()
  | n + 1 => do
    let _ ← recv 1
    skipBytes n

def statsLoop : Nat → ObjStatsReport → Parse ObjStatsReport
  | 0, stats => pure stats
  | n + 1, stats => do
    let type ← recv 2
    if type.length ≠ 2 then
      throw "ERROR: Cannot proceed since we cannot read the stats type.".toList
    else do
      let len ← recv 2
      if len.length ≠ 2 then
        throw "ERROR: Cannot proceed since we cannot read the stats len.".toList
      else do
        modify fun s => { s with bmpLen := sub32 s.bmpLen 4 }
        let statType := u16 (memOf type) 0
        let statLen := u16 (memOf len) 0
        if statLen = 4 ∨ statLen = 8 then do
          let b ← recv statLen
          if b.length = statLen then do
            modify fun s => { s with bmpLen := sub32 s.bmpLen statLen }
            let value := if statLen = 4 then u32 (memOf b) 0
              else u32 (memOf b) 0 * 2 ^ 32 + u32 (memOf b) 4
            statsLoop n (copyStat stats statType statLen value)
          else statsLoop n stats
        else do
          skipBytes statLen
          statsLoop n stats

/-- `parseBMP::handleStatsReport`; what is left of the message is not read. -/
def handleStatsReport : Parse ObjStatsReport := do
  let b ← recv 4
  if b.length ≠ 4 then
    throw "ERROR:  Cannot proceed since we cannot read the stats mon counter".toList
  else do
    modify fun s => { s with bmpLen := sub32 s.bmpLen 4 }
    statsLoop (u32 (memOf b) 0) ObjStatsReport.zero

end SonicBmp.Bmp.ParseBmp
