/- module: SonicBmp/Bmp/OldMessages
   digest: Whole messages of BMP versions 1 and 2: which of them the reader consumes. -/

import SonicBmp.Bmp.HeaderVersions
import SonicBmp.Bmp.Reader

set_option autoImplicit false
set_option relaxedAutoImplicit false

namespace SonicBmp.Bmp.OldMessages

open SonicBmp.Library.Memory
open SonicBmp.Library.Throwing
open SonicBmp.Bgp.Common (Decoders)
open SonicBmp.Bmp.ParseBmp
open SonicBmp.Bmp.Framing (recv_run keep_eq)
open SonicBmp.Bmp.Reader
open SonicBmp.Bmp.RouteMonitoring (PeerHeader)
open SonicBmp.Bmp.HeaderVersions

/-- A BGP message; its length field counts the 19 octets of the header too. -/
structure BgpMessage where
  marker : Vector UInt8 16
  type : UInt8
  body : List UInt8
  fits : 19 + body.length < 65536

def BgpMessage.bytes (msg : BgpMessage) : List UInt8 :=
  msg.marker.toList ++ (put16 (19 + msg.body.length) ++ (msg.type :: msg.body))

theorem BgpMessage.length_bytes (msg : BgpMessage) : msg.bytes.length = 19 + msg.body.length := by
  simp [BgpMessage.bytes]
  omega

/-- What stands behind the header of a peer-down message: a reason, and the NOTIFICATION for
the reasons that come with one; for reason 2 there may be the code of the event. -/
inductive DownBody
  | notified (reason : UInt8) (comes : reason = 1 ∨ reason = 3) (msg : BgpMessage)
      (notification : msg.type = 3) (codes : 2 ≤ msg.body.length)
  | closedLocally (event : Option UInt16)
  | closedRemotely

def DownBody.bytes : DownBody → List UInt8
  | .notified reason _ msg _ _ => reason :: msg.bytes
  | .closedLocally event => 2 :: (event.elim [] fun code => put16 code.toNat)
  | .closedRemotely => [4]

inductive OldBody
  | routeMon (msg : BgpMessage) (update : msg.type = 2)
  | peerDown (down : DownBody)

def OldBody.type : OldBody → UInt8
  | .routeMon _ _ => 0
  | .peerDown _ => 2

def OldBody.bytes : OldBody → List UInt8
  | .routeMon msg _ => msg.bytes
  | .peerDown down => down.bytes

/-- A message of version 1 or 2: the version, the type, the fields of the peer, the body. -/
structure OldMsg where
  version : UInt8
  old : version = 1 ∨ version = 2
  header : PeerHeader
  body : OldBody

def OldMsg.bytes (msg : OldMsg) : List UInt8 :=
  msg.version :: (msg.body.type :: msg.header.bytes ++ msg.body.bytes)

def OldMsg.IsRouteMon (msg : OldMsg) : Prop := msg.body.type = 0

/-- The reader comes back and leaves the stream behind the message. -/
def ConsumedWhole (D : Decoders) (env : Env) (peers : PeerInfoMap) (msg : OldMsg)
    (rest : List UInt8) : Prop :=
  ∃ more peers', (readIncomingMsg D env peers (msg.bytes ++ rest)).result = .ok (more, peers', rest)

/-- The headers of a message that arrives whole, up to the step for its type. -/
theorem handleMessage_old (clock : Nat × Nat) (msg : OldMsg) (rest : List UInt8) :
    ∃ mid : Parser, mid.sock = msg.body.bytes ++ rest ∧ mid.bmpType = msg.body.type.toNat ∧
      (handleMessage clock).run (Parser.new (msg.bytes ++ rest)) =
        (oldTypeStep msg.body.type.toNat >>= fun _ => modify fun t =>
          { t with peer := peerEntryOld clock (memOf (msg.body.type :: msg.header.bytes)) t.peer }).run
            mid := by
  have sock : (Parser.new (msg.bytes ++ rest)).sock =
      [msg.version] ++ (msg.body.type :: msg.header.bytes ++ (msg.body.bytes ++ rest)) := by
    simp [Parser.new, OldMsg.bytes]
  obtain ⟨packet, read⟩ := recv_run sock
  have newer : msg.version ≠ 3 := by
    rcases msg.old with one | two
    · rw [one]
      decide
    · rw [two]
      decide
  obtain ⟨mid, left, type, run⟩ := parseBMPv2_eq clock
    (s := { Parser.new (msg.bytes ++ rest) with
      sock := msg.body.type :: msg.header.bytes ++ (msg.body.bytes ++ rest), packet := packet }) rfl
  refine ⟨mid, left, type, ?_⟩
  have first : (recv 1).run (Parser.new (msg.bytes ++ rest)) = _ := read
  rw [handleMessage, run_bind_of_ok first]
  dsimp only
  rw [if_neg newer, if_pos msg.old]
  exact run

/-- The length of a route-monitoring message is taken from its BGP message. -/
theorem oldTypeStep_routeMon {s : Parser} {msg : BgpMessage} {rest : List UInt8}
    (sock : s.sock = msg.bytes ++ rest) :
    ∃ packet, (oldTypeStep 0).run s =
      .ok ((), { s with packet := packet, bmpLen := msg.bytes.length }) := by
  have marker : (s.sock.take 18) = msg.marker.toList ++ put16 (19 + msg.body.length) := by
    rw [sock, BgpMessage.bytes, ← List.append_assoc, List.append_assoc]
    exact List.take_left' (by simp)
  have got : (s.sock.take 18).length = 18 := by simp [marker]
  have len : u16 (memOf (s.sock.take 18)) 16 = msg.bytes.length := by
    have held := holds_memOf (s.sock.take 18)
    rw [marker, holds_append, Vector.length_toList] at held
    rw [marker, msg.length_bytes]
    exact held.2.u16 msg.fits
  refine ⟨(s.keep (s.sock.take 18)).packet, ?_⟩
  show (peek 18 >>= _).run s = _
  rw [run_bind_of_ok (peek_run 18 s), if_pos got, run_modify, len, keep_eq]

theorem bufferBMPMessage_run {s : Parser} {payload rest : List UInt8}
    (sock : s.sock = payload ++ rest) (len : s.bmpLen = payload.length) (more : 0 < payload.length)
    (fits : payload.length < 65536) :
    ∃ packet, bufferBMPMessage.run s =
      .ok ((), { s with sock := rest, packet := packet, bmpLen := 0, bmpData := payload }) := by
  have size : bmpPacketBufSize = 68000 := rfl
  obtain ⟨packet, read⟩ := recv_run sock
  rw [← len] at read
  refine ⟨packet, ?_⟩
  rw [bufferBMPMessage, run_get_bind, if_neg (by omega), if_neg (by omega), run_bind_of_ok read,
    if_neg (not_not.mpr len.symm)]
  rfl

section

variable (D : Decoders) (env : Env) (peers : PeerInfoMap)

theorem processMessage_old {s : Parser} {payload rest : List UInt8} (type : s.bmpType = typeRouteMon)
    (sock : s.sock = payload ++ rest) (len : s.bmpLen = payload.length) (more : 0 < payload.length)
    (fits : payload.length < 65536) :
    ∃ done s', (processMessage D env peers).run s = .ok (done, s') ∧ s'.sock = rest := by
  obtain ⟨packet, buffered⟩ := bufferBMPMessage_run sock len more fits
  have run : (processMessage D env peers).run s =
      (routeMon D env (peers.at (peerInfoKey s.peer)) >>= fun result => pure ⟨true, result.1,
        Function.update peers (peerInfoKey s.peer) (some result.2)⟩).run s := by
    rw [processMessage, run_get_bind, if_neg (by rw [type]; decide), if_neg (by rw [type]; decide),
      if_pos type]
  rw [routeMon, bind_assoc, run_bind_of_ok buffered] at run
  exact ⟨_, _, run, rfl⟩

theorem consumed_of_routeMon {msg : OldMsg} {bgp : BgpMessage} {update : bgp.type = 2}
    (body : msg.body = .routeMon bgp update) (rest : List UInt8) :
    ConsumedWhole D env peers msg rest := by
  have long := bgp.length_bytes
  have small := bgp.fits
  have zero : (OldBody.routeMon bgp update).type.toNat = 0 := rfl
  obtain ⟨mid, sock, type, run⟩ := handleMessage_old env.clock msg rest
  rw [body] at sock type run
  change mid.sock = bgp.bytes ++ rest at sock
  obtain ⟨packet, step⟩ := oldTypeStep_routeMon sock
  rw [zero, run_bind_of_ok step, run_modify] at run
  obtain ⟨done, s', processed, left⟩ := processMessage_old D env (notePeer peers _) (s := { mid with
    packet := packet
    bmpLen := bgp.bytes.length
    peer := peerEntryOld env.clock
      (memOf ((OldBody.routeMon bgp update).type :: msg.header.bytes)) mid.peer })
    type sock rfl (by omega) (by omega)
  refine ⟨done.more, done.peers, ?_⟩
  rw [readIncomingMsg_of_ok D run processed, left]

theorem DownBody.bytes_ne_nil (down : DownBody) : down.bytes ≠ [] := by
  cases down with
  | notified reason comes msg notification codes => exact List.cons_ne_nil _ _
  | closedLocally event => exact List.cons_ne_nil _ _
  | closedRemotely => exact List.cons_ne_nil _ _

/-- The reason of a peer-down message is there, and that is when it is given up. -/
theorem peerDown_throws {msg : OldMsg} {down : DownBody} (body : msg.body = .peerDown down)
    (rest : List UInt8) :
    ∃ text, (readIncomingMsg D env peers (msg.bytes ++ rest)).result = .error text := by
  obtain ⟨mid, sock, -, run⟩ := handleMessage_old env.clock msg rest
  rw [body] at sock run
  have up : GivesUp (OldBody.peerDown down).type mid.sock := by
    refine Or.inr (Or.inr ⟨rfl, ?_⟩)
    rw [sock]
    exact List.append_ne_nil_of_left_ne_nil down.bytes_ne_nil rest
  obtain ⟨text, thrown⟩ := oldTypeStep_gives_up up
  have failed : (handleMessage env.clock).run (Parser.new (msg.bytes ++ rest)) = .error text := by
    rw [run, StateT.run_bind, thrown]
    rfl
  refine ⟨text, ?_⟩
  rw [readIncomingMsg, failed]

/-- Of the messages of the old versions the route-monitoring messages are read to their end,
and every peer-down message ends the session. -/
theorem old_message_consumed_iff (msg : OldMsg) (rest : List UInt8) :
    ConsumedWhole D env peers msg rest ↔ msg.IsRouteMon := by
  cases body : msg.body with
  | routeMon bgp update =>
    refine iff_of_true (consumed_of_routeMon D env peers body rest) ?_
    rw [OldMsg.IsRouteMon, body]
    rfl
  | peerDown down =>
    obtain ⟨text, thrown⟩ := peerDown_throws D env peers body rest
    refine iff_of_false ?_ ?_
    · rintro ⟨more, peers', ok⟩
      rw [thrown] at ok
      cases ok
    · rw [OldMsg.IsRouteMon, body]
      exact (by decide : ¬ (2 : UInt8) = 0)

end

/-- A remote close without a notification, in version 2: the reader throws although every
octet of the message is there. -/
theorem old_peer_down_throws :
    (readIncomingMsg Decoders.silent quietEnv (fun _ => none)
      (OldMsg.bytes ⟨2, Or.inr rfl, PeerHeader.plain, .peerDown .closedRemotely⟩)).result =
        .error "Failed to read BMP peer down reason".toList := rfl

end SonicBmp.Bmp.OldMessages
