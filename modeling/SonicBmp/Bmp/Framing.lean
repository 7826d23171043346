/- module: SonicBmp/Bmp/Framing
   digest: How far into the stream a parser is, and why a wrapped length never gets further. -/

import SonicBmp.Bmp.ParseBmp

set_option autoImplicit false
set_option relaxedAutoImplicit false

namespace SonicBmp.Bmp.Framing

open SonicBmp.Library.Memory
open SonicBmp.Library.Throwing
open SonicBmp.Bgp.Common (bgpMaxMsgSize)
open SonicBmp.Bus.Interface
open SonicBmp.Bmp.ParseBmp

/-- The first `n` bytes of the stream were taken from the socket and kept in the packet. -/
def Consumed (stream : List UInt8) (n : Nat) (s : Parser) : Prop :=
  s.sock = stream.drop n ∧ s.packet = stream.take n

variable {stream : List UInt8}

theorem Consumed.new (stream : List UInt8) : Consumed stream 0 (Parser.new stream) := ⟨rfl, rfl⟩

/-- What every read leaves alone, what it returns from a known position, and where it
ends when the stream and the packet buffer have room for it. -/
structure Received (stream : List UInt8) (k : Nat) (s : Parser) (got : List UInt8) (s' : Parser) :
    Prop where
  bmpLen : s'.bmpLen = s.bmpLen
  bmpType : s'.bmpType = s.bmpType
  bmpData : s'.bmpData = s.bmpData
  peer : s'.peer = s.peer
  got : ∀ n, Consumed stream n s → got = (stream.drop n).take k
  moved : ∀ n, Consumed stream n s → n + k ≤ stream.length → n + k < bmpPacketBufSize →
    Consumed stream (n + k) s'

theorem keep_eq (s : Parser) (got : List UInt8) :
    s.keep got = { s with packet := (s.keep got).packet } := by
  unfold Parser.keep
  split <;> rfl

theorem recv_returns (stream : List UInt8) (k : Nat) (s : Parser) :
    Returns (recv k) s (Received stream k s) := by
  intro got s' run
  cases run
  rw [keep_eq]
  refine ⟨rfl, rfl, rfl, rfl, fun n h => by rw [h.1], fun n h enough room => ?_⟩
  refine ⟨by rw [h.1, List.drop_drop], ?_⟩
  have kept : s.packet.length + (s.sock.take k).length < bmpPacketBufSize := by
    rw [h.1, h.2]
    simp only [List.length_take, List.length_drop]
    omega
  simp only [Parser.keep, if_pos kept]
  rw [h.1, h.2, List.take_add]

/-- A read of bytes that are there changes the socket and the packet copy only. -/
theorem recv_run {s : Parser} {got rest : List UInt8} (sock : s.sock = got ++ rest) :
    ∃ packet, (recv got.length).run s = .ok (got, { s with sock := rest, packet := packet }) := by
  refine ⟨(s.keep got).packet, ?_⟩
  have taken : s.sock.take got.length = got := by rw [sock, List.take_left]
  have left : s.sock.drop got.length = rest := by rw [sock, List.drop_left]
  show Except.ok (s.sock.take got.length, _) = _
  rw [taken, left, keep_eq]

theorem recv_next {s : Parser} {got rest : List UInt8} {k : Nat} (length : got.length = k)
    (sock : s.sock = got ++ rest) : ∃ s', s'.sock = rest ∧ (recv k).run s = .ok (got, s') := by
  obtain ⟨packet, run⟩ := recv_run sock
  rw [length] at run
  exact ⟨_, rfl, run⟩

/-- Either `n` bytes are consumed and the length field says how many are left up to
`total`, or the length has wrapped around by at most `slack`. -/
def Framed (stream : List UInt8) (total n slack : Nat) (s : Parser) : Prop :=
  (Consumed stream n s ∧ n + s.bmpLen = total) ∨
    (2 ^ 32 - slack ≤ s.bmpLen ∧ s.bmpLen < 2 ^ 32)

variable {total n slack : Nat}

theorem Framed.advance {k : Nat} {s s' : Parser} (framed : Framed stream total n slack s)
    (fits : total ≤ stream.length) (small : total < bmpPacketBufSize) (hk : k + slack < 2 ^ 31)
    (moved : n + k ≤ stream.length → n + k < bmpPacketBufSize →
      Consumed stream n s → Consumed stream (n + k) s')
    (len : s'.bmpLen = sub32 s.bmpLen k) : Framed stream total (n + k) (slack + k) s' := by
  have size : bmpPacketBufSize = 68000 := rfl
  unfold sub32 at len
  rcases framed with ⟨consumed, left⟩ | ⟨low, high⟩
  · by_cases inside : k ≤ s.bmpLen
    · exact Or.inl ⟨moved (by omega) (by omega) consumed, by omega⟩
    · exact Or.inr (by omega)
  · exact Or.inr (by omega)

/-- Buffering the rest of a message throws on a wrapped length, and otherwise ends at the
end of the message. -/
theorem bufferBMPMessage_returns {s : Parser} (framed : Framed stream total n slack s)
    (fits : total ≤ stream.length) (small : total < bmpPacketBufSize) (hs : slack < 2 ^ 31) :
    Returns bufferBMPMessage s (fun _ s' => Consumed stream total s' ∧ s'.bmpLen = 0 ∧
      s'.bmpType = s.bmpType ∧ s'.peer = s.peer) := by
  have size : bmpPacketBufSize = 68000 := rfl
  apply returns_get_bind
  split
  · rename_i done
    rcases framed with ⟨consumed, left⟩ | wrapped
    · rw [done, Nat.add_zero] at left
      exact returns_pure ⟨left ▸ consumed, done, rfl, rfl⟩
    · omega
  · split
    · exact returns_throw
    · rename_i fitsBuffer
      rcases framed with ⟨consumed, left⟩ | wrapped
      · refine (recv_returns stream _ _).bind ?_
        intro got s' received
        split
        · exact returns_throw
        · have moved := received.moved n consumed (by omega) (by omega)
          rw [left] at moved
          exact returns_modify ⟨moved, rfl, received.bmpType, received.peer⟩
      · omega

theorem handleInitMsg_returns (beyond : Mem) {s : Parser} (framed : Framed stream total n slack s)
    (fits : total ≤ stream.length) (small : total < bmpPacketBufSize) (hs : slack < 2 ^ 31) :
    Returns (handleInitMsg beyond) s (fun _ s' => Consumed stream total s') :=
  (bufferBMPMessage_returns framed fits small hs).bind
    (fun _ _ done => returns_get_bind (returns_pure done.1))

theorem handleTermMsg_returns (beyond : Mem) {s : Parser} (framed : Framed stream total n slack s)
    (fits : total ≤ stream.length) (small : total < bmpPacketBufSize) (hs : slack < 2 ^ 31) :
    Returns (handleTermMsg beyond) s (fun _ s' => Consumed stream total s') :=
  (bufferBMPMessage_returns framed fits small hs).bind
    (fun _ _ done => returns_get_bind (returns_pure done.1))

theorem Framed.subtract {k : Nat} {s s' s'' : Parser} {got : List UInt8}
    (framed : Framed stream total n slack s) (fits : total ≤ stream.length)
    (small : total < bmpPacketBufSize) (hk : k + slack < 2 ^ 31)
    (received : Received stream k s got s') (sock : s''.sock = s'.sock)
    (packet : s''.packet = s'.packet) (len : s''.bmpLen = sub32 s'.bmpLen k) :
    Framed stream total (n + k) (slack + k) s'' := by
  refine framed.advance fits small hk (fun enough room consumed => ?_) (received.bmpLen ▸ len)
  have moved := received.moved n consumed enough room
  exact ⟨sock.trans moved.1, packet.trans moved.2⟩

/-- The per-peer header; when it is not all there the length wraps. -/
theorem parsePeerHdr_returns (clock : Nat × Nat) {s : Parser}
    (framed : Framed stream total n slack s) (fits : total ≤ stream.length)
    (small : total < bmpPacketBufSize) (hs : bmpPeerHdrLen + slack < 2 ^ 31) :
    Returns (parsePeerHdr clock) s (fun _ s' =>
      Framed stream total (n + bmpPeerHdrLen) (slack + bmpPeerHdrLen) s' ∧
        s'.bmpType = s.bmpType) := by
  refine (recv_returns stream _ _).bind ?_
  intro got s' received
  exact returns_modify ⟨framed.subtract fits small hs received rfl rfl rfl, received.bmpType⟩

theorem parsePeerDownEventHdr_returns {s : Parser} (framed : Framed stream total n slack s)
    (fits : total ≤ stream.length) (small : total < bmpPacketBufSize) (hs : 1 + slack < 2 ^ 31) :
    Returns parsePeerDownEventHdr s (fun reason s' => reason = none ∨
      Framed stream total (n + 1) (slack + 1) s') := by
  refine (recv_returns stream _ _).bind ?_
  intro got s' received
  cases got with
  | nil => exact returns_pure (Or.inl rfl)
  | cons reason rest =>
    apply returns_modify_bind
    exact returns_pure (Or.inr (framed.subtract fits small hs received rfl rfl rfl))

theorem finishPeerUp_returns (isParseGood : Bool) (bytesRead : Nat) (upEvent : ObjPeerUpEvent)
    {s : Parser} (fits : total ≤ stream.length) (small : total < bmpPacketBufSize)
    (hs : slack < 2 ^ 31)
    (framed : Framed stream total n slack { s with bmpLen := sub32 s.bmpLen bytesRead }) :
    Returns (finishPeerUp isParseGood bytesRead upEvent) s
      (fun _ s' => Consumed stream total s' ∧ s'.bmpLen = 0) := by
  apply returns_modify_bind
  refine (bufferBMPMessage_returns framed fits small hs).bind ?_
  rintro _ s₂ ⟨consumed, empty, -⟩
  cases isParseGood with
  | true => exact returns_pure ⟨consumed, empty⟩
  | false =>
    have again : Framed stream total total slack s₂ := Or.inl ⟨consumed, by rw [empty]; rfl⟩
    refine (bufferBMPMessage_returns again fits small hs).bind ?_
    rintro _ s₃ ⟨consumed, empty, -⟩
    exact returns_pure ⟨consumed, empty⟩

theorem Received.length {k : Nat} {s s' : Parser} {got : List UInt8}
    (received : Received stream k s got s') (consumed : Consumed stream n s)
    (enough : n + k ≤ stream.length) : got.length = k := by
  rw [received.got n consumed, List.length_take, List.length_drop]
  omega

/-- The peer-up header, for a stream that holds its twenty bytes. A short field would
leave the parser between two fields without having counted what it took. -/
theorem parsePeerUpEventHdr_returns (upEvent : ObjPeerUpEvent) {s : Parser}
    (framed : Framed stream total n slack s) (fits : total ≤ stream.length)
    (small : total < bmpPacketBufSize) (hs : slack + 20 < 2 ^ 31)
    (header : n + 20 ≤ stream.length) (room : n + 20 < bmpPacketBufSize) :
    Returns (parsePeerUpEventHdr upEvent) s (fun _ s' => Consumed stream total s' ∧
      s'.bmpLen = 0) := by
  apply returns_get_bind
  -- a short read can only happen to a parser whose length has wrapped
  have short {s' : Parser} {bytesRead : Nat} (small : bytesRead ≤ 20)
      (same : s'.bmpLen = s.bmpLen) (wrapped : ¬ Consumed stream n s) :
      Framed stream total (n + 20) (slack + 20)
        { s' with bmpLen := sub32 s'.bmpLen bytesRead } := by
    rcases framed with ⟨consumed, -⟩ | ⟨low, high⟩
    · exact absurd consumed wrapped
    · refine Or.inr ?_
      simp only [same, sub32]
      omega
  refine (recv_returns stream _ _).bind (fun addr s₁ first => ?_)
  split
  · rename_i few
    exact finishPeerUp_returns _ _ _ fits small hs (short (by omega) first.bmpLen
      (fun consumed => few (first.length consumed (by omega))))
  · refine (recv_returns stream _ _).bind (fun port s₂ second => ?_)
    split
    · rename_i few
      refine finishPeerUp_returns _ _ _ fits small hs (short (by omega)
        (second.bmpLen.trans first.bmpLen) (fun consumed => few ?_))
      exact second.length (first.moved n consumed (by omega) (by omega)) (by omega)
    · refine (recv_returns stream _ _).bind (fun port' s₃ third => ?_)
      have lens := third.bmpLen.trans (second.bmpLen.trans first.bmpLen)
      have moved (consumed : Consumed stream n s) : Consumed stream (n + 16 + 2 + 2) s₃ := by
        have one := first.moved n consumed (by omega) (by omega)
        have two := second.moved _ one (by omega) (by omega)
        exact third.moved _ two (by omega) (by omega)
      split
      · rename_i few
        refine finishPeerUp_returns _ _ _ fits small hs (short (by omega) lens
          (fun consumed => few ?_))
        have one := first.moved n consumed (by omega) (by omega)
        exact third.length (second.moved _ one (by omega) (by omega)) (by omega)
      · refine finishPeerUp_returns _ _ _ fits small hs
          (framed.advance fits small (by omega) (fun _ _ consumed => ?_) (by rw [← lens]))
        exact ⟨(moved consumed).1, (moved consumed).2⟩

def v3Stream (len : UInt32) (type : UInt8) (rest : List UInt8) : List UInt8 :=
  3 :: (put32 len.toNat ++ (type :: rest))

theorem v3Stream_length (len : UInt32) (type : UInt8) (rest : List UInt8) :
    (v3Stream len type rest).length = 6 + rest.length := by
  simp [v3Stream]
  omega

theorem v3Header_fields (len : UInt32) (type : UInt8) :
    u32 (memOf (put32 len.toNat ++ [type])) 0 = len.toNat ∧
      u8 (memOf (put32 len.toNat ++ [type])) 4 = type.toNat := by
  have holds := holds_memOf (put32 len.toNat ++ [type])
  rw [holds_append, length_put32, holds_cons] at holds
  refine ⟨holds.1.u32 len.toNat_lt, ?_⟩
  rw [u8]
  exact congrArg UInt8.toNat holds.2.1

/-- After the headers of a v3 message, 42 bytes further for the types with a per-peer
header. -/
theorem handleMessage_returns (clock : Nat × Nat) (len : UInt32) (type : UInt8)
    (rest : List UInt8) (fits : len.toNat ≤ (v3Stream len type rest).length) :
    Returns (handleMessage clock) (Parser.new (v3Stream len type rest)) (fun _ s =>
      s.bmpType = type.toNat ∧ len.toNat < bmpPacketBufSize ∧
        (type.toNat < typeInitMsg → Framed (v3Stream len type rest) len.toNat 48 42 s) ∧
        (typeInitMsg ≤ type.toNat → Framed (v3Stream len type rest) len.toNat 6 0 s)) := by
  have size : bmpPacketBufSize = 68000 := rfl
  have max : bgpMaxMsgSize = 65535 := rfl
  have whole := v3Stream_length len type rest
  refine (recv_returns (v3Stream len type rest) 1 _).bind (fun got s₁ version => ?_)
  have start := Consumed.new (v3Stream len type rest)
  rw [show got = [3] from version.got 0 start]
  refine (recv_returns (v3Stream len type rest) bmpHdrV3Len _).bind (fun got s₂ header => ?_)
  have one := version.moved 0 start (by omega) (by omega)
  have six := header.moved _ one (by simp only [bmpHdrV3Len]; omega) (by simp only [bmpHdrV3Len]; omega)
  have read : got = put32 len.toNat ++ [type] := by
    rw [header.got _ one]
    rfl
  obtain ⟨lenField, typeField⟩ := v3Header_fields len type
  rw [read, lenField, typeField, if_neg (by simp [bmpHdrV3Len])]
  dsimp only
  split
  · exact returns_throw
  · rename_i notLarge
    have bounds : 6 + sub32 len.toNat (1 + bmpHdrV3Len) = len.toNat := by
      have := len.toNat_lt
      simp only [sub32, bmpHdrV3Len] at notLarge ⊢
      omega
    have framed : Framed (v3Stream len type rest) len.toNat 6 0
        { s₂ with bmpType := type.toNat, bmpLen := sub32 len.toNat (1 + bmpHdrV3Len) } :=
      Or.inl ⟨⟨six.1, six.2⟩, bounds⟩
    apply returns_modify_bind
    split
    · rename_i peerType
      refine (parsePeerHdr_returns clock framed fits (by omega) (by decide)).mono ?_
      rintro _ s₃ ⟨framed₃, types⟩
      refine ⟨types, by omega, fun _ => framed₃, fun notPeer => absurd peerType ?_⟩
      simp only [typeRouteMon, typeStatsReport, typePeerUp, typePeerDown, typeInitMsg] at *
      omega
    · split
      · rename_i routerType
        refine returns_pure ⟨rfl, by omega, fun peer => absurd routerType ?_, fun _ => framed⟩
        simp only [typeInitMsg, typeTermMsg] at *
        omega
      · exact returns_throw

theorem holds_bmpDataMem (beyond : Mem) (bmpData : List UInt8) :
    Holds (bmpDataMem beyond bmpData) 0 bmpData :=
  ((holds_append _ _ _ _).mp (readBytes_writeBytes_same beyond 0 _)).1

end SonicBmp.Bmp.Framing
