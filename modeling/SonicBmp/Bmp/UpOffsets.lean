/- module: SonicBmp/Bmp/UpOffsets
   digest: Where the two OPEN messages and the TLVs of a peer-up message are read. -/

import SonicBmp.Bmp.PeerUp

set_option autoImplicit false
set_option relaxedAutoImplicit false

namespace SonicBmp.Bmp.UpOffsets

open SonicBmp.Library.Printing
open SonicBmp.Library.Memory
open SonicBmp.Library.Throwing
open SonicBmp.Bgp.Common
open SonicBmp.Bgp.OpenMsg
open SonicBmp.Bgp.Update
open SonicBmp.Bgp.PeerEvent
open SonicBmp.Bgp.OpenCodec (capability_next)
open SonicBmp.Bus.Interface
open SonicBmp.Bmp.ParseBmp
open SonicBmp.Bmp.Framing (holds_bmpDataMem)
open SonicBmp.Bmp.Reader
open SonicBmp.Bmp.PeerUp

/-! Whether the octets at some place are taken as an OPEN message depends on them alone. -/

section

variable (stale stale' : Int) (sentOpen sentOpen' : Bool) (m : Mem)

theorem capLoop_blind (paramLen c capPtr : Nat) (st st' : OpenState) :
    (capLoop stale sentOpen m paramLen c capPtr st).1 =
      (capLoop stale' sentOpen' m paramLen c capPtr st').1 := by
  induction rest : paramLen - c using Nat.strongRecOn generalizing c capPtr st st' with
  | ind n ih =>
    rw [capLoop, capLoop]
    split
    · have next := capability_next stale sentOpen m capPtr st
      have next' := capability_next stale' sentOpen' m capPtr st'
      rcases one : capability stale sentOpen m capPtr st with ⟨st₁, p⟩
      rcases two : capability stale' sentOpen' m capPtr st' with ⟨st₂, p'⟩
      rw [one] at next
      rw [two] at next'
      obtain rfl : p = p' := next.trans next'.symm
      cases p with
      | none => rfl
      | some p => exact ih _ (by omega) _ _ _ _ rfl
    · rfl

theorem parseCapabilities_blind (data size i : Nat) (st st' : OpenState) :
    (parseCapabilities stale sentOpen m data size i st).1 =
      (parseCapabilities stale' sentOpen' m data size i st').1 := by
  induction rest : size - i using Nat.strongRecOn generalizing i st st' with
  | ind n ih =>
    rw [parseCapabilities, parseCapabilities]
    split
    · dsimp only
      split
      · have loop := capLoop_blind stale stale' sentOpen sentOpen' m (u8 m (data + i + 1)) 0
          (data + i + 2) st st'
        rcases one : capLoop stale sentOpen m (u8 m (data + i + 1)) 0 (data + i + 2) st with ⟨b, st₁⟩
        rcases two : capLoop stale' sentOpen' m (u8 m (data + i + 1)) 0 (data + i + 2) st'
          with ⟨b', st₂⟩
        rw [one, two] at loop
        obtain rfl : b = b' := loop
        cases b with
        | false => rfl
        | true => exact ih _ (by omega) _ _ _ rfl
      · exact ih _ (by omega) _ _ _ rfl
    · rfl

end

/-- The walk over the optional parameters meets an MPBGP capability that is not of four
octets. -/
def RefusesCaps (m : Mem) (data size : Nat) : Prop :=
  (parseCapabilities 0 true m data size 0 ⟨0, [], fun _ => none⟩).1 = 0

/-- What is left of a message behind its BGP header, as an `unsigned int`. -/
def remaining (m : Mem) (p : Nat) : Nat := (u16 m (p + 16) + 2 ^ 32 - bgpMsgHdrLen) % 2 ^ 32

/-- The octets at `p` are taken as an OPEN message: its type and length fields say so and
the parameters, if all there, are not refused. -/
structure TakenAsOpen (m : Mem) (p : Nat) : Prop where
  type : u8 m (p + 18) = bgpMsgOpen
  long : openBgpHdrLen ≤ remaining m p
  caps : u8 m (p + 28) ≠ 0 → u8 m (p + 28) ≤ remaining m p - openBgpHdrLen →
    ¬ RefusesCaps m (p + 29) (u8 m (p + 28))

section

variable (stale : Int) (sentOpen : Bool) {m : Mem} {p size : Nat}

/-- The parse of an OPEN ends behind its parameters, or with the message if that is
earlier. -/
theorem parseOpenMsg_readSize (addPath : AddPathMap) (long : openBgpHdrLen ≤ remaining m p)
    (caps : u8 m (p + 28) ≠ 0 → u8 m (p + 28) ≤ remaining m p - openBgpHdrLen →
      ¬ RefusesCaps m (p + 29) (u8 m (p + 28))) :
    (parseOpenMsg stale sentOpen m addPath (p + bgpMsgHdrLen) (remaining m p)).readSize =
      min (remaining m p) (openBgpHdrLen + u8 m (p + 28)) := by
  have place : p + bgpMsgHdrLen + 9 = p + 28 := rfl
  have start : p + bgpMsgHdrLen + openBgpHdrLen = p + 29 := rfl
  rw [parseOpenMsg, if_neg (by omega)]
  simp only [place, start]
  split
  · rename_i empty
    rw [empty]
    exact (Nat.min_eq_right long).symm
  · rename_i some_
    split
    · dsimp only
      omega
    · rename_i inside
      rw [if_neg]
      · dsimp only
        omega
      · rw [parseCapabilities_blind stale 0 sentOpen true m _ _ _ _ ⟨0, [], fun _ => none⟩]
        exact caps some_ (by omega)

theorem parseOpenMsg_refused (addPath : AddPathMap) (some_ : u8 m (p + 28) ≠ 0)
    (inside : u8 m (p + 28) ≤ remaining m p - openBgpHdrLen)
    (refused : RefusesCaps m (p + 29) (u8 m (p + 28))) :
    (parseOpenMsg stale sentOpen m addPath (p + bgpMsgHdrLen) (remaining m p)).readSize = 0 := by
  have place : p + bgpMsgHdrLen + 9 = p + 28 := rfl
  have start : p + bgpMsgHdrLen + openBgpHdrLen = p + 29 := rfl
  rw [parseOpenMsg]
  split
  · rfl
  · simp only [place, start]
    rw [if_neg some_, if_neg (by omega), if_pos]
    rw [parseCapabilities_blind stale 0 sentOpen true m _ _ _ _ ⟨0, [], fun _ => none⟩]
    exact refused

/-- One inversion for both reads of `handleUpEvent`. -/
theorem readOpen_ok_iff (room : bgpMsgHdrLen ≤ size) (addPath : AddPathMap) (wrongType : Text)
    (result : Nat × OpenResult) :
    readOpen stale sentOpen m addPath p size wrongType = .ok result ↔
      TakenAsOpen m p ∧ result = (u16 m (p + 16),
        parseOpenMsg stale sentOpen m addPath (p + bgpMsgHdrLen) (remaining m p)) := by
  have header : parseBgpHeader m p size = (u8 m (p + 18), remaining m p) :=
    if_neg (by omega)
  simp only [readOpen, header]
  constructor
  · intro ok
    split at ok
    · rename_i type
      split at ok
      · cases ok
      · rename_i read
        cases ok
        refine ⟨⟨type, ?_, ?_⟩, rfl⟩
        · by_contra short
          rw [parseOpenMsg, if_pos (by omega)] at read
          exact read rfl
        · intro some_ inside refused
          exact read (parseOpenMsg_refused stale sentOpen addPath some_ inside refused)
    · cases ok
  · rintro ⟨taken, rfl⟩
    have read := parseOpenMsg_readSize stale sentOpen addPath taken.long taken.caps
    have long := taken.long
    have fixed : openBgpHdrLen = 10 := rfl
    rw [if_pos taken.type, if_neg (by omega)]

end

/-- The offset in the body at which `handleUpEvent` reads the second OPEN message. -/
def secondOpenAt (stale : Int) (m : Mem) (data size : Nat) (info : PeerInfo) : Except Text Nat := do
  let sent ← readOpen stale true m info.addPathCapability data size
    "ERROR: Invalid BGP MSG for BMP Sent OPEN message, expected OPEN message.".toList
  return bgpMsgHdrLen + sent.2.readSize

section

variable {stale : Int} {m : Mem} {data size : Nat} {info : PeerInfo}

theorem secondOpenAt_of_taken (room : bgpMsgHdrLen ≤ size) (taken : TakenAsOpen m data) :
    secondOpenAt stale m data size info =
      .ok (bgpMsgHdrLen + min (remaining m data) (openBgpHdrLen + u8 m (data + 28))) := by
  have ok := (readOpen_ok_iff stale true room info.addPathCapability
    "ERROR: Invalid BGP MSG for BMP Sent OPEN message, expected OPEN message.".toList _).mpr
    ⟨taken, rfl⟩
  rw [secondOpenAt, ok]
  simp only [bind, Except.bind, pure, Except.pure,
    parseOpenMsg_readSize stale true _ taken.long taken.caps]

/-- The up event is handled exactly if both places hold what is taken as an OPEN; the sum of
the two length fields is returned. -/
theorem handleUpEvent_returns_iff (room : bgpMsgHdrLen ≤ size) (upEvent : ObjPeerUpEvent)
    (n : Nat) :
    (∃ upEvent' info', handleUpEvent stale m data size upEvent info = .ok (n, upEvent', info')) ↔
      ∃ offset, secondOpenAt stale m data size info = .ok offset ∧ TakenAsOpen m data ∧
        TakenAsOpen m (data + offset) ∧
        n = u16 m (data + 16) + u16 m (data + offset + 16) := by
  have first := readOpen_ok_iff stale true (m := m) (p := data) room info.addPathCapability
    "ERROR: Invalid BGP MSG for BMP Sent OPEN message, expected OPEN message.".toList
  unfold handleUpEvent secondOpenAt
  cases sent : readOpen stale true m info.addPathCapability data size
      "ERROR: Invalid BGP MSG for BMP Sent OPEN message, expected OPEN message.".toList with
  | error text =>
    simp only [bind, Except.bind]
    constructor
    · rintro ⟨_, _, ok⟩
      cases ok
    · rintro ⟨_, ok, -⟩
      cases ok
  | ok sent' =>
    obtain ⟨taken, value⟩ := (first sent').mp sent
    have len : sent'.1 = u16 m (data + 16) := by rw [value]
    have second := readOpen_ok_iff stale false (m := m)
      (p := data + (bgpMsgHdrLen + sent'.2.readSize)) room sent'.2.state.addPath
      "ERROR: Invalid BGP MSG for BMP Received OPEN message, expected OPEN message.".toList
    rw [← Nat.add_assoc] at second
    simp only [bind, Except.bind, pure, Except.pure]
    cases received : readOpen stale false m sent'.2.state.addPath
        (data + bgpMsgHdrLen + sent'.2.readSize) size
        "ERROR: Invalid BGP MSG for BMP Received OPEN message, expected OPEN message.".toList with
    | error text =>
      constructor
      · rintro ⟨_, _, ok⟩
        cases ok
      · rintro ⟨offset, ok, -, taken', -⟩
        cases ok
        rw [← Nat.add_assoc] at taken'
        rw [(second _).mpr ⟨taken', rfl⟩] at received
        cases received
    | ok received' =>
      obtain ⟨taken', value'⟩ := (second received').mp received
      constructor
      · rintro ⟨_, _, ok⟩
        cases ok
        refine ⟨_, rfl, taken, ?_, ?_⟩
        · rwa [← Nat.add_assoc]
        · rw [value', len, ← Nat.add_assoc]
      · rintro ⟨offset, ok, -, -, sum⟩
        cases ok
        rw [sum, ← Nat.add_assoc, ← len, show u16 m (data + bgpMsgHdrLen + sent'.2.readSize + 16) =
          received'.1 by rw [value']]
        exact ⟨_, _, rfl⟩

end

/-- An OPEN message as it arrives: its length and type fields are right, everything else,
the length of its parameters included, is any octet. -/
structure RawOpen where
  bytes : List UInt8
  long : bgpMsgHdrLen + openBgpHdrLen ≤ bytes.length
  length_field : u16 (memOf bytes) 16 = bytes.length
  type_field : u8 (memOf bytes) 18 = bgpMsgOpen

def RawOpen.paramLen (o : RawOpen) : Nat := u8 (memOf o.bytes) 28

/-- The fields of a message at its place in memory. -/
theorem RawOpen.fields (o : RawOpen) {m : Mem} {p : Nat} (held : Holds m p o.bytes) :
    u16 m (p + 16) = o.bytes.length ∧ remaining m p = o.bytes.length - bgpMsgHdrLen ∧
      u8 m (p + 28) = o.paramLen := by
  have long := o.long
  have hdr : bgpMsgHdrLen = 19 := rfl
  have fixed : openBgpHdrLen = 10 := rfl
  have same := held.sameBytes (holds_memOf o.bytes)
  have len : u16 m (p + 16) = u16 (memOf o.bytes) (0 + 16) := same.u16 16 (by omega)
  have params : u8 m (p + 28) = u8 (memOf o.bytes) (0 + 28) := same.u8 28 (by omega)
  rw [Nat.zero_add] at len params
  have whole := len.trans o.length_field
  have small := u16_lt m (p + 16)
  refine ⟨whole, ?_, params⟩
  rw [remaining, whole]
  omega

/-- The parser stands behind the headers of a peer-up message with the given octets after
the fixed part of its body. -/
structure AtUpBody (opens : List UInt8) (s : Parser) : Prop where
  fits : bmpPeerHdrLen + (20 + opens.length) ≤ bgpMaxMsgSize
  arrives : ∃ localAddr localPort remotePort rest, localAddr.length = 16 ∧
    s.sock = upBody localAddr localPort remotePort opens ++ rest
  len : s.bmpLen = 20 + opens.length
  data : s.bmpData = []
  packet : s.packet.length = 48

/-- The entry of the peer when its TLVs are those at the given place. -/
def withInfo (m : Mem) (offset len : Nat) (peer : ObjBgpPeer) : ObjBgpPeer :=
  if len = 0 then peer else { peer with info := parsePeerUpInfo m offset len }

section

variable {env : Env} {info : PeerInfo} {opens : List UInt8} {s : Parser}

/-- What a peer-up message leaves in the entry of the peer, by what `handleUpEvent` returns. -/
theorem peerUp_entry (ready : AtUpBody opens s) {read : Nat} (inside : read ≤ opens.length)
    (returned : ∀ upEvent n upEvent' info',
      handleUpEvent env.stale (bmpDataMem env.beyond opens) 0 opens.length upEvent info =
        .ok (n, upEvent', info') → n = read) :
    Returns (peerUp env info) s (fun _ s' =>
      s'.peer = withInfo (bmpDataMem env.beyond opens) read (opens.length - read) s.peer) := by
  obtain ⟨localAddr, localPort, remotePort, rest, addr, sock⟩ := ready.arrives
  obtain ⟨upEvent, header⟩ := parsePeerUpEventHdr_run ObjPeerUpEvent.zero s addr ready.fits sock
    ready.len ready.data ready.packet
  intro result s' run
  cases handled : handleUpEvent env.stale (bmpDataMem env.beyond opens) 0 opens.length upEvent
      info with
  | error text =>
    rw [peerUp_of_error header rfl handled] at run
    cases run
  | ok outcome =>
    obtain ⟨n, upEvent', info'⟩ := outcome
    obtain rfl := returned _ _ _ _ handled
    obtain ⟨calls, s'', run', -, peer⟩ := peerUp_of_ok header rfl handled
    rw [run] at run'
    cases run'
    rw [peer, withInfo]
    dsimp only
    split <;> split
    · omega
    · rfl
    · rfl
    · omega

end

section InPlace

variable {stale : Int} {m : Mem} {size : Nat} {info : PeerInfo} {first second : RawOpen}

/-- The second message is looked for at the end of the first one, or behind its parameters if
they end before. -/
theorem secondOpenAt_min (room : bgpMsgHdrLen ≤ size) (held : Holds m 0 first.bytes)
    (taken : TakenAsOpen m 0) : secondOpenAt stale m 0 size info =
      .ok (min first.bytes.length (29 + first.paramLen)) := by
  have hdr : bgpMsgHdrLen = 19 := rfl
  have fixed : openBgpHdrLen = 10 := rfl
  have long := first.long
  obtain ⟨-, left, params⟩ := first.fields held
  have ends : bgpMsgHdrLen + min (first.bytes.length - bgpMsgHdrLen)
      (openBgpHdrLen + first.paramLen) = min first.bytes.length (29 + first.paramLen) := by omega
  rw [secondOpenAt_of_taken room taken, left, params, ends]

theorem misplaced_of_short (room : bgpMsgHdrLen ≤ size) (held : Holds m 0 first.bytes)
    (short : 29 + first.paramLen < first.bytes.length) (taken : TakenAsOpen m 0)
    (taken' : TakenAsOpen m (29 + first.paramLen)) (upEvent : ObjPeerUpEvent) :
    secondOpenAt stale m 0 size info ≠ .ok first.bytes.length ∧
      ∃ n upEvent' info',
        handleUpEvent stale m 0 size upEvent info = .ok (n, upEvent', info') := by
  have place : secondOpenAt stale m 0 size info = .ok (29 + first.paramLen) := by
    rw [secondOpenAt_min room held taken, Nat.min_eq_right short.le]
  constructor
  · intro right
    have same := Except.ok.inj (place.symm.trans right)
    omega
  · have returns := @handleUpEvent_returns_iff stale m 0 size info room
    exact ⟨_, (returns upEvent _).mpr ⟨_, place, taken, by rwa [Nat.zero_add], rfl⟩⟩

theorem in_place_of_condition (room : bgpMsgHdrLen ≤ size) (held : Holds m 0 first.bytes)
    (held' : Holds m (0 + first.bytes.length) second.bytes)
    (condition : first.bytes.length ≤ 29 + first.paramLen ∨ ¬ TakenAsOpen m 0 ∨
      ¬ TakenAsOpen m (29 + first.paramLen))
    {upEvent upEvent' : ObjPeerUpEvent} {n : Nat} {info' : PeerInfo}
    (ok : handleUpEvent stale m 0 size upEvent info = .ok (n, upEvent', info')) :
    secondOpenAt stale m 0 size info = .ok first.bytes.length ∧
      n = first.bytes.length + second.bytes.length := by
  obtain ⟨len, -, -⟩ := first.fields held
  obtain ⟨len', -, -⟩ := second.fields held'
  obtain ⟨offset, at_, taken, taken', sum⟩ :=
    (handleUpEvent_returns_iff room upEvent n).mp ⟨_, _, ok⟩
  obtain rfl := Except.ok.inj ((secondOpenAt_min room held taken).symm.trans at_)
  have reaches : first.bytes.length ≤ 29 + first.paramLen := by
    rcases condition with reaches | refused | refused
    · exact reaches
    · exact absurd taken refused
    · by_contra short
      rw [Nat.zero_add, Nat.min_eq_right (by omega)] at taken'
      exact refused taken'
  rw [Nat.min_eq_left reaches] at sum at_
  exact ⟨at_, by rw [sum, len, len']⟩

end InPlace

/-- The second OPEN message is read where it starts, the lengths of both are returned and
the TLVs are read behind them, or the message is refused, exactly if the parameters of the
first one reach to its end, or the message is refused in fact: there, or in what is read
behind the parameters. -/
theorem peer_up_offsets_iff (env : Env) (info : PeerInfo) {first second : RawOpen}
    {tlvs opens : List UInt8} {m : Mem} {s : Parser}
    (body : opens = first.bytes ++ (second.bytes ++ tlvs))
    (memory : m = bmpDataMem env.beyond opens) (ready : AtUpBody opens s) :
    ((∀ upEvent n upEvent' info',
        handleUpEvent env.stale m 0 opens.length upEvent info = .ok (n, upEvent', info') →
          secondOpenAt env.stale m 0 opens.length info = .ok first.bytes.length ∧
            n = first.bytes.length + second.bytes.length) ∧
      Returns (peerUp env info) s (fun _ s' => s'.peer =
        withInfo m (first.bytes.length + second.bytes.length) tlvs.length s.peer)) ↔
    first.bytes.length ≤ 29 + first.paramLen ∨ ¬ TakenAsOpen m 0 ∨
      ¬ TakenAsOpen m (29 + first.paramLen) := by
  have hdr : bgpMsgHdrLen = 19 := rfl
  have fixed : openBgpHdrLen = 10 := rfl
  have held := holds_bmpDataMem env.beyond opens
  rw [← memory, body, holds_append, holds_append] at held
  obtain ⟨heldFirst, heldSecond, -⟩ := held
  have total : opens.length = first.bytes.length + (second.bytes.length + tlvs.length) := by
    simp [body]
  have long := first.long
  have room : bgpMsgHdrLen ≤ opens.length := by omega
  constructor
  · rintro ⟨inPlace, -⟩
    by_contra fails
    push Not at fails
    obtain ⟨short, taken, taken'⟩ := fails
    obtain ⟨elsewhere, n, upEvent', info', ok⟩ :=
      misplaced_of_short room heldFirst short taken taken' ObjPeerUpEvent.zero
    exact elsewhere (inPlace _ _ _ _ ok).1
  · intro condition
    have inPlace := fun upEvent n upEvent' info' =>
      @in_place_of_condition env.stale m opens.length info first second room heldFirst heldSecond
        condition upEvent upEvent' n info'
    refine ⟨inPlace, ?_⟩
    have inside : first.bytes.length + second.bytes.length ≤ opens.length := by omega
    have entry := peerUp_entry ready inside
      (fun upEvent n upEvent' info' ok => (inPlace upEvent n upEvent' info' (memory ▸ ok)).2)
    have rest : opens.length - (first.bytes.length + second.bytes.length) = tlvs.length := by omega
    rwa [rest, ← memory] at entry

/-- The octets of an OPEN message without parameters, followed by others it counts as its
own. -/
private def openBytes (len : Nat) (padding : List UInt8) : List UInt8 :=
  List.replicate 16 255 ++ (put16 len ++ ([1, 4] ++ (List.replicate 9 0 ++ padding)))

private theorem emptyOpen_long : bgpMsgHdrLen + openBgpHdrLen ≤ (openBytes 29 []).length := by
  decide

private def emptyOpen : RawOpen := ⟨openBytes 29 [], emptyOpen_long, by decide, by decide⟩

private def emptyUp : List UInt8 := emptyOpen.bytes ++ (emptyOpen.bytes ++ [])

private def emptyStart : Parser :=
  { Parser.new (upBody (List.replicate 16 0) 179 179 emptyUp ++ []) with
    packet := List.replicate 48 0
    bmpLen := 78 }

private theorem emptyStart_ready : AtUpBody emptyUp emptyStart :=
  ⟨by decide, ⟨_, _, _, _, rfl, rfl⟩, rfl, rfl, rfl⟩

theorem peer_up_offsets_emptyOpen :
    Returns (peerUp quietEnv PeerInfo.fresh) emptyStart (fun _ s' => s'.peer =
      withInfo (bmpDataMem quietEnv.beyond emptyUp) 58 0 emptyStart.peer) := by
  have body : emptyUp = emptyOpen.bytes ++ (emptyOpen.bytes ++ []) := rfl
  have offsets := (peer_up_offsets_iff quietEnv PeerInfo.fresh body rfl emptyStart_ready).mpr
    (Or.inl (by decide))
  exact offsets.2

/-- The first message is counted 30 octets longer than its parameters reach, and what stands
there looks like an OPEN message. -/
private def paddedOpen : RawOpen :=
  ⟨openBytes 59 (openBytes 30 [0]), by decide, by decide, by decide⟩

private def paddedUp : List UInt8 := paddedOpen.bytes ++ (emptyOpen.bytes ++ [])

/-- The second OPEN message is read from the padding of the first, and one octet too many is
counted. -/
theorem second_open_misread :
    paddedOpen.bytes.length = 59 ∧ emptyOpen.bytes.length = 29 ∧
      secondOpenAt 0 (memOf paddedUp) 0 paddedUp.length PeerInfo.fresh = .ok 29 ∧
      ∃ upEvent info, handleUpEvent 0 (memOf paddedUp) 0 paddedUp.length ObjPeerUpEvent.zero
        PeerInfo.fresh = .ok (89, upEvent, info) := by
  have taken : TakenAsOpen (memOf paddedUp) 0 :=
    ⟨by decide, by decide, fun some_ => absurd (by decide) some_⟩
  have taken' : TakenAsOpen (memOf paddedUp) 29 :=
    ⟨by decide, by decide, fun some_ => absurd (by decide) some_⟩
  have room : bgpMsgHdrLen ≤ paddedUp.length := by decide
  have place : secondOpenAt 0 (memOf paddedUp) 0 paddedUp.length PeerInfo.fresh = .ok 29 :=
    secondOpenAt_of_taken room taken
  refine ⟨by decide, by decide, place, ?_⟩
  exact (handleUpEvent_returns_iff room _ _).mpr ⟨29, place, taken, taken', by decide⟩

end SonicBmp.Bmp.UpOffsets
