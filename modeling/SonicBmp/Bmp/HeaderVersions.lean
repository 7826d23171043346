/- module: SonicBmp/Bmp/HeaderVersions
   digest: Which per-peer headers the parser of BMP versions 1 and 2 reads like the parser of version 3. -/

import SonicBmp.Bgp.RdText
import SonicBmp.Bmp.PeerIsolation

set_option autoImplicit false
set_option relaxedAutoImplicit false

namespace SonicBmp.Bmp.HeaderVersions

open SonicBmp.Library.Memory
open SonicBmp.Library.Printing
open SonicBmp.Library.Throwing
open SonicBmp.Bgp.Common
open SonicBmp.Bgp.AddressText
open SonicBmp.Bgp.LabelCodec (RouteDistinguisher)
open SonicBmp.Bgp.RdText (administrator rfcText)
open SonicBmp.Bus.Interface
open SonicBmp.Bmp.ParseBmp
open SonicBmp.Bmp.Framing (recv_run)
open SonicBmp.Bmp.RouteMonitoring (PeerHeader)
open SonicBmp.Bmp.PeerIsolation

/-- The distinguishers both parsers print in the form of RFC 4364: an address, a number that
a signed `int` holds, or, as the old parser reads type 0 from the wrong bytes, a zero
administrator with a number of one byte. -/
def PrintsRight : RouteDistinguisher → Prop
  | .asn2 asn assigned => asn.toNat = 0 ∧ assigned.toNat < 256
  | .ipv4 _ _ => True
  | .asn4 asn _ => asn.toNat < 2 ^ 31

/-- The four-byte number of a distinguisher is kept by the conversion through `int`. -/
def FitsInt : RouteDistinguisher → Prop
  | .asn2 _ assigned => assigned.toNat < 2 ^ 31
  | .ipv4 _ _ => True
  | .asn4 asn _ => asn.toNat < 2 ^ 31

theorem PrintsRight.fitsInt {rd : RouteDistinguisher} (right : PrintsRight rd) : FitsInt rd := by
  cases rd with
  | asn2 asn assigned => exact right.2.trans (by decide)
  | ipv4 ip assigned => trivial
  | asn4 asn assigned => exact right

/-- The old parser throws before it has read the peer fields. -/
def GivesUp (type : UInt8) (rest : List UInt8) : Prop :=
  type = 3 ∨ (type = 0 ∧ rest.length < 18) ∨ (type = 2 ∧ rest ≠ [])

/-- What both parsers should leave in the peer entry. -/
structure SameFields (rd : RouteDistinguisher) (old new : ObjBgpPeer) : Prop where
  peerAddr : old.peerAddr = new.peerAddr
  peerAs : old.peerAs = new.peerAs
  peerBgpId : old.peerBgpId = new.peerBgpId
  isIPv4 : old.isIPv4 = new.isIPv4
  isL3VPN : old.isL3VPN = new.isL3VPN
  timestampSecs : old.timestampSecs = new.timestampSecs
  peerRd : old.peerRd = new.peerRd
  registered : old.peerRd = rfcText rd

/-! The distinguisher. -/

theorem asUnsignedLong_eq_iff (n : Nat) : asUnsignedLong n = n ↔ n < 2 ^ 31 := by
  unfold asUnsignedLong
  split <;> omega

/-- What is read one byte early, with the last two bytes in one, is right only for a zero
administrator and a number of one byte. -/
private theorem shifted_numbers_iff {b2 b3 b4 b5 b6 b7 : Nat} (h2 : b2 < 256) (h3 : b3 < 256)
    (h4 : b4 < 256) (h5 : b5 < 256) (h6 : b6 < 256) (h7 : b7 < 256) :
    (b2 = b2 * 256 + b3 ∧
        asUnsignedLong (b3 * 2 ^ 24 + b4 * 2 ^ 16 + b5 * 2 ^ 8 + (b6 ||| b7)) =
          (b4 * 256 + b5) * 65536 + b6 * 256 + b7) ↔
      b2 * 256 + b3 = 0 ∧ (b4 * 256 + b5) * 65536 + b6 * 256 + b7 < 256 := by
  have joined : b6 ||| b7 < 2 ^ 8 := Nat.or_lt_two_pow h6 h7
  constructor
  · rintro ⟨admin, number⟩
    unfold asUnsignedLong at number
    split at number <;> omega
  · rintro ⟨admin, number⟩
    obtain ⟨rfl, rfl⟩ : b2 = 0 ∧ b3 = 0 := by omega
    obtain ⟨rfl, rfl, rfl⟩ : b4 = 0 ∧ b5 = 0 ∧ b6 = 0 := by omega
    have small : asUnsignedLong b7 = b7 := (asUnsignedLong_eq_iff _).mpr (by omega)
    simpa using small

section

variable {m : Mem} {dist : Nat}

theorem type_of_holds {rd : RouteDistinguisher} (held : Holds m dist rd.bytes) :
    u16 m dist = rd.type ∧ u8 m (dist + 1) = rd.type := by
  have small : rd.type < 256 := by cases rd <;> simp [RouteDistinguisher.type]
  have type : u16 m dist = rd.type :=
    ((holds_append ..).mp held).1.u16 (by omega)
  have := u8_lt m (dist + 1)
  rw [u16] at type ⊢
  omega

/-- Both parsers read types 1 and 2 alike. -/
theorem printedRdOld_eq {rd : RouteDistinguisher} (held : Holds m dist rd.bytes)
    (typed : rd.type ≠ 0) : printedRdOld m dist = printedRd m dist := by
  obtain ⟨wide, narrow⟩ := type_of_holds held
  unfold printedRdOld printedRd
  rw [wide, narrow]
  cases rd with
  | asn2 asn assigned => exact absurd rfl typed
  | ipv4 ip assigned => simp only [RouteDistinguisher.type]
  | asn4 asn assigned => simp only [RouteDistinguisher.type]

theorem printedRd_iff {rd : RouteDistinguisher} (held : Holds m dist rd.bytes) :
    printedRd m dist = rfcText rd ↔ FitsInt rd := by
  have kind := (type_of_holds held).2
  unfold printedRd rfcText administrator RouteDistinguisher.assignedText FitsInt
  rw [kind]
  cases rd with
  | asn2 asn assigned =>
    simp only [RouteDistinguisher.bytes, holds_append, length_put16] at held
    simp only [RouteDistinguisher.type, held.2.1.u16 asn.toNat_lt,
      held.2.2.u32 assigned.toNat_lt, colonNumbers_inj, true_and, asUnsignedLong_eq_iff]
  | ipv4 ip assigned =>
    simp only [RouteDistinguisher.bytes, holds_append, length_put16, length_put32] at held
    simp only [RouteDistinguisher.type, held.2.1.read_of_length (length_put32 _),
      held.2.2.u16 assigned.toNat_lt]
  | asn4 asn assigned =>
    simp only [RouteDistinguisher.bytes, holds_append, length_put16, length_put32] at held
    simp only [RouteDistinguisher.type, held.2.1.u32 asn.toNat_lt,
      held.2.2.u16 assigned.toNat_lt, colonNumbers_inj, and_true, asUnsignedLong_eq_iff]

theorem printedRdOld_iff {rd : RouteDistinguisher} (held : Holds m dist rd.bytes) :
    printedRdOld m dist = rfcText rd ↔ PrintsRight rd := by
  cases rd with
  | asn2 asn assigned =>
    obtain ⟨wide, low⟩ := type_of_holds held
    simp only [RouteDistinguisher.bytes, holds_append, length_put16] at held
    have admin := held.2.1.u16 asn.toNat_lt
    have number := held.2.2.u32 assigned.toNat_lt
    unfold printedRdOld rfcText administrator RouteDistinguisher.assignedText PrintsRight
    dsimp only
    rw [wide, ← admin, ← number]
    simp only [RouteDistinguisher.type, colonNumbers_inj, u32, u16, Nat.add_assoc, Nat.reduceAdd,
      low, Nat.zero_mul, Nat.zero_add]
    simp only [← Nat.add_assoc]
    exact shifted_numbers_iff (u8_lt ..) (u8_lt ..) (u8_lt ..) (u8_lt ..) (u8_lt ..) (u8_lt ..)
  | ipv4 ip assigned =>
    rw [printedRdOld_eq held (by simp [RouteDistinguisher.type])]
    exact printedRd_iff held
  | asn4 asn assigned =>
    rw [printedRdOld_eq held (by simp [RouteDistinguisher.type])]
    exact printedRd_iff held

theorem length_printedRdOld_le (m : Mem) (dist : Nat) : (printedRdOld m dist).length ≤ 32 := by
  have word (p : Nat) : (decimal (u16 m p)).length ≤ 5 := length_decimal_u16 m p
  have quad := inetNtop4_length_le (readBytes m (dist + 2) 4)
  have admin := length_asUnsignedLong (u32_lt m (dist + 2))
  have assigned : (decimal (asUnsignedLong (u8 m (dist + 3) * 2 ^ 24 + u8 m (dist + 4) * 2 ^ 16 +
      u8 m (dist + 5) * 2 ^ 8 + (u8 m (dist + 6) ||| u8 m (dist + 7))))).length ≤ 20 := by
    have joined : u8 m (dist + 6) ||| u8 m (dist + 7) < 2 ^ 8 :=
      Nat.or_lt_two_pow (u8_lt ..) (u8_lt ..)
    have h3 := u8_lt m (dist + 3)
    have h4 := u8_lt m (dist + 4)
    have h5 := u8_lt m (dist + 5)
    exact length_asUnsignedLong (by omega)
  unfold printedRdOld
  split
  · rw [List.length_append, List.length_cons]
    exact (Nat.add_le_add quad (Nat.add_le_add_right (word _) 1)).trans (by decide)
  · rw [List.length_append, List.length_cons]
    exact (Nat.add_le_add admin (Nat.add_le_add_right (word _) 1)).trans (by decide)
  · rw [List.length_append, List.length_cons]
    exact (Nat.add_le_add (word _) (Nat.add_le_add_right assigned 1)).trans (by decide)

end

/-! The other fields: one byte further in the old header, which starts with the message
type. -/

variable {h : PeerHeader} {rd : RouteDistinguisher} {type : UInt8}

theorem sameBytes_old (h : PeerHeader) (type : UInt8) :
    SameBytes bmpPeerHdrLen (memOf (type :: h.bytes)) 1 (memOf h.bytes) 0 := by
  have old := ((holds_cons ..).mp (holds_memOf (type :: h.bytes))).2
  exact h.length_bytes ▸ old.sameBytes (holds_memOf h.bytes)

theorem length_printedAddr_le (isIPv4 : Bool) (m : Mem) (addr : Nat) :
    (printedAddr isIPv4 m addr).length ≤ 40 := by
  unfold printedAddr
  split
  · exact (inetNtop4_length_le _).trans (by decide)
  · exact (inetNtop6_length_le _).trans (by decide)

private theorem flags_fields (global : h.type ≤ 1) (entry : ObjBgpPeer) :
    (parsePeerFlags (memOf h.bytes 0) (memOf h.bytes 1) entry).isIPv4 = isIPv4 h ∧
      (parsePeerFlags (memOf h.bytes 0) (memOf h.bytes 1) entry).isL3VPN = decide (h.type = 1) := by
  have notLocRib : ¬ memOf h.bytes 0 = 3 := by
    intro locRib
    rw [PeerHeader.type, locRib] at global
    exact absurd global (by decide)
  unfold parsePeerFlags
  rw [if_neg notLocRib]
  dsimp only
  split <;> split <;> split <;> exact ⟨rfl, rfl⟩

theorem printedAddr_old (type : UInt8) (isIPv4 : Bool) :
    printedAddr isIPv4 (memOf (type :: h.bytes)) 11 = printedAddr isIPv4 (memOf h.bytes) 10 := by
  have same := sameBytes_old h type
  have quad : readBytes (memOf (type :: h.bytes)) 23 4 = readBytes (memOf h.bytes) 22 4 :=
    same.within 22 4 (by decide)
  have whole : readBytes (memOf (type :: h.bytes)) 11 16 = readBytes (memOf h.bytes) 10 16 :=
    same.within 10 16 (by decide)
  simp only [printedAddr, quad, whole]

/-- The old parser takes the VPN flag from the message type, the new one from the peer type. -/
theorem isL3VPN_eq_iff (type : UInt8) (global : h.type ≤ 1) (clock clock' : Nat × Nat)
    (entry entry' : ObjBgpPeer) :
    (peerEntryOld clock (memOf (type :: h.bytes)) entry).isL3VPN =
      (peerEntry clock' (memOf h.bytes) entry').isL3VPN ↔ (type = 1 ↔ h.type = 1) := by
  have vpn : (peerEntry clock' (memOf h.bytes) entry').isL3VPN = decide (h.type = 1) :=
    (flags_fields global entry').2
  have old : (peerEntryOld clock (memOf (type :: h.bytes)) entry).isL3VPN =
      decide (u8 (memOf (type :: h.bytes)) 0 = 1) := rfl
  have kind : u8 (memOf (type :: h.bytes)) 0 = 1 ↔ type = 1 := UInt8.toNat_inj (b := 1)
  rw [vpn, old, decide_eq_decide, kind]

/-- The two entries agree exactly if the message type happens to say what the peer type
says and both parsers print the distinguisher right. -/
theorem sameFields_iff (type : UInt8) (global : h.type ≤ 1)
    (held : Holds (memOf h.bytes) 2 rd.bytes) (stamped : u32 (memOf h.bytes) 34 ≠ 0)
    (clock clock' : Nat × Nat) (entry entry' : ObjBgpPeer) :
    SameFields rd (peerEntryOld clock (memOf (type :: h.bytes)) entry)
        (peerEntry clock' (memOf h.bytes) entry') ↔
      (type = 1 ↔ h.type = 1) ∧ PrintsRight rd := by
  have same := sameBytes_old h type
  have family := (flags_fields global entry').1
  have flags : memOf (type :: h.bytes) 2 = memOf h.bytes 1 := same.at 1 (by decide)
  have secs : u32 (memOf (type :: h.bytes)) 35 = u32 (memOf h.bytes) 34 := same.u32 34 (by decide)
  have oldHeld : Holds (memOf (type :: h.bytes)) 3 rd.bytes := by
    have dist := same.within 2 8 (by decide)
    rw [Holds, rd.length_bytes] at held ⊢
    exact dist.trans held
  have text : (peerEntryOld clock (memOf (type :: h.bytes)) entry).peerRd =
      printedRdOld (memOf (type :: h.bytes)) 3 :=
    List.take_of_length_le (length_printedRdOld_le _ _)
  have text' : (peerEntry clock' (memOf h.bytes) entry').peerRd = printedRd (memOf h.bytes) 2 :=
    List.take_of_length_le (printedRd_length _ _)
  have l3vpn := isL3VPN_eq_iff type global clock clock' entry entry'
  constructor
  · intro agree
    have registered := agree.registered
    rw [text] at registered
    exact ⟨l3vpn.mp agree.isL3VPN, (printedRdOld_iff oldHeld).mp registered⟩
  · rintro ⟨types, right⟩
    have old := (printedRdOld_iff oldHeld).mpr right
    have new := (printedRd_iff held).mpr right.fitsInt
    refine ⟨?_, same.u32 26 (by decide), ?_, ?_, l3vpn.mpr types, ?_, ?_, ?_⟩
    · show strncpy 40 (printedAddr (!flagSet (memOf (type :: h.bytes) 2) 0x80) _ 11) =
        strncpy 46 (printedAddr (parsePeerFlags _ _ entry').isIPv4 _ 10)
      have short := length_printedAddr_le (isIPv4 h) (memOf h.bytes) 10
      rw [flags, printedAddr_old, family]
      exact (List.take_of_length_le short).trans
        (List.take_of_length_le (short.trans (by decide))).symm
    · show strncpy 16 (inetNtop4 (readBytes _ 31 4)) = strncpy 16 (inetNtop4 (readBytes _ 30 4))
      rw [show readBytes (memOf (type :: h.bytes)) 31 4 = readBytes (memOf h.bytes) 30 4 from
        same.within 30 4 (by decide)]
    · show (!flagSet (memOf (type :: h.bytes) 2) 0x80) = (parsePeerFlags _ _ entry').isIPv4
      rw [flags, family, isIPv4]
    · show (if u32 _ 35 ≠ 0 then u32 _ 35 else clock.1) = if u32 _ 34 ≠ 0 then u32 _ 34 else clock'.1
      rw [secs, if_pos stamped, if_pos stamped]
    · rw [text, text', old, new]
    · rw [text, old]

/-! The two parsers on a stream. -/

theorem peek_run (k : Nat) (s : Parser) :
    (peek k).run s = .ok (s.sock.take k, s.keep (s.sock.take k)) := rfl

theorem oldTypeStep_gives_up {s : Parser} (up : GivesUp type s.sock) :
    ∃ e, (oldTypeStep type.toNat).run s = .error e := by
  rcases up with rfl | ⟨rfl, short⟩ | ⟨rfl, more⟩
  · exact ⟨_, rfl⟩
  · have got : ¬ (s.sock.take 18).length = 18 := by
      rw [List.length_take]
      omega
    refine ⟨"Failed to read BGP message for BMP length".toList, ?_⟩
    show (peek 18 >>= _).run s = _
    rw [run_bind_of_ok (peek_run 18 s), if_neg got]
    rfl
  · have got : ¬ (s.sock.take 1).length ≠ 1 := by
      have := List.length_pos_of_ne_nil more
      rw [List.length_take]
      omega
    refine ⟨"Failed to read BMP peer down reason".toList, ?_⟩
    show (peek 1 >>= _).run s = _
    rw [run_bind_of_ok (peek_run 1 s), if_neg got]
    rfl

theorem oldTypeStep_goes_on {s : Parser} (on : ¬ GivesUp type s.sock) :
    ∃ s', (oldTypeStep type.toNat).run s = .ok ((), s') := by
  have named (n : UInt8) (here : type.toNat = n.toNat) : type = n := UInt8.toNat_inj.mp here
  unfold oldTypeStep
  split
  · rename_i zero
    have got : (s.sock.take 18).length = 18 := by
      by_contra short
      rw [List.length_take] at short
      exact on (Or.inr (Or.inl ⟨named 0 zero, by omega⟩))
    rw [run_bind_of_ok (peek_run 18 s), if_pos got, run_modify]
    exact ⟨_, rfl⟩
  · rename_i two
    have none_left : s.sock = [] := by
      by_contra more
      exact on (Or.inr (Or.inr ⟨named 2 two, more⟩))
    have got : (s.sock.take 1).length ≠ 1 := by
      rw [none_left]
      decide
    rw [run_bind_of_ok (peek_run 1 s), if_pos got]
    exact ⟨_, rfl⟩
  · rename_i three
    exact absurd (Or.inl (named 3 three)) on
  · exact ⟨s, rfl⟩

/-- A header that arrives whole is read up to the step for its message type. -/
theorem parseBMPv2_eq (clock : Nat × Nat) {s : Parser} {rest : List UInt8}
    (sock : s.sock = type :: h.bytes ++ rest) :
    ∃ mid : Parser, mid.sock = rest ∧ mid.bmpType = type.toNat ∧
      (parseBMPv2 clock).run s = (oldTypeStep type.toNat >>= fun _ => modify fun t =>
        { t with peer := peerEntryOld clock (memOf (type :: h.bytes)) t.peer }).run mid := by
  obtain ⟨packet, read⟩ := recv_run sock
  have length : (type :: h.bytes).length = bmpHdrV1V2Len := by
    rw [List.length_cons, h.length_bytes]
    rfl
  rw [length] at read
  refine ⟨{ s with sock := rest, packet := packet, bmpType := type.toNat }, rfl, rfl, ?_⟩
  rw [parseBMPv2, run_bind_of_ok read, if_neg (not_not.mpr length), run_modify_bind]
  rfl

theorem parsePeerHdr_run (clock : Nat × Nat) {s : Parser} {rest : List UInt8}
    (sock : s.sock = h.bytes ++ rest) :
    ∃ t, (parsePeerHdr clock).run s = .ok ((), t) ∧
      t.peer = peerEntry clock (memOf h.bytes) s.peer := by
  obtain ⟨packet, read⟩ := recv_run sock
  rw [h.length_bytes] at read
  rw [parsePeerHdr, run_bind_of_ok read, run_modify]
  exact ⟨_, rfl, rfl⟩

/-- Unless the old parser throws, the two leave the same peer fields, with the registered
text of the distinguisher, exactly if the message type happens to say what the peer type
says and the distinguisher is one of those printed right: the old parser takes the VPN flag
from the message type and the parts of a type 0 distinguisher from the wrong bytes, and both
print a four-byte number through a signed `int`. -/
theorem header_parsers_agree_iff (global : h.type ≤ 1) (held : Holds (memOf h.bytes) 2 rd.bytes)
    (stamped : u32 (memOf h.bytes) 34 ≠ 0) (clock clock' : Nat × Nat) {s s' : Parser}
    {rest rest' : List UInt8} (old : s.sock = type :: h.bytes ++ rest)
    (new : s'.sock = h.bytes ++ rest') :
    Returns (parseBMPv2 clock) s (fun _ t =>
        Returns (parsePeerHdr clock') s' (fun _ t' => SameFields rd t.peer t'.peer)) ↔
      GivesUp type rest ∨ ((type = 1 ↔ h.type = 1) ∧ PrintsRight rd) := by
  obtain ⟨mid, sock, -, run⟩ := parseBMPv2_eq clock old
  obtain ⟨t', run', peer'⟩ := parsePeerHdr_run clock' new
  by_cases up : GivesUp type rest
  · refine iff_of_true ?_ (Or.inl up)
    obtain ⟨e, thrown⟩ := oldTypeStep_gives_up (sock ▸ up)
    intro a t ok
    rw [run, StateT.run_bind, thrown] at ok
    cases ok
  · obtain ⟨mid', went⟩ := oldTypeStep_goes_on (sock ▸ up)
    rw [run_bind_of_ok went, run_modify] at run
    have fields := sameFields_iff type global held stamped clock clock' mid'.peer s'.peer
    rw [← peer'] at fields
    constructor
    · intro agree
      exact Or.inr (fields.mp (agree _ _ run _ _ run'))
    · intro condition a t ok b t'' ok'
      rw [run] at ok
      rw [run'] at ok'
      cases ok
      cases ok'
      exact fields.mpr (condition.resolve_left up)

/-- The octets of an L3VPN peer with the given distinguisher, all other fields but the
timestamp zero. -/
private def vpnBytes (rd : RouteDistinguisher) : List UInt8 :=
  1 :: 0 :: (rd.bytes ++ (List.replicate 24 0 ++ [0, 0, 0, 1, 0, 0, 0, 0]))

private theorem length_vpnBytes (rd : RouteDistinguisher) :
    (vpnBytes rd).length = bmpPeerHdrLen := by
  simp [vpnBytes, rd.length_bytes, bmpPeerHdrLen]

private theorem vpnBytes_holds (rd : RouteDistinguisher) :
    Holds (memOf (vpnBytes rd)) 2 rd.bytes := by
  have whole := holds_memOf (vpnBytes rd)
  simp only [vpnBytes, holds_cons, holds_append] at whole
  exact whole.2.2.1

private def vpnHeader (rd : RouteDistinguisher) : PeerHeader := ⟨vpnBytes rd, length_vpnBytes rd⟩

/-- A statistics report, whose type reads like an L3VPN peer, with an address as
administrator. -/
theorem header_parsers_agree_stats :
    Returns (parseBMPv2 (0, 0))
      (Parser.new (1 :: (vpnHeader (.ipv4 0x0a000001 7)).bytes ++ [])) (fun _ t =>
        Returns (parsePeerHdr (0, 0)) (Parser.new ((vpnHeader (.ipv4 0x0a000001 7)).bytes ++ []))
          (fun _ t' => SameFields (.ipv4 0x0a000001 7) t.peer t'.peer)) :=
  (header_parsers_agree_iff (by decide) (vpnBytes_holds _) (by decide) _ _ rfl rfl).mpr
    (Or.inr ⟨by decide, trivial⟩)

/-- The L3VPN peer 65000:100 in a route-monitoring message of the old versions: not taken
for an L3VPN peer, and its distinguisher comes out as two other numbers. -/
theorem old_header_differs :
    ∃ t t', (parseBMPv2 (0, 0)).run (Parser.new
        (0 :: (vpnHeader (.asn2 65000 100)).bytes ++ List.replicate 18 0)) = .ok ((), t) ∧
      (parsePeerHdr (0, 0)).run (Parser.new (vpnHeader (.asn2 65000 100)).bytes) = .ok ((), t') ∧
      t.peer.isL3VPN = false ∧ t'.peer.isL3VPN = true ∧
      t.peer.peerRd = "253:18446744073306898532".toList ∧
      t'.peer.peerRd = "65000:100".toList :=
  ⟨_, _, rfl, rfl, by decide, by decide, by decide, by decide⟩

end SonicBmp.Bmp.HeaderVersions
