/- module: SonicBmp/Bmp/PeerIsolation
   digest: Which peers of a router share a key, a hash and the persistent peer information. -/

import SonicBmp.Bgp.AddressText
import SonicBmp.Bmp.RouteMonitoring
import SonicBmp.Bus.Kafka
import Mathlib.Data.Set.Function

set_option autoImplicit false
set_option relaxedAutoImplicit false

namespace SonicBmp.Bmp.PeerIsolation

open SonicBmp.Library.Memory
open SonicBmp.Library.Printing
open SonicBmp.Library.Throwing
open SonicBmp.Bgp.Common
open SonicBmp.Bgp.AddressText
open SonicBmp.Bus.Interface
open SonicBmp.Bus.Kafka
open SonicBmp.Bmp.ParseBmp
open SonicBmp.Bmp.Framing
open SonicBmp.Bmp.Reader
open SonicBmp.Bmp.RouteMonitoring

/-! The fields of a per-peer header that name its peer. -/

section Header

variable (h h' : PeerHeader)

def isIPv4 : Bool := !flagSet (memOf h.bytes 1) 0x80

def peerAddress : List UInt8 := readBytes (memOf h.bytes) 10 16

def distinguisher : List UInt8 := readBytes (memOf h.bytes) 2 8

def rdType : Nat := u8 (memOf h.bytes) 3

/-- The administrator of a type 0 or 2 distinguisher. -/
def rdAdmin : Nat := if rdType h = 2 then u32 (memOf h.bytes) 4 else u16 (memOf h.bytes) 4

def rdAssigned : Nat := if rdType h = 2 then u16 (memOf h.bytes) 8 else u32 (memOf h.bytes) 6

def addressText : Text := printedAddr (isIPv4 h) (memOf h.bytes) 10

def distinguisherText : Text := printedRd (memOf h.bytes) 2

/-- Same family and same bytes as far as they are printed: an IPv4 address is printed from
the last four. -/
def SameAddress : Prop :=
  isIPv4 h = isIPv4 h' ∧
    if isIPv4 h then (peerAddress h).drop 12 = (peerAddress h').drop 12
    else peerAddress h = peerAddress h'

/-- Equal distinguishers of type 1, or the same two numbers under the types 0 and 2. -/
def DistinguishersAlike : Prop :=
  (rdType h = 1 ∧ rdType h' = 1 ∧ distinguisher h = distinguisher h') ∨
    (rdType h ≠ 1 ∧ rdType h' ≠ 1 ∧ rdAdmin h = rdAdmin h' ∧ rdAssigned h = rdAssigned h')

/-- The address text goes on where the other one ends, with characters that the other
header prints at the start of its distinguisher. -/
def Shifted : Prop :=
  ∃ shift, shift ≠ [] ∧ addressText h' = addressText h ++ shift ∧
    distinguisherText h = shift ++ distinguisherText h'

def Separate : Prop :=
  ¬ (SameAddress h h' ∧ DistinguishersAlike h h') ∧ ¬ Shifted h h' ∧ ¬ Shifted h' h

end Header

/-- The header of a peer of type 0, 1 or 2 with a distinguisher of type 0, 1 or 2. -/
structure InstanceHeader extends PeerHeader where
  type_le : toPeerHeader.type ≤ 2
  rd_type : memOf bytes 2 = 0 ∧ memOf bytes 3 ≤ 2

/-! What is printed. -/

theorem asUnsignedLong_inj {a b : Nat} (ha : a < 2 ^ 32) (hb : b < 2 ^ 32)
    (same : asUnsignedLong a = asUnsignedLong b) : a = b := by
  unfold asUnsignedLong at same
  split at same <;> split at same <;> omega

theorem addressText_eq_iff (h h' : PeerHeader) :
    addressText h = addressText h' ↔ SameAddress h h' := by
  have cross (src src' : List UInt8) : inetNtop4 src ≠ inetNtop6 src' :=
    fun same => colon_not_mem_inetNtop4 src (same ▸ colon_mem_inetNtop6 src')
  have last (h : PeerHeader) : (peerAddress h).drop 12 = readBytes (memOf h.bytes) 22 4 := by
    rw [peerAddress, readBytes_add (memOf h.bytes) 10 12 4]
    simp
  unfold addressText SameAddress printedAddr
  rw [last, last]
  cases isIPv4 h with
  | true =>
    cases isIPv4 h' with
    | true =>
      simp only [if_true, true_and]
      exact ⟨inetNtop4_injective (by simp) (by simp), fun same => by rw [same]⟩
    | false => simpa using cross _ _
  | false =>
    cases isIPv4 h' with
    | true => simpa using (cross _ _).symm
    | false =>
      simp only [Bool.false_eq_true, if_false, true_and]
      exact ⟨inetNtop6_injective (by simp) (by simp), fun same => by rw [← peerAddress, same]; rfl⟩

private theorem distinguisher_eq (h : PeerHeader) : distinguisher h =
    [memOf h.bytes 2, memOf h.bytes 3] ++ (readBytes (memOf h.bytes) 4 4 ++
      [memOf h.bytes 8, memOf h.bytes 9]) := rfl

private theorem u16_inj {m m' : Mem} {p : Nat} (same : u16 m p = u16 m' p) :
    m p = m' p ∧ m (p + 1) = m' (p + 1) := by
  have := u8_lt m (p + 1)
  have := u8_lt m' (p + 1)
  simp only [u16] at same
  exact ⟨UInt8.toNat_inj.mp (show u8 m p = u8 m' p by omega),
    UInt8.toNat_inj.mp (show u8 m (p + 1) = u8 m' (p + 1) by omega)⟩

/-- A distinguisher of type 1 starts with an address, the others with a number. -/
private theorem distinguisherText_one {h : PeerHeader} (one : rdType h = 1) :
    distinguisherText h =
      inetNtop4 (readBytes (memOf h.bytes) 4 4) ++ ':' :: decimal (u16 (memOf h.bytes) 8) := by
  have type : u8 (memOf h.bytes) (2 + 1) = 1 := one
  simp only [distinguisherText, printedRd, type]

private theorem distinguisherText_number (h : InstanceHeader) (number : rdType h.toPeerHeader ≠ 1) :
    distinguisherText h.toPeerHeader =
      decimal (asUnsignedLong (rdAdmin h.toPeerHeader)) ++
        ':' :: decimal (asUnsignedLong (rdAssigned h.toPeerHeader)) := by
  have small {n : Nat} (h : n < 65536) : asUnsignedLong n = n := if_pos (by omega)
  have le : rdType h.toPeerHeader ≤ 2 := UInt8.le_iff_toNat_le.mp h.rd_type.2
  have cases : rdType h.toPeerHeader = 0 ∨ rdType h.toPeerHeader = 2 := by omega
  rcases cases with type | type
  · have byte : u8 (memOf h.bytes) (2 + 1) = 0 := type
    simp only [distinguisherText, printedRd, byte, rdAdmin, rdAssigned, type]
    simp [small (u16_lt _ _)]
  · have byte : u8 (memOf h.bytes) (2 + 1) = 2 := type
    simp only [distinguisherText, printedRd, byte, rdAdmin, rdAssigned, type]
    simp [small (u16_lt _ _)]

private theorem rdAdmin_lt (h : PeerHeader) : rdAdmin h < 2 ^ 32 := by
  have := u16_lt (memOf h.bytes) 4
  have := u32_lt (memOf h.bytes) 4
  unfold rdAdmin
  split <;> omega

private theorem rdAssigned_lt (h : PeerHeader) : rdAssigned h < 2 ^ 32 := by
  have := u16_lt (memOf h.bytes) 8
  have := u32_lt (memOf h.bytes) 6
  unfold rdAssigned
  split <;> omega

theorem distinguisherText_eq_iff (h h' : InstanceHeader) :
    distinguisherText h.toPeerHeader = distinguisherText h'.toPeerHeader ↔
      DistinguishersAlike h.toPeerHeader h'.toPeerHeader := by
  by_cases one : rdType h.toPeerHeader = 1 <;> by_cases one' : rdType h'.toPeerHeader = 1
  · rw [distinguisherText_one one, distinguisherText_one one', DistinguishersAlike]
    simp only [one, one', true_and, ne_eq, not_true_eq_false, false_and, or_false]
    constructor
    · intro same
      obtain ⟨quads, -, numbers⟩ := run_split (fun c => c ≠ ':')
        (fun c here => fun e => colon_not_mem_inetNtop4 _ (e ▸ here))
        (fun c here => fun e => colon_not_mem_inetNtop4 _ (e ▸ here)) (by simp) (by simp) same
      have admin := inetNtop4_injective (by simp) (by simp) quads
      obtain ⟨high, low⟩ := u16_inj (decimal_injective numbers)
      have types : memOf h.bytes 3 = memOf h'.bytes 3 := UInt8.toNat_inj.mp (one.trans one'.symm)
      rw [distinguisher_eq, distinguisher_eq, h.rd_type.1, h'.rd_type.1, types, admin, high, low]
    · intro same
      rw [distinguisher_eq, distinguisher_eq] at same
      obtain ⟨-, rest⟩ := List.append_inj same rfl
      obtain ⟨admin, assigned⟩ := List.append_inj rest (by simp)
      simp only [List.cons.injEq, and_true] at assigned
      simp only [admin, u16, u8, assigned.1, assigned.2]
  · rw [distinguisherText_one one, distinguisherText_number h' one', DistinguishersAlike]
    simp only [one, one', false_and, and_false, ne_eq, not_true_eq_false, or_false, iff_false]
    exact inetNtop4_ne_decimal _ _ _ _
  · rw [distinguisherText_number h one, distinguisherText_one one', DistinguishersAlike]
    simp only [one, one', false_and, ne_eq, not_true_eq_false, and_false, or_false, iff_false]
    exact (inetNtop4_ne_decimal _ _ _ _).symm
  · rw [distinguisherText_number h one, distinguisherText_number h' one', DistinguishersAlike]
    simp only [one, one', false_and, ne_eq, not_false_eq_true, true_and, false_or]
    rw [colonNumbers_inj]
    constructor
    · rintro ⟨admins, assigned⟩
      exact ⟨asUnsignedLong_inj (rdAdmin_lt _) (rdAdmin_lt _) admins,
        asUnsignedLong_inj (rdAssigned_lt _) (rdAssigned_lt _) assigned⟩
    · rintro ⟨admins, assigned⟩
      exact ⟨by rw [admins], by rw [assigned]⟩

/-! The key and the hashed bytes. -/

private theorem printedAddr_eq (isIPv4 : Bool) (m : Mem) (addr : Nat) :
    printedAddr isIPv4 m addr = inetNtop isIPv4
      (if isIPv4 then readBytes m (addr + 12) 4 else readBytes m addr 16) := by
  cases isIPv4 <;> simp [printedAddr, inetNtop]

theorem length_decimal_u16 (m : Mem) (p : Nat) : (decimal (u16 m p)).length ≤ 5 :=
  length_decimal_le (by decide) (by have := u16_lt m p; omega)

theorem length_asUnsignedLong {n : Nat} (small : n < 2 ^ 32) :
    (decimal (asUnsignedLong n)).length ≤ 20 := by
  have bound : asUnsignedLong n < 2 ^ 64 := by
    unfold asUnsignedLong
    split <;> omega
  exact length_decimal_le (by decide) (lt_of_lt_of_le bound (by norm_num))

theorem printedRd_length (m : Mem) (dist : Nat) : (printedRd m dist).length ≤ 32 := by
  have word (p : Nat) : (decimal (u16 m p)).length ≤ 5 := length_decimal_u16 m p
  have long (p : Nat) : (decimal (asUnsignedLong (u32 m p))).length ≤ 20 :=
    length_asUnsignedLong (u32_lt m p)
  have quad := inetNtop4_length_le (readBytes m (dist + 2) 4)
  have short := word (dist + 2)
  have short' := word (dist + 6)
  have admin := long (dist + 2)
  have assigned := long (dist + 4)
  unfold printedRd
  split
  · rw [List.length_append, List.length_cons]
    exact (Nat.add_le_add quad (Nat.add_le_add_right short' 1)).trans (by decide)
  · rw [List.length_append, List.length_cons]
    exact (Nat.add_le_add admin (Nat.add_le_add_right short' 1)).trans (by decide)
  · rw [List.length_append, List.length_cons]
    exact (Nat.add_le_add short (Nat.add_le_add_right assigned 1)).trans (by decide)

/-- Outside the Loc-RIB type, the key of a peer is its address text followed directly by
its distinguisher text. -/
theorem peerInfoKey_eq (h : PeerHeader) (notLocRib : h.type ≠ 3) (clock : Nat × Nat) :
    peerInfoKey (h.peer clock) = addressText h ++ distinguisherText h := by
  have family : (parsePeerFlags (memOf h.bytes 0) (memOf h.bytes 1) ObjBgpPeer.zero).isIPv4 =
      isIPv4 h := (parsePeerFlags_zero notLocRib).2.2
  have address : (h.peer clock).peerAddr = addressText h := by
    have short : (addressText h).length ≤ 46 := by
      rw [addressText, printedAddr_eq]
      exact inetNtop_length_le _ _
    rw [PeerHeader.peer, peerEntry_peerAddr, family]
    exact List.take_of_length_le short
  have rd : (h.peer clock).peerRd = distinguisherText h :=
    List.take_of_length_le (printedRd_length _ _)
  rw [peerInfoKey, address, rd]

theorem InstanceHeader.notLocRib (h : InstanceHeader) : h.type ≠ 3 := by
  intro locRib
  have le := h.type_le
  rw [locRib] at le
  exact absurd le (by decide)

/-- Two peers have one key exactly when they are printed alike or one text is shifted
against the other. -/
theorem keys_eq_iff (h h' : InstanceHeader) (clock clock' : Nat × Nat) :
    peerInfoKey (h.peer clock) = peerInfoKey (h'.peer clock') ↔
      ¬ Separate h.toPeerHeader h'.toPeerHeader := by
  rw [peerInfoKey_eq _ h.notLocRib, peerInfoKey_eq _ h'.notLocRib, List.append_eq_append_iff,
    Separate, ← addressText_eq_iff, ← distinguisherText_eq_iff]
  constructor
  · rintro (⟨shift, longer, start⟩ | ⟨shift, longer, start⟩) ⟨unlike, notShifted, notShifted'⟩
    · by_cases empty : shift = []
      · subst empty
        exact unlike ⟨by simpa using longer.symm, by simpa using start⟩
      · exact notShifted ⟨shift, empty, longer, start⟩
    · by_cases empty : shift = []
      · subst empty
        exact unlike ⟨by simpa using longer, by simpa using start.symm⟩
      · exact notShifted' ⟨shift, empty, longer, start⟩
  · intro alike
    by_contra apart
    refine alike ⟨?_, ?_, ?_⟩
    · rintro ⟨addresses, rds⟩
      exact apart (Or.inl ⟨[], by simp [addresses], by simp [rds]⟩)
    · rintro ⟨shift, -, longer, start⟩
      exact apart (Or.inl ⟨shift, longer, start⟩)
    · rintro ⟨shift, -, longer, start⟩
      exact apart (Or.inr ⟨shift, longer, start⟩)

private theorem addressChar_lt {c : Char} (h : AddressChar c) : c.toNat < 256 := by
  rcases h with word | rfl | rfl
  · exact lt_of_le_of_lt (isAlphanum_range word).2 (by decide)
  · decide
  · decide

private theorem printedRd_chars (m : Mem) (dist : Nat) : ∀ c ∈ printedRd m dist, AddressChar c := by
  have number {n : Nat} {c : Char} (here : c ∈ decimal n) : AddressChar c :=
    Or.inl (decimal_isAlphanum here)
  have quad {src : List UInt8} {c : Char} (here : c ∈ inetNtop4 src) : AddressChar c :=
    inetNtop_chars true src c here
  intro c here
  unfold printedRd at here
  split at here <;> simp only [List.mem_append, List.mem_cons] at here <;>
    rcases here with here | rfl | here <;>
      first | exact number here | exact quad here | exact Or.inr (Or.inr rfl)

private theorem keyText_chars (h : PeerHeader) :
    ∀ c ∈ addressText h ++ distinguisherText h, AddressChar c := by
  intro c here
  rcases List.mem_append.mp here with here | here
  · rw [addressText, printedAddr_eq] at here
    exact inetNtop_chars _ _ c here
  · exact printedRd_chars _ _ c here

theorem hashInputs_eq_iff (h h' : InstanceHeader) (clock clock' : Nat × Nat) (router : HashId) :
    peerHashInput (h.peer clock) router = peerHashInput (h'.peer clock') router ↔
      peerInfoKey (h.peer clock) = peerInfoKey (h'.peer clock') := by
  have input (peer : ObjBgpPeer) : peerHashInput peer router =
      textBytes (peerInfoKey peer) ++ textBytes (hashToStr router) := by
    simp [peerHashInput, peerInfoKey, textBytes]
  rw [input, input, List.append_left_inj]
  constructor
  · intro same
    refine textBytes_inj ?_ ?_ same
    · rw [peerInfoKey_eq _ h.notLocRib]
      exact fun c here => addressChar_lt (keyText_chars _ c here)
    · rw [peerInfoKey_eq _ h'.notLocRib]
      exact fun c here => addressChar_lt (keyText_chars _ c here)
  · intro same
    rw [same]

/-! Messages of one peer. -/

section Run

variable (D : Decoders)

/-- The types whose messages carry no per-peer header. -/
def RouterType (s : Parser) : Prop := s.bmpType = typeInitMsg ∨ s.bmpType = typeTermMsg

/-- Handling a message touches no entry but that of its own peer. -/
theorem processMessage_frame (env : Env) (peers : PeerInfoMap) (s : Parser) (key : Text)
    (other : RouterType s ∨ key ≠ peerInfoKey s.peer) :
    Returns (processMessage D env peers) s (fun done _ => done.peers key = peers key) := by
  have touched (type : ¬ RouterType s) (info : PeerInfo) :
      Function.update peers (peerInfoKey s.peer) (some info) key = peers key :=
    Function.update_of_ne (other.resolve_left type) _ _
  apply returns_get_bind
  dsimp only
  split
  · exact (returns_true _ _).bind fun _ _ _ => returns_pure rfl
  split
  · rename_i isUp
    exact (returns_true _ _).bind fun _ _ _ =>
      returns_pure (touched (by simp [RouterType, isUp, typePeerUp, typeInitMsg, typeTermMsg]) _)
  split
  · rename_i isRoute
    exact (returns_true _ _).bind fun _ _ _ =>
      returns_pure (touched (by simp [RouterType, isRoute, typeRouteMon, typeInitMsg, typeTermMsg]) _)
  split
  · exact (returns_true _ _).bind fun _ _ _ => returns_pure rfl
  split
  · exact (returns_true _ _).bind fun _ _ _ => returns_pure rfl
  split
  · exact (returns_true _ _).bind fun _ _ _ => returns_pure rfl
  · exact returns_pure rfl

theorem notePeer_frame (peers : PeerInfoMap) (s : Parser) (key : Text)
    (other : RouterType s ∨ key ≠ peerInfoKey s.peer) : notePeer peers s key = peers key := by
  unfold notePeer
  split
  · rename_i withPeer
    refine Function.update_of_ne (other.resolve_left ?_) _ _
    rintro (type | type) <;> simp [hasPeer, type, typeInitMsg, typeTermMsg] at withPeer
  · rfl

private theorem parseBMPv3_peer (clock : Nat × Nat) (len : UInt32) (type : UInt8) (h : PeerHeader)
    (stream : List UInt8) (s : Parser)
    (sock : s.sock = put32 len.toNat ++ [type] ++ (h.bytes ++ stream))
    (room : s.packet.length ≤ 1) (entry : s.peer = ObjBgpPeer.zero) :
    Returns (parseBMPv3 clock) s (fun _ s' => RouterType s' ∨ s'.peer = h.peer clock) := by
  intro u s' run
  have header : (recv bmpHdrV3Len).run s = _ :=
    recv_append s (put32 len.toNat ++ [type]) (h.bytes ++ stream) sock
      (by simp only [List.length_append, length_put32, List.length_cons, List.length_nil,
        bmpPacketBufSize]; omega)
  obtain ⟨lenField, typeField⟩ := v3Header_fields len type
  unfold parseBMPv3 at run
  rw [run_bind_of_ok header, if_neg (by simp [bmpHdrV3Len]), lenField, typeField] at run
  dsimp only at run
  split at run
  · cases run
  rw [run_modify_bind] at run
  split at run
  · right
    rw [parsePeerHdr_header clock _ h.bytes stream h.length_bytes rfl
      (by simp only [List.length_append, length_put32, List.length_cons, List.length_nil,
        bmpPacketBufSize, bmpPeerHdrLen]; omega)] at run
    cases run
    simp only [entry]
    rfl
  · split at run
    · rename_i router
      left
      cases run
      exact router
    · cases run

/-- A v3 message starts with the per-peer header that stands behind its common header,
unless its type has none. -/
theorem handleMessage_peer (clock : Nat × Nat) (len : UInt32) (type : UInt8) (h : PeerHeader)
    (stream : List UInt8) :
    Returns (handleMessage clock) (Parser.new (v3Stream len type (h.bytes ++ stream)))
      (fun _ s => RouterType s ∨ s.peer = h.peer clock) := by
  have bytes : v3Stream len type (h.bytes ++ stream) =
      [3] ++ (put32 len.toNat ++ [type] ++ (h.bytes ++ stream)) := by
    simp [v3Stream]
  intro u s run
  rw [handleMessage_v3 clock _ _ bytes (by simp [Parser.new, bmpPacketBufSize])] at run
  exact parseBMPv3_peer clock len type h stream _ rfl (by simp [Parser.new]) rfl u s run

/-- A message changes no entry of the table but that of the peer in its header. -/
theorem readIncomingMsg_frame {env : Env} {peers peers' : PeerInfoMap} {h : PeerHeader}
    {len : UInt32} {type : UInt8} {stream rest : List UInt8} {more : Bool}
    (read : (readIncomingMsg D env peers (v3Stream len type (h.bytes ++ stream))).result =
      .ok (more, peers', rest)) {key : Text} (other : key ≠ peerInfoKey (h.peer env.clock)) :
    peers' key = peers key := by
  rcases readIncomingMsg_cases D env peers (v3Stream len type (h.bytes ++ stream)) with
    ⟨text, thrown⟩ | ⟨s, done, s', headers, body, returned⟩
  · rw [thrown] at read
    cases read
  · rw [returned] at read
    cases read
    have apart : RouterType s ∨ key ≠ peerInfoKey s.peer :=
      (handleMessage_peer env.clock len type h stream _ _ headers).imp_right
        (fun peer => by rw [peer]; exact other)
    exact (processMessage_frame D env (notePeer peers s) s key apart done s' body).trans
      (notePeer_frame peers s key apart)

/-- The messages of a peer: those whose header has its family, address and distinguisher. -/
structure OfPeer (h message : PeerHeader) : Prop where
  type_le : message.type ≤ 2
  family : isIPv4 message = isIPv4 h
  address : peerAddress message = peerAddress h
  rd : distinguisher message = distinguisher h

/-- What a sequence of messages of one peer, of any types and with any contents, may do to
the table of the session. -/
inductive PeerRun (h : PeerHeader) : PeerInfoMap → PeerInfoMap → Prop
  | none (peers : PeerInfoMap) : PeerRun h peers peers
  | next {peers peers' peers'' : PeerInfoMap} (env : Env) (message : PeerHeader) (len : UInt32)
      (type : UInt8) (stream rest : List UInt8) (more : Bool) (own : OfPeer h message)
      (read : (readIncomingMsg D env peers (v3Stream len type (message.bytes ++ stream))).result =
        .ok (more, peers', rest)) (later : PeerRun h peers' peers'') : PeerRun h peers peers''

private theorem distinguisherText_congr {h h' : PeerHeader} (same : distinguisher h = distinguisher h') :
    distinguisherText h = distinguisherText h' := by
  have bytes : [memOf h.bytes 2, memOf h.bytes 3, memOf h.bytes 4, memOf h.bytes 5,
      memOf h.bytes 6, memOf h.bytes 7, memOf h.bytes 8, memOf h.bytes 9] =
        [memOf h'.bytes 2, memOf h'.bytes 3, memOf h'.bytes 4, memOf h'.bytes 5,
          memOf h'.bytes 6, memOf h'.bytes 7, memOf h'.bytes 8, memOf h'.bytes 9] := same
  simp only [List.cons.injEq, and_true] at bytes
  obtain ⟨-, b3, b4, b5, b6, b7, b8, b9⟩ := bytes
  simp only [distinguisherText, printedRd, u32, u16, u8, readBytes, b3, b4, b5, b6, b7, b8, b9]

theorem OfPeer.key {h : InstanceHeader} {message : PeerHeader} (own : OfPeer h.toPeerHeader message)
    (clock clock' : Nat × Nat) : peerInfoKey (message.peer clock) = peerInfoKey (h.peer clock') := by
  have notLocRib : message.type ≠ 3 := by
    intro locRib
    have le := own.type_le
    rw [locRib] at le
    exact absurd le (by decide)
  have addresses : addressText message = addressText h.toPeerHeader := by
    rw [addressText_eq_iff, SameAddress, own.family, own.address]
    simp
  rw [peerInfoKey_eq _ notLocRib, peerInfoKey_eq _ h.notLocRib, addresses,
    distinguisherText_congr own.rd]

theorem PeerRun.frame {h : InstanceHeader} {peers peers' : PeerInfoMap}
    (run : PeerRun D h.toPeerHeader peers peers') {key : Text}
    (other : ∀ clock, key ≠ peerInfoKey (h.peer clock)) : peers' key = peers key := by
  induction run with
  | none => rfl
  | next env message len type stream rest more own read later ih =>
    refine ih.trans (readIncomingMsg_frame D read ?_)
    rw [own.key env.clock env.clock]
    exact other env.clock

/-- Two peers of one router do not meet: neither in the table, nor in what is hashed, nor,
as long as the hash function does not confuse just these two byte strings, in their hash
identifiers; and no messages of the first change what is known of the second. -/
structure Isolated (h h' : InstanceHeader) : Prop where
  keys : ∀ clock clock', peerInfoKey (h.peer clock) ≠ peerInfoKey (h'.peer clock')
  hashed : ∀ clock clock' router,
    peerHashInput (h.peer clock) router ≠ peerHashInput (h'.peer clock') router
  hashIds : ∀ (md5 : Md5) clock clock' router,
    Set.InjOn md5 {peerHashInput (h.peer clock) router, peerHashInput (h'.peer clock') router} →
      md5 (peerHashInput (h.peer clock) router) ≠ md5 (peerHashInput (h'.peer clock') router)
  state : ∀ peers peers', PeerRun D h.toPeerHeader peers peers' →
    ∀ clock, peers' (peerInfoKey (h'.peer clock)) = peers (peerInfoKey (h'.peer clock))

/-- Two peers are isolated exactly when their texts keep them apart. -/
theorem isolated_iff (h h' : InstanceHeader) :
    Isolated D h h' ↔ Separate h.toPeerHeader h'.toPeerHeader := by
  constructor
  · intro isolated
    by_contra alike
    exact isolated.keys (0, 0) (0, 0) ((keys_eq_iff h h' _ _).mpr alike)
  · intro separate
    have keys (clock clock' : Nat × Nat) :
        peerInfoKey (h.peer clock) ≠ peerInfoKey (h'.peer clock') :=
      fun same => (keys_eq_iff h h' _ _).mp same separate
    have hashed (clock clock' : Nat × Nat) (router : HashId) :
        peerHashInput (h.peer clock) router ≠ peerHashInput (h'.peer clock') router :=
      fun same => keys clock clock' ((hashInputs_eq_iff h h' _ _ router).mp same)
    refine ⟨keys, hashed, ?_, ?_⟩
    · intro md5 clock clock' router injective same
      exact hashed clock clock' router (injective (by simp) (by simp) same)
    · intro peers peers' run clock
      exact run.frame D (fun clock' => (keys clock' clock).symm)

end Run

/-! Two peers that differ in their addresses and distinguishers. -/

/-- A type 0 header, V flag clear, with the IPv4 address 10.0.0.`last`. -/
private def tenHeader (last admin assigned : UInt8) : InstanceHeader where
  bytes := [0, 0] ++ ([0, 0, 0, admin, 0, 0, 0, assigned] ++
    (List.replicate 12 0 ++ ([10, 0, 0, last] ++ List.replicate 16 0)))
  length_bytes := rfl
  type_le := by simp [PeerHeader.type, memOf_apply]
  rd_type := by simp [memOf_apply]

/-- 10.0.0.1 with 12:5 and 10.0.0.11 with 2:5 are both 10.0.0.112:5. -/
theorem shifted_peers_share_key :
    peerAddress (tenHeader 1 12 5).toPeerHeader ≠ peerAddress (tenHeader 11 2 5).toPeerHeader ∧
      peerInfoKey ((tenHeader 1 12 5).peer (0, 0)) = "10.0.0.112:5".toList ∧
      peerInfoKey ((tenHeader 11 2 5).peer (0, 0)) = "10.0.0.112:5".toList ∧
      ∀ router, peerHashInput ((tenHeader 1 12 5).peer (0, 0)) router =
        peerHashInput ((tenHeader 11 2 5).peer (0, 0)) router := by
  have key : peerInfoKey ((tenHeader 1 12 5).peer (0, 0)) = "10.0.0.112:5".toList := by
    decide +kernel
  have key' : peerInfoKey ((tenHeader 11 2 5).peer (0, 0)) = "10.0.0.112:5".toList := by
    decide +kernel
  exact ⟨by decide, key, key', fun router => (hashInputs_eq_iff _ _ _ _ router).mpr (key.trans key'.symm)⟩

end SonicBmp.Bmp.PeerIsolation
