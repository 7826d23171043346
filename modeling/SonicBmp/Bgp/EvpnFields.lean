/- module: SonicBmp/Bgp/EvpnFields
   digest: The fields of an EVPN record against the values on the wire: numbers that pass through int. -/

import SonicBmp.Bgp.EvpnLists

set_option autoImplicit false
set_option relaxedAutoImplicit false

namespace SonicBmp.Bgp.EvpnFields

open SonicBmp.Library.Memory
open SonicBmp.Library.Printing (Text decimal run_split not_mem_decimal)
open SonicBmp.Bgp.Common
open SonicBmp.Bgp.Nlri
open SonicBmp.Bgp.Evpn
open SonicBmp.Bgp.EvpnCodec
open SonicBmp.Bgp.EvpnLists
open SonicBmp.Bgp.LabelCodec (Label)
open SonicBmp.Bgp.ExtCommunity (parseMac)

/-! What a record should say. -/

/-- The `n` octets of a segment value from the `i`th on. -/
def segmentOctets (s : SegmentId) (i n : Nat) : List UInt8 := (s.value.toList.drop i).take n

/-- A segment identifier with its numbers unsigned. -/
def segmentText (s : SegmentId) : Text :=
  decimal s.type.toNat ++ ' ' ::
    match s.type.toNat with
    | 0 => hexText (segmentOctets s 0 9)
    | 1 => macText (segmentOctets s 0 6) ++ ' ' :: decimal (bigEndian (segmentOctets s 6 2))
    | 2 => macText (segmentOctets s 0 6) ++ ' ' :: decimal (bigEndian (segmentOctets s 6 2))
    | 3 => macText (segmentOctets s 0 6) ++ ' ' :: decimal (bigEndian (segmentOctets s 6 3))
    | _ => decimal (bigEndian (segmentOctets s 0 4)) ++ ' ' :: decimal (bigEndian (segmentOctets s 4 4))

/-- The 24 bits of a label field as one number. -/
def labelNumber (l : Label) : Nat := bigEndian l.bytes

/-- The record says what the route says, an absent field being empty or zero. -/
structure Carries (t : EvpnTuple) (b : RouteBody) : Prop where
  tag : t.ethernetTagIdHex = hexText b.tag
  mac : t.mac = macText b.mac
  macLen : t.macLen = b.macLen
  ip : t.ip = b.ip.text
  ipLen : t.ipLen = b.ip.kind.bits
  origin : t.originatingRouterIp = b.origin.text
  originLen : t.originatingRouterIpLen = b.origin.kind.bits
  label1 : t.mplsLabel1 = b.label1.elim 0 labelNumber
  label2 : t.mplsLabel2 = b.label2.elim 0 labelNumber
  segment : t.ethernetSegmentIdentifier = b.segment?.elim [] segmentText

/-- The numbers of a route that an `int` has room for, and a segment type the parser knows. -/
structure Unsigned (b : RouteBody) : Prop where
  label1 : ∀ l ∈ b.label1, labelNumber l < 2 ^ 23
  label2 : ∀ l ∈ b.label2, labelNumber l < 2 ^ 23
  known : ∀ s ∈ b.segment?, s.type ≤ 5
  segment : ∀ s ∈ b.segment?, s.type = 4 ∨ s.type = 5 →
    bigEndian (segmentOctets s 0 4) < 2 ^ 31 ∧ bigEndian (segmentOctets s 4 4) < 2 ^ 31

/-! Labels. -/

theorem labelWord_eq (m : Mem) (p : Nat) : labelWord m p = 256 * bigEndian (readBytes m p 3) := by
  simp only [labelWord, bigEndian, readBytes, List.foldl_cons, List.foldl_nil, u8, Nat.add_assoc,
    Nat.reduceAdd]
  omega

theorem labelInt_eq_iff (l : Label) : labelInt l = labelNumber l ↔ labelNumber l < 2 ^ 23 := by
  have word : labelWord (memOf l.bytes) 0 = 256 * labelNumber l := by
    rw [labelWord_eq, (holds_memOf l.bytes).read_of_length (length_labelBytes l),
      labelNumber]
  rw [labelInt, mplsLabel, word, asInt]
  split <;> omega

theorem labelField_eq_iff (label : Option Label) :
    labelField label = label.elim 0 labelNumber ↔ ∀ l ∈ label, labelNumber l < 2 ^ 23 := by
  cases label with
  | none => exact ⟨fun _ => nofun, fun _ => rfl⟩
  | some l =>
    show labelInt l = labelNumber l ↔ _
    rw [labelInt_eq_iff]
    simp

/-! Segment identifiers. -/

theorem intText_asInt_eq_iff {n : Nat} (small : n < 2 ^ 32) :
    intText (asInt n) = decimal n ↔ n < 2 ^ 31 := by
  rw [asInt]
  split
  · rename_i positive
    rw [intText, if_neg (by omega), Int.natAbs_natCast]
    exact ⟨fun _ => positive, fun _ => rfl⟩
  · rename_i negative
    rw [intText, if_pos (by omega)]
    constructor
    · intro same
      have minus : '-' ∈ decimal n := by
        rw [← same]
        exact List.mem_cons_self
      exact absurd minus (not_mem_decimal rfl n)
    · exact fun positive => absurd positive negative

/-- Neither spelling of a number has a blank in it. -/
theorem intText_ne_blank (n : Int) : ∀ c ∈ intText n, c ≠ ' ' := by
  rintro c here rfl
  rw [intText] at here
  split at here
  · rcases List.mem_cons.mp here with minus | digit
    · cases minus
    · exact not_mem_decimal rfl _ digit
  · exact not_mem_decimal rfl _ here

theorem intText_pair_eq_iff {a b : Nat} (smallA : a < 2 ^ 32) (smallB : b < 2 ^ 32) :
    intText (asInt a) ++ ' ' :: intText (asInt b) = decimal a ++ ' ' :: decimal b ↔
      a < 2 ^ 31 ∧ b < 2 ^ 31 := by
  rw [← intText_asInt_eq_iff smallA, ← intText_asInt_eq_iff smallB]
  constructor
  · intro same
    have digits : ∀ c ∈ decimal a, c ≠ ' ' := by
      rintro c here rfl
      exact not_mem_decimal rfl _ here
    obtain ⟨first, -, second⟩ := run_split (· ≠ ' ') (intText_ne_blank _) digits
      (not_not.mpr rfl) (not_not.mpr rfl) same
    exact ⟨first, second⟩
  · rintro ⟨first, second⟩
    rw [first, second]

section Segment

variable (s : SegmentId)

theorem octets_at (i n : Nat) (inside : i + n ≤ 9) :
    readBytes (memOf s.bytes) (0 + 1 + i) n = segmentOctets s i n := by
  have held := holds_memOf s.bytes
  rw [SegmentId.bytes, holds_cons] at held
  rw [readBytes_within _ _ inside, segmentOctets, SegmentId.bytes,
    held.2.read_of_length Vector.length_toList]

theorem u32_at (i : Nat) (inside : i + 4 ≤ 9) :
    u32 (memOf s.bytes) (0 + 1 + i) = bigEndian (segmentOctets s i 4) := by
  rw [← bigEndian_four, octets_at s i 4 inside]

theorem parseMac_at : parseMac (memOf s.bytes) (0 + 1) = macText (segmentOctets s 0 6) := by
  rw [parseMac, octets_at s 0 6 (by decide), macText]

/-- The two numbers of segment types 4 and 5. -/
theorem numbers_eq_iff :
    intText (asInt (u32 (memOf s.bytes) (0 + 1))) ++ ' ' ::
        intText (asInt (u32 (memOf s.bytes) (0 + 1 + 4))) =
      decimal (bigEndian (segmentOctets s 0 4)) ++ ' ' :: decimal (bigEndian (segmentOctets s 4 4)) ↔
    bigEndian (segmentOctets s 0 4) < 2 ^ 31 ∧ bigEndian (segmentOctets s 4 4) < 2 ^ 31 := by
  have first : u32 (memOf s.bytes) (0 + 1) = bigEndian (segmentOctets s 0 4) :=
    u32_at s 0 (by decide)
  have second := u32_at s 4 (by decide)
  rw [← first, ← second]
  exact intText_pair_eq_iff (u32_lt _ _) (u32_lt _ _)

theorem printed_eq_iff :
    s.printed = some (segmentText s) ↔
      s.type ≤ 5 ∧ (s.type = 4 ∨ s.type = 5 →
        bigEndian (segmentOctets s 0 4) < 2 ^ 31 ∧ bigEndian (segmentOctets s 4 4) < 2 ^ 31) := by
  have raw := octets_at s 0 9 (by decide)
  have port : u16 (memOf s.bytes) (0 + 1 + 6) = bigEndian (segmentOctets s 6 2) := by
    rw [← bigEndian_two, octets_at s 6 2 (by decide)]
  have discriminator : labelWord (memOf s.bytes) (0 + 1 + 6) / 256 =
      bigEndian (segmentOctets s 6 3) := by
    rw [labelWord_eq, octets_at s 6 3 (by decide), Nat.mul_div_cancel_left _ (by decide)]
  rw [SegmentId.printed, parseEthernetSegmentIdentifier, segmentType_at, segmentText,
    UInt8.le_iff_toNat_le, ← UInt8.toNat_inj, ← UInt8.toNat_inj]
  show _ ↔ s.type.toNat ≤ 5 ∧ (s.type.toNat = 4 ∨ s.type.toNat = 5 → _)
  generalize s.type.toNat = type
  rcases type with _ | _ | _ | _ | _ | _ | n
  · simp [segmentValue, hexText, ← raw]
  · simp [segmentValue, parseMac_at, port]
  · simp [segmentValue, parseMac_at, port]
  · simp [segmentValue, parseMac_at, discriminator]
  · simpa [segmentValue] using numbers_eq_iff s
  · simpa [segmentValue] using numbers_eq_iff s
  · simp [segmentValue]

end Segment

theorem segmentField_eq_iff (segment : Option SegmentId) :
    segmentField segment = some (segment.elim [] segmentText) ↔
      (∀ s ∈ segment, s.type ≤ 5) ∧ ∀ s ∈ segment, s.type = 4 ∨ s.type = 5 →
        bigEndian (segmentOctets s 0 4) < 2 ^ 31 ∧ bigEndian (segmentOctets s 4 4) < 2 ^ 31 := by
  cases segment with
  | none => exact ⟨fun _ => ⟨nofun, nofun⟩, fun _ => rfl⟩
  | some s =>
    refine (printed_eq_iff s).trans ?_
    simp only [Option.mem_some_iff, forall_eq']

/-- A route's record says what the route says exactly if every label is below 2^23, the
segment type is known and the numbers of segment types 4 and 5 are below 2^31. -/
theorem evpn_carries_iff (r : EvpnRoute) :
    (∃ t, Alone r t ∧ Carries t r.body) ↔ Unsigned r.body := by
  constructor
  · rintro ⟨t, alone, carries⟩
    obtain ⟨segment, printed, rfl⟩ := Option.map_eq_some_iff.mp (alone_iff.mp alone)
    rw [show segment = _ from carries.segment] at printed
    obtain ⟨known, numbers⟩ := (segmentField_eq_iff _).mp printed
    exact ⟨(labelField_eq_iff _).mp carries.label1, (labelField_eq_iff _).mp carries.label2,
      known, numbers⟩
  · intro unsigned
    have printed := (segmentField_eq_iff _).mpr ⟨unsigned.known, unsigned.segment⟩
    refine ⟨_, alone_iff.mpr (Option.map_eq_some_iff.mpr ⟨_, printed, rfl⟩), ?_⟩
    exact {
      tag := rfl, mac := rfl, macLen := rfl, ip := rfl, ipLen := rfl, origin := rfl, originLen := rfl
      label1 := (labelField_eq_iff _).mpr unsigned.label1
      label2 := (labelField_eq_iff _).mpr unsigned.label2
      segment := rfl }

/-- A type 1 route with the label 2^23. -/
theorem label_bit_shown_as_sign :
    ¬ ∃ t, Alone ⟨Vector.replicate 8 0, .autoDiscovery ⟨0, Vector.replicate 9 0⟩
        (Vector.replicate 4 0) ⟨0x80, 0, 0⟩⟩ t ∧
      Carries t (.autoDiscovery ⟨0, Vector.replicate 9 0⟩ (Vector.replicate 4 0) ⟨0x80, 0, 0⟩) := by
  rintro ⟨t, alone, carries⟩
  obtain ⟨segment, -, rfl⟩ := Option.map_eq_some_iff.mp (alone_iff.mp alone)
  have small := (labelInt_eq_iff _).mp carries.label1
  exact absurd small (by decide)

end SonicBmp.Bgp.EvpnFields
