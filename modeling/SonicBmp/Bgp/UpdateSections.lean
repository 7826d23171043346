/- module: SonicBmp/Bgp/UpdateSections
   digest: The three sections that the UPDATE parser hands to the NLRI and attribute parsers. -/

import SonicBmp.Bgp.UpdateSafety

set_option autoImplicit false
set_option relaxedAutoImplicit false

namespace SonicBmp.Bgp.UpdateSections

open SonicBmp.Library.Memory
open SonicBmp.Bgp.Common
open SonicBmp.Bgp.Nlri
open SonicBmp.Bgp.Attributes
open SonicBmp.Bgp.Update
open SonicBmp.Bgp.UpdateSafety

/-- A range of the message body, by the offset of its first byte. -/
structure Section where
  start : Nat
  len : Nat
  deriving DecidableEq

def Section.stop (s : Section) : Nat := s.start + s.len

structure Sections where
  withdrawn : Section
  attributes : Section
  nlri : Section
  deriving DecidableEq

/-- The length fields of a message body, wherever the second one lies. -/
abbrev withdrawnLen (m : Mem) (data : Nat) : Nat := u16 m data

abbrev attrLen (m : Mem) (data : Nat) : Nat := u16 m (data + 2 + withdrawnLen m data)

/-- What `parseUpdateMsg` passes on: pointers and lengths, after the same checks and
with the same conversions; nothing when it gives the message up. -/
def handedSections (m : Mem) (data size : Nat) : Option Sections :=
  let w := withdrawnLen m data
  let a := attrLen m data
  if size < 2 then none
  else if size - 2 < w then none
  else if subSize size (4 + w) < a then none
  else some ⟨⟨2, w⟩, ⟨4 + w, a⟩, ⟨4 + w + a, subSize size (4 + w + a) % 65536⟩⟩

variable {D : Decoders}

/-- The three parsers, each over its section. -/
def runSections (m : Mem) (data : Nat) (s : Sections) (st : UpdateState D) :
    UpdateState D :=
  let withdrawn := parseNlriDataV4 st.info m (data + s.withdrawn.start) s.withdrawn.len
    st.data.withdrawn
  let st := parseAttributes D m (data + s.attributes.start) s.attributes.len
    { st with data := { st.data with withdrawn := withdrawn } }
  let advertised := parseNlriDataV4 st.info m (data + s.nlri.start) s.nlri.len st.data.advertised
  { st with data := { st.data with advertised := advertised } }

theorem withdrawnSection_eq (m : Mem) (data len : Nat) (st : UpdateState D) :
    withdrawnSection m data len st =
      { st with data := { st.data with
          withdrawn := parseNlriDataV4 st.info m data len st.data.withdrawn } } := by
  unfold withdrawnSection
  split
  · rfl
  · rename_i empty
    rw [parseNlriDataV4, if_pos (by omega)]

theorem runSections_eq (m : Mem) (data w a rest : Nat) (st : UpdateState D) :
    runSections m data ⟨⟨2, w⟩, ⟨4 + w, a⟩, ⟨4 + w + a, rest % 65536⟩⟩ st =
      nlriSection m (data + (4 + w + a)) rest (withdrawnAndAttributes D m data w a st) := by
  have start : data + 2 + w + 2 = data + (4 + w) := by omega
  rw [withdrawnAndAttributes_eq, withdrawnSection_eq, start]
  rfl

/-- The parser is its section table: it gives up, or returns its size argument and
leaves an End-of-RIB mark or what the three parsers make of the sections. -/
theorem parseUpdateMsg_eq_sections (info : PeerInfo) (m : Mem) (data : Nat) {size : Nat}
    (hsize : size < 2 ^ 64) :
    parseUpdateMsg D info m data size =
      match handedSections m data size with
      | none => (0, ⟨info, ParsedUpdateData.empty D⟩)
      | some s =>
        (size,
          if s.withdrawn.len = 0 ∧ size = 4 ∧ s.attributes.len = 0 then
            ⟨{ info with endOfRIB := true }, ParsedUpdateData.empty D⟩
          else runSections m data s ⟨info, ParsedUpdateData.empty D⟩) := by
  have w := u16_lt m data
  have a := u16_lt m (data + 2 + u16 m data)
  simp only [parseUpdateMsg, handedSections, withdrawnLen, attrLen]
  by_cases short : size < 2
  · rw [if_pos short, if_pos short]
  by_cases withdrawnShort : size - 2 < u16 m data
  · rw [if_neg short, if_neg short, if_pos withdrawnShort, if_pos withdrawnShort]
  by_cases attrShort : subSize size (4 + u16 m data) < u16 m (data + 2 + u16 m data)
  · rw [if_neg short, if_neg short, if_neg withdrawnShort, if_neg withdrawnShort,
      if_pos attrShort, if_pos attrShort]
  rw [if_neg short, if_neg short, if_neg withdrawnShort, if_neg withdrawnShort,
    if_neg attrShort, if_neg attrShort]
  have whole : subSize size (4 + u16 m data + u16 m (data + 2 + u16 m data)) = 0 ↔
      4 + u16 m data + u16 m (data + 2 + u16 m data) = size := by
    unfold subSize
    omega
  simp only
  by_cases marker : u16 m data = 0 ∧ size = 4 ∧ u16 m (data + 2 + u16 m data) = 0
  · rw [if_pos marker, if_pos ⟨marker.1, whole.mpr (by omega), marker.2.2⟩]
    congr 1
    omega
  · rw [if_neg marker, if_neg (fun h => marker ⟨h.1, by have := whole.mp h.2.1; omega, h.2.2⟩)]
    simp only [runSections_eq]
    by_cases rest : 0 < subSize size (4 + u16 m data + u16 m (data + 2 + u16 m data))
    · rw [if_pos rest]
    · have none_left : subSize size (4 + u16 m data + u16 m (data + 2 + u16 m data)) = 0 := by omega
      rw [if_neg rest, none_left, nlriSection_zero, whole.mp none_left]

/-! Where the sections lie. -/

/-- Both length fields and what they announce lie in the buffer. -/
def Fits (m : Mem) (data size : Nat) : Prop := 4 + withdrawnLen m data + attrLen m data ≤ size

instance (m : Mem) (data size : Nat) : Decidable (Fits m data size) :=
  inferInstanceAs (Decidable (_ ≤ _))

/-- Disjoint, in order, and the whole buffer but the two length fields. -/
def Sections.Cover (s : Sections) (size : Nat) : Prop :=
  s.withdrawn.start = 2 ∧ s.attributes.start = s.withdrawn.stop + 2 ∧
    s.nlri.start = s.attributes.stop ∧ s.nlri.stop = size

/-- The checks the parser really makes: a buffer that ends in the two bytes behind the
withdrawn routes makes the size left wrap around. -/
theorem handedSections_isSome (m : Mem) (data : Nat) {size : Nat} (hsize : size < 2 ^ 64) :
    (handedSections m data size).isSome ↔
      size = 2 + withdrawnLen m data ∨ size = 3 + withdrawnLen m data ∨ Fits m data size := by
  have w : withdrawnLen m data < 65536 := u16_lt m data
  have a : attrLen m data < 65536 := u16_lt m _
  unfold handedSections Fits subSize
  simp only
  split_ifs <;> simp <;> omega

theorem parseUpdateMsg_fst (info : PeerInfo) (m : Mem) (data : Nat) {size : Nat}
    (hsize : size < 2 ^ 64) :
    (parseUpdateMsg D info m data size).1 =
      if (handedSections m data size).isSome then size else 0 := by
  rw [parseUpdateMsg_eq_sections info m data hsize]
  cases handedSections m data size <;> rfl

theorem handedSections_of_fits {m : Mem} {data size : Nat} (hsize : size < 2 ^ 64)
    (fits : Fits m data size) :
    let w := withdrawnLen m data
    let a := attrLen m data
    handedSections m data size =
      some ⟨⟨2, w⟩, ⟨4 + w, a⟩, ⟨4 + w + a, (size - (4 + w + a)) % 65536⟩⟩ := by
  unfold Fits at fits
  unfold handedSections
  simp only
  rw [subSize_of_le (by omega) hsize, subSize_of_le fits hsize, if_neg (by omega),
    if_neg (by omega), if_neg (by omega)]

theorem cover_iff {w a size : Nat} (fits : 4 + w + a ≤ size) :
    Sections.Cover ⟨⟨2, w⟩, ⟨4 + w, a⟩, ⟨4 + w + a, (size - (4 + w + a)) % 65536⟩⟩ size ↔
      size < 4 + w + a + 65536 := by
  simp only [Sections.Cover, Section.stop, true_and]
  omega

/-- The contract of the body parser at one buffer: it succeeds exactly on buffers that
hold what their length fields announce, then returns the size, and its sections cover
the buffer. -/
def SectionContract (D : Decoders) (info : PeerInfo) (m : Mem) (data size : Nat) : Prop :=
  ((parseUpdateMsg D info m data size).1 ≠ 0 ↔ Fits m data size) ∧
    (Fits m data size → (parseUpdateMsg D info m data size).1 = size ∧
      ∃ s, handedSections m data size = some s ∧ s.Cover size)

/-- The contract holds except for the two sizes at which the check of the attributes
length wraps around, and for NLRI fields whose length does not fit `uint16_t`. -/
theorem sectionContract_iff (D : Decoders) (info : PeerInfo) (m : Mem) (data : Nat)
    (size : UInt64) :
    SectionContract D info m data size.toNat ↔
      size.toNat ≠ 2 + withdrawnLen m data ∧ size.toNat ≠ 3 + withdrawnLen m data ∧
        size.toNat < 4 + withdrawnLen m data + attrLen m data + 65536 := by
  have hsize : size.toNat < 2 ^ 64 := size.toNat_lt
  generalize size.toNat = size at hsize ⊢
  have accepted := handedSections_isSome m data hsize
  unfold SectionContract
  rw [parseUpdateMsg_fst info m data hsize]
  by_cases fits : Fits m data size
  · -- the table is then known, and only its last length can be wrong
    have room : 4 + withdrawnLen m data + attrLen m data ≤ size := fits
    rw [if_pos (accepted.mpr (Or.inr (Or.inr fits))), handedSections_of_fits hsize fits]
    simp only [Option.some.injEq, exists_eq_left', cover_iff room, fits, iff_true, true_and,
      true_implies]
    omega
  · -- the parser is right to fail, and does so unless the check wrapped around
    have short : ¬ 4 + withdrawnLen m data + attrLen m data ≤ size := fits
    simp only [fits, or_false] at accepted
    simp only [fits, iff_false, not_not, false_implies, and_true, ite_eq_right_iff, accepted]
    omega

/-- A body of two zero bytes: the attributes length is taken from behind the buffer. -/
theorem two_byte_body_breaks_contract :
    ¬ SectionContract Decoders.silent PeerInfo.fresh (memOf [0, 0]) 0 2 := by
  intro contract
  have accepted : (parseUpdateMsg Decoders.silent PeerInfo.fresh (memOf [0, 0]) 0 2).1 = 2 := by
    rw [parseUpdateMsg_fst PeerInfo.fresh (memOf [0, 0]) 0 (by decide)]
    decide
  have fits := contract.1.mp (by rw [accepted]; decide)
  exact absurd fits (by decide)

end SonicBmp.Bgp.UpdateSections
