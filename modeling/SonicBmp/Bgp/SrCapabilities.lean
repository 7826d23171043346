/- module: SonicBmp/Bgp/SrCapabilities
   digest: The SR capabilities of a node: which lists of ranges and SIDs are printed as they were sent. -/

import SonicBmp.Bgp.LinkStateAttr

set_option autoImplicit false
set_option relaxedAutoImplicit false

namespace SonicBmp.Bgp.SrCapabilities

open SonicBmp.Library.Memory
open SonicBmp.Library.Printing
open SonicBmp.Library.CStrings
open SonicBmp.Bus.Kafka (textBytes length_textBytes)
open SonicBmp.Bgp.LinkState (LsData LsNode NodeDescriptor)
open SonicBmp.Bgp.LinkStateAttr

/-! Entries. -/

/-- A SID/Label sub-TLV: a label of three octets or an index of four. -/
inductive SidLabel
  | label (value : Fin (2 ^ 24))
  | index (value : UInt32)
  deriving DecidableEq

namespace SidLabel

def size : SidLabel → Nat
  | .label _ => 3
  | .index _ => 4

def value : SidLabel → Nat
  | .label value => value.val
  | .index value => value.toNat

/-- Its first octet. -/
def top : SidLabel → Nat
  | .label value => value.val / 65536
  | .index value => value.toNat / 16777216

def bytes : SidLabel → List UInt8
  | .label value => put24 value.val
  | .index value => put32 value.toNat

theorem size_le (s : SidLabel) : s.size ≤ 4 := by
  cases s with
  | label value => exact Nat.le_succ 3
  | index value => exact le_rfl

theorem length_bytes (s : SidLabel) : s.bytes.length = s.size := by
  cases s <;> rfl

end SidLabel

structure SrEntry where
  range : Fin (2 ^ 24)
  sid : SidLabel
  deriving DecidableEq

namespace SrEntry

def bytes (e : SrEntry) : List UInt8 :=
  put24 e.range.val ++ (put16 1161 ++ (put16 e.sid.size ++ e.sid.bytes))

def text (e : SrEntry) : Text := decimal e.range.val ++ ' ' :: decimal e.sid.value

theorem length_bytes (e : SrEntry) : e.bytes.length = 7 + e.sid.size := by
  simp only [bytes, List.length_append, length_put24, length_put16, e.sid.length_bytes]
  omega

end SrEntry

/-- The TLV: flags, a reserved octet and the entries. -/
def srTlv (flags reserved : UInt8) (entries : List SrEntry) : List UInt8 :=
  put16 1034 ++ (put16 (2 + (entries.flatMap SrEntry.bytes).length) ++
    (flags :: reserved :: entries.flatMap SrEntry.bytes))

/-- The flags as they are printed for a node of this protocol. -/
def srFlags (protocol : Text) (flags : UInt8) : Text :=
  protocolFlags protocol (parseFlagsToString flags.toNat lsFlagsSrCapIsis) (decimal flags.toNat)

/-- The flags, and every range with its SID, in order. -/
def srText (protocol : Text) (flags : UInt8) (entries : List SrEntry) : Text :=
  srFlags protocol flags ++ ' ' :: commas (entries.map SrEntry.text)

/-! The turns of the loop. -/

section Turns

variable (m : Mem)

/-- What is printed at each turn: the range, and the SID if the loop goes on. -/
def srPairs (len l p : Nat) : List (Nat × Option Nat) :=
  if l < len then
    if u16 m (p + 3) = 1161 ∧ u16 m (p + 5) = 3 then
      (u24 m p, some (u24 m (p + 7))) :: srPairs len (l + 10) (p + 7)
    else if u16 m (p + 3) = 1161 ∧ u16 m (p + 5) = 4 then
      (u24 m p, some (u32 m (p + 7))) :: srPairs len (l + 11) (p + 7)
    else [(u24 m p, none)]
  else []
termination_by len - l

def pairText : Nat × Option Nat → Text
  | (range, none) => decimal range
  | (range, some sid) => decimal range ++ ' ' :: decimal sid

variable {m} {len l p : Nat}

theorem srPairs_done (done : ¬ l < len) : srPairs m len l p = [] := by
  rw [srPairs, if_neg done]

/-- A turn that prints a range and a SID. -/
theorem srPairs_cons_iff {range sid : Nat} {rest : List (Nat × Option Nat)} :
    srPairs m len l p = (range, some sid) :: rest ↔
      l < len ∧ u24 m p = range ∧ u16 m (p + 3) = 1161 ∧
        ((u16 m (p + 5) = 3 ∧ u24 m (p + 7) = sid ∧ srPairs m len (l + 10) (p + 7) = rest) ∨
          (u16 m (p + 5) = 4 ∧ u32 m (p + 7) = sid ∧ srPairs m len (l + 11) (p + 7) = rest)) := by
  rw [srPairs]
  split
  · rename_i more
    split
    · rename_i short
      simp [more, short, and_assoc]
    · split
      · rename_i long
        simp [more, long, and_assoc]
      · rename_i notShort notLong
        simp only [List.cons.injEq, Prod.mk.injEq, reduceCtorEq, and_false, false_and, false_iff]
        rintro ⟨-, -, type, ⟨size, -⟩ | ⟨size, -⟩⟩
        · exact notShort ⟨type, size⟩
        · exact notLong ⟨type, size⟩
  · rename_i done
    simp [done]

theorem srPairs_eq_nil_iff : srPairs m len l p = [] ↔ len ≤ l := by
  constructor
  · intro none_
    by_contra more
    rw [srPairs, if_pos (not_le.mp more)] at none_
    split at none_
    · cases none_
    · split at none_ <;> cases none_
  · intro done
    exact srPairs_done (not_lt.mpr done)

/-- The text of the later turns. -/
theorem srEntries_later (late : 12 ≤ l) :
    srEntries m len l p = (srPairs m len l p).flatMap fun pair => ", ".toList ++ pairText pair := by
  fun_induction srPairs m len l p with
  | case1 l p more short ih =>
    rw [srEntries, if_pos more, if_pos late, if_pos short.1, if_pos short.2, ih (by omega),
      List.flatMap_cons, pairText, List.append_assoc, List.append_assoc, List.cons_append]
  | case2 l p more notShort long ih =>
    have other : u16 m (p + 5) ≠ 3 := fun size => notShort ⟨long.1, size⟩
    rw [srEntries, if_pos more, if_pos late, if_pos long.1, if_neg other, if_pos long.2,
      ih (by omega), List.flatMap_cons, pairText, List.append_assoc, List.append_assoc,
      List.cons_append]
  | case3 l p more notShort notLong =>
    rw [srEntries, if_pos more, if_pos late, List.flatMap_singleton, pairText]
    split
    · rename_i type
      rw [if_neg fun size => notShort ⟨type, size⟩, if_neg fun size => notLong ⟨type, size⟩,
        List.append_nil]
    · rw [List.append_nil]
  | case4 l p done => rw [srEntries, if_neg done, List.flatMap_nil]

/-- The whole text behind the flags. -/
theorem srEntries_eq : srEntries m len 2 p = commas ((srPairs m len 2 p).map pairText) := by
  rw [srEntries, srPairs]
  split
  · rw [if_neg (by decide : ¬ 12 ≤ 2), List.nil_append]
    by_cases type : u16 m (p + 3) = 1161
    · by_cases short : u16 m (p + 5) = 3
      · rw [if_pos type, if_pos short, if_pos ⟨type, short⟩, srEntries_later (by decide),
          List.map_cons, commas_cons, List.flatMap_map, pairText, List.append_assoc,
          List.cons_append]
      · by_cases long : u16 m (p + 5) = 4
        · rw [if_pos type, if_neg short, if_pos long, if_neg fun both => short both.2,
            if_pos ⟨type, long⟩, srEntries_later (by decide), List.map_cons, commas_cons,
            List.flatMap_map, pairText, List.append_assoc, List.cons_append]
        · rw [if_pos type, if_neg short, if_neg long, if_neg fun both => short both.2,
            if_neg fun both => long both.2, List.map_singleton, commas_cons]
          rfl
    · rw [if_neg type, if_neg fun both => type both.1, if_neg fun both => type both.1,
        List.map_singleton, commas_cons]
      rfl
  · rfl

end Turns

/-! Reading the text back. -/

theorem comma_not_mem_pairText (pair : Nat × Option Nat) : ',' ∉ pairText pair := by
  obtain ⟨range, _ | sid⟩ := pair
  · exact not_mem_decimal rfl range
  · simp only [pairText, List.mem_append, List.mem_cons, not_or]
    exact ⟨not_mem_decimal rfl range, by decide, not_mem_decimal rfl sid⟩

theorem pairText_injective : Function.Injective pairText := by
  have numbers (pair : Nat × Option Nat) :
      pairText pair = unwords ((pair.1 :: pair.2.toList).map decimal) := by
    obtain ⟨range, _ | sid⟩ := pair
    · simp [pairText, unwords_cons]
    · simp [pairText, unwords_cons]
  have apart (ns : List Nat) : ∀ w ∈ ns.map decimal, ' ' ∉ w := by
    intro w here
    obtain ⟨n, -, rfl⟩ := List.mem_map.mp here
    exact not_mem_decimal rfl n
  intro pair pair' same
  rw [numbers, numbers] at same
  have words := unwords_injective_of_ne_nil (apart _) (apart _) (by simp) (by simp) same
  obtain ⟨range, sid⟩ := List.cons.inj (List.map_injective_iff.mpr decimal_injective words)
  exact Prod.ext range (by simpa using congrArg List.head? sid)

/-! Entries in memory. -/

section Held

variable {m : Mem} {len l p : Nat}

theorem entry_fields {e : SrEntry} (held : Holds m p e.bytes) :
    u24 m p = e.range.val ∧ u16 m (p + 3) = 1161 ∧ u16 m (p + 5) = e.sid.size ∧
      Holds m (p + 7) e.sid.bytes := by
  simp only [SrEntry.bytes, holds_append, length_put24, length_put16, Nat.add_assoc,
    Nat.reduceAdd] at held
  obtain ⟨range, type, size, sid⟩ := held
  have small := e.sid.size_le
  exact ⟨range.u24 e.range.isLt, type.u16 (by decide), size.u16 (by omega), sid⟩

theorem label_read {value : Fin (2 ^ 24)} (held : Holds m p (SidLabel.label value).bytes) :
    u24 m p = value.val := Holds.u24 held value.isLt

theorem index_read {value : UInt32} (held : Holds m p (SidLabel.index value).bytes) :
    u32 m p = value.toNat := Holds.u32 held value.toNat_lt

/-- At an entry the loop prints it, and is behind the header of its sub-TLV. -/
theorem srPairs_entry {e : SrEntry} (more : l < len) (held : Holds m p e.bytes) :
    srPairs m len l p =
      (e.range.val, some e.sid.value) :: srPairs m len (l + 7 + e.sid.size) (p + 7) := by
  obtain ⟨range, type, size, sid⟩ := entry_fields held
  rw [srPairs_cons_iff]
  refine ⟨more, range, type, ?_⟩
  obtain ⟨_, label | index⟩ := e
  · exact Or.inl ⟨size, label_read sid, rfl⟩
  · exact Or.inr ⟨size, index_read sid, rfl⟩

/-- The first SID is read a second time, as a range with a sub-TLV behind it. These are the
only two entries for which this gives the second one. -/
def Coincide (a b : SrEntry) : Prop :=
  (a.sid = .label 0x048900 ∧ b = ⟨0x048900, .index 0x89000489⟩) ∨
    (a.sid = .index 0x89000304 ∧ b = ⟨0x890003, .label 0x048900⟩) ∨
    (a.sid = .index 0x89000404 ∧ b = ⟨0x890004, .index 0x04890004⟩)

instance (a b : SrEntry) : Decidable (Coincide a b) :=
  inferInstanceAs (Decidable (
    (a.sid = .label 0x048900 ∧ b = ⟨0x048900, .index 0x89000489⟩) ∨
      (a.sid = .index 0x89000304 ∧ b = ⟨0x890003, .label 0x048900⟩) ∨
      (a.sid = .index 0x89000404 ∧ b = ⟨0x890004, .index 0x04890004⟩)))

theorem u16_octets {n : Nat} (read : u16 m p = n) : u8 m p = n / 256 ∧ u8 m (p + 1) = n % 256 := by
  have := u8_lt m (p + 1)
  unfold u16 at read
  omega

theorem u24_octets {n : Nat} (read : u24 m p = n) :
    u8 m p = n / 65536 ∧ u8 m (p + 1) = n % 65536 / 256 ∧ u8 m (p + 2) = n % 65536 % 256 := by
  have := u16_lt m (p + 1)
  unfold u24 at read
  obtain ⟨second, third⟩ := u16_octets (show u16 m (p + 1) = n % 65536 by omega)
  exact ⟨by omega, second, third⟩

/-- The octets of an entry up to the first one of its SID. -/
theorem entry_octets {e : SrEntry} (held : Holds m p e.bytes) :
    u8 m p = e.range.val / 65536 ∧ u8 m (p + 1) = e.range.val % 65536 / 256 ∧
      u8 m (p + 2) = e.range.val % 65536 % 256 ∧ u8 m (p + 3) = 4 ∧
      u8 m (p + 4) = 0x89 ∧ u8 m (p + 5) = 0 ∧ u8 m (p + 6) = e.sid.size ∧
      u8 m (p + 7) = e.sid.top := by
  obtain ⟨range, type, size, sid⟩ := entry_fields held
  obtain ⟨first, second, third⟩ := u24_octets range
  obtain ⟨typeHigh, typeLow⟩ := u16_octets type
  obtain ⟨sizeHigh, sizeLow⟩ := u16_octets size
  have top : u8 m (p + 7) = e.sid.top := by
    cases kind : e.sid with
    | label value =>
      rw [kind] at sid
      exact (u24_octets (label_read sid)).1
    | index value =>
      rw [kind] at sid
      have read := index_read sid
      have := u16_lt m (p + 7 + 2)
      unfold u32 at read
      have high := (u16_octets (show u16 m (p + 7) = value.toNat / 65536 by omega)).1
      rw [high, SidLabel.top]
      omega
  have small : e.sid.size < 256 := lt_of_le_of_lt e.sid.size_le (by decide)
  exact ⟨first, second, third, typeHigh, typeLow, sizeHigh.trans (Nat.div_eq_of_lt small),
    sizeLow.trans (Nat.mod_eq_of_lt small), top⟩

/-- What stands where the second turn reads, if the first SID is a label. -/
theorem second_of_label {range : Fin (2 ^ 24)} {label : Fin (2 ^ 24)} {b : SrEntry}
    (held : Holds m p ((⟨range, .label label⟩ : SrEntry).bytes ++ b.bytes)) :
    u24 m (p + 7) = label.val ∧ u16 m (p + 10) = b.range.val / 256 ∧
      u16 m (p + 12) = b.range.val % 256 * 256 + 4 ∧
      u32 m (p + 14) = 0x89000000 + b.sid.size * 256 + b.sid.top ∧ u8 m (p + 17) = b.sid.top := by
  rw [holds_append, SrEntry.length_bytes] at held
  obtain ⟨-, -, -, sid⟩ := entry_fields held.1
  have here := entry_octets held.2
  simp only [SidLabel.size, u32, u16, Nat.add_assoc, Nat.reduceAdd] at here ⊢
  refine ⟨label_read sid, ?_, ?_, ?_, ?_⟩ <;> omega

/-- The same if it is an index. -/
theorem second_of_index {range : Fin (2 ^ 24)} {index : UInt32} {b : SrEntry}
    (held : Holds m p ((⟨range, .index index⟩ : SrEntry).bytes ++ b.bytes)) :
    u24 m (p + 7) = index.toNat / 256 ∧
      u16 m (p + 10) = index.toNat % 256 * 256 + b.range.val / 65536 ∧
      u16 m (p + 12) = b.range.val % 65536 ∧ u24 m (p + 14) = 0x048900 ∧
      u32 m (p + 14) = 0x04890000 + b.sid.size ∧
      u16 m (p + 17) = b.sid.size * 256 + b.sid.top := by
  rw [holds_append, SrEntry.length_bytes] at held
  obtain ⟨-, -, -, sid⟩ := entry_fields held.1
  have here := entry_octets held.2
  have read := index_read sid
  have last := u8_lt m (p + 10)
  have split : u24 m (p + 7) * 256 + u8 m (p + 10) = index.toNat := by
    rw [← read]
    simp only [u32, u24, u16, Nat.add_assoc, Nat.reduceAdd]
    omega
  have high : u24 m (p + 7) = index.toNat / 256 := by omega
  have low : u8 m (p + 10) = index.toNat % 256 := by omega
  clear split read
  simp only [SidLabel.size, u32, u24, u16, Nat.add_assoc, Nat.reduceAdd] at here ⊢
  refine ⟨high, ?_, ?_, ?_, ?_, ?_⟩ <;> omega

theorem srPairs_second_iff {a b : SrEntry} (held : Holds m p (a.bytes ++ b.bytes)) :
    srPairs m (16 + a.sid.size + b.sid.size) (9 + a.sid.size) (p + 7) =
      [(b.range.val, some b.sid.value)] ↔ Coincide a b := by
  rw [srPairs_cons_iff, srPairs_eq_nil_iff, srPairs_eq_nil_iff]
  obtain ⟨range, label | index⟩ := a
  · have second := second_of_label held
    obtain ⟨range', label' | index'⟩ := b
    · simp [SidLabel.size, SidLabel.value, SidLabel.top, Coincide, Fin.ext_iff, Nat.add_assoc] at second ⊢
      omega
    · have small' := index'.toNat_lt
      simp [SidLabel.size, SidLabel.value, SidLabel.top, Coincide, Fin.ext_iff, ← UInt32.toNat_inj,
        Nat.add_assoc] at second ⊢
      omega
  · have second := second_of_index held
    obtain ⟨range', label' | index'⟩ := b
    · simp [SidLabel.size, SidLabel.value, SidLabel.top, Coincide, Fin.ext_iff, ← UInt32.toNat_inj,
        Nat.add_assoc] at second ⊢
      omega
    · have small' := index'.toNat_lt
      simp [SidLabel.size, SidLabel.value, SidLabel.top, Coincide, Fin.ext_iff, ← UInt32.toNat_inj,
        Nat.add_assoc] at second ⊢
      omega

/-- Even then a third entry is lost: at the third turn the type is that of no sub-TLV. -/
theorem srPairs_third_ne {a b : SrEntry} (held : Holds m p (a.bytes ++ b.bytes)) (range sid : Nat)
    (rest : List (Nat × Option Nat)) :
    srPairs m len l (p + 7) ≠ (b.range.val, some b.sid.value) :: (range, some sid) :: rest := by
  intro turns
  rw [srPairs_cons_iff] at turns
  obtain ⟨-, range', type', turns⟩ := turns
  have third : u16 m (p + 17) = 1161 := by
    rcases turns with ⟨-, -, turns⟩ | ⟨-, -, turns⟩ <;> exact (srPairs_cons_iff.mp turns).2.2.1
  obtain ⟨_, label | index⟩ := a
  · have second := second_of_label held
    have top := (u16_octets third).1
    obtain ⟨_, label' | index'⟩ := b
    · simp [SidLabel.size, SidLabel.value, SidLabel.top, Nat.add_assoc] at second top turns range' type'
      omega
    · simp [SidLabel.size, SidLabel.value, SidLabel.top, Nat.add_assoc] at second top turns range' type'
      omega
  · have second := second_of_index held
    obtain ⟨_, label' | index'⟩ := b
    · simp [SidLabel.size, SidLabel.value, SidLabel.top, Nat.add_assoc] at second turns range' type'
      omega
    · simp [SidLabel.size, SidLabel.value, SidLabel.top, Nat.add_assoc] at second turns range' type'
      omega

/-- The lists that are printed as they were sent: those of one entry, and the coincidences. -/
def Recovered : List SrEntry → Prop
  | [] => False
  | [_] => True
  | [a, b] => Coincide a b
  | _ :: _ :: _ :: _ => False

def SrEntry.pair (e : SrEntry) : Nat × Option Nat := (e.range.val, some e.sid.value)

theorem srPairs_eq_iff {entries : List SrEntry} (some_ : entries ≠ [])
    (held : Holds m p (entries.flatMap SrEntry.bytes)) :
    srPairs m (2 + (entries.flatMap SrEntry.bytes).length) 2 p = entries.map SrEntry.pair ↔
      Recovered entries := by
  obtain ⟨a, entries, rfl⟩ := List.exists_cons_of_ne_nil some_
  rw [List.flatMap_cons] at held ⊢
  have first := ((holds_append m p _ _).mp held).1
  have long : 2 < 2 + (a.bytes ++ entries.flatMap SrEntry.bytes).length := by
    rw [List.length_append, a.length_bytes]
    omega
  rw [srPairs_entry long first, List.map_cons, SrEntry.pair, List.cons.injEq, eq_self_iff_true,
    true_and]
  cases entries with
  | nil =>
    rw [List.map_nil, srPairs_eq_nil_iff, List.flatMap_nil, List.append_nil, a.length_bytes]
    simp only [Recovered, iff_true]
    omega
  | cons b entries =>
    rw [List.flatMap_cons, ← List.append_assoc] at held
    have two := ((holds_append m p _ _).mp held).1
    cases entries with
    | nil =>
      have total : 2 + (a.bytes ++ [b].flatMap SrEntry.bytes).length =
          16 + a.sid.size + b.sid.size := by
        simp only [List.flatMap_singleton, List.length_append, SrEntry.length_bytes]
        omega
      rw [total]
      exact srPairs_second_iff two
    | cons c entries =>
      simp only [Recovered, iff_false]
      exact srPairs_third_ne two _ _ _

end Held

/-! The decoded text. -/

section Decoded

variable (stale : Text) (ls : LsData) (m : Mem) (attrLen data : Nat) (attrs : LsAttrs)

def nodeProtocol : Text := front stale (ls.nodes.map (·.protocol))

/-- The TLV at `data` gives the string that lists its flags and entries, and a slot that was
not in use holds it. -/
structure SrListed (flags : UInt8) (entries : List SrEntry) : Prop where
  string : srCapabilitiesText (nodeProtocol stale ls) m (u16 m (data + 2)) (data + 4) =
    srText (nodeProtocol stale ls) flags entries
  slot : attrs 1034 = none →
    (slotOf (parseAttrLinkStateTLV stale ls m attrLen data attrs).2 1034).text =
      textBytes (srText (nodeProtocol stale ls) flags entries)

variable {stale ls m attrLen data attrs} {flags reserved : UInt8} {entries : List SrEntry}

theorem length_bytes_le (entries : List SrEntry) :
    (entries.flatMap SrEntry.bytes).length ≤ 11 * entries.length := by
  induction entries with
  | nil => exact le_rfl
  | cons e entries ih =>
    have size := e.sid.size_le
    rw [List.flatMap_cons, List.length_append, e.length_bytes, List.length_cons]
    omega

theorem length_le_commas (entries : List SrEntry) :
    entries.length ≤ (commas (entries.map SrEntry.text)).length := by
  have shown (e : SrEntry) : 1 ≤ e.text.length := by
    rw [SrEntry.text, List.length_append, List.length_cons]
    omega
  cases entries with
  | nil => exact Nat.zero_le _
  | cons e entries =>
    have first := shown e
    rw [List.map_cons, commas_cons, List.length_append, List.length_cons]
    induction entries with
    | nil => simpa using first
    | cons e' entries ih =>
      have next := shown e'
      simp only [List.map_cons, List.flatMap_cons, List.length_append, List.length_cons] at ih ⊢
      omega

/-- The fields of the TLV. -/
theorem tlv_fields (small : 2 + (entries.flatMap SrEntry.bytes).length < 65536)
    (held : Holds m data (srTlv flags reserved entries)) :
    u16 m data = 1034 ∧ u16 m (data + 2) = 2 + (entries.flatMap SrEntry.bytes).length ∧
      u8 m (data + 4) = flags.toNat ∧ Holds m (data + 6) (entries.flatMap SrEntry.bytes) := by
  simp only [srTlv, holds_append, length_put16, holds_cons, Nat.add_assoc, Nat.reduceAdd] at held
  obtain ⟨type, length, first, -, rest⟩ := held
  exact ⟨type.u16 (by decide), length.u16 small, congrArg UInt8.toNat first, rest⟩

/-- The string is right exactly if the turns give the entries. -/
theorem srCapabilitiesText_eq_iff (protocol : Text) (some_ : entries ≠ [])
    (small : 2 + (entries.flatMap SrEntry.bytes).length < 65536)
    (held : Holds m data (srTlv flags reserved entries)) :
    srCapabilitiesText protocol m (u16 m (data + 2)) (data + 4) = srText protocol flags entries ↔
      Recovered entries := by
  obtain ⟨-, len, first, rest⟩ := tlv_fields small held
  rw [← srPairs_eq_iff some_ rest, srCapabilitiesText, srText, srFlags, first, len, srEntries_eq]
  have turns : srPairs m (2 + (entries.flatMap SrEntry.bytes).length) 2 (data + 6) ≠ [] := by
    obtain ⟨e, entries, rfl⟩ := List.exists_cons_of_ne_nil some_
    rw [ne_eq, srPairs_eq_nil_iff, List.flatMap_cons, List.length_append, e.length_bytes]
    omega
  have texts : entries.map SrEntry.text = (entries.map SrEntry.pair).map pairText := by
    rw [List.map_map]
    rfl
  rw [List.append_cancel_left_eq, List.cons.injEq, eq_self_iff_true, true_and, texts]
  have apart (pairs : List (Nat × Option Nat)) : ∀ w ∈ pairs.map pairText, ',' ∉ w := by
    intro w here
    obtain ⟨pair, -, rfl⟩ := List.mem_map.mp here
    exact comma_not_mem_pairText pair
  constructor
  · intro same
    exact List.map_injective_iff.mpr pairText_injective
      (commas_injective (apart _) (apart _) (by simpa using turns) (by simpa using some_) same)
  · intro same
    rw [same]

theorem srText_octets (protocol : Text) : ∀ c ∈ srText protocol flags entries,
    0 < c.toNat ∧ c.toNat < 256 := by
  have front : ItemText (srFlags protocol flags) :=
    itemText_protocolFlags protocol (itemText_flags (by decide) _) (itemText_decimal _)
  have items (e : SrEntry) : ItemText e.text := by
    simp only [SrEntry.text, itemText_append, itemText_cons, itemText_decimal, and_true, true_and]
    decide
  intro c here
  rcases List.mem_append.mp here with here | here
  · exact itemChar_octet (front c here)
  · rcases List.mem_cons.mp here with rfl | here
    · decide
    · exact commas_octets items entries c here

/-- A list of ranges and SIDs comes out as it was sent exactly if it has one entry, or is one of
the coincidences. -/
theorem sr_capabilities_listed_iff (stale : Text) (ls : LsData) (m : Mem) (attrLen data : Nat)
    (attrs : LsAttrs) (flags reserved : UInt8) (entries : List SrEntry) (some_ : entries ≠ [])
    (fits : (srText (nodeProtocol stale ls) flags entries).length ≤ 255)
    (held : Holds m data (srTlv flags reserved entries))
    (whole : (srTlv flags reserved entries).length ≤ attrLen) :
    SrListed stale ls m attrLen data attrs flags entries ↔ Recovered entries := by
  have small : 2 + (entries.flatMap SrEntry.bytes).length < 65536 := by
    have bytes := length_bytes_le entries
    have items := length_le_commas entries
    rw [srText, List.length_append, List.length_cons] at fits
    omega
  have string := srCapabilitiesText_eq_iff (nodeProtocol stale ls) some_ small held
  obtain ⟨type, len, -, -⟩ := tlv_fields small held
  constructor
  · intro listed
    exact string.mp listed.string
  · intro recovered
    have text := string.mpr recovered
    refine ⟨text, fun unused => ?_⟩
    have long : ¬ attrLen < 4 := by
      simp only [srTlv, List.length_append, length_put16] at whole
      omega
    have slot : slotOf (parseAttrLinkStateTLV stale ls m attrLen data attrs).2 1034 =
        (CArray.zero 255).put 0 (textBytes (srText (nodeProtocol stale ls) flags entries)) := by
      rw [← text]
      simp [parseAttrLinkStateTLV, if_neg long, type, tlvOps, updateSlot, slotOf, unused,
        SlotOp.apply, nodeProtocol]
    rw [slot]
    refine CArray.text_put_zero (nul_not_mem_textBytes (srText_octets _)) ?_
    rw [length_textBytes]
    exact fits

end Decoded

/-- A node of level 1. -/
def isisNode : LsData := ⟨[LsNode.of 0 1 NodeDescriptor.zero], [], []⟩

/-- One range of 1000 labels from 16000 on. -/
theorem sr_capabilities_one_range :
    SrListed [] isisNode (memOf (srTlv 0x80 0 [⟨1000, .label 16000⟩])) 16 0 (fun _ => none) 0x80
      [⟨1000, .label 16000⟩] :=
  (sr_capabilities_listed_iff [] isisNode _ 16 0 (fun _ => none) 0x80 0 [⟨1000, .label 16000⟩]
    (List.cons_ne_nil _ _) (by decide +kernel) (holds_memOf _) (by decide)).mpr trivial

/-- A second range, of 2000 labels from 24000 on: it comes out as ", 16000". -/
theorem sr_second_range_lost :
    ¬ SrListed [] isisNode
      (memOf (srTlv 0x80 0 [⟨1000, .label 16000⟩, ⟨2000, .label 24000⟩])) 26 0 (fun _ => none) 0x80
      [⟨1000, .label 16000⟩, ⟨2000, .label 24000⟩] := by
  intro listed
  exact absurd listed.string (by decide +kernel)

end SonicBmp.Bgp.SrCapabilities
