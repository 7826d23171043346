/- module: SonicBmp/Bgp/LinkStateAttr
   digest: The BGP-LS attribute decoder: its TLVs, the texts it prints and the slots it fills. -/

import SonicBmp.Bgp.LinkState
import SonicBmp.Bus.InfoText
import SonicBmp.Library.CStrings
import SonicBmp.Library.Loop

set_option autoImplicit false
set_option relaxedAutoImplicit false

namespace SonicBmp.Bgp.LinkStateAttr

open SonicBmp.Library.Memory
open SonicBmp.Library.Loop (strideLoop)
open SonicBmp.Library.Printing
open SonicBmp.Library.CStrings
open SonicBmp.Bus.InfoText (strncpyBytes)
open SonicBmp.Bus.Kafka (textBytes)
open SonicBmp.Bgp.Common (inetNtop6 inetNtop_chars)
open SonicBmp.Bgp.LinkState (LsData)

/-! Flags and SID values. -/

def lsFlagsNodeNlri : List String := ["O", "T", "E", "B", "R", "V"]

def lsFlagsPeerAdjSidIsis : List String := ["F", "B", "V", "L", "S"]

def lsFlagsPeerAdjSidOspf : List String := ["B", "V", "L", "G"]

def lsFlagsSrCapIsis : List String := ["I", "V", "H"]

def lsFlagsPrefixSidIsis : List String := ["R", "N", "P", "E", "V", "L"]

def lsFlagsPrefixSidOspf : List String := ["", "NP", "M", "E", "V", "L"]

/-- The loop of `parse_flags_to_string`, from the bit `mask` on. -/
def flagsFrom (octet : Nat) : Nat → List String → Text
  | _, [] => []
  | mask, flag :: flags =>
    (if mask &&& octet ≠ 0 then flag.toList else []) ++ flagsFrom octet (mask / 2) flags

def parseFlagsToString (octet : Nat) (flags : List String) : Text := flagsFrom octet 0x80 flags

def parseSidValue (m : Mem) (data len : Nat) : Text :=
  if len = 3 then decimal (u24 m data)
  else if 16 ≤ len then inetNtop6 (readBytes m data 16)
  else if len = 4 then decimal (u32 m data)
  else []

/-- What is printed for the flags, by `strcmp` of the name of the protocol. -/
def protocolFlags (protocol isis ospf : Text) : Text :=
  if strcmpGe protocol "IS-IS".toList then isis
  else if strcmpGe protocol "OSPF".toList then ospf
  else []

/-- The protocol of the first NLRI. There may be none, and then `front()` finds what lies
there by chance: `stale`. -/
def front (stale : Text) (protocols : List Text) : Text := protocols.headD stale

/-! Bandwidths. -/

/-- The low half of a 64-bit product or shift, with its sign. -/
def wrap64 (x : Int) : Int := Int.bmod x (2 ^ 64)

/-- `ieee_float_to_kbps` of the 32 bits of a number. A shift by 64 or more is the shift by the
remainder, as the processor does it. -/
def ieeeFloatToKbps (word : Nat) : Nat :=
  let negative := 2 ^ 31 ≤ word
  let biased := word / 2 ^ 23 % 2 ^ 8
  if word % 2 ^ 31 = 0 then 0
  else if biased = 255 then if negative then 0x80000000 else 0x7FFFFFFF
  else if biased < 127 then 0
  else
    let exponent := biased - 127
    let mantissa : Nat := word % 2 ^ 23 + 2 ^ 23
    let magnitude : Int :=
      if exponent ≤ 23 then (mantissa / 2 ^ (23 - exponent) : Nat)
      else wrap64 (mantissa * 2 ^ ((exponent - 23) % 64) : Nat)
    let value := if negative then wrap64 (-magnitude) else magnitude
    ((wrap64 (value * 8)).tdiv 1000 % 2 ^ 32).toNat

/-- An `int32_t` in decimal. -/
def signedDecimal (word : Nat) : Text :=
  if word < 2 ^ 31 then decimal word else '-' :: decimal (2 ^ 32 - word)

/-! The texts. -/

/-- Values of `stride` octets each, with commas between them. -/
def listText (stride : Nat) (item : Nat → Text) (len data : Nat) : Text :=
  strideLoop stride len
    (fun i text => text ++ if i = 0 then item (data + i) else ", ".toList ++ item (data + i)) 0 []

def mtIdText (m : Mem) (len data : Nat) : Text := listText 2 (fun p => decimal (u16 m p)) len data

def unresvBwText (m : Mem) (data : Nat) : Text :=
  listText 4 (fun p => signedDecimal (ieeeFloatToKbps (u32 m p))) 32 data

/-- The loop over the ranges of the SR capabilities. The count `l` goes over the whole entry,
the pointer `p` stays behind the header of the sub-TLV. -/
def srEntries (m : Mem) (len l p : Nat) : Text :=
  if l < len then
    (if 12 ≤ l then ", ".toList else []) ++ (decimal (u24 m p) ++
      if u16 m (p + 3) = 1161 then
        if u16 m (p + 5) = 3 then
          ' ' :: (decimal (u24 m (p + 7)) ++ srEntries m len (l + 10) (p + 7))
        else if u16 m (p + 5) = 4 then
          ' ' :: (decimal (u32 m (p + 7)) ++ srEntries m len (l + 11) (p + 7))
        else []
      else [])
  else []
termination_by len - l

def srCapabilitiesText (protocol : Text) (m : Mem) (len data : Nat) : Text :=
  protocolFlags protocol (parseFlagsToString (u8 m data) lsFlagsSrCapIsis) (decimal (u8 m data)) ++
    ' ' :: srEntries m len 2 (data + 2)

def adjacencySidText (protocol : Text) (m : Mem) (len data : Nat) : Text :=
  protocolFlags protocol (parseFlagsToString (u8 m data) lsFlagsPeerAdjSidIsis)
      (parseFlagsToString (u8 m data) lsFlagsPeerAdjSidOspf) ++
    ' ' :: (decimal (u8 m (data + 1)) ++ ' ' :: parseSidValue m (data + 4) (len - 4))

def algorithmText (alg : Nat) : Text :=
  match alg with
  | 0 => "SPF ".toList
  | 1 => "strict-SPF ".toList
  | _ => []

def prefixSidText (protocol : Text) (m : Mem) (len data : Nat) : Text :=
  protocolFlags protocol (parseFlagsToString (u8 m data) lsFlagsPrefixSidIsis)
      (parseFlagsToString (u8 m data) lsFlagsPrefixSidOspf) ++
    ' ' :: (algorithmText (u8 m (data + 1)) ++ parseSidValue m (data + 4) (len - 4))

def epeNodeSidText (m : Mem) (len data : Nat) : Text :=
  (if u8 m data &&& 0x80 ≠ 0 then "V".toList else []) ++
    ((if u8 m data &&& 0x40 ≠ 0 then "L".toList else []) ++
      ' ' :: (decimal (u8 m (data + 1)) ++ ' ' :: parseSidValue m (data + 4) (len - 4)))

/-! The slots. -/

abbrev Slot := CArray 255

/-- `parsed_ls_attrs_map`. -/
abbrev LsAttrs := Nat → Option Slot

/-- `ls_attrs[type]`: a slot that is not there yet is created with zeros. -/
def slotOf (attrs : LsAttrs) (type : Nat) : Slot := (attrs type).getD (.zero 255)

/-- What is done to a slot: `fill(0)`, or octets copied to an offset. -/
inductive SlotOp
  | fill
  | put (off : Nat) (bytes : List UInt8)
  deriving DecidableEq

def SlotOp.apply (slot : Slot) : SlotOp → Slot
  | .fill => .zero 255
  | .put off bytes => slot.put off bytes

/-- The octets of the slot before this one may have been written. -/
def SlotOp.stop : SlotOp → Nat
  | .fill => 255
  | .put off bytes => off + bytes.length

/-- A value in host order, which is the octets from the last to the first. -/
def hostBytes (m : Mem) (data len : Nat) : List UInt8 := (readBytes m data len).reverse

/-- A value of at most four octets as a `uint32_t`. -/
def metricBytes (m : Mem) (data len : Nat) : List UInt8 :=
  hostBytes m data len ++ List.replicate (4 - len) 0

/-- `memcpy` of a value that has to have `size` octets. -/
def copyOps (size : Nat) (m : Mem) (len data : Nat) : Option (List SlotOp) :=
  if len = size then some [.put 0 (readBytes m data size)] else none

def wordOps (m : Mem) (len data : Nat) : Option (List SlotOp) :=
  if len = 4 then some [.put 0 (hostBytes m data 4)] else none

def bandwidthOps (m : Mem) (len data : Nat) : Option (List SlotOp) :=
  if len = 4 then some [.put 0 (leBytes 4 (ieeeFloatToKbps (u32 m data)))] else none

def nameOps (m : Mem) (len data : Nat) : Option (List SlotOp) :=
  some [.fill, .put 0 (strncpyBytes len (readBytes m data len))]

/-- `strncat` of one more item behind the text of the slot. -/
def listed (slot : Slot) (item : Text) : Text :=
  if 0 < slot.strlen then ", ".toList ++ item else item

def appendOps (slot : Slot) (item : Text) : Option (List SlotOp) :=
  some [.put slot.strlen (CArray.strncatBytes (255 - slot.strlen) (textBytes (listed slot item)))]

/-- The cases of `parseAttrLinkStateTLV`, each with the slot of its own type. In the others
and for a wrong length the map is not touched. -/
def tlvOps (stale : Text) (ls : LsData) (m : Mem) (type len data : Nat) (slot : Slot) :
    Option (List SlotOp) :=
  match type with
  | 263 => some [.put 0 (textBytes (mtIdText m len data) ++ [0])]
  | 1024 => some [.fill, .put 0 (textBytes (parseFlagsToString (u8 m data) lsFlagsNodeNlri))]
  | 1026 => nameOps m len data
  | 1027 => some ((if len ≤ 8 then [.put 0 (readBytes m data len)] else []) ++
      [.put 8 [UInt8.ofNat len]])
  | 1028 => copyOps 4 m len data
  | 1029 => copyOps 16 m len data
  | 1030 => copyOps 4 m len data
  | 1031 => copyOps 16 m len data
  | 1034 => some [.put 0 (textBytes
      (srCapabilitiesText (front stale (ls.nodes.map (·.protocol))) m len data))]
  | 1088 => wordOps m len data
  | 1089 => bandwidthOps m len data
  | 1090 => bandwidthOps m len data
  | 1091 => if len = 32 then some [.put 0 (textBytes (unresvBwText m data))] else none
  | 1092 => if len ≤ 4 then some [.put 0 (hostBytes m data len)] else none
  | 1095 => if len ≤ 4 then some [.put 0 (metricBytes m data len)] else none
  | 1098 => nameOps m len data
  | 1099 => appendOps slot (adjacencySidText (front stale (ls.links.map (·.protocol))) m len data)
  | 1101 => some [.put 0 (textBytes (epeNodeSidText m len data))]
  | 1153 => wordOps m len data
  | 1155 => some [.put 0 (if len ≤ 4 then metricBytes m data len else List.replicate 4 0)]
  | 1158 => appendOps slot (prefixSidText (front stale (ls.prefixes.map (·.protocol))) m len data)
  | _ => none

def updateSlot (attrs : LsAttrs) (type : Nat) : Option (List SlotOp) → LsAttrs
  | none => attrs
  | some ops => fun t => if t = type then some (ops.foldl SlotOp.apply (slotOf attrs type)) else attrs t

/-- `parseAttrLinkStateTLV`: the octets it counts, and the map. The length of the value is not
compared with what is left of the attribute. -/
def parseAttrLinkStateTLV (stale : Text) (ls : LsData) (m : Mem) (attrLen data : Nat)
    (attrs : LsAttrs) : Nat × LsAttrs :=
  if attrLen < 4 then (attrLen, attrs)
  else
    let type := u16 m data
    let len := u16 m (data + 2)
    (len + 4, updateSlot attrs type (tlvOps stale ls m type len (data + 4) (slotOf attrs type)))

/-- The loop `while (attr_len > 0)`; a count beyond the attribute ends it as well. -/
def parseAttrLinkState (stale : Text) (ls : LsData) (m : Mem) (attrLen data : Nat)
    (attrs : LsAttrs) : LsAttrs :=
  if 0 < attrLen then
    let read := parseAttrLinkStateTLV stale ls m attrLen data attrs
    parseAttrLinkState stale ls m (attrLen - read.1) (data + read.1) read.2
  else attrs
termination_by attrLen
decreasing_by
  have counted : 0 < (parseAttrLinkStateTLV stale ls m attrLen data attrs).1 := by
    unfold parseAttrLinkStateTLV
    split
    · assumption
    · exact Nat.succ_pos _
  omega

theorem slotOf_updateSlot_ne (attrs : LsAttrs) {type type' : Nat} (apart : type' ≠ type)
    (ops : Option (List SlotOp)) : slotOf (updateSlot attrs type' ops) type = slotOf attrs type := by
  cases ops with
  | none => rfl
  | some ops => simp [slotOf, updateSlot, Ne.symm apart]

theorem slotOf_append (attrs : LsAttrs) (type : Nat) (item : Text) :
    slotOf (updateSlot attrs type (appendOps (slotOf attrs type) item)) type =
      (slotOf attrs type).strncat (textBytes (listed (slotOf attrs type) item)) := by
  simp [slotOf, updateSlot, appendOps, SlotOp.apply, CArray.strncat]

/-- A name that is not before "OSPF" is not before "IS-IS" either, so that the second branch
is never taken. -/
theorem protocolFlags_eq (protocol isis ospf : Text) :
    protocolFlags protocol isis ospf = if strcmpGe protocol "IS-IS".toList then isis else [] := by
  unfold protocolFlags
  split
  · rfl
  · rename_i before
    refine if_neg fun after => before ?_
    cases protocol with
    | nil => exact absurd after (by decide)
    | cons c rest =>
      have above : 'O'.toNat ≤ c.toNat := by
        by_cases same : c = 'O'
        · rw [same]
        · have later : strcmpGe (c :: rest) "OSPF".toList = decide ('O'.toNat < c.toNat) := if_neg same
          rw [later, decide_eq_true_eq] at after
          exact after.le
      have apart : c ≠ 'I' := by
        rintro rfl
        exact absurd above (by decide)
      have later : strcmpGe (c :: rest) "IS-IS".toList = decide ('I'.toNat < c.toNat) := if_neg apart
      rw [later, decide_eq_true_eq]
      exact lt_of_lt_of_le (by decide) above

/-! The characters of the texts. -/

/-- A character of a number, a name, an address or a sign between them; no comma. -/
def ItemChar (c : Char) : Prop := c.isAlphanum = true ∨ c ∈ [' ', '.', ':', '-']

instance (c : Char) : Decidable (ItemChar c) :=
  inferInstanceAs (Decidable (c.isAlphanum = true ∨ c ∈ [' ', '.', ':', '-']))

def ItemText (text : Text) : Prop := ∀ c ∈ text, ItemChar c

instance (text : Text) : Decidable (ItemText text) := List.decidableBAll ItemChar text

@[simp] theorem itemText_nil : ItemText [] := by
  intro c here
  exact absurd here List.not_mem_nil

@[simp] theorem itemText_cons (c : Char) (text : Text) :
    ItemText (c :: text) ↔ ItemChar c ∧ ItemText text := List.forall_mem_cons

@[simp] theorem itemText_append (text text' : Text) :
    ItemText (text ++ text') ↔ ItemText text ∧ ItemText text' := List.forall_mem_append

@[simp] theorem itemText_decimal (n : Nat) : ItemText (decimal n) := by
  intro c here
  exact Or.inl (decimal_isAlphanum here)

theorem mem_flagsFrom {octet : Nat} {c : Char} {flags : List String} : ∀ mask,
    c ∈ flagsFrom octet mask flags → ∃ flag ∈ flags, c ∈ flag.toList := by
  induction flags with
  | nil =>
    intro mask here
    exact absurd here List.not_mem_nil
  | cons flag flags ih =>
    intro mask here
    rw [flagsFrom, List.mem_append] at here
    rcases here with here | here
    · split at here
      · exact ⟨flag, List.mem_cons_self, here⟩
      · exact absurd here List.not_mem_nil
    · obtain ⟨flag', mem, char⟩ := ih (mask / 2) here
      exact ⟨flag', List.mem_cons_of_mem _ mem, char⟩

theorem mem_flags {octet : Nat} {flags : List String} {c : Char}
    (here : c ∈ parseFlagsToString octet flags) : ∃ flag ∈ flags, c ∈ flag.toList :=
  mem_flagsFrom 0x80 here

theorem itemText_flags {flags : List String} (letters : ∀ flag ∈ flags, ItemText flag.toList)
    (octet : Nat) : ItemText (parseFlagsToString octet flags) := by
  intro c here
  obtain ⟨flag, mem, char⟩ := mem_flags here
  exact letters flag mem c char

theorem itemText_protocolFlags (protocol : Text) {isis ospf : Text} (first : ItemText isis)
    (second : ItemText ospf) : ItemText (protocolFlags protocol isis ospf) := by
  unfold protocolFlags
  split
  · exact first
  · split
    · exact second
    · exact itemText_nil

theorem itemText_inetNtop6 (src : List UInt8) : ItemText (inetNtop6 src) := by
  intro c here
  rcases inetNtop_chars false _ c here with word | rfl | rfl
  · exact Or.inl word
  · exact Or.inr (by decide)
  · exact Or.inr (by decide)

theorem itemText_parseSidValue (m : Mem) (data len : Nat) : ItemText (parseSidValue m data len) := by
  unfold parseSidValue
  split
  · exact itemText_decimal _
  · split
    · exact itemText_inetNtop6 _
    · split
      · exact itemText_decimal _
      · exact itemText_nil

theorem itemText_adjacencySidText (protocol : Text) (m : Mem) (len data : Nat) :
    ItemText (adjacencySidText protocol m len data) := by
  have isis : ItemText (parseFlagsToString (u8 m data) lsFlagsPeerAdjSidIsis) :=
    itemText_flags (by decide) _
  have ospf : ItemText (parseFlagsToString (u8 m data) lsFlagsPeerAdjSidOspf) :=
    itemText_flags (by decide) _
  simp only [adjacencySidText, itemText_append, itemText_cons]
  exact ⟨itemText_protocolFlags protocol isis ospf, by decide, itemText_decimal _, by decide,
    itemText_parseSidValue _ _ _⟩

theorem itemText_prefixSidText (protocol : Text) (m : Mem) (len data : Nat) :
    ItemText (prefixSidText protocol m len data) := by
  have name (alg : Nat) : ItemText (algorithmText alg) := by
    rcases alg with _ | _ | alg
    · decide
    · decide
    · exact itemText_nil
  have isis : ItemText (parseFlagsToString (u8 m data) lsFlagsPrefixSidIsis) :=
    itemText_flags (by decide) _
  have ospf : ItemText (parseFlagsToString (u8 m data) lsFlagsPrefixSidOspf) :=
    itemText_flags (by decide) _
  simp only [prefixSidText, itemText_append, itemText_cons]
  exact ⟨itemText_protocolFlags protocol isis ospf, by decide, name _, itemText_parseSidValue _ _ _⟩

theorem comma_not_mem_of_itemText {text : Text} (item : ItemText text) : ',' ∉ text := by
  intro here
  exact absurd (item ',' here) (by decide)

theorem itemChar_octet {c : Char} (item : ItemChar c) : 0 < c.toNat ∧ c.toNat < 256 := by
  rcases item with word | sign
  · have := isAlphanum_range word
    omega
  · simp only [List.mem_cons, List.not_mem_nil, or_false] at sign
    rcases sign with rfl | rfl | rfl | rfl <;> decide

theorem comma_octets : ∀ c ∈ ", ".toList, 0 < c.toNat ∧ c.toNat < 256 := by
  have chars : ", ".toList = [',', ' '] := rfl
  rw [chars, List.forall_mem_cons, List.forall_mem_singleton]
  decide

theorem commas_octets {α : Type} {text : α → Text} (plain : ∀ x, ItemText (text x)) (xs : List α) :
    ∀ c ∈ commas (xs.map text), 0 < c.toNat ∧ c.toNat < 256 := by
  cases xs with
  | nil =>
    intro c here
    exact absurd here List.not_mem_nil
  | cons first xs =>
    intro c here
    rw [List.map_cons, commas_cons, List.mem_append, List.mem_flatMap] at here
    rcases here with here | ⟨item, more, here⟩
    · exact itemChar_octet (plain first c here)
    · obtain ⟨x, -, rfl⟩ := List.mem_map.mp more
      rcases List.mem_append.mp here with sign | here
      · exact comma_octets c sign
      · exact itemChar_octet (plain x c here)

theorem nul_not_mem_textBytes {text : Text} (octets : ∀ c ∈ text, 0 < c.toNat ∧ c.toNat < 256) :
    0 ∉ textBytes text := by
  intro here
  obtain ⟨c, mem, nul⟩ := List.mem_map.mp here
  have value := congrArg UInt8.toNat nul
  rw [UInt8.toNat_ofNat', Nat.mod_eq_of_lt (octets c mem).2] at value
  exact absurd value (octets c mem).1.ne'

theorem nul_not_mem_listed (slot : Slot) {item : Text} (plain : ItemText item) :
    0 ∉ textBytes (listed slot item) := by
  refine nul_not_mem_textBytes fun c here => ?_
  unfold listed at here
  split at here
  · rcases List.mem_append.mp here with sign | here
    · exact comma_octets c sign
    · exact itemChar_octet (plain c here)
  · exact itemChar_octet (plain c here)

end SonicBmp.Bgp.LinkStateAttr
