/- module: SonicBmp/Bgp/SidLists
   digest: Lists of adjacency and prefix SIDs: what the slot holds after any number of their TLVs. -/

import SonicBmp.Bgp.LinkStateCodec
import SonicBmp.Bgp.SrCapabilities

set_option autoImplicit false
set_option relaxedAutoImplicit false

namespace SonicBmp.Bgp.SidLists

open SonicBmp.Library.Memory
open SonicBmp.Library.Printing
open SonicBmp.Library.CStrings
open SonicBmp.Bus.Kafka (textBytes length_textBytes textBytes_inj)
open SonicBmp.Bgp.Common (inetNtop6 inetNtop_chars)
open SonicBmp.Bgp.LinkState (LsData LsLink decodeNlriProtocolId)
open SonicBmp.Bgp.LinkStateCodec (SubTlv tlvBytes)
open SonicBmp.Bgp.LinkStateAttr
open SonicBmp.Bgp.SrCapabilities (SidLabel label_read index_read)

/-! TLVs with a SID. -/

/-- A label, an index or an IPv6 address. -/
inductive Sid
  | short (value : SidLabel)
  | address (bytes : Vector UInt8 16)
  deriving DecidableEq

namespace Sid

def bytes : Sid → List UInt8
  | .short value => value.bytes
  | .address bytes => bytes.toList

def text : Sid → Text
  | .short value => decimal value.value
  | .address bytes => inetNtop6 bytes.toList

theorem length_bytes_le (s : Sid) : s.bytes.length ≤ 16 := by
  cases s with
  | short value => exact (value.length_bytes.trans_le value.size_le).trans (by decide)
  | address bytes => exact bytes.size_toArray.le

theorem parseSidValue_of_holds {m : Mem} {p : Nat} {s : Sid} (held : Holds m p s.bytes) :
    parseSidValue m p s.bytes.length = s.text := by
  cases s with
  | short value =>
    cases value with
    | label value =>
      have three : (Sid.short (.label value)).bytes.length = 3 := rfl
      rw [three, parseSidValue, if_pos rfl, label_read held]
      rfl
    | index value =>
      have four : (Sid.short (.index value)).bytes.length = 4 := rfl
      rw [four, parseSidValue, if_neg (by decide), if_neg (by decide), if_pos rfl, index_read held]
      rfl
  | address bytes =>
    have sixteen : (Sid.address bytes).bytes.length = 16 := bytes.size_toArray
    rw [sixteen, parseSidValue, if_neg (by decide), if_pos le_rfl, held.read_of_length sixteen]
    rfl

end Sid

/-- Flags, the weight or the algorithm, two reserved octets and the SID. -/
structure SidTlv where
  flags : UInt8
  param : UInt8
  reserved : UInt16
  sid : Sid

def SidTlv.value (t : SidTlv) : List UInt8 :=
  t.flags :: t.param :: (put16 t.reserved.toNat ++ t.sid.bytes)

theorem SidTlv.length_value (t : SidTlv) : t.value.length = 4 + t.sid.bytes.length := by
  simp only [value, List.length_cons, List.length_append, length_put16]
  omega

theorem SidTlv.fields {m : Mem} {p : Nat} {t : SidTlv} (held : Holds m p t.value) :
    u8 m p = t.flags.toNat ∧ u8 m (p + 1) = t.param.toNat ∧
      parseSidValue m (p + 4) (t.value.length - 4) = t.sid.text := by
  have size : t.value.length - 4 = t.sid.bytes.length := by
    rw [t.length_value]
    omega
  simp only [value, holds_cons, holds_append, length_put16, Nat.add_assoc, Nat.reduceAdd] at held
  obtain ⟨flags, param, -, sid⟩ := held
  rw [size]
  exact ⟨congrArg UInt8.toNat flags, congrArg UInt8.toNat param, Sid.parseSidValue_of_holds sid⟩

inductive SidKind
  | adjacencySid
  | prefixSid
  deriving DecidableEq

namespace SidKind

def type : SidKind → UInt16
  | .adjacencySid => 1099
  | .prefixSid => 1158

/-- The protocols of the NLRI such a TLV belongs to. -/
def protocols (ls : LsData) : SidKind → List Text
  | .adjacencySid => ls.links.map (·.protocol)
  | .prefixSid => ls.prefixes.map (·.protocol)

def text (protocol : Text) (m : Mem) (len data : Nat) : SidKind → Text
  | .adjacencySid => adjacencySidText protocol m len data
  | .prefixSid => prefixSidText protocol m len data

def isisFlags : SidKind → List String
  | .adjacencySid => lsFlagsPeerAdjSidIsis
  | .prefixSid => lsFlagsPrefixSidIsis

def ospfFlags : SidKind → List String
  | .adjacencySid => lsFlagsPeerAdjSidOspf
  | .prefixSid => lsFlagsPrefixSidOspf

/-- The weight in decimal; the name of the algorithm, or its number if it has none. -/
def paramText (param : Nat) : SidKind → Text
  | .adjacencySid => decimal param
  | .prefixSid =>
    match param with
    | 0 => "SPF".toList
    | 1 => "strict-SPF".toList
    | _ => decimal param

end SidKind

/-- The protocols of an NLRI that the two families are for. -/
inductive Igp
  | isisL1
  | isisL2
  | ospfv2
  | ospfv3
  deriving DecidableEq

namespace Igp

def id : Igp → Nat
  | .isisL1 => 1
  | .isisL2 => 2
  | .ospfv2 => 3
  | .ospfv3 => 6

def protocol (igp : Igp) : Text := snprintf 32 (decodeNlriProtocolId igp.id)

def IsIsis (igp : Igp) : Prop := igp = .isisL1 ∨ igp = .isisL2

instance (igp : Igp) : Decidable igp.IsIsis :=
  inferInstanceAs (Decidable (igp = .isisL1 ∨ igp = .isisL2))

/-- The flag table of the family. -/
def flags (igp : Igp) (kind : SidKind) : List String :=
  if igp.IsIsis then kind.isisFlags else kind.ospfFlags

end Igp

/-- How a TLV is to be shown: the letters of its flags, its weight or algorithm, and the SID. -/
def rendering (kind : SidKind) (igp : Igp) (t : SidTlv) : Text :=
  unwords [parseFlagsToString t.flags.toNat (igp.flags kind), kind.paramText t.param.toNat, t.sid.text]

/-! What is printed. -/

/-- The words of the decoder: always the letters of IS-IS, and no word for an algorithm that
has no name. -/
def printedWords (kind : SidKind) (t : SidTlv) : List Text :=
  parseFlagsToString t.flags.toNat kind.isisFlags ::
    if kind = .prefixSid ∧ 2 ≤ t.param.toNat then [t.sid.text]
    else [kind.paramText t.param.toNat, t.sid.text]

def printed (kind : SidKind) (t : SidTlv) : Text := unwords (printedWords kind t)

theorem Igp.notBefore (igp : Igp) : strcmpGe igp.protocol "IS-IS".toList = true := by
  cases igp <;> decide

theorem protocolFlags_igp (igp : Igp) (isis ospf : Text) :
    protocolFlags igp.protocol isis ospf = isis := if_pos igp.notBefore

theorem algorithmText_named {alg : Nat} (named : alg < 2) :
    algorithmText alg = SidKind.paramText alg .prefixSid ++ [' '] := by
  interval_cases alg <;> rfl

theorem algorithmText_other {alg : Nat} (other : 2 ≤ alg) : algorithmText alg = [] := by
  obtain ⟨n, rfl⟩ := Nat.exists_eq_add_of_le' other
  rfl

theorem kind_text {m : Mem} {p : Nat} {t : SidTlv} (kind : SidKind) (igp : Igp)
    (held : Holds m p t.value) :
    kind.text igp.protocol m t.value.length p = printed kind t := by
  obtain ⟨flags, param, sid⟩ := SidTlv.fields held
  rw [printed, printedWords, unwords_cons]
  cases kind with
  | adjacencySid =>
    rw [if_neg fun both => SidKind.noConfusion both.1, SidKind.text, adjacencySidText,
      protocolFlags_igp, flags, param, sid, List.flatMap_cons, List.flatMap_singleton]
    rfl
  | prefixSid =>
    rw [SidKind.text, prefixSidText, protocolFlags_igp, flags, param, sid]
    by_cases named : t.param.toNat < 2
    · rw [if_neg fun both => absurd both.2 (by omega), algorithmText_named named, List.flatMap_cons,
        List.flatMap_singleton, List.append_assoc]
      rfl
    · rw [if_pos ⟨rfl, by omega⟩, algorithmText_other (by omega), List.flatMap_singleton]
      rfl

/-- Below this bound the flags have no letter, or the same in both families. -/
def SidKind.spare : SidKind → Nat
  | .adjacencySid => 8
  | .prefixSid => 32

theorem flags_alike_iff (kind : SidKind) {octet : Nat} (small : octet < 256) :
    parseFlagsToString octet kind.isisFlags = parseFlagsToString octet kind.ospfFlags ↔
      octet < kind.spare := by
  have all (kind : SidKind) : ∀ octet : Fin 256,
      parseFlagsToString octet.val kind.isisFlags = parseFlagsToString octet.val kind.ospfFlags ↔
        octet.val < kind.spare := by
    cases kind <;> decide +kernel
  exact all kind ⟨octet, small⟩

/-- The TLVs that are printed as they should be. -/
def Faithful (kind : SidKind) (igp : Igp) (t : SidTlv) : Prop :=
  (igp.IsIsis ∨ t.flags.toNat < kind.spare) ∧ (kind = .prefixSid → t.param.toNat < 2)

theorem blank_not_mem_flags (kind : SidKind) (igp : Igp) (octet : Nat) :
    ' ' ∉ parseFlagsToString octet kind.isisFlags ∧
      ' ' ∉ parseFlagsToString octet (igp.flags kind) := by
  have tables : (∀ flag ∈ kind.isisFlags, ' ' ∉ flag.toList) ∧
      ∀ flag ∈ igp.flags kind, ' ' ∉ flag.toList := by
    cases kind <;> cases igp <;> decide
  constructor
  · intro here
    obtain ⟨flag, mem, blank⟩ := mem_flags here
    exact tables.1 flag mem blank
  · intro here
    obtain ⟨flag, mem, blank⟩ := mem_flags here
    exact tables.2 flag mem blank

theorem blank_not_mem_param (kind : SidKind) (param : Nat) : ' ' ∉ kind.paramText param := by
  cases kind with
  | adjacencySid => exact not_mem_decimal rfl param
  | prefixSid =>
    rcases param with _ | _ | param
    · decide
    · decide
    · exact not_mem_decimal rfl (param + 2)

theorem blank_not_mem_sid (s : Sid) : ' ' ∉ s.text := by
  cases s with
  | short value => exact not_mem_decimal rfl value.value
  | address bytes =>
    intro here
    rcases inetNtop_chars false _ ' ' here with word | sign | sign
    · exact absurd word (by decide)
    · exact absurd sign (by decide)
    · exact absurd sign (by decide)

theorem printed_eq_iff (kind : SidKind) (igp : Igp) (t : SidTlv) :
    printed kind t = rendering kind igp t ↔ Faithful kind igp t := by
  obtain ⟨isis, own⟩ := blank_not_mem_flags kind igp t.flags.toNat
  have param := blank_not_mem_param kind t.param.toNat
  have sid := blank_not_mem_sid t.sid
  have words : printed kind t = rendering kind igp t ↔ printedWords kind t =
      [parseFlagsToString t.flags.toNat (igp.flags kind), kind.paramText t.param.toNat,
        t.sid.text] := by
    constructor
    · intro same
      refine unwords_injective_of_ne_nil ?_ ?_ (List.cons_ne_nil _ _) (List.cons_ne_nil _ _) same
      · unfold printedWords
        split <;> simp [isis, param, sid]
      · simp [own, param, sid]
    · intro same
      rw [printed, same, rendering]
  rw [words, printedWords, Faithful]
  by_cases unnamed : kind = .prefixSid ∧ 2 ≤ t.param.toNat
  · rw [if_pos unnamed]
    constructor
    · intro same
      exact absurd (congrArg List.length same) (by simp)
    · rintro ⟨-, named⟩
      exact absurd (named unnamed.1) (by omega)
  · have named : kind = .prefixSid → t.param.toNat < 2 := by
      intro isPrefix
      by_contra other
      exact unnamed ⟨isPrefix, not_lt.mp other⟩
    rw [if_neg unnamed, List.cons.injEq, eq_self_iff_true, and_true, and_iff_left named, Igp.flags]
    by_cases family : igp.IsIsis
    · simp [family]
    · rw [if_neg family, or_iff_right family]
      exact flags_alike_iff kind t.flags.toNat_lt

theorem printed_ne_nil (kind : SidKind) (t : SidTlv) : printed kind t ≠ [] := by
  unfold printed printedWords
  split <;> simp [unwords_cons]

theorem itemText_unwords {words : List Text} (plain : ∀ w ∈ words, ItemText w) :
    ItemText (unwords words) := by
  cases words with
  | nil => exact itemText_nil
  | cons w words =>
    rw [unwords_cons, itemText_append]
    refine ⟨plain w List.mem_cons_self, ?_⟩
    intro c here
    obtain ⟨v, mem, here⟩ := List.mem_flatMap.mp here
    rcases List.mem_cons.mp here with rfl | here
    · decide
    · exact plain v (List.mem_cons_of_mem _ mem) c here

theorem itemText_sid (s : Sid) : ItemText s.text := by
  cases s with
  | short value => exact itemText_decimal _
  | address bytes => exact itemText_inetNtop6 _

theorem itemText_printed (kind : SidKind) (igp : Igp) (t : SidTlv) :
    ItemText (printed kind t) ∧ ItemText (rendering kind igp t) := by
  have isis : ItemText (parseFlagsToString t.flags.toNat kind.isisFlags) :=
    itemText_flags (by cases kind <;> decide) _
  have own : ItemText (parseFlagsToString t.flags.toNat (igp.flags kind)) :=
    itemText_flags (by cases kind <;> cases igp <;> decide) _
  have param : ItemText (kind.paramText t.param.toNat) := by
    cases kind with
    | adjacencySid => exact itemText_decimal _
    | prefixSid =>
      generalize t.param.toNat = param
      rcases param with _ | _ | param
      · decide
      · decide
      · exact itemText_decimal _
  have sid := itemText_sid t.sid
  constructor
  · refine itemText_unwords ?_
    unfold printedWords
    split <;> simp [isis, param, sid]
  · refine itemText_unwords ?_
    simp [own, param, sid]

/-! The attribute. -/

/-- A TLV of the attribute: one of the kind, or any other. -/
inductive AttrTlv (kind : SidKind)
  | sid (t : SidTlv)
  | other (t : SubTlv) (apart : t.type ≠ kind.type)

theorem SidTlv.value_fits (t : SidTlv) : t.value.length < 65536 := by
  have := t.sid.length_bytes_le
  rw [t.length_value]
  omega

section Attr

variable {kind : SidKind}

def AttrTlv.tlv : AttrTlv kind → SubTlv
  | .sid t => ⟨kind.type, t.value, t.value_fits⟩
  | .other t _ => t

def sidsOf : List (AttrTlv kind) → List SidTlv
  | [] => []
  | .sid t :: tlvs => t :: sidsOf tlvs
  | .other _ _ :: tlvs => sidsOf tlvs

end Attr

section Run

variable {stale : Text} {ls : LsData} {m : Mem}

/-- The loop at a TLV that is wholly there. -/
theorem parseAttrLinkState_tlv {t : SubTlv} {data : Nat} {rest : List UInt8} (attrs : LsAttrs)
    (held : Holds m data t.bytes) :
    parseAttrLinkState stale ls m (t.bytes ++ rest).length data attrs =
      parseAttrLinkState stale ls m rest.length (data + t.bytes.length)
        (updateSlot attrs t.type.toNat (tlvOps stale ls m t.type.toNat t.value.length (data + 4)
          (slotOf attrs t.type.toNat))) := by
  have size := t.length_bytes
  have total : (t.bytes ++ rest).length = t.value.length + 4 + rest.length := by
    rw [List.length_append, size]
    omega
  simp only [SubTlv.bytes, holds_append, length_put16, Nat.add_assoc, Nat.reduceAdd] at held
  obtain ⟨type, len, -⟩ := held
  rw [total, parseAttrLinkState, if_pos (by omega), parseAttrLinkStateTLV, if_neg (by omega),
    type.u16 t.type.toNat_lt, len.u16 t.fits, size]
  dsimp only
  rw [Nat.add_sub_cancel_left, Nat.add_comm 4]

theorem tlvOps_sid (kind : SidKind) (len data : Nat) (slot : Slot) :
    tlvOps stale ls m kind.type.toNat len data slot =
      appendOps slot (kind.text (front stale (kind.protocols ls)) m len data) := by
  cases kind <;> rfl

private theorem take_take_append {α : Type} (n : Nat) (front back : List α) :
    (front.take n ++ back).take n = (front ++ back).take n := by
  rw [List.take_append, List.take_append, List.take_take, Nat.min_self, List.length_take]
  congr 2
  omega

/-- One more item in the slot. -/
theorem text_listed {slot : Slot} {items : List Text} (shown : [] ∉ items)
    (holds : slot.text = (textBytes (commas items)).take 255) {item : Text} (plain : ItemText item) :
    (slot.strncat (textBytes (listed slot item))).text =
      (textBytes (commas (items ++ [item]))).take 255 := by
  rw [CArray.text_strncat slot (nul_not_mem_listed slot plain), holds, take_take_append]
  have length : slot.strlen = ((textBytes (commas items)).take 255).length := congrArg List.length holds
  cases items with
  | nil =>
    have free : ¬ 0 < slot.strlen := by
      rw [length]
      exact Nat.lt_irrefl 0
    rw [listed, if_neg free, List.nil_append, commas_cons, List.flatMap_nil, List.append_nil]
    rfl
  | cons first items =>
    have used : 0 < slot.strlen := by
      have some_ : 0 < first.length :=
        List.length_pos_iff.mpr fun empty => shown (empty ▸ List.mem_cons_self)
      rw [length, commas_cons, List.length_take, length_textBytes, List.length_append]
      omega
    rw [listed, if_pos used, commas_concat (List.cons_ne_nil _ _)]
    simp only [textBytes, List.map_append]

/-- A TLV of the kind adds its item to the slot. -/
theorem slot_sid {kind : SidKind} {igp : Igp}
    (protocol : front stale (kind.protocols ls) = igp.protocol) {t : SidTlv} {data : Nat}
    (value : Holds m (data + 4) t.value) {attrs : LsAttrs} {items : List Text} (shown : [] ∉ items)
    (holds : (slotOf attrs kind.type.toNat).text = (textBytes (commas items)).take 255) :
    (slotOf (updateSlot attrs kind.type.toNat (tlvOps stale ls m kind.type.toNat t.value.length
        (data + 4) (slotOf attrs kind.type.toNat))) kind.type.toNat).text =
      (textBytes (commas (items ++ [printed kind t]))).take 255 := by
  have item : kind.text (front stale (kind.protocols ls)) m t.value.length (data + 4) =
      printed kind t := by
    rw [protocol]
    exact kind_text kind igp value
  rw [tlvOps_sid, item, slotOf_append]
  exact text_listed shown holds (itemText_printed kind igp t).1

/-- The slot after the attribute: the items, cut off at the end of the slot. -/
theorem slot_run (kind : SidKind) (igp : Igp)
    (protocol : front stale (kind.protocols ls) = igp.protocol) (tlvs : List (AttrTlv kind)) :
    ∀ (data : Nat) (attrs : LsAttrs) (items : List Text), [] ∉ items →
      (slotOf attrs kind.type.toNat).text = (textBytes (commas items)).take 255 →
      Holds m data (tlvBytes (tlvs.map AttrTlv.tlv)) →
      (slotOf (parseAttrLinkState stale ls m (tlvBytes (tlvs.map AttrTlv.tlv)).length data attrs)
          kind.type.toNat).text =
        (textBytes (commas (items ++ (sidsOf tlvs).map (printed kind)))).take 255 := by
  induction tlvs with
  | nil =>
    intro data attrs items _ holds _
    rw [sidsOf, List.map_nil, List.map_nil, List.append_nil, ← holds]
    show (slotOf (parseAttrLinkState stale ls m 0 data attrs) _).text = _
    rw [parseAttrLinkState, if_neg (Nat.lt_irrefl 0)]
  | cons tlv tlvs ih =>
    intro data attrs items shown holds held
    have split : tlvBytes ((tlv :: tlvs).map AttrTlv.tlv) =
        tlv.tlv.bytes ++ tlvBytes (tlvs.map AttrTlv.tlv) := List.flatMap_cons
    rw [split] at held ⊢
    obtain ⟨head, rest⟩ := (holds_append m data _ _).mp held
    rw [parseAttrLinkState_tlv attrs head]
    cases tlv with
    | other t apart =>
      refine ih _ _ items shown ?_ rest
      rw [← holds]
      exact congrArg CArray.text
        (slotOf_updateSlot_ne attrs (fun same => apart (UInt16.toNat_inj.mp same)) _)
    | sid t =>
      have value : Holds m (data + 4) t.value := by
        simp only [AttrTlv.tlv, SubTlv.bytes, holds_append, length_put16, Nat.add_assoc,
          Nat.reduceAdd] at head
        exact head.2.2
      rw [sidsOf, List.map_cons, List.append_cons]
      refine ih _ _ (items ++ [printed kind t]) ?_ (slot_sid protocol value shown holds) rest
      simpa [shown] using (printed_ne_nil kind t).symm

end Run

/-- The slot holds the renderings of all TLVs of the kind, in order, with commas between. -/
def SidsListed (kind : SidKind) (igp : Igp) (stale : Text) (ls : LsData) (m : Mem) (data : Nat)
    (attrs : LsAttrs) (tlvs : List (AttrTlv kind)) : Prop :=
  (slotOf (parseAttrLinkState stale ls m (tlvBytes (tlvs.map AttrTlv.tlv)).length data attrs)
      kind.type.toNat).text =
    textBytes (commas ((sidsOf tlvs).map (rendering kind igp)))

/-- The items that are printed are the renderings exactly if every TLV is printed as it should
be. -/
theorem commas_printed_iff (kind : SidKind) (igp : Igp) (sids : List SidTlv) :
    commas (sids.map (printed kind)) = commas (sids.map (rendering kind igp)) ↔
      ∀ t ∈ sids, Faithful kind igp t := by
  have items : (sids.map (printed kind)) = sids.map (rendering kind igp) ↔
      ∀ t ∈ sids, Faithful kind igp t := by
    rw [List.map_inj_left]
    exact forall₂_congr fun t _ => printed_eq_iff kind igp t
  rw [← items]
  constructor
  · intro same
    cases sids with
    | nil => rfl
    | cons t sids =>
      refine commas_injective ?_ ?_ (List.cons_ne_nil _ _) (List.cons_ne_nil _ _) same
      · intro item here
        obtain ⟨t', -, rfl⟩ := List.mem_map.mp here
        exact comma_not_mem_of_itemText (itemText_printed kind igp t').1
      · intro item here
        obtain ⟨t', -, rfl⟩ := List.mem_map.mp here
        exact comma_not_mem_of_itemText (itemText_printed kind igp t').2
  · intro same
    rw [same]

/-- The slot holds the renderings exactly if the flags of every TLV read alike in the table of
IS-IS and in its own, and no prefix SID has an algorithm other than the two with a name. -/
theorem sids_listed_iff (kind : SidKind) (igp : Igp) (stale : Text) (ls : LsData)
    (others : List Text) (first : kind.protocols ls = igp.protocol :: others) (m : Mem) (data : Nat)
    (attrs : LsAttrs) (unused : (slotOf attrs kind.type.toNat).text = [])
    (tlvs : List (AttrTlv kind))
    (fits : (commas ((sidsOf tlvs).map (rendering kind igp))).length ≤ 254)
    (held : Holds m data (tlvBytes (tlvs.map AttrTlv.tlv))) :
    SidsListed kind igp stale ls m data attrs tlvs ↔ ∀ t ∈ sidsOf tlvs, Faithful kind igp t := by
  have protocol : front stale (kind.protocols ls) = igp.protocol := by
    rw [first]
    rfl
  have run := slot_run kind igp protocol tlvs data attrs [] List.not_mem_nil unused held
  rw [List.nil_append] at run
  rw [← commas_printed_iff, SidsListed, run]
  have octets := commas_octets (fun t => (itemText_printed kind igp t).1) (sidsOf tlvs)
  have octets' := commas_octets (fun t => (itemText_printed kind igp t).2) (sidsOf tlvs)
  constructor
  · intro same
    -- the text is too short to have been cut off
    have short := congrArg List.length same
    rw [List.length_take, length_textBytes, length_textBytes] at short
    rw [List.take_of_length_le (by rw [length_textBytes]; omega)] at same
    exact textBytes_inj (fun c here => (octets c here).2) (fun c here => (octets' c here).2) same
  · intro same
    rw [same]
    refine List.take_of_length_le ?_
    rw [length_textBytes]
    omega

/-- A link of one of the protocols. -/
def linkOf (igp : Igp) : LsData := ⟨[], [LsLink.fresh 0 igp.id], []⟩

/-- An adjacency SID with the label 24001. -/
def adjacency (flags : UInt8) : AttrTlv .adjacencySid :=
  .sid ⟨flags, 0, 0, .short (.label (24001#24).toFin)⟩

def adjacencyMem (tlvs : List (AttrTlv .adjacencySid)) : Mem :=
  memOf (tlvBytes (tlvs.map AttrTlv.tlv))

/-- Two adjacency SIDs of an IS-IS link, one of them with a backup. -/
theorem sids_listed_isis :
    SidsListed .adjacencySid .isisL1 [] (linkOf .isisL1)
      (adjacencyMem [adjacency 0x30, adjacency 0x70]) 0 (fun _ => none)
      [adjacency 0x30, adjacency 0x70] :=
  (sids_listed_iff .adjacencySid .isisL1 [] (linkOf .isisL1) [] rfl _ 0 (fun _ => none)
    (CArray.text_zero 255)
    [adjacency 0x30, adjacency 0x70] (by decide +kernel) (holds_memOf _)).mpr
    fun _ _ => ⟨Or.inl (by decide), nofun⟩

/-- A local label of an OSPFv2 link, with the flags V and L: the slot holds "BV 0 24001". -/
theorem ospf_adjacency_sid_misread :
    ¬ SidsListed .adjacencySid .ospfv2 [] (linkOf .ospfv2) (adjacencyMem [adjacency 0x60]) 0
      (fun _ => none) [adjacency 0x60] := by
  unfold SidsListed
  decide +kernel

end SonicBmp.Bgp.SidLists
