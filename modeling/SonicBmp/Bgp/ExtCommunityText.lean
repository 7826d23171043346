/- module: SonicBmp/Bgp/ExtCommunityText
   digest: The printed extended communities: which entries come out as tag, administrator and number. -/

import SonicBmp.Bgp.AddressText
import SonicBmp.Bgp.ExtCommunity

set_option autoImplicit false
set_option relaxedAutoImplicit false

namespace SonicBmp.Bgp.ExtCommunityText

open SonicBmp.Library.Memory
open SonicBmp.Library.Loop
open SonicBmp.Library.Printing
open SonicBmp.Bgp.Common
open SonicBmp.Bgp.Attributes
open SonicBmp.Bgp.AddressText (inetNtop4_ne_decimal inetNtop6_length_le)
open SonicBmp.Bgp.ExtCommunity

/-! Entries. -/

/-- The administrator of an entry and the number it has assigned. -/
inductive Admin
  | as2 (asn : UInt16) (number : UInt32)
  | ipv4 (addr : UInt32) (number : UInt16)
  | as4 (asn : UInt32) (number : UInt16)
  deriving DecidableEq

namespace Admin

def type : Admin → Nat
  | .as2 _ _ => 0
  | .ipv4 _ _ => 1
  | .as4 _ _ => 2

def bytes : Admin → List UInt8
  | .as2 asn number => put16 asn.toNat ++ put32 number.toNat
  | .ipv4 addr number => put32 addr.toNat ++ put16 number.toNat
  | .as4 asn number => put32 asn.toNat ++ put16 number.toNat

def globalText : Admin → Text
  | .as2 asn _ => decimal asn.toNat
  | .ipv4 addr _ => inetNtop4 (put32 addr.toNat)
  | .as4 asn _ => decimal asn.toNat

def number : Admin → Nat
  | .as2 _ number => number.toNat
  | .ipv4 _ number => number.toNat
  | .as4 _ number => number.toNat

end Admin

/-- The subtypes of `decodeType_common`. -/
inductive Subtype
  | routeTarget | routeOrigin | linkBandwidth | ospfDomId | ospfRouterId | bgpDataCol | sourceAs
  | l2vpnId | vrfImport | ciscoVpnId | iaP2mpSegNh
  deriving DecidableEq

namespace Subtype

def code : Subtype → Nat
  | .routeTarget => 0x02
  | .routeOrigin => 0x03
  | .linkBandwidth => 0x04
  | .ospfDomId => 0x05
  | .ospfRouterId => 0x07
  | .bgpDataCol => 0x08
  | .sourceAs => 0x09
  | .l2vpnId => 0x0a
  | .vrfImport => 0x0b
  | .ciscoVpnId => 0x10
  | .iaP2mpSegNh => 0x12

def tag : Subtype → String
  | .routeTarget => "rt="
  | .routeOrigin => "soo="
  | .linkBandwidth => "link-bw="
  | .ospfDomId => "ospf-did="
  | .ospfRouterId => "ospf-rid="
  | .bgpDataCol => "colc="
  | .sourceAs => "sas="
  | .l2vpnId => "vpn-id="
  | .vrfImport => "import="
  | .ciscoVpnId => "vpn-id="
  | .iaP2mpSegNh => "p2mp-nh="

/-- The number of a VPN identifier is hexadecimal. -/
def numberText (s : Subtype) (n : Nat) : Text :=
  match s with
  | .l2vpnId | .ciscoVpnId => '0' :: 'x' :: hex n
  | _ => decimal n

end Subtype

structure Entry where
  admin : Admin
  subtype : Subtype
  transitive : Bool

namespace Entry

def bytes (e : Entry) : List UInt8 :=
  UInt8.ofNat (e.admin.type + if e.transitive then 0 else 0x40) :: UInt8.ofNat e.subtype.code ::
    e.admin.bytes

/-- The token of an entry, the same whether or not it is transitive. -/
def token (e : Entry) : Text :=
  e.subtype.tag.toList ++ (e.admin.globalText ++ ':' :: e.subtype.numberText e.admin.number)

theorem length_bytes (e : Entry) : e.bytes.length = 8 := by
  obtain ⟨admin, subtype, transitive⟩ := e
  cases admin <;> simp [bytes, Admin.bytes]

/-- The entries that are printed so: transitive ones, of an IPv4 administrator with another
subtype than link bandwidth, data collection and source AS, and of a four-octet AS with
another than VRF import and segmented next hop or with a number equal to the AS. -/
def Printed (e : Entry) : Prop :=
  e.transitive = true ∧
    match e.admin with
    | .as2 _ _ => True
    | .ipv4 _ _ => e.subtype ∉ [.linkBandwidth, .bgpDataCol, .sourceAs]
    | .as4 asn number => e.subtype ∈ [.vrfImport, .iaP2mpSegNh] → asn.toNat = number.toNat

end Entry

/-! One entry. -/

section One

variable {m : Mem} {p : Nat}

theorem held_admin {e : Entry} (held : Holds m p e.bytes) : Holds m (p + 2) e.admin.bytes := by
  simp only [Entry.bytes, holds_cons] at held
  exact held.2.2

/-- The fields of an entry in memory. -/
theorem decodeEntry_of_holds (e : Entry) (held : Holds m p e.bytes) :
    decodeEntry m p = if e.transitive then
      (match e.admin with
        | .as2 _ _ => decodeTypeCommon false false m e.subtype.code (p + 2)
        | .ipv4 _ _ => decodeTypeCommon true true m e.subtype.code (p + 2)
        | .as4 _ _ => decodeTypeCommon true false m e.subtype.code (p + 2))
    else [] := by
  obtain ⟨admin, subtype, transitive⟩ := e
  simp only [Entry.bytes, holds_cons] at held
  have low : u8 m (p + 1) = subtype.code := by
    rw [u8, held.2.1]
    cases subtype <;> rfl
  have high : u8 m p = admin.type + if transitive then 0 else 0x40 := by
    rw [u8, held.1]
    cases admin <;> cases transitive <;> rfl
  unfold decodeEntry
  rw [low, high]
  cases admin <;> cases transitive <;> rfl

theorem adminFields_as2 {asn : UInt16} {number : UInt32}
    (held : Holds m p (Admin.as2 asn number).bytes) :
    adminFields false false m p = ⟨[], number.toNat, asn.toNat⟩ := by
  simp only [Admin.bytes, holds_append, length_put16] at held
  simp [adminFields, held.1.u16 asn.toNat_lt, held.2.u32 number.toNat_lt]

theorem adminFields_ipv4 {addr : UInt32} {number : UInt16}
    (held : Holds m p (Admin.ipv4 addr number).bytes) :
    adminFields true true m p = ⟨inetNtop4 (put32 addr.toNat), u32Host m p, number.toNat⟩ := by
  simp only [Admin.bytes, holds_append, length_put32] at held
  simp [adminFields, ipv4Text, held.1.read_of_length (length_put32 _), held.2.u16 number.toNat_lt]

theorem adminFields_as4 {asn : UInt32} {number : UInt16}
    (held : Holds m p (Admin.as4 asn number).bytes) :
    adminFields true false m p = ⟨[], asn.toNat, number.toNat⟩ := by
  simp only [Admin.bytes, holds_append, length_put32] at held
  simp [adminFields, held.1.u32 asn.toNat_lt, held.2.u16 number.toNat_lt]

theorem decodeTypeCommon_as2 {asn : UInt16} {number : UInt32} (s : Subtype)
    (held : Holds m p (Admin.as2 asn number).bytes) :
    decodeTypeCommon false false m s.code p =
      s.tag.toList ++ (decimal asn.toNat ++ ':' :: s.numberText number.toNat) := by
  unfold decodeTypeCommon
  rw [adminFields_as2 held]
  cases s <;> rfl

/-- Three subtypes print the address as a number. -/
theorem decodeTypeCommon_ipv4 {addr : UInt32} {number : UInt16} (s : Subtype)
    (held : Holds m p (Admin.ipv4 addr number).bytes) :
    decodeTypeCommon true true m s.code p = s.tag.toList ++
      ((if s ∈ [.linkBandwidth, .bgpDataCol, .sourceAs] then decimal (u32Host m p)
        else inetNtop4 (put32 addr.toNat)) ++ ':' :: s.numberText number.toNat) := by
  unfold decodeTypeCommon
  rw [adminFields_ipv4 held]
  cases s <;> simp [adminText, ExtCommunity.numberText, twoOctetText, Subtype.code, Subtype.tag,
    Subtype.numberText]

/-- Two subtypes print the number in front of the AS. -/
theorem decodeTypeCommon_as4 {asn : UInt32} {number : UInt16} (s : Subtype)
    (held : Holds m p (Admin.as4 asn number).bytes) :
    decodeTypeCommon true false m s.code p = s.tag.toList ++
      (if s ∈ [.vrfImport, .iaP2mpSegNh] then decimal number.toNat ++ ':' :: s.numberText asn.toNat
        else decimal asn.toNat ++ ':' :: s.numberText number.toNat) := by
  unfold decodeTypeCommon
  rw [adminFields_as4 held]
  cases s <;> rfl

theorem numberText_decimal {s : Subtype} (plain : s ∈ [.vrfImport, .iaP2mpSegNh]) (n : Nat) :
    s.numberText n = decimal n := by
  simp only [List.mem_cons, List.not_mem_nil, or_false] at plain
  rcases plain with rfl | rfl <;> rfl

theorem tag_ne_nil (s : Subtype) : s.tag.toList ≠ [] := by
  cases s <;> decide

/-- An entry comes out as its token exactly if it is one of those. -/
theorem decodeEntry_eq_token_iff (e : Entry) (held : Holds m p e.bytes) :
    decodeEntry m p = e.token ↔ e.Printed := by
  rw [decodeEntry_of_holds e held]
  obtain ⟨admin, subtype, transitive⟩ := e
  have value := held_admin held
  cases transitive with
  | false =>
    refine iff_of_false (fun same => ?_) (fun printed => Bool.false_ne_true printed.1)
    exact tag_ne_nil subtype (List.append_eq_nil_iff.mp same.symm).1
  | true =>
    simp only [if_true, Entry.Printed, true_and, Entry.token]
    cases admin with
    | as2 asn number =>
      rw [decodeTypeCommon_as2 subtype value]
      exact iff_of_true rfl trivial
    | ipv4 addr number =>
      rw [decodeTypeCommon_ipv4 subtype value, List.append_cancel_left_eq]
      by_cases numbered : subtype ∈ [.linkBandwidth, .bgpDataCol, .sourceAs]
      · rw [if_pos numbered]
        exact iff_of_false (inetNtop4_ne_decimal _ _ _ _).symm (not_not.mpr numbered)
      · rw [if_neg numbered]
        exact iff_of_true rfl numbered
    | as4 asn number =>
      rw [decodeTypeCommon_as4 subtype value, List.append_cancel_left_eq]
      by_cases swapped : subtype ∈ [.vrfImport, .iaP2mpSegNh]
      · rw [if_pos swapped]
        simp only [Admin.globalText, Admin.number, numberText_decimal swapped, colonNumbers_inj,
          swapped, forall_const]
        exact ⟨fun same => same.2, fun same => ⟨same.symm, same⟩⟩
      · rw [if_neg swapped]
        exact iff_of_true rfl fun here => absurd here swapped

end One

/-! The list. -/

section Tokens

theorem blank_not_mem_quad (src : List UInt8) : ' ' ∉ inetNtop4 src := by
  have digit : ∀ n, ' ' ∉ decimal n := not_mem_decimal rfl
  simp [inetNtop4, digit]

theorem blank_not_mem_numberText (s : Subtype) (n : Nat) : ' ' ∉ s.numberText n := by
  have hexed : ' ' ∉ '0' :: 'x' :: hex n := by
    have digits : ' ' ∉ hex n := fun here => absurd (hex_isAlphanum here) (by decide)
    simp [digits]
  cases s <;> first | exact hexed | exact not_mem_decimal rfl n

theorem blank_not_mem_tag (s : Subtype) : ' ' ∉ s.tag.toList := by
  cases s <;> decide

theorem blank_not_mem_parts (s : Subtype) {global : Text} (apart : ' ' ∉ global) (n : Nat) :
    ' ' ∉ s.tag.toList ++ (global ++ ':' :: s.numberText n) := by
  simp [blank_not_mem_tag, apart, blank_not_mem_numberText]

theorem blank_not_mem_token (e : Entry) : ' ' ∉ e.token := by
  refine blank_not_mem_parts e.subtype ?_ _
  cases e.admin with
  | as2 asn number => exact not_mem_decimal rfl _
  | ipv4 addr number => exact blank_not_mem_quad _
  | as4 asn number => exact not_mem_decimal rfl _

theorem blank_not_mem_decodeEntry {m : Mem} {p : Nat} (e : Entry) (held : Holds m p e.bytes) :
    ' ' ∉ decodeEntry m p := by
  rw [decodeEntry_of_holds e held]
  obtain ⟨admin, subtype, transitive⟩ := e
  have value := held_admin held
  cases transitive with
  | false => exact List.not_mem_nil
  | true =>
    simp only [if_true]
    cases admin with
    | as2 asn number =>
      rw [decodeTypeCommon_as2 subtype value]
      exact blank_not_mem_parts subtype (not_mem_decimal rfl _) _
    | ipv4 addr number =>
      dsimp only
      rw [decodeTypeCommon_ipv4 subtype value]
      split
      · exact blank_not_mem_parts subtype (not_mem_decimal rfl _) _
      · exact blank_not_mem_parts subtype (blank_not_mem_quad _) _
    | as4 asn number =>
      dsimp only
      rw [decodeTypeCommon_as4 subtype value]
      split
      · exact blank_not_mem_parts subtype (not_mem_decimal rfl _) _
      · exact blank_not_mem_parts subtype (not_mem_decimal rfl _) _

end Tokens

/-- A blank behind every entry but the last. -/
theorem parseExtCommunities_eq (m : Mem) (data count : Nat) :
    parseExtCommunities m (count * 8) data =
      some (unwords ((List.range count).map fun i => decodeEntry m (data + i * 8))) := by
  unfold parseExtCommunities
  rw [if_neg (by simp), strideLoop_pieces (by decide)]
  cases count with
  | zero => rfl
  | succ count =>
    rw [List.range_succ, List.map_append, List.map_singleton, unwords_concat, List.flatMap_append,
      List.flatMap_singleton, if_neg (by omega), List.append_nil, List.flatMap_map]
    congr 2
    refine List.flatMap_congr fun i here => ?_
    rw [if_pos (by have := List.mem_range.mp here; omega)]

theorem parseAttrData_extCommunity (D : Decoders) {m : Mem} {attrLen data : Nat} {text : Text}
    (parsed : parseExtCommunities m attrLen data = some text)
    (st : UpdateState (withExtCommunities D)) :
    (parseAttrData (withExtCommunities D) m 16 attrLen data st).data.attrs .extCommunity =
      some text := by
  have decoded : (withExtCommunities D).parseExtCommunities m attrLen data = some text := parsed
  simp only [parseAttrData, decoded]
  exact st.setAttr_self .extCommunity text

/-- The stored text has the token of every entry, between blanks, exactly if each entry is one
that comes out as its token. -/
theorem ext_communities_text_iff (D : Decoders) (es : List Entry) (m : Mem) (data : Nat)
    (held : Holds m data (es.flatMap Entry.bytes)) (st : UpdateState (withExtCommunities D)) :
    (parseAttrData (withExtCommunities D) m 16 (es.length * 8) data st).data.attrs .extCommunity =
        some (unwords (es.map Entry.token)) ↔
      ∀ e ∈ es, e.Printed := by
  -- what the decoder makes of an entry depends on its octets alone
  let decoded (e : Entry) : Text := decodeEntry (memOf e.bytes) 0
  have entry (p : Nat) (e : Entry) (here : Holds m p e.bytes) : decodeEntry m p = decoded e := by
    have same := here.sameBytes (holds_memOf e.bytes)
    rw [e.length_bytes] at same
    exact decodeEntry_congr same
  have stored : (parseAttrData (withExtCommunities D) m 16 (es.length * 8) data st).data.attrs
      .extCommunity = some (unwords (es.map decoded)) := by
    refine parseAttrData_extCommunity D ?_ st
    rw [parseExtCommunities_eq, map_range_of_holds Entry.length_bytes entry es data held]
  have tokens : unwords (es.map decoded) = unwords (es.map Entry.token) ↔
      es.map decoded = es.map Entry.token := by
    refine ⟨fun same => ?_, congrArg unwords⟩
    rcases es with _ | ⟨e, es⟩
    · rfl
    · refine unwords_injective_of_ne_nil ?_ ?_ (by simp) (by simp) same
      · intro w here
        obtain ⟨e, -, rfl⟩ := List.mem_map.mp here
        exact blank_not_mem_decodeEntry e (holds_memOf e.bytes)
      · intro w here
        obtain ⟨e, -, rfl⟩ := List.mem_map.mp here
        exact blank_not_mem_token e
  rw [stored, Option.some_inj, tokens, List.map_inj_left]
  exact forall₂_congr fun e _ => decodeEntry_eq_token_iff e (holds_memOf e.bytes)

/-- The route target 65000:100. -/
def target (transitive : Bool) : Entry := ⟨.as2 65000 100, .routeTarget, transitive⟩

def noRoutes : UpdateState (withExtCommunities Decoders.silent) :=
  ⟨PeerInfo.fresh, ParsedUpdateData.empty _⟩

theorem ext_communities_text_target :
    (parseAttrData (withExtCommunities Decoders.silent) (memOf (target true).bytes) 16 8 0
      noRoutes).data.attrs .extCommunity = some "rt=65000:100".toList :=
  (ext_communities_text_iff Decoders.silent [target true] _ 0 (holds_memOf _) noRoutes).mpr
    (by simp [target, Entry.Printed])

/-- With the non-transitive bit nothing is left of it. -/
theorem nontransitive_target_lost :
    (parseAttrData (withExtCommunities Decoders.silent) (memOf (target false).bytes) 16 8 0
      noRoutes).data.attrs .extCommunity = some [] ∧
      (target false).token = "rt=65000:100".toList :=
  ⟨parseAttrData_extCommunity _ ((parseExtCommunities_eq _ 0 1).trans rfl) noRoutes, rfl⟩

/-! The IPv6 attribute. -/

/-- The subtypes of `decodeType_IPv6Specific`. -/
inductive V6Subtype
  | routeTarget | routeOrigin | vrfImport | ciscoVpnId | iaP2mpSegNh

namespace V6Subtype

def code : V6Subtype → UInt8
  | .routeTarget => 0x02
  | .routeOrigin => 0x03
  | .vrfImport => 0x0b
  | .ciscoVpnId => 0x10
  | .iaP2mpSegNh => 0x12

def tag : V6Subtype → String
  | .routeTarget => "rt="
  | .routeOrigin => "soo="
  | .vrfImport => "import="
  | .ciscoVpnId => "vpn-id="
  | .iaP2mpSegNh => "p2mp-nh="

def numberText (s : V6Subtype) (n : Nat) : Text :=
  match s with
  | .ciscoVpnId => '0' :: 'x' :: hex n
  | _ => decimal n

end V6Subtype

structure V6Entry where
  subtype : V6Subtype
  addr : Vector UInt8 16
  number : UInt16

namespace V6Entry

def bytes (e : V6Entry) : List UInt8 :=
  0 :: e.subtype.code :: (e.addr.toList ++ put16 e.number.toNat)

def token (e : V6Entry) : Text :=
  e.subtype.tag.toList ++ (inetNtop6 e.addr.toList ++ ':' :: e.subtype.numberText e.number.toNat)

theorem token_ne_nil (e : V6Entry) : e.token ≠ [] := by
  simp [token]

end V6Entry

/-- The texts stand in a text one behind the other. -/
def InOrder : List Text → Text → Prop
  | [], _ => True
  | w :: ws, text => ∃ before after, text = before ++ (w ++ after) ∧ InOrder ws after

/-- Wherever the entries lie: turn `i` of the loop makes the token of entry `i`, and all tokens
are in the parsed attributes afterwards. -/
structure V6Stored (D : Decoders) (es : List V6Entry) (st : UpdateState D) : Prop where
  decoded : ∀ m data, Holds m data (es.flatMap V6Entry.bytes) →
    ∀ i e, es[i]? = some e → decodeEntryV6 m data (i * 20) = e.token
  stored : ∀ m data, Holds m data (es.flatMap V6Entry.bytes) →
    ∃ key, InOrder (es.map V6Entry.token)
      ((parseAttrData D m 25 (es.length * 20) data st).data.attrs.at key)

/-- Attribute 25 is handled by `parsev6ExtCommunities`. -/
theorem parseAttrData_v6 (D : Decoders) (m : Mem) (attrLen data : Nat) (st : UpdateState D) :
    parseAttrData D m 25 attrLen data st = parsev6ExtCommunities m attrLen data st := by
  unfold parsev6ExtCommunities
  split <;> rfl

/-- Every address fits its array, so the decoder always gives up. -/
theorem decodeEntryV6_eq_nil (m : Mem) (data i : Nat) : decodeEntryV6 m data i = [] := by
  have printed (value : Nat) : inetNtopInto 40 (inetNtop6 (readBytes m value 16)) =
      some (inetNtop6 (readBytes m value 16)) := by
    have short := inetNtop6_length_le (readBytes m value 16)
    exact if_pos (by omega)
  unfold decodeEntryV6
  split
  · rw [decodeTypeIPv6Specific, printed]
  · rfl

/-- No IPv6 extended community comes out: every attribute with an entry fails. -/
theorem v6_communities_stored_iff (D : Decoders) (es : List V6Entry) (st : UpdateState D) :
    V6Stored D es st ↔ es = [] := by
  constructor
  · intro stored
    cases es with
    | nil => rfl
    | cons e es =>
      have first := stored.decoded _ 0 (holds_memOf _) 0 e rfl
      rw [decodeEntryV6_eq_nil] at first
      exact absurd first.symm e.token_ne_nil
  · rintro rfl
    refine ⟨fun m data _ i e here => ?_, fun m data _ => ⟨.origin, trivial⟩⟩
    rw [List.getElem?_nil] at here
    cases here

/-- The route target 2001:db8::1 with the number 5. -/
def v6Target : V6Entry :=
  ⟨.routeTarget, #v[0x20, 0x01, 0x0d, 0xb8, 0, 0, 0, 0, 0, 0, 0, 0, 0, 0, 0, 1], 5⟩

/-- Nothing is made of it and nothing is stored. -/
theorem v6_target_lost :
    v6Target.token = "rt=2001:db8::1:5".toList ∧ decodeEntryV6 (memOf v6Target.bytes) 0 0 = [] ∧
      parseAttrData (withExtCommunities Decoders.silent) (memOf v6Target.bytes) 25 20 0 noRoutes =
        noRoutes :=
  ⟨by decide, decodeEntryV6_eq_nil _ 0 0, (parseAttrData_v6 _ _ 20 0 noRoutes).trans rfl⟩

end SonicBmp.Bgp.ExtCommunityText
