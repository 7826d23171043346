/- module: SonicBmp/Bgp/ExtCommunity
   digest: The extended community decoder, and the eight bytes each of its entries reads. -/

import Mathlib.Data.List.DropRight
import SonicBmp.Bgp.AttrExtent
import SonicBmp.Bus.Kafka

set_option autoImplicit false
set_option relaxedAutoImplicit false

namespace SonicBmp.Bgp.ExtCommunity

open SonicBmp.Library.Memory
open SonicBmp.Library.Loop (strideLoop strideLoop_congr)
open SonicBmp.Library.Printing (Text decimal hex)
open SonicBmp.Bgp.Common
open SonicBmp.Bgp.Attributes
open SonicBmp.Bgp.AttrExtent
open SonicBmp.Bus.Kafka (hexByte)

/-! Numbers in a string stream. -/

/-- Division to the nearest, ties to the even quotient. -/
def divNearest (n d : Nat) : Nat :=
  if d < 2 * (n % d) ∨ d = 2 * (n % d) ∧ n / d % 2 = 1 then n / d + 1 else n / d

/-- A `uint32_t` converted to `float`, which has 24 significant bits. -/
def toFloat (n : Nat) : Nat :=
  let unit := 2 ^ (n.log2 - 23)
  divNearest n unit * unit

/-- A whole number as a stream prints a floating point value: six significant digits. -/
def generalFormat (n : Nat) : Text :=
  if n < 1000000 then decimal n
  else
    let places := (decimal n).length - 6
    let q := divNearest n (10 ^ places)
    let digits := if q = 1000000 then ['1'] else (decimal q).rdropWhile (· = '0')
    let exponent := places + if q = 1000000 then 6 else 5
    digits.take 1 ++ ((if 1 < digits.length then '.' :: digits.drop 1 else []) ++
      ("e+".toList ++ ((if exponent < 10 then ['0'] else []) ++ decimal exponent)))

example : generalFormat (toFloat 4294967295) = "4.29497e+09".toList := by decide

example : generalFormat (toFloat 1000005) = "1e+06".toList := by decide

/-- A `u_char` in a stream is one raw byte. -/
def rawByte (n : Nat) : Text := [Char.ofNat n]

/-- A 32-bit field left in the byte order of the host. -/
def u32Host (m : Mem) (p : Nat) : Nat :=
  u8 m p + u8 m (p + 1) * 256 + u8 m (p + 2) * 65536 + u8 m (p + 3) * 16777216

def parseMac (m : Mem) (p : Nat) : Text :=
  List.intercalate [':'] ((readBytes m p 6).map hexByte)

/-! The subtypes. -/

/-- The two administrator fields of a value as the decoders copy them. An IPv4 global
field is printed, and its number keeps the byte order of the host. -/
structure AdminFields where
  ipv4 : Text
  val32 : Nat
  val16 : Nat

def adminFields (isGlobal4Bytes isGlobalIPv4 : Bool) (m : Mem) (value : Nat) : AdminFields :=
  if isGlobal4Bytes then
    if isGlobalIPv4 then ⟨ipv4Text m value, u32Host m value, u16 m (value + 4)⟩
    else ⟨[], u32 m value, u16 m (value + 4)⟩
  else ⟨[], u32 m (value + 2), u16 m value⟩

section Common

variable (isGlobal4Bytes isGlobalIPv4 : Bool) (f : AdminFields)

/-- Key, global field and local field, the local one printed by `base` after `mark`. -/
def adminText (key mark : String) (base : Nat → Text) : Text :=
  key.toList ++
    if isGlobalIPv4 then f.ipv4 ++ (mark.toList ++ base f.val16)
    else if isGlobal4Bytes then decimal f.val32 ++ (mark.toList ++ base f.val16)
    else decimal f.val16 ++ (mark.toList ++ base f.val32)

/-- The subtypes that do not print an IPv4 global field as an address. -/
def numberText (key : String) : Text := adminText isGlobal4Bytes false f key ":" decimal

/-- The subtypes that treat a four-octet AS like two octets. -/
def twoOctetText (key : String) : Text := adminText false isGlobalIPv4 f key ":" decimal

end Common

/-- `ExtCommunity::decodeType_common`. -/
def decodeTypeCommon (isGlobal4Bytes isGlobalIPv4 : Bool) (m : Mem) (lowType value : Nat) : Text :=
  let f := adminFields isGlobal4Bytes isGlobalIPv4 m value
  let text := adminText isGlobal4Bytes isGlobalIPv4 f
  match lowType with
  | 0x02 => text "rt=" ":" decimal
  | 0x03 => text "soo=" ":" decimal
  | 0x04 => numberText isGlobal4Bytes f "link-bw="
  | 0x05 => text "ospf-did=" ":" decimal
  | 0x07 => text "ospf-rid=" ":" decimal
  | 0x08 => numberText isGlobal4Bytes f "colc="
  | 0x09 => numberText isGlobal4Bytes f "sas="
  | 0x0a => text "vpn-id=" ":0x" hex
  | 0x0b => twoOctetText isGlobalIPv4 f "import="
  | 0x10 => text "vpn-id=" ":0x" hex
  | 0x12 => twoOctetText isGlobalIPv4 f "p2mp-nh="
  | _ => []

/-- `ExtCommunity::decodeType_EVPN`; the two flags go into the text as they are. -/
def decodeTypeEVPN (m : Mem) (lowType value : Nat) : Text :=
  match lowType with
  | 0 =>
    "mac_mob_flags=".toList ++ (rawByte (u8 m value) ++
      (" mac_mob_seq_num=".toList ++ decimal (u32 m (value + 2))))
  | 1 =>
    "esi_label_flags=".toList ++ (rawByte (u8 m value) ++
      (" esi_label=".toList ++ decimal (u16 m (value + 3) * 256 + u8 m (value + 5))))
  | 2 => "es_import=".toList ++ parseMac m value
  | 3 => "router_mac=".toList ++ parseMac m value
  | _ => []

def costInsertion (poi : Nat) : Text :=
  match poi with
  | 128 => "abs:".toList
  | 129 => "igp:".toList
  | 130 => "ext:".toList
  | 131 => "bgp_id:".toList
  | _ => "unkn".toList

def ospfRouteType (type : Nat) : Text :=
  match type with
  | 1 | 2 => "O:".toList
  | 3 => "IA:".toList
  | 5 => "E:".toList
  | 7 => "N:".toList
  | _ => "unkn:".toList

/-- `ExtCommunity::decodeType_Opaque`. -/
def decodeTypeOpaque (m : Mem) (lowType value : Nat) : Text :=
  match lowType with
  | 0x01 =>
    "cost=".toList ++ (costInsertion (u8 m value) ++
      (decimal (u8 m (value + 1)) ++ ':' :: decimal (u32 m (value + 2))))
  | 0x03 => "cp-orf".toList
  | 0x06 =>
    "ospf-rt=area-".toList ++ (decimal (u32 m value) ++
      ':' :: (ospfRouteType (u8 m (value + 4)) ++ decimal (u8 m (value + 5))))
  | 0x0b => "color=".toList ++ decimal (u32 m (value + 2))
  | 0x0c => "encap=".toList ++ decimal (u8 m (value + 5))
  | 0x0d => "default-gw".toList
  | _ => []

def flowAction (bits : Nat) : Text :=
  (if bits / 2 % 2 = 1 then ['S'] else []) ++ if bits % 2 = 1 then ['T'] else []

/-- `ExtCommunity::decodeType_Generic`; the control flags of a layer 2 entry go into the
text as they are. -/
def decodeTypeGeneric (isGlobal4Bytes isGlobalIPv4 : Bool) (m : Mem) (lowType value : Nat) :
    Text :=
  let f := adminFields isGlobal4Bytes isGlobalIPv4 m value
  match lowType with
  | 6 =>
    "flow-rate=".toList ++ (decimal f.val16 ++ ':' :: generalFormat (toFloat f.val32))
  | 7 => "flow-act=".toList ++ flowAction (u8 m (value + 5))
  | 8 => adminText isGlobal4Bytes isGlobalIPv4 f "flow-redir=" ":" decimal
  | 9 => "flow-remark=".toList ++ decimal (u8 m (value + 5))
  | 10 =>
    let encap := if u8 m value = 19 then "vpls".toList else decimal (u8 m value)
    "l2info=".toList ++ (encap ++ ':' :: (rawByte (u8 m (value + 1)) ++
      (":mtu:".toList ++ decimal (u16 m (value + 2)))))
  | _ => []

/-- One entry by its high type octet, which the shifts of the source leave unmasked. -/
def decodeEntry (m : Mem) (data : Nat) : Text :=
  let lowType := u8 m (data + 1)
  let value := data + 2
  match u8 m data with
  | 0x00 => decodeTypeCommon false false m lowType value
  | 0x01 => decodeTypeCommon true true m lowType value
  | 0x02 => decodeTypeCommon true false m lowType value
  | 0x03 => decodeTypeOpaque m lowType value
  | 0x06 => decodeTypeEVPN m lowType value
  | 0x80 => decodeTypeGeneric false false m lowType value
  | 0x81 => decodeTypeGeneric true true m lowType value
  | 0x82 => decodeTypeGeneric true false m lowType value
  | _ => []

/-- `ExtCommunity::parseExtCommunities`: nothing is stored for a length that is no
multiple of eight. -/
def parseExtCommunities (m : Mem) (attrLen data : Nat) : Option Text :=
  if attrLen % 8 ≠ 0 then none
  else some (strideLoop 8 attrLen
    (fun i text => text ++ (decodeEntry m (data + i) ++ if i + 8 < attrLen then [' '] else [])) 0 [])

/-- The decoders with this one in its place. -/
def withExtCommunities (D : Decoders) : Decoders :=
  { D with parseExtCommunities := parseExtCommunities }

/-! The IPv6 attribute. -/

/-- `inet_ntop` into an array of `size` characters, which must have room for the text and its
end. -/
def inetNtopInto (size : Nat) (text : Text) : Option Text :=
  if text.length < size then some text else none

/-- `ExtCommunity::decodeType_IPv6Specific`: it gives up exactly when the address is printed,
and goes on with an empty one otherwise. -/
def decodeTypeIPv6Specific (m : Mem) (lowType value : Nat) : Text :=
  match inetNtopInto 40 (inetNtop6 (readBytes m value 16)) with
  | some _ => []
  | none =>
    let number := u16 m (value + 16)
    match lowType with
    | 0x02 => "rt=:".toList ++ decimal number
    | 0x03 => "soo=:".toList ++ decimal number
    | 0x0b => "import=:".toList ++ decimal number
    | 0x10 => "vpn-id=:0x".toList ++ hex number
    | 0x12 => "p2mp-nh=:".toList ++ decimal number
    | _ => []

/-- What the turn at `i` appends: the pointer stays at the first entry. -/
def decodeEntryV6 (m : Mem) (data _i : Nat) : Text :=
  match u8 m data with
  | 0 => decodeTypeIPv6Specific m (u8 m (data + 1)) (data + 2)
  | _ => []

/-- `ExtCommunity::parsev6ExtCommunities`, which does not store the text. -/
def parsev6ExtCommunities {D : Decoders} (m : Mem) (attrLen data : Nat) (st : UpdateState D) :
    UpdateState D :=
  if attrLen % 20 ≠ 0 then st
  else
    let _decodeStr := strideLoop 20 attrLen (fun i text => text ++ decodeEntryV6 m data i) 0 []
    st

/-! What an entry reads. -/

section Reads

variable {m m' : Mem} {p p' : Nat}

theorem u32Host_congr (same : SameBytes 4 m p m' p') : u32Host m p = u32Host m' p' := by
  have first : u8 m p = u8 m' p' := same.u8 0 (by omega)
  simp only [u32Host, first, same.u8 1 (by omega), same.u8 2 (by omega), same.u8 3 (by omega)]

theorem adminFields_congr (isGlobal4Bytes isGlobalIPv4 : Bool) (same : SameBytes 6 m p m' p') :
    adminFields isGlobal4Bytes isGlobalIPv4 m p = adminFields isGlobal4Bytes isGlobalIPv4 m' p' := by
  have printed : ipv4Text m p = ipv4Text m' p' := ipv4Text_congr same 0 (by omega)
  have word : u32 m p = u32 m' p' := same.u32 0 (by omega)
  have half : u16 m p = u16 m' p' := same.u16 0 (by omega)
  have host : u32Host m p = u32Host m' p' := u32Host_congr (same.within 0 4 (by omega))
  simp only [adminFields, printed, word, half, host, same.u16 4 (by omega),
    same.u32 2 (by omega)]

theorem parseMac_congr (same : SameBytes 6 m p m' p') : parseMac m p = parseMac m' p' := by
  unfold parseMac
  rw [same]

theorem decodeTypeCommon_congr (isGlobal4Bytes isGlobalIPv4 : Bool) (lowType : Nat)
    (same : SameBytes 6 m p m' p') :
    decodeTypeCommon isGlobal4Bytes isGlobalIPv4 m lowType p =
      decodeTypeCommon isGlobal4Bytes isGlobalIPv4 m' lowType p' := by
  unfold decodeTypeCommon
  rw [adminFields_congr isGlobal4Bytes isGlobalIPv4 same]

theorem decodeTypeEVPN_congr (lowType : Nat) (same : SameBytes 6 m p m' p') :
    decodeTypeEVPN m lowType p = decodeTypeEVPN m' lowType p' := by
  have flags : u8 m p = u8 m' p' := same.u8 0 (by omega)
  unfold decodeTypeEVPN
  split
  · rw [flags, same.u32 2 (by omega)]
  · rw [flags, same.u16 3 (by omega), same.u8 5 (by omega)]
  · rw [parseMac_congr same]
  · rw [parseMac_congr same]
  · rfl

theorem decodeTypeOpaque_congr (lowType : Nat) (same : SameBytes 6 m p m' p') :
    decodeTypeOpaque m lowType p = decodeTypeOpaque m' lowType p' := by
  have poi : u8 m p = u8 m' p' := same.u8 0 (by omega)
  have area : u32 m p = u32 m' p' := same.u32 0 (by omega)
  unfold decodeTypeOpaque
  split
  · rw [poi, same.u8 1 (by omega), same.u32 2 (by omega)]
  · rfl
  · rw [area, same.u8 4 (by omega), same.u8 5 (by omega)]
  · rw [same.u32 2 (by omega)]
  · rw [same.u8 5 (by omega)]
  · rfl
  · rfl

theorem decodeTypeGeneric_congr (isGlobal4Bytes isGlobalIPv4 : Bool) (lowType : Nat)
    (same : SameBytes 6 m p m' p') :
    decodeTypeGeneric isGlobal4Bytes isGlobalIPv4 m lowType p =
      decodeTypeGeneric isGlobal4Bytes isGlobalIPv4 m' lowType p' := by
  have encap : u8 m p = u8 m' p' := same.u8 0 (by omega)
  unfold decodeTypeGeneric
  rw [adminFields_congr isGlobal4Bytes isGlobalIPv4 same]
  split
  · rfl
  · rw [same.u8 5 (by omega)]
  · rfl
  · rw [same.u8 5 (by omega)]
  · rw [encap, same.u8 1 (by omega), same.u16 2 (by omega)]
  · rfl

/-- An entry is decoded from its eight bytes. -/
theorem decodeEntry_congr (same : SameBytes 8 m p m' p') : decodeEntry m p = decodeEntry m' p' := by
  have high : u8 m p = u8 m' p' := same.u8 0 (by omega)
  have value : SameBytes 6 m (p + 2) m' (p' + 2) := same.within 2 6 (by omega)
  simp only [decodeEntry, high, same.u8 1 (by omega), decodeTypeCommon_congr _ _ _ value,
    decodeTypeEVPN_congr _ value, decodeTypeOpaque_congr _ value,
    decodeTypeGeneric_congr _ _ _ value]

/-- The list is decoded from the bytes of the attribute, whatever its length. -/
theorem parseExtCommunities_congr (attrLen : Nat) (same : SameBytes attrLen m p m' p') :
    parseExtCommunities m attrLen p = parseExtCommunities m' attrLen p' := by
  unfold parseExtCommunities
  split
  · rfl
  · rename_i whole
    have eight : 8 ∣ attrLen := Nat.dvd_of_mod_eq_zero (not_not.mp whole)
    refine congrArg some (strideLoop_congr (fun i text more at_i => ?_) 0 [] (dvd_zero 8))
    rw [decodeEntry_congr (same.within i 8 (inside_of_dvd eight at_i more))]

end Reads

end SonicBmp.Bgp.ExtCommunity
