/- module: SonicBmp/Bgp/EvpnCodec
   digest: EVPN routes as a peer encodes them, one turn of the parser at such a route, and lists of them. -/

import SonicBmp.Bgp.Evpn
import SonicBmp.Bgp.LabelCodec

set_option autoImplicit false
set_option relaxedAutoImplicit false

namespace SonicBmp.Bgp.EvpnCodec

open SonicBmp.Library.Memory
open SonicBmp.Library.Printing (Text)
open SonicBmp.Bgp.Common
open SonicBmp.Bgp.Nlri
open SonicBmp.Bgp.Evpn
open SonicBmp.Bgp.LabelCodec (Label parseRouteDistinguisher_congr)
open SonicBmp.Bgp.ExtCommunity (parseMac parseMac_congr)
open SonicBmp.Bus.Kafka (hexByte)

/-! Routes on the wire. -/

inductive AddressKind
  | none | v4 | v6
  deriving DecidableEq

def AddressKind.bits : AddressKind → Nat
  | .none => 0
  | .v4 => 32
  | .v6 => 128

/-- An address behind its length in bits. -/
structure EvpnAddress where
  kind : AddressKind
  bytes : List UInt8
  bits_bytes : 8 * bytes.length = kind.bits

def EvpnAddress.text (a : EvpnAddress) : Text :=
  match a.kind with
  | .none => []
  | .v4 => inetNtop4 a.bytes
  | .v6 => inetNtop6 a.bytes

theorem EvpnAddress.bits_lt (a : EvpnAddress) : a.kind.bits < 256 := by
  cases a.kind <;> decide

structure SegmentId where
  type : UInt8
  value : Vector UInt8 9

def SegmentId.bytes (s : SegmentId) : List UInt8 := s.type :: s.value.toList

/-- The part of a route after its distinguisher. -/
inductive RouteBody
  | autoDiscovery (segment : SegmentId) (tag : Vector UInt8 4) (label : Label)
  | macIp (segment : SegmentId) (tag : Vector UInt8 4) (mac : Vector UInt8 6) (ip : EvpnAddress)
      (label : Label) (second : Option Label)
  | multicast (tag : Vector UInt8 4) (origin : EvpnAddress)
  | ethernetSegment (segment : SegmentId) (origin : EvpnAddress)

namespace RouteBody

def type : RouteBody → Nat
  | .autoDiscovery .. => 1
  | .macIp .. => 2
  | .multicast .. => 3
  | .ethernetSegment .. => 4

def bytes : RouteBody → List UInt8
  | .autoDiscovery segment tag label => segment.bytes ++ (tag.toList ++ label.bytes)
  | .macIp segment tag mac ip label second =>
    segment.bytes ++ (tag.toList ++ (put8 48 ++ (mac.toList ++ (put8 ip.kind.bits ++
      (ip.bytes ++ (label.bytes ++ second.elim [] Label.bytes))))))
  | .multicast tag origin => tag.toList ++ (put8 origin.kind.bits ++ origin.bytes)
  | .ethernetSegment segment origin => segment.bytes ++ (put8 origin.kind.bits ++ origin.bytes)

end RouteBody

/-- A route with the distinguisher of any type. -/
structure EvpnRoute where
  rd : Vector UInt8 8
  body : RouteBody

def EvpnRoute.encode (r : EvpnRoute) : List UInt8 :=
  put8 r.body.type ++ (put8 (8 + r.body.bytes.length) ++ (r.rd.toList ++ r.body.bytes))

def encodeEvpn (rs : List EvpnRoute) : List UInt8 := rs.flatMap EvpnRoute.encode

@[simp] theorem length_labelBytes (l : Label) : l.bytes.length = 3 := rfl

@[simp] theorem SegmentId.length_bytes (s : SegmentId) : s.bytes.length = 10 := by
  simp [SegmentId.bytes]

namespace RouteBody

theorem length_autoDiscovery (segment : SegmentId) (tag : Vector UInt8 4) (label : Label) :
    (autoDiscovery segment tag label).bytes.length = 17 := by
  simp [bytes]

theorem length_macIp (segment : SegmentId) (tag : Vector UInt8 4) (mac : Vector UInt8 6)
    (ip : EvpnAddress) (label : Label) (second : Option Label) :
    (macIp segment tag mac ip label second).bytes.length =
      22 + (ip.bytes.length + (3 + (second.elim [] Label.bytes).length)) := by
  simp [bytes]
  omega

theorem length_multicast (tag : Vector UInt8 4) (origin : EvpnAddress) :
    (multicast tag origin).bytes.length = 5 + origin.bytes.length := by
  simp [bytes]
  omega

theorem length_ethernetSegment (segment : SegmentId) (origin : EvpnAddress) :
    (ethernetSegment segment origin).bytes.length = 11 + origin.bytes.length := by
  simp [bytes]
  omega

theorem length_bytes_lt (b : RouteBody) : b.bytes.length < 200 := by
  have short (a : EvpnAddress) : a.bytes.length < 32 := by
    have := a.bits_bytes
    have := a.bits_lt
    omega
  cases b with
  | autoDiscovery segment tag label => rw [length_autoDiscovery]; decide
  | macIp segment tag mac ip label second =>
    have labels : (second.elim [] Label.bytes).length ≤ 3 := by cases second <;> simp
    rw [length_macIp]
    have := short ip
    omega
  | multicast tag origin =>
    rw [length_multicast]
    have := short origin
    omega
  | ethernetSegment segment origin =>
    rw [length_ethernetSegment]
    have := short origin
    omega

end RouteBody

theorem EvpnRoute.length_encode (r : EvpnRoute) : r.encode.length = 10 + r.body.bytes.length := by
  simp [EvpnRoute.encode]
  omega

/-! The fields of a route, those it does not have empty. -/

def EvpnAddress.absent : EvpnAddress := ⟨.none, [], rfl⟩

namespace RouteBody

def segment? : RouteBody → Option SegmentId
  | .autoDiscovery s .. => some s
  | .macIp s .. => some s
  | .multicast .. => none
  | .ethernetSegment s _ => some s

def tag : RouteBody → List UInt8
  | .autoDiscovery _ tag _ => tag.toList
  | .macIp _ tag .. => tag.toList
  | .multicast tag _ => tag.toList
  | .ethernetSegment .. => []

def mac : RouteBody → List UInt8
  | .macIp _ _ mac .. => mac.toList
  | _ => []

def macLen : RouteBody → Nat
  | .macIp .. => 48
  | _ => 0

def ip : RouteBody → EvpnAddress
  | .macIp _ _ _ ip .. => ip
  | _ => .absent

def origin : RouteBody → EvpnAddress
  | .multicast _ origin => origin
  | .ethernetSegment _ origin => origin
  | _ => .absent

def label1 : RouteBody → Option Label
  | .autoDiscovery _ _ label => some label
  | .macIp _ _ _ _ label _ => some label
  | _ => none

def label2 : RouteBody → Option Label
  | .macIp _ _ _ _ _ second => second
  | _ => none

end RouteBody

/-! What the parser makes of them. -/

def hexText (bytes : List UInt8) : Text := bytes.flatMap hexByte

def macText (mac : List UInt8) : Text := List.intercalate [':'] (mac.map hexByte)

def SegmentId.printed (s : SegmentId) : Option Text :=
  parseEthernetSegmentIdentifier (memOf s.bytes) 0

/-- A label field with the sign that the shift keeps. -/
def labelInt (l : Label) : Int := mplsLabel (memOf l.bytes) 0

def labelField : Option Label → Int
  | none => 0
  | some l => labelInt l

def segmentField : Option SegmentId → Option Text
  | none => some []
  | some s => s.printed

/-- The tuple once the header of a route is read. -/
def headTuple (rd : Vector UInt8 8) : EvpnTuple :=
  withRouteDistinguisher (memOf rd.toList) 0 freshTuple

/-- The tuple the parser makes of a route. -/
def EvpnRoute.decoded (r : EvpnRoute) : Option EvpnTuple :=
  (segmentField r.body.segment?).map fun segment =>
    { headTuple r.rd with
      ethernetSegmentIdentifier := segment
      ethernetTagIdHex := hexText r.body.tag
      macLen := r.body.macLen
      mac := macText r.body.mac
      ipLen := r.body.ip.kind.bits
      ip := r.body.ip.text
      mplsLabel1 := labelField r.body.label1
      mplsLabel2 := labelField r.body.label2
      originatingRouterIpLen := r.body.origin.kind.bits
      originatingRouterIp := r.body.origin.text }

/-- The bytes by which the data pointer falls behind. -/
def RouteBody.lag : RouteBody → Nat
  | .ethernetSegment _ origin => origin.bytes.length
  | _ => 0

section Fields

variable {m m' : Mem} {p p' : Nat}

theorem labelWord_congr (same : SameBytes 3 m p m' p') : labelWord m p = labelWord m' p' := by
  have first : u8 m p = u8 m' p' := same.u8 0 (by omega)
  simp only [labelWord, first, same.u8 1 (by omega), same.u8 2 (by omega)]

theorem parseEthernetSegmentIdentifier_congr (same : SameBytes 10 m p m' p') :
    parseEthernetSegmentIdentifier m p = parseEthernetSegmentIdentifier m' p' := by
  have type : u8 m p = u8 m' p' := same.u8 0 (by omega)
  have value : SameBytes 9 m (p + 1) m' (p' + 1) := same.within 1 9 (by omega)
  have mac : parseMac m (p + 1) = parseMac m' (p' + 1) :=
    parseMac_congr (value.within 0 6 (by omega))
  have word : u32 m (p + 1) = u32 m' (p' + 1) := value.u32 0 (by omega)
  have discriminator : labelWord m (p + 1 + 6) = labelWord m' (p' + 1 + 6) :=
    labelWord_congr (value.within 6 3 (by omega))
  simp only [parseEthernetSegmentIdentifier, type]
  congr 1
  unfold segmentValue
  split
  · rw [value]
  · rw [mac, value.u16 6 (by omega)]
  · rw [mac, value.u16 6 (by omega)]
  · rw [mac, discriminator]
  · rw [word, value.u32 4 (by omega)]
  · rw [word, value.u32 4 (by omega)]
  · rfl

theorem segment_of_holds (s : SegmentId) (held : Holds m p s.bytes) :
    parseEthernetSegmentIdentifier m p = s.printed := by
  have same := held.sameBytes (holds_memOf s.bytes)
  rw [s.length_bytes] at same
  exact parseEthernetSegmentIdentifier_congr same

theorem mplsLabel_of_holds (l : Label) (held : Holds m p l.bytes) : mplsLabel m p = labelInt l := by
  unfold labelInt mplsLabel
  rw [labelWord_congr (held.sameBytes (holds_memOf l.bytes))]

theorem ethernetTagIdHex_of_holds (tag : Vector UInt8 4) (held : Holds m p tag.toList) :
    ethernetTagIdHex m p = hexText tag.toList := by
  rw [ethernetTagIdHex, held.read_of_length (by simp), hexText]

theorem parseMac_of_holds (mac : Vector UInt8 6) (held : Holds m p mac.toList) :
    parseMac m p = macText mac.toList := by
  rw [parseMac, held.read_of_length (by simp), macText]

theorem withRouteDistinguisher_of_holds (rd : Vector UInt8 8) (tuple : EvpnTuple)
    (held : Holds m p rd.toList) :
    withRouteDistinguisher m p tuple = withRouteDistinguisher (memOf rd.toList) 0 tuple := by
  have same := held.sameBytes (holds_memOf rd.toList)
  rw [Vector.length_toList] at same
  simp only [withRouteDistinguisher, parseRouteDistinguisher_congr _ same]

/-- Bytes of an address are copied to the front of a zeroed buffer and printed from there. -/
theorem readAddress_bytes (moves : Bool) {bytes : List UInt8} (store : Text → EvpnTuple)
    {dataLen : Nat} (c : EvpnCursor) (held : Holds m c.data bytes) (some_byte : 0 < bytes.length)
    (short : bytes.length ≤ 16) (room : c.read + bytes.length ≤ dataLen) :
    readAddress moves (8 * bytes.length) store m dataLen c =
      ⟨store (inetNtop (8 * bytes.length ≤ 32) (bytes ++ List.replicate (16 - bytes.length) 0)),
        if moves then c.data + bytes.length else c.data, c.read + bytes.length,
        c.len - bytes.length⟩ := by
  have count : min (8 * bytes.length / 8) 16 = bytes.length := by omega
  simp only [readAddress, count, copyRaw_of_holds 16 held rfl short]
  exact if_pos ⟨by omega, by omega⟩

/-- An address the field has room for, or none at all. -/
theorem readAddress_of_holds (moves : Bool) (a : EvpnAddress) (store : Text → EvpnTuple)
    {dataLen : Nat} (c : EvpnCursor) (held : Holds m c.data a.bytes)
    (room : c.read + a.bytes.length ≤ dataLen) (blank : store [] = c.tuple) :
    readAddress moves a.kind.bits store m dataLen c =
      ⟨store a.text, if moves then c.data + a.bytes.length else c.data, c.read + a.bytes.length,
        c.len - a.bytes.length⟩ := by
  obtain ⟨kind, bytes, size⟩ := a
  dsimp only at held room ⊢
  cases kind with
  | none =>
    have empty : bytes = [] := by simpa [AddressKind.bits] using size
    rw [readAddress, if_neg fun some => Nat.lt_irrefl 0 some.1]
    simp [EvpnAddress.text, empty, blank]
  | v4 =>
    have four : bytes.length = 4 := by simp only [AddressKind.bits] at size; omega
    have text : inetNtop (8 * bytes.length ≤ 32) (bytes ++ List.replicate (16 - bytes.length) 0) =
        inetNtop4 bytes := by
      rw [four]
      exact inetNtop4_append bytes _ (by omega)
    rw [← size, readAddress_bytes moves store c held (by omega) (by omega) room, text]
    rfl
  | v6 =>
    have sixteen : bytes.length = 16 := by simp only [AddressKind.bits] at size; omega
    have text : inetNtop (8 * bytes.length ≤ 32) (bytes ++ List.replicate (16 - bytes.length) 0) =
        inetNtop6 bytes := by
      rw [sixteen, Nat.sub_self, List.replicate_zero, List.append_nil]
      rfl
    rw [← size, readAddress_bytes moves store c held (by omega) (by omega) room, text]
    rfl

end Fields

/-! One turn at an encoded route. -/

section Turn

variable {m : Mem} {dataLen : Nat}

/-- What a turn leaves for the next one. -/
def EvpnCursor.left (c : EvpnCursor) : EvpnTuple × Nat × Nat := (c.tuple, c.data, c.read)

variable (rd : Vector UInt8 8) (data read : Nat)

theorem autoDiscovery_of_holds (segment : SegmentId) (tag : Vector UInt8 4) (label : Label)
    (len : Int) (held : Holds m data (RouteBody.autoDiscovery segment tag label).bytes)
    (room : read + 17 ≤ dataLen) :
    (ethernetAutoDiscovery m dataLen ⟨headTuple rd, data, read, len⟩).map EvpnCursor.left =
      (EvpnRoute.decoded ⟨rd, .autoDiscovery segment tag label⟩).map fun t =>
        (t, data + 17, read + 17) := by
  simp only [RouteBody.bytes, holds_append, segment.length_bytes, Vector.length_toList,
    Nat.add_assoc, Nat.reduceAdd] at held
  obtain ⟨heldSegment, heldTag, heldLabel⟩ := held
  rw [ethernetAutoDiscovery, if_pos room]
  dsimp only
  rw [segment_of_holds segment heldSegment, ethernetTagIdHex_of_holds tag heldTag,
    mplsLabel_of_holds label heldLabel, EvpnRoute.decoded, RouteBody.segment?, segmentField]
  cases segment.printed with
  | none => rfl
  | some printed =>
    simp only [Option.map_some]
    rfl

theorem multicast_of_holds (tag : Vector UInt8 4) (origin : EvpnAddress) (len : Int)
    (held : Holds m data (RouteBody.multicast tag origin).bytes)
    (room : read + 5 + origin.bytes.length ≤ dataLen) :
    (some (inclusiveMulticastEthernetTag m dataLen ⟨headTuple rd, data, read, len⟩)).map
        EvpnCursor.left =
      (EvpnRoute.decoded ⟨rd, .multicast tag origin⟩).map fun t =>
        (t, data + 5 + origin.bytes.length, read + 5 + origin.bytes.length) := by
  simp only [RouteBody.bytes, holds_append, Vector.length_toList, length_put8,
    Nat.add_assoc, Nat.reduceAdd] at held
  obtain ⟨heldTag, heldLen, heldAddress⟩ := held
  rw [inclusiveMulticastEthernetTag, if_pos (by dsimp only; omega)]
  dsimp only
  rw [heldLen.u8 origin.bits_lt, ethernetTagIdHex_of_holds tag heldTag,
    readAddress_of_holds true origin _ _ heldAddress room rfl, EvpnRoute.decoded,
    RouteBody.segment?, segmentField]
  rfl

theorem ethernetSegment_of_holds (segment : SegmentId) (origin : EvpnAddress) (len : Int)
    (held : Holds m data (RouteBody.ethernetSegment segment origin).bytes)
    (room : read + 11 + origin.bytes.length ≤ dataLen) :
    (ethernetSegmentRoute m dataLen ⟨headTuple rd, data, read, len⟩).map EvpnCursor.left =
      (EvpnRoute.decoded ⟨rd, .ethernetSegment segment origin⟩).map fun t =>
        (t, data + 11, read + 11 + origin.bytes.length) := by
  simp only [RouteBody.bytes, holds_append, segment.length_bytes, length_put8,
    Nat.add_assoc, Nat.reduceAdd] at held
  obtain ⟨heldSegment, heldLen, heldAddress⟩ := held
  rw [ethernetSegmentRoute, if_pos (by dsimp only; omega)]
  dsimp only
  rw [segment_of_holds segment heldSegment, heldLen.u8 origin.bits_lt, EvpnRoute.decoded,
    RouteBody.segment?, segmentField]
  cases segment.printed with
  | none => rfl
  | some printed =>
    simp only [Option.map_some]
    rw [readAddress_of_holds false origin _ _ heldAddress room rfl]
    rfl

theorem macIpLabel1_of_holds (c : EvpnCursor) (label : Label) (held : Holds m c.data label.bytes)
    (room : c.read + 3 ≤ dataLen) :
    macIpLabel1 m dataLen c = c.step 3 { c.tuple with mplsLabel1 := labelInt label } := by
  rw [macIpLabel1, if_pos room, mplsLabel_of_holds label held]

/-- The second label of a type 2 route is there when three octets are left. -/
theorem macIpLabel2_of_holds (c : EvpnCursor) (second : Option Label)
    (held : Holds m c.data (second.elim [] Label.bytes))
    (left : c.len = ((second.elim [] Label.bytes).length : Nat)) (fresh : c.tuple.mplsLabel2 = 0) :
    macIpLabel2 m c =
      c.step (second.elim [] Label.bytes).length
        { c.tuple with mplsLabel2 := labelField second } := by
  cases second with
  | none =>
    have none_left : c.len = 0 := left
    rw [macIpLabel2, if_neg (by rw [none_left]; decide), labelField, ← fresh]
    simp [EvpnCursor.step]
  | some second =>
    have three_left : c.len = 3 := left
    rw [macIpLabel2, if_pos three_left, mplsLabel_of_holds second held]
    rfl

theorem macIp_of_holds (segment : SegmentId) (tag : Vector UInt8 4) (mac : Vector UInt8 6)
    (ip : EvpnAddress) (label : Label) (second : Option Label)
    (held : Holds m data (RouteBody.macIp segment tag mac ip label second).bytes)
    (room : read + (RouteBody.macIp segment tag mac ip label second).bytes.length ≤ dataLen) :
    (macIpAdvertisment m dataLen ⟨headTuple rd, data, read,
        ((RouteBody.macIp segment tag mac ip label second).bytes.length : Nat)⟩).map
          EvpnCursor.left =
      (EvpnRoute.decoded ⟨rd, .macIp segment tag mac ip label second⟩).map fun t =>
        (t, data + (RouteBody.macIp segment tag mac ip label second).bytes.length,
          read + (RouteBody.macIp segment tag mac ip label second).bytes.length) := by
  rw [RouteBody.length_macIp] at room ⊢
  simp only [RouteBody.bytes, holds_append, segment.length_bytes, Vector.length_toList,
    length_put8, length_labelBytes, Nat.add_assoc, Nat.reduceAdd] at held
  obtain ⟨heldSegment, heldTag, heldMacLen, heldMac, heldLen, heldAddress, heldLabel, heldSecond⟩ :=
    held
  rw [macIpAdvertisment, if_pos (by dsimp only; omega)]
  dsimp only
  rw [segment_of_holds segment heldSegment, ethernetTagIdHex_of_holds tag heldTag,
    heldMacLen.u8 (by decide), parseMac_of_holds mac heldMac, heldLen.u8 ip.bits_lt,
    EvpnRoute.decoded, RouteBody.segment?, segmentField]
  cases segment.printed with
  | none => rfl
  | some printed =>
    simp only [Option.map_some]
    rw [readAddress_of_holds true ip _ _ heldAddress (by simp only [EvpnCursor.step]; omega) rfl,
      macIpLabel1_of_holds _ label (by simpa only [EvpnCursor.step, if_true, Nat.add_assoc] using heldLabel)
        (by simp only [EvpnCursor.step]; omega),
      macIpLabel2_of_holds _ second (by simpa only [EvpnCursor.step, if_true, Nat.add_assoc] using heldSecond)
        (by simp only [EvpnCursor.step]; omega) rfl]
    simp only [EvpnCursor.left, EvpnCursor.step, if_true, Nat.add_assoc]
    rfl

/-- The header of a route. -/
theorem routeHead_of_holds (r : EvpnRoute) (held : Holds m data r.encode) :
    u8 m data = r.body.type ∧
      routeHead m data read =
        ⟨headTuple r.rd, data + 10, read + 10, (r.body.bytes.length : Nat)⟩ ∧
      Holds m (data + 10) r.body.bytes := by
  have small := r.body.length_bytes_lt
  have type : r.body.type < 256 := by cases r.body <;> simp [RouteBody.type]
  simp only [EvpnRoute.encode, holds_append, length_put8, Vector.length_toList, Nat.add_assoc,
    Nat.reduceAdd] at held
  obtain ⟨heldType, heldLen, heldRd, heldBody⟩ := held
  refine ⟨heldType.u8 type, ?_, heldBody⟩
  rw [routeHead, heldLen.u8 (by omega), withRouteDistinguisher_of_holds r.rd _ heldRd]
  rw [← headTuple]
  congr 1
  omega

/-- At an encoded route a turn takes it in and counts its bytes; the data pointer stays
behind by the originator address of a type 4 route. -/
theorem evpnTurn_of_holds (r : EvpnRoute) (held : Holds m data r.encode)
    (room : read + r.encode.length ≤ dataLen) :
    (evpnTurn m dataLen data read).map EvpnCursor.left =
      r.decoded.map fun t =>
        (t, data + (r.encode.length - r.body.lag), read + r.encode.length) := by
  obtain ⟨type, head, heldBody⟩ := routeHead_of_holds data read r held
  have size := r.length_encode
  have same (data' read' : Nat) (hdata : data' = data + (r.encode.length - r.body.lag))
      (hread : read' = read + r.encode.length) :
      (r.decoded.map fun t => (t, data', read')) =
        r.decoded.map fun t => (t, data + (r.encode.length - r.body.lag), read + r.encode.length) := by
    rw [hdata, hread]
  rw [evpnTurn, type, head]
  obtain ⟨rd, body⟩ := r
  dsimp only at size same heldBody
  cases body with
  | autoDiscovery segment tag label =>
    have lag : (RouteBody.autoDiscovery segment tag label).lag = 0 := rfl
    have length := RouteBody.length_autoDiscovery segment tag label
    refine (autoDiscovery_of_holds rd _ _ segment tag label _ heldBody ?_).trans (same _ _ ?_ ?_)
    all_goals omega
  | macIp segment tag mac ip label second =>
    have lag : (RouteBody.macIp segment tag mac ip label second).lag = 0 := rfl
    refine (macIp_of_holds rd _ _ segment tag mac ip label second heldBody ?_).trans
      (same _ _ ?_ ?_)
    all_goals omega
  | multicast tag origin =>
    have lag : (RouteBody.multicast tag origin).lag = 0 := rfl
    have length := RouteBody.length_multicast tag origin
    refine (multicast_of_holds rd _ _ tag origin _ heldBody ?_).trans (same _ _ ?_ ?_)
    all_goals omega
  | ethernetSegment segment origin =>
    have lag : (RouteBody.ethernetSegment segment origin).lag = origin.bytes.length := rfl
    have length := RouteBody.length_ethernetSegment segment origin
    refine (ethernetSegment_of_holds rd _ _ segment origin _ heldBody ?_).trans (same _ _ ?_ ?_)
    all_goals omega

end Turn

end SonicBmp.Bgp.EvpnCodec
