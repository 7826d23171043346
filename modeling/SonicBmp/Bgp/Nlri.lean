/- module: SonicBmp/Bgp/Nlri
   digest: The three NLRI loops of the UPDATE parser and the unicast prefix round trip. -/

import Mathlib.Data.List.GetD
import SonicBmp.Library.Loop
import SonicBmp.Bgp.Common

set_option autoImplicit false
set_option relaxedAutoImplicit false

namespace SonicBmp.Bgp.Nlri

open SonicBmp.Library.Memory
open SonicBmp.Library.Loop
open SonicBmp.Library.Printing (Text decimal)
open SonicBmp.Bgp.Common

def addrBytes (bits : Nat) : Nat := if bits % 8 = 0 then bits / 8 else bits / 8 + 1

/-- `memcpy` of `n` bytes into a zeroed buffer of `size` bytes; what lands past
the buffer is not part of it. -/
def copyRaw (size : Nat) (m : Mem) (data n : Nat) : List UInt8 :=
  (readBytes m data n ++ List.replicate size 0).take size

def pathIdAt (addPath : Bool) (m : Mem) (data remaining : Nat) : Nat × Nat :=
  if addPath && 4 ≤ remaining then (u32 m data, 4) else (0, 0)

def tupleV4 (m : Mem) (data bits pathId : Nat) : PrefixTuple :=
  let raw := copyRaw 4 m data (addrBytes bits)
  { type := .unicastV4, len := bits, prefixText := inetNtop true raw,
    prefixBin := raw ++ List.replicate 12 0, pathId := pathId, isIPv4 := true, labels := [] }

/-- The loop of `parseNlriData_v4`. An entry longer than four bytes is reported and
its address bytes are not skipped. -/
def nlriLoopV4 (addPath : Bool) (m : Mem) (len data readSize : Nat)
    (prefixes : List PrefixTuple) : List PrefixTuple :=
  if readSize < len then
    let id := pathIdAt addPath m data (len - readSize)
    let bits := u8 m (data + id.2)
    let addr := data + id.2 + 1
    if addrBytes bits ≤ 4 then
      nlriLoopV4 addPath m len (addr + addrBytes bits) (readSize + id.2 + addrBytes bits + 1)
        (prefixes ++ [tupleV4 m addr bits id.1])
    else nlriLoopV4 addPath m len addr (readSize + id.2 + 1) prefixes
  else prefixes
termination_by len - readSize

def parseNlriDataV4 (info : PeerInfo) (m : Mem) (data len : Nat) (prefixes : List PrefixTuple) :
    List PrefixTuple :=
  if len = 0 then prefixes else nlriLoopV4 (info.addPathUnicast true) m len data 0 prefixes

def unicastType (isIPv4 : Bool) : PrefixType := if isIPv4 then .unicastV4 else .unicastV6

def tupleIPv4IPv6 (isIPv4 : Bool) (m : Mem) (data bits pathId : Nat) : PrefixTuple :=
  let raw := copyRaw 16 m data (addrBytes bits)
  { type := unicastType isIPv4, len := bits, prefixText := inetNtop isIPv4 raw,
    prefixBin := raw, pathId := pathId, isIPv4 := isIPv4, labels := [] }

/-- The loop of `parseNlriData_IPv4IPv6`, which checks no prefix length. -/
def nlriLoopIPv4IPv6 (isIPv4 addPath : Bool) (m : Mem) (len data readSize : Nat)
    (prefixes : List PrefixTuple) : List PrefixTuple :=
  if readSize < len then
    let id := pathIdAt addPath m data (len - readSize)
    let bits := u8 m (data + id.2)
    let addr := data + id.2 + 1
    nlriLoopIPv4IPv6 isIPv4 addPath m len (addr + addrBytes bits)
      (readSize + id.2 + addrBytes bits + 1)
      (prefixes ++ [tupleIPv4IPv6 isIPv4 m addr bits id.1])
  else prefixes
termination_by len - readSize

/-- `MPReachAttr::parseNlriData_IPv4IPv6`, shared by MP_REACH and MP_UNREACH. -/
def parseNlriDataIPv4IPv6 (isIPv4 : Bool) (info : PeerInfo) (m : Mem) (data len : Nat)
    (prefixes : List PrefixTuple) : List PrefixTuple :=
  if len = 0 then prefixes
  else nlriLoopIPv4IPv6 isIPv4 (info.addPathUnicast isIPv4) m len data 0 prefixes

/-- The label word after the byte swap: three octets above a zero octet. -/
def labelWord (m : Mem) (data : Nat) : Nat :=
  u8 m data * 16777216 + u8 m (data + 1) * 65536 + u8 m (data + 2) * 256

/-- The loop of `decodeLabel`: labels are read while the count is within `len`,
up to a bottom-of-stack, withdrawn or zero label. -/
def decodeLabelLoop (m : Mem) (len data readSize : Nat) (labels : Text) : Nat × Text :=
  if readSize ≤ len then
    let word := labelWord m data
    let labels := labels ++ decimal (word / 4096)
    if word / 256 % 2 = 1 ∨ word = 0x80000000 ∨ word = 0 then (readSize + 3, labels)
    else decodeLabelLoop m len (data + 3) (readSize + 3) (labels ++ [','])
  else (readSize, labels)
termination_by len + 1 - readSize

def decodeLabel (m : Mem) (data len : Nat) : Nat × Text := decodeLabelLoop m len data 0 []

/-- `EVPN::parseRouteDistinguisher`. The stream is never emptied between its two
uses, so for types 0 and 2 the administrator text starts with the assigned number;
an unknown type leaves both texts alone. -/
def parseRouteDistinguisher (m : Mem) (data : Nat) (tuple : VpnTuple) : VpnTuple :=
  match u8 m (data + 1) with
  | 0 =>
    let assigned := decimal (u32 m (data + 4))
    { tuple with
      rdType := 0
      rdAssignedNumber := assigned
      rdAdministratorSubfield := assigned ++ decimal (u16 m (data + 2)) }
  | 1 =>
    { tuple with
      rdType := 1
      rdAssignedNumber := decimal (u16 m (data + 6))
      rdAdministratorSubfield := inetNtop4 (readBytes m (data + 2) 4) }
  | 2 =>
    let assigned := decimal (u16 m (data + 6))
    { tuple with
      rdType := 2
      rdAssignedNumber := assigned
      rdAdministratorSubfield := assigned ++ decimal (u32 m (data + 2)) }
  | rdType => { tuple with rdType := rdType }

/-- Where one labelled entry leaves the loop: the shared tuple, the data pointer
and the bytes counted. -/
structure LabelCursor where
  tuple : VpnTuple
  data : Nat
  readSize : Nat

/-- Path identifier, length octet and label stack of one entry. The length octet
loses eight bits for every label byte, modulo the width of `u_char`. -/
def labelHead (isVPN addPath : Bool) (m : Mem) (len : Nat) (c : LabelCursor) :
    LabelCursor × Int :=
  let id := pathIdAt (addPath && !isVPN) m c.data (len - c.readSize)
  let bits := u8 m (c.data + id.2)
  let label := decodeLabel m (c.data + id.2 + 1) (addrBytes bits)
  ({ tuple := { c.tuple with
        pathId := id.1, labels := label.2, len := (bits + 2048 - 8 * label.1) % 256 },
     data := c.data + id.2 + 1 + label.1, readSize := c.readSize + id.2 + label.1 },
   (addrBytes bits : Int) - label.1)

def labelRd (isVPN : Bool) (m : Mem) (c : LabelCursor × Int) : LabelCursor × Int :=
  if isVPN && 8 ≤ c.2 then
    let tuple := parseRouteDistinguisher m c.1.data c.1.tuple
    ({ tuple := { tuple with len := (tuple.len + 256 - 64) % 256 },
       data := c.1.data + 8, readSize := c.1.readSize + 8 }, c.2 - 8)
  else c

/-- The address of an entry; a default route keeps the binary address of the
entry before it. -/
def labelAddr (isIPv4 : Bool) (m : Mem) (c : LabelCursor × Int) : LabelCursor :=
  if 0 < c.2 then
    let n := c.2.toNat
    let raw := copyRaw 16 m c.1.data n
    { tuple := { c.1.tuple with prefixText := inetNtop isIPv4 raw, prefixBin := raw },
      data := c.1.data + n, readSize := c.1.readSize + n }
  else
    { c.1 with tuple := { c.1.tuple with
        prefixText := if isIPv4 then "0.0.0.0".toList else "::".toList } }

theorem labelHead_readSize (isVPN addPath : Bool) (m : Mem) (len : Nat) (c : LabelCursor) :
    c.readSize ≤ (labelHead isVPN addPath m len c).1.readSize := by
  simp only [labelHead]
  omega

theorem labelRd_readSize (isVPN : Bool) (m : Mem) (c : LabelCursor × Int) :
    c.1.readSize ≤ (labelRd isVPN m c).1.readSize := by
  unfold labelRd
  split
  · exact Nat.le_add_right _ 8
  · exact le_rfl

theorem labelAddr_readSize (isIPv4 : Bool) (m : Mem) (c : LabelCursor × Int) :
    c.1.readSize ≤ (labelAddr isIPv4 m c).readSize := by
  unfold labelAddr
  split
  · exact Nat.le_add_right _ _
  · exact le_rfl

def labelEntry (isIPv4 isVPN addPath : Bool) (m : Mem) (len : Nat) (c : LabelCursor) :
    LabelCursor :=
  labelAddr isIPv4 m (labelRd isVPN m (labelHead isVPN addPath m len c))

theorem labelEntry_readSize (isIPv4 isVPN addPath : Bool) (m : Mem) (len : Nat) (c : LabelCursor) :
    c.readSize ≤ (labelEntry isIPv4 isVPN addPath m len c).readSize :=
  (labelHead_readSize isVPN addPath m len c).trans
    ((labelRd_readSize isVPN m _).trans (labelAddr_readSize isIPv4 m _))

/-- The loop of `parseNlriData_LabelIPv4IPv6`; one tuple object serves all entries. -/
def nlriLoopLabel (isIPv4 isVPN addPath : Bool) (m : Mem) (len : Nat) (c : LabelCursor)
    (prefixes : List VpnTuple) : List VpnTuple :=
  if c.readSize < len then
    let next := labelEntry isIPv4 isVPN addPath m len c
    nlriLoopLabel isIPv4 isVPN addPath m len { next with readSize := next.readSize + 1 }
      (prefixes ++ [next.tuple])
  else prefixes
termination_by len - c.readSize
decreasing_by
  have := labelEntry_readSize isIPv4 isVPN addPath m len c
  omega

/-- `MPReachAttr::parseNlriData_LabelIPv4IPv6` at either tuple type; `stack` is what
the local tuple holds before its first assignment. -/
def parseNlriDataLabelIPv4IPv6 (isIPv4 isVPN : Bool) (stack : VpnTuple) (info : PeerInfo)
    (m : Mem) (data len : Nat) : List VpnTuple :=
  if len = 0 then []
  else
    let type := if isIPv4 then PrefixType.labelUnicastV4 else PrefixType.labelUnicastV6
    let addPath := isAddPathEnabled info.addPathCapability (bgpAfi isIPv4)
      (if isVPN then bgpSafiMpls else bgpSafiNlriLabel)
    nlriLoopLabel isIPv4 isVPN addPath m len
      ⟨{ stack with type := type, isIPv4 := isIPv4 }, data, 0⟩ []

/-! Prefixes as a peer encodes them. -/

def maxBits (isIPv4 : Bool) : Nat := if isIPv4 then 32 else 128

/-- A unicast prefix of one family with the path identifier of an add-path session;
the host bits of its last byte are free. -/
structure Prefix (isIPv4 : Bool) where
  len : Nat
  addr : List UInt8
  pathId : UInt32
  len_le : len ≤ maxBits isIPv4
  addr_length : addr.length = (len + 7) / 8
  deriving DecidableEq

variable {isIPv4 : Bool}

def encodePrefix (addPath : Bool) (p : Prefix isIPv4) : List UInt8 :=
  (if addPath then put32 p.pathId.toNat else []) ++ (put8 p.len ++ p.addr)

def encodePrefixes (addPath : Bool) (ps : List (Prefix isIPv4)) : List UInt8 :=
  ps.flatMap (encodePrefix addPath)

def Prefix.bin (p : Prefix isIPv4) : List UInt8 :=
  p.addr ++ List.replicate (16 - p.addr.length) 0

def Prefix.tuple (addPath : Bool) (p : Prefix isIPv4) : PrefixTuple :=
  { type := unicastType isIPv4, len := p.len, prefixText := inetNtop isIPv4 p.bin,
    prefixBin := p.bin, pathId := if addPath then p.pathId.toNat else 0,
    isIPv4 := isIPv4, labels := [] }

theorem maxBits_le (isIPv4 : Bool) : maxBits isIPv4 ≤ 128 := by
  cases isIPv4 <;> decide

theorem Prefix.len_lt (p : Prefix isIPv4) : p.len < 256 := by
  have := p.len_le
  have := maxBits_le isIPv4
  omega

theorem Prefix.addrBytes_len (p : Prefix isIPv4) : addrBytes p.len = p.addr.length := by
  rw [p.addr_length]
  unfold addrBytes
  split <;> omega

theorem Prefix.addr_length_le (p : Prefix isIPv4) : p.addr.length ≤ 16 := by
  have := p.len_le
  have := maxBits_le isIPv4
  rw [p.addr_length]
  omega

theorem Prefix.addr_length_le_four (p : Prefix true) : p.addr.length ≤ 4 := by
  have : p.len ≤ 32 := p.len_le
  rw [p.addr_length]
  omega

theorem copyRaw_of_holds {m : Mem} {data n : Nat} {bs : List UInt8} (size : Nat)
    (h : Holds m data bs) (hn : bs.length = n) (hs : n ≤ size) :
    copyRaw size m data n = bs ++ List.replicate (size - n) 0 := by
  unfold copyRaw
  rw [h.read_of_length hn, List.take_append, hn, List.take_of_length_le (by omega),
    List.take_replicate, Nat.min_eq_left (by omega)]

theorem inetNtop4_append (a b : List UInt8) (h : 4 ≤ a.length) :
    inetNtop4 (a ++ b) = inetNtop4 a := by
  have left (i : Nat) (hi : i < 4) : (a ++ b).getD i 0 = a.getD i 0 :=
    List.getD_append a b 0 i (by omega)
  simp only [inetNtop4, left 0 (by omega), left 1 (by omega), left 2 (by omega),
    left 3 (by omega)]

theorem tupleV4_of_holds {m : Mem} {data : Nat} (p : Prefix true) (addPath : Bool)
    (h : Holds m data p.addr) :
    tupleV4 m data p.len (if addPath then p.pathId.toNat else 0) = p.tuple addPath := by
  have four := p.addr_length_le_four
  have raw : copyRaw 4 m data (addrBytes p.len) =
      p.addr ++ List.replicate (4 - p.addr.length) 0 := by
    rw [p.addrBytes_len]
    exact copyRaw_of_holds 4 h rfl four
  have bin : (p.addr ++ List.replicate (4 - p.addr.length) (0 : UInt8)) ++ List.replicate 12 0 =
      p.bin := by
    rw [List.append_assoc, List.replicate_append_replicate, Prefix.bin]
    congr 2
    omega
  have printed : inetNtop true (p.addr ++ List.replicate (4 - p.addr.length) 0) =
      inetNtop true p.bin := by
    rw [← bin]
    exact (inetNtop4_append _ _ (by simp; omega)).symm
  simp only [tupleV4, Prefix.tuple, raw, bin, printed, unicastType, if_true]

theorem tupleIPv4IPv6_of_holds {m : Mem} {data : Nat} (p : Prefix isIPv4) (addPath : Bool)
    (h : Holds m data p.addr) :
    tupleIPv4IPv6 isIPv4 m data p.len (if addPath then p.pathId.toNat else 0) =
      p.tuple addPath := by
  have raw : copyRaw 16 m data (addrBytes p.len) = p.bin := by
    rw [p.addrBytes_len]
    exact copyRaw_of_holds 16 h rfl p.addr_length_le
  simp only [tupleIPv4IPv6, Prefix.tuple, raw]

theorem pathIdAt_of_holds {m : Mem} {data : Nat} (remaining : Nat) (p : Prefix isIPv4)
    (addPath : Bool) (h : Holds m data (encodePrefix addPath p))
    (room : (encodePrefix addPath p).length ≤ remaining) :
    (pathIdAt addPath m data remaining).1 = (if addPath then p.pathId.toNat else 0) ∧
      u8 m (data + (pathIdAt addPath m data remaining).2) = p.len ∧
      Holds m (data + (pathIdAt addPath m data remaining).2 + 1) p.addr ∧
      (pathIdAt addPath m data remaining).2 + p.addr.length + 1 =
        (encodePrefix addPath p).length := by
  cases addPath with
  | false =>
    simp only [encodePrefix, Bool.false_eq_true, if_false, List.nil_append, holds_append,
      length_put8] at h
    exact ⟨rfl, h.1.u8 p.len_lt, h.2, by simp [pathIdAt, encodePrefix]; omega⟩
  | true =>
    simp only [encodePrefix, if_true, holds_append, length_put32, length_put8] at h
    have enough : 4 ≤ remaining := by
      simp only [encodePrefix, if_true, List.length_append, length_put32] at room
      omega
    have at4 : pathIdAt true m data remaining = (p.pathId.toNat, 4) := by
      simp only [pathIdAt, Bool.true_and, decide_eq_true_eq, if_pos enough]
      rw [h.1.u32 p.pathId.toNat_lt]
    rw [at4]
    exact ⟨rfl, h.2.1.u8 p.len_lt, h.2.2, by simp [encodePrefix]; omega⟩

theorem encodePrefix_length_pos (addPath : Bool) (p : Prefix isIPv4) :
    0 < (encodePrefix addPath p).length := by
  simp [encodePrefix]

private theorem nlriLoopV4_roundtrip (addPath : Bool) (m : Mem) (ps : List (Prefix true))
    (len data readSize : Nat) (acc : List PrefixTuple)
    (h : Holds m data (encodePrefixes addPath ps))
    (hlen : len = readSize + (encodePrefixes addPath ps).length) :
    nlriLoopV4 addPath m len data readSize acc = acc ++ ps.map (Prefix.tuple addPath) := by
  refine encodedLoop_map (encodePrefix addPath) (Prefix.tuple addPath)
    (nlriLoopV4 addPath m len) ?_ ?_ ps data readSize acc h hlen
  · intro data acc
    rw [nlriLoopV4, if_neg (Nat.lt_irrefl len)]
  · intro p data readSize acc held room
    obtain ⟨hid, hbits, haddr, hsize⟩ :=
      pathIdAt_of_holds (len - readSize) p addPath held (by omega)
    have more : readSize < len := by have := encodePrefix_length_pos addPath p; omega
    rw [nlriLoopV4, if_pos more]
    simp only [hbits, hid, tupleV4_of_holds p addPath haddr, p.addrBytes_len,
      if_pos p.addr_length_le_four]
    congr 1 <;> omega

private theorem nlriLoopIPv4IPv6_roundtrip (addPath : Bool) (m : Mem)
    (ps : List (Prefix isIPv4)) (len data readSize : Nat) (acc : List PrefixTuple)
    (h : Holds m data (encodePrefixes addPath ps))
    (hlen : len = readSize + (encodePrefixes addPath ps).length) :
    nlriLoopIPv4IPv6 isIPv4 addPath m len data readSize acc =
      acc ++ ps.map (Prefix.tuple addPath) := by
  refine encodedLoop_map (encodePrefix addPath) (Prefix.tuple addPath)
    (nlriLoopIPv4IPv6 isIPv4 addPath m len) ?_ ?_ ps data readSize acc h hlen
  · intro data acc
    rw [nlriLoopIPv4IPv6, if_neg (Nat.lt_irrefl len)]
  · intro p data readSize acc held room
    obtain ⟨hid, hbits, haddr, hsize⟩ :=
      pathIdAt_of_holds (len - readSize) p addPath held (by omega)
    have more : readSize < len := by have := encodePrefix_length_pos addPath p; omega
    rw [nlriLoopIPv4IPv6, if_pos more]
    simp only [hbits, hid, tupleIPv4IPv6_of_holds p addPath haddr, p.addrBytes_len]
    congr 1 <;> omega

theorem encodePrefixes_eq_nil {addPath : Bool} {ps : List (Prefix isIPv4)} :
    encodePrefixes addPath ps = [] ↔ ps = [] := by
  cases ps with
  | nil => simp [encodePrefixes]
  | cons p ps =>
    have := encodePrefix_length_pos addPath p
    simp [encodePrefixes, ← List.length_eq_zero_iff]
    omega

/-- The classic NLRI parser inverts the encoder, whatever follows in memory. -/
theorem parseNlriDataV4_roundtrip (info : PeerInfo) (m : Mem) (ps : List (Prefix true))
    (data : Nat) (acc : List PrefixTuple)
    (h : Holds m data (encodePrefixes (info.addPathUnicast true) ps)) :
    parseNlriDataV4 info m data (encodePrefixes (info.addPathUnicast true) ps).length acc =
      acc ++ ps.map (Prefix.tuple (info.addPathUnicast true)) := by
  unfold parseNlriDataV4
  split
  · rename_i hz
    have : ps = [] := encodePrefixes_eq_nil.mp (List.length_eq_zero_iff.mp hz)
    simp [this]
  · exact nlriLoopV4_roundtrip _ m ps _ data 0 acc h (by simp)

theorem parseNlriDataIPv4IPv6_roundtrip (info : PeerInfo) (m : Mem) (ps : List (Prefix isIPv4))
    (data : Nat) (acc : List PrefixTuple)
    (h : Holds m data (encodePrefixes (info.addPathUnicast isIPv4) ps)) :
    parseNlriDataIPv4IPv6 isIPv4 info m data
        (encodePrefixes (info.addPathUnicast isIPv4) ps).length acc =
      acc ++ ps.map (Prefix.tuple (info.addPathUnicast isIPv4)) := by
  unfold parseNlriDataIPv4IPv6
  split
  · rename_i hz
    have : ps = [] := encodePrefixes_eq_nil.mp (List.length_eq_zero_iff.mp hz)
    simp [this]
  · exact nlriLoopIPv4IPv6_roundtrip _ m ps _ data 0 acc h (by simp)

/-! The two IPv4 parsers on the same bytes. -/

theorem addrBytes_le_four {bits : Nat} (short : bits ≤ 32) : addrBytes bits ≤ 4 := by
  unfold addrBytes
  split <;> omega

/-- A prefix of at most 32 bits fits both buffers, and the larger one is zero behind it. -/
theorem tupleV4_eq_tupleIPv4IPv6 (m : Mem) (data bits pathId : Nat) (short : bits ≤ 32) :
    tupleV4 m data bits pathId = tupleIPv4IPv6 true m data bits pathId := by
  have four := addrBytes_le_four short
  have held : Holds m data (readBytes m data (addrBytes bits)) := by
    rw [Holds, length_readBytes]
  have raw4 := copyRaw_of_holds 4 held (length_readBytes m data _) four
  have raw16 := copyRaw_of_holds 16 held (length_readBytes m data _) (by omega)
  have bin : copyRaw 4 m data (addrBytes bits) ++ List.replicate 12 0 =
      copyRaw 16 m data (addrBytes bits) := by
    rw [raw4, raw16, List.append_assoc, List.replicate_append_replicate]
    congr 2
    omega
  have printed : inetNtop true (copyRaw 4 m data (addrBytes bits)) =
      inetNtop true (copyRaw 16 m data (addrBytes bits)) := by
    rw [← bin]
    exact (inetNtop4_append _ _ (by rw [raw4]; simp; omega)).symm
  simp only [tupleV4, tupleIPv4IPv6, bin, printed, unicastType, if_true]

theorem nlriLoopIPv4IPv6_append (addPath : Bool) (m : Mem) (len data readSize : Nat)
    (before prefixes : List PrefixTuple) :
    nlriLoopIPv4IPv6 isIPv4 addPath m len data readSize (before ++ prefixes) =
      before ++ nlriLoopIPv4IPv6 isIPv4 addPath m len data readSize prefixes := by
  fun_induction nlriLoopIPv4IPv6 isIPv4 addPath m len data readSize prefixes with
  | case1 data readSize prefixes more id bits addr ih =>
    rw [nlriLoopIPv4IPv6, if_pos more]
    simpa only [List.append_assoc] using ih
  | case2 data readSize prefixes done => rw [nlriLoopIPv4IPv6, if_neg done]

/-- Lock step of the two loops: as long as every length seen is at most 32, both
count and skip the same bytes. -/
private theorem nlriLoopV4_eq (addPath : Bool) (m : Mem) (len data readSize : Nat)
    (prefixes : List PrefixTuple)
    (short : ∀ t ∈ nlriLoopIPv4IPv6 true addPath m len data readSize [], t.len ≤ 32) :
    nlriLoopV4 addPath m len data readSize prefixes =
      nlriLoopIPv4IPv6 true addPath m len data readSize prefixes := by
  fun_induction nlriLoopIPv4IPv6 true addPath m len data readSize prefixes with
  | case1 data readSize prefixes more id bits addr ih =>
    have first : nlriLoopIPv4IPv6 true addPath m len data readSize [] =
        tupleIPv4IPv6 true m addr bits id.1 ::
          nlriLoopIPv4IPv6 true addPath m len (addr + addrBytes bits)
            (readSize + id.2 + addrBytes bits + 1) [] := by
      rw [nlriLoopIPv4IPv6, if_pos more]
      exact nlriLoopIPv4IPv6_append addPath m len _ _ [_] []
    rw [first, List.forall_mem_cons] at short
    have bits_le : bits ≤ 32 := short.1
    rw [nlriLoopV4, if_pos more]
    exact (if_pos (addrBytes_le_four bits_le)).trans
      ((tupleV4_eq_tupleIPv4IPv6 m addr bits id.1 bits_le).symm ▸ ih short.2)
  | case2 data readSize prefixes done => rw [nlriLoopV4, if_neg done]

/-- Where no IPv4 prefix of the multiprotocol parser is longer than 32 bits, the
classic parser appends the same tuples, also when both run past the end of the input. -/
theorem parseNlriDataV4_eq_parseNlriDataIPv4IPv6 (info : PeerInfo) (m : Mem) (data len : Nat)
    (prefixes : List PrefixTuple)
    (short : ∀ t ∈ parseNlriDataIPv4IPv6 true info m data len [], t.len ≤ 32) :
    parseNlriDataV4 info m data len prefixes =
      parseNlriDataIPv4IPv6 true info m data len prefixes := by
  unfold parseNlriDataV4 parseNlriDataIPv4IPv6
  by_cases empty : len = 0
  · rw [if_pos empty, if_pos empty]
  · rw [if_neg empty, if_neg empty]
    rw [parseNlriDataIPv4IPv6, if_neg empty] at short
    exact nlriLoopV4_eq _ m len data 0 prefixes short

/-- The prefix 10.1.x/24 of which the two bytes of the input hold only the start. -/
theorem truncated_prefix_parsed_alike :
    (∀ t ∈ parseNlriDataIPv4IPv6 true PeerInfo.fresh (memOf [24, 10, 1]) 0 2 [], t.len ≤ 32) ∧
      parseNlriDataV4 PeerInfo.fresh (memOf [24, 10, 1]) 0 2 [] =
        parseNlriDataIPv4IPv6 true PeerInfo.fresh (memOf [24, 10, 1]) 0 2 [] := by
  have one : parseNlriDataIPv4IPv6 true PeerInfo.fresh (memOf [24, 10, 1]) 0 2 [] =
      [tupleIPv4IPv6 true (memOf [24, 10, 1]) 1 24 0] := by
    rw [parseNlriDataIPv4IPv6, if_neg (by decide), nlriLoopIPv4IPv6, if_pos (by decide)]
    exact (nlriLoopIPv4IPv6.eq_def true false (memOf [24, 10, 1]) 2 4 4 _).trans (if_neg (by decide))
  have short : ∀ t ∈ parseNlriDataIPv4IPv6 true PeerInfo.fresh (memOf [24, 10, 1]) 0 2 [],
      t.len ≤ 32 := by
    rw [one]
    decide
  exact ⟨short, parseNlriDataV4_eq_parseNlriDataIPv4IPv6 PeerInfo.fresh _ 0 2 [] short⟩

end SonicBmp.Bgp.Nlri
