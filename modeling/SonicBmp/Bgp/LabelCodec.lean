/- module: SonicBmp/Bgp/LabelCodec
   digest: Labelled and VPN prefixes as a peer encodes them, and the labelled NLRI loop over them. -/

import SonicBmp.Bgp.Nlri

set_option autoImplicit false
set_option relaxedAutoImplicit false

namespace SonicBmp.Bgp.LabelCodec

open SonicBmp.Library.Memory
open SonicBmp.Library.Printing (Text decimal)
open SonicBmp.Bgp.Common
open SonicBmp.Bgp.Nlri

/-! Label stacks. -/

/-- The three octets of a label stack entry. -/
structure Label where
  hi : UInt8
  mid : UInt8
  lo : UInt8
  deriving DecidableEq

def Label.bytes (l : Label) : List UInt8 := [l.hi, l.mid, l.lo]

def Label.value (l : Label) : Nat := l.hi.toNat * 4096 + l.mid.toNat * 16 + l.lo.toNat / 16

def Label.withdrawn : Label := ⟨0x80, 0, 0⟩

def Label.zero : Label := ⟨0, 0, 0⟩

/-- A stack ends at the bottom-of-stack bit; the two label fields of a withdrawal end
without it. -/
def Label.Ends (l : Label) : Prop := l.lo.toNat % 2 = 1 ∨ l = .withdrawn ∨ l = .zero

instance (l : Label) : Decidable l.Ends := inferInstanceAs (Decidable (_ ∨ _))

structure LabelField where
  upper : List Label
  last : Label
  upper_open : ∀ l ∈ upper, ¬ l.Ends
  last_ends : last.Ends

def LabelField.bytes (f : LabelField) : List UInt8 := f.upper.flatMap Label.bytes ++ f.last.bytes

def LabelField.text (f : LabelField) : Text :=
  f.upper.flatMap (fun l => decimal l.value ++ [',']) ++ decimal f.last.value

theorem LabelField.length_bytes (f : LabelField) : f.bytes.length = 3 * f.upper.length + 3 := by
  have upper (ls : List Label) : (ls.flatMap Label.bytes).length = 3 * ls.length := by
    induction ls with
    | nil => rfl
    | cons l ls ih =>
      simp only [List.flatMap_cons, List.length_append, ih, List.length_cons, Label.bytes,
        List.length_nil]
      omega
  simp [LabelField.bytes, upper, Label.bytes]

theorem decimal_ne_nil (n : Nat) : decimal n ≠ [] := Nat.toDigits_ne_nil

theorem LabelField.text_ne_nil (f : LabelField) : f.text ≠ [] := by
  simp [LabelField.text, decimal_ne_nil]

private theorem labelWord_of_holds {m : Mem} {data : Nat} {l : Label} (h : Holds m data l.bytes) :
    labelWord m data / 4096 = l.value ∧
      (labelWord m data / 256 % 2 = 1 ∨ labelWord m data = 0x80000000 ∨ labelWord m data = 0 ↔
        l.Ends) := by
  obtain ⟨hi, mid, lo⟩ := l
  simp only [Label.bytes, holds_cons, holds_nil, and_true] at h
  obtain ⟨hhi, hmid, hlo⟩ := h
  have h0 := hi.toNat_lt
  have h1 := mid.toNat_lt
  have h2 := lo.toNat_lt
  simp only [labelWord, u8, hhi, hmid, Nat.add_assoc, Nat.reduceAdd] at hlo ⊢
  simp only [hlo, Label.value, Label.Ends, Label.withdrawn, Label.zero, Label.mk.injEq,
    ← UInt8.toNat_inj, UInt8.reduceToNat]
  constructor <;> omega

private theorem decodeLabelLoop_of_holds {m : Mem} {len : Nat} (upper : List Label) (last : Label)
    (upper_open : ∀ l ∈ upper, ¬ l.Ends) (last_ends : last.Ends) (data readSize : Nat)
    (labels : Text) (h : Holds m data (upper.flatMap Label.bytes ++ last.bytes))
    (room : readSize + 3 * upper.length ≤ len) :
    decodeLabelLoop m len data readSize labels =
      (readSize + 3 * upper.length + 3,
        labels ++ (upper.flatMap (fun l => decimal l.value ++ [',']) ++ decimal last.value)) := by
  induction upper generalizing data readSize labels with
  | nil =>
    obtain ⟨value, ends⟩ := labelWord_of_holds h
    rw [decodeLabelLoop, if_pos (by simpa using room)]
    simp only [value]
    rw [if_pos (ends.mpr last_ends)]
    simp
  | cons l upper ih =>
    simp only [List.flatMap_cons, List.append_assoc, List.length_cons] at h room
    rw [holds_append] at h
    obtain ⟨value, ends⟩ := labelWord_of_holds h.1
    rw [decodeLabelLoop, if_pos (by omega)]
    simp only [value]
    rw [if_neg (fun e => upper_open l List.mem_cons_self (ends.mp e)),
      ih (fun k hk => upper_open k (List.mem_cons_of_mem _ hk)) (data + 3) (readSize + 3) _ h.2
        (by omega)]
    simp only [List.length_cons, List.flatMap_cons, List.append_assoc]
    congr 1
    omega

theorem decodeLabel_of_holds {m : Mem} {data len : Nat} (f : LabelField)
    (h : Holds m data f.bytes) (room : f.bytes.length ≤ len) :
    decodeLabel m data len = (f.bytes.length, f.text) := by
  rw [f.length_bytes] at room ⊢
  have loop := @decodeLabelLoop_of_holds m len f.upper f.last f.upper_open f.last_ends data 0 [] h
    (by omega)
  rw [decodeLabel, loop, Nat.zero_add]
  rfl

/-! Route distinguishers. -/

/-- The three registered types: a two-octet number, an address or a four-octet number
with an assigned number. -/
inductive RouteDistinguisher
  | asn2 (asn : UInt16) (assigned : UInt32)
  | ipv4 (ip : UInt32) (assigned : UInt16)
  | asn4 (asn : UInt32) (assigned : UInt16)
  deriving DecidableEq

def RouteDistinguisher.type : RouteDistinguisher → Nat
  | .asn2 _ _ => 0
  | .ipv4 _ _ => 1
  | .asn4 _ _ => 2

def RouteDistinguisher.bytes (rd : RouteDistinguisher) : List UInt8 :=
  put16 rd.type ++ match rd with
    | .asn2 asn assigned => put16 asn.toNat ++ put32 assigned.toNat
    | .ipv4 ip assigned => put32 ip.toNat ++ put16 assigned.toNat
    | .asn4 asn assigned => put32 asn.toNat ++ put16 assigned.toNat

def RouteDistinguisher.assignedText : RouteDistinguisher → Text
  | .asn2 _ assigned => decimal assigned.toNat
  | .ipv4 _ assigned => decimal assigned.toNat
  | .asn4 _ assigned => decimal assigned.toNat

/-- The administrator text the parser leaves: types 0 and 2 start with the assigned
number once more. -/
def RouteDistinguisher.administratorText : RouteDistinguisher → Text
  | .asn2 asn assigned => decimal assigned.toNat ++ decimal asn.toNat
  | .ipv4 ip _ => inetNtop4 (put32 ip.toNat)
  | .asn4 asn assigned => decimal assigned.toNat ++ decimal asn.toNat

theorem RouteDistinguisher.length_bytes (rd : RouteDistinguisher) : rd.bytes.length = 8 := by
  cases rd <;> rfl

theorem parseRouteDistinguisher_of_holds {m : Mem} {data : Nat} (rd : RouteDistinguisher)
    (tuple : VpnTuple) (h : Holds m data rd.bytes) :
    parseRouteDistinguisher m data tuple =
      { tuple with
        rdType := rd.type
        rdAssignedNumber := rd.assignedText
        rdAdministratorSubfield := rd.administratorText } := by
  have kind : u8 m (data + 1) = rd.type := by
    simp only [RouteDistinguisher.bytes, holds_append, put16, holds_cons] at h
    simp only [u8, h.1.2.1]
    cases rd <;> rfl
  unfold parseRouteDistinguisher
  cases rd with
  | asn2 asn assigned =>
    simp only [RouteDistinguisher.bytes, holds_append, length_put16] at h
    simp only [kind, RouteDistinguisher.type, h.2.1.u16 asn.toNat_lt,
      h.2.2.u32 assigned.toNat_lt, RouteDistinguisher.assignedText,
      RouteDistinguisher.administratorText]
  | ipv4 ip assigned =>
    simp only [RouteDistinguisher.bytes, holds_append, length_put16, length_put32] at h
    have address := h.2.1.read_of_length (length_put32 ip.toNat)
    simp only [kind, RouteDistinguisher.type, h.2.2.u16 assigned.toNat_lt, address,
      RouteDistinguisher.assignedText, RouteDistinguisher.administratorText]
  | asn4 asn assigned =>
    simp only [RouteDistinguisher.bytes, holds_append, length_put16, length_put32] at h
    simp only [kind, RouteDistinguisher.type, h.2.1.u32 asn.toNat_lt,
      h.2.2.u16 assigned.toNat_lt, RouteDistinguisher.assignedText,
      RouteDistinguisher.administratorText]

/-- Eight octets decide what a distinguisher leaves, of a registered type or not. -/
theorem parseRouteDistinguisher_congr {m m' : Mem} {data data' : Nat} (tuple : VpnTuple)
    (same : SameBytes 8 m data m' data') :
    parseRouteDistinguisher m data tuple = parseRouteDistinguisher m' data' tuple := by
  have address : readBytes m (data + 2) 4 = readBytes m' (data' + 2) 4 := same.within 2 4 (by omega)
  simp only [parseRouteDistinguisher, same.u8 1 (by omega), same.u16 2 (by omega),
    same.u16 6 (by omega), same.u32 2 (by omega), same.u32 4 (by omega), address]

/-! Labelled prefixes: label stack, route distinguisher of a VPN route, address. -/

variable {isIPv4 isVPN : Bool}

/-- An entry of a labelled NLRI field with the octets of its distinguisher, of any type;
the length octet counts the bits of all its parts. -/
structure RawRoute (isIPv4 isVPN : Bool) where
  labels : LabelField
  rd : List UInt8
  route : Prefix isIPv4
  rd_length : rd.length = if isVPN then 8 else 0
  fits : 8 * labels.bytes.length + (if isVPN then 64 else 0) + route.len < 256

namespace RawRoute

def bits (e : RawRoute isIPv4 isVPN) : Nat :=
  8 * e.labels.bytes.length + (if isVPN then 64 else 0) + e.route.len

def body (e : RawRoute isIPv4 isVPN) : List UInt8 :=
  put8 e.bits ++ (e.labels.bytes ++ (e.rd ++ e.route.addr))

/-- Path identifiers as the parser expects them: never on a VPN route. -/
def encode (addPath : Bool) (e : RawRoute isIPv4 isVPN) : List UInt8 :=
  (if addPath && !isVPN then put32 e.route.pathId.toNat else []) ++ e.body

theorem addrBytes_bits (e : RawRoute isIPv4 isVPN) :
    addrBytes e.bits = e.labels.bytes.length + e.rd.length + e.route.addr.length := by
  rw [e.rd_length, ← e.route.addrBytes_len]
  unfold addrBytes bits
  cases isVPN <;> simp only [if_true, Bool.false_eq_true, if_false] <;> split <;> split <;> omega

theorem length_encode (addPath : Bool) (e : RawRoute isIPv4 isVPN) :
    (e.encode addPath).length =
      (if addPath && !isVPN then 4 else 0) + 1 + e.labels.bytes.length + e.rd.length +
        e.route.addr.length := by
  simp only [encode, body, List.length_append, length_put8]
  split
  · simp only [length_put32]
    omega
  · simp only [List.length_nil]
    omega

/-- The distinguisher of a VPN route; one of no registered type writes its type only. -/
def distinguish (e : RawRoute isIPv4 isVPN) (t : VpnTuple) : VpnTuple :=
  if isVPN then parseRouteDistinguisher (memOf e.rd) 0 t else t

/-- What an entry makes of the tuple object the loop uses for all of them. A default
route leaves the binary address alone. -/
def write (addPath : Bool) (e : RawRoute isIPv4 isVPN) (t : VpnTuple) : VpnTuple :=
  { e.distinguish t with
    len := e.route.len
    prefixText := inetNtop isIPv4 e.route.bin
    prefixBin := if e.route.addr = [] then t.prefixBin else e.route.bin
    pathId := if addPath && !isVPN then e.route.pathId.toNat else 0
    labels := e.labels.text }

/-- The tuples the loop leaves, each written over the one before. -/
def writeAll (addPath : Bool) : List (RawRoute isIPv4 isVPN) → VpnTuple → List VpnTuple
  | [], _ => []
  | e :: es, t => e.write addPath t :: writeAll addPath es (e.write addPath t)

end RawRoute

/-- A distinguisher writes none of the fields of a plain tuple, and reads none. -/
theorem RawRoute.distinguish_frame (e : RawRoute isIPv4 isVPN) (t : VpnTuple) (p : PrefixTuple) :
    e.distinguish { t with toPrefixTuple := p } =
      { e.distinguish t with toPrefixTuple := p } := by
  unfold RawRoute.distinguish parseRouteDistinguisher
  cases isVPN with
  | false => rfl
  | true =>
    rw [if_pos rfl, if_pos rfl]
    split <;> rfl

theorem RawRoute.distinguish_toPrefixTuple (e : RawRoute isIPv4 isVPN) (t : VpnTuple) :
    (e.distinguish t).toPrefixTuple = t.toPrefixTuple := by
  have framed := e.distinguish_frame t t.toPrefixTuple
  exact (congrArg VpnTuple.toPrefixTuple framed :)

section OneEntry

variable {m : Mem}

private theorem labelHead_of_holds (addPath : Bool) (len : Nat) (e : RawRoute isIPv4 isVPN)
    (c : LabelCursor) (h : Holds m c.data (e.encode addPath))
    (room : c.readSize + (e.encode addPath).length ≤ len) :
    let id := if addPath && !isVPN then 4 else 0
    let after := c.data + id + 1 + e.labels.bytes.length
    labelHead isVPN addPath m len c =
        (⟨{ c.tuple with
            pathId := if addPath && !isVPN then e.route.pathId.toNat else 0
            labels := e.labels.text
            len := (if isVPN then 64 else 0) + e.route.len },
          after, c.readSize + id + e.labels.bytes.length⟩,
          ((e.rd.length + e.route.addr.length : Nat) : Int)) ∧
      Holds m after (e.rd ++ e.route.addr) := by
  have size := e.length_encode addPath
  have bits := e.addrBytes_bits
  have small : e.bits < 256 := e.fits
  have id : pathIdAt (addPath && !isVPN) m c.data (len - c.readSize) =
      (if addPath && !isVPN then e.route.pathId.toNat else 0,
        if addPath && !isVPN then 4 else 0) := by
    cases present : addPath && !isVPN with
    | false => simp [pathIdAt]
    | true =>
      rw [present, if_pos rfl] at size
      have enough : 4 ≤ len - c.readSize := by omega
      simp only [RawRoute.encode, present, if_true, holds_append] at h
      simp only [pathIdAt, Bool.true_and, decide_eq_true_eq, if_pos enough, if_true]
      rw [h.1.u32 e.route.pathId.toNat_lt]
  have body : Holds m (c.data + if addPath && !isVPN then 4 else 0) e.body := by
    cases present : addPath && !isVPN with
    | false =>
      simp only [RawRoute.encode, present, Bool.false_eq_true, if_false, List.nil_append] at h
      exact h
    | true =>
      simp only [RawRoute.encode, present, if_true, holds_append, length_put32] at h
      exact h.2
  simp only [RawRoute.body, holds_append, length_put8] at body
  obtain ⟨hbits, hlabels, hrest⟩ := body
  have octet := hbits.u8 small
  have labels := @decodeLabel_of_holds m _ (addrBytes e.bits) e.labels hlabels (by omega)
  have left : ((addrBytes e.bits : Nat) : Int) - (e.labels.bytes.length : Nat) =
      ((e.rd.length + e.route.addr.length : Nat) : Int) := by omega
  have length : (e.bits + 2048 - 8 * e.labels.bytes.length) % 256 =
      (if isVPN then 64 else 0) + e.route.len := by
    unfold RawRoute.bits at small ⊢
    omega
  refine ⟨?_, by simpa only [holds_append] using hrest⟩
  simp only [labelHead, id, octet, labels, left, length]

private theorem labelRd_of_holds (e : RawRoute isIPv4 isVPN) (t : VpnTuple)
    (data readSize : Nat) (len : t.len = (if isVPN then 64 else 0) + e.route.len)
    (h : Holds m data (e.rd ++ e.route.addr)) :
    labelRd isVPN m (⟨t, data, readSize⟩, ((e.rd.length + e.route.addr.length : Nat) : Int)) =
        (⟨{ e.distinguish t with len := e.route.len },
          data + e.rd.length, readSize + e.rd.length⟩, (e.route.addr.length : Int)) ∧
      Holds m (data + e.rd.length) e.route.addr := by
  have short := e.route.len_lt
  have size := e.rd_length
  rw [holds_append] at h
  obtain ⟨hrd, haddr⟩ := h
  refine ⟨?_, haddr⟩
  cases isVPN with
  | false =>
    have none_read : e.rd = [] := List.length_eq_zero_iff.mp size
    simp only [Bool.false_eq_true, if_false, Nat.zero_add] at len
    simp [labelRd, RawRoute.distinguish, none_read, ← len]
  | true =>
    simp only [if_true] at size len
    have same := hrd.sameBytes (holds_memOf e.rd)
    rw [size] at same ⊢
    have enough : (8 : Int) ≤ ((8 + e.route.addr.length : Nat) : Int) := by omega
    have rest : ((8 + e.route.addr.length : Nat) : Int) - 8 = (e.route.addr.length : Int) := by
      omega
    have kept : (parseRouteDistinguisher (memOf e.rd) 0 t).len = t.len :=
      congrArg PrefixTuple.len (e.distinguish_toPrefixTuple t)
    have length : (t.len + 256 - 64) % 256 = e.route.len := by omega
    simp only [labelRd, Bool.true_and, decide_eq_true_eq, if_pos enough, rest,
      parseRouteDistinguisher_congr _ same, kept, length, RawRoute.distinguish, if_true]

theorem inetNtop_default (isIPv4 : Bool) :
    inetNtop isIPv4 (List.replicate 16 0) = if isIPv4 then "0.0.0.0".toList else "::".toList := by
  cases isIPv4 <;> decide

private theorem labelAddr_of_holds (e : RawRoute isIPv4 isVPN) (t : VpnTuple)
    (data readSize : Nat) (h : Holds m data e.route.addr) :
    labelAddr isIPv4 m (⟨t, data, readSize⟩, (e.route.addr.length : Int)) =
      ⟨{ t with
          prefixText := inetNtop isIPv4 e.route.bin
          prefixBin := if e.route.addr = [] then t.prefixBin else e.route.bin },
        data + e.route.addr.length, readSize + e.route.addr.length⟩ := by
  unfold labelAddr
  by_cases empty : e.route.addr = []
  · have zeros : e.route.bin = List.replicate 16 0 := by simp [Prefix.bin, empty]
    rw [empty, zeros, inetNtop_default]
    rfl
  · have some_byte : 0 < e.route.addr.length := List.length_pos_iff.mpr empty
    have raw : copyRaw 16 m data e.route.addr.length = e.route.bin :=
      copyRaw_of_holds 16 h rfl e.route.addr_length_le
    rw [if_pos (by simpa using some_byte), if_neg empty]
    simp only [Int.toNat_natCast, raw]

/-- One turn of the loop reads one entry and stops at its end, but for the octet that
the loop itself counts. -/
theorem labelEntry_of_holds (addPath : Bool) (len : Nat) (e : RawRoute isIPv4 isVPN)
    (c : LabelCursor) (h : Holds m c.data (e.encode addPath))
    (room : c.readSize + (e.encode addPath).length ≤ len) :
    let next := labelEntry isIPv4 isVPN addPath m len c
    next.tuple = e.write addPath c.tuple ∧ next.data = c.data + (e.encode addPath).length ∧
      next.readSize + 1 = c.readSize + (e.encode addPath).length := by
  obtain ⟨head, held⟩ := labelHead_of_holds addPath len e c h room
  dsimp only at head held
  have size := e.length_encode addPath
  simp only [labelEntry, head]
  obtain ⟨distinguished, heldAddr⟩ := labelRd_of_holds e
    { c.tuple with
      pathId := if addPath && !isVPN then e.route.pathId.toNat else 0
      labels := e.labels.text
      len := (if isVPN then 64 else 0) + e.route.len }
    _ (c.readSize + (if addPath && !isVPN then 4 else 0) + e.labels.bytes.length) rfl held
  rw [distinguished, labelAddr_of_holds e _ _ _ heldAddr]
  rw [RawRoute.distinguish_frame]
  refine ⟨?_, ?_, ?_⟩
  · simp only [RawRoute.write, RawRoute.distinguish_toPrefixTuple]
  · dsimp only
    omega
  · dsimp only
    omega

end OneEntry

/-- The loop over any entries. -/
theorem nlriLoopLabel_of_holds {m : Mem} (addPath : Bool) (es : List (RawRoute isIPv4 isVPN))
    (len : Nat) (c : LabelCursor) (acc : List VpnTuple)
    (h : Holds m c.data (es.flatMap (RawRoute.encode addPath)))
    (hlen : len = c.readSize + (es.flatMap (RawRoute.encode addPath)).length) :
    nlriLoopLabel isIPv4 isVPN addPath m len c acc = acc ++ RawRoute.writeAll addPath es c.tuple := by
  induction es generalizing c acc with
  | nil =>
    have done : ¬ c.readSize < len := by rw [List.flatMap_nil, List.length_nil] at hlen; omega
    rw [nlriLoopLabel, if_neg done]
    simp [RawRoute.writeAll]
  | cons e es ih =>
    rw [List.flatMap_cons, holds_append] at h
    rw [List.flatMap_cons, List.length_append] at hlen
    have size := e.length_encode addPath
    obtain ⟨tuple, data, count⟩ := labelEntry_of_holds addPath len e c h.1 (by omega)
    rw [nlriLoopLabel, if_pos (by omega)]
    dsimp only
    rw [ih _ _ (by dsimp only; rw [data]; exact h.2) (by dsimp only; omega)]
    simp only [tuple, RawRoute.writeAll, List.append_assoc, List.cons_append, List.nil_append]

/-! Entries whose distinguisher is of a registered type. -/

structure LabelRoute (isIPv4 isVPN : Bool) where
  labels : LabelField
  rd : Option RouteDistinguisher
  route : Prefix isIPv4
  rd_isSome : rd.isSome = isVPN
  fits : 8 * labels.bytes.length + (if isVPN then 64 else 0) + route.len < 256

def LabelRoute.rdBytes (e : LabelRoute isIPv4 isVPN) : List UInt8 :=
  e.rd.elim [] RouteDistinguisher.bytes

def LabelRoute.bits (e : LabelRoute isIPv4 isVPN) : Nat :=
  8 * e.labels.bytes.length + (if isVPN then 64 else 0) + e.route.len

def LabelRoute.body (e : LabelRoute isIPv4 isVPN) : List UInt8 :=
  put8 e.bits ++ (e.labels.bytes ++ (e.rdBytes ++ e.route.addr))

def LabelRoute.encode (addPath : Bool) (e : LabelRoute isIPv4 isVPN) : List UInt8 :=
  (if addPath && !isVPN then put32 e.route.pathId.toNat else []) ++ e.body

def encodeLabelRoutes (addPath : Bool) (es : List (LabelRoute isIPv4 isVPN)) : List UInt8 :=
  es.flatMap (LabelRoute.encode addPath)

theorem LabelRoute.length_rdBytes (e : LabelRoute isIPv4 isVPN) :
    e.rdBytes.length = if isVPN then 8 else 0 := by
  have some_rd := e.rd_isSome
  unfold LabelRoute.rdBytes
  cases rd : e.rd with
  | none =>
    rw [rd] at some_rd
    simp [← some_rd]
  | some d =>
    rw [rd] at some_rd
    simp [← some_rd, d.length_bytes]

def LabelRoute.raw (e : LabelRoute isIPv4 isVPN) : RawRoute isIPv4 isVPN :=
  ⟨e.labels, e.rdBytes, e.route, e.length_rdBytes, e.fits⟩

theorem LabelRoute.encode_raw (addPath : Bool) (e : LabelRoute isIPv4 isVPN) :
    e.raw.encode addPath = e.encode addPath := rfl

theorem flatMap_encode_raw (addPath : Bool) (es : List (LabelRoute isIPv4 isVPN)) :
    (es.map LabelRoute.raw).flatMap (RawRoute.encode addPath) = encodeLabelRoutes addPath es := by
  rw [List.flatMap_map]
  exact List.flatMap_congr fun e _ => e.encode_raw addPath

/-- What an entry makes of the tuple object the loop uses for all of them. A default
route leaves the binary address alone. -/
def LabelRoute.write (addPath : Bool) (e : LabelRoute isIPv4 isVPN) (t : VpnTuple) : VpnTuple :=
  { t with
    len := e.route.len
    prefixText := inetNtop isIPv4 e.route.bin
    prefixBin := if e.route.addr = [] then t.prefixBin else e.route.bin
    pathId := if addPath && !isVPN then e.route.pathId.toNat else 0
    labels := e.labels.text
    rdType := e.rd.elim t.rdType RouteDistinguisher.type
    rdAssignedNumber := e.rd.elim t.rdAssignedNumber RouteDistinguisher.assignedText
    rdAdministratorSubfield :=
      e.rd.elim t.rdAdministratorSubfield RouteDistinguisher.administratorText }

theorem LabelRoute.write_raw (addPath : Bool) (e : LabelRoute isIPv4 isVPN) (t : VpnTuple) :
    e.raw.write addPath t = e.write addPath t := by
  have some_rd := e.rd_isSome
  cases rd : e.rd with
  | none =>
    rw [rd] at some_rd
    have vpn : isVPN = false := some_rd.symm
    subst vpn
    simp only [RawRoute.write, RawRoute.distinguish, LabelRoute.write, LabelRoute.raw, rd,
      Option.elim_none]
    rfl
  | some d =>
    rw [rd] at some_rd
    have vpn : isVPN = true := some_rd.symm
    subst vpn
    have read : e.rdBytes = d.bytes := by simp [LabelRoute.rdBytes, rd]
    simp only [RawRoute.write, RawRoute.distinguish, LabelRoute.write, LabelRoute.raw, rd, read,
      if_true, Option.elim_some, parseRouteDistinguisher_of_holds d t (holds_memOf d.bytes)]

/-- The tuples the loop leaves, each written over the one before. -/
def writeAll (addPath : Bool) : List (LabelRoute isIPv4 isVPN) → VpnTuple → List VpnTuple
  | [], _ => []
  | e :: es, t => e.write addPath t :: writeAll addPath es (e.write addPath t)

theorem writeAll_raw (addPath : Bool) (es : List (LabelRoute isIPv4 isVPN)) (t : VpnTuple) :
    RawRoute.writeAll addPath (es.map LabelRoute.raw) t = writeAll addPath es t := by
  induction es generalizing t with
  | nil => rfl
  | cons e es ih => rw [List.map_cons, RawRoute.writeAll, writeAll, e.write_raw, ih]

/-- A tuple without its binary address, the one part that can be left over from the
entry before. -/
def forgetBin (t : VpnTuple) : VpnTuple := { t with prefixBin := [] }

theorem map_forgetBin_writeAll (addPath : Bool) (es : List (LabelRoute isIPv4 isVPN))
    (stack t : VpnTuple) (type : t.type = stack.type) (family : t.isIPv4 = stack.isIPv4)
    (rd : isVPN = true ∨ t.rdType = stack.rdType ∧ t.rdAssignedNumber = stack.rdAssignedNumber ∧
      t.rdAdministratorSubfield = stack.rdAdministratorSubfield) :
    (writeAll addPath es t).map forgetBin = es.map (fun e => forgetBin (e.write addPath stack)) := by
  induction es generalizing t with
  | nil => rfl
  | cons e es ih =>
    have some_rd := e.rd_isSome
    have same : forgetBin (e.write addPath t) = forgetBin (e.write addPath stack) := by
      cases found : e.rd with
      | none =>
        rw [found] at some_rd
        obtain ⟨rdType, assigned, administrator⟩ := rd.resolve_left (by simp [← some_rd])
        simp [forgetBin, LabelRoute.write, found, type, family, rdType, assigned, administrator]
      | some d => simp [forgetBin, LabelRoute.write, found, type, family]
    rw [writeAll, List.map_cons, List.map_cons, same]
    congr 1
    refine ih _ type family ?_
    cases found : e.rd with
    | none => exact rd.imp id (fun kept => by simpa [LabelRoute.write, found] using kept)
    | some d =>
      rw [found] at some_rd
      exact Or.inl some_rd.symm

def labelType (isIPv4 : Bool) : PrefixType := if isIPv4 then .labelUnicastV4 else .labelUnicastV6

/-- The tuple of an entry without its binary address; `stack` shows through only where a
route without distinguisher leaves the distinguisher texts. -/
def LabelRoute.tuple (addPath : Bool) (stack : VpnTuple) (e : LabelRoute isIPv4 isVPN) : VpnTuple :=
  forgetBin (e.write addPath { stack with type := labelType isIPv4, isIPv4 := isIPv4 })

def addPathLabel (info : PeerInfo) (isIPv4 isVPN : Bool) : Bool :=
  isAddPathEnabled info.addPathCapability (bgpAfi isIPv4)
    (if isVPN then bgpSafiMpls else bgpSafiNlriLabel)

theorem flatMap_encode_eq_nil {addPath : Bool} {es : List (RawRoute isIPv4 isVPN)} :
    es.flatMap (RawRoute.encode addPath) = [] ↔ es = [] := by
  cases es with
  | nil => simp
  | cons e es =>
    have size := e.length_encode addPath
    simp [← List.length_eq_zero_iff]
    omega

theorem encodeLabelRoutes_eq_nil {addPath : Bool} {es : List (LabelRoute isIPv4 isVPN)} :
    encodeLabelRoutes addPath es = [] ↔ es = [] := by
  rw [← flatMap_encode_raw, flatMap_encode_eq_nil, List.map_eq_nil_iff]

/-- The tuple object of the parser before its first entry. -/
def labelStack (isIPv4 : Bool) (stack : VpnTuple) : VpnTuple :=
  { stack with type := labelType isIPv4, isIPv4 := isIPv4 }

/-- The labelled parser leaves the tuples of the entries, whatever follows them in memory. -/
theorem parseLabel_of_holds (stack : VpnTuple) (info : PeerInfo) (m : Mem) (data : Nat)
    (es : List (RawRoute isIPv4 isVPN))
    (h : Holds m data (es.flatMap (RawRoute.encode (addPathLabel info isIPv4 isVPN)))) :
    parseNlriDataLabelIPv4IPv6 isIPv4 isVPN stack info m data
        (es.flatMap (RawRoute.encode (addPathLabel info isIPv4 isVPN))).length =
      RawRoute.writeAll (addPathLabel info isIPv4 isVPN) es (labelStack isIPv4 stack) := by
  unfold parseNlriDataLabelIPv4IPv6
  split
  · rename_i empty
    rw [flatMap_encode_eq_nil.mp (List.length_eq_zero_iff.mp empty)]
    rfl
  · exact nlriLoopLabel_of_holds (addPathLabel info isIPv4 isVPN) es _
      ⟨labelStack isIPv4 stack, data, 0⟩ [] h (Nat.zero_add _).symm

theorem parseNlriDataLabelIPv4IPv6_of_holds (stack : VpnTuple) (info : PeerInfo) (m : Mem)
    (data : Nat) (es : List (LabelRoute isIPv4 isVPN))
    (h : Holds m data (encodeLabelRoutes (addPathLabel info isIPv4 isVPN) es)) :
    parseNlriDataLabelIPv4IPv6 isIPv4 isVPN stack info m data
        (encodeLabelRoutes (addPathLabel info isIPv4 isVPN) es).length =
      writeAll (addPathLabel info isIPv4 isVPN) es (labelStack isIPv4 stack) := by
  rw [← flatMap_encode_raw] at h ⊢
  rw [parseLabel_of_holds stack info m data _ h, writeAll_raw]

/-- Up to the binary address of default routes they are the entries themselves. -/
theorem map_forgetBin_labelStack (addPath : Bool) (stack : VpnTuple)
    (es : List (LabelRoute isIPv4 isVPN)) :
    (writeAll addPath es (labelStack isIPv4 stack)).map forgetBin =
      es.map (LabelRoute.tuple addPath stack) :=
  map_forgetBin_writeAll _ es _ _ rfl rfl (Or.inr ⟨rfl, rfl, rfl⟩)

end SonicBmp.Bgp.LabelCodec
