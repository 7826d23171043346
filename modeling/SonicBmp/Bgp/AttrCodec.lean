/- module: SonicBmp/Bgp/AttrCodec
   digest: Path attributes as a peer encodes them, and the attribute walk over an encoded list. -/

import SonicBmp.Bgp.Attributes

set_option autoImplicit false
set_option relaxedAutoImplicit false

namespace SonicBmp.Bgp.AttrCodec

open SonicBmp.Library.Memory
open SonicBmp.Library.Loop (strideLoop_step strideLoop_flatMap)
open SonicBmp.Library.Printing (Text decimal unwords unwords_cons)
open SonicBmp.Bgp.Common
open SonicBmp.Bgp.Nlri
open SonicBmp.Bgp.Attributes

/-! A list of attributes on the wire. -/

/-- A path attribute whose value fits the length field its flags announce. -/
structure PathAttr where
  flags : UInt8
  code : UInt8
  value : List UInt8
  fits : value.length < (if attrFlagExtended flags.toNat then 65536 else 256)

def PathAttr.encode (a : PathAttr) : List UInt8 :=
  [a.flags, a.code] ++
    ((if attrFlagExtended a.flags.toNat then put16 a.value.length else put8 a.value.length) ++
      a.value)

def encodeAttrs (attrs : List PathAttr) : List UInt8 := attrs.flatMap PathAttr.encode

theorem PathAttr.three_le_length (a : PathAttr) : 3 ≤ a.encode.length := by
  simp only [PathAttr.encode, List.length_append, List.length_cons, List.length_nil]
  split <;> simp only [length_put16, length_put8] <;> omega

theorem encode_head {m : Mem} {data : Nat} (a : PathAttr) (h : Holds m data a.encode) :
    let extended := attrFlagExtended (u8 m data)
    let width := if extended then 2 else 1
    (if extended then u16 m (data + 2) else u8 m (data + 2)) = a.value.length ∧
      u8 m (data + 1) = a.code.toNat ∧ Holds m (data + 2 + width) a.value ∧
      a.encode.length = 2 + width + a.value.length := by
  have fits := a.fits
  simp only [PathAttr.encode, List.cons_append, List.nil_append, holds_cons, holds_append] at h
  obtain ⟨hflags, hcode, hlen, hvalue⟩ := h
  have same : u8 m data = a.flags.toNat := by simp only [u8, hflags]
  have code : u8 m (data + 1) = a.code.toNat := by simp only [u8, hcode]
  simp only [same, PathAttr.encode, List.length_append, List.length_cons, List.length_nil]
  cases ext : attrFlagExtended a.flags.toNat with
  | true =>
    simp only [ext, if_true, length_put16] at fits hlen hvalue ⊢
    exact ⟨hlen.u16 fits, code, hvalue, by omega⟩
  | false =>
    simp only [ext, Bool.false_eq_true, if_false, length_put8] at fits hlen hvalue ⊢
    exact ⟨hlen.u8 fits, code, hvalue, by omega⟩

variable {D : Decoders}

private theorem attrLoop_cons {m : Mem} {data : Nat} (readSize len : Nat) (a : PathAttr)
    (h : Holds m data a.encode) (room : readSize + a.encode.length ≤ len) (st : UpdateState D) :
    ∃ p, Holds m p a.value ∧
      attrLoop D m len data readSize st =
        attrLoop D m len (data + a.encode.length) (readSize + a.encode.length)
          (if a.value = [] then st else parseAttrData D m a.code.toNat a.value.length p st) := by
  obtain ⟨hlen, hcode, hvalue, hsize⟩ := encode_head a h
  have more : readSize < len := by have := a.three_le_length; omega
  rw [attrLoop, if_pos more]
  simp only [hlen, hcode]
  generalize (if attrFlagExtended (u8 m data) then 2 else 1) = width at hvalue hsize ⊢
  refine ⟨data + 2 + width, hvalue, ?_⟩
  by_cases empty : a.value = []
  · simp only [empty, List.length_nil, Nat.lt_irrefl, false_and, if_false, if_true] at hsize ⊢
    rw [hsize]
    congr 1 <;> omega
  · have pos : 0 < a.value.length := List.length_pos_iff.mpr empty
    have fit : readSize + width + a.value.length ≤ len := by omega
    rw [if_pos ⟨pos, fit⟩, if_neg empty]
    congr 1 <;> omega

/-- Invariant rule of the attribute walk. The attributes come as `wire x` for the
items of a list; the invariant speaks of the items already walked, and a step may
use where it stands in the list. -/
theorem attrLoop_rule {β : Type} (wire : β → PathAttr) {m : Mem}
    (Inv : List β → UpdateState D → Prop) {all : List β}
    (step : ∀ before x after st p, all = before ++ x :: after → Inv before st →
      (wire x).value ≠ [] → Holds m p (wire x).value →
      Inv (before ++ [x])
        (parseAttrData D m (wire x).code.toNat (wire x).value.length p st))
    (skip : ∀ before x after st, all = before ++ x :: after → Inv before st →
      (wire x).value = [] → Inv (before ++ [x]) st)
    (rest before : List β) (here : all = before ++ rest) (st : UpdateState D)
    (start : Inv before st) (data readSize len : Nat)
    (hold : Holds m data (encodeAttrs (rest.map wire)))
    (hlen : len = readSize + (encodeAttrs (rest.map wire)).length) :
    Inv all (attrLoop D m len data readSize st) := by
  induction rest generalizing before st data readSize with
  | nil =>
    have done : ¬ readSize < len := by simp [encodeAttrs] at hlen; omega
    rw [attrLoop, if_neg done]
    simpa [here] using start
  | cons x rest ih =>
    have split : encodeAttrs ((x :: rest).map wire) =
        (wire x).encode ++ encodeAttrs (rest.map wire) := rfl
    rw [split, holds_append] at hold
    rw [split, List.length_append] at hlen
    obtain ⟨p, hvalue, turn⟩ := attrLoop_cons readSize len (wire x) hold.1 (by omega) st
    rw [turn]
    refine ih (before ++ [x]) (by simp [here]) _ ?_ _ _ hold.2 (by omega)
    split_ifs with empty
    · exact skip before x rest st here start empty
    · exact step before x rest st p here start empty hvalue

/-- The same rule for `parseAttributes`: it skips less than three octets, which no
encoded attribute has. -/
theorem parseAttributes_rule {β : Type} (wire : β → PathAttr) {m : Mem}
    (Inv : List β → UpdateState D → Prop) (all : List β)
    (step : ∀ before x after st p, all = before ++ x :: after → Inv before st →
      (wire x).value ≠ [] → Holds m p (wire x).value →
      Inv (before ++ [x])
        (parseAttrData D m (wire x).code.toNat (wire x).value.length p st))
    (skip : ∀ before x after st, all = before ++ x :: after → Inv before st →
      (wire x).value = [] → Inv (before ++ [x]) st)
    (st : UpdateState D) (start : Inv [] st) (data : Nat)
    (hold : Holds m data (encodeAttrs (all.map wire))) :
    Inv all (parseAttributes D m data (encodeAttrs (all.map wire)).length st) := by
  unfold parseAttributes
  split
  · rename_i short
    cases all with
    | nil => exact start
    | cons x all =>
      have := (wire x).three_le_length
      simp [encodeAttrs] at short
      omega
  · exact attrLoop_rule wire Inv step skip all [] rfl st start data 0 _ hold (by simp)

/-! Attribute values and the entries they should leave in the attribute map. -/

inductive Origin
  | igp | egp | incomplete
  deriving DecidableEq

def Origin.code : Origin → Nat
  | .igp => 0
  | .egp => 1
  | .incomplete => 2

def Origin.text : Origin → Text
  | .igp => "igp".toList
  | .egp => "egp".toList
  | .incomplete => "incomplete".toList

structure AsSegment where
  type : UInt8
  asns : List UInt32
  count_le : asns.length ≤ 255
  deriving DecidableEq

def put (n : UInt32) : List UInt8 := put32 n.toNat

def AsSegment.encode (s : AsSegment) : List UInt8 :=
  s.type :: (put8 s.asns.length ++ s.asns.flatMap put)

def AsSegment.text (s : AsSegment) : Text :=
  (if s.type = 1 then [' ', '\x7b'] else []) ++
    (s.asns.flatMap (fun asn => ' ' :: decimal asn.toNat) ++
      (if s.type = 1 then [' ', '\x7d'] else []))

def pathAsns (segs : List AsSegment) : List UInt32 := segs.flatMap AsSegment.asns

/-- The two ways to encode the ASNs of a path. -/
inductive AsnWidth
  | two | four
  deriving DecidableEq

def AsnWidth.size : AsnWidth → Nat
  | .two => 2
  | .four => 4

def AsnWidth.put : AsnWidth → Nat → List UInt8
  | .two, n => put16 n
  | .four, n => put32 n

structure PathSegment (w : AsnWidth) where
  type : UInt8
  asns : List Nat
  asns_lt : ∀ asn ∈ asns, asn < 256 ^ w.size
  count_le : asns.length ≤ 255

section

variable {w : AsnWidth}

def PathSegment.encode (s : PathSegment w) : List UInt8 :=
  s.type :: (put8 s.asns.length ++ s.asns.flatMap w.put)

def PathSegment.text (s : PathSegment w) : Text :=
  (if s.type = 1 then [' ', '\x7b'] else []) ++
    (s.asns.flatMap (fun asn => ' ' :: decimal asn) ++
      (if s.type = 1 then [' ', '\x7d'] else []))

def segmentAsns (segs : List (PathSegment w)) : List Nat := segs.flatMap PathSegment.asns

end

def AsSegment.wide (s : AsSegment) : PathSegment .four where
  type := s.type
  asns := s.asns.map UInt32.toNat
  asns_lt := by
    intro asn here
    obtain ⟨n, -, rfl⟩ := List.mem_map.mp here
    exact n.toNat_lt
  count_le := by rw [List.length_map]; exact s.count_le

/-- The attribute values of a classic IPv4 UPDATE, each non-empty. -/
inductive AttrValue
  | origin (o : Origin)
  | asPath (segs : List AsSegment) (some_asn : pathAsns segs ≠ [])
  | nextHop (ip : UInt32)
  | med (n : UInt32)
  | localPref (n : UInt32)
  | aggregator (asn ip : UInt32)
  | aggregator2 (asn : UInt16) (ip : UInt32)
  | communities (cs : List (UInt16 × UInt16)) (some_community : cs ≠ [])
  | originatorId (ip : UInt32)
  | clusterList (ids : List UInt32) (some_id : ids ≠ [])
  | largeCommunity (cs : List (UInt32 × UInt32 × UInt32)) (some_community : cs ≠ [])

def AttrValue.code : AttrValue → UInt8
  | .origin _ => 1
  | .asPath _ _ => 2
  | .nextHop _ => 3
  | .med _ => 4
  | .localPref _ => 5
  | .aggregator _ _ => 7
  | .aggregator2 _ _ => 7
  | .communities _ _ => 8
  | .originatorId _ => 9
  | .clusterList _ _ => 10
  | .largeCommunity _ _ => 32

def putCommunity (c : UInt16 × UInt16) : List UInt8 := put16 c.1.toNat ++ put16 c.2.toNat

def putLargeCommunity (c : UInt32 × UInt32 × UInt32) : List UInt8 :=
  put c.1 ++ (put c.2.1 ++ put c.2.2)

def AttrValue.bytes : AttrValue → List UInt8
  | .origin o => put8 o.code
  | .asPath segs _ => segs.flatMap AsSegment.encode
  | .nextHop ip => put ip
  | .med n => put n
  | .localPref n => put n
  | .aggregator asn ip => put asn ++ put ip
  | .aggregator2 asn ip => put16 asn.toNat ++ put ip
  | .communities cs _ => cs.flatMap putCommunity
  | .originatorId ip => put ip
  | .clusterList ids _ => ids.flatMap put
  | .largeCommunity cs _ => cs.flatMap putLargeCommunity

def dotted (ip : UInt32) : Text := inetNtop4 (put ip)

def communityWord (c : UInt16 × UInt16) : Text :=
  decimal c.1.toNat ++ ':' :: decimal c.2.toNat

def largeCommunityWord (c : UInt32 × UInt32 × UInt32) : Text :=
  decimal c.1.toNat ++ ':' :: (decimal c.2.1.toNat ++ ':' :: decimal c.2.2.toNat)

def only (key : UpdateAttrType) (text : Text) : ParsedAttrsMap :=
  fun k => if k = key then some text else none

/-- The entries of `new`, and those of `old` under the other keys. -/
def override (new old : ParsedAttrsMap) : ParsedAttrsMap := fun k => (new k).or (old k)

theorem override_none (new : ParsedAttrsMap) : override new (fun _ => none) = new := by
  funext key
  simp [override]

/-- The textual value of an attribute; an AS path also has its length and its last
ASN recorded. -/
def AttrValue.entries : AttrValue → ParsedAttrsMap
  | .origin o => only .origin o.text
  | .asPath segs h => override (only .asPath (segs.flatMap AsSegment.text))
      (override (only .internalAsCount (decimal (pathAsns segs).length))
        (only .internalAsOrigin (decimal ((pathAsns segs).getLast h).toNat)))
  | .nextHop ip => only .nextHop (dotted ip)
  | .med n => only .med (decimal n.toNat)
  | .localPref n => only .localPref (decimal n.toNat)
  | .aggregator asn ip => only .aggregator (decimal asn.toNat ++ ' ' :: dotted ip)
  | .aggregator2 asn ip => only .aggregator (decimal asn.toNat ++ ' ' :: dotted ip)
  | .communities cs _ => only .communities (unwords (cs.map communityWord))
  | .originatorId ip => only .originatorId (dotted ip)
  | .clusterList ids _ => only .clusterList (ids.flatMap (fun id => dotted id ++ [' ']))
  | .largeCommunity cs _ => only .largeCommunity (unwords (cs.map largeCommunityWord))

/-! Decoding an encoded value. -/

@[simp] theorem length_put (n : UInt32) : (put n).length = 4 := rfl

theorem holds_put {m : Mem} {p : Nat} {n : UInt32} (h : Holds m p (put n)) :
    u32 m p = n.toNat := h.u32 n.toNat_lt

theorem holds_put16 {m : Mem} {p : Nat} {n : UInt16} (h : Holds m p (put16 n.toNat)) :
    u16 m p = n.toNat := h.u16 n.toNat_lt

theorem ipv4Text_of_holds {m : Mem} {p : Nat} {ip : UInt32} (h : Holds m p (put ip)) :
    ipv4Text m p = dotted ip := by
  unfold ipv4Text dotted
  rw [h.read_of_length (length_put ip)]

/-! AS paths of either width. -/

section

variable {w : AsnWidth}

@[simp] theorem AsnWidth.length_put (n : Nat) : (w.put n).length = w.size := by
  cases w <;> rfl

theorem AsnWidth.asnAt_of_holds {m : Mem} {p n : Nat} (h : Holds m p (w.put n))
    (small : n < 256 ^ w.size) : asnAt w.size m p = n := by
  cases w with
  | two => exact h.u16 small
  | four => exact h.u32 small

theorem PathSegment.length_encode (s : PathSegment w) :
    s.encode.length = 2 + s.asns.length * w.size := by
  simp [PathSegment.encode]
  omega

/-- An accumulator after more text and more ASNs. -/
def AsPathAcc.extend (acc : AsPathAcc) (text : Text) (asns : List Nat) : AsPathAcc :=
  ⟨acc.text ++ text, acc.count + asns.length, asns.foldl (fun _ asn => asn) acc.asn⟩

private theorem asPathAsns_of_holds {m : Mem} (asns : List Nat)
    (asns_lt : ∀ asn ∈ asns, asn < 256 ^ w.size) (data : Nat) (acc : AsPathAcc)
    (h : Holds m data (asns.flatMap w.put)) (small : acc.count + asns.length < 65536) :
    asPathAsns w.size m asns.length data acc =
      AsPathAcc.extend acc (asns.flatMap (fun asn => ' ' :: decimal asn)) asns := by
  induction asns generalizing data acc with
  | nil => simp [asPathAsns, AsPathAcc.extend]
  | cons asn asns ih =>
    rw [List.flatMap_cons, holds_append, AsnWidth.length_put] at h
    rw [List.length_cons] at small
    have head : asnAt w.size m data = asn := AsnWidth.asnAt_of_holds h.1 (asns_lt asn (by simp))
    have count : (acc.count + 1) % 65536 = acc.count + 1 := Nat.mod_eq_of_lt (by omega)
    simp only [List.length_cons, asPathAsns, head, count]
    rw [ih (fun n hn => asns_lt n (List.mem_cons_of_mem _ hn)) _ _ h.2 (by simp only; omega)]
    simp only [AsPathAcc.extend, List.flatMap_cons, List.length_cons, List.foldl_cons,
      List.append_assoc, List.cons_append]
    congr 1
    omega

private theorem asPathSegment_of_holds {m : Mem} (s : PathSegment w) (data : Nat) (acc : AsPathAcc)
    (h : Holds m (data + 2) (s.asns.flatMap w.put)) (small : acc.count + s.asns.length < 65536) :
    asSetBrace s.type.toNat '\x7d' (asPathAsns w.size m s.asns.length (data + 2)
      (asSetBrace s.type.toNat '\x7b' acc)) = AsPathAcc.extend acc s.text s.asns := by
  have set : s.type.toNat = 1 ↔ s.type = 1 := by
    rw [← UInt8.toNat_inj]
    rfl
  have opened : (asSetBrace s.type.toNat '\x7b' acc).count = acc.count := by
    unfold asSetBrace
    split <;> rfl
  rw [asPathAsns_of_holds _ s.asns_lt _ _ h (opened ▸ small)]
  simp only [asSetBrace, AsPathAcc.extend, PathSegment.text, set]
  split <;> simp

theorem asPathLoop_of_holds {m : Mem} (segs : List (PathSegment w)) (data : Nat)
    (acc : AsPathAcc) (h : Holds m data (segs.flatMap PathSegment.encode))
    (small : acc.count + (segmentAsns segs).length < 65536) :
    asPathLoop w.size m (segs.flatMap PathSegment.encode).length data acc =
      some (AsPathAcc.extend acc (segs.flatMap PathSegment.text) (segmentAsns segs)) := by
  induction segs generalizing data acc with
  | nil => simp [asPathLoop, AsPathAcc.extend, segmentAsns]
  | cons s segs ih =>
    have asns : segmentAsns (s :: segs) = s.asns ++ segmentAsns segs := rfl
    rw [List.flatMap_cons, holds_append, s.length_encode] at h
    obtain ⟨hseg, hrest⟩ := h
    simp only [PathSegment.encode, holds_cons, holds_append, length_put8] at hseg
    obtain ⟨htype, hcount, hasns⟩ := hseg
    have type : u8 m data = s.type.toNat := by simp only [u8, htype]
    have count : u8 m (data + 1) = s.asns.length := hcount.u8 (by have := s.count_le; omega)
    rw [asns, List.length_append] at small
    rw [List.flatMap_cons, List.length_append, s.length_encode, asPathLoop, if_pos (by omega)]
    simp only [type, count]
    rw [if_neg (by omega), asPathSegment_of_holds s data acc hasns (by omega),
      Nat.add_sub_cancel_left, Nat.add_assoc data,
      ih _ _ hrest (by simp only [AsPathAcc.extend]; omega)]
    simp only [AsPathAcc.extend, asns, List.flatMap_cons, List.append_assoc, List.length_append,
      List.foldl_append, Nat.add_assoc]

theorem foldl_last (asns : List Nat) (n : Nat) :
    asns.foldl (fun _ asn => asn) n = asns.getLast?.getD n := by
  induction asns generalizing n with
  | nil => rfl
  | cons asn asns ih => rw [List.foldl_cons, ih, List.getLast?_cons, Option.getD_some]

theorem segmentAsns_length (segs : List (PathSegment w)) :
    (segmentAsns segs).length * w.size ≤ (segs.flatMap PathSegment.encode).length := by
  induction segs with
  | nil => simp [segmentAsns]
  | cons s segs ih =>
    simp only [segmentAsns, List.flatMap_cons, List.length_append, PathSegment.length_encode,
      Nat.add_mul] at ih ⊢
    omega

/-- The entries of a decoded path: its text, its length and its last ASN. -/
def pathEntries (segs : List (PathSegment w)) : ParsedAttrsMap :=
  match (segmentAsns segs).getLast? with
  | none => fun _ => none
  | some last => override (only .asPath (segs.flatMap PathSegment.text))
      (override (only .internalAsCount (decimal (segmentAsns segs).length))
        (only .internalAsOrigin (decimal last)))

theorem asPathAttempt_of_holds {m : Mem} {p : Nat} (segs : List (PathSegment w))
    (some_asn : segmentAsns segs ≠ []) (h : Holds m p (segs.flatMap PathSegment.encode))
    (fits : (segs.flatMap PathSegment.encode).length < 65536) (attrs : ParsedAttrsMap) :
    asPathAttempt w.size m (segs.flatMap PathSegment.encode).length p attrs =
      some (override (pathEntries segs) attrs) := by
  have size := segmentAsns_length segs
  have one : 0 < (segmentAsns segs).length := List.length_pos_iff.mpr some_asn
  have wide : 0 < w.size := by cases w <;> decide
  have enough : w.size ≤ (segmentAsns segs).length * w.size := Nat.le_mul_of_pos_left _ one
  have count : (segmentAsns segs).length ≤ (segmentAsns segs).length * w.size :=
    Nat.le_mul_of_pos_right _ wide
  have loop := asPathLoop_of_holds segs p ⟨[], 0, 0⟩ h (by simp only; omega)
  rw [asPathAttempt, if_neg (by omega), loop]
  simp only [Option.map_some, AsPathAcc.extend, List.nil_append, Nat.zero_add,
    foldl_last, pathEntries, List.getLast?_eq_some_getLast some_asn, Option.getD_some]
  congr 1
  funext k
  cases k <;> simp [Function.update, override, only]

end

theorem AsSegment.encode_wide (s : AsSegment) : s.wide.encode = s.encode := by
  simp only [PathSegment.encode, AsSegment.encode, AsSegment.wide, List.length_map,
    List.flatMap_map]
  rfl

theorem AsSegment.text_wide (s : AsSegment) : s.wide.text = s.text := by
  simp only [PathSegment.text, AsSegment.text, AsSegment.wide, List.flatMap_map]
  rfl

theorem segmentAsns_wide (segs : List AsSegment) :
    segmentAsns (segs.map AsSegment.wide) = (pathAsns segs).map UInt32.toNat := by
  simp only [segmentAsns, pathAsns, List.flatMap_map, List.map_flatMap]
  rfl

private theorem setAttr_eq (st : UpdateState D) (key : UpdateAttrType) (text : Text) :
    st.setAttr key text =
      { st with data := { st.data with attrs := override (only key text) st.data.attrs } } := by
  simp only [UpdateState.setAttr]
  congr 2
  funext k
  by_cases h : k = key <;> simp [Function.update, override, only, h]

private theorem pathEntries_wide (segs : List AsSegment) (some_asn : pathAsns segs ≠ []) :
    pathEntries (segs.map AsSegment.wide) = (AttrValue.asPath segs some_asn).entries := by
  have texts : (segs.map AsSegment.wide).flatMap PathSegment.text = segs.flatMap AsSegment.text := by
    simp only [List.flatMap_map, AsSegment.text_wide]
  simp only [pathEntries, segmentAsns_wide, texts, List.getLast?_map,
    List.getLast?_eq_some_getLast some_asn, Option.map_some, List.length_map, AttrValue.entries]

private theorem parseAttrAsPath_of_holds {m : Mem} {p : Nat} (segs : List AsSegment)
    (some_asn : pathAsns segs ≠ []) (h : Holds m p (segs.flatMap AsSegment.encode))
    (fits : (segs.flatMap AsSegment.encode).length < 65536) (st : UpdateState D)
    (four : st.info.using2OctetAsn = false) :
    parseAttrAsPath D m (segs.flatMap AsSegment.encode).length p st =
      { st with data := { st.data with
          attrs := override (AttrValue.asPath segs some_asn).entries st.data.attrs } } := by
  have bytes : (segs.map AsSegment.wide).flatMap PathSegment.encode =
      segs.flatMap AsSegment.encode := by
    simp only [List.flatMap_map, AsSegment.encode_wide]
  rw [← bytes] at h fits ⊢
  have decoded := asPathAttempt_of_holds (segs.map AsSegment.wide)
    (by simpa only [segmentAsns_wide, ne_eq, List.map_eq_nil_iff] using some_asn) h fits
      st.data.attrs
  have size : AsnWidth.size .four = 4 := rfl
  rw [pathEntries_wide segs some_asn, size] at decoded
  simp only [parseAttrAsPath, four, Bool.false_eq_true, if_false, decoded]

private theorem clusterListText_of_holds {m : Mem} {p : Nat} (ids : List UInt32)
    (h : Holds m p (ids.flatMap put)) :
    clusterListText m (ids.flatMap put).length p = ids.flatMap (fun id => dotted id ++ [' ']) := by
  unfold clusterListText
  rw [strideLoop_flatMap (by decide) length_put (fun i id s _ hid => by
      rw [ipv4Text_of_holds hid]) ids 0 [] le_rfl h (by simp)]
  rw [← List.flatMap_eq_foldl]

/-- Both community loops: the first entry stands alone, each later one after a blank. -/
private theorem communityListText_of_holds {β : Type} {entry : Mem → Nat → Text} {stride : Nat}
    (pos : 0 < stride) {enc : β → List UInt8} (width : ∀ x, (enc x).length = stride)
    {word : β → Text} {m : Mem} (read : ∀ q x, Holds m q (enc x) → entry m q = word x)
    {p : Nat} (xs : List β) (some_entry : xs ≠ []) (h : Holds m p (xs.flatMap enc)) :
    communityListText entry stride m (xs.flatMap enc).length p = unwords (xs.map word) := by
  cases xs with
  | nil => exact absurd rfl some_entry
  | cons x xs =>
    rw [List.flatMap_cons, holds_append, width] at h
    rw [List.flatMap_cons, List.length_append, width]
    unfold communityListText
    rw [strideLoop_step _ _ _ _ _ (by omega) pos]
    rw [strideLoop_flatMap pos width (fun i y s hi hy => by
        rw [if_neg (by omega), read _ _ hy]) xs (0 + stride) _
        (show 1 ≤ 0 + stride by omega) ?_ ?_]
    · rw [List.map_cons, unwords_cons, List.foldl_append_eq_append]
      simp [read p x h.1, List.flatMap_def, Function.comp_def]
    · simpa using h.2
    · omega

/-- The decoder inverts the encoder of every value, whatever lies around it. -/
theorem parseAttrData_of_holds {m : Mem} {p : Nat} (v : AttrValue) (h : Holds m p v.bytes)
    (fits : v.bytes.length < 65536) (st : UpdateState D)
    (four : st.info.using2OctetAsn = false) :
    parseAttrData D m v.code.toNat v.bytes.length p st =
      { st with data := { st.data with attrs := override v.entries st.data.attrs } } := by
  cases v with
  | origin o =>
    have read : u8 m p = o.code := h.u8 (by cases o <;> decide)
    have text : originText o.code = o.text := by cases o <;> rfl
    exact (congrArg (st.setAttr .origin) (read ▸ text)).trans (setAttr_eq ..)
  | asPath segs some_asn => exact parseAttrAsPath_of_holds segs some_asn h fits st four
  | nextHop ip => exact (congrArg (st.setAttr _) (ipv4Text_of_holds h)).trans (setAttr_eq ..)
  | med n => exact (congrArg (st.setAttr _ <| decimal ·) (holds_put h)).trans (setAttr_eq ..)
  | localPref n => exact (congrArg (st.setAttr _ <| decimal ·) (holds_put h)).trans (setAttr_eq ..)
  | aggregator asn ip =>
    simp only [AttrValue.bytes, holds_append, length_put] at h
    exact (congrArg₂ (fun a b => st.setAttr .aggregator (decimal a ++ ' ' :: b)) (holds_put h.1)
      (ipv4Text_of_holds h.2)).trans (setAttr_eq ..)
  | aggregator2 asn ip =>
    simp only [AttrValue.bytes, holds_append, length_put16] at h
    exact (congrArg₂ (fun a b => st.setAttr .aggregator (decimal a ++ ' ' :: b)) (holds_put16 h.1)
      (ipv4Text_of_holds h.2)).trans (setAttr_eq ..)
  | communities cs some_community =>
    refine (congrArg (st.setAttr .communities) ?_).trans (setAttr_eq ..)
    refine communityListText_of_holds (show 0 < 4 by decide) (fun _ => rfl) (fun q c hc => ?_) cs
      some_community h
    simp only [putCommunity, holds_append, length_put16] at hc
    simp only [communityText, communityWord, holds_put16 hc.1, holds_put16 hc.2]
  | originatorId ip => exact (congrArg (st.setAttr _) (ipv4Text_of_holds h)).trans (setAttr_eq ..)
  | clusterList ids some_id =>
    exact (congrArg (st.setAttr _) (clusterListText_of_holds ids h)).trans (setAttr_eq ..)
  | largeCommunity cs some_community =>
    have twelve : 12 ≤ (cs.flatMap putLargeCommunity).length := by
      obtain ⟨c, rest, rfl⟩ := List.exists_cons_of_ne_nil some_community
      simp [putLargeCommunity]
      omega
    have text : communityListText largeCommunityText 12 m (cs.flatMap putLargeCommunity).length p =
        unwords (cs.map largeCommunityWord) := by
      refine communityListText_of_holds (show 0 < 12 by decide) (fun _ => rfl)
        (fun q c hc => ?_) cs some_community h
      simp only [putLargeCommunity, holds_append, length_put] at hc
      simp only [largeCommunityText, largeCommunityWord, holds_put hc.1, holds_put hc.2.1,
        holds_put hc.2.2]
    exact (if_pos twelve).trans ((congrArg (st.setAttr _) text).trans (setAttr_eq ..))

/-! A list of classic attributes with pairwise distinct types. -/

theorem AttrValue.bytes_ne_nil (v : AttrValue) : v.bytes ≠ [] := by
  cases v with
  | asPath segs some_asn =>
    rcases segs with _ | ⟨s, segs⟩
    · exact absurd rfl some_asn
    · simp [AttrValue.bytes, AsSegment.encode]
  | communities cs some_community =>
    obtain ⟨c, rest, rfl⟩ := List.exists_cons_of_ne_nil some_community
    simp [AttrValue.bytes, putCommunity, put16]
  | clusterList ids some_id =>
    obtain ⟨id, rest, rfl⟩ := List.exists_cons_of_ne_nil some_id
    simp [AttrValue.bytes, put, put32, put16]
  | largeCommunity cs some_community =>
    obtain ⟨c, rest, rfl⟩ := List.exists_cons_of_ne_nil some_community
    simp [AttrValue.bytes, putLargeCommunity, put, put32, put16]
  | _ => simp [AttrValue.bytes, put, put8, put16, put32]

def keyCode : UpdateAttrType → UInt8
  | .origin => 1
  | .asPath => 2
  | .internalAsCount => 2
  | .internalAsOrigin => 2
  | .nextHop => 3
  | .med => 4
  | .localPref => 5
  | .atomicAggregate => 6
  | .aggregator => 7
  | .communities => 8
  | .originatorId => 9
  | .clusterList => 10
  | .extCommunity => 16
  | .largeCommunity => 32

/-- An attribute writes no key of another type, but MP_REACH also writes the next hop. -/
theorem parseAttrData_frame {key : UpdateAttrType} {code : Nat} (other : code ≠ (keyCode key).toNat)
    (hop : key = .nextHop → code ≠ 14) (m : Mem) (len p : Nat) (st : UpdateState D) :
    (parseAttrData D m code len p st).data.attrs key = st.data.attrs key := by
  have set {key' : UpdateAttrType} (own : key ≠ key') (text : Text) :
      (st.setAttr key' text).data.attrs key = st.data.attrs key := by
    simp [UpdateState.setAttr, Function.update_of_ne own]
  have reach (own : key ≠ .nextHop) :
      (parseReachNlriAttr m len p st).data.attrs key = st.data.attrs key := by
    obtain ⟨text, advertised, vpn, evpn, ls, after⟩ := parseReachNlriAttr_writes m len p st
    rw [after]
    cases text with
    | none => rfl
    | some text => exact set own text
  have path (own : keyCode key ≠ 2) :
      (parseAttrAsPath D m len p st).data.attrs key = st.data.attrs key := by
    have attempt (size : Nat) (attrs attrs' : ParsedAttrsMap)
        (read : asPathAttempt size m len p attrs = some attrs') : attrs' key = attrs key := by
      unfold asPathAttempt at read
      split at read
      · rw [Option.some.inj read]
      · obtain ⟨acc, -, rfl⟩ := Option.map_eq_some_iff.mp read
        cases key <;> first | rfl | exact absurd rfl own
    unfold parseAttrAsPath
    split
    · exact attempt _ _ _ (by assumption)
    · split
      · rfl
      · cases again : asPathAttempt 2 m len p st.data.attrs with
        | none => rfl
        | some attrs' => exact attempt _ _ _ again
  unfold parseAttrData
  split <;> try exact set (by rintro rfl; exact other rfl) _
  · exact path (fun e => other (by rw [e]; rfl))
  · unfold parseAttrAggegator
    split <;> first | rfl | exact set (by rintro rfl; exact other rfl) _
  · exact reach (fun e => hop e rfl)
  · obtain ⟨marker, withdrawn, vpn, evpn, ls, after⟩ := parseUnReachNlriAttr_writes m len p st
    rw [after]
  · split <;> first | rfl | exact set (by rintro rfl; exact other rfl) _
  · rfl
  · split <;> first | rfl | exact set (by rintro rfl; exact other rfl) _
  · rfl

theorem parseAttrData_width {code : Nat} (other : code ≠ 2) (m : Mem) (len p : Nat)
    (st : UpdateState D) :
    (parseAttrData D m code len p st).info.using2OctetAsn = st.info.using2OctetAsn := by
  unfold parseAttrData
  split <;> try rfl
  · exact absurd rfl other
  · unfold parseAttrAggegator
    split <;> rfl
  · obtain ⟨hop, advertised, vpn, evpn, ls, after⟩ := parseReachNlriAttr_writes m len p st
    rw [after]
  · obtain ⟨marker, withdrawn, vpn, evpn, ls, after⟩ := parseUnReachNlriAttr_writes m len p st
    rw [after]
  · split <;> rfl
  · split <;> rfl

theorem AttrValue.entries_eq_none {v : AttrValue} {key : UpdateAttrType}
    (h : keyCode key ≠ v.code) : v.entries key = none := by
  cases v <;> cases key <;>
    first | rfl | exact absurd rfl h

structure ClassicAttr where
  flags : UInt8
  value : AttrValue
  fits : value.bytes.length < (if attrFlagExtended flags.toNat then 65536 else 256)

def ClassicAttr.wire (a : ClassicAttr) : PathAttr := ⟨a.flags, a.value.code, a.value.bytes, a.fits⟩

/-- The map that holds exactly the entries of the listed attributes. -/
def attrEntries (attrs : List ClassicAttr) : ParsedAttrsMap :=
  fun key => attrs.findSome? (fun a => a.value.entries key)

theorem PathAttr.length_lt (a : PathAttr) : a.value.length < 65536 := by
  have := a.fits
  split at this <;> omega

private theorem override_attrEntries (before : List ClassicAttr) (a : ClassicAttr)
    (fresh : ∀ b ∈ before, b.value.code ≠ a.value.code) (attrs : ParsedAttrsMap) :
    override a.value.entries (override (attrEntries before) attrs) =
      override (attrEntries (before ++ [a])) attrs := by
  funext key
  simp only [override, attrEntries, List.findSome?_append, List.findSome?_singleton]
  by_cases own : keyCode key = a.value.code
  · have none_before : before.findSome? (fun b => b.value.entries key) = none := by
      rw [List.findSome?_eq_none_iff]
      exact fun b hb => AttrValue.entries_eq_none (fun e => fresh b hb (e.symm.trans own))
    simp [none_before]
  · simp [AttrValue.entries_eq_none own]

theorem parseAttributes_classic {m : Mem} {data : Nat} (attrs : List ClassicAttr)
    (distinct : attrs.Pairwise (fun a b => a.value.code ≠ b.value.code))
    (h : Holds m data (encodeAttrs (attrs.map ClassicAttr.wire))) (st : UpdateState D)
    (four : st.info.using2OctetAsn = false) :
    parseAttributes D m data (encodeAttrs (attrs.map ClassicAttr.wire)).length st =
      { st with data := { st.data with
          attrs := override (attrEntries attrs) st.data.attrs } } := by
  refine parseAttributes_rule ClassicAttr.wire
    (fun seen now => now = { st with data := { st.data with
      attrs := override (attrEntries seen) st.data.attrs } }) attrs ?_ ?_ st ?_ data h
  · intro before a after now p here seen _ hvalue
    have fresh : ∀ b ∈ before, b.value.code ≠ a.value.code := by
      rw [here, List.pairwise_append] at distinct
      exact fun b hb => distinct.2.2 b hb a (by simp)
    have decoded := parseAttrData_of_holds (D := D) a.value hvalue a.wire.length_lt now
      (by rw [seen]; exact four)
    refine decoded.trans ?_
    rw [seen, ← override_attrEntries before a fresh]
  · intro before a after now here seen empty
    exact absurd empty a.value.bytes_ne_nil
  · rfl

/-! The AS path among any other attributes. -/

/-- The width a peer's flag stands for. -/
def AsnWidth.flag : AsnWidth → Bool
  | .two => true
  | .four => false

theorem parseAttrAsPath_of_width {w : AsnWidth} {m : Mem} {p : Nat} (segs : List (PathSegment w))
    (some_asn : segmentAsns segs ≠ []) (h : Holds m p (segs.flatMap PathSegment.encode))
    (fits : (segs.flatMap PathSegment.encode).length < 65536) (st : UpdateState D)
    (known : st.info.using2OctetAsn = w.flag) :
    parseAttrAsPath D m (segs.flatMap PathSegment.encode).length p st =
      { st with data := { st.data with attrs := override (pathEntries segs) st.data.attrs } } := by
  have size : (if st.info.using2OctetAsn then 2 else 4) = w.size := by
    rw [known]
    cases w <;> rfl
  simp only [parseAttrAsPath, size, asPathAttempt_of_holds segs some_asn h fits]

theorem segments_eq_nil {w : AsnWidth} {segs : List (PathSegment w)}
    (empty : segs.flatMap PathSegment.encode = []) : segs = [] := by
  cases segs with
  | nil => rfl
  | cons s segs => simp [PathSegment.encode] at empty

/-- A path of the width the peer is known for is decoded, whatever attributes surround it. -/
theorem parseAttributes_path {w : AsnWidth} {m : Mem} {data : Nat} (attrs : List PathAttr)
    (segs : List (PathSegment w)) (some_asn : segs = [] ∨ segmentAsns segs ≠ [])
    (here : ∃ a ∈ attrs, a.code = 2)
    (only_path : ∀ a ∈ attrs, a.code = 2 → a.value = segs.flatMap PathSegment.encode)
    (h : Holds m data (encodeAttrs attrs)) (st : UpdateState D)
    (known : st.info.using2OctetAsn = w.flag)
    (fresh : ∀ key, keyCode key = 2 → st.data.attrs key = none) (key : UpdateAttrType)
    (own : keyCode key = 2) :
    (parseAttributes D m data (encodeAttrs attrs).length st).data.attrs key =
      pathEntries segs key := by
  have nothing (empty : segs = []) : pathEntries segs key = none := by
    rw [empty]
    rfl
  have walked := parseAttributes_rule id
    (fun seen now => now.info.using2OctetAsn = w.flag ∧ now.data.attrs key =
      if ∃ a ∈ seen, a.code = 2 then pathEntries segs key else none) attrs ?_ ?_ st
    ⟨known, by simpa using fresh key own⟩ data (by simpa using h)
  · simpa [if_pos here] using walked.2
  · intro before a after now p at_a seen nonempty hvalue
    have inside : a ∈ attrs := by simp [at_a]
    by_cases isPath : a.code = 2
    · have value : a.value = segs.flatMap PathSegment.encode := only_path a inside isPath
      have asn : segmentAsns segs ≠ [] := by
        refine some_asn.resolve_left ?_
        rintro rfl
        exact nonempty value
      have bytes := a.length_lt
      simp only [id_eq] at hvalue
      rw [value] at hvalue bytes
      have decoded := parseAttrAsPath_of_width segs asn hvalue bytes now seen.1
      have code : (2 : UInt8).toNat = 2 := rfl
      simp only [id_eq, isPath, value, code]
      refine ⟨(congrArg (fun st => st.info.using2OctetAsn) decoded).trans seen.1, ?_⟩
      refine (congrArg (fun st => st.data.attrs key) decoded).trans ?_
      have last : ∃ b ∈ before ++ [a], b.code = 2 := ⟨a, by simp, isPath⟩
      rw [if_pos last]
      simp only [override, seen.2]
      split <;> simp
    · have other : a.code.toNat ≠ 2 := fun e => isPath (UInt8.toNat_inj.mp e)
      refine ⟨(parseAttrData_width other m _ p now).trans seen.1, ?_⟩
      rw [parseAttrData_frame (by rw [own]; exact other) (by rintro rfl; simp [keyCode] at own),
        seen.2]
      simp [isPath]
  · intro before a after now at_a seen empty
    refine ⟨seen.1, ?_⟩
    rw [seen.2]
    by_cases isPath : a.code = 2
    · have value := only_path a (by simp [at_a]) isPath
      have none_left : segs = [] := segments_eq_nil (value.symm.trans empty)
      simp [nothing none_left]
    · simp [isPath]

end SonicBmp.Bgp.AttrCodec
