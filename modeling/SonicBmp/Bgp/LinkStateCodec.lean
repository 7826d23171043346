/- module: SonicBmp/Bgp/LinkStateCodec
   digest: Link-state NLRI as a speaker encodes them, and the entry each of them gives. -/

import SonicBmp.Bgp.LinkState

set_option autoImplicit false
set_option relaxedAutoImplicit false

namespace SonicBmp.Bgp.LinkStateCodec

open SonicBmp.Library.Memory
open SonicBmp.Bus.Kafka (Md5)
open SonicBmp.Bgp.LinkState

/-! Sub-TLVs. -/

structure SubTlv where
  type : UInt16
  value : List UInt8
  fits : value.length < 65536

def SubTlv.bytes (t : SubTlv) : List UInt8 := put16 t.type.toNat ++ (put16 t.value.length ++ t.value)

def tlvBytes (ts : List SubTlv) : List UInt8 := ts.flatMap SubTlv.bytes

theorem SubTlv.length_bytes (t : SubTlv) : t.bytes.length = 4 + t.value.length := by
  simp [SubTlv.bytes]
  omega

section Loop

variable {δ : Type} {m : Mem} {value : Nat → Nat → Nat → Nat → δ → Nat × δ}

/-- The cases of a descriptor parser, at the value of a sub-TLV that is wholly there, count
its octets and add what it says. -/
def ActsOn (m : Mem) (value : Nat → Nat → Nat → Nat → δ → Nat × δ) (add : δ → SubTlv → δ)
    (t : SubTlv) : Prop :=
  ∀ (dataLen data : Nat) (info : δ), Holds m data t.value → t.value.length ≤ dataLen →
    value dataLen t.type.toNat t.value.length data info = (t.value.length, add info t)

theorem parseDescr_of_holds {add : δ → SubTlv → δ} {t : SubTlv} (acts : ActsOn m value add t)
    {data dataLen : Nat} (held : Holds m data t.bytes) (room : t.bytes.length ≤ dataLen) (info : δ) :
    (parseDescr m value).parse data dataLen info = (t.bytes.length, add info t) := by
  have size := t.length_bytes
  simp only [SubTlv.bytes, holds_append, length_put16] at held
  obtain ⟨htype, hlen, hvalue⟩ := held
  have type := htype.u16 t.type.toNat_lt
  have len := hlen.u16 t.fits
  simp only [parseDescr, len, type]
  rw [if_neg (by omega), if_neg (by omega), acts dataLen (data + 4) info hvalue (by omega), size]

/-- A list of sub-TLVs that fills what is left. -/
theorem descrLoop_of_holds {add : δ → SubTlv → δ} (ts : List SubTlv) :
    ∀ (data : Nat) (info : δ), (∀ t ∈ ts, ActsOn m value add t) → Holds m data (tlvBytes ts) →
      descrLoop (parseDescr m value) data (tlvBytes ts).length info =
        ((tlvBytes ts).length, ts.foldl add info) := by
  induction ts with
  | nil =>
    intro data info _ _
    exact descrLoop_done (parseDescr m value) data info
  | cons t ts ih =>
    intro data info acts held
    have size := t.length_bytes
    have split : tlvBytes (t :: ts) = t.bytes ++ tlvBytes ts := List.flatMap_cons
    rw [split, holds_append] at held
    rw [split, List.length_append, descrLoop_step (parseDescr m value) info (by omega),
      parseDescr_of_holds (acts t List.mem_cons_self) held.1 (Nat.le_add_right _ _)]
    dsimp only
    rw [Nat.add_sub_cancel_left, ih _ _ (fun t here => acts t (List.mem_cons_of_mem _ here)) held.2]
    rfl

end Loop

/-! What the sub-TLVs of the three descriptors say. -/

section Says

variable {m : Mem}

/-- What a sub-TLV says on its own. -/
def nodeAdd (info : NodeDescriptor) (t : SubTlv) : NodeDescriptor :=
  (nodeDescr (memOf t.value) t.value.length t.type.toNat t.value.length 0 info).2

def linkAdd (info : LinkDescriptor) (t : SubTlv) : LinkDescriptor :=
  (linkDescr (memOf t.value) t.value.length t.type.toNat t.value.length 0 info).2

def prefixAdd (isIPv4 : Bool) (info : PrefixDescriptor) (t : SubTlv) : PrefixDescriptor :=
  (prefixDescr (memOf t.value) isIPv4 t.value.length t.type.toNat t.value.length 0 info).2

section Congr

variable {m' : Mem} {dataLen dataLen' len data data' : Nat}

theorem nodeDescr_congr (same : SameBytes len m data m' data') (room : len ≤ dataLen)
    (room' : len ≤ dataLen') (type : Nat) (info : NodeDescriptor) :
    nodeDescr m dataLen type len data info = nodeDescr m' dataLen' type len data' info := by
  have bytes : readBytes m data len = readBytes m' data' len := same
  by_cases four : len = 4
  · subst four
    have number : u32 m data = u32 m' data' := same.u32 0 (by decide)
    simp only [nodeDescr, number, bytes, if_pos room, if_pos room', not_lt.mpr room,
      not_lt.mpr room']
  · simp only [nodeDescr, ne_eq, four, not_false_eq_true, if_true, bytes, if_pos room, if_pos room',
      not_lt.mpr room, not_lt.mpr room']

theorem linkAddr_congr {size : Nat} (same : SameBytes len m data m' data') (room : len ≤ dataLen)
    (room' : len ≤ dataLen') (noted : LinkDescriptor) (store : List UInt8 → LinkDescriptor) :
    linkAddr m dataLen size len data noted store = linkAddr m' dataLen' size len data' noted store := by
  unfold linkAddr
  by_cases whole : len = size
  · subst whole
    have bytes : readBytes m data len = readBytes m' data' len := same
    rw [bytes, if_neg (not_not.mpr rfl), if_neg (not_not.mpr rfl)]
  · rw [if_pos whole, if_pos whole, if_pos room, if_pos room']

theorem mtIdOf_congr (same : SameBytes len m data m' data') (mtId : Nat) :
    mtIdOf m len data mtId = mtIdOf m' len data' mtId := by
  unfold mtIdOf
  split
  · rfl
  · have number : u16 m data = u16 m' data' := same.u16 0 (by omega)
    rw [number]

theorem linkDescr_congr (same : SameBytes len m data m' data') (room : len ≤ dataLen)
    (room' : len ≤ dataLen') (type : Nat) (info : LinkDescriptor) :
    linkDescr m dataLen type len data info = linkDescr m' dataLen' type len data' info := by
  by_cases ids : len = 8
  · subst ids
    have near : u32 m data = u32 m' data' := same.u32 0 (by decide)
    have far : u32 m (data + 4) = u32 m' (data' + 4) := same.u32 4 (by decide)
    simp only [linkDescr, linkAddr_congr same room room', mtIdOf_congr same, near, far]
  · simp only [linkDescr, linkAddr_congr same room room', mtIdOf_congr same, ne_eq, ids,
      not_false_eq_true, if_true]

theorem ipReach_congr (isIPv4 : Bool) (same : SameBytes len m data m' data') (some_ : 1 ≤ len)
    (info : PrefixDescriptor) : ipReach m isIPv4 len data info = ipReach m' isIPv4 len data' info := by
  have first : u8 m data = u8 m' data' := same.u8 0 (by omega)
  have rest : readBytes m (data + 1) (len - 1) = readBytes m' (data' + 1) (len - 1) :=
    same.within 1 (len - 1) (by omega)
  simp only [ipReach, first, rest]

theorem prefixDescr_congr (isIPv4 : Bool) {type : Nat} (same : SameBytes len m data m' data')
    (routeType : type = 264 → len = 1) (info : PrefixDescriptor) :
    prefixDescr m isIPv4 dataLen type len data info =
      prefixDescr m' isIPv4 dataLen' type len data' info := by
  by_cases some_ : 1 ≤ len
  · have first : u8 m data = u8 m' data' := same.u8 0 (by omega)
    simp only [prefixDescr, mtIdOf_congr same, first, ipReach_congr isIPv4 same some_]
  · have other : type ≠ 264 := fun is => absurd (routeType is) (by omega)
    unfold prefixDescr
    split
    · rw [mtIdOf_congr same]
    · exact absurd rfl other
    · rw [if_pos (by omega), if_pos (by omega)]
    · rfl

end Congr

section Counts

variable {dataLen len data : Nat}

private theorem count_of_exact {δ : Type} (size : Nat) (kept stored : δ) :
    (if len ≠ size then (len, kept) else (size, stored)).1 = len := by
  split
  · rfl
  · rename_i whole
    exact (not_not.mp whole).symm

theorem nodeDescr_count (room : len ≤ dataLen) (type : Nat) (info : NodeDescriptor) :
    (nodeDescr m dataLen type len data info).1 = len := by
  unfold nodeDescr
  split
  · exact count_of_exact 4 _ _
  · exact count_of_exact 4 _ _
  · rw [if_pos room]
    exact count_of_exact 4 _ _
  · split <;> rfl
  · rw [if_pos room]
    exact count_of_exact 4 _ _
  · rfl

theorem linkAddr_count (room : len ≤ dataLen) (size : Nat) (noted : LinkDescriptor)
    (store : List UInt8 → LinkDescriptor) :
    (linkAddr m dataLen size len data noted store).1 = len := by
  unfold linkAddr
  rw [if_pos room]
  exact count_of_exact size _ _

theorem linkDescr_count (room : len ≤ dataLen) (type : Nat) (info : LinkDescriptor) :
    (linkDescr m dataLen type len data info).1 = len := by
  unfold linkDescr
  split
  · exact count_of_exact 8 _ _
  · exact linkAddr_count room 4 _ _
  · exact linkAddr_count room 4 _ _
  · exact linkAddr_count room 16 _ _
  · exact linkAddr_count room 16 _ _
  · rfl
  · rfl

end Counts

theorem prefixDescr_count {isIPv4 : Bool} {dataLen type len data : Nat}
    (routeType : type = 264 → len = 1) (info : PrefixDescriptor) :
    (prefixDescr m isIPv4 dataLen type len data info).1 = len := by
  unfold prefixDescr
  split
  · rfl
  · exact (routeType rfl).symm
  · split <;> rfl
  · rfl

theorem nodeDescr_acts (t : SubTlv) : ActsOn m (nodeDescr m) nodeAdd t := by
  intro dataLen data info held room
  have same := held.sameBytes (holds_memOf t.value)
  refine Prod.ext (nodeDescr_count room _ _) ?_
  rw [nodeDescr_congr same room le_rfl]
  rfl

theorem linkDescr_acts (t : SubTlv) : ActsOn m (linkDescr m) linkAdd t := by
  intro dataLen data info held room
  have same := held.sameBytes (holds_memOf t.value)
  refine Prod.ext (linkDescr_count room _ _) ?_
  rw [linkDescr_congr same room le_rfl]
  rfl

/-- A sub-TLV a prefix descriptor may have: an OSPF route type is one octet long, and the
reachability information an octet for the length and at most 16 of the prefix. -/
structure PrefixTlv (t : SubTlv) : Prop where
  routeType : t.type = 264 → t.value.length = 1
  ipReach : t.type = 265 → t.value.length ≤ 17

theorem prefixDescr_acts (isIPv4 : Bool) {t : SubTlv} (legal : PrefixTlv t) :
    ActsOn m (prefixDescr m isIPv4) (prefixAdd isIPv4) t := by
  intro dataLen data info held room
  have same := held.sameBytes (holds_memOf t.value)
  have routeType : t.type.toNat = 264 → t.value.length = 1 :=
    fun is => legal.routeType (UInt16.toNat_inj.mp is)
  refine Prod.ext (prefixDescr_count routeType _) ?_
  rw [prefixDescr_congr isIPv4 same routeType]
  rfl

end Says

/-! NLRI. -/

/-- A node descriptor with its header. -/
def nodeBytes (type : Nat) (ts : List SubTlv) : List UInt8 :=
  put16 type ++ (put16 (tlvBytes ts).length ++ tlvBytes ts)

/-- The three kinds of NLRI behind the identifier: a node, a link between a local and a
remote node, an IPv4 or IPv6 prefix. -/
inductive LsBody
  | node (localNode : List SubTlv)
  | link (localNode remoteNode descr : List SubTlv)
  | pre (isIPv4 : Bool) (localNode descr : List SubTlv) (legal : ∀ t ∈ descr, PrefixTlv t)

def LsBody.type : LsBody → Nat
  | .node _ => 1
  | .link _ _ _ => 2
  | .pre isIPv4 _ _ _ => if isIPv4 then 3 else 4

def LsBody.bytes : LsBody → List UInt8
  | .node localNode => nodeBytes 256 localNode
  | .link localNode remoteNode descr =>
    nodeBytes 256 localNode ++ (nodeBytes 257 remoteNode ++ tlvBytes descr)
  | .pre _ localNode descr _ => nodeBytes 256 localNode ++ tlvBytes descr

structure LsNlri where
  protoId : UInt8
  id : Vector UInt8 8
  body : LsBody

/-- An NLRI of any type: the length counts the octets behind it. -/
def nlriBytes (type : Nat) (value : List UInt8) : List UInt8 :=
  put16 type ++ (put16 value.length ++ value)

def LsNlri.bytes (n : LsNlri) : List UInt8 :=
  nlriBytes n.body.type (n.protoId :: (n.id.toList ++ n.body.bytes))

def encodeLs (ns : List LsNlri) : List UInt8 := ns.flatMap LsNlri.bytes

section Entries

variable (md5 : Md5)

/-- What a node descriptor says. -/
def describedNode (ts : List SubTlv) : NodeDescriptor :=
  genNodeHashId md5 (ts.foldl nodeAdd NodeDescriptor.zero)

/-- The data with the entry of an NLRI. -/
def LsNlri.addTo (ls : LsData) (n : LsNlri) : LsData :=
  let id := bigEndian n.id.toList
  let protoId := n.protoId.toNat
  match n.body with
  | .node localNode => ls.addNode (some (LsNode.of id protoId (describedNode md5 localNode)))
  | .link localNode remoteNode descr =>
    ls.addLink (some ((((LsLink.fresh id protoId).withNode 256 (describedNode md5 localNode)).withNode
      257 (describedNode md5 remoteNode)).withLink (descr.foldl linkAdd LinkDescriptor.zero)))
  | .pre isIPv4 localNode descr _ =>
    ls.addPrefix (some (LsPrefix.of id protoId isIPv4 (describedNode md5 localNode)
      (descr.foldl (prefixAdd isIPv4) PrefixDescriptor.zero)))

theorem length_nodeBytes (type : Nat) (ts : List SubTlv) :
    (nodeBytes type ts).length = 4 + (tlvBytes ts).length := by
  simp [nodeBytes]
  omega

variable {m : Mem}

theorem nodeBlock_of_holds {type data dataLen : Nat} {ts : List SubTlv} (known : type < 65536)
    (small : (tlvBytes ts).length < 65536) (held : Holds m data (nodeBytes type ts))
    (room : (nodeBytes type ts).length ≤ dataLen) :
    nodeBlock md5 m data dataLen =
      some (type, (nodeBytes type ts).length, describedNode md5 ts) := by
  have size := length_nodeBytes type ts
  simp only [nodeBytes, holds_append, length_put16] at held
  obtain ⟨htype, hlen, hvalue⟩ := held
  have len := hlen.u16 small
  have loop : descrLoop (parseDescrLocalRemoteNode m) (data + 4) (tlvBytes ts).length
      NodeDescriptor.zero = ((tlvBytes ts).length, ts.foldl nodeAdd NodeDescriptor.zero) :=
    descrLoop_of_holds ts (data + 4) _ (fun t _ => nodeDescr_acts t) hvalue
  simp only [nodeBlock, len]
  rw [if_neg (by omega), loop, htype.u16 known, size]
  rfl

section Bodies

variable {data : Nat} {localNode remoteNode descr : List SubTlv} (id protoId : Nat)

theorem parseNlriNode_of_holds (held : Holds m data (nodeBytes 256 localNode))
    (small : (nodeBytes 256 localNode).length < 65536) :
    parseNlriNode md5 m data (nodeBytes 256 localNode).length id protoId =
      some (LsNode.of id protoId (describedNode md5 localNode)) := by
  have size := length_nodeBytes 256 localNode
  have block := nodeBlock_of_holds md5 (by decide) (by omega) held le_rfl
  rw [parseNlriNode, if_neg (by omega), block]
  rfl

theorem parseNlriLink_of_holds
    (held : Holds m data (nodeBytes 256 localNode ++ (nodeBytes 257 remoteNode ++ tlvBytes descr)))
    (small : (nodeBytes 256 localNode ++ (nodeBytes 257 remoteNode ++ tlvBytes descr)).length <
      65536) :
    parseNlriLink md5 m data
        (nodeBytes 256 localNode ++ (nodeBytes 257 remoteNode ++ tlvBytes descr)).length id protoId =
      some ((((LsLink.fresh id protoId).withNode 256 (describedNode md5 localNode)).withNode
        257 (describedNode md5 remoteNode)).withLink (descr.foldl linkAdd LinkDescriptor.zero)) := by
  have near := length_nodeBytes 256 localNode
  have far := length_nodeBytes 257 remoteNode
  simp only [holds_append, List.length_append] at held small ⊢
  obtain ⟨heldNear, heldFar, heldDescr⟩ := held
  have block := nodeBlock_of_holds md5 (by decide) (by omega) heldNear
    (Nat.le_add_right _ ((nodeBytes 257 remoteNode).length + (tlvBytes descr).length))
  have block' := nodeBlock_of_holds md5 (by decide) (by omega) heldFar
    (Nat.le_add_right _ (tlvBytes descr).length)
  have loop : descrLoop (parseDescrLink m)
      (data + (nodeBytes 256 localNode).length + (nodeBytes 257 remoteNode).length)
      (tlvBytes descr).length LinkDescriptor.zero =
        ((tlvBytes descr).length, descr.foldl linkAdd LinkDescriptor.zero) :=
    descrLoop_of_holds descr _ _ (fun t _ => linkDescr_acts t) heldDescr
  rw [parseNlriLink, if_neg (by omega), block]
  simp only [Option.bind_eq_bind, Option.bind_some, Nat.add_sub_cancel_left, block', loop]

theorem parseNlriPrefix_of_holds (isIPv4 : Bool) (legal : ∀ t ∈ descr, PrefixTlv t)
    (held : Holds m data (nodeBytes 256 localNode ++ tlvBytes descr))
    (small : (nodeBytes 256 localNode ++ tlvBytes descr).length < 65536) :
    parseNlriPrefix md5 m data (nodeBytes 256 localNode ++ tlvBytes descr).length id protoId isIPv4 =
      some (LsPrefix.of id protoId isIPv4 (describedNode md5 localNode)
        (descr.foldl (prefixAdd isIPv4) PrefixDescriptor.zero)) := by
  have near := length_nodeBytes 256 localNode
  simp only [holds_append, List.length_append] at held small ⊢
  have block := nodeBlock_of_holds md5 (by decide) (by omega) held.1
    (Nat.le_add_right _ (tlvBytes descr).length)
  have loop : descrLoop (parseDescrPrefix m isIPv4) (data + (nodeBytes 256 localNode).length)
      (tlvBytes descr).length PrefixDescriptor.zero =
        ((tlvBytes descr).length, descr.foldl (prefixAdd isIPv4) PrefixDescriptor.zero) :=
    descrLoop_of_holds descr _ _ (fun t here => prefixDescr_acts isIPv4 (legal t here)) held.2
  rw [parseNlriPrefix, if_neg (by omega), block]
  simp only [Option.bind_eq_bind, Option.bind_some, Nat.add_sub_cancel_left, loop]
  rfl

end Bodies

theorem nlriBody_of_holds {data : Nat} {ls : LsData} (n : LsNlri)
    (held : Holds m data n.body.bytes) (small : n.body.bytes.length < 65536) :
    nlriBody md5 m n.body.type data n.body.bytes.length (bigEndian n.id.toList) n.protoId.toNat ls =
      some (n.addTo md5 ls) := by
  obtain ⟨protoId, id, body⟩ := n
  cases body with
  | node localNode =>
    exact congrArg (fun node => some (ls.addNode node)) (parseNlriNode_of_holds md5 _ _ held small)
  | link localNode remoteNode descr =>
    exact congrArg (fun link => some (ls.addLink link)) (parseNlriLink_of_holds md5 _ _ held small)
  | pre isIPv4 localNode descr legal =>
    have parsed := parseNlriPrefix_of_holds md5 (bigEndian id.toList) protoId.toNat isIPv4 legal held
      small
    cases isIPv4 with
    | false => exact congrArg (fun entry => some (ls.addPrefix entry)) parsed
    | true => exact congrArg (fun entry => some (ls.addPrefix entry)) parsed

theorem nlriBody_unknown {type data len id protoId : Nat} {ls : LsData}
    (unknown : type ∉ [1, 2, 3, 4]) : nlriBody md5 m type data len id protoId ls = none := by
  unfold nlriBody
  split
  · exact absurd (by decide) unknown
  · exact absurd (by decide) unknown
  · exact absurd (by decide) unknown
  · exact absurd (by decide) unknown
  · rfl

/-- A turn at an NLRI goes over it and adds its entry. -/
theorem nlriTurn_of_holds {len data : Nat} (n : LsNlri) (held : Holds m data n.bytes)
    (room : n.bytes.length ≤ len) (small : len < 65536) (ls : LsData) :
    nlriTurn md5 m len data ls = some (n.bytes.length, n.addTo md5 ls) := by
  have size : n.bytes.length = 13 + n.body.bytes.length := by
    simp [LsNlri.bytes, nlriBytes]
    omega
  have type_lt : n.body.type < 65536 := by
    unfold LsBody.type
    split
    · decide
    · decide
    · split <;> decide
  simp only [LsNlri.bytes, nlriBytes, holds_append, holds_cons, length_put16,
    Vector.length_toList, List.length_cons, List.length_append] at held
  obtain ⟨htype, hlen, hproto, hid, hbody⟩ := held
  have len' := hlen.u16 (by omega)
  have proto : u8 m (data + 4) = n.protoId.toNat := by rw [u8, hproto]
  have id : readBytes m (data + 5) 8 = n.id.toList := hid.read_of_length Vector.length_toList
  have left : (8 + n.body.bytes.length + 1 + 2 ^ 16 - 9) % 2 ^ 16 = n.body.bytes.length := by omega
  rw [nlriTurn]
  simp only [len', htype.u16 type_lt, proto, id, left]
  rw [if_neg (by omega), nlriBody_of_holds md5 n hbody (by omega), size]
  rfl

/-- The loop over a list of NLRI, with whatever follows them. -/
theorem nlriLoop_through {len : Nat} (ns : List LsNlri) (small : len < 65536) :
    ∀ (fuel data read : Nat) (ls : LsData), Holds m data (encodeLs ns) →
      read + (encodeLs ns).length ≤ len →
      nlriLoop md5 m len (ns.length + fuel) data read ls =
        nlriLoop md5 m len fuel (data + (encodeLs ns).length) (read + (encodeLs ns).length)
          (ns.foldl (LsNlri.addTo md5) ls) := by
  induction ns with
  | nil =>
    intro fuel data read ls _ _
    rw [List.length_nil, Nat.zero_add]
    rfl
  | cons n ns ih =>
    intro fuel data read ls held room
    have split : encodeLs (n :: ns) = n.bytes ++ encodeLs ns := List.flatMap_cons
    have long : 0 < n.bytes.length := by simp [LsNlri.bytes, nlriBytes]
    rw [split, holds_append] at held
    rw [split, List.length_append] at room
    rw [List.length_cons, Nat.add_right_comm, nlriLoop, if_pos (by omega),
      nlriTurn_of_holds md5 n held.1 (by omega) small]
    dsimp only
    rw [Nat.mod_eq_of_lt (by omega), ih fuel _ _ _ held.2 (by omega), split, List.length_append,
      List.foldl_cons, Nat.add_assoc, Nat.add_assoc]

/-- A list of NLRI is parsed to its end. -/
theorem parsesLinkState_of_holds {data : Nat} {ns : List LsNlri}
    (small : (encodeLs ns).length < 65536)
    (held : Holds m data (encodeLs ns)) (ls : LsData) :
    ParsesLinkState md5 m data (encodeLs ns).length ls (ns.foldl (LsNlri.addTo md5) ls) := by
  refine ⟨ns.length + 1, ?_⟩
  rw [nlriLoop_through md5 ns small 1 data 0 ls held (Nat.zero_add _).le, nlriLoop,
    if_neg (by omega)]

end Entries

end SonicBmp.Bgp.LinkStateCodec
