/- module: SonicBmp/Bgp/LinkStateLists
   digest: Lists of link-state NLRI behind one another, and node descriptors in any order and place. -/

import Mathlib.Data.List.Nodup
import Mathlib.Data.List.Perm.Basic
import SonicBmp.Bgp.LinkStateCodec

set_option autoImplicit false
set_option relaxedAutoImplicit false

namespace SonicBmp.Bgp.LinkStateLists

open SonicBmp.Library.Memory
open SonicBmp.Bus.Kafka (HashId Md5)
open SonicBmp.Bgp.LinkState
open SonicBmp.Bgp.LinkStateCodec

/-! Lists. -/

section Lists

variable (md5 : Md5)

def LsNlri.node? (n : LsNlri) : Option LsNode :=
  match n.body with
  | .node localNode =>
    some (LsNode.of (bigEndian n.id.toList) n.protoId.toNat (describedNode md5 localNode))
  | _ => none

def LsNlri.link? (n : LsNlri) : Option LsLink :=
  match n.body with
  | .link localNode remoteNode descr =>
    let link := LsLink.fresh (bigEndian n.id.toList) n.protoId.toNat
    let link := link.withNode 256 (describedNode md5 localNode)
    let link := link.withNode 257 (describedNode md5 remoteNode)
    some (link.withLink (descr.foldl linkAdd LinkDescriptor.zero))
  | _ => none

def LsNlri.prefix? (n : LsNlri) : Option LsPrefix :=
  match n.body with
  | .pre isIPv4 localNode descr _ =>
    some (LsPrefix.of (bigEndian n.id.toList) n.protoId.toNat isIPv4 (describedNode md5 localNode)
      (descr.foldl (prefixAdd isIPv4) PrefixDescriptor.zero))
  | _ => none

/-- The entries of a list: those of its nodes, of its links and of its prefixes, each NLRI
on its own. -/
def entriesOf (ns : List LsNlri) : LsData where
  nodes := ns.filterMap (LsNlri.node? md5)
  links := ns.filterMap (LsNlri.link? md5)
  prefixes := ns.filterMap (LsNlri.prefix? md5)

def followedBy (ls ls' : LsData) : LsData where
  nodes := ls.nodes ++ ls'.nodes
  links := ls.links ++ ls'.links
  prefixes := ls.prefixes ++ ls'.prefixes

theorem followedBy_assoc (ls ls' ls'' : LsData) :
    followedBy (followedBy ls ls') ls'' = followedBy ls (followedBy ls' ls'') := by
  simp only [followedBy, List.append_assoc]

theorem entriesOf_append (a b : List LsNlri) :
    entriesOf md5 (a ++ b) = followedBy (entriesOf md5 a) (entriesOf md5 b) := by
  simp only [entriesOf, followedBy, List.filterMap_append]

theorem addTo_eq_followedBy (ls : LsData) (n : LsNlri) :
    n.addTo md5 ls = followedBy ls (entriesOf md5 [n]) := by
  obtain ⟨protoId, id, body⟩ := n
  cases body with
  | node localNode => simp [LsNlri.addTo, LsData.addNode, followedBy, entriesOf, LsNlri.node?,
      LsNlri.link?, LsNlri.prefix?]
  | link localNode remoteNode descr => simp [LsNlri.addTo, LsData.addLink, followedBy, entriesOf,
      LsNlri.node?, LsNlri.link?, LsNlri.prefix?]
  | pre isIPv4 localNode descr legal => simp [LsNlri.addTo, LsData.addPrefix, followedBy, entriesOf,
      LsNlri.node?, LsNlri.link?, LsNlri.prefix?]

theorem foldl_addTo (ns : List LsNlri) :
    ∀ ls, ns.foldl (LsNlri.addTo md5) ls = followedBy ls (entriesOf md5 ns) := by
  induction ns with
  | nil =>
    intro ls
    simp [entriesOf, followedBy]
  | cons n ns ih =>
    intro ls
    rw [List.foldl_cons, ih, addTo_eq_followedBy, followedBy_assoc, ← entriesOf_append]
    rfl

/-- One entry for each NLRI. -/
theorem count_entriesOf (ns : List LsNlri) :
    (entriesOf md5 ns).nodes.length + (entriesOf md5 ns).links.length +
      (entriesOf md5 ns).prefixes.length = ns.length := by
  induction ns with
  | nil => rfl
  | cons n ns ih =>
    obtain ⟨protoId, id, body⟩ := n
    simp only [entriesOf] at ih ⊢
    cases body with
    | node localNode =>
      simp only [List.filterMap_cons, LsNlri.node?, LsNlri.link?, LsNlri.prefix?, List.length_cons]
      omega
    | link localNode remoteNode descr =>
      simp only [List.filterMap_cons, LsNlri.node?, LsNlri.link?, LsNlri.prefix?, List.length_cons]
      omega
    | pre isIPv4 localNode descr legal =>
      simp only [List.filterMap_cons, LsNlri.node?, LsNlri.link?, LsNlri.prefix?, List.length_cons]
      omega

/-- Wherever the list lies, the parser appends these entries to what it has. -/
def ListGives (ns : List LsNlri) (entries : LsData) : Prop :=
  ∀ (m : Mem) (data : Nat) (ls : LsData), Holds m data (encodeLs ns) →
    ParsesLinkState md5 m data (encodeLs ns).length ls (followedBy ls entries)

theorem listGives_entriesOf {ns : List LsNlri} (small : (encodeLs ns).length < 65536) :
    ListGives md5 ns (entriesOf md5 ns) := by
  intro m data ls held
  rw [← foldl_addTo]
  exact parsesLinkState_of_holds md5 small held ls

/-- Two lists behind one another give the nodes, links and prefixes of the first followed by
those of the second, one for each NLRI. -/
theorem link_state_lists_compose (a b : List LsNlri)
    (small : (encodeLs (a ++ b)).length ≤ 65535) :
    ListGives md5 a (entriesOf md5 a) ∧ ListGives md5 b (entriesOf md5 b) ∧
      ListGives md5 (a ++ b) (followedBy (entriesOf md5 a) (entriesOf md5 b)) ∧
      ∀ ns ∈ [a, b], (entriesOf md5 ns).nodes.length + (entriesOf md5 ns).links.length +
        (entriesOf md5 ns).prefixes.length = ns.length := by
  have split : (encodeLs (a ++ b)).length = (encodeLs a).length + (encodeLs b).length := by
    rw [encodeLs, List.flatMap_append, List.length_append]
    rfl
  refine ⟨listGives_entriesOf md5 (by omega), listGives_entriesOf md5 (by omega), ?_,
    fun ns _ => count_entriesOf md5 ns⟩
  rw [← entriesOf_append]
  exact listGives_entriesOf md5 (by omega)

end Lists

/-- The AS number 65000 as a sub-TLV. -/
def asTlv : SubTlv := ⟨512, [0, 0, 0xfd, 0xe8], by decide⟩

def routerTlv : SubTlv := ⟨515, [10, 0, 0, 1], by decide⟩

/-- A node and a link from it to itself, then a prefix it has. -/
theorem link_state_lists_compose_node_link_prefix :
    let node : LsNlri := ⟨3, Vector.replicate 8 0, .node [asTlv, routerTlv]⟩
    let link : LsNlri := ⟨3, Vector.replicate 8 0, .link [asTlv] [routerTlv] []⟩
    let pre : LsNlri := ⟨3, Vector.replicate 8 0, .pre true [asTlv] [] (by simp)⟩
    ListGives (fun _ => HashId.zero) ([node, link] ++ [pre])
      (followedBy (entriesOf (fun _ => HashId.zero) [node, link])
        (entriesOf (fun _ => HashId.zero) [pre])) :=
  (link_state_lists_compose (fun _ => HashId.zero) _ _ (by decide)).2.2.1

/-! Node descriptors. -/

section Order

/-- A field of the descriptor that sub-TLVs of one type may set. -/
private def noted {α : Type} (mine : Prop) [Decidable mine] (value old : α) : α :=
  if mine then value else old

private theorem noted_comm {α : Type} {mine mine' : Prop} [Decidable mine] [Decidable mine']
    (one : ¬ (mine ∧ mine')) (value value' old : α) :
    noted mine value (noted mine' value' old) = noted mine' value' (noted mine value old) := by
  unfold noted
  by_cases h : mine
  · have h' : ¬ mine' := fun both => one ⟨h, both⟩
    rw [if_pos h, if_neg h', if_pos h]
  · rw [if_neg h, if_neg h]

/-- Field by field, a sub-TLV sets the field of its type. -/
private theorem nodeAdd_eq (info : NodeDescriptor) (t : SubTlv) :
    nodeAdd info t = {
      asn := noted (t.type.toNat = 512 ∧ t.value.length = 4) (u32 (memOf t.value) 0) info.asn
      bgpLsId := noted (t.type.toNat = 513 ∧ t.value.length = 4) (u32 (memOf t.value) 0) info.bgpLsId
      ospfAreaId := noted (t.type.toNat = 514 ∧ t.value.length = 4) (readBytes (memOf t.value) 0 4)
        info.ospfAreaId
      igpRouterId := noted (t.type.toNat = 515 ∧ t.value.length ≤ 8)
        (readBytes (memOf t.value) 0 t.value.length ++ List.replicate (8 - t.value.length) 0)
        info.igpRouterId
      bgpRouterId := noted (t.type.toNat = 516 ∧ t.value.length = 4) (readBytes (memOf t.value) 0 4)
        info.bgpRouterId
      hashBin := info.hashBin } := by
  unfold nodeAdd nodeDescr noted
  generalize t.type.toNat = type
  split
  · by_cases four : t.value.length = 4 <;> simp [four]
  · by_cases four : t.value.length = 4 <;> simp [four]
  · by_cases four : t.value.length = 4 <;> simp [four]
  · by_cases short : t.value.length ≤ 8 <;> simp [short, not_lt.mpr, lt_of_not_ge]
  · by_cases four : t.value.length = 4 <;> simp [four]
  · rename_i notAs notLsId notArea notIgp notBgp
    rw [if_neg (fun is => notAs is.1), if_neg (fun is => notLsId is.1), if_neg (fun is => notIgp is.1),
      if_neg (fun is => notArea is.1), if_neg (fun is => notBgp is.1)]

theorem nodeAdd_comm {t t' : SubTlv} (different : t.type ≠ t'.type) (info : NodeDescriptor) :
    nodeAdd (nodeAdd info t) t' = nodeAdd (nodeAdd info t') t := by
  have one {code : Nat} {c c' : Prop} :
      ¬ ((t'.type.toNat = code ∧ c') ∧ (t.type.toNat = code ∧ c)) := by
    rintro ⟨⟨is', -⟩, is, -⟩
    exact different (UInt16.toNat_inj.mp (is.trans is'.symm))
  simp only [nodeAdd_eq _ t, nodeAdd_eq _ t', noted_comm one]

theorem foldl_nodeAdd_perm {ts ts' : List SubTlv} (perm : ts.Perm ts')
    (distinct : (ts.map SubTlv.type).Nodup) (info : NodeDescriptor) :
    ts.foldl nodeAdd info = ts'.foldl nodeAdd info := by
  refine perm.foldl_eq' ?_ info
  intro t here t' here' info
  by_cases same : t.type = t'.type
  · rw [List.inj_on_of_nodup_map distinct here here' same]
  · exact nodeAdd_comm same info

end Order

/-- What the sub-TLVs of a node descriptor decode to, wherever they lie. -/
def DecodesTo (ts : List SubTlv) (info : NodeDescriptor) : Prop :=
  ∀ (m : Mem) (data : Nat), Holds m data (tlvBytes ts) →
    descrLoop (parseDescrLocalRemoteNode m) data (tlvBytes ts).length NodeDescriptor.zero =
      ((tlvBytes ts).length, info)

/-- The four places of a node descriptor: whatever else the NLRI contains, the entry has
this hash for it. -/
structure HashedAs (md5 : Md5) (ts : List SubTlv) (hash : HashId) : Prop where
  node : ∀ (m : Mem) (data id protoId : Nat) (more : List UInt8),
    Holds m data (nodeBytes 256 ts ++ more) → (nodeBytes 256 ts ++ more).length < 65536 →
      ∃ node, parseNlriNode md5 m data (nodeBytes 256 ts ++ more).length id protoId = some node ∧
        node.hashId = hash
  linkLocal : ∀ (m : Mem) (data id protoId : Nat) (remote : List SubTlv) (more : List UInt8),
    let bytes := nodeBytes 256 ts ++ (nodeBytes 257 remote ++ more)
    Holds m data bytes → bytes.length < 65536 →
      ∃ link, parseNlriLink md5 m data bytes.length id protoId = some link ∧
        link.localNodeHashId = hash
  linkRemote : ∀ (m : Mem) (data id protoId : Nat) (localNode : List SubTlv) (more : List UInt8),
    let bytes := nodeBytes 256 localNode ++ (nodeBytes 257 ts ++ more)
    Holds m data bytes → bytes.length < 65536 →
      ∃ link, parseNlriLink md5 m data bytes.length id protoId = some link ∧
        link.remoteNodeHashId = hash
  prefixLocal : ∀ (m : Mem) (data id protoId : Nat) (isIPv4 : Bool) (more : List UInt8),
    Holds m data (nodeBytes 256 ts ++ more) → (nodeBytes 256 ts ++ more).length < 65536 →
      ∃ entry, parseNlriPrefix md5 m data (nodeBytes 256 ts ++ more).length id protoId isIPv4 =
          some entry ∧ entry.localNodeHashId = hash

section Places

variable (md5 : Md5) {m : Mem} {data : Nat} (id protoId : Nat)

/-- The link of two node descriptors, whatever follows them. -/
theorem parseNlriLink_nodes {near far : List SubTlv} {more : List UInt8}
    (held : Holds m data (nodeBytes 256 near ++ (nodeBytes 257 far ++ more)))
    (small : (nodeBytes 256 near ++ (nodeBytes 257 far ++ more)).length < 65536) :
    ∃ info, parseNlriLink md5 m data (nodeBytes 256 near ++ (nodeBytes 257 far ++ more)).length id
        protoId =
      some ((((LsLink.fresh id protoId).withNode 256 (describedNode md5 near)).withNode 257
        (describedNode md5 far)).withLink info) := by
  have nearSize := length_nodeBytes 256 near
  have farSize := length_nodeBytes 257 far
  simp only [holds_append, List.length_append] at held small ⊢
  have block := nodeBlock_of_holds md5 (by decide) (by omega) held.1
    (Nat.le_add_right _ ((nodeBytes 257 far).length + more.length))
  have block' := nodeBlock_of_holds md5 (by decide) (by omega) held.2.1
    (Nat.le_add_right _ more.length)
  refine ⟨(descrLoop (parseDescrLink m)
    (data + (nodeBytes 256 near).length + (nodeBytes 257 far).length) more.length
    LinkDescriptor.zero).2, ?_⟩
  rw [parseNlriLink, if_neg (by omega), block]
  simp only [Option.bind_eq_bind, Option.bind_some, Nat.add_sub_cancel_left, block']

theorem hashedAs_described (ts : List SubTlv) : HashedAs md5 ts (describedNode md5 ts).hashBin := by
  have size := length_nodeBytes 256 ts
  refine ⟨?_, ?_, ?_, ?_⟩
  · intro m data id protoId more held small
    rw [holds_append] at held
    rw [List.length_append] at small ⊢
    have block := nodeBlock_of_holds md5 (by decide) (by omega) held.1 (Nat.le_add_right _ more.length)
    refine ⟨LsNode.of id protoId (describedNode md5 ts), ?_, rfl⟩
    rw [parseNlriNode, if_neg (by omega), block]
    rfl
  · intro m data id protoId remote more bytes held small
    obtain ⟨info, parsed⟩ := parseNlriLink_nodes md5 id protoId held small
    exact ⟨_, parsed, rfl⟩
  · intro m data id protoId localNode more bytes held small
    obtain ⟨info, parsed⟩ := parseNlriLink_nodes md5 id protoId held small
    exact ⟨_, parsed, rfl⟩
  · intro m data id protoId isIPv4 more held small
    rw [holds_append] at held
    rw [List.length_append] at small ⊢
    have block := nodeBlock_of_holds md5 (by decide) (by omega) held.1 (Nat.le_add_right _ more.length)
    refine ⟨LsPrefix.of id protoId isIPv4 (describedNode md5 ts) (descrLoop
      (parseDescrPrefix m isIPv4) (data + (nodeBytes 256 ts).length) more.length
      PrefixDescriptor.zero).2, ?_, rfl⟩
    rw [parseNlriPrefix, if_neg (by omega), block]
    simp only [Option.bind_eq_bind, Option.bind_some, Nat.add_sub_cancel_left]
    rfl

/-- Sub-TLVs of pairwise distinct types may stand in any order: the descriptor and the octets
that are hashed are the same, and so is the hash in each of the four places. -/
theorem node_descriptor_order {ts ts' : List SubTlv} (perm : ts.Perm ts')
    (distinct : (ts.map SubTlv.type).Nodup) :
    ∃ info, DecodesTo ts info ∧ DecodesTo ts' info ∧
      HashedAs md5 ts (md5 (nodeHashInput info)) ∧ HashedAs md5 ts' (md5 (nodeHashInput info)) := by
  have same := foldl_nodeAdd_perm perm distinct NodeDescriptor.zero
  have decodes (ts : List SubTlv) : DecodesTo ts (ts.foldl nodeAdd NodeDescriptor.zero) :=
    fun m data held => descrLoop_of_holds ts data _ (fun t _ => nodeDescr_acts t) held
  refine ⟨ts.foldl nodeAdd NodeDescriptor.zero, decodes ts, ?_, hashedAs_described md5 ts, ?_⟩
  · rw [same]
    exact decodes ts'
  · rw [same]
    exact hashedAs_described md5 ts'

end Places

theorem node_descriptor_order_swapped :
    ∃ info, DecodesTo [asTlv, routerTlv] info ∧ DecodesTo [routerTlv, asTlv] info ∧
      HashedAs (fun _ => HashId.zero) [asTlv, routerTlv] HashId.zero ∧
      HashedAs (fun _ => HashId.zero) [routerTlv, asTlv] HashId.zero :=
  node_descriptor_order (fun _ => HashId.zero) (List.Perm.swap routerTlv asTlv []) (by decide)

end SonicBmp.Bgp.LinkStateLists
