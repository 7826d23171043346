/- module: SonicBmp/Bgp/LsMerge
   digest: How link-state entries are merged with the link-state attribute and published, and what their rows say. -/

import SonicBmp.Bgp.AddressText
import SonicBmp.Bgp.LinkStateAttr
import SonicBmp.Bgp.LinkStateLists
import SonicBmp.Bus.LsPrefixRows

set_option autoImplicit false
set_option relaxedAutoImplicit false

namespace SonicBmp.Bgp.LsMerge

open SonicBmp.Library.Memory
open SonicBmp.Library.Printing
open SonicBmp.Library.CStrings
open SonicBmp.Bgp.AddressText (colon_not_mem_inetNtop4 colon_mem_inetNtop6)
open SonicBmp.Bgp.Common (inetNtop inetNtop4 inetNtop6)
open SonicBmp.Bgp.LinkState
open SonicBmp.Bgp.LinkStateAttr (Slot LsAttrs)
open SonicBmp.Bgp.LinkStateCodec
open SonicBmp.Bgp.LinkStateLists
open SonicBmp.Bus.Interface
open SonicBmp.Bus.Kafka
open SonicBmp.Bus.KafkaText
open SonicBmp.Bus.LsRows
open SonicBmp.Bus.LsPrefixRows

/-! The tables. What the NLRI parser fills is kept as it leaves it; the other members start
with zeros. -/

structure NodeTable where
  nlri : LsNode
  routerId : CArray 16
  isisAreaId : CArray 9
  flags : CArray 32
  name : CArray 255
  mtId : CArray 255
  srCapabilitiesTlv : CArray 255

structure LinkTable where
  nlri : LsLink
  routerId : CArray 16
  remoteRouterId : CArray 16
  isisAreaId : CArray 9
  adminGroup : Nat
  maxLinkBw : Nat
  maxResvBw : Nat
  unreservedBw : CArray 100
  teDefMetric : Nat
  protectionType : CArray 60
  mplsProtoMask : CArray 32
  igpMetric : Nat
  srlg : CArray 128
  name : CArray 255
  peerNodeSid : CArray 128
  peerAdjSid : CArray 128

structure PrefixTable where
  nlri : LsPrefix
  routerId : CArray 16
  isisAreaId : CArray 9
  metric : Nat
  igpFlags : CArray 32
  routeTag : Nat
  extRouteTag : Nat
  ospfFwdAddr : CArray 16
  sidTlv : CArray 128

def NodeTable.of (nlri : LsNode) : NodeTable :=
  ⟨nlri, .zero 16, .zero 9, .zero 32, .zero 255, .zero 255, .zero 255⟩

def LinkTable.of (nlri : LsLink) : LinkTable :=
  ⟨nlri, .zero 16, .zero 16, .zero 9, 0, 0, 0, .zero 100, 0, .zero 60, .zero 32, 0, .zero 128,
    .zero 255, .zero 128, .zero 128⟩

def PrefixTable.of (nlri : LsPrefix) : PrefixTable :=
  ⟨nlri, .zero 16, .zero 9, 0, .zero 32, 0, 0, .zero 16, .zero 128⟩

/-! Merging. -/

/-- `if (ls_attrs.find(type) != ls_attrs.end())`. -/
def merged {α : Type} (attrs : LsAttrs) (type : Nat) (copy : Slot → α → α) (entry : α) : α :=
  (attrs type).elim entry fun slot => copy slot entry

/-- `memcpy` from the start of a slot to the start of a member. -/
def copied {k : Nat} (n : Nat) (slot : Slot) (member : CArray k) : CArray k :=
  member.put 0 (slot.bytes.take n)

/-- `memcpy` from the start of a slot to a number of `n` octets. -/
def number (n : Nat) (slot : Slot) : Nat := leValue (slot.bytes.take n)

/-- A router identifier and the family: the one of IPv6 unless the entry is of IPv4, otherwise
the one of IPv4. -/
def routerIdFrom (v6 v4 : Nat) (attrs : LsAttrs) (isIPv4 : Bool) (routerId : CArray 16) :
    CArray 16 × Bool :=
  match isIPv4, attrs v6 with
  | false, some slot => (copied 16 slot routerId, false)
  | _, _ =>
    match attrs v4 with
    | some slot => (copied 4 slot routerId, true)
    | none => (routerId, isIPv4)

def mergeNode (attrs : LsAttrs) (node : NodeTable) : NodeTable :=
  let node := merged attrs 1026 (fun slot node => { node with name := copied 255 slot node.name }) node
  let node := merged attrs 1028
    (fun slot node => { node with routerId := copied 4 slot node.routerId }) node
  let node := merged attrs 1029
    (fun slot node => { node with
      routerId := copied 16 slot node.routerId
      nlri := { node.nlri with isIPv4 := false } }) node
  -- `strncpy` with one octet more than the text
  let node := merged attrs 263
    (fun slot node => { node with mtId := node.mtId.put 0 (slot.text ++ [0]) }) node
  let node := merged attrs 1024
    (fun slot node => { node with flags := copied 32 slot node.flags }) node
  let node := merged attrs 1027
    (fun slot node => { node with isisAreaId := copied 9 slot node.isisAreaId }) node
  merged attrs 1034
    (fun slot node => { node with srCapabilitiesTlv := copied 255 slot node.srCapabilitiesTlv }) node

def mergeLink (attrs : LsAttrs) (link : LinkTable) : LinkTable :=
  let near := routerIdFrom 1029 1028 attrs link.nlri.isIPv4 link.routerId
  let link := { link with routerId := near.1, nlri := { link.nlri with isIPv4 := near.2 } }
  -- the family is set for the local router only
  let far := routerIdFrom 1031 1030 attrs link.nlri.isIPv4 link.remoteRouterId
  let link := { link with remoteRouterId := far.1 }
  let link := merged attrs 1027
    (fun slot link => { link with isisAreaId := copied 9 slot link.isisAreaId }) link
  let link := merged attrs 1088 (fun slot link => { link with adminGroup := number 4 slot }) link
  let link := merged attrs 1089 (fun slot link => { link with maxLinkBw := number 4 slot }) link
  let link := merged attrs 1090 (fun slot link => { link with maxResvBw := number 4 slot }) link
  let link := merged attrs 1091
    (fun slot link => { link with unreservedBw := copied 100 slot link.unreservedBw }) link
  let link := merged attrs 1092 (fun slot link => { link with teDefMetric := number 4 slot }) link
  let link := merged attrs 1093
    (fun slot link => { link with protectionType := copied 60 slot link.protectionType }) link
  let link := merged attrs 1094
    (fun slot link => { link with mplsProtoMask := copied 32 slot link.mplsProtoMask }) link
  let link := merged attrs 1095 (fun slot link => { link with igpMetric := number 4 slot }) link
  let link := merged attrs 1096 (fun slot link => { link with srlg := copied 128 slot link.srlg }) link
  let link := merged attrs 1098 (fun slot link => { link with name := copied 255 slot link.name }) link
  let link := merged attrs 1101
    (fun slot link => { link with peerNodeSid := copied 128 slot link.peerNodeSid }) link
  merged attrs 1099
    (fun slot link => { link with peerAdjSid := copied 128 slot link.peerAdjSid }) link

def mergePrefix (attrs : LsAttrs) (entry : PrefixTable) : PrefixTable :=
  let near := routerIdFrom 1029 1028 attrs entry.nlri.isIPv4 entry.routerId
  let entry := { entry with routerId := near.1, nlri := { entry.nlri with isIPv4 := near.2 } }
  let entry := merged attrs 1027
    (fun slot entry => { entry with isisAreaId := copied 9 slot entry.isisAreaId }) entry
  let entry := merged attrs 1152
    (fun slot entry => { entry with igpFlags := copied 32 slot entry.igpFlags }) entry
  let entry := merged attrs 1153 (fun slot entry => { entry with routeTag := number 4 slot }) entry
  let entry := merged attrs 1154 (fun slot entry => { entry with extRouteTag := number 8 slot }) entry
  let entry := merged attrs 1155 (fun slot entry => { entry with metric := number 4 slot }) entry
  let entry := merged attrs 1156
    (fun slot entry => { entry with ospfFwdAddr := copied 16 slot entry.ospfFwdAddr }) entry
  merged attrs 1158 (fun slot entry => { entry with sidTlv := copied 128 slot entry.sidTlv }) entry

/-! The entries as the bus reads them. -/

/-- A member of `n` octets. -/
def octets (n : Nat) (bytes : List UInt8) : Vector UInt8 n := Vector.ofFn fun i => bytes.getD i 0

/-- `%s` of the first member of a list: a text that fills its array runs on into the members
behind it. -/
def textOf (members : List (List UInt8)) : Text :=
  (members.flatten.takeWhile (· ≠ 0)).map fun b => Char.ofNat b.toNat

/-- The texts of a node, in the order of the members. -/
def NodeTable.texts (node : NodeTable) : List (List UInt8) :=
  [node.flags.bytes, node.name.bytes, node.mtId.bytes, node.srCapabilitiesTlv.bytes]

def NodeTable.entry (node : NodeTable) : ObjLsNode where
  hashId := node.nlri.hashId
  id := node.nlri.id
  isIPv4 := node.nlri.isIPv4
  bgpLsId := node.nlri.bgpLsId
  igpRouterId := octets 8 node.nlri.igpRouterId
  ospfAreaId := octets 4 node.nlri.ospfAreaId
  protocol := node.nlri.protocol
  routerId := octets 16 node.routerId.bytes
  isisAreaId := octets 9 node.isisAreaId.bytes
  flags := textOf node.texts
  name := textOf (node.texts.drop 1)
  mtId := textOf (node.texts.drop 2)
  srCapabilitiesTlv := textOf (node.texts.drop 3)

/-- The members of a link from the first text on; two numbers lie between the texts. -/
def LinkTable.texts (link : LinkTable) : List (List UInt8) :=
  [link.unreservedBw.bytes, leBytes 4 link.teDefMetric, link.protectionType.bytes,
    link.mplsProtoMask.bytes, leBytes 4 link.igpMetric, link.srlg.bytes, link.name.bytes,
    link.peerNodeSid.bytes, link.peerAdjSid.bytes]

def LinkTable.entry (link : LinkTable) : ObjLsLink where
  id := link.nlri.id
  mtId := link.nlri.mtId
  bgpLsId := link.nlri.bgpLsId
  igpRouterId := octets 8 link.nlri.igpRouterId
  remoteIgpRouterId := octets 8 link.nlri.remoteIgpRouterId
  ospfAreaId := octets 4 link.nlri.ospfAreaId
  routerId := octets 16 link.routerId.bytes
  remoteRouterId := octets 16 link.remoteRouterId.bytes
  localNodeAsn := link.nlri.localNodeAsn
  remoteNodeAsn := link.nlri.remoteNodeAsn
  localBgpRouterId := octets 4 link.nlri.localBgpRouterId
  remoteBgpRouterId := octets 4 link.nlri.remoteBgpRouterId
  isisAreaId := octets 9 link.isisAreaId.bytes
  protocol := link.nlri.protocol
  intfAddr := octets 16 link.nlri.intfAddr
  neiAddr := octets 16 link.nlri.neiAddr
  localLinkId := link.nlri.localLinkId
  remoteLinkId := link.nlri.remoteLinkId
  isIPv4 := link.nlri.isIPv4
  localNodeHashId := link.nlri.localNodeHashId
  remoteNodeHashId := link.nlri.remoteNodeHashId
  adminGroup := link.adminGroup
  maxLinkBw := link.maxLinkBw
  maxResvBw := link.maxResvBw
  unreservedBw := textOf link.texts
  teDefMetric := link.teDefMetric
  protectionType := textOf (link.texts.drop 2)
  mplsProtoMask := textOf (link.texts.drop 3)
  igpMetric := link.igpMetric
  srlg := textOf (link.texts.drop 5)
  name := textOf (link.texts.drop 6)
  peerNodeSid := textOf (link.texts.drop 7)
  peerAdjSid := textOf (link.texts.drop 8)

/-- Padding follows `igp_flags`, and the last member is `sid_tlv`. -/
def PrefixTable.entry (entry : PrefixTable) : ObjLsPrefix where
  id := entry.nlri.id
  protocol := entry.nlri.protocol
  bgpLsId := entry.nlri.bgpLsId
  igpRouterId := octets 8 entry.nlri.igpRouterId
  ospfAreaId := octets 4 entry.nlri.ospfAreaId
  routerId := octets 16 entry.routerId.bytes
  isisAreaId := octets 9 entry.isisAreaId.bytes
  localNodeHashId := entry.nlri.localNodeHashId
  mtId := entry.nlri.mtId
  metric := entry.metric
  isIPv4 := entry.nlri.isIPv4
  prefixLen := entry.nlri.prefixLen
  ospfRouteType := entry.nlri.ospfRouteType
  prefixBin := octets 16 entry.nlri.prefixBin
  igpFlags := textOf [entry.igpFlags.bytes]
  routeTag := entry.routeTag
  extRouteTag := entry.extRouteTag
  ospfFwdAddr := octets 16 entry.ospfFwdAddr.bytes
  sidTlv := textOf [entry.sidTlv.bytes]

/-! Publishing. -/

def nodeEntry (attrs : LsAttrs) (nlri : LsNode) : ObjLsNode := (mergeNode attrs (.of nlri)).entry

def linkEntry (attrs : LsAttrs) (nlri : LsLink) : ObjLsLink := (mergeLink attrs (.of nlri)).entry

def prefixEntry (attrs : LsAttrs) (nlri : LsPrefix) : ObjLsPrefix :=
  (mergePrefix attrs (.of nlri)).entry

/-- `parseBGP::UpdateDbBgpLs`: its calls, and the attribute map as it leaves it. -/
def updateDbBgpLs (remove : Bool) (ls : LsData) (attrs : LsAttrs) : List LsCall × LsAttrs :=
  let code : UnicastPrefixActionCode := if remove then .del else .add
  ((if 0 < ls.nodes.length then [LsCall.node (ls.nodes.map (nodeEntry attrs)) code] else []) ++
    ((if 0 < ls.links.length then [LsCall.link (ls.links.map (linkEntry attrs)) code] else []) ++
      if 0 < ls.prefixes.length then [LsCall.pfx (ls.prefixes.map (prefixEntry attrs)) code] else []),
    fun _ => none)

/-- The two calls of `parseBGP::UpdateDB`: the withdrawn entries find an empty map. -/
def publishLs (ls withdrawn : LsData) (attrs : LsAttrs) : List LsCall :=
  let announced := updateDbBgpLs false ls attrs
  announced.1 ++ (updateDbBgpLs true withdrawn announced.2).1

/-! What merging keeps. -/

/-- The family of a link or a prefix after merging. -/
def family (attrs : LsAttrs) (isIPv4 : Bool) : Bool :=
  isIPv4 || (attrs 1029).isNone && (attrs 1028).isSome

theorem routerIdFrom_snd (attrs : LsAttrs) (isIPv4 : Bool) (routerId : CArray 16) :
    (routerIdFrom 1029 1028 attrs isIPv4 routerId).2 = family attrs isIPv4 := by
  unfold routerIdFrom family
  cases isIPv4 <;> cases attrs 1029 <;> cases attrs 1028 <;> rfl

theorem merged_keeps {α β : Type} {copy : Slot → α → α} (view : α → β)
    (keeps : ∀ slot entry, view (copy slot entry) = view entry) (attrs : LsAttrs) (type : Nat)
    (entry : α) : view (merged attrs type copy entry) = view entry := by
  unfold merged
  cases attrs type with
  | none => rfl
  | some slot => exact keeps slot entry

theorem mergeNode_hashId (attrs : LsAttrs) (node : NodeTable) :
    (mergeNode attrs node).nlri.hashId = node.nlri.hashId := by
  simp only [mergeNode, merged_keeps (fun node : NodeTable => node.nlri.hashId), implies_true]

theorem mergeLink_nlri (attrs : LsAttrs) (link : LinkTable) :
    (mergeLink attrs link).nlri = { link.nlri with isIPv4 := family attrs link.nlri.isIPv4 } := by
  simp only [mergeLink, merged_keeps LinkTable.nlri, implies_true, routerIdFrom_snd]

theorem mergePrefix_nlri (attrs : LsAttrs) (entry : PrefixTable) :
    (mergePrefix attrs entry).nlri =
      { entry.nlri with isIPv4 := family attrs entry.nlri.isIPv4 } := by
  simp only [mergePrefix, merged_keeps PrefixTable.nlri, implies_true, routerIdFrom_snd]

theorem nodeEntry_hashId (attrs : LsAttrs) (nlri : LsNode) :
    (nodeEntry attrs nlri).hashId = nlri.hashId := mergeNode_hashId attrs _

/-- The octets hashed for a link are those of its NLRI. -/
theorem linkHashInput_linkEntry (attrs : LsAttrs) (nlri : LsLink) (pHashStr : Text) :
    linkHashInput pHashStr (linkEntry attrs nlri) =
      linkHashInput pHashStr (LinkTable.of nlri).entry := by
  simp only [linkHashInput, linkEntry, LinkTable.entry, mergeLink_nlri]

theorem prefixHashInput_prefixEntry (attrs : LsAttrs) (nlri : LsPrefix) :
    prefixHashInput (prefixEntry attrs nlri) = prefixHashInput (PrefixTable.of nlri).entry := by
  simp only [prefixHashInput, prefixEntry, PrefixTable.entry, mergePrefix_nlri]

/-! The rows of an UPDATE. -/

/-- The rows of one kind of object under a code, in the order they were printed. -/
def rowsUnder (code : UnicastPrefixActionCode) (object : LsObject) (records : List LsRecord) :
    List (List Text) :=
  (records.filter fun record => record.object = object ∧ record.code = code).flatMap LsRecord.rows

theorem rowsUnder_append (code : UnicastPrefixActionCode) (object : LsObject)
    (records records' : List LsRecord) :
    rowsUnder code object (records ++ records') =
      rowsUnder code object records ++ rowsUnder code object records' := by
  simp [rowsUnder]

section Rows

variable (md5 : Md5) (env : PrintEnv) (peer : KafkaPeer) (attr : KafkaAttr)

/-- The rows of the entries of one kind. -/
def entryRows (bus : LsBus) (code : UnicastPrefixActionCode) (ls : LsData) (attrs : LsAttrs) :
    LsObject → List (List Text)
  | .node => lsNodeRows env bus.routerIp peer attr code bus.lsNodeSeq
      (ls.nodes.map (nodeEntry attrs))
  | .link => lsLinkRows md5 bus.routerIp peer attr code bus.lsLinkSeq
      (ls.links.map (linkEntry attrs))
  | .pfx => lsPrefixRows md5 bus.routerIp peer attr code bus.lsPrefixSeq
      (ls.prefixes.map (prefixEntry attrs))

/-- The bus after the rows of these entries. -/
def busPast (bus : LsBus) (ls : LsData) : LsBus :=
  { bus with
    lsNodeSeq := bus.lsNodeSeq + ls.nodes.length
    lsLinkSeq := bus.lsLinkSeq + ls.links.length
    lsPrefixSeq := bus.lsPrefixSeq + ls.prefixes.length }

theorem run_append (bus : LsBus) (calls calls' : List LsCall) :
    bus.run md5 env peer attr (calls ++ calls') =
      (((bus.run md5 env peer attr calls).1.run md5 env peer attr calls').1,
        (bus.run md5 env peer attr calls).2 ++
          ((bus.run md5 env peer attr calls).1.run md5 env peer attr calls').2) := by
  induction calls generalizing bus with
  | nil => rfl
  | cons call calls ih => simp only [List.cons_append, LsBus.run, ih]

/-- A call without entries would change nothing and print no rows. -/
theorem step_empty (bus : LsBus) {call : LsCall} (empty : call.size = 0) :
    (bus.step md5 env peer attr call).1 = bus ∧ (bus.step md5 env peer attr call).2.rows = [] := by
  cases call with
  | node nodes code =>
    obtain rfl := List.eq_nil_of_length_eq_zero empty
    exact ⟨rfl, rfl⟩
  | link links code =>
    obtain rfl := List.eq_nil_of_length_eq_zero empty
    exact ⟨rfl, rfl⟩
  | pfx entries code =>
    obtain rfl := List.eq_nil_of_length_eq_zero empty
    exact ⟨rfl, rfl⟩

/-- Two runs that end alike and print the same rows. -/
def SameRows (one two : LsBus × List LsRecord) : Prop :=
  one.1 = two.1 ∧ ∀ code object, rowsUnder code object one.2 = rowsUnder code object two.2

/-- Leaving out a call without entries makes no difference. -/
theorem run_guarded (call : LsCall) (bus : LsBus) (calls calls' : List LsCall)
    (rest : ∀ bus : LsBus,
      SameRows (bus.run md5 env peer attr calls) (bus.run md5 env peer attr calls')) :
    SameRows (bus.run md5 env peer attr ((if 0 < call.size then [call] else []) ++ calls))
      (bus.run md5 env peer attr (call :: calls')) := by
  by_cases some : 0 < call.size
  · rw [if_pos some, List.singleton_append]
    refine ⟨(rest _).1, fun code object => ?_⟩
    exact (rowsUnder_append code object [_] _).trans
      ((congrArg _ ((rest _).2 code object)).trans (rowsUnder_append code object [_] _).symm)
  · obtain ⟨same, none⟩ := step_empty md5 env peer attr bus (Nat.eq_zero_of_not_pos some)
    rw [if_neg some, List.nil_append, LsBus.run, same]
    refine ⟨(rest bus).1, fun code object => ((rest bus).2 code object).trans ?_⟩
    have silent : rowsUnder code object [(bus.step md5 env peer attr call).2] = [] := by
      refine List.flatMap_eq_nil_iff.mpr fun record here => ?_
      rw [List.mem_singleton.mp (List.mem_of_mem_filter here)]
      exact none
    exact ((rowsUnder_append code object [_] _).trans (by rw [silent, List.nil_append])).symm

theorem run_updateDbBgpLs (bus : LsBus) (remove : Bool) (ls : LsData) (attrs : LsAttrs) :
    (bus.run md5 env peer attr (updateDbBgpLs remove ls attrs).1).1 = busPast bus ls ∧
      ∀ code object,
        rowsUnder code object (bus.run md5 env peer attr (updateDbBgpLs remove ls attrs).1).2 =
          if code = (if remove then .del else .add) then
            entryRows md5 env peer attr bus code ls attrs object
          else [] := by
  let sent : UnicastPrefixActionCode := if remove then .del else .add
  let node := LsCall.node (ls.nodes.map (nodeEntry attrs)) sent
  let link := LsCall.link (ls.links.map (linkEntry attrs)) sent
  let pfx := LsCall.pfx (ls.prefixes.map (prefixEntry attrs)) sent
  have calls : (updateDbBgpLs remove ls attrs).1 = (if 0 < node.size then [node] else []) ++
      ((if 0 < link.size then [link] else []) ++
        ((if 0 < pfx.size then [pfx] else []) ++ [])) := by
    simp [updateDbBgpLs, node, link, pfx, sent, LsCall.size]
  have whole : SameRows (bus.run md5 env peer attr (updateDbBgpLs remove ls attrs).1)
      (bus.run md5 env peer attr [node, link, pfx]) := by
    rw [calls]
    apply run_guarded
    intro bus
    apply run_guarded
    intro bus
    apply run_guarded
    exact fun bus => ⟨rfl, fun _ _ => rfl⟩
  refine ⟨whole.1.trans ?_, fun code object => (whole.2 code object).trans ?_⟩
  · simp [LsBus.run, LsBus.step, busPast, node, link, pfx]
  · cases remove <;> cases code <;> cases object <;>
      simp [LsBus.run, LsBus.step, rowsUnder, entryRows, node, link, pfx, sent]

section Update

variable (bus : LsBus) (ls withdrawn : LsData) (attrs : LsAttrs)

/-- The announced entries are merged with the attribute, the withdrawn ones with nothing. -/
theorem rowsUnder_publishLs (object : LsObject) :
    let records := (bus.run md5 env peer attr (publishLs ls withdrawn attrs)).2
    rowsUnder .add object records = entryRows md5 env peer attr bus .add ls attrs object ∧
      rowsUnder .del object records =
        entryRows md5 env peer attr (busPast bus ls) .del withdrawn (fun _ => none) object := by
  obtain ⟨past, announced⟩ := run_updateDbBgpLs md5 env peer attr bus false ls attrs
  obtain ⟨-, gone⟩ := run_updateDbBgpLs md5 env peer attr (busPast bus ls) true withdrawn
    (fun _ => none)
  rw [publishLs, run_append, past]
  simp only [rowsUnder_append, announced]
  constructor
  · rw [show (updateDbBgpLs false ls attrs).2 = fun _ => none from rfl, gone]
    simp
  · rw [show (updateDbBgpLs false ls attrs).2 = fun _ => none from rfl, gone]
    simp

end Update

/-! Hashes. -/

/-- The column of an entry's own hash, in all three kinds of rows. -/
def hashColumn (row : List Text) : Text := row.getD 2 []

/-- The hashes of the entries of one kind, as the NLRI determine them. -/
def entryHashes (ls : LsData) : LsObject → List Text
  | .node => ls.nodes.map fun nlri => hashToStr nlri.hashId
  | .link => ls.links.map fun nlri =>
      hashToStr (md5 (linkHashInput (hashToStr peer.hashId) (LinkTable.of nlri).entry))
  | .pfx => ls.prefixes.map fun nlri => hashToStr (md5 (prefixHashInput (PrefixTable.of nlri).entry))

theorem map_hashColumn_entryRows (bus : LsBus) (code : UnicastPrefixActionCode) (ls : LsData)
    (attrs : LsAttrs) (object : LsObject) :
    (entryRows md5 env peer attr bus code ls attrs object).map hashColumn =
      entryHashes md5 peer ls object := by
  cases object with
  | node =>
    rw [entryRows, map_lsNodeRows _ _ _ _ _ _ _ (fun node => hashToStr node.hashId) _
      (fun _ _ _ => rfl), List.map_map]
    refine List.map_congr_left fun nlri _ => ?_
    rw [Function.comp_apply, nodeEntry_hashId]
  | link =>
    rw [entryRows, map_lsLinkRows _ _ _ _ _ _ _
      (fun link => hashToStr (md5 (linkHashInput (hashToStr peer.hashId) link))) _
      (fun _ _ _ => rfl), List.map_map]
    refine List.map_congr_left fun nlri _ => ?_
    rw [Function.comp_apply, linkHashInput_linkEntry]
  | pfx =>
    rw [entryRows, map_lsPrefixRows _ _ _ _ _ _ _
      (fun entry => hashToStr (md5 (prefixHashInput entry))) _ (fun _ _ _ => rfl), List.map_map]
    refine List.map_congr_left fun nlri _ => ?_
    rw [Function.comp_apply, prefixHashInput_prefixEntry]

/-- The places of a node descriptor in the NLRI. -/
inductive NodePlace
  | node | linkLocal | linkRemote | prefixLocal
  deriving DecidableEq

def NodePlace.descriptor (place : NodePlace) (n : LsNlri) : Option (List SubTlv) :=
  match place, n.body with
  | .node, .node localNode => some localNode
  | .linkLocal, .link localNode _ _ => some localNode
  | .linkRemote, .link _ remoteNode _ => some remoteNode
  | .prefixLocal, .pre _ localNode _ _ => some localNode
  | _, _ => none

def NodePlace.object : NodePlace → LsObject
  | .node => .node
  | .linkLocal | .linkRemote => .link
  | .prefixLocal => .pfx

/-- Where the rows show the hash of the node. -/
def NodePlace.column : NodePlace → List Text → Text
  | .node, row => hashColumn row
  | .linkLocal, row => row.getD 37 []
  | .linkRemote, row => row.getD 36 []
  | .prefixLocal, row => row.getD 21 []

/-- What stands for a node: the hash of what its descriptor says. -/
def nodeRef (ts : List SubTlv) : Text :=
  hashToStr (md5 (nodeHashInput (ts.foldl nodeAdd NodeDescriptor.zero)))

theorem map_column_entryRows (place : NodePlace) (bus : LsBus) (code : UnicastPrefixActionCode)
    (ns : List LsNlri) (attrs : LsAttrs) :
    (entryRows md5 env peer attr bus code (entriesOf md5 ns) attrs place.object).map place.column =
      (ns.filterMap place.descriptor).map (nodeRef md5) := by
  cases place with
  | node =>
    refine (map_hashColumn_entryRows md5 env peer attr bus code _ attrs .node).trans ?_
    rw [entryHashes, entriesOf, List.map_filterMap, List.map_filterMap]
    congr 1
    funext n
    cases body : n.body <;> simp only [LsNlri.node?, NodePlace.descriptor, body] <;> rfl
  | linkLocal =>
    refine (map_lsLinkRows md5 _ _ _ _ _ _ (fun link => hashToStr link.localNodeHashId) _
      (fun _ _ _ => rfl)).trans ?_
    rw [List.map_map, entriesOf, List.map_filterMap, List.map_filterMap]
    congr 1
    funext n
    cases body : n.body <;>
      simp only [LsNlri.link?, NodePlace.descriptor, body, linkEntry, LinkTable.entry,
        Function.comp_def, mergeLink_nlri] <;> rfl
  | linkRemote =>
    refine (map_lsLinkRows md5 _ _ _ _ _ _ (fun link => hashToStr link.remoteNodeHashId) _
      (fun _ _ _ => rfl)).trans ?_
    rw [List.map_map, entriesOf, List.map_filterMap, List.map_filterMap]
    congr 1
    funext n
    cases body : n.body <;>
      simp only [LsNlri.link?, NodePlace.descriptor, body, linkEntry, LinkTable.entry,
        Function.comp_def, mergeLink_nlri] <;> rfl
  | prefixLocal =>
    refine (map_lsPrefixRows md5 _ _ _ _ _ _ (fun entry => hashToStr entry.localNodeHashId) _
      (fun _ _ _ => rfl)).trans ?_
    rw [List.map_map, entriesOf, List.map_filterMap, List.map_filterMap]
    congr 1
    funext n
    cases body : n.body <;>
      simp only [LsNlri.prefix?, NodePlace.descriptor, body, prefixEntry, PrefixTable.entry,
        Function.comp_def, mergePrefix_nlri] <;> rfl

theorem inetNtop_family_inj {one two : Bool} {src : List UInt8} :
    inetNtop one src = inetNtop two src ↔ one = two := by
  have apart : inetNtop4 src ≠ inetNtop6 src := by
    intro same
    exact colon_not_mem_inetNtop4 src (same ▸ colon_mem_inetNtop6 src)
  cases one <;> cases two <;> simp [inetNtop, apart, apart.symm]

/-- The attribute has a local router identifier of IPv4 and none of IPv6. -/
def OnlyIPv4Router (attrs : LsAttrs) : Prop := attrs 1029 = none ∧ attrs 1028 ≠ none

theorem family_eq_iff (attrs : LsAttrs) (isIPv4 : Bool) :
    family attrs isIPv4 = isIPv4 ↔ ¬ (OnlyIPv4Router attrs ∧ isIPv4 = false) := by
  unfold family OnlyIPv4Router
  cases isIPv4 <;> cases attrs 1029 <;> cases attrs 1028 <;> simp

theorem family_none (isIPv4 : Bool) : family (fun _ => none) isIPv4 = isIPv4 := by
  cases isIPv4 <;> rfl

/-- The prefix itself. -/
def prefixColumn (row : List Text) : Text := row.getD 29 []

/-- The interface address and the neighbor address. -/
def addressColumns (row : List Text) : List Text := [row.getD 24 [], row.getD 25 []]

def prefixText (isIPv4 : Bool) (nlri : LsPrefix) : Text :=
  inetNtop isIPv4 (octets 16 nlri.prefixBin).toList

def addressTexts (isIPv4 : Bool) (nlri : LsLink) : List Text :=
  [inetNtop isIPv4 (octets 16 nlri.intfAddr).toList, inetNtop isIPv4 (octets 16 nlri.neiAddr).toList]

theorem map_prefixColumn_entryRows (bus : LsBus) (code : UnicastPrefixActionCode) (ls : LsData)
    (attrs : LsAttrs) :
    (entryRows md5 env peer attr bus code ls attrs .pfx).map prefixColumn =
      ls.prefixes.map fun nlri => prefixText (family attrs nlri.isIPv4) nlri := by
  refine (map_lsPrefixRows md5 _ _ _ _ _ _
    (fun entry => inetNtop entry.isIPv4 entry.prefixBin.toList) _ (fun _ _ _ => rfl)).trans ?_
  rw [List.map_map]
  refine List.map_congr_left fun nlri _ => ?_
  simp only [Function.comp_apply, prefixEntry, PrefixTable.entry, mergePrefix_nlri]
  rfl

theorem map_addressColumns_entryRows (bus : LsBus) (code : UnicastPrefixActionCode) (ls : LsData)
    (attrs : LsAttrs) :
    (entryRows md5 env peer attr bus code ls attrs .link).map addressColumns =
      ls.links.map fun nlri => addressTexts (family attrs nlri.isIPv4) nlri := by
  refine (map_lsLinkRows md5 _ _ _ _ _ _ (fun link =>
    [inetNtop link.isIPv4 link.intfAddr.toList, inetNtop link.isIPv4 link.neiAddr.toList]) _
    (fun _ _ _ => rfl)).trans ?_
  rw [List.map_map]
  refine List.map_congr_left fun nlri _ => ?_
  simp only [Function.comp_apply, linkEntry, LinkTable.entry, mergeLink_nlri]
  rfl

/-- Texts printed with the family of the attribute and with the own family agree for a list of
entries exactly if no entry of IPv6 is taken for one of IPv4. -/
theorem map_family_eq_iff {α β : Type} (isIPv4 : α → Bool) (text : Bool → α → β)
    (shows : ∀ one two x, text one x = text two x ↔ one = two) (attrs : LsAttrs) (xs : List α) :
    (xs.map fun x => text (family attrs (isIPv4 x)) x) = (xs.map fun x => text (isIPv4 x) x) ↔
      ¬ (OnlyIPv4Router attrs ∧ ∃ x ∈ xs, isIPv4 x = false) := by
  rw [List.map_inj_left]
  simp only [shows, family_eq_iff]
  constructor
  · rintro right ⟨only, x, here, six⟩
    exact right x here ⟨only, six⟩
  · rintro none x here ⟨only, six⟩
    exact none ⟨only, x, here, six⟩

end Rows

end SonicBmp.Bgp.LsMerge
