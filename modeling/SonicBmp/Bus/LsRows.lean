/- module: SonicBmp/Bus/LsRows
   digest: The rows of link-state nodes and links, and when a row is that of its entry alone. -/

import SonicBmp.Bus.KafkaBatch

set_option autoImplicit false
set_option relaxedAutoImplicit false

namespace SonicBmp.Bus.LsRows

open SonicBmp.Library.Printing
open SonicBmp.Library.Memory (leBytes)
open SonicBmp.Bgp.Common (inetNtop inetNtop4)
open SonicBmp.Bus.Interface
open SonicBmp.Bus.Kafka
open SonicBmp.Bus.KafkaText
open SonicBmp.Bus.KafkaBatch

/-! Areas. -/

/-- The area as it is appended, when its length octet is possible. -/
def areaText (area : Vector UInt8 9) : Text :=
  let len := (area.toList.getD 8 0).toNat
  if len ≤ 9 then
    ((area.toList.take len).take 1).flatMap (fun b => upperByte b ++ ['.']) ++
      ((area.toList.take len).drop 1).flatMap upperByte
  else []

/-- The length octet is not zero and possible. -/
def HasArea (area : Vector UInt8 9) : Prop :=
  1 ≤ (area.toList.getD 8 0).toNat ∧ (area.toList.getD 8 0).toNat ≤ 9

theorem areaText_ne_nil_iff (area : Vector UInt8 9) : areaText area ≠ [] ↔ HasArea area := by
  unfold areaText HasArea
  dsimp only
  generalize (area.toList.getD 8 0).toNat = len
  obtain ⟨first, rest, octets⟩ : ∃ first rest, area.toList = first :: rest :=
    List.exists_cons_of_length_eq_add_one area.length_toList
  rw [octets]
  by_cases possible : len ≤ 9
  · cases len with
    | zero => simp
    | succ len => simp [upperByte, hexByte, possible]
  · simp [possible]

/-! The text that some entries append their area to and the others clear. It is kept whole
here; the arrays of the source end after 32 and 33 bytes, and `strcat` does not stop there. -/

section Held

variable {α : Type} (appends : α → Bool) (area : α → Vector UInt8 9)

def held (before : Text) (x : α) : Text :=
  if appends x then before ++ areaText (area x) else []

/-- Each entry with the text that is held when its row is printed. -/
def withHeld : Text → List α → List (Text × α)
  | _, [] => []
  | before, x :: xs => (held appends area before x, x) :: withHeld (held appends area before x) xs

/-- An earlier entry has left its area, and no entry after it has cleared the text. -/
def Carried (before : List α) : Prop :=
  ∃ earlier x later, before = earlier ++ x :: later ∧ appends x = true ∧ HasArea (area x) ∧
    ∀ y ∈ later, appends y = true

theorem getElem?_withHeld (start : Text) (before : List α) (x : α) (after : List α) :
    (withHeld appends area start (before ++ x :: after))[before.length]? =
      some (held appends area (before.foldl (held appends area) start) x, x) := by
  induction before generalizing start with
  | nil => rfl
  | cons y before ih => exact ih (held appends area start y)

theorem carried_concat_iff (before : List α) (x : α) :
    Carried appends area (before ++ [x]) ↔
      appends x = true ∧ (HasArea (area x) ∨ Carried appends area before) := by
  constructor
  · rintro ⟨earlier, y, later, split, adds, left, after⟩
    rcases List.eq_nil_or_concat later with rfl | ⟨others, last, rfl⟩
    · obtain ⟨-, rfl⟩ : before = earlier ∧ x = y := by
        simpa using List.append_inj' split rfl
      exact ⟨adds, .inl left⟩
    · have regrouped : before ++ [x] = (earlier ++ y :: others) ++ [last] := by
        rw [split]
        simp
      obtain ⟨rfl, rfl⟩ : before = earlier ++ y :: others ∧ x = last := by
        simpa using List.append_inj' regrouped rfl
      exact ⟨after x (by simp), .inr ⟨earlier, y, others, rfl, adds, left,
        fun z here => after z (by simp [here])⟩⟩
  · rintro ⟨adds, left | ⟨earlier, y, later, rfl, adds', left, after⟩⟩
    · exact ⟨before, x, [], rfl, adds, left, by simp⟩
    · refine ⟨earlier, y, later ++ [x], by simp, adds', left, ?_⟩
      intro z here
      rcases List.mem_append.mp here with here | here
      · exact after z here
      · rw [List.mem_singleton.mp here]
        exact adds

theorem foldl_held_eq_nil_iff (before : List α) :
    before.foldl (held appends area) [] = [] ↔ ¬ Carried appends area before := by
  induction before using List.reverseRecOn with
  | nil =>
    refine ⟨fun _ => ?_, fun _ => rfl⟩
    rintro ⟨earlier, x, later, split, -⟩
    simp at split
  | append_singleton before x ih =>
    rw [List.foldl_append, List.foldl_cons, List.foldl_nil, carried_concat_iff, held]
    cases appends x with
    | false => simp
    | true => simp [ih, ← areaText_ne_nil_iff, and_comm]

/-- The text held at an entry is what the entry alone would hold exactly if the entry clears
it or nothing is carried. -/
theorem held_eq_alone_iff (before : List α) (x : α) :
    held appends area (before.foldl (held appends area) []) x = held appends area [] x ↔
      ¬ (appends x = true ∧ Carried appends area before) := by
  rw [held, held]
  cases appends x with
  | false => simp
  | true => simp [← foldl_held_eq_nil_iff]

end Held

/-! Numbered rows. -/

section Columns

variable {α : Type} (columns : Nat → α → List Text)

def columnsFrom : Nat → List α → List (List Text)
  | _, [] => []
  | seq, x :: xs => columns seq x :: columnsFrom (seq + 1) xs

theorem getElem?_columnsFrom (seq n : Nat) (xs : List α) :
    (columnsFrom columns seq xs)[n]? = xs[n]?.map (columns (seq + n)) := by
  induction xs generalizing seq n with
  | nil => rfl
  | cons x xs ih =>
    cases n with
    | zero => rfl
    | succ n =>
      rw [columnsFrom, List.getElem?_cons_succ, List.getElem?_cons_succ, ih, Nat.add_right_comm]
      rfl

theorem numberedRows_text (seq : Nat) (xs : List α) :
    (numberedRows (fun seq x => tsvRow (columns seq x)) seq xs).map NumberedRow.text =
      (columnsFrom columns seq xs).map tsvRow := by
  induction xs generalizing seq with
  | nil => rfl
  | cons x xs ih => rw [numberedRows, List.map_cons, ih, columnsFrom, List.map_cons]

end Columns

/-- The columns other than the sequence number. -/
def apartFromSeq (columns : List Text) : List Text := columns.eraseIdx 1

/-- If the held text is one of the columns and the others come from the entry itself, a row is
that of its entry alone exactly if nothing is carried into it. -/
theorem row_alone_iff {α : Type} (appends : α → Bool) (area : α → Vector UInt8 9)
    (columns : Nat → Text → α → List Text)
    (own : ∀ seq seq' text text' x, apartFromSeq (columns seq text x) =
      apartFromSeq (columns seq' text' x) ↔ text = text')
    (seq : Nat) (before : List α) (x : α) (after : List α) :
    (columnsFrom (fun seq entry => columns seq entry.1 entry.2) seq
        (withHeld appends area [] (before ++ x :: after)))[before.length]?.map apartFromSeq =
      (columnsFrom (fun seq entry => columns seq entry.1 entry.2) seq
        (withHeld appends area [] [x])).head?.map apartFromSeq ↔
      ¬ (appends x = true ∧ Carried appends area before) := by
  rw [getElem?_columnsFrom, getElem?_withHeld, ← held_eq_alone_iff, ← own]
  exact Option.some_inj

/-! Nodes. -/

/-- The rows of `update_LsNode`. -/
def lsNodeRows (env : PrintEnv) (routerIp : Text) (peer : KafkaPeer) (attr : KafkaAttr)
    (code : UnicastPrefixActionCode) (seq : Nat) (nodes : List ObjLsNode) : List (List Text) :=
  columnsFrom (fun seq entry => lsNodeColumns env routerIp peer attr code seq entry.1 entry.2) seq
    (withIsisAreas [] nodes)

theorem lsNode_texts (md5 : Md5) (env : PrintEnv) (bus : BatchBus) (peer : KafkaPeer)
    (attr : KafkaAttr) (nodes : List ObjLsNode) (code : UnicastPrefixActionCode) :
    (bus.step md5 env (.lsNode peer attr nodes code)).2.map Batch.texts =
      some ((lsNodeRows env bus.routerIp peer attr code bus.lsNodeSeq nodes).map tsvRow) := by
  rw [lsNodeRows, ← numberedRows_text]
  rfl

theorem withIsisAreas_eq (before : Text) (nodes : List ObjLsNode) :
    withIsisAreas before nodes =
      withHeld (fun node => !node.isOspf) ObjLsNode.isisAreaId before nodes := by
  induction nodes generalizing before with
  | nil => rfl
  | cons node nodes ih =>
    have same : node.isisText before =
        held (fun node => !node.isOspf) ObjLsNode.isisAreaId before node := by
      rw [ObjLsNode.isisText, held]
      cases node.isOspf <;> rfl
    rw [withIsisAreas, withHeld, ih, same]

/-! Links. -/

/-- `obj_ls_link` without its own hash, which is written over. The BGP router IDs are in
network byte order. -/
structure ObjLsLink where
  id : Nat
  mtId : Nat
  bgpLsId : Nat
  igpRouterId : Vector UInt8 8
  remoteIgpRouterId : Vector UInt8 8
  ospfAreaId : Vector UInt8 4
  routerId : Vector UInt8 16
  remoteRouterId : Vector UInt8 16
  localNodeAsn : Nat
  remoteNodeAsn : Nat
  localBgpRouterId : Vector UInt8 4
  remoteBgpRouterId : Vector UInt8 4
  isisAreaId : Vector UInt8 9
  protocol : Text
  intfAddr : Vector UInt8 16
  neiAddr : Vector UInt8 16
  localLinkId : Nat
  remoteLinkId : Nat
  isIPv4 : Bool
  localNodeHashId : HashId
  remoteNodeHashId : HashId
  adminGroup : Nat
  maxLinkBw : Nat
  maxResvBw : Nat
  unreservedBw : Text
  teDefMetric : Nat
  protectionType : Text
  mplsProtoMask : Text
  igpMetric : Nat
  srlg : Text
  name : Text
  peerNodeSid : Text
  peerAdjSid : Text

/-- The three branches on `protocol`. -/
inductive LinkProtocol
  | ospf | isis | other
  deriving DecidableEq

def ObjLsLink.branch (link : ObjLsLink) : LinkProtocol :=
  if link.protocol = "OSPFv3".toList ∨ link.protocol = "OSPFv2".toList then .ospf
  else if link.protocol = "IS-IS_L1".toList ∨ link.protocol = "IS-IS_L2".toList then .isis
  else .other

def linkHashInput (pHashStr : Text) (link : ObjLsLink) : List UInt8 :=
  link.intfAddr.toList ++ (link.neiAddr.toList ++ (leBytes 8 link.id ++
    (link.localNodeHashId.toList ++ (link.remoteNodeHashId.toList ++ (wordBytes link.localLinkId ++
      (wordBytes link.remoteLinkId ++ (textBytes pHashStr ++ wordBytes link.mtId)))))))

/-- The local or the remote router: an OSPF router with its designated router, four groups of
two octets, or nothing. -/
def ObjLsLink.igpText (link : ObjLsLink) (igpRouterId : Vector UInt8 8) : Text :=
  let id := igpRouterId.toList
  match link.branch with
  | .ospf =>
    inetNtop4 (id.take 4) ++
      if id.getD 4 0 ≠ 0 then '[' :: (inetNtop4 (id.drop 4) ++ [']']) else []
  | .isis =>
    List.intercalate ['.']
      ((List.range 4).map fun i => upperByte (id.getD (2 * i) 0) ++ upperByte (id.getD (2 * i + 1) 0))
  | .other => []

def ObjLsLink.ospfText (link : ObjLsLink) : Text :=
  match link.branch with
  | .ospf => inetNtop4 link.ospfAreaId.toList
  | .isis | .other => []

/-- `isis_area_id` after a link: the areas of IS-IS links add up until another link comes. -/
def ObjLsLink.isisText (before : Text) (link : ObjLsLink) : Text :=
  match link.branch with
  | .ospf | .other => []
  | .isis => before ++ areaText link.isisAreaId

def ObjLsLink.routerText (link : ObjLsLink) (routerId : Vector UInt8 16)
    (bgpRouterId : Vector UInt8 4) : Text :=
  match link.branch with
  | .ospf | .isis => inetNtop link.isIPv4 routerId.toList
  | .other => inetNtop4 bgpRouterId.toList

def lsLinkColumns (md5 : Md5) (routerIp : Text) (peer : KafkaPeer) (attr : KafkaAttr)
    (code : UnicastPrefixActionCode) (seq : Nat) (isisArea : Text) (link : ObjLsLink) :
    List Text :=
  [actionText code, decimal seq, hashToStr (md5 (linkHashInput (hashToStr peer.hashId) link)),
    hashToStr attr.hashId, hashToStr peer.routerHashId, routerIp, hashToStr peer.hashId,
    peer.peer.peerAddr, decimal peer.peer.peerAs, peer.timestamp, link.igpText link.igpRouterId,
    link.routerText link.routerId link.localBgpRouterId, hex link.id, hex link.bgpLsId,
    link.ospfText, isisArea, link.protocol, attr.attr.asPath, decimal attr.attr.localPref.toNat,
    decimal attr.attr.med.toNat, attr.attr.nextHop, hex link.mtId, decimal link.localLinkId,
    decimal link.remoteLinkId, inetNtop link.isIPv4 link.intfAddr.toList,
    inetNtop link.isIPv4 link.neiAddr.toList, decimal link.igpMetric, decimal link.adminGroup,
    decimal link.maxLinkBw, decimal link.maxResvBw, link.unreservedBw, decimal link.teDefMetric,
    link.protectionType, link.mplsProtoMask, link.srlg, link.name,
    hashToStr link.remoteNodeHashId, hashToStr link.localNodeHashId,
    link.igpText link.remoteIgpRouterId,
    link.routerText link.remoteRouterId link.remoteBgpRouterId, decimal link.localNodeAsn,
    decimal link.remoteNodeAsn, link.peerNodeSid, bit peer.peer.isPrePolicy,
    bit peer.peer.isAdjIn, link.peerAdjSid]

/-- The links of a call, each with the text that `isis_area_id` holds when it is printed. -/
def withLinkAreas : Text → List ObjLsLink → List (Text × ObjLsLink)
  | _, [] => []
  | before, link :: links =>
    (link.isisText before, link) :: withLinkAreas (link.isisText before) links

/-- The rows of `update_LsLink`. -/
def lsLinkRows (md5 : Md5) (routerIp : Text) (peer : KafkaPeer) (attr : KafkaAttr)
    (code : UnicastPrefixActionCode) (seq : Nat) (links : List ObjLsLink) : List (List Text) :=
  columnsFrom (fun seq entry => lsLinkColumns md5 routerIp peer attr code seq entry.1 entry.2) seq
    (withLinkAreas [] links)

theorem withLinkAreas_eq (before : Text) (links : List ObjLsLink) :
    withLinkAreas before links =
      withHeld (fun link => link.branch = .isis) ObjLsLink.isisAreaId before links := by
  induction links generalizing before with
  | nil => rfl
  | cons link links ih =>
    have same : link.isisText before =
        held (fun link => link.branch = .isis) ObjLsLink.isisAreaId before link := by
      rw [ObjLsLink.isisText, held]
      cases link.branch <;> rfl
    rw [withLinkAreas, withHeld, ih, same]

/-! Rows and entries. -/

/-- A row is, apart from its number, that of its entry alone, unless the entry appends to the
area and an earlier one has left its own there: a node appends if it is not an OSPF node, and
only OSPF nodes clear; a link appends if it is an IS-IS link, and every other link clears. -/
theorem ls_rows_alone_iff (md5 : Md5) (env : PrintEnv) (routerIp : Text) (peer : KafkaPeer)
    (attr : KafkaAttr) (code : UnicastPrefixActionCode) (seq : Nat) :
    (∀ before node after,
      (lsNodeRows env routerIp peer attr code seq
          (before ++ node :: after))[before.length]?.map apartFromSeq =
        (lsNodeRows env routerIp peer attr code seq [node]).head?.map apartFromSeq ↔
      ¬ (node.isOspf = false ∧
        Carried (fun node => !node.isOspf) ObjLsNode.isisAreaId before)) ∧
    ∀ before link after,
      (lsLinkRows md5 routerIp peer attr code seq
          (before ++ link :: after))[before.length]?.map apartFromSeq =
        (lsLinkRows md5 routerIp peer attr code seq [link]).head?.map apartFromSeq ↔
      ¬ (link.branch = .isis ∧
        Carried (fun link => link.branch = .isis) ObjLsLink.isisAreaId before) := by
  constructor
  · intro before node after
    rw [lsNodeRows, lsNodeRows, withIsisAreas_eq, withIsisAreas_eq,
      row_alone_iff _ _ (lsNodeColumns env routerIp peer attr code) ?_ seq before node after]
    · simp
    · intro seq seq' text text' node
      simp [apartFromSeq, lsNodeColumns]
  · intro before link after
    rw [lsLinkRows, lsLinkRows, withLinkAreas_eq, withLinkAreas_eq,
      row_alone_iff _ _ (lsLinkColumns md5 routerIp peer attr code) ?_ seq before link after]
    · simp
    · intro seq seq' text text' link
      simp [apartFromSeq, lsLinkColumns]

/-- An IS-IS node of area 49.0001. -/
def isisNode : ObjLsNode where
  hashId := HashId.zero
  id := 0
  isIPv4 := true
  bgpLsId := 0
  igpRouterId := Vector.replicate 8 0
  ospfAreaId := Vector.replicate 4 0
  protocol := "IS-IS_L2".toList
  routerId := Vector.replicate 16 0
  isisAreaId := #v[0x49, 0, 1, 0, 0, 0, 0, 0, 3]
  flags := []
  name := []
  mtId := []
  srCapabilitiesTlv := []

def quietEnv : PrintEnv := ⟨fun _ => [], fun _ _ => [], []⟩

def quietPeer : KafkaPeer := ⟨ObjBgpPeer.zero, HashId.zero, HashId.zero, []⟩

def quietAttr : KafkaAttr :=
  ⟨⟨[], [], 0, 0, true, [], [], false, 0, 0, [], [], [], [], []⟩, HashId.zero⟩

/-- Of two such nodes in one call the second row has the area twice. -/
theorem second_node_repeats_area :
    let rows := lsNodeRows quietEnv [] quietPeer quietAttr .add 7 [isisNode, isisNode]
    let alone := lsNodeRows quietEnv [] quietPeer quietAttr .add 7 [isisNode]
    rows.map (fun columns => columns.getD 16 []) = ["49.0001".toList, "49.000149.0001".toList] ∧
      rows[1]?.map apartFromSeq ≠ alone.head?.map apartFromSeq := by
  decide +kernel

end SonicBmp.Bus.LsRows
