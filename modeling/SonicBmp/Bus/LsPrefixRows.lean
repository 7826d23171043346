/- module: SonicBmp/Bus/LsPrefixRows
   digest: The rows of link-state prefixes, and the bus that prints the three kinds of link-state rows. -/

import SonicBmp.Bus.LsRows

set_option autoImplicit false
set_option relaxedAutoImplicit false

namespace SonicBmp.Bus.LsPrefixRows

open SonicBmp.Library.Printing
open SonicBmp.Library.Memory (leBytes)
open SonicBmp.Bgp.Common (inetNtop inetNtop4)
open SonicBmp.Bus.Interface
open SonicBmp.Bus.Kafka
open SonicBmp.Bus.InfoText (strncpyBytes)
open SonicBmp.Bus.KafkaText
open SonicBmp.Bus.LsRows

/-! Prefixes. -/

/-- `obj_ls_prefix` without its own hash, which is written over, and without the addresses
that are not printed. -/
structure ObjLsPrefix where
  id : Nat
  protocol : Text
  bgpLsId : Nat
  igpRouterId : Vector UInt8 8
  ospfAreaId : Vector UInt8 4
  routerId : Vector UInt8 16
  isisAreaId : Vector UInt8 9
  localNodeHashId : HashId
  mtId : Nat
  metric : Nat
  isIPv4 : Bool
  prefixLen : Nat
  ospfRouteType : Text
  prefixBin : Vector UInt8 16
  igpFlags : Text
  routeTag : Nat
  extRouteTag : Nat
  ospfFwdAddr : Vector UInt8 16
  sidTlv : Text

/-- The octets hashed for a prefix. The route type is hashed with all 32 octets of its array.
Nothing of the peer is among them. -/
def prefixHashInput (entry : ObjLsPrefix) : List UInt8 :=
  entry.prefixBin.toList ++ (UInt8.ofNat entry.prefixLen :: (leBytes 8 entry.id ++
    (entry.localNodeHashId.toList ++ (strncpyBytes 32 (textBytes entry.ospfRouteType) ++
      wordBytes entry.mtId))))

def ObjLsPrefix.isOspf (entry : ObjLsPrefix) : Bool :=
  entry.protocol = "OSPFv3".toList || entry.protocol = "OSPFv2".toList

def ObjLsPrefix.igpText (entry : ObjLsPrefix) : Text :=
  let id := entry.igpRouterId.toList
  if entry.isOspf then
    inetNtop4 (id.take 4) ++
      if id.getD 4 0 ≠ 0 then '[' :: (inetNtop4 (id.drop 4) ++ [']']) else []
  else
    List.intercalate ['.']
      ((List.range 4).map fun i => upperByte (id.getD (2 * i) 0) ++ upperByte (id.getD (2 * i + 1) 0))

def ObjLsPrefix.ospfText (entry : ObjLsPrefix) : Text :=
  if entry.isOspf then inetNtop4 entry.ospfAreaId.toList else []

/-- `isis_area_id` after a prefix: cleared for an OSPF prefix only. -/
def ObjLsPrefix.isisText (before : Text) (entry : ObjLsPrefix) : Text :=
  if entry.isOspf then [] else before ++ areaText entry.isisAreaId

def lsPrefixColumns (md5 : Md5) (routerIp : Text) (peer : KafkaPeer) (attr : KafkaAttr)
    (code : UnicastPrefixActionCode) (seq : Nat) (isisArea : Text) (entry : ObjLsPrefix) :
    List Text :=
  [actionText code, decimal seq, hashToStr (md5 (prefixHashInput entry)), hashToStr attr.hashId,
    hashToStr peer.routerHashId, routerIp, hashToStr peer.hashId, peer.peer.peerAddr,
    decimal peer.peer.peerAs, peer.timestamp, entry.igpText,
    inetNtop entry.isIPv4 entry.routerId.toList, hex entry.id, hex entry.bgpLsId, entry.ospfText,
    isisArea, entry.protocol, attr.attr.asPath, decimal attr.attr.localPref.toNat,
    decimal attr.attr.med.toNat, attr.attr.nextHop, hashToStr entry.localNodeHashId,
    hex entry.mtId, entry.ospfRouteType, entry.igpFlags, decimal entry.routeTag,
    hex entry.extRouteTag, inetNtop entry.isIPv4 entry.ospfFwdAddr.toList, decimal entry.metric,
    inetNtop entry.isIPv4 entry.prefixBin.toList, decimal entry.prefixLen,
    bit peer.peer.isPrePolicy, bit peer.peer.isAdjIn, entry.sidTlv]

/-- The prefixes of a call, each with the text that `isis_area_id` holds when it is printed. -/
def withPrefixAreas : Text → List ObjLsPrefix → List (Text × ObjLsPrefix)
  | _, [] => []
  | before, entry :: entries =>
    (entry.isisText before, entry) :: withPrefixAreas (entry.isisText before) entries

/-- The rows of `update_LsPrefix`. -/
def lsPrefixRows (md5 : Md5) (routerIp : Text) (peer : KafkaPeer) (attr : KafkaAttr)
    (code : UnicastPrefixActionCode) (seq : Nat) (entries : List ObjLsPrefix) : List (List Text) :=
  columnsFrom (fun seq entry => lsPrefixColumns md5 routerIp peer attr code seq entry.1 entry.2) seq
    (withPrefixAreas [] entries)

theorem withPrefixAreas_eq (before : Text) (entries : List ObjLsPrefix) :
    withPrefixAreas before entries =
      withHeld (fun entry => !entry.isOspf) ObjLsPrefix.isisAreaId before entries := by
  induction entries generalizing before with
  | nil => rfl
  | cons entry entries ih =>
    have same : entry.isisText before =
        held (fun entry => !entry.isOspf) ObjLsPrefix.isisAreaId before entry := by
      rw [ObjLsPrefix.isisText, held]
      cases entry.isOspf <;> rfl
    rw [withPrefixAreas, withHeld, ih, same]

/-! Columns that come from the entry alone. -/

section Own

variable {α : Type}

/-- A column that depends neither on the number nor on the area is read off the entries. -/
theorem map_columnsFrom_withHeld {β : Type} (appends : α → Bool) (area : α → Vector UInt8 9)
    (columns : Nat → Text → α → List Text) (column : List Text → β) (own : α → β)
    (reads : ∀ seq text x, column (columns seq text x) = own x) (seq : Nat) (before : Text)
    (xs : List α) :
    (columnsFrom (fun seq entry => columns seq entry.1 entry.2) seq
      (withHeld appends area before xs)).map column = xs.map own := by
  induction xs generalizing seq before with
  | nil => rfl
  | cons x xs ih => rw [withHeld, columnsFrom, List.map_cons, ih, reads, List.map_cons]

variable {β : Type} (md5 : Md5) (env : PrintEnv) (routerIp : Text) (peer : KafkaPeer)
  (attr : KafkaAttr) (code : UnicastPrefixActionCode) (seq : Nat) (column : List Text → β)

theorem map_lsNodeRows (own : ObjLsNode → β) (nodes : List ObjLsNode)
    (reads : ∀ seq text node,
      column (lsNodeColumns env routerIp peer attr code seq text node) = own node) :
    (lsNodeRows env routerIp peer attr code seq nodes).map column = nodes.map own := by
  rw [lsNodeRows, withIsisAreas_eq]
  exact map_columnsFrom_withHeld _ _ _ column own reads seq [] nodes

theorem map_lsLinkRows (own : ObjLsLink → β) (links : List ObjLsLink)
    (reads : ∀ seq text link,
      column (lsLinkColumns md5 routerIp peer attr code seq text link) = own link) :
    (lsLinkRows md5 routerIp peer attr code seq links).map column = links.map own := by
  rw [lsLinkRows, withLinkAreas_eq]
  exact map_columnsFrom_withHeld _ _ _ column own reads seq [] links

theorem map_lsPrefixRows (own : ObjLsPrefix → β) (entries : List ObjLsPrefix)
    (reads : ∀ seq text entry,
      column (lsPrefixColumns md5 routerIp peer attr code seq text entry) = own entry) :
    (lsPrefixRows md5 routerIp peer attr code seq entries).map column = entries.map own := by
  rw [lsPrefixRows, withPrefixAreas_eq]
  exact map_columnsFrom_withHeld _ _ _ column own reads seq [] entries

end Own

/-! The bus, as far as link-state rows depend on it. -/

structure LsBus where
  routerIp : Text
  lsNodeSeq : Nat
  lsLinkSeq : Nat
  lsPrefixSeq : Nat

/-- A call of `update_LsNode`, `update_LsLink` or `update_LsPrefix`. -/
inductive LsCall
  | node (nodes : List ObjLsNode) (code : UnicastPrefixActionCode)
  | link (links : List ObjLsLink) (code : UnicastPrefixActionCode)
  | pfx (entries : List ObjLsPrefix) (code : UnicastPrefixActionCode)

/-- How many entries a call brings. -/
def LsCall.size : LsCall → Nat
  | .node nodes _ => nodes.length
  | .link links _ => links.length
  | .pfx entries _ => entries.length

structure LsRecord where
  object : LsObject
  code : UnicastPrefixActionCode
  rows : List (List Text)

section Bus

variable (md5 : Md5) (env : PrintEnv) (peer : KafkaPeer) (attr : KafkaAttr)

def LsBus.step (bus : LsBus) : LsCall → LsBus × LsRecord
  | .node nodes code =>
    ({ bus with lsNodeSeq := bus.lsNodeSeq + nodes.length },
      ⟨.node, code, lsNodeRows env bus.routerIp peer attr code bus.lsNodeSeq nodes⟩)
  | .link links code =>
    ({ bus with lsLinkSeq := bus.lsLinkSeq + links.length },
      ⟨.link, code, lsLinkRows md5 bus.routerIp peer attr code bus.lsLinkSeq links⟩)
  | .pfx entries code =>
    ({ bus with lsPrefixSeq := bus.lsPrefixSeq + entries.length },
      ⟨.pfx, code, lsPrefixRows md5 bus.routerIp peer attr code bus.lsPrefixSeq entries⟩)

def LsBus.run : LsBus → List LsCall → LsBus × List LsRecord
  | bus, [] => (bus, [])
  | bus, call :: calls =>
    let now := bus.step md5 env peer attr call
    let later := LsBus.run now.1 calls
    (later.1, now.2 :: later.2)

end Bus

end SonicBmp.Bus.LsPrefixRows
