/- module: SonicBmp/Bus/KafkaText
   digest: The columns of the router, peer, EVPN and link-state node records. -/

import SonicBmp.Bus.InfoText

set_option autoImplicit false
set_option relaxedAutoImplicit false

namespace SonicBmp.Bus.KafkaText

open SonicBmp.Library.Printing
open SonicBmp.Bgp.Common (EvpnTuple inetNtop inetNtop4)
open SonicBmp.Bus.Interface
open SonicBmp.Bus.Kafka
open SonicBmp.Bus.InfoText

/-- What the printers ask of their surroundings: names from DNS, printed times, and the
stack behind the buffer that table names are copied from. -/
structure PrintEnv where
  hostname : Text → Text
  timestamp : Nat → Nat → Text
  beyond : List UInt8

/-! Router records. -/

/-- Line feeds become a backslash and an `n`, tabs become blanks. -/
def escaped (text : Text) : Text :=
  text.flatMap fun c => if c = '\n' then ['\\', 'n'] else if c = '\t' then [' '] else [c]

def routerAction : RouterActionCode → Text
  | .first => "first".toList
  | .init => "init".toList
  | .term => "term".toList

/-- A router without a name gets the one DNS has for it. -/
def routerName (env : PrintEnv) (router : ObjRouter) : Text :=
  if router.name = [] then snprintf 254 (env.hostname router.ipAddr) else router.name

def routerColumns (env : PrintEnv) (code : RouterActionCode) (seq : Nat) (router : ObjRouter) :
    List Text :=
  [routerAction code, decimal seq, routerName env router, hashToStr router.hashId, router.ipAddr,
    escaped router.descr, decimal router.termReasonCode, router.termReasonText,
    escaped router.initiateData, escaped router.termData,
    env.timestamp router.timestampSecs router.timestampUs, router.bgpId]

/-! Peer records. -/

def peerAction : PeerActionCode → Text
  | .first => "first".toList
  | .up => "up".toList
  | .down => "down".toList

/-- The fourteen columns of the event; `info_data` is empty. -/
def eventColumns : Option ObjPeerUpEvent → Option ObjPeerDownEvent → PeerActionCode → List Text
  | some up, _, .up =>
    [decimal up.remotePort, decimal up.localAsn, up.localIp, decimal up.localPort,
      up.localBgpId, [], up.sentCap, up.recvCap, decimal up.remoteHoldTime,
      decimal up.localHoldTime] ++ List.replicate 4 []
  | _, some down, .down =>
    List.replicate 10 [] ++
      [decimal down.bmpReason, decimal down.bgpErrCode, decimal down.bgpErrSubcode,
        down.errorText]
  | _, _, _ => List.replicate 14 []

def peerColumns (env : PrintEnv) (routerIp : Text) (code : PeerActionCode) (seq : Nat)
    (hash : Text) (peer : KafkaPeer) (up : Option ObjPeerUpEvent)
    (down : Option ObjPeerDownEvent) : List Text :=
  [peerAction code, decimal seq, hash, hashToStr peer.routerHashId,
      env.hostname peer.peer.peerAddr, peer.peer.peerBgpId, routerIp, peer.timestamp,
      decimal peer.peer.peerAs, peer.peer.peerAddr, peer.peer.peerRd] ++
    eventColumns up down code ++
    [bit peer.peer.isL3VPN, bit peer.peer.isPrePolicy, bit peer.peer.isIPv4,
      bit peer.peer.isLocRib, bit peer.peer.isLocRibFiltered,
      if code = .down then [] else tableName env.beyond peer.peer]

/-! EVPN records. -/

def evpnHashInput (pHashStr : Text) (evpn : EvpnTuple) : List UInt8 :=
  textBytes pHashStr ++ (textBytes evpn.mac ++ (textBytes evpn.ip ++ (UInt8.ofNat evpn.ipLen ::
    (textBytes evpn.ethernetSegmentIdentifier ++ (textBytes evpn.rdAdministratorSubfield ++
      (textBytes evpn.rdAssignedNumber ++
        if 0 < evpn.pathId then wordBytes evpn.pathId else []))))))

/-- `%u` of an `int`. -/
def unsigned (n : Int) : Text := decimal (n % 2 ^ 32).toNat

/-- Unlike the other prefix records, a DEL shows the attribute hash as well. -/
def evpnColumns (md5 : Md5) (ctx : RowContext) (seq : Nat) (evpn : EvpnTuple) : List Text :=
  [actionText ctx.code, decimal seq,
      hashToStr (md5 (evpnHashInput (hashToStr ctx.peer.hashId) evpn)),
      hashToStr ctx.peer.routerHashId, ctx.routerIp,
      ctx.attr.elim [] (fun attr => hashToStr attr.hashId), hashToStr ctx.peer.hashId,
      ctx.peer.peer.peerAddr, decimal ctx.peer.peer.peerAs, ctx.peer.timestamp] ++
    attrColumns (ctx.printed.map KafkaAttr.attr) ++
    [decimal evpn.pathId, bit ctx.peer.peer.isPrePolicy, bit ctx.peer.peer.isAdjIn,
      evpn.rdAdministratorSubfield ++ ':' :: evpn.rdAssignedNumber, decimal evpn.rdType,
      decimal evpn.originatingRouterIpLen, evpn.originatingRouterIp, evpn.ethernetTagIdHex,
      evpn.ethernetSegmentIdentifier, decimal evpn.macLen, evpn.mac, decimal evpn.ipLen, evpn.ip,
      unsigned evpn.mplsLabel1, unsigned evpn.mplsLabel2]

/-! Link-state nodes. -/

/-- `obj_ls_node` without the AS number, which is not printed. -/
structure ObjLsNode where
  hashId : HashId
  id : Nat
  isIPv4 : Bool
  bgpLsId : Nat
  igpRouterId : Vector UInt8 8
  ospfAreaId : Vector UInt8 4
  protocol : Text
  routerId : Vector UInt8 16
  isisAreaId : Vector UInt8 9
  flags : Text
  name : Text
  mtId : Text
  srCapabilitiesTlv : Text

/-- `%02hhX`. -/
def upperByte (b : UInt8) : Text := (hexByte b).map Char.toUpper

def ObjLsNode.isOspf (node : ObjLsNode) : Bool :=
  node.protocol = "OSPFv3".toList || node.protocol = "OSPFv2".toList

/-- The router and, after it, the designated router, or four groups of two octets. -/
def ObjLsNode.igpText (node : ObjLsNode) : Text :=
  let id := node.igpRouterId.toList
  if node.isOspf then
    inetNtop4 (id.take 4) ++
      if id.getD 4 0 ≠ 0 then '[' :: (inetNtop4 (id.drop 4) ++ [']']) else []
  else
    List.intercalate ['.']
      ((List.range 4).map fun i => upperByte (id.getD (2 * i) 0) ++ upperByte (id.getD (2 * i + 1) 0))

def ObjLsNode.ospfText (node : ObjLsNode) : Text :=
  if node.isOspf then inetNtop4 node.ospfAreaId.toList else []

/-- The IS-IS area as it is appended, when its length octet is possible. -/
def ObjLsNode.isisArea (node : ObjLsNode) : Text :=
  let area := node.isisAreaId.toList
  let len := (area.getD 8 0).toNat
  if len ≤ 9 then
    ((area.take len).take 1).flatMap (fun b => upperByte b ++ ['.']) ++
      ((area.take len).drop 1).flatMap upperByte
  else []

/-- `isis_area_id` after a node: cleared for an OSPF node only, so that the areas of
IS-IS nodes add up. -/
def ObjLsNode.isisText (before : Text) (node : ObjLsNode) : Text :=
  if node.isOspf then [] else before ++ node.isisArea

def ObjLsNode.nameText (env : PrintEnv) (node : ObjLsNode) : Text :=
  if node.isOspf then strncpy 255 (env.hostname (inetNtop4 (node.igpRouterId.toList.take 4)))
  else node.name

def lsNodeColumns (env : PrintEnv) (routerIp : Text) (peer : KafkaPeer) (attr : KafkaAttr)
    (code : UnicastPrefixActionCode) (seq : Nat) (isisArea : Text) (node : ObjLsNode) :
    List Text :=
  [actionText code, decimal seq, hashToStr node.hashId, hashToStr attr.hashId,
    hashToStr peer.routerHashId, routerIp, hashToStr peer.hashId, peer.peer.peerAddr,
    decimal peer.peer.peerAs, peer.timestamp, node.igpText,
    inetNtop node.isIPv4 node.routerId.toList, hex node.id, hex node.bgpLsId, node.mtId,
    node.ospfText, isisArea, node.protocol, node.flags, attr.attr.asPath,
    decimal attr.attr.localPref.toNat, decimal attr.attr.med.toNat, attr.attr.nextHop,
    node.nameText env, bit peer.peer.isPrePolicy, bit peer.peer.isAdjIn, node.srCapabilitiesTlv]

end SonicBmp.Bus.KafkaText
