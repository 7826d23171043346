/- module: SonicBmp/Bus/Interface
   digest: The objects of the message-bus interface and the calls made through it. -/

import SonicBmp.Bgp.Common

set_option autoImplicit false
set_option relaxedAutoImplicit false

namespace SonicBmp.Bus.Interface

open SonicBmp.Library.Printing (Text)

/-- `info_tlv_msg` and `term_msg_v3`: the header fields, the offset the header was
read at, and the bytes copied to `infoBuf`. -/
structure InfoTlv where
  offset : Nat
  type : Nat
  len : Nat
  info : List UInt8
  deriving DecidableEq

/-- `obj_bgp_peer` without the hashes; `info` lists the TLVs that `table_name` is
filled from. -/
structure ObjBgpPeer where
  peerRd : Text
  peerAddr : Text
  peerBgpId : Text
  peerAs : Nat
  isL3VPN : Bool
  isPrePolicy : Bool
  isAdjIn : Bool
  isLocRib : Bool
  isLocRibFiltered : Bool
  isIPv4 : Bool
  isTwoOctet : Bool
  timestampSecs : Nat
  timestampUs : Nat
  info : List InfoTlv
  deriving DecidableEq

def ObjBgpPeer.zero : ObjBgpPeer where
  peerRd := []
  peerAddr := []
  peerBgpId := []
  peerAs := 0
  isL3VPN := false
  isPrePolicy := false
  isAdjIn := false
  isLocRib := false
  isLocRibFiltered := false
  isIPv4 := false
  isTwoOctet := false
  timestampSecs := 0
  timestampUs := 0
  info := []

structure ObjPeerDownEvent where
  bmpReason : Nat
  bgpErrCode : Nat
  bgpErrSubcode : Nat
  errorText : Text
  deriving DecidableEq

/-- `obj_peer_up_event` without `info_data`, which nothing writes. -/
structure ObjPeerUpEvent where
  localIp : Text
  localPort : Nat
  localAsn : Nat
  localHoldTime : Nat
  localBgpId : Text
  remoteAsn : Nat
  remotePort : Nat
  remoteHoldTime : Nat
  remoteBgpId : Text
  sentCap : Text
  recvCap : Text
  deriving DecidableEq

def ObjPeerUpEvent.zero : ObjPeerUpEvent := ⟨[], 0, 0, 0, [], 0, 0, 0, [], [], []⟩

/-- `obj_path_attr` without the hash; the character arrays are read up to their
first NUL. -/
structure ObjPathAttr where
  origin : Text
  asPath : Text
  asPathCount : UInt16
  originAs : UInt32
  nexthopIsIPv4 : Bool
  nextHop : Text
  aggregator : Text
  atomicAgg : Bool
  med : UInt32
  localPref : UInt32
  communityList : Text
  extCommunityList : Text
  largeCommunityList : Text
  clusterList : Text
  originatorId : Text
  deriving DecidableEq

/-- `obj_rib` without the hashes and the broadcast address. -/
structure ObjRib where
  isIPv4 : Bool
  prefixText : Text
  prefixLen : Nat
  prefixBin : List UInt8
  pathId : Nat
  labels : Text
  deriving DecidableEq

structure ObjStatsReport where
  prefixesRej : Nat
  knownDupPrefixes : Nat
  knownDupWithdraws : Nat
  invalidClusterList : Nat
  invalidAsPathLoop : Nat
  invalidOriginatorId : Nat
  invalidAsConfedLoop : Nat
  routesAdjRibIn : Nat
  routesLocRib : Nat
  deriving DecidableEq

def ObjStatsReport.zero : ObjStatsReport := ⟨0, 0, 0, 0, 0, 0, 0, 0, 0⟩

inductive RouterActionCode
  | first | init | term
  deriving DecidableEq

inductive PeerActionCode
  | first | up | down
  deriving DecidableEq

inductive UnicastPrefixActionCode
  | add | del
  deriving DecidableEq

/-- A call on `MsgBusInterface`. A router object is represented by the TLVs that
fill it. -/
inductive BusCall
  | updateRouter (info : List InfoTlv) (code : RouterActionCode)
  | updatePeer (peer : ObjBgpPeer) (up : Option ObjPeerUpEvent) (down : Option ObjPeerDownEvent)
      (code : PeerActionCode)
  | updateUnicastPrefix (peer : ObjBgpPeer) (rib : List ObjRib) (attr : Option ObjPathAttr)
      (code : UnicastPrefixActionCode)
  | addStatReport (peer : ObjBgpPeer) (stats : ObjStatsReport)
  | sendBmpRaw (peer : ObjBgpPeer) (data : List UInt8)
  deriving DecidableEq

def BusCall.raw? : BusCall → Option (List UInt8)
  | .sendBmpRaw _ data => some data
  | _ => none

end SonicBmp.Bus.Interface
