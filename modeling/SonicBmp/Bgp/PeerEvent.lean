/- module: SonicBmp/Bgp/PeerEvent
   digest: The BGP messages inside peer-up and peer-down events. -/

import Mathlib.Data.List.Infix
import SonicBmp.Bgp.OpenMsg
import SonicBmp.Bgp.Update
import SonicBmp.Bus.Interface

set_option autoImplicit false
set_option relaxedAutoImplicit false

namespace SonicBmp.Bgp.PeerEvent

open SonicBmp.Library.Printing
open SonicBmp.Library.Memory
open SonicBmp.Bgp.Common
open SonicBmp.Bgp.OpenMsg
open SonicBmp.Bgp.Update
open SonicBmp.Bus.Interface

def bgpMsgOpen : Nat := 1

def bgpMsgNotification : Nat := 3

def bracketed (text : String) (n : Nat) : Text :=
  text.toList ++ (" [".toList ++ (decimal n ++ "]".toList))

/-- `OPEN_SUBCODES` in printed form. -/
def openErrorText (subcode : Nat) : Text :=
  match subcode with
  | 1 => "Unsupported BGP version".toList
  | 2 => "Incorrect peer AS".toList
  | 3 => "Bad BGP ID".toList
  | 4 => "Unsupported optional parameter".toList
  | 6 => "Unacceptable hold time".toList
  | _ => bracketed "Open message error - unknown subcode" subcode

def updateErrorText (subcode : Nat) : Text :=
  match subcode with
  | 1 => "Malformed attribute list".toList
  | 2 => "Unrecognized well known attribute".toList
  | 3 => "Missing well known attribute".toList
  | 4 => "Update attribute flags error".toList
  | 5 => "Update attribute lenght error".toList
  | 6 => "Invalid next hop address/attribute".toList
  | 7 => "Update optional attribute error".toList
  | 8 => "Invalid network field".toList
  | 9 => "Malformed AS_PATH".toList
  | _ => bracketed "Update message error - unknown subcode" subcode

def ceaseText (subcode : Nat) : Text :=
  match subcode with
  | 1 | 8 => "Maximum number of prefixes reached".toList
  | 2 => "Administrative shutdown".toList
  | 3 => "Peer de-configured".toList
  | 4 => "Administratively reset".toList
  | 5 => "Connection rejected".toList
  | 6 => "Other configuration change".toList
  | 7 => "Connection collision resolution".toList
  | _ => bracketed "Unknown cease code, subcode" subcode

def notifyText (code subcode : Nat) : Text :=
  match code with
  | 1 => if subcode = 2 then "Bad message header length".toList
         else "Bad message header type".toList
  | 2 => openErrorText subcode
  | 3 => updateErrorText subcode
  | 4 => "Hold timer expired".toList
  | 5 => "FSM error".toList
  | 6 => ceaseText subcode
  | _ => bracketed "Unknown notification type" code

structure ParsedNotifyMsg where
  errorCode : Nat
  errorSubcode : Nat
  errorText : Text
  deriving DecidableEq

/-- `NotificationMsg::parseNotify`: only an empty message is an error, since the size is
incremented where the read count was meant. -/
def parseNotify (m : Mem) (data size : Nat) : Option ParsedNotifyMsg :=
  if 0 < size then some ⟨u8 m data, u8 m (data + 1), notifyText (u8 m data) (u8 m (data + 1))⟩
  else none

/-- `parseBGP::handleDownEvent`; the result is true on error. -/
def handleDownEvent (m : Mem) (data size : Nat) (downEvent : ObjPeerDownEvent) :
    Except Text (Bool × ObjPeerDownEvent) :=
  let header := parseBgpHeader m data size
  if header.1 = bgpMsgNotification then
    match parseNotify m (data + bgpMsgHdrLen) header.2 with
    | none => .ok (true, downEvent)
    | some parsed =>
      .ok (false, { downEvent with
        bgpErrCode := parsed.errorCode
        bgpErrSubcode := parsed.errorSubcode
        errorText := strncpy 255 parsed.errorText })
  else
    .error "ERROR: Invalid BGP MSG for BMP down event, expected NOTIFICATION message.".toList

def capString (capabilities : List Text) : Text := List.intercalate ", ".toList capabilities

def fourOctetAsn (capabilities : List Text) : Bool :=
  capabilities.any (fun text => decide ("4 Octet ASN".toList <:+: text))

/-- One of the two OPEN messages of an up event, with its length field. -/
def readOpen (stale : Int) (sentOpen : Bool) (m : Mem) (addPath : AddPathMap) (data size : Nat)
    (wrongType : Text) : Except Text (Nat × OpenResult) :=
  let header := parseBgpHeader m data size
  if header.1 = bgpMsgOpen then
    let result := parseOpenMsg stale sentOpen m addPath (data + bgpMsgHdrLen) header.2
    if result.readSize = 0 then .error "Failed to read open message".toList
    else .ok (u16 m (data + 16), result)
  else .error wrongType

/-- `parseBGP::handleUpEvent`: the sum of the two length fields, the up event and the
peer information. The second OPEN is read where the first one's parse stopped. -/
def handleUpEvent (stale : Int) (m : Mem) (data size : Nat) (upEvent : ObjPeerUpEvent)
    (info : PeerInfo) : Except Text (Nat × ObjPeerUpEvent × PeerInfo) := do
  let sent ← readOpen stale true m info.addPathCapability data size
    "ERROR: Invalid BGP MSG for BMP Sent OPEN message, expected OPEN message.".toList
  let received ← readOpen stale false m sent.2.state.addPath
    (data + bgpMsgHdrLen + sent.2.readSize) size
    "ERROR: Invalid BGP MSG for BMP Received OPEN message, expected OPEN message.".toList
  let upEvent := { upEvent with
    localAsn := sent.2.state.asn
    localHoldTime := sent.2.holdTime
    localBgpId := strncpy 16 sent.2.bgpId
    sentCap := strncpy 4096 (capString sent.2.state.capabilities)
    remoteAsn := received.2.state.asn
    remoteHoldTime := received.2.holdTime
    remoteBgpId := strncpy 16 received.2.bgpId
    recvCap := strncpy 4096 (capString received.2.state.capabilities) }
  let info := { info with
    sentFourOctetAsn := fourOctetAsn sent.2.state.capabilities
    recvFourOctetAsn := fourOctetAsn received.2.state.capabilities
    using2OctetAsn := false
    addPathCapability := received.2.state.addPath }
  return (sent.1 + received.1, upEvent, info)

end SonicBmp.Bgp.PeerEvent
