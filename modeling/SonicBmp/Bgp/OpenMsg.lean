/- module: SonicBmp/Bgp/OpenMsg
   digest: OPEN messages: the header, the capability loops and the texts they collect. -/

import SonicBmp.Bgp.Common
import SonicBmp.Library.Loop

set_option autoImplicit false
set_option relaxedAutoImplicit false

namespace SonicBmp.Bgp.OpenMsg

open SonicBmp.Library.Printing
open SonicBmp.Library.Memory
open SonicBmp.Library.Loop
open SonicBmp.Bgp.Common

def openBgpHdrLen : Nat := 10

def bgpCapParamType : Nat := 2

def afiString (code : Nat) : Text :=
  match code with
  | 1 => "IPv4".toList
  | 2 => "IPv6".toList
  | 16388 => "BGP-LS".toList
  | _ => "unknown".toList

/-- `bgp::GET_SAFI_STRING_BY_CODE`: the empty text for a code that is not listed. -/
def safiString (code : Nat) : Text :=
  match code with
  | 1 => "Unicast".toList
  | 2 => "Multicast".toList
  | 4 => "Labeled Unicast".toList
  | 5 => "MCAST VPN".toList
  | 65 => "VPLS".toList
  | 66 => "BGP MDT".toList
  | 67 => "BGP 4over6".toList
  | 68 => "BGP 6over4".toList
  | 70 => "BGP EVPNs".toList
  | 71 => "BGP-LS".toList
  | 128 => "MPLS-Labeled VPN".toList
  | 129 => "Multicast BGP/MPLS VPN".toList
  | 132 => "RT constrains".toList
  | _ => []

def sendReceiveString (code : Nat) : Text :=
  match code with
  | 1 => "Receive".toList
  | 2 => "Send".toList
  | 3 => "Send/Receive".toList
  | _ => "unknown".toList

/-- What the capability loops write: the ASN, the capability texts in order, and the
add-path table of the peer. -/
structure OpenState where
  asn : Nat
  capabilities : List Text
  addPath : AddPathMap

def OpenState.push (st : OpenState) (text : Text) : OpenState :=
  { st with capabilities := st.capabilities ++ [text] }

def familyText (afi safi : Nat) : Text :=
  "afi=".toList ++ (decimal afi ++ (" safi=".toList ++ decimal safi))

section

variable (stale : Int) (sentOpen : Bool) (m : Mem)

def addPathEntry (p : Nat) (st : OpenState) : OpenState :=
  let afi := u16 m p
  let safi := u8 m (p + 2)
  let sendReceive := u8 m (p + 3)
  let text := "ADD Path (69) : ".toList ++ (familyText afi safi ++
    (" send/receive=".toList ++ (decimal sendReceive ++ (" : ".toList ++ (safiString safi ++
      (" ".toList ++ (afiString afi ++ (" ".toList ++ sendReceiveString sendReceive))))))))
  { st.push text with addPath := addAddPath stale st.addPath afi safi sendReceive sentOpen }

/-- One capability at `capPtr`: the state and the pointer the next step advances from,
or `none` when the message is given up. ADD_PATH moves the pointer past its own header
and entries. -/
def capability (capPtr : Nat) (st : OpenState) : OpenState × Option Nat :=
  let len := u8 m (capPtr + 1)
  match u8 m capPtr with
  | 1 =>
    if len = 4 then
      let afi := u16 m (capPtr + 2)
      let safi := u8 m (capPtr + 5)
      (st.push ("MPBGP (1) : ".toList ++ (familyText afi safi ++ (" : ".toList ++
        (safiString safi ++ (" ".toList ++ afiString afi))))), some capPtr)
    else (st, none)
  | 2 => (st.push "Route Refresh (2)".toList, some capPtr)
  | 3 => (st.push "Outbound Filter (3)".toList, some capPtr)
  | 64 => (st.push "Graceful Restart (64)".toList, some capPtr)
  | 65 =>
    if len = 4 then
      ({ st.push "4 Octet ASN (65)".toList with asn := u32 m (capPtr + 2) }, some capPtr)
    else (st, some capPtr)
  | 68 => (st.push "Multi-session (68)".toList, some capPtr)
  | 69 =>
    if 4 ≤ len then
      (strideLoop 4 len (fun l st => addPathEntry stale sentOpen m (capPtr + 2 + l) st) 0 st,
        some (capPtr + 2 + 4 * ((len + 3) / 4)))
    else (st, some (capPtr + 2))
  | 70 => (st.push "Route Refresh Enhanced (70)".toList, some capPtr)
  | 128 => (st.push "Route Refresh Old (128)".toList, some capPtr)
  | code => (st.push (decimal code), some capPtr)

/-- The capabilities of one parameter: `c` counts their bytes, `capPtr` is where the next
one is read. The flag is false when the message is given up. -/
def capLoop (paramLen c capPtr : Nat) (st : OpenState) : Bool × OpenState :=
  if c < paramLen then
    let len := u8 m (capPtr + 1)
    match capability stale sentOpen m capPtr st with
    | (st, none) => (false, st)
    | (st, some capPtr) => capLoop paramLen (c + 2 + len) (capPtr + 2 + len) st
  else (true, st)
termination_by paramLen - c

/-- `OpenMsg::parseCapabilities` from parameter offset `i` on: the bytes read, zero when
the message is given up. -/
def parseCapabilities (data size i : Nat) (st : OpenState) : Nat × OpenState :=
  if i < size then
    let bufPtr := data + i
    let len := u8 m (bufPtr + 1)
    if u8 m bufPtr = bgpCapParamType ∧ 2 ≤ len ∧ i + 2 + len ≤ size then
      match capLoop stale sentOpen m len 0 (bufPtr + 2) st with
      | (false, st) => (0, st)
      | (true, st) => parseCapabilities data size (i + 2 + len) st
    else parseCapabilities data size (i + 2 + len) st
  else (i, st)
termination_by size - i

/-- What `OpenMsg::parseOpenMsg` returns: the bytes read, zero on error, and its output
parameters. -/
structure OpenResult where
  readSize : Nat
  holdTime : Nat
  bgpId : Text
  state : OpenState

/-- `OpenMsg::parseOpenMsg`. Truncated parameters are parsed as far as they go, and there
a message that is given up still counts as read. -/
def parseOpenMsg (addPath : AddPathMap) (data size : Nat) : OpenResult :=
  if size < openBgpHdrLen then ⟨0, 0, [], ⟨0, [], addPath⟩⟩
  else
    let holdTime := u16 m (data + 3)
    let bgpId := inetNtop4 (readBytes m (data + 5) 4)
    let paramLen := u8 m (data + 9)
    let st : OpenState := ⟨u16 m (data + 1), [], addPath⟩
    if paramLen = 0 then ⟨openBgpHdrLen, holdTime, bgpId, st⟩
    else if size - openBgpHdrLen < paramLen then
      let caps := parseCapabilities stale sentOpen m (data + openBgpHdrLen)
        (size - openBgpHdrLen) 0 st
      ⟨size, holdTime, bgpId, caps.2⟩
    else
      let caps := parseCapabilities stale sentOpen m (data + openBgpHdrLen) paramLen 0 st
      if caps.1 = 0 then ⟨0, holdTime, bgpId, caps.2⟩
      else ⟨openBgpHdrLen + paramLen, holdTime, bgpId, caps.2⟩

end

end SonicBmp.Bgp.OpenMsg
