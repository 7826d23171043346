/- module: SonicBmp/Bus/InfoText
   digest: The texts that information TLVs leave in the router object and in the table name of a peer. -/

import SonicBmp.Bus.Kafka
import SonicBmp.Library.Memory

set_option autoImplicit false
set_option relaxedAutoImplicit false

namespace SonicBmp.Bus.InfoText

open SonicBmp.Library.Memory
open SonicBmp.Library.Printing
open SonicBmp.Bgp.Common (inetNtop4)
open SonicBmp.Bus.Interface
open SonicBmp.Bus.Kafka

/-- What `%s` prints from address `p` on, at most `n` characters. -/
def cStringAt (m : Mem) : Nat → Nat → Text
  | 0, _ => []
  | n + 1, p => if m p = 0 then [] else Char.ofNat (m p).toNat :: cStringAt m n (p + 1)

/-- `strncpy` as it writes: up to a NUL, filled up with NULs. -/
def strncpyBytes (n : Nat) (src : List UInt8) : List UInt8 :=
  let text := (src.take n).takeWhile (· ≠ 0)
  text ++ List.replicate (n - text.length) 0

theorem length_strncpyBytes (n : Nat) (src : List UInt8) : (strncpyBytes n src).length = n := by
  have part : ((src.take n).takeWhile (· ≠ 0)).length ≤ n :=
    (List.takeWhile_prefix _).length_le.trans (List.length_take_le _ _)
  simp only [strncpyBytes, List.length_append, List.length_replicate]
  omega

/-- `sizeof(field) < (info.len - 1) ? sizeof(field) - 1 : info.len`, where an empty value
wraps around. A value one byte longer than the field is copied whole. -/
def copyLen (size len : Nat) : Nat := if len = 0 ∨ size + 1 < len then size - 1 else len

/-- `infoBuf`: the value, NULs up to the size of the buffer, and the stack behind it. For an
empty value there is only a null pointer; what would be read through it is taken as empty. -/
def infoBuf (size : Nat) (beyond : List UInt8) (tlv : InfoTlv) : List UInt8 :=
  tlv.info ++ (List.replicate (size - tlv.info.length) 0 ++ beyond)

/-! `obj_router` in memory. -/

def nameAt : Nat := 18
def descrAt : Nat := 273
def ipAddrAt : Nat := 528
def bgpIdAt : Nat := 574
def termReasonCodeAt : Nat := 596
def termReasonTextAt : Nat := 598
def termDataAt : Nat := 853
def initiateDataAt : Nat := 4949
def timestampSecsAt : Nat := 9048
def timestampUsAt : Nat := 9052
def routerSize : Nat := 9056

/-- A `uint32_t` in memory. -/
def wordAt (m : Mem) (p : Nat) : Nat :=
  (m p).toNat + 256 * ((m (p + 1)).toNat + 256 * ((m (p + 2)).toNat + 256 * (m (p + 3)).toNat))

/-- The object as the bus reads it; a text without a NUL runs on into the next member. -/
def readRouter (hashId : HashId) (m : Mem) : ObjRouter where
  hashId := hashId
  name := cStringAt m (routerSize - nameAt) nameAt
  descr := cStringAt m (routerSize - descrAt) descrAt
  ipAddr := cStringAt m (routerSize - ipAddrAt) ipAddrAt
  bgpId := cStringAt m (routerSize - bgpIdAt) bgpIdAt
  termReasonCode := (m termReasonCodeAt).toNat + 256 * (m (termReasonCodeAt + 1)).toNat
  termReasonText := cStringAt m (routerSize - termReasonTextAt) termReasonTextAt
  termData := cStringAt m (routerSize - termDataAt) termDataAt
  initiateData := cStringAt m (routerSize - initiateDataAt) initiateDataAt
  timestampSecs := wordAt m timestampSecsAt
  timestampUs := wordAt m timestampUsAt

/-- The object the reader sets up for a message. -/
def newRouter (ip : Text) : Mem := writeBytes (fun _ => 0) ipAddrAt (textBytes ip)

def putText (m : Mem) (p size : Nat) (text : Text) : Mem :=
  writeBytes m p (textBytes (snprintf size text) ++ [0])

/-- The switch of `parseBMP::handleInitMsg`. -/
def initField (beyond : List UInt8) (m : Mem) (tlv : InfoTlv) : Mem :=
  match tlv.type with
  | 0 => writeBytes m initiateDataAt ((infoBuf 4096 beyond tlv).take (copyLen 4096 tlv.len))
  | 1 => writeBytes m descrAt (strncpyBytes (copyLen 255 tlv.len) (infoBuf 4096 beyond tlv))
  | 2 => writeBytes m nameAt (strncpyBytes (copyLen 255 tlv.len) (infoBuf 4096 beyond tlv))
  | 65531 => if tlv.len = 4 then putText m bgpIdAt 16 (inetNtop4 tlv.info) else m
  | _ => m

def termReason (code : Nat) : Text :=
  match code with
  | 0 => "Remote session administratively closed".toList
  | 1 => "Remote closed with unspecified reason".toList
  | 2 => "Remote out of resources".toList
  | 3 => "Remote considers connection redundant".toList
  | _ => "Unknown ".toList ++ (decimal code ++
      " termination reason, which is not part of draft.".toList)

/-- The switch of `parseBMP::handleTermMsg`: free text is copied without a bound. -/
def termField (beyond : List UInt8) (m : Mem) (tlv : InfoTlv) : Mem :=
  match tlv.type with
  | 0 => writeBytes m termDataAt ((infoBuf 4096 beyond tlv).take tlv.len)
  | 1 =>
    let value := infoBuf 4096 beyond tlv
    let high := value.getD 0 0
    let low := value.getD 1 0
    putText (writeBytes m termReasonCodeAt [low, high]) termReasonTextAt 255
      (termReason (256 * high.toNat + low.toNat))
  | _ => m

def initRouter (hashId : HashId) (ip : Text) (beyond : List UInt8) (tlvs : List InfoTlv) :
    ObjRouter :=
  readRouter hashId (tlvs.foldl (initField beyond) (newRouter ip))

def termRouter (hashId : HashId) (ip : Text) (beyond : List UInt8) (tlvs : List InfoTlv) :
    ObjRouter :=
  readRouter hashId (tlvs.foldl (termField beyond) (newRouter ip))

/-! `table_name`, with `peer_rd` behind it. -/

def tableNameField (beyond : List UInt8) (m : Mem) (tlv : InfoTlv) : Mem :=
  if tlv.type = 3 then
    writeBytes m 0 ((infoBuf 255 beyond tlv).take (copyLen 255 tlv.len))
  else m

def tableName (beyond : List UInt8) (peer : ObjBgpPeer) : Text :=
  cStringAt (peer.info.foldl (tableNameField beyond)
    (writeBytes (fun _ => 0) 255 (textBytes peer.peerRd))) 287 0

end SonicBmp.Bus.InfoText
