/- module: SonicBmp/Bgp/Common
   digest: Data model of the UPDATE parser: printed addresses, tuples, peer state, parsed data. -/

import SonicBmp.Library.Memory
import SonicBmp.Library.Printing
import Mathlib.Logic.Function.Basic

set_option autoImplicit false
set_option relaxedAutoImplicit false

namespace SonicBmp.Bgp.Common

open SonicBmp.Library.Memory (Mem)
open SonicBmp.Library.Printing (Text decimal hex decimal_isAlphanum hex_isAlphanum)

def bgpMsgHdrLen : Nat := 19

def bgpMaxMsgSize : Nat := 65535

/-- `inet_ntop(AF_INET, ...)`: the dotted quad of the first four bytes. -/
def inetNtop4 (src : List UInt8) : Text :=
  decimal (src.getD 0 0).toNat ++ '.' :: (decimal (src.getD 1 0).toNat ++
    '.' :: (decimal (src.getD 2 0).toNat ++ '.' :: decimal (src.getD 3 0).toNat))

structure ZeroRun where
  base : Nat
  len : Nat
  deriving DecidableEq

def betterRun (best cur : Option ZeroRun) : Option ZeroRun :=
  match best, cur with
  | best, none => best
  | none, some c => some c
  | some b, some c => if b.len < c.len then some c else some b

def scanZeroRuns : Nat → Option ZeroRun → Option ZeroRun → List Nat → Option ZeroRun
  | _, best, cur, [] => betterRun best cur
  | i, best, cur, w :: ws =>
    if w = 0 then
      scanZeroRuns (i + 1) best
        (some (match cur with | none => ⟨i, 1⟩ | some c => ⟨c.base, c.len + 1⟩)) ws
    else scanZeroRuns (i + 1) (betterRun best cur) none ws

/-- Only a run of two or more words is abbreviated. -/
def bestZeroRun (words : List Nat) : Option ZeroRun :=
  (scanZeroRuns 0 none none words).filter (fun r => 2 ≤ r.len)

def words6 (src : List UInt8) : List Nat :=
  (List.range 8).map (fun i => (src.getD (2 * i) 0).toNat * 256 + (src.getD (2 * i + 1) 0).toNat)

/-- The last two words of an IPv4-compatible or IPv4-mapped address print as a dotted quad. -/
def encapsulatesIPv4 (best : Option ZeroRun) (words : List Nat) : Bool :=
  match best with
  | none => false
  | some r => r.base = 0 && (r.len = 6 || (r.len = 5 && words.getD 5 0 = 0xffff))

def printWords (src : List UInt8) (best : Option ZeroRun) (quad : Bool) : Nat → List Nat → Text
  | _, [] => []
  | i, w :: ws =>
    if best.any (fun r => r.base ≤ i && i < r.base + r.len) then
      (if best.any (fun r => r.base = i) then [':'] else []) ++ printWords src best quad (i + 1) ws
    else
      (if i = 0 then [] else [':']) ++
        (if i = 6 && quad then inetNtop4 (src.drop 12)
         else hex w ++ printWords src best quad (i + 1) ws)

/-- `inet_ntop(AF_INET6, ...)`: lower-case hexadecimal words with the longest zero run abbreviated. -/
def inetNtop6 (src : List UInt8) : Text :=
  let words := words6 src
  let best := bestZeroRun words
  printWords src best (encapsulatesIPv4 best words) 0 words ++
    (if best.any (fun r => r.base + r.len = 8) then [':'] else [])

def inetNtop (isIPv4 : Bool) (src : List UInt8) : Text :=
  if isIPv4 then inetNtop4 src else inetNtop6 src

def AddressChar (c : Char) : Prop := c.isAlphanum = true ∨ c = '.' ∨ c = ':'

private theorem decimal_addressChar {n : Nat} {c : Char} (h : c ∈ decimal n) : AddressChar c :=
  Or.inl (decimal_isAlphanum h)

private theorem inetNtop4_chars (src : List UInt8) : ∀ c ∈ inetNtop4 src, AddressChar c := by
  intro c hc
  simp only [inetNtop4, List.mem_append, List.mem_cons] at hc
  rcases hc with h | rfl | h | rfl | h | rfl | h
  · exact decimal_addressChar h
  · exact Or.inr (Or.inl rfl)
  · exact decimal_addressChar h
  · exact Or.inr (Or.inl rfl)
  · exact decimal_addressChar h
  · exact Or.inr (Or.inl rfl)
  · exact decimal_addressChar h

private theorem printWords_chars (src : List UInt8) (best : Option ZeroRun) (quad : Bool)
    (i : Nat) (ws : List Nat) : ∀ c ∈ printWords src best quad i ws, AddressChar c := by
  have colon : AddressChar ':' := Or.inr (Or.inr rfl)
  induction ws generalizing i with
  | nil => simp [printWords]
  | cons w ws ih =>
    intro c hc
    simp only [printWords] at hc
    split at hc
    · rcases List.mem_append.mp hc with h | h
      · split at h
        · exact List.mem_singleton.mp h ▸ colon
        · simp at h
      · exact ih (i + 1) c h
    · rcases List.mem_append.mp hc with h | h
      · split at h
        · simp at h
        · exact List.mem_singleton.mp h ▸ colon
      · split at h
        · exact inetNtop4_chars _ c h
        · rcases List.mem_append.mp h with h | h
          · exact Or.inl (hex_isAlphanum h)
          · exact ih (i + 1) c h

theorem inetNtop_chars (isIPv4 : Bool) (src : List UInt8) :
    ∀ c ∈ inetNtop isIPv4 src, AddressChar c := by
  intro c hc
  cases isIPv4 with
  | true => exact inetNtop4_chars src c hc
  | false =>
    rcases List.mem_append.mp hc with h | h
    · exact printWords_chars _ _ _ _ _ c h
    · split at h
      · exact List.mem_singleton.mp h ▸ Or.inr (Or.inr rfl)
      · simp at h

theorem inetNtop4_length_le (src : List UInt8) : (inetNtop4 src).length ≤ 15 := by
  have byte (b : UInt8) : (decimal b.toNat).length ≤ 3 :=
    (Nat.length_toDigits_le_iff (by decide) (by decide)).mpr (by have := b.toNat_lt; omega)
  have h0 := byte (src.getD 0 0)
  have h1 := byte (src.getD 1 0)
  have h2 := byte (src.getD 2 0)
  have h3 := byte (src.getD 3 0)
  simp only [inetNtop4, List.length_append, List.length_cons]
  omega

private theorem printWords_length_le (src : List UInt8) (best : Option ZeroRun) (quad : Bool)
    (i : Nat) (ws : List Nat) (words : ∀ w ∈ ws, w < 65536) (all : i + ws.length = 8) :
    (printWords src best quad i ws).length + 5 * i ≤ if i = 0 then 45 else 46 := by
  induction ws generalizing i with
  | nil =>
    simp only [List.length_nil, Nat.add_zero] at all
    simp [printWords, all]
  | cons w ws ih =>
    have rest := ih (i + 1) (fun v hv => words v (List.mem_cons_of_mem _ hv))
      (by simp only [List.length_cons] at all; omega)
    have word : (hex w).length ≤ 4 :=
      (Nat.length_toDigits_le_iff (by decide) (by decide)).mpr (words w List.mem_cons_self)
    have dotted := inetNtop4_length_le (src.drop 12)
    simp only [Nat.add_eq_zero_iff, one_ne_zero, and_false, if_false] at rest
    by_cases run : best.any (fun r => r.base ≤ i && i < r.base + r.len) = true
    · simp only [printWords, if_pos run, List.length_append]
      split <;> simp only [List.length_cons, List.length_nil] <;> split <;> omega
    · simp only [printWords, if_neg run, List.length_append]
      by_cases dots : (i = 6 && quad) = true
      · have six : i = 6 := by simp only [Bool.and_eq_true, decide_eq_true_eq] at dots; exact dots.1
        rw [if_pos dots]
        simp only [six, List.length_cons, List.length_nil, Nat.reduceEqDiff, if_false]
        omega
      · rw [if_neg dots, List.length_append]
        split <;> simp only [List.length_cons, List.length_nil] <;> omega

theorem words6_lt (src : List UInt8) : ∀ w ∈ words6 src, w < 65536 := by
  intro w hw
  obtain ⟨i, -, rfl⟩ := List.mem_map.mp hw
  have hi := (src.getD (2 * i) 0).toNat_lt
  have lo := (src.getD (2 * i + 1) 0).toNat_lt
  omega

theorem inetNtop_length_le (isIPv4 : Bool) (src : List UInt8) :
    (inetNtop isIPv4 src).length ≤ 46 := by
  cases isIPv4 with
  | true => exact (inetNtop4_length_le src).trans (by decide)
  | false =>
    have body := printWords_length_le src (bestZeroRun (words6 src))
      (encapsulatesIPv4 (bestZeroRun (words6 src)) (words6 src)) 0 (words6 src) (words6_lt src) rfl
    simp only [if_true] at body
    simp only [inetNtop, inetNtop6, Bool.false_eq_true, if_false, List.length_append]
    split
    · simp only [List.length_cons, List.length_nil]
      omega
    · simp only [List.length_nil]
      omega

example : inetNtop false [0x20, 1, 0xd, 0xb8, 0, 0, 0, 0, 0, 0, 0, 0, 0, 0, 0, 1] =
    "2001:db8::1".toList := by decide

/-- `bgp::PREFIX_TYPE`, as far as the unicast and labelled parsers set it. -/
inductive PrefixType
  | unicastV4 | unicastV6 | labelUnicastV4 | labelUnicastV6
  deriving DecidableEq

structure PrefixTuple where
  type : PrefixType
  len : Nat
  prefixText : Text
  prefixBin : List UInt8
  pathId : Nat
  isIPv4 : Bool
  labels : Text
  deriving DecidableEq

structure VpnTuple extends PrefixTuple where
  rdAdministratorSubfield : Text
  rdAssignedNumber : Text
  rdType : Nat
  deriving DecidableEq

structure EvpnTuple where
  rdAdministratorSubfield : Text
  rdAssignedNumber : Text
  rdType : Nat
  ethernetSegmentIdentifier : Text
  ethernetTagIdHex : Text
  macLen : Nat
  mac : Text
  ipLen : Nat
  ip : Text
  mplsLabel1 : Int
  mplsLabel2 : Int
  originatingRouterIpLen : Nat
  originatingRouterIp : Text
  pathId : Nat
  deriving DecidableEq

/-- The send/receive codes of one address family in the sent and the received OPEN. -/
structure AddPathCodes where
  sent : Int
  received : Int
  deriving DecidableEq

abbrev AddPathMap := Text → Option AddPathCodes

def getAFiSafiKeyString (afi safi : Nat) : Text := decimal afi ++ '_' :: decimal safi

/-- The half of a new entry that is not assigned keeps the indeterminate value `stale`. -/
def addAddPath (stale : Int) (cap : AddPathMap) (afi safi sendReceive : Nat) (sentOpen : Bool) :
    AddPathMap :=
  let old := (cap (getAFiSafiKeyString afi safi)).getD ⟨stale, stale⟩
  Function.update cap (getAFiSafiKeyString afi safi)
    (some (if sentOpen then { old with sent := sendReceive }
      else { old with received := sendReceive }))

/-- Receive is code 1, send is code 2, send and receive is code 3. -/
def isAddPathEnabled (cap : AddPathMap) (afi safi : Nat) : Bool :=
  match cap (getAFiSafiKeyString afi safi) with
  | none => false
  | some c => (c.sent == 1 || c.sent == 3) && (c.received == 2 || c.received == 3)

structure PeerInfo where
  sentFourOctetAsn : Bool
  recvFourOctetAsn : Bool
  using2OctetAsn : Bool
  addPathCapability : AddPathMap
  endOfRIB : Bool

/-- A fresh map entry is value-initialised. -/
def PeerInfo.fresh : PeerInfo := ⟨false, false, false, fun _ => none, false⟩

def bgpAfi (isIPv4 : Bool) : Nat := if isIPv4 then 1 else 2

def bgpSafiUnicast : Nat := 1

def bgpSafiNlriLabel : Nat := 4

def bgpSafiMpls : Nat := 128

def PeerInfo.addPathUnicast (info : PeerInfo) (isIPv4 : Bool) : Bool :=
  isAddPathEnabled info.addPathCapability (bgpAfi isIPv4) bgpSafiUnicast

/-- `bgp_msg::UPDATE_ATTR_TYPES`, the keys that ever enter the attribute map. -/
inductive UpdateAttrType
  | origin | asPath | nextHop | med | localPref | atomicAggregate | aggregator
  | communities | originatorId | clusterList | extCommunity | largeCommunity
  | internalAsCount | internalAsOrigin
  deriving DecidableEq

abbrev ParsedAttrsMap := UpdateAttrType → Option Text

/-- `attrs[key]` read as a string: a missing key reads as the empty text. -/
def ParsedAttrsMap.at (attrs : ParsedAttrsMap) (key : UpdateAttrType) : Text := (attrs key).getD []

/-- `MPReachAttr::mp_reach_nlri`; the two pointers are addresses. -/
structure MpReachNlri where
  afi : Nat
  safi : Nat
  nhLen : Nat
  nextHop : Nat
  nlriData : Nat
  nlriLen : Nat

structure MpUnReachNlri where
  afi : Nat
  safi : Nat
  nlriData : Nat
  nlriLen : Nat

/-- What the UPDATE parser is given besides the message: the decoders that are
classes of their own (link state, EVPN, extended communities), which see only the
bytes and the data they extend, and the indeterminate contents of a stack tuple. -/
structure Decoders where
  LsData : Type
  LsAttrs : Type
  noLsData : LsData
  noLsAttrs : LsAttrs
  parseReachLinkState : Mem → MpReachNlri → LsData → Text × LsData
  parseUnReachLinkState : Mem → MpUnReachNlri → LsData → LsData
  parseAttrLinkState : Mem → Nat → Nat → LsData → LsAttrs → LsAttrs
  parseEvpnNlriData : Mem → Nat → Nat → List EvpnTuple
  parseExtCommunities : Mem → Nat → Nat → Option Text
  stackTuple : VpnTuple

def Decoders.silent : Decoders where
  LsData := Unit
  LsAttrs := Unit
  noLsData := ()
  noLsAttrs := ()
  parseReachLinkState _ _ _ := ([], ())
  parseUnReachLinkState _ _ _ := ()
  parseAttrLinkState _ _ _ _ _ := ()
  parseEvpnNlriData _ _ _ := []
  parseExtCommunities _ _ _ := none
  stackTuple := ⟨⟨.unicastV4, 0, [], [], 0, true, []⟩, [], [], 0⟩

structure ParsedUpdateData (D : Decoders) where
  attrs : ParsedAttrsMap
  withdrawn : List PrefixTuple
  advertised : List PrefixTuple
  lsAttrs : D.LsAttrs
  ls : D.LsData
  lsWithdrawn : D.LsData
  vpn : List VpnTuple
  vpnWithdrawn : List VpnTuple
  evpn : List EvpnTuple
  evpnWithdrawn : List EvpnTuple

def ParsedUpdateData.empty (D : Decoders) : ParsedUpdateData D :=
  ⟨fun _ => none, [], [], D.noLsAttrs, D.noLsData, D.noLsData, [], [], [], []⟩

/-- The two objects every attribute decoder may write: the persistent peer
information and the data parsed so far. -/
structure UpdateState (D : Decoders) where
  info : PeerInfo
  data : ParsedUpdateData D

def UpdateState.setAttr {D : Decoders} (st : UpdateState D) (key : UpdateAttrType) (value : Text) :
    UpdateState D :=
  { st with data := { st.data with attrs := Function.update st.data.attrs key (some value) } }

theorem UpdateState.setAttr_self {D : Decoders} (st : UpdateState D) (key : UpdateAttrType)
    (value : Text) : (st.setAttr key value).data.attrs key = some value := Function.update_self ..

end SonicBmp.Bgp.Common
