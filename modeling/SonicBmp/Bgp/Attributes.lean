/- module: SonicBmp/Bgp/Attributes
   digest: Path attribute decoders of the UPDATE parser and what they may do to the peer. -/

import SonicBmp.Bgp.Nlri
import SonicBmp.Library.Loop

set_option autoImplicit false
set_option relaxedAutoImplicit false

namespace SonicBmp.Bgp.Attributes

open SonicBmp.Library.Memory
open SonicBmp.Library.Loop (strideLoop)
open SonicBmp.Library.Printing (Text decimal)
open SonicBmp.Bgp.Common
open SonicBmp.Bgp.Nlri

/-! AS_PATH -/

structure AsPathAcc where
  text : Text
  count : Nat
  asn : Nat

def asnAt (size : Nat) (m : Mem) (data : Nat) : Nat := if size = 2 then u16 m data else u32 m data

def asPathAsns (size : Nat) (m : Mem) : Nat → Nat → AsPathAcc → AsPathAcc
  | 0, _, acc => acc
  | segLen + 1, data, acc =>
    let asn := asnAt size m data
    asPathAsns size m segLen (data + size)
      ⟨acc.text ++ ' ' :: decimal asn, (acc.count + 1) % 65536, asn⟩

def asSetBrace (segType : Nat) (brace : Char) (acc : AsPathAcc) : AsPathAcc :=
  if segType = 1 then { acc with text := acc.text ++ [' ', brace] } else acc

/-- The segment loop; `none` when a segment runs past the attribute, its own two
octets included: the source's `int` length is then negative or too small. -/
def asPathLoop (size : Nat) (m : Mem) (pathLen data : Nat) (acc : AsPathAcc) : Option AsPathAcc :=
  if 0 < pathLen then
    let segType := u8 m data
    let segLen := u8 m (data + 1)
    let opened := asSetBrace segType '\x7b' acc
    if pathLen < 2 + segLen * size then none
    else
      asPathLoop size m (pathLen - (2 + segLen * size)) (data + 2 + segLen * size)
        (asSetBrace segType '\x7d' (asPathAsns size m segLen (data + 2) opened))
  else some acc
termination_by pathLen

/-- One attempt with a fixed ASN size; an attribute below one ASN changes nothing. -/
def asPathAttempt (size : Nat) (m : Mem) (attrLen data : Nat) (attrs : ParsedAttrsMap) :
    Option ParsedAttrsMap :=
  if attrLen < size then some attrs
  else (asPathLoop size m attrLen data ⟨[], 0, 0⟩).map fun acc =>
    Function.update (Function.update (Function.update attrs .asPath (some acc.text))
      .internalAsCount (some (decimal acc.count))) .internalAsOrigin (some (decimal acc.asn))

variable (D : Decoders)

/-- `UpdateMsg::parseAttr_AsPath`. A path that does not fit with four-octet ASNs
switches the peer to two octets for good and is tried once more. -/
def parseAttrAsPath (m : Mem) (attrLen data : Nat) (st : UpdateState D) : UpdateState D :=
  match asPathAttempt (if st.info.using2OctetAsn then 2 else 4) m attrLen data st.data.attrs with
  | some attrs => { st with data := { st.data with attrs := attrs } }
  | none =>
    if st.info.using2OctetAsn then st
    else
      { info := { st.info with using2OctetAsn := true }
        data := { st.data with
          attrs := (asPathAttempt 2 m attrLen data st.data.attrs).getD st.data.attrs } }

/-! Attributes that become one text -/

def originText (origin : Nat) : Text :=
  match origin with
  | 0 => "igp".toList
  | 1 => "egp".toList
  | 2 => "incomplete".toList
  | _ => []

def ipv4Text (m : Mem) (data : Nat) : Text := inetNtop4 (readBytes m data 4)

def parseAttrAggegator (m : Mem) (attrLen data : Nat) (st : UpdateState D) : UpdateState D :=
  match attrLen with
  | 8 => st.setAttr .aggregator (decimal (u32 m data) ++ ' ' :: ipv4Text m (data + 4))
  | 6 => st.setAttr .aggregator (decimal (u16 m data) ++ ' ' :: ipv4Text m (data + 2))
  | _ => st

def clusterListText (m : Mem) (attrLen data : Nat) : Text :=
  strideLoop 4 attrLen (fun i text => text ++ (ipv4Text m (data + i) ++ [' '])) 0 []

def communityText (m : Mem) (data : Nat) : Text :=
  decimal (u16 m data) ++ ':' :: decimal (u16 m (data + 2))

def largeCommunityText (m : Mem) (data : Nat) : Text :=
  decimal (u32 m data) ++ ':' :: (decimal (u32 m (data + 4)) ++ ':' :: decimal (u32 m (data + 8)))

def communityListText (entry : Mem → Nat → Text) (stride : Nat) (m : Mem) (attrLen data : Nat) :
    Text :=
  strideLoop stride attrLen
    (fun i text => text ++ ((if i = 0 then [] else [' ']) ++ entry m (data + i))) 0 []

/-! MP_REACH_NLRI and MP_UNREACH_NLRI -/

def bgpAfiBgpls : Nat := 16388

def bgpAfiL2vpn : Nat := 25

def bgpSafiEvpn : Nat := 70

/-- At most sixteen next-hop octets, zero padded, printed in the family of the route. -/
def nextHopText (isIPv4 : Bool) (m : Mem) (nextHop nhLen : Nat) : Text :=
  inetNtop isIPv4 (copyRaw 16 m nextHop (min nhLen 16))

variable {D}

/-- `MPReachAttr::parseAfi_IPv4IPv6`. The next hop of a VPNv4 route is read eight
octets on, with its `u_char` length eight less. -/
def reachIPv4IPv6 (isIPv4 : Bool) (m : Mem) (nlri : MpReachNlri) (st : UpdateState D) :
    UpdateState D :=
  if nlri.safi = bgpSafiUnicast then
    let st := st.setAttr .nextHop (nextHopText isIPv4 m nlri.nextHop nlri.nhLen)
    { st with data := { st.data with
        advertised := parseNlriDataIPv4IPv6 isIPv4 st.info m nlri.nlriData nlri.nlriLen
          st.data.advertised } }
  else if nlri.safi = bgpSafiNlriLabel then
    let st := st.setAttr .nextHop (nextHopText isIPv4 m nlri.nextHop nlri.nhLen)
    let tuples := parseNlriDataLabelIPv4IPv6 isIPv4 false D.stackTuple st.info m
      nlri.nlriData nlri.nlriLen
    { st with data := { st.data with
        advertised := st.data.advertised ++ tuples.map VpnTuple.toPrefixTuple } }
  else if nlri.safi = bgpSafiMpls then
    let nextHop := if isIPv4 then nlri.nextHop + 8 else nlri.nextHop
    let nhLen := if isIPv4 then (nlri.nhLen + 256 - 8) % 256 else nlri.nhLen
    let st := st.setAttr .nextHop (nextHopText isIPv4 m nextHop nhLen)
    let tuples := parseNlriDataLabelIPv4IPv6 isIPv4 true D.stackTuple st.info m
      nlri.nlriData nlri.nlriLen
    { st with data := { st.data with vpn := st.data.vpn ++ tuples } }
  else st

def reachAfi (m : Mem) (nlri : MpReachNlri) (st : UpdateState D) : UpdateState D :=
  if nlri.afi = bgpAfi false then reachIPv4IPv6 false m nlri st
  else if nlri.afi = bgpAfi true then reachIPv4IPv6 true m nlri st
  else if nlri.afi = bgpAfiBgpls then
    let decoded := D.parseReachLinkState m nlri st.data.ls
    let st := st.setAttr .nextHop decoded.1
    { st with data := { st.data with ls := decoded.2 } }
  else if nlri.afi = bgpAfiL2vpn then
    let st := st.setAttr .nextHop (nextHopText (nlri.nhLen = 4) m nlri.nextHop nlri.nhLen)
    if nlri.safi = bgpSafiEvpn then
      { st with data := { st.data with
          evpn := st.data.evpn ++ D.parseEvpnNlriData m nlri.nlriData nlri.nlriLen } }
    else st
  else st

/-- `MPReachAttr::parseReachNlriAttr`: the header fields are read first, the length
left for the NLRI is checked afterwards. -/
def parseReachNlriAttr (m : Mem) (attrLen data : Nat) (st : UpdateState D) : UpdateState D :=
  let nhLen := u8 m (data + 3)
  let nlri : MpReachNlri :=
    { afi := u16 m data, safi := u8 m (data + 2), nhLen := nhLen, nextHop := data + 4,
      nlriData := data + 4 + nhLen + 1, nlriLen := attrLen - (5 + nhLen) }
  if attrLen < 5 + nhLen then st else reachAfi m nlri st

def unReachIPv4IPv6 (isIPv4 : Bool) (m : Mem) (nlri : MpUnReachNlri) (st : UpdateState D) :
    UpdateState D :=
  let labelled (isVPN : Bool) := parseNlriDataLabelIPv4IPv6 isIPv4 isVPN D.stackTuple st.info m
    nlri.nlriData nlri.nlriLen
  if nlri.safi = bgpSafiUnicast then
    { st with data := { st.data with
        withdrawn := parseNlriDataIPv4IPv6 isIPv4 st.info m nlri.nlriData nlri.nlriLen
          st.data.withdrawn } }
  else if nlri.safi = bgpSafiNlriLabel then
    { st with data := { st.data with
        withdrawn := st.data.withdrawn ++ (labelled false).map VpnTuple.toPrefixTuple } }
  else if nlri.safi = bgpSafiMpls then
    { st with data := { st.data with vpnWithdrawn := st.data.vpnWithdrawn ++ labelled true } }
  else st

def unReachAfi (m : Mem) (nlri : MpUnReachNlri) (st : UpdateState D) : UpdateState D :=
  if nlri.afi = bgpAfi false then unReachIPv4IPv6 false m nlri st
  else if nlri.afi = bgpAfi true then unReachIPv4IPv6 true m nlri st
  else if nlri.afi = bgpAfiBgpls then
    { st with data := { st.data with
        lsWithdrawn := D.parseUnReachLinkState m nlri st.data.lsWithdrawn } }
  else if nlri.afi = bgpAfiL2vpn ∧ nlri.safi = bgpSafiEvpn then
    { st with data := { st.data with
        evpnWithdrawn := st.data.evpnWithdrawn ++
          D.parseEvpnNlriData m nlri.nlriData nlri.nlriLen } }
  else st

/-- `MPUnReachAttr::parseUnReachNlriAttr`; an empty NLRI is an End-of-RIB marker. -/
def parseUnReachNlriAttr (m : Mem) (attrLen data : Nat) (st : UpdateState D) : UpdateState D :=
  let nlri : MpUnReachNlri :=
    { afi := u16 m data, safi := u8 m (data + 2), nlriData := data + 3, nlriLen := attrLen - 3 }
  if attrLen < 3 then st
  else if nlri.nlriLen = 0 then { st with info := { st.info with endOfRIB := true } }
  else unReachAfi m nlri st

/-! The attribute walk -/

variable (D)

def parseAttrData (m : Mem) (attrType attrLen data : Nat) (st : UpdateState D) : UpdateState D :=
  match attrType with
  | 1 => st.setAttr .origin (originText (u8 m data))
  | 2 => parseAttrAsPath D m attrLen data st
  | 3 => st.setAttr .nextHop (ipv4Text m data)
  | 4 => st.setAttr .med (decimal (u32 m data))
  | 5 => st.setAttr .localPref (decimal (u32 m data))
  | 6 => st.setAttr .atomicAggregate ['1']
  | 7 => parseAttrAggegator D m attrLen data st
  | 8 => st.setAttr .communities (communityListText communityText 4 m attrLen data)
  | 9 => st.setAttr .originatorId (ipv4Text m data)
  | 10 => st.setAttr .clusterList (clusterListText m attrLen data)
  | 14 => parseReachNlriAttr m attrLen data st
  | 15 => parseUnReachNlriAttr m attrLen data st
  | 16 =>
    match D.parseExtCommunities m attrLen data with
    | some text => st.setAttr .extCommunity text
    | none => st
  | 29 =>
    { st with data := { st.data with
        lsAttrs := D.parseAttrLinkState m attrLen data st.data.ls st.data.lsAttrs } }
  | 32 =>
    if 12 ≤ attrLen then
      st.setAttr .largeCommunity (communityListText largeCommunityText 12 m attrLen data)
    else st
  -- AS4_PATH, AS4_AGGREGATOR, AS_PATHLIMIT, the IPv6 extended communities and unknown types
  | _ => st

def attrFlagExtended (flags : Nat) : Bool := flags / 16 % 2 = 1

/-- The loop of `parseAttributes`. The bound is tested before the flags and type
octets are counted; a zero length is passed over. -/
def attrLoop (m : Mem) (len data readSize : Nat) (st : UpdateState D) : UpdateState D :=
  if readSize < len then
    let extended := attrFlagExtended (u8 m data)
    let width := if extended then 2 else 1
    let attrLen := if extended then u16 m (data + 2) else u8 m (data + 2)
    let value := data + 2 + width
    let counted := readSize + width
    if 0 < attrLen ∧ counted + attrLen ≤ len then
      attrLoop m len (value + attrLen) (counted + attrLen + 2)
        (parseAttrData D m (u8 m (data + 1)) attrLen value st)
    else if attrLen = 0 then attrLoop m len value (counted + 2) st
    else st
  else st
termination_by len - readSize

def parseAttributes (m : Mem) (data len : Nat) (st : UpdateState D) : UpdateState D :=
  if len < 3 then st else attrLoop D m len data 0 st

/-! What each type of attribute can write. -/

variable {D}

/-- MP_REACH: the next hop and the four lists of announced routes. -/
def ReachWrites (st after : UpdateState D) : Prop :=
  ∃ (hop : Option Text) (advertised : List PrefixTuple) (vpn : List VpnTuple)
    (evpn : List EvpnTuple) (ls : D.LsData),
    after = { st with data := { st.data with
      attrs := hop.elim st.data.attrs (fun text =>
        Function.update st.data.attrs .nextHop (some text))
      advertised := advertised, vpn := vpn, evpn := evpn, ls := ls } }

/-- MP_UNREACH: the four lists of withdrawn routes and the End-of-RIB latch. -/
def UnReachWrites (st after : UpdateState D) : Prop :=
  ∃ (marker : Bool) (withdrawn : List PrefixTuple) (vpn : List VpnTuple)
    (evpn : List EvpnTuple) (ls : D.LsData),
    after =
      { info := { st.info with endOfRIB := marker || st.info.endOfRIB }
        data := { st.data with
          withdrawn := withdrawn, vpnWithdrawn := vpn, evpnWithdrawn := evpn, lsWithdrawn := ls } }

/-- Every other type but link state: the attribute map, and an AS path the width latch. -/
def MapWrites (st after : UpdateState D) : Prop :=
  ∃ (two : Bool) (attrs : ParsedAttrsMap),
    after =
      { info := { st.info with using2OctetAsn := two || st.info.using2OctetAsn }
        data := { st.data with attrs := attrs } }

section Writes

variable (m : Mem) (attrLen data : Nat) (st : UpdateState D)

theorem reachIPv4IPv6_writes (isIPv4 : Bool) (nlri : MpReachNlri) :
    ReachWrites st (reachIPv4IPv6 isIPv4 m nlri st) := by
  unfold reachIPv4IPv6
  refine iteInduction (fun _ => ?_) fun _ => iteInduction (fun _ => ?_) fun _ =>
    iteInduction (fun _ => ?_) fun _ => ⟨none, _, _, _, _, rfl⟩
  all_goals exact ⟨some _, _, _, _, _, rfl⟩

theorem parseReachNlriAttr_writes : ReachWrites st (parseReachNlriAttr m attrLen data st) := by
  unfold parseReachNlriAttr reachAfi
  refine iteInduction (fun _ => ⟨none, _, _, _, _, rfl⟩) fun _ => iteInduction (fun _ => ?_) fun _ =>
    iteInduction (fun _ => ?_) fun _ => iteInduction (fun _ => ⟨some _, _, _, _, _, rfl⟩) fun _ =>
      iteInduction (fun _ => iteInduction (fun _ => ?_) fun _ => ?_) fun _ =>
        ⟨none, _, _, _, _, rfl⟩
  · exact reachIPv4IPv6_writes m st false _
  · exact reachIPv4IPv6_writes m st true _
  all_goals exact ⟨some _, _, _, _, _, rfl⟩

theorem unReachIPv4IPv6_writes (isIPv4 : Bool) (nlri : MpUnReachNlri) :
    UnReachWrites st (unReachIPv4IPv6 isIPv4 m nlri st) := by
  unfold unReachIPv4IPv6
  refine iteInduction (fun _ => ?_) fun _ => iteInduction (fun _ => ?_) fun _ =>
    iteInduction (fun _ => ?_) fun _ => ?_
  all_goals exact ⟨false, _, _, _, _, rfl⟩

theorem parseUnReachNlriAttr_writes : UnReachWrites st (parseUnReachNlriAttr m attrLen data st) := by
  unfold parseUnReachNlriAttr unReachAfi
  refine iteInduction (fun _ => ?_) fun _ => iteInduction (fun _ => ⟨true, _, _, _, _, rfl⟩) fun _ =>
    iteInduction (fun _ => ?_) fun _ => iteInduction (fun _ => ?_) fun _ =>
      iteInduction (fun _ => ?_) fun _ => iteInduction (fun _ => ?_) fun _ => ?_
  · exact ⟨false, _, _, _, _, rfl⟩
  · exact unReachIPv4IPv6_writes m st false _
  · exact unReachIPv4IPv6_writes m st true _
  all_goals exact ⟨false, _, _, _, _, rfl⟩

theorem parseAttrData_writes {attrType : Nat} (reach : attrType ≠ 14) (unreach : attrType ≠ 15)
    (linkState : attrType ≠ 29) : MapWrites st (parseAttrData D m attrType attrLen data st) := by
  unfold parseAttrData
  split <;> try exact ⟨false, _, rfl⟩
  · unfold parseAttrAsPath
    split
    · exact ⟨false, _, rfl⟩
    · exact iteInduction (fun _ => ⟨false, _, rfl⟩) fun _ => ⟨true, _, rfl⟩
  · unfold parseAttrAggegator
    split <;> exact ⟨false, _, rfl⟩
  · exact absurd rfl reach
  · exact absurd rfl unreach
  · split <;> exact ⟨false, _, rfl⟩
  · exact absurd rfl linkState
  · exact iteInduction (fun _ => ⟨false, _, rfl⟩) fun _ => ⟨false, _, rfl⟩

end Writes

/-! What parsing may do to the persistent peer information. -/

/-- Only the two latches can change, and only upwards. -/
structure Latches (before after : PeerInfo) : Prop where
  sentFourOctetAsn : after.sentFourOctetAsn = before.sentFourOctetAsn
  recvFourOctetAsn : after.recvFourOctetAsn = before.recvFourOctetAsn
  addPathCapability : after.addPathCapability = before.addPathCapability
  using2OctetAsn : before.using2OctetAsn = true → after.using2OctetAsn = true
  endOfRIB : before.endOfRIB = true → after.endOfRIB = true

theorem Latches.refl (info : PeerInfo) : Latches info info := ⟨rfl, rfl, rfl, id, id⟩

theorem Latches.endOfRIB_set (info : PeerInfo) : Latches info { info with endOfRIB := true } :=
  ⟨rfl, rfl, rfl, id, fun _ => rfl⟩

theorem Latches.trans {a b c : PeerInfo} (h : Latches a b) (h' : Latches b c) : Latches a c :=
  ⟨h'.sentFourOctetAsn.trans h.sentFourOctetAsn, h'.recvFourOctetAsn.trans h.recvFourOctetAsn,
    h'.addPathCapability.trans h.addPathCapability, h'.using2OctetAsn ∘ h.using2OctetAsn,
    h'.endOfRIB ∘ h.endOfRIB⟩

theorem Latches.addPathUnicast {before after : PeerInfo} (h : Latches before after)
    (isIPv4 : Bool) : after.addPathUnicast isIPv4 = before.addPathUnicast isIPv4 := by
  simp only [PeerInfo.addPathUnicast, h.addPathCapability]

theorem parseAttrData_latches (m : Mem) (attrType attrLen data : Nat) (st : UpdateState D) :
    Latches st.info (parseAttrData D m attrType attrLen data st).info := by
  by_cases reach : attrType = 14
  · subst reach
    obtain ⟨hop, advertised, vpn, evpn, ls, after⟩ := parseReachNlriAttr_writes m attrLen data st
    rw [show parseAttrData D m 14 attrLen data st = _ from after]
    exact Latches.refl _
  by_cases unreach : attrType = 15
  · subst unreach
    obtain ⟨marker, withdrawn, vpn, evpn, ls, after⟩ :=
      parseUnReachNlriAttr_writes m attrLen data st
    rw [show parseAttrData D m 15 attrLen data st = _ from after]
    exact ⟨rfl, rfl, rfl, id, fun seen => by simp [seen]⟩
  by_cases linkState : attrType = 29
  · subst linkState
    exact Latches.refl _
  obtain ⟨two, attrs, after⟩ := parseAttrData_writes m attrLen data st reach unreach linkState
  rw [after]
  exact ⟨rfl, rfl, rfl, fun known => by simp [known], id⟩

theorem attrLoop_latches (m : Mem) (len data readSize : Nat) (st : UpdateState D) :
    Latches st.info (attrLoop D m len data readSize st).info := by
  fun_induction attrLoop D m len data readSize st with
  | case1 data readSize st more extended width attrLen value counted fits ih =>
    exact (parseAttrData_latches m _ _ _ st).trans ih
  | case2 data readSize st more extended width attrLen value counted fits zero ih => exact ih
  | case3 => exact Latches.refl _
  | case4 => exact Latches.refl _

theorem parseAttributes_latches (m : Mem) (data len : Nat) (st : UpdateState D) :
    Latches st.info (parseAttributes D m data len st).info := by
  unfold parseAttributes
  split
  · exact Latches.refl _
  · exact attrLoop_latches m len data 0 st

end SonicBmp.Bgp.Attributes
