/- module: SonicBmp/Bgp/FamilyCodec
   digest: UPDATE messages with unicast, labelled and VPN routes, and the route lists they leave. -/

import SonicBmp.Bgp.LabelCodec
import SonicBmp.Bgp.Update

set_option autoImplicit false
set_option relaxedAutoImplicit false

namespace SonicBmp.Bgp.FamilyCodec

open SonicBmp.Library.Memory
open SonicBmp.Library.Printing (Text)
open SonicBmp.Bgp.Common
open SonicBmp.Bgp.Nlri
open SonicBmp.Bgp.Attributes
open SonicBmp.Bgp.AttrCodec
open SonicBmp.Bgp.MpCodec (bgpAfi_lt)
open SonicBmp.Bgp.LabelCodec
open SonicBmp.Bgp.Update

/-- Which families carry path identifiers. -/
structure Modes where
  unicast : Bool → Bool
  label : Bool → Bool → Bool

def modes (info : PeerInfo) : Modes := ⟨info.addPathUnicast, addPathLabel info⟩

theorem modes_congr {before after : PeerInfo}
    (same : after.addPathCapability = before.addPathCapability) : modes after = modes before := by
  have unicast : after.addPathUnicast = before.addPathUnicast := by
    funext isIPv4
    simp only [PeerInfo.addPathUnicast, same]
  unfold modes addPathLabel
  rw [unicast, same]

theorem modes_of_latches {before after : PeerInfo} (h : Latches before after) :
    modes after = modes before := modes_congr h.addPathCapability

/-- The routes of one multiprotocol attribute. -/
inductive Routes (isIPv4 : Bool)
  | unicast (ps : List (Prefix isIPv4))
  | labelled (es : List (LabelRoute isIPv4 false))
  | vpn (es : List (LabelRoute isIPv4 true))

variable {isIPv4 : Bool}

def Routes.safi : Routes isIPv4 → Nat
  | .unicast _ => bgpSafiUnicast
  | .labelled _ => bgpSafiNlriLabel
  | .vpn _ => bgpSafiMpls

def Routes.bytes (ap : Modes) : Routes isIPv4 → List UInt8
  | .unicast ps => encodePrefixes (ap.unicast isIPv4) ps
  | .labelled es => encodeLabelRoutes (ap.label isIPv4 false) es
  | .vpn es => encodeLabelRoutes (ap.label isIPv4 true) es

/-- A prefix tuple without its binary address. -/
def plain (t : PrefixTuple) : PrefixTuple := { t with prefixBin := [] }

/-- The prefix tuples of the routes, and below the VPN tuples, without binary addresses. -/
def Routes.prefixes (ap : Modes) (stack : VpnTuple) : Routes isIPv4 → List PrefixTuple
  | .unicast ps => ps.map (fun p => plain (p.tuple (ap.unicast isIPv4)))
  | .labelled es => es.map (fun e => (e.tuple (ap.label isIPv4 false) stack).toPrefixTuple)
  | .vpn _ => []

def Routes.vpns (ap : Modes) (stack : VpnTuple) : Routes isIPv4 → List VpnTuple
  | .vpn es => es.map (LabelRoute.tuple (ap.label isIPv4 true) stack)
  | _ => []

variable {D : Decoders}

/-- The four route lists of the parsed data, without binary addresses. -/
structure RouteLists where
  advertised : List PrefixTuple
  withdrawn : List PrefixTuple
  vpn : List VpnTuple
  vpnWithdrawn : List VpnTuple

def routeLists (data : ParsedUpdateData D) : RouteLists where
  advertised := data.advertised.map plain
  withdrawn := data.withdrawn.map plain
  vpn := data.vpn.map forgetBin
  vpnWithdrawn := data.vpnWithdrawn.map forgetBin

def RouteLists.reach (lists : RouteLists) (prefixes : List PrefixTuple) (vpns : List VpnTuple) :
    RouteLists :=
  { lists with advertised := lists.advertised ++ prefixes, vpn := lists.vpn ++ vpns }

def RouteLists.unreach (lists : RouteLists) (prefixes : List PrefixTuple) (vpns : List VpnTuple) :
    RouteLists :=
  { lists with
    withdrawn := lists.withdrawn ++ prefixes, vpnWithdrawn := lists.vpnWithdrawn ++ vpns }

/-- The prefix tuples of the routes, and below the VPN tuples, as the parser leaves them. -/
def Routes.tuples (ap : Modes) (stack : VpnTuple) : Routes isIPv4 → List PrefixTuple
  | .unicast ps => ps.map (Prefix.tuple (ap.unicast isIPv4))
  | .labelled es => (writeAll (ap.label isIPv4 false) es (labelStack isIPv4 stack)).map
      VpnTuple.toPrefixTuple
  | .vpn _ => []

def Routes.vpnTuples (ap : Modes) (stack : VpnTuple) : Routes isIPv4 → List VpnTuple
  | .vpn es => writeAll (ap.label isIPv4 true) es (labelStack isIPv4 stack)
  | _ => []

theorem Routes.map_plain_tuples (ap : Modes) (stack : VpnTuple) (r : Routes isIPv4) :
    (r.tuples ap stack).map plain = r.prefixes ap stack := by
  cases r with
  | unicast ps =>
    simp only [Routes.tuples, Routes.prefixes, List.map_map]
    rfl
  | labelled es =>
    have entries := congrArg (List.map VpnTuple.toPrefixTuple)
      (map_forgetBin_labelStack (ap.label isIPv4 false) stack es)
    simp only [Routes.tuples, Routes.prefixes, List.map_map] at entries ⊢
    exact entries
  | vpn es => rfl

theorem Routes.map_forgetBin_vpnTuples (ap : Modes) (stack : VpnTuple) (r : Routes isIPv4) :
    (r.vpnTuples ap stack).map forgetBin = r.vpns ap stack := by
  cases r with
  | vpn es => exact map_forgetBin_labelStack (ap.label isIPv4 true) stack es
  | unicast ps => rfl
  | labelled es => rfl

/-- The next hop as it is printed for the routes; see `reachIPv4IPv6`. -/
def Routes.hopText (r : Routes isIPv4) (m : Mem) (nextHop nhLen : Nat) : Text :=
  match r, isIPv4 with
  | .vpn _, true => nextHopText true m (nextHop + 8) ((nhLen + 256 - 8) % 256)
  | _, isIPv4 => nextHopText isIPv4 m nextHop nhLen

/-- MP_REACH of one of the three families sets the next hop and appends its routes. -/
theorem reachAfi_routes (r : Routes isIPv4) (m : Mem) (nlri : MpReachNlri) (st : UpdateState D)
    (afi : nlri.afi = bgpAfi isIPv4) (safi : nlri.safi = r.safi)
    (held : Holds m nlri.nlriData (r.bytes (modes st.info)))
    (len : nlri.nlriLen = (r.bytes (modes st.info)).length) :
    reachAfi m nlri st =
      { st with data := { (st.setAttr .nextHop (r.hopText m nlri.nextHop nlri.nhLen)).data with
          advertised := st.data.advertised ++ r.tuples (modes st.info) D.stackTuple
          vpn := st.data.vpn ++ r.vpnTuples (modes st.info) D.stackTuple } } := by
  have family : reachAfi m nlri st = reachIPv4IPv6 isIPv4 m nlri st := by
    cases isIPv4 <;> simp [reachAfi, afi, bgpAfi]
  rw [family]
  cases r with
  | unicast ps =>
    have decoded := parseNlriDataIPv4IPv6_roundtrip st.info m ps nlri.nlriData st.data.advertised held
    simp only [Routes.bytes, modes] at len
    simp only [reachIPv4IPv6, safi, Routes.safi, if_true, len, UpdateState.setAttr,
      decoded, Routes.tuples, Routes.vpnTuples, List.append_nil, modes]
    rfl
  | labelled es =>
    have decoded := parseNlriDataLabelIPv4IPv6_of_holds D.stackTuple st.info m nlri.nlriData es held
    have other : ¬ bgpSafiNlriLabel = bgpSafiUnicast := by decide
    simp only [Routes.bytes, modes] at len
    simp only [reachIPv4IPv6, safi, Routes.safi, if_neg other, if_true, len,
      UpdateState.setAttr, decoded, Routes.tuples, Routes.vpnTuples, List.append_nil, modes]
    rfl
  | vpn es =>
    have decoded := parseNlriDataLabelIPv4IPv6_of_holds D.stackTuple st.info m nlri.nlriData es held
    have other : ¬ bgpSafiMpls = bgpSafiUnicast := by decide
    have other' : ¬ bgpSafiMpls = bgpSafiNlriLabel := by decide
    simp only [Routes.bytes, modes] at len
    simp only [reachIPv4IPv6, safi, Routes.safi, if_neg other, if_neg other', if_true,
      len, UpdateState.setAttr, decoded, Routes.tuples, Routes.vpnTuples,
      List.append_nil, modes]
    cases isIPv4 <;> rfl

theorem unReachAfi_routes (r : Routes isIPv4) (m : Mem) (nlri : MpUnReachNlri) (st : UpdateState D)
    (afi : nlri.afi = bgpAfi isIPv4) (safi : nlri.safi = r.safi)
    (held : Holds m nlri.nlriData (r.bytes (modes st.info)))
    (len : nlri.nlriLen = (r.bytes (modes st.info)).length) :
    unReachAfi m nlri st =
      { st with data := { st.data with
          withdrawn := st.data.withdrawn ++ r.tuples (modes st.info) D.stackTuple
          vpnWithdrawn := st.data.vpnWithdrawn ++ r.vpnTuples (modes st.info) D.stackTuple } } := by
  have family : unReachAfi m nlri st = unReachIPv4IPv6 isIPv4 m nlri st := by
    cases isIPv4 <;> simp [unReachAfi, afi, bgpAfi]
  rw [family]
  cases r with
  | unicast ps =>
    have decoded := parseNlriDataIPv4IPv6_roundtrip st.info m ps nlri.nlriData st.data.withdrawn held
    simp only [Routes.bytes, modes] at len
    simp only [unReachIPv4IPv6, safi, Routes.safi, if_true, len, decoded, Routes.tuples,
      Routes.vpnTuples, List.append_nil, modes]
  | labelled es =>
    have decoded := parseNlriDataLabelIPv4IPv6_of_holds D.stackTuple st.info m nlri.nlriData es held
    have other : ¬ bgpSafiNlriLabel = bgpSafiUnicast := by decide
    simp only [Routes.bytes, modes] at len
    simp only [unReachIPv4IPv6, safi, Routes.safi, if_neg other, if_true, len, decoded,
      Routes.tuples, Routes.vpnTuples, List.append_nil, modes]
  | vpn es =>
    have decoded := parseNlriDataLabelIPv4IPv6_of_holds D.stackTuple st.info m nlri.nlriData es held
    have other : ¬ bgpSafiMpls = bgpSafiUnicast := by decide
    have other' : ¬ bgpSafiMpls = bgpSafiNlriLabel := by decide
    simp only [Routes.bytes, modes] at len
    simp only [unReachIPv4IPv6, safi, Routes.safi, if_neg other, if_neg other', if_true, len,
      decoded, Routes.tuples, Routes.vpnTuples, List.append_nil, modes]

/-! Attributes and messages. -/

structure FamilyReach where
  isIPv4 : Bool
  nextHop : List UInt8
  reserved : UInt8
  routes : Routes isIPv4
  nextHop_le : nextHop.length ≤ 255

structure FamilyUnReach where
  isIPv4 : Bool
  routes : Routes isIPv4

def FamilyReach.bytes (ap : Modes) (r : FamilyReach) : List UInt8 :=
  put16 (bgpAfi r.isIPv4) ++ (put8 r.routes.safi ++ (put8 r.nextHop.length ++
    (r.nextHop ++ (r.reserved :: r.routes.bytes ap))))

def FamilyUnReach.bytes (ap : Modes) (u : FamilyUnReach) : List UInt8 :=
  put16 (bgpAfi u.isIPv4) ++ (put8 u.routes.safi ++ u.routes.bytes ap)

/-- A multiprotocol value of a family without a route list: link state, EVPN, flow
specifications and whatever else is registered. -/
def OtherFamily (value : List UInt8) : Prop :=
  3 ≤ value.length ∧ ¬ ((u16 (memOf value) 0 = 1 ∨ u16 (memOf value) 0 = 2) ∧
    (u8 (memOf value) 2 = bgpSafiUnicast ∨ u8 (memOf value) 2 = bgpSafiNlriLabel ∨
      u8 (memOf value) 2 = bgpSafiMpls))

instance (value : List UInt8) : Decidable (OtherFamily value) := inferInstanceAs (Decidable (_ ∧ _))

/-- An attribute of an UPDATE: MP_REACH or MP_UNREACH with routes of the three families,
without routes or of another family, or any other type with any value. -/
inductive FamilyBody
  | reach (r : FamilyReach)
  | unreach (u : FamilyUnReach)
  | otherReach (value : List UInt8) (other : OtherFamily value)
  | otherUnreach (value : List UInt8) (other : OtherFamily value)
  | other (code : UInt8) (value : List UInt8) (notMp : code ≠ 14 ∧ code ≠ 15)

def FamilyBody.code : FamilyBody → UInt8
  | .reach _ | .otherReach _ _ => 14
  | .unreach _ | .otherUnreach _ _ => 15
  | .other code _ _ => code

def FamilyBody.bytes (ap : Modes) : FamilyBody → List UInt8
  | .reach r => r.bytes ap
  | .unreach u => u.bytes ap
  | .otherReach value _ | .otherUnreach value _ | .other _ value _ => value

/-- What an attribute adds to the route lists. -/
def FamilyBody.add (ap : Modes) (stack : VpnTuple) (lists : RouteLists) : FamilyBody → RouteLists
  | .reach r => lists.reach (r.routes.prefixes ap stack) (r.routes.vpns ap stack)
  | .unreach u => lists.unreach (u.routes.prefixes ap stack) (u.routes.vpns ap stack)
  | _ => lists

theorem parseReachNlriAttr_family {m : Mem} {p : Nat} (r : FamilyReach) (st : UpdateState D)
    (h : Holds m p (r.bytes (modes st.info))) :
    parseReachNlriAttr m (r.bytes (modes st.info)).length p st =
      { st with data := { (st.setAttr .nextHop
            (r.routes.hopText m (p + 4) r.nextHop.length)).data with
          advertised := st.data.advertised ++ r.routes.tuples (modes st.info) D.stackTuple
          vpn := st.data.vpn ++ r.routes.vpnTuples (modes st.info) D.stackTuple } } := by
  have small : r.routes.safi < 256 := by
    unfold Routes.safi
    split <;> decide
  have size : (r.bytes (modes st.info)).length =
      5 + r.nextHop.length + (r.routes.bytes (modes st.info)).length := by
    simp [FamilyReach.bytes]
    omega
  simp only [FamilyReach.bytes, holds_append, holds_cons, length_put16, length_put8] at h
  obtain ⟨hafi, hsafi, hnh, -, -, hnlri⟩ := h
  have nhLen := hnh.u8 (by have := r.nextHop_le; omega)
  simp only [parseReachNlriAttr, hafi.u16 (bgpAfi_lt r.isIPv4), hsafi.u8 small, nhLen, size]
  rw [if_neg (by omega)]
  exact reachAfi_routes r.routes m _ st rfl rfl hnlri (Nat.add_sub_cancel_left ..)

theorem Routes.bytes_eq_nil {ap : Modes} {r : Routes isIPv4} (empty : r.bytes ap = [])
    (stack : VpnTuple) : r.tuples ap stack = [] ∧ r.vpnTuples ap stack = [] := by
  cases r with
  | unicast ps =>
    rw [Routes.bytes, encodePrefixes_eq_nil] at empty
    simp [Routes.tuples, Routes.vpnTuples, empty]
  | labelled es =>
    rw [Routes.bytes, encodeLabelRoutes_eq_nil] at empty
    simp [Routes.tuples, Routes.vpnTuples, empty, writeAll]
  | vpn es =>
    rw [Routes.bytes, encodeLabelRoutes_eq_nil] at empty
    simp [Routes.tuples, Routes.vpnTuples, empty, writeAll]

/-- MP_UNREACH without routes is an End-of-RIB marker. -/
theorem parseUnReachNlriAttr_family {m : Mem} {p : Nat} (u : FamilyUnReach) (st : UpdateState D)
    (h : Holds m p (u.bytes (modes st.info))) :
    parseUnReachNlriAttr m (u.bytes (modes st.info)).length p st =
      { info := { st.info with
          endOfRIB := st.info.endOfRIB || (u.routes.bytes (modes st.info)).isEmpty }
        data := { st.data with
          withdrawn := st.data.withdrawn ++ u.routes.tuples (modes st.info) D.stackTuple
          vpnWithdrawn := st.data.vpnWithdrawn ++
            u.routes.vpnTuples (modes st.info) D.stackTuple } } := by
  have small : u.routes.safi < 256 := by
    unfold Routes.safi
    split <;> decide
  have size : (u.bytes (modes st.info)).length = 3 + (u.routes.bytes (modes st.info)).length := by
    simp [FamilyUnReach.bytes]
    omega
  simp only [FamilyUnReach.bytes, holds_append, length_put16, length_put8] at h
  obtain ⟨hafi, hsafi, hnlri⟩ := h
  simp only [parseUnReachNlriAttr, hafi.u16 (bgpAfi_lt u.isIPv4), hsafi.u8 small, size,
    Nat.add_sub_cancel_left]
  rw [if_neg (by omega)]
  split
  · rename_i empty
    rw [List.length_eq_zero_iff] at empty
    obtain ⟨noPrefix, noVpn⟩ := Routes.bytes_eq_nil empty D.stackTuple
    simp [empty, noPrefix, noVpn]
  · rename_i some_route
    have some_byte : (u.routes.bytes (modes st.info)).isEmpty = false := by
      rw [List.isEmpty_eq_false_iff, ne_eq, ← List.length_eq_zero_iff]
      exact some_route
    rw [unReachAfi_routes u.routes m _ st rfl rfl hnlri rfl, some_byte, Bool.or_false]

/-- The family a held value names. -/
private theorem otherFamily_of_holds {m : Mem} {p : Nat} {value : List UInt8}
    (other : OtherFamily value) (h : Holds m p value) :
    ¬ ((u16 m p = 1 ∨ u16 m p = 2) ∧ (u8 m (p + 2) = bgpSafiUnicast ∨
      u8 m (p + 2) = bgpSafiNlriLabel ∨ u8 m (p + 2) = bgpSafiMpls)) := by
  obtain ⟨long, foreign⟩ := other
  obtain ⟨a, b, c, rest, rfl⟩ : ∃ a b c rest, value = a :: b :: c :: rest := by
    rcases value with _ | ⟨a, _ | ⟨b, _ | ⟨c, rest⟩⟩⟩
    · simp at long
    · simp at long
    · simp at long
    · exact ⟨a, b, c, rest, rfl⟩
  simp only [holds_cons] at h
  simp only [u16, u8, memOf_apply, List.getD_cons_zero, List.getD_cons_succ, Nat.zero_add] at foreign
  simpa only [u16, u8, h.1, h.2.1, h.2.2.1] using foreign

private theorem reach_other {m : Mem} {p : Nat} {value : List UInt8} (other : OtherFamily value)
    (h : Holds m p value) (st : UpdateState D) :
    routeLists (parseReachNlriAttr m value.length p st).data = routeLists st.data := by
  have foreign := otherFamily_of_holds other h
  simp only [parseReachNlriAttr, reachAfi]
  split_ifs with short v6 v4 ls l2 evpn
  · rfl
  · simp only [v6, bgpAfi, Bool.false_eq_true, if_false, or_true, true_and, not_or] at foreign
    simp only [reachIPv4IPv6, if_neg foreign.1, if_neg foreign.2.1, if_neg foreign.2.2]
  · simp only [v4, bgpAfi, if_true, true_or, true_and, not_or] at foreign
    simp only [reachIPv4IPv6, if_neg foreign.1, if_neg foreign.2.1, if_neg foreign.2.2]
  all_goals rfl

private theorem unreach_other {m : Mem} {p : Nat} {value : List UInt8} (other : OtherFamily value)
    (h : Holds m p value) (st : UpdateState D) :
    routeLists (parseUnReachNlriAttr m value.length p st).data = routeLists st.data := by
  have foreign := otherFamily_of_holds other h
  simp only [parseUnReachNlriAttr, unReachAfi]
  split_ifs with short empty v6 v4 ls evpn
  · rfl
  · rfl
  · simp only [v6, bgpAfi, Bool.false_eq_true, if_false, or_true, true_and, not_or] at foreign
    simp only [unReachIPv4IPv6, if_neg foreign.1, if_neg foreign.2.1, if_neg foreign.2.2]
  · simp only [v4, bgpAfi, if_true, true_or, true_and, not_or] at foreign
    simp only [unReachIPv4IPv6, if_neg foreign.1, if_neg foreign.2.1, if_neg foreign.2.2]
  all_goals rfl

/-- Attributes other than the two multiprotocol ones never touch the route lists. -/
theorem parseAttrData_routeLists {attrType : Nat} (reach : attrType ≠ 14) (unreach : attrType ≠ 15)
    (m : Mem) (attrLen data : Nat) (st : UpdateState D) :
    routeLists (parseAttrData D m attrType attrLen data st).data = routeLists st.data := by
  by_cases linkState : attrType = 29
  · subst linkState
    rfl
  · obtain ⟨two, attrs, after⟩ := parseAttrData_writes m attrLen data st reach unreach linkState
    rw [after]
    rfl

structure FamilyAttr (ap : Modes) where
  flags : UInt8
  body : FamilyBody
  fits : (body.bytes ap).length < (if attrFlagExtended flags.toNat then 65536 else 256)

variable {ap : Modes}

def FamilyAttr.wire (a : FamilyAttr ap) : PathAttr := ⟨a.flags, a.body.code, a.body.bytes ap, a.fits⟩

/-- What a list of attributes adds, one after the other. -/
def addAll (stack : VpnTuple) (lists : RouteLists) (attrs : List (FamilyAttr ap)) : RouteLists :=
  attrs.foldl (fun lists a => a.body.add ap stack lists) lists

theorem parseAttributes_families {m : Mem} {data : Nat} (st : UpdateState D)
    (session : modes st.info = ap) (attrs : List (FamilyAttr ap))
    (h : Holds m data (encodeAttrs (attrs.map FamilyAttr.wire))) :
    routeLists (parseAttributes D m data (encodeAttrs (attrs.map FamilyAttr.wire)).length st).data =
      addAll D.stackTuple (routeLists st.data) attrs := by
  have rule := parseAttributes_rule (D := D) FamilyAttr.wire
    (fun seen now => Latches st.info now.info ∧
      routeLists now.data = addAll D.stackTuple (routeLists st.data) seen) attrs ?_ ?_ st ?_ data h
  · exact rule.2
  · rintro before ⟨flags, body, fits⟩ after now p here ⟨latches, lists⟩ _ hvalue
    refine ⟨latches.trans (parseAttrData_latches m _ _ _ now), ?_⟩
    have session' : modes now.info = ap := (modes_of_latches latches).trans session
    subst session'
    simp only [addAll, List.foldl_append, List.foldl_cons, List.foldl_nil] at lists ⊢
    rw [← lists]
    cases body with
    | reach r =>
      refine (congrArg (fun st => routeLists st.data) (parseReachNlriAttr_family r now hvalue)).trans ?_
      simp only [routeLists, FamilyBody.add, RouteLists.reach, List.map_append,
        Routes.map_plain_tuples, Routes.map_forgetBin_vpnTuples]
      rfl
    | unreach u =>
      refine (congrArg (fun st => routeLists st.data)
        (parseUnReachNlriAttr_family u now hvalue)).trans ?_
      simp only [routeLists, FamilyBody.add, RouteLists.unreach, List.map_append,
        Routes.map_plain_tuples, Routes.map_forgetBin_vpnTuples]
    | otherReach value other => exact reach_other other hvalue now
    | otherUnreach value other => exact unreach_other other hvalue now
    | other code value notMp =>
      have codes (c : UInt8) (hc : code ≠ c) : code.toNat ≠ c.toNat :=
        fun e => hc (UInt8.toNat_inj.mp e)
      exact parseAttrData_routeLists (codes 14 notMp.1) (codes 15 notMp.2) m _ p now
  · rintro before ⟨flags, body, fits⟩ after now here ⟨latches, lists⟩ empty
    refine ⟨latches, ?_⟩
    simp only [addAll, List.foldl_append, List.foldl_cons, List.foldl_nil] at lists ⊢
    rw [lists]
    cases body with
    | reach r => simp [FamilyAttr.wire, FamilyBody.bytes, FamilyReach.bytes, put16] at empty
    | unreach u => simp [FamilyAttr.wire, FamilyBody.bytes, FamilyUnReach.bytes, put16] at empty
    | _ => rfl
  · exact ⟨Latches.refl _, rfl⟩

/-- An UPDATE with classic routes and any attributes, for the add-path modes of a session. -/
structure FamilyUpdate (ap : Modes) where
  withdrawn : List (Prefix true)
  attrs : List (FamilyAttr ap)
  nlri : List (Prefix true)
  fits : (bgpUpdate (encodePrefixes (ap.unicast true) withdrawn)
    (encodeAttrs (attrs.map FamilyAttr.wire))
    (encodePrefixes (ap.unicast true) nlri)).length ≤ bgpMaxMsgSize

def FamilyUpdate.bytes (u : FamilyUpdate ap) : List UInt8 :=
  bgpUpdate (encodePrefixes (ap.unicast true) u.withdrawn)
    (encodeAttrs (u.attrs.map FamilyAttr.wire)) (encodePrefixes (ap.unicast true) u.nlri)

def classicPrefixes (ap : Modes) (ps : List (Prefix true)) : List PrefixTuple :=
  ps.map (fun p => plain (p.tuple (ap.unicast true)))

/-- The route lists of an UPDATE, without binary addresses: the classic withdrawals come
first, the classic routes last. -/
def FamilyUpdate.lists (stack : VpnTuple) (u : FamilyUpdate ap) : RouteLists :=
  (addAll stack ⟨[], classicPrefixes ap u.withdrawn, [], []⟩ u.attrs).reach
    (classicPrefixes ap u.nlri) []

/-- Every UPDATE of the session is accepted with its route lists. -/
theorem handleUpdate_family {B : Type} (updateDB : ParsedUpdateData D → List B) {m : Mem}
    {data : Nat} (info : PeerInfo) (u : FamilyUpdate (modes info)) (h : Holds m data u.bytes) :
    ∃ parsed info', handleUpdate D updateDB info m data u.bytes.length =
        ⟨false, some parsed, updateDB parsed, info'⟩ ∧ Latches info info' ∧
      routeLists parsed = u.lists D.stackTuple := by
  by_cases some_part : u.withdrawn ≠ [] ∨ u.attrs ≠ [] ∨ u.nlri ≠ []
  · obtain ⟨p, ha, outcome⟩ := handleUpdate_parts updateDB info u.withdrawn u.nlri _
      (by simpa only [ne_eq, encodeAttrs_eq_nil, List.map_eq_nil_iff] using some_part) h u.fits
    let before := withdrawing D info (u.withdrawn.map (Prefix.tuple (info.addPathUnicast true)))
    have session : modes before.info = modes info := rfl
    have lists := parseAttributes_families before session u.attrs ha
    refine ⟨_, _, outcome, parseAttributes_latches m p _ (withdrawing D info _), ?_⟩
    have start : routeLists before.data =
        ⟨[], classicPrefixes (modes info) u.withdrawn, [], []⟩ := by
      simp only [before, routeLists, withdrawing, ParsedUpdateData.empty, List.map_nil,
        List.map_map, classicPrefixes, modes]
      rfl
    rw [start] at lists
    rw [FamilyUpdate.lists, ← lists]
    simp only [routeLists, announce, RouteLists.reach, List.map_append, List.map_map,
      List.append_nil, classicPrefixes, modes]
    rfl
  · simp only [ne_eq, not_or, not_not] at some_part
    obtain ⟨noW, noA, noN⟩ := some_part
    have marker : u.bytes = bgpUpdate [] [] [] := by
      simp [FamilyUpdate.bytes, noW, noA, noN, encodePrefixes, encodeAttrs]
    rw [marker] at h ⊢
    refine ⟨_, _, handleUpdate_endOfRIB updateDB info h, Latches.endOfRIB_set info, ?_⟩
    simp [FamilyUpdate.lists, noW, noA, noN, routeLists, ParsedUpdateData.empty, addAll,
      classicPrefixes, RouteLists.reach]

end SonicBmp.Bgp.FamilyCodec
