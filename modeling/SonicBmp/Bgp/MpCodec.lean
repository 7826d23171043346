/- module: SonicBmp/Bgp/MpCodec
   digest: Multiprotocol unicast attributes, and the route lists left by any attribute list. -/

import SonicBmp.Bgp.AttrCodec

set_option autoImplicit false
set_option relaxedAutoImplicit false

namespace SonicBmp.Bgp.MpCodec

open SonicBmp.Library.Memory
open SonicBmp.Bgp.Common
open SonicBmp.Bgp.Nlri
open SonicBmp.Bgp.Attributes
open SonicBmp.Bgp.AttrCodec

structure MpReach where
  isIPv4 : Bool
  nextHop : List UInt8
  reserved : UInt8
  prefixes : List (Prefix isIPv4)
  nextHop_le : nextHop.length ≤ 255
  some_prefix : prefixes ≠ []

structure MpUnReach where
  isIPv4 : Bool
  prefixes : List (Prefix isIPv4)
  some_prefix : prefixes ≠ []

/-- Which families carry path identifiers. -/
abbrev AddPathModes := Bool → Bool

def MpReach.bytes (ap : AddPathModes) (r : MpReach) : List UInt8 :=
  put16 (bgpAfi r.isIPv4) ++ (put8 bgpSafiUnicast ++ (put8 r.nextHop.length ++
    (r.nextHop ++ (r.reserved :: encodePrefixes (ap r.isIPv4) r.prefixes))))

def MpUnReach.bytes (ap : AddPathModes) (u : MpUnReach) : List UInt8 :=
  put16 (bgpAfi u.isIPv4) ++ (put8 bgpSafiUnicast ++ encodePrefixes (ap u.isIPv4) u.prefixes)

def MpReach.tuples (ap : AddPathModes) (r : MpReach) : List PrefixTuple :=
  r.prefixes.map (Prefix.tuple (ap r.isIPv4))

def MpUnReach.tuples (ap : AddPathModes) (u : MpUnReach) : List PrefixTuple :=
  u.prefixes.map (Prefix.tuple (ap u.isIPv4))

theorem bgpAfi_lt (isIPv4 : Bool) : bgpAfi isIPv4 < 65536 := by cases isIPv4 <;> decide

variable {D : Decoders}

theorem reachAfi_unicast (isIPv4 : Bool) (m : Mem) (nlri : MpReachNlri) (st : UpdateState D)
    (afi : nlri.afi = bgpAfi isIPv4) (safi : nlri.safi = bgpSafiUnicast) :
    reachAfi m nlri st =
      { st with data := { (st.setAttr .nextHop
            (nextHopText isIPv4 m nlri.nextHop nlri.nhLen)).data with
          advertised := parseNlriDataIPv4IPv6 isIPv4 st.info m nlri.nlriData nlri.nlriLen
            st.data.advertised } } := by
  cases isIPv4 <;> simp [reachAfi, afi, bgpAfi, reachIPv4IPv6, safi, UpdateState.setAttr]

theorem unReachAfi_unicast (isIPv4 : Bool) (m : Mem) (nlri : MpUnReachNlri) (st : UpdateState D)
    (afi : nlri.afi = bgpAfi isIPv4) (safi : nlri.safi = bgpSafiUnicast) :
    unReachAfi m nlri st =
      { st with data := { st.data with
          withdrawn := parseNlriDataIPv4IPv6 isIPv4 st.info m nlri.nlriData nlri.nlriLen
            st.data.withdrawn } } := by
  cases isIPv4 <;> simp [unReachAfi, afi, bgpAfi, unReachIPv4IPv6, safi]

theorem parseReachNlriAttr_of_holds {m : Mem} {p : Nat} (r : MpReach) (st : UpdateState D)
    (h : Holds m p (r.bytes st.info.addPathUnicast)) :
    parseReachNlriAttr m (r.bytes st.info.addPathUnicast).length p st =
      { st with data := { (st.setAttr .nextHop
            (nextHopText r.isIPv4 m (p + 4) r.nextHop.length)).data with
          advertised := st.data.advertised ++ r.tuples st.info.addPathUnicast } } := by
  simp only [MpReach.bytes, holds_append, holds_cons, length_put16, length_put8] at h
  obtain ⟨hafi, hsafi, hnh, -, -, hnlri⟩ := h
  have afi := hafi.u16 (bgpAfi_lt r.isIPv4)
  have safi := hsafi.u8 (by decide)
  have nhLen := hnh.u8 (by have := r.nextHop_le; omega)
  have size : (r.bytes st.info.addPathUnicast).length = 5 + r.nextHop.length +
      (encodePrefixes (st.info.addPathUnicast r.isIPv4) r.prefixes).length := by
    simp [MpReach.bytes]
    omega
  simp only [parseReachNlriAttr, afi, safi, nhLen, size]
  rw [if_neg (by omega), reachAfi_unicast r.isIPv4 _ _ _ rfl rfl, Nat.add_sub_cancel_left,
    parseNlriDataIPv4IPv6_roundtrip _ _ _ _ _ hnlri]
  rfl

theorem parseUnReachNlriAttr_of_holds {m : Mem} {p : Nat} (u : MpUnReach) (st : UpdateState D)
    (h : Holds m p (u.bytes st.info.addPathUnicast)) :
    parseUnReachNlriAttr m (u.bytes st.info.addPathUnicast).length p st =
      { st with data := { st.data with
          withdrawn := st.data.withdrawn ++ u.tuples st.info.addPathUnicast } } := by
  simp only [MpUnReach.bytes, holds_append, length_put16, length_put8] at h
  obtain ⟨hafi, hsafi, hnlri⟩ := h
  have afi := hafi.u16 (bgpAfi_lt u.isIPv4)
  have safi := hsafi.u8 (by decide)
  have some_byte : 0 < (encodePrefixes (st.info.addPathUnicast u.isIPv4) u.prefixes).length := by
    rw [List.length_pos_iff, ne_eq, encodePrefixes_eq_nil]
    exact u.some_prefix
  have size : (u.bytes st.info.addPathUnicast).length = 3 +
      (encodePrefixes (st.info.addPathUnicast u.isIPv4) u.prefixes).length := by
    simp [MpUnReach.bytes]
    omega
  simp only [parseUnReachNlriAttr, afi, safi, size]
  rw [if_neg (by omega), if_neg (by omega), unReachAfi_unicast u.isIPv4 _ _ _ rfl rfl,
    Nat.add_sub_cancel_left, parseNlriDataIPv4IPv6_roundtrip _ _ _ _ _ hnlri]
  rfl

/-! Attributes other than these two never touch the route lists. -/

theorem parseAttrData_lists {attrType : Nat} (reach : attrType ≠ 14) (unreach : attrType ≠ 15)
    (m : Mem) (attrLen data : Nat) (st : UpdateState D) :
    (parseAttrData D m attrType attrLen data st).data.advertised = st.data.advertised ∧
      (parseAttrData D m attrType attrLen data st).data.withdrawn = st.data.withdrawn := by
  by_cases linkState : attrType = 29
  · subst linkState
    exact ⟨rfl, rfl⟩
  · obtain ⟨two, attrs, after⟩ := parseAttrData_writes m attrLen data st reach unreach linkState
    rw [after]
    exact ⟨rfl, rfl⟩

/-- An attribute of an UPDATE: one of the two multiprotocol attributes with routes, the
MP_UNREACH without routes that marks the end of a family's RIB, or any other type with
any value. -/
inductive AttrBody
  | reach (r : MpReach)
  | unreach (u : MpUnReach)
  | endOfRib (isIPv4 : Bool)
  | other (code : UInt8) (value : List UInt8) (notMp : code ≠ 14 ∧ code ≠ 15)

def AttrBody.code : AttrBody → UInt8
  | .reach _ => 14
  | .unreach _ | .endOfRib _ => 15
  | .other code _ _ => code

def AttrBody.bytes (ap : AddPathModes) : AttrBody → List UInt8
  | .reach r => r.bytes ap
  | .unreach u => u.bytes ap
  | .endOfRib isIPv4 => put16 (bgpAfi isIPv4) ++ put8 bgpSafiUnicast
  | .other _ value _ => value

def AttrBody.reachable (ap : AddPathModes) : AttrBody → List PrefixTuple
  | .reach r => r.tuples ap
  | _ => []

def AttrBody.unreachable (ap : AddPathModes) : AttrBody → List PrefixTuple
  | .unreach u => u.tuples ap
  | _ => []

def AttrBody.reach? : AttrBody → Option MpReach
  | .reach r => some r
  | _ => none

def AttrBody.unreach? : AttrBody → Option MpUnReach
  | .unreach u => some u
  | _ => none

theorem AttrBody.reachable_eq (ap : AddPathModes) (b : AttrBody) :
    b.reachable ap = b.reach?.toList.flatMap (MpReach.tuples ap) := by
  cases b <;> simp [AttrBody.reachable, AttrBody.reach?]

theorem AttrBody.unreachable_eq (ap : AddPathModes) (b : AttrBody) :
    b.unreachable ap = b.unreach?.toList.flatMap (MpUnReach.tuples ap) := by
  cases b <;> simp [AttrBody.unreachable, AttrBody.unreach?]

structure UpdateAttr (ap : AddPathModes) where
  flags : UInt8
  body : AttrBody
  fits : (body.bytes ap).length < (if attrFlagExtended flags.toNat then 65536 else 256)

def UpdateAttr.wire {ap : AddPathModes} (a : UpdateAttr ap) : PathAttr :=
  ⟨a.flags, a.body.code, a.body.bytes ap, a.fits⟩

/-- The walk appends the announced routes and the withdrawn routes in attribute order. -/
theorem parseAttributes_lists {m : Mem} {data : Nat} {ap : AddPathModes} (st : UpdateState D)
    (modes : st.info.addPathUnicast = ap) (attrs : List (UpdateAttr ap))
    (h : Holds m data (encodeAttrs (attrs.map UpdateAttr.wire))) :
    let after := parseAttributes D m data (encodeAttrs (attrs.map UpdateAttr.wire)).length st
    after.data.advertised =
        st.data.advertised ++ attrs.flatMap (fun a => a.body.reachable ap) ∧
      after.data.withdrawn =
        st.data.withdrawn ++ attrs.flatMap (fun a => a.body.unreachable ap) := by
  have rule := parseAttributes_rule (D := D) UpdateAttr.wire
    (fun seen now => Latches st.info now.info ∧
      now.data.advertised =
        st.data.advertised ++ seen.flatMap (fun a => a.body.reachable ap) ∧
      now.data.withdrawn =
        st.data.withdrawn ++ seen.flatMap (fun a => a.body.unreachable ap)) attrs ?_ ?_ st ?_ data h
  · exact rule.2
  · rintro before ⟨flags, body, fits⟩ after now p here ⟨latches, adv, wdr⟩ _ hvalue
    refine ⟨latches.trans (parseAttrData_latches m _ _ _ now), ?_⟩
    have modes' : now.info.addPathUnicast = ap := by
      rw [← modes]
      exact funext latches.addPathUnicast
    cases body with
    | reach r =>
      have decoded := parseReachNlriAttr_of_holds r now (by rw [modes']; exact hvalue)
      rw [modes'] at decoded
      simp only [UpdateAttr.wire, AttrBody.code, AttrBody.bytes, parseAttrData,
        UInt8.reduceToNat, decoded]
      simp [adv, wdr, AttrBody.reachable, AttrBody.unreachable, UpdateState.setAttr]
    | unreach u =>
      have decoded := parseUnReachNlriAttr_of_holds u now (by rw [modes']; exact hvalue)
      rw [modes'] at decoded
      simp only [UpdateAttr.wire, AttrBody.code, AttrBody.bytes, parseAttrData,
        UInt8.reduceToNat, decoded]
      simp [adv, wdr, AttrBody.reachable, AttrBody.unreachable]
    | endOfRib isIPv4 =>
      simp [UpdateAttr.wire, AttrBody.code, AttrBody.bytes, parseAttrData, parseUnReachNlriAttr,
        adv, wdr, AttrBody.reachable, AttrBody.unreachable]
    | other code value notMp =>
      have codes (c : UInt8) (hc : code ≠ c) : code.toNat ≠ c.toNat :=
        fun e => hc (UInt8.toNat_inj.mp e)
      have lists := parseAttrData_lists (codes 14 notMp.1) (codes 15 notMp.2) m value.length p now
      simp [UpdateAttr.wire, AttrBody.code, AttrBody.bytes, lists, adv, wdr,
        AttrBody.reachable, AttrBody.unreachable]
  · rintro before ⟨flags, body, fits⟩ after now here ⟨latches, adv, wdr⟩ empty
    refine ⟨latches, ?_⟩
    cases body with
    | reach r => simp [UpdateAttr.wire, AttrBody.bytes, MpReach.bytes, put16] at empty
    | unreach u => simp [UpdateAttr.wire, AttrBody.bytes, MpUnReach.bytes, put16] at empty
    | endOfRib isIPv4 => simp [UpdateAttr.wire, AttrBody.bytes, put16] at empty
    | other code value notMp => simp [adv, wdr, AttrBody.reachable, AttrBody.unreachable]
  · exact ⟨Latches.refl _, by simp, by simp⟩

end SonicBmp.Bgp.MpCodec
