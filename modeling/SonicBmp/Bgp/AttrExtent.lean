/- module: SonicBmp/Bgp/AttrExtent
   digest: Attributes that are decoded from the bytes of their value alone. -/

import SonicBmp.Bgp.FamilyCodec

set_option autoImplicit false
set_option relaxedAutoImplicit false

namespace SonicBmp.Bgp.AttrExtent

open SonicBmp.Library.Memory
open SonicBmp.Library.Loop (strideLoop_congr)
open SonicBmp.Library.Printing (Text decimal)
open SonicBmp.Bgp.Common
open SonicBmp.Bgp.Nlri
open SonicBmp.Bgp.Attributes
open SonicBmp.Bgp.AttrCodec
open SonicBmp.Bgp.FamilyCodec

/-- The decoder of its type finds all that its result depends on inside the value: two
places that hold the value are decoded alike, whatever surrounds them. -/
def WellFormed (D : Decoders) (info : PeerInfo) (a : PathAttr) : Prop :=
  ∀ st : UpdateState D, st.info.addPathCapability = info.addPathCapability →
    ∀ m p m' p', Holds m p a.value → Holds m' p' a.value →
      parseAttrData D m a.code.toNat a.value.length p st =
        parseAttrData D m' a.code.toNat a.value.length p' st

/-! What the decoders read. -/

section Decoders

variable {m m' : Mem} {p p' n : Nat}

theorem ipv4Text_congr (same : SameBytes n m p m' p') (i : Nat) (inside : i + 4 ≤ n) :
    ipv4Text m (p + i) = ipv4Text m' (p' + i) := by
  unfold ipv4Text
  rw [same.within i 4 inside]

private theorem asPathAsns_congr (w : AsnWidth) (segLen : Nat) (acc : AsPathAcc)
    (same : SameBytes (segLen * w.size) m p m' p') :
    asPathAsns w.size m segLen p acc = asPathAsns w.size m' segLen p' acc := by
  induction segLen generalizing p p' acc with
  | zero => rfl
  | succ segLen ih =>
    rw [Nat.add_mul, Nat.one_mul] at same
    have first : asnAt w.size m p = asnAt w.size m' p' := by
      cases w with
      | two => exact same.u16 0 (by simp only [AsnWidth.size]; omega)
      | four => exact same.u32 0 (by simp only [AsnWidth.size]; omega)
    simp only [asPathAsns, first]
    exact ih _ (same.within w.size _ (by omega))

/-- A segment that runs past the attribute is given up before its ASNs are read, and so
is one whose own length octet lies outside. -/
theorem asPathLoop_congr (w : AsnWidth) (pathLen : Nat) (acc : AsPathAcc)
    (same : SameBytes pathLen m p m' p') :
    asPathLoop w.size m pathLen p acc = asPathLoop w.size m' pathLen p' acc := by
  induction pathLen using Nat.strongRecOn generalizing p p' acc with
  | ind pathLen ih =>
    conv_lhs => rw [asPathLoop]
    conv_rhs => rw [asPathLoop]
    by_cases more : 0 < pathLen
    · rw [if_pos more, if_pos more]
      have type : u8 m p = u8 m' p' := same.u8 0 more
      by_cases two : 2 ≤ pathLen
      · have count : u8 m (p + 1) = u8 m' (p' + 1) := same.u8 1 two
        simp only [type, count]
        split
        · rfl
        · rename_i fits
          rw [asPathAsns_congr w _ _ (same.within 2 _ (by omega)), Nat.add_assoc, Nat.add_assoc p']
          exact ih _ (by omega) _ (same.within (2 + u8 m' (p' + 1) * w.size) _ (by omega))
      · simp only [if_pos (show pathLen < 2 + u8 m (p + 1) * w.size by omega),
          if_pos (show pathLen < 2 + u8 m' (p' + 1) * w.size by omega)]
    · rw [if_neg more, if_neg more]

variable {D : Decoders}

theorem parseAttrAsPath_congr (attrLen : Nat) (same : SameBytes attrLen m p m' p')
    (st : UpdateState D) :
    parseAttrAsPath D m attrLen p st = parseAttrAsPath D m' attrLen p' st := by
  have attempt (w : AsnWidth) (attrs : ParsedAttrsMap) :
      asPathAttempt w.size m attrLen p attrs = asPathAttempt w.size m' attrLen p' attrs := by
    unfold asPathAttempt
    rw [asPathLoop_congr w attrLen _ same]
  have size : (if st.info.using2OctetAsn then 2 else 4) =
      AsnWidth.size (if st.info.using2OctetAsn then .two else .four) := by
    split <;> rfl
  have two : asPathAttempt 2 m attrLen p = asPathAttempt 2 m' attrLen p' := funext (attempt .two)
  simp only [parseAttrAsPath, size, attempt, two]

theorem parseAttrAggegator_congr (attrLen : Nat) (same : SameBytes attrLen m p m' p')
    (st : UpdateState D) :
    parseAttrAggegator D m attrLen p st = parseAttrAggegator D m' attrLen p' st := by
  unfold parseAttrAggegator
  split
  · have asn : u32 m p = u32 m' p' := same.u32 0 (by omega)
    rw [asn, ipv4Text_congr same 4 (by omega)]
  · have asn : u16 m p = u16 m' p' := same.u16 0 (by omega)
    rw [asn, ipv4Text_congr same 2 (by omega)]
  · rfl

theorem inside_of_dvd {stride i len : Nat} (whole : stride ∣ len) (at_i : stride ∣ i)
    (more : i < len) : i + stride ≤ len := by
  obtain ⟨k, rfl⟩ := whole
  obtain ⟨j, rfl⟩ := at_i
  have less : j < k := lt_of_mul_lt_mul_left more (Nat.zero_le stride)
  calc stride * j + stride = stride * (j + 1) := by ring
    _ ≤ stride * k := Nat.mul_le_mul_left stride less

theorem clusterListText_congr (attrLen : Nat) (whole : 4 ∣ attrLen)
    (same : SameBytes attrLen m p m' p') :
    clusterListText m attrLen p = clusterListText m' attrLen p' := by
  unfold clusterListText
  refine strideLoop_congr (fun i text more at_i => ?_) 0 [] (dvd_zero 4)
  rw [ipv4Text_congr same i (inside_of_dvd whole at_i more)]

theorem communityListText_congr {entry : Mem → Nat → Text} {stride attrLen : Nat}
    (reads : ∀ q q', SameBytes stride m q m' q' → entry m q = entry m' q')
    (whole : stride ∣ attrLen) (same : SameBytes attrLen m p m' p') :
    communityListText entry stride m attrLen p = communityListText entry stride m' attrLen p' := by
  unfold communityListText
  refine strideLoop_congr (fun i text more at_i => ?_) 0 [] (dvd_zero stride)
  rw [reads _ _ (same.within i stride (inside_of_dvd whole at_i more))]

theorem communityText_congr (same : SameBytes 4 m p m' p') :
    communityText m p = communityText m' p' := by
  have hi : u16 m p = u16 m' p' := same.u16 0 (by omega)
  simp only [communityText, hi, same.u16 2 (by omega)]

theorem largeCommunityText_congr (same : SameBytes 12 m p m' p') :
    largeCommunityText m p = largeCommunityText m' p' := by
  have first : u32 m p = u32 m' p' := same.u32 0 (by omega)
  simp only [largeCommunityText, first, same.u32 4 (by omega), same.u32 8 (by omega)]

theorem nextHopText_congr (isIPv4 : Bool) (nhLen : Nat) (same : SameBytes nhLen m p m' p') :
    nextHopText isIPv4 m p nhLen = nextHopText isIPv4 m' p' nhLen := by
  have read : readBytes m p (min nhLen 16) = readBytes m' p' (min nhLen 16) :=
    same.within 0 (min nhLen 16) (by omega)
  simp only [nextHopText, copyRaw, read]

end Decoders

/-! Formats. -/

/-- The distinguisher before the next hop of a VPNv4 route. -/
def HopDistinguished (r : FamilyReach) : Prop :=
  r.isIPv4 = true → r.routes.safi = bgpSafiMpls → 8 ≤ r.nextHop.length

/-- The formats of the attribute types, as far as their decoders are not parameters: a
fixed size, whole entries, or encoded routes. An AS path and an aggregator are read inside
any value, and types without a decoder are not read at all. -/
def Formed (ap : Modes) (a : PathAttr) : Prop :=
  match a.code.toNat with
  | 1 => a.value.length = 1
  | 3 | 4 | 5 | 9 => a.value.length = 4
  | 8 | 10 => 4 ∣ a.value.length
  | 32 => 12 ∣ a.value.length
  | 14 => ∃ r : FamilyReach, a.value = r.bytes ap ∧ HopDistinguished r
  | 15 => ∃ u : FamilyUnReach, a.value = u.bytes ap
  | 16 | 29 => False
  | _ => True

section Formats

variable {D : Decoders}

theorem Routes.hopText_congr {isIPv4 : Bool} (r : Routes isIPv4) {m m' : Mem} {p p' nhLen : Nat}
    (same : SameBytes nhLen m p m' p')
    (long : isIPv4 = true → r.safi = bgpSafiMpls → 8 ≤ nhLen) (small : nhLen ≤ 255) :
    r.hopText m p nhLen = r.hopText m' p' nhLen := by
  cases r with
  | unicast ps => exact nextHopText_congr isIPv4 nhLen same
  | labelled es => exact nextHopText_congr isIPv4 nhLen same
  | vpn es =>
    cases isIPv4 with
    | false => exact nextHopText_congr false nhLen same
    | true =>
      have eight := long rfl rfl
      have rest : (nhLen + 256 - 8) % 256 = nhLen - 8 := by omega
      simp only [Routes.hopText, rest]
      exact nextHopText_congr true (nhLen - 8) (same.within 8 (nhLen - 8) (by omega))

theorem parseReachNlriAttr_congr (r : FamilyReach) (long : HopDistinguished r)
    (st : UpdateState D) {m m' : Mem} {p p' : Nat} (h : Holds m p (r.bytes (modes st.info)))
    (h' : Holds m' p' (r.bytes (modes st.info))) :
    parseReachNlriAttr m (r.bytes (modes st.info)).length p st =
      parseReachNlriAttr m' (r.bytes (modes st.info)).length p' st := by
  have size : 4 + r.nextHop.length ≤ (r.bytes (modes st.info)).length := by
    simp [FamilyReach.bytes]
    omega
  rw [parseReachNlriAttr_family r st h, parseReachNlriAttr_family r st h',
    Routes.hopText_congr r.routes ((h.sameBytes h').within 4 _ size) long r.nextHop_le]

/-- Every attribute of these formats is decoded from its own bytes. -/
theorem Formed.wellFormed {info : PeerInfo} {a : PathAttr} (formed : Formed (modes info) a) :
    WellFormed D info a := by
  intro st session m p m' p' h h'
  have same := h.sameBytes h'
  unfold Formed at formed
  generalize a.code.toNat = code at formed ⊢
  split at formed
  · exact congrArg (st.setAttr .origin <| originText ·) (same.u8 0 (by omega))
  · exact congrArg (st.setAttr .nextHop) (ipv4Text_congr same 0 (by omega))
  · exact congrArg (st.setAttr .med <| decimal ·) (same.u32 0 (by omega))
  · exact congrArg (st.setAttr .localPref <| decimal ·) (same.u32 0 (by omega))
  · exact congrArg (st.setAttr .originatorId) (ipv4Text_congr same 0 (by omega))
  · exact congrArg (st.setAttr .communities)
      (communityListText_congr (fun _ _ => communityText_congr) formed same)
  · exact congrArg (st.setAttr .clusterList) (clusterListText_congr _ formed same)
  · have text := communityListText_congr (fun _ _ => largeCommunityText_congr) formed same
    simp only [parseAttrData, text]
  · obtain ⟨r, value, long⟩ := formed
    rw [value, ← modes_congr session] at h h' ⊢
    exact parseReachNlriAttr_congr r long st h h'
  · obtain ⟨u, value⟩ := formed
    rw [value, ← modes_congr session] at h h' ⊢
    exact (parseUnReachNlriAttr_family u st h).trans (parseUnReachNlriAttr_family u st h').symm
  · exact formed.elim
  · exact formed.elim
  · -- what is left reads nothing, or the AS path or the aggregator
    unfold parseAttrData
    split <;> try contradiction
    · exact parseAttrAsPath_congr _ same st
    · rfl
    · exact parseAttrAggegator_congr _ same st
    · rfl

end Formats

end SonicBmp.Bgp.AttrExtent
