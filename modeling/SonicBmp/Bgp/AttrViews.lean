/- module: SonicBmp/Bgp/AttrViews
   digest: The attribute walk as a fold, and the parts of the state each attribute type touches. -/

import SonicBmp.Bgp.AttrExtent
import SonicBmp.Library.Views

set_option autoImplicit false
set_option relaxedAutoImplicit false

namespace SonicBmp.Bgp.AttrViews

open SonicBmp.Library.Memory
open SonicBmp.Library.Printing (Text)
open SonicBmp.Library.Views
open SonicBmp.Bgp.Common
open SonicBmp.Bgp.Nlri
open SonicBmp.Bgp.Attributes
open SonicBmp.Bgp.AttrCodec
open SonicBmp.Bgp.AttrExtent

variable {D : Decoders}

/-! The walk over well-formed attributes as a fold. -/

/-- What an attribute does wherever it stands; an empty value is passed over. -/
def decode (st : UpdateState D) (a : PathAttr) : UpdateState D :=
  if a.value = [] then st
  else parseAttrData D (memOf a.value) a.code.toNat a.value.length 0 st

theorem parseAttributes_decode {info : PeerInfo} (attrs : List PathAttr)
    (wellFormed : ∀ a ∈ attrs, WellFormed D info a) (st : UpdateState D)
    (session : st.info.addPathCapability = info.addPathCapability) {m : Mem} {data : Nat}
    (h : Holds m data (encodeAttrs attrs)) :
    parseAttributes D m data (encodeAttrs attrs).length st = attrs.foldl decode st := by
  have walked := parseAttributes_rule id
    (fun seen now => now = seen.foldl decode st ∧ Latches st.info now.info) attrs ?_ ?_ st
    ⟨rfl, Latches.refl _⟩ data (by simpa using h)
  · simpa using walked.1
  · rintro before a after now p here ⟨folded, latches⟩ some_byte hvalue
    refine ⟨?_, latches.trans (parseAttrData_latches m _ _ _ now)⟩
    simp only [id_eq] at some_byte hvalue
    have alike := wellFormed a (by simp [here]) now (latches.addPathCapability.trans session)
      m p _ 0 hvalue (holds_memOf a.value)
    rw [id_eq, alike, folded, List.foldl_append, List.foldl_cons, List.foldl_nil, decode,
      if_neg some_byte]
  · rintro before a after now here ⟨folded, latches⟩ empty
    refine ⟨?_, latches⟩
    simp only [id_eq] at empty
    rw [folded, List.foldl_append, List.foldl_cons, List.foldl_nil, decode, if_pos empty]

/-! Parts of the state that one or two types touch. -/

def pathView (st : UpdateState D) : Bool × Option Text × Option Text × Option Text :=
  (st.info.using2OctetAsn, st.data.attrs .asPath, st.data.attrs .internalAsCount,
    st.data.attrs .internalAsOrigin)

def reachView (st : UpdateState D) :
    AddPathMap × List PrefixTuple × List VpnTuple × List EvpnTuple × D.LsData :=
  (st.info.addPathCapability, st.data.advertised, st.data.vpn, st.data.evpn, st.data.ls)

def unReachView (st : UpdateState D) :
    AddPathMap × List PrefixTuple × List VpnTuple × List EvpnTuple × D.LsData :=
  (st.info.addPathCapability, st.data.withdrawn, st.data.vpnWithdrawn, st.data.evpnWithdrawn,
    st.data.lsWithdrawn)

def hopView (st : UpdateState D) : Option Text × D.LsData :=
  (st.data.attrs .nextHop, st.data.ls)

def linkStateView (st : UpdateState D) : D.LsData × D.LsAttrs := (st.data.ls, st.data.lsAttrs)

section Touch

variable {τ : Type} {view : UpdateState D → τ}

theorem touches_decode {touch : UInt8 → Bool}
    (own : ∀ code m len p s s', touch code = true → view s = view s' →
      view (parseAttrData D m code.toNat len p s) = view (parseAttrData D m code.toNat len p s'))
    (frame : ∀ code m len p s, touch code = false →
      view (parseAttrData D m code.toNat len p s) = view s) :
    Touches decode view (fun a => touch a.code) where
  own a s s' touched same := by
    unfold decode
    split
    · exact same
    · exact own _ _ _ _ s s' touched same
  frame a s untouched := by
    unfold decode
    split
    · rfl
    · exact frame _ _ _ _ s untouched

theorem touches_code (c : UInt8)
    (own : ∀ m len p s s', view s = view s' →
      view (parseAttrData D m c.toNat len p s) = view (parseAttrData D m c.toNat len p s'))
    (frame : ∀ code : Nat, code ≠ c.toNat → ∀ m len p s,
      view (parseAttrData D m code len p s) = view s) :
    Touches decode view (fun a => decide (a.code = c)) := by
  refine @touches_decode D τ view (fun code => decide (code = c)) ?_ ?_
  · intro code m len p s s' touched same
    rw [of_decide_eq_true touched]
    exact own m len p s s' same
  · intro code m len p s untouched
    exact frame _ (fun e => of_decide_eq_false untouched (UInt8.toNat_inj.mp e)) m len p s

theorem touches_codes (c d : UInt8)
    (ownC : ∀ m len p s s', view s = view s' →
      view (parseAttrData D m c.toNat len p s) = view (parseAttrData D m c.toNat len p s'))
    (ownD : ∀ m len p s s', view s = view s' →
      view (parseAttrData D m d.toNat len p s) = view (parseAttrData D m d.toNat len p s'))
    (frame : ∀ code : Nat, code ≠ c.toNat → code ≠ d.toNat → ∀ m len p s,
      view (parseAttrData D m code len p s) = view s) :
    Touches decode view (fun a => decide (a.code = c ∨ a.code = d)) := by
  refine @touches_decode D τ view (fun code => decide (code = c ∨ code = d)) ?_ ?_
  · intro code m len p s s' touched same
    rcases of_decide_eq_true touched with rfl | rfl
    · exact ownC m len p s s' same
    · exact ownD m len p s s' same
  · intro code m len p s untouched
    have other := not_or.mp (of_decide_eq_false untouched)
    exact frame _ (fun e => other.1 (UInt8.toNat_inj.mp e))
      (fun e => other.2 (UInt8.toNat_inj.mp e)) m len p s

end Touch

theorem touches_key {key : UpdateAttrType} (notPath : keyCode key ≠ 2) (notHop : key ≠ .nextHop) :
    Touches decode (fun st : UpdateState D => st.data.attrs key)
      (fun a => decide (a.code = keyCode key)) := by
  refine touches_code _ ?_ ?_
  · intro m len p s s' same
    have set (text : Text) : (s.setAttr key text).data.attrs key =
        (s'.setAttr key text).data.attrs key := by simp [UpdateState.setAttr]
    cases key with
    | asPath | internalAsCount | internalAsOrigin => exact absurd rfl notPath
    | nextHop => exact absurd rfl notHop
    | aggregator =>
      change (parseAttrAggegator D m len p s).data.attrs _ =
        (parseAttrAggegator D m len p s').data.attrs _
      unfold parseAttrAggegator
      split
      · exact set _
      · exact set _
      · exact same
    | extCommunity =>
      change (parseAttrData D m 16 len p s).data.attrs _ =
        (parseAttrData D m 16 len p s').data.attrs _
      unfold parseAttrData
      cases D.parseExtCommunities m len p with
      | none => exact same
      | some text => exact set text
    | largeCommunity =>
      change (parseAttrData D m 32 len p s).data.attrs _ =
        (parseAttrData D m 32 len p s').data.attrs _
      unfold parseAttrData
      by_cases long : 12 ≤ len
      · simp only [if_pos long]
        exact set _
      · simp only [if_neg long]
        exact same
    | _ => exact set _
  · intro code other m len p s
    exact parseAttrData_frame other (fun isHop => absurd isHop notHop) m len p s

/-- An attempt keeps the map, fails, or writes the three entries, whatever the map. -/
private theorem asPathAttempt_cases (size : Nat) (m : Mem) (len p : Nat) :
    (∀ attrs, asPathAttempt size m len p attrs = some attrs) ∨
      (∀ attrs, asPathAttempt size m len p attrs = none) ∨
      ∃ acc : AsPathAcc, ∀ attrs, asPathAttempt size m len p attrs =
        some (Function.update (Function.update (Function.update attrs .asPath (some acc.text))
          .internalAsCount (some (Library.Printing.decimal acc.count))) .internalAsOrigin
            (some (Library.Printing.decimal acc.asn))) := by
  unfold asPathAttempt
  by_cases short : len < size
  · exact Or.inl (fun attrs => if_pos short)
  · simp only [if_neg short]
    cases asPathLoop size m len p ⟨[], 0, 0⟩ with
    | none => exact Or.inr (Or.inl (fun attrs => rfl))
    | some acc => exact Or.inr (Or.inr ⟨acc, fun attrs => rfl⟩)

theorem touches_path : Touches decode (pathView (D := D)) (fun a => decide (a.code = 2)) := by
  refine touches_code 2 ?_ ?_
  · intro m len p s s' same
    change pathView (parseAttrAsPath D m len p s) = pathView (parseAttrAsPath D m len p s')
    simp only [pathView, Prod.mk.injEq] at same
    obtain ⟨width, path, count, origin⟩ := same
    simp only [parseAttrAsPath, width]
    rcases asPathAttempt_cases (if s'.info.using2OctetAsn then 2 else 4) m len p with
      kept | failed | ⟨acc, read⟩
    · simp only [kept, pathView, width, path, count, origin]
    · simp only [failed]
      -- the second attempt
      rcases asPathAttempt_cases 2 m len p with kept | failed | ⟨acc, read⟩
      · simp only [kept, Option.getD_some]
        split <;> simp only [pathView, width, path, count, origin]
      · simp only [failed, Option.getD_none]
        split <;> simp only [pathView, width, path, count, origin]
      · simp only [read, Option.getD_some]
        split
        · simp only [pathView, width, path, count, origin]
        · rfl
    · simp only [read, pathView, width]
      rfl
  · intro code other m len p s
    have entry (key : UpdateAttrType) (own : (keyCode key).toNat = 2) (notHop : key ≠ .nextHop) :
        (parseAttrData D m code len p s).data.attrs key = s.data.attrs key :=
      parseAttrData_frame (by rw [own]; exact other) (fun isHop => absurd isHop notHop) m len p s
    simp only [pathView, parseAttrData_width other, entry .asPath rfl (by decide),
      entry .internalAsCount rfl (by decide), entry .internalAsOrigin rfl (by decide)]

/-- What no type but one writes, an attribute of another type leaves alone. -/
private theorem frame_of_writes {τ : Type} {view : UpdateState D → τ} {code : Nat} (m : Mem)
    (len p : Nat) (s : UpdateState D)
    (reach : code = 14 → ∀ after, ReachWrites s after → view after = view s)
    (unreach : code = 15 → ∀ after, UnReachWrites s after → view after = view s)
    (linkState : code = 29 → ∀ lsAttrs,
      view { s with data := { s.data with lsAttrs := lsAttrs } } = view s)
    (other : ∀ after, MapWrites s after → view after = view s) :
    view (parseAttrData D m code len p s) = view s := by
  by_cases isReach : code = 14
  · subst isReach
    exact reach rfl _ (parseReachNlriAttr_writes m len p s)
  by_cases isUnReach : code = 15
  · subst isUnReach
    exact unreach rfl _ (parseUnReachNlriAttr_writes m len p s)
  by_cases isLinkState : code = 29
  · subst isLinkState
    exact linkState rfl _
  exact other _ (parseAttrData_writes m len p s isReach isUnReach isLinkState)

private theorem reachView_frame {code : Nat} (other : code ≠ 14) (m : Mem) (len p : Nat)
    (s : UpdateState D) : reachView (parseAttrData D m code len p s) = reachView s := by
  refine frame_of_writes m len p s (fun e => absurd e other) ?_ (fun _ _ => rfl) ?_
  · rintro - _ ⟨_, _, _, _, _, rfl⟩
    rfl
  · rintro _ ⟨_, _, rfl⟩
    rfl

/-- A function that agrees on both branches of a test agrees on the test. -/
private theorem apply_ite_congr {α β : Type} (f : α → β) {c : Prop} [Decidable c] {a a' b b' : α}
    (h : f a = f a') (h' : f b = f b') :
    f (if c then a else b) = f (if c then a' else b') := by
  split
  · exact h
  · exact h'

section Nlri

variable {s s' : UpdateState D} (modes : s.info.addPathCapability = s'.info.addPathCapability)
variable (isIPv4 : Bool) (m : Mem) (data len : Nat)

include modes

private theorem parseNlriDataIPv4IPv6_modes (prefixes : List PrefixTuple) :
    parseNlriDataIPv4IPv6 isIPv4 s.info m data len prefixes =
      parseNlriDataIPv4IPv6 isIPv4 s'.info m data len prefixes := by
  simp only [parseNlriDataIPv4IPv6, PeerInfo.addPathUnicast, modes]

private theorem parseNlriDataLabelIPv4IPv6_modes (isVPN : Bool) (stack : VpnTuple) :
    parseNlriDataLabelIPv4IPv6 isIPv4 isVPN stack s.info m data len =
      parseNlriDataLabelIPv4IPv6 isIPv4 isVPN stack s'.info m data len := by
  simp only [parseNlriDataLabelIPv4IPv6, modes]

end Nlri

theorem touches_reach : Touches decode (reachView (D := D)) (fun a => decide (a.code = 14)) := by
  refine touches_code 14 ?_ ?_
  · intro m len p s s' same
    change reachView (parseReachNlriAttr m len p s) = reachView (parseReachNlriAttr m len p s')
    have family (isIPv4 : Bool) (nlri : MpReachNlri) :
        reachView (reachIPv4IPv6 isIPv4 m nlri s) = reachView (reachIPv4IPv6 isIPv4 m nlri s') := by
      simp only [reachView, Prod.mk.injEq] at same
      obtain ⟨modes, advertised, vpn, evpn, ls⟩ := same
      unfold reachIPv4IPv6
      refine apply_ite_congr reachView ?_ (apply_ite_congr reachView ?_
        (apply_ite_congr reachView ?_ ?_))
      all_goals simp only [reachView, UpdateState.setAttr, parseNlriDataIPv4IPv6_modes modes,
        parseNlriDataLabelIPv4IPv6_modes modes, modes, advertised, vpn, evpn, ls]
    unfold parseReachNlriAttr reachAfi
    refine apply_ite_congr reachView same (apply_ite_congr reachView (family false _)
      (apply_ite_congr reachView (family true _) (apply_ite_congr reachView ?_
        (apply_ite_congr reachView (apply_ite_congr reachView ?_ ?_) same))))
    all_goals
      simp only [reachView, Prod.mk.injEq] at same
      obtain ⟨modes, advertised, vpn, evpn, ls⟩ := same
      simp only [reachView, UpdateState.setAttr, modes, advertised, vpn, evpn, ls]
  · intro code other m len p s
    exact reachView_frame other m len p s

theorem touches_unReach : Touches decode (unReachView (D := D)) (fun a => decide (a.code = 15)) := by
  refine touches_code 15 ?_ ?_
  · intro m len p s s' same
    change unReachView (parseUnReachNlriAttr m len p s) = unReachView (parseUnReachNlriAttr m len p s')
    have family (isIPv4 : Bool) (nlri : MpUnReachNlri) :
        unReachView (unReachIPv4IPv6 isIPv4 m nlri s) =
          unReachView (unReachIPv4IPv6 isIPv4 m nlri s') := by
      simp only [unReachView, Prod.mk.injEq] at same
      obtain ⟨modes, withdrawn, vpn, evpn, ls⟩ := same
      unfold unReachIPv4IPv6
      refine apply_ite_congr unReachView ?_ (apply_ite_congr unReachView ?_
        (apply_ite_congr unReachView ?_ ?_))
      all_goals simp only [unReachView, parseNlriDataIPv4IPv6_modes modes,
        parseNlriDataLabelIPv4IPv6_modes modes, modes, withdrawn, vpn, evpn, ls]
    unfold parseUnReachNlriAttr unReachAfi
    refine apply_ite_congr unReachView same (apply_ite_congr unReachView same
      (apply_ite_congr unReachView (family false _) (apply_ite_congr unReachView (family true _)
        (apply_ite_congr unReachView ?_ (apply_ite_congr unReachView ?_ same)))))
    all_goals
      simp only [unReachView, Prod.mk.injEq] at same
      obtain ⟨modes, withdrawn, vpn, evpn, ls⟩ := same
      simp only [unReachView, modes, withdrawn, vpn, evpn, ls]
  · intro code other m len p s
    refine frame_of_writes m len p s ?_ (fun e => absurd e other) (fun _ _ => rfl) ?_
    · rintro - _ ⟨_, _, _, _, _, rfl⟩
      rfl
    · rintro _ ⟨_, _, rfl⟩
      rfl

/-! The next hop and the link-state lists that an MP_REACH leaves. -/

section Reach

variable (D) (m : Mem) (attrLen data : Nat)

/-- The header fields, as `parseReachNlriAttr` reads them. -/
def mpReachNlri : MpReachNlri :=
  let nhLen := u8 m (data + 3)
  { afi := u16 m data, safi := u8 m (data + 2), nhLen := nhLen, nextHop := data + 4,
    nlriData := data + 4 + nhLen + 1, nlriLen := attrLen - (5 + nhLen) }

def hopIPv4IPv6 (isIPv4 : Bool) (nlri : MpReachNlri) : Option Text :=
  if nlri.safi = bgpSafiUnicast then some (nextHopText isIPv4 m nlri.nextHop nlri.nhLen)
  else if nlri.safi = bgpSafiNlriLabel then some (nextHopText isIPv4 m nlri.nextHop nlri.nhLen)
  else if nlri.safi = bgpSafiMpls then
    some (nextHopText isIPv4 m (if isIPv4 then nlri.nextHop + 8 else nlri.nextHop)
      (if isIPv4 then (nlri.nhLen + 256 - 8) % 256 else nlri.nhLen))
  else none

/-- The next hop it stores, if its family is one that has it stored. -/
def reachHop (ls : D.LsData) : Option Text :=
  let nlri := mpReachNlri m attrLen data
  if attrLen < 5 + nlri.nhLen then none
  else if nlri.afi = bgpAfi false then hopIPv4IPv6 m false nlri
  else if nlri.afi = bgpAfi true then hopIPv4IPv6 m true nlri
  else if nlri.afi = bgpAfiBgpls then some (D.parseReachLinkState m nlri ls).1
  else if nlri.afi = bgpAfiL2vpn then
    some (nextHopText (nlri.nhLen = 4) m nlri.nextHop nlri.nhLen)
  else none

def reachLinkState (ls : D.LsData) : D.LsData :=
  let nlri := mpReachNlri m attrLen data
  if attrLen < 5 + nlri.nhLen then ls
  else if nlri.afi = bgpAfiBgpls then (D.parseReachLinkState m nlri ls).2
  else ls

variable {D}

private theorem reachIPv4IPv6_hop (isIPv4 : Bool) (nlri : MpReachNlri) (st : UpdateState D) :
    hopView (reachIPv4IPv6 isIPv4 m nlri st) =
      ((hopIPv4IPv6 m isIPv4 nlri).or (st.data.attrs .nextHop), st.data.ls) := by
  unfold reachIPv4IPv6 hopIPv4IPv6
  split
  · rfl
  · split
    · rfl
    · split <;> rfl

theorem parseReachNlriAttr_hop (st : UpdateState D) :
    hopView (parseReachNlriAttr m attrLen data st) =
      ((reachHop D m attrLen data st.data.ls).or (st.data.attrs .nextHop),
        reachLinkState D m attrLen data st.data.ls) := by
  change hopView (if attrLen < 5 + (mpReachNlri m attrLen data).nhLen then st
    else reachAfi m (mpReachNlri m attrLen data) st) = _
  unfold reachHop reachLinkState reachAfi
  generalize mpReachNlri m attrLen data = nlri
  by_cases short : attrLen < 5 + nlri.nhLen
  · simp only [if_pos short]
    rfl
  simp only [if_neg short]
  by_cases v6 : nlri.afi = bgpAfi false
  · have notLs : ¬ bgpAfi false = bgpAfiBgpls := by decide
    simp only [v6, if_true, if_neg notLs]
    exact reachIPv4IPv6_hop m false nlri st
  by_cases v4 : nlri.afi = bgpAfi true
  · have notLs : ¬ bgpAfi true = bgpAfiBgpls := by decide
    have notV6 : ¬ bgpAfi true = bgpAfi false := by decide
    simp only [v4, if_true, if_neg notLs, if_neg notV6]
    exact reachIPv4IPv6_hop m true nlri st
  simp only [if_neg v6, if_neg v4]
  by_cases isLs : nlri.afi = bgpAfiBgpls
  · simp only [if_pos isLs]
    rfl
  simp only [if_neg isLs]
  by_cases l2 : nlri.afi = bgpAfiL2vpn
  · simp only [if_pos l2]
    split <;> rfl
  · simp only [if_neg l2]
    rfl

end Reach

theorem touches_hop :
    Touches decode (hopView (D := D)) (fun a => decide (a.code = 3 ∨ a.code = 14)) := by
  refine touches_codes 3 14 ?_ ?_ ?_
  · intro m len p s s' same
    have ls : s.data.ls = s'.data.ls := congrArg Prod.snd same
    exact Prod.ext (by simp [hopView, parseAttrData, UpdateState.setAttr]) ls
  · intro m len p s s' same
    change hopView (parseReachNlriAttr m len p s) = hopView (parseReachNlriAttr m len p s')
    simp only [hopView, Prod.mk.injEq] at same
    rw [parseReachNlriAttr_hop, parseReachNlriAttr_hop, same.1, same.2]
  · intro code notHop notReach m len p s
    have ls := congrArg (fun view => view.2.2.2.2) (reachView_frame notReach m len p s)
    exact Prod.ext (parseAttrData_frame notHop (fun _ => notReach) m len p s) ls

theorem touches_linkState :
    Touches decode (linkStateView (D := D)) (fun a => decide (a.code = 14 ∨ a.code = 29)) := by
  refine touches_codes 14 29 ?_ ?_ ?_
  · intro m len p s s' same
    change linkStateView (parseReachNlriAttr m len p s) = linkStateView (parseReachNlriAttr m len p s')
    have lists (s : UpdateState D) := congrArg Prod.snd (parseReachNlriAttr_hop m len p s)
    have kept (s : UpdateState D) :
        (parseReachNlriAttr m len p s).data.lsAttrs = s.data.lsAttrs := by
      obtain ⟨hop, advertised, vpn, evpn, ls, after⟩ := parseReachNlriAttr_writes m len p s
      rw [after]
    simp only [linkStateView, Prod.mk.injEq] at same
    simp only [hopView] at lists
    simp only [linkStateView, lists, kept, same]
  · intro m len p s s' same
    simp only [linkStateView, Prod.mk.injEq] at same
    exact Prod.ext same.1 (congrArg₂ (D.parseAttrLinkState m len p) same.1 same.2)
  · intro code notReach notLs m len p s
    have ls := congrArg (fun view => view.2.2.2.2) (reachView_frame notReach m len p s)
    refine Prod.ext ls (@frame_of_writes D _ (fun st => st.data.lsAttrs) code m len p s
      (fun e => absurd e notReach) ?_ (fun e => absurd e notLs) ?_)
    · rintro - _ ⟨_, _, _, _, _, rfl⟩
      rfl
    · rintro _ ⟨_, _, rfl⟩
      rfl

end SonicBmp.Bgp.AttrViews
