/- module: SonicBmp/Bgp/AttrOrder
   digest: Whether the order of the path attributes of an UPDATE shows in the parsed data. -/

import SonicBmp.Bgp.AttrViews

set_option autoImplicit false
set_option relaxedAutoImplicit false

namespace SonicBmp.Bgp.AttrOrder

open SonicBmp.Library.Memory
open SonicBmp.Bgp.Common
open SonicBmp.Bgp.Nlri
open SonicBmp.Bgp.Attributes
open SonicBmp.Bgp.AttrCodec
open SonicBmp.Bgp.FamilyCodec (modes FamilyReach)
open SonicBmp.Bgp.AttrExtent
open SonicBmp.Bgp.AttrViews
open SonicBmp.Bgp.Update

variable {D : Decoders}

/-- The next hop of NEXT_HOP and the one stored for MP_REACH print alike, and the link-state
attribute is decoded alike with the lists of MP_REACH and with empty ones. -/
structure OrderFree (D : Decoders) (attrs : List PathAttr) : Prop where
  nextHop : ∀ a ∈ attrs, ∀ r ∈ attrs, a.code = 3 → r.code = 14 → a.value ≠ [] →
    ∀ hop, reachHop D (memOf r.value) r.value.length 0 D.noLsData = some hop →
      hop = ipv4Text (memOf a.value) 0
  linkState : ∀ r ∈ attrs, ∀ b ∈ attrs, r.code = 14 → b.code = 29 → b.value ≠ [] →
    D.parseAttrLinkState (memOf b.value) b.value.length 0
        (reachLinkState D (memOf r.value) r.value.length 0 D.noLsData) D.noLsAttrs =
      D.parseAttrLinkState (memOf b.value) b.value.length 0 D.noLsData D.noLsAttrs

section Order

private theorem decode_reach {r : PathAttr} (isReach : r.code = 14) (st : UpdateState D)
    (fresh : st.data.ls = D.noLsData) :
    hopView (decode st r) =
        ((reachHop D (memOf r.value) r.value.length 0 D.noLsData).or (st.data.attrs .nextHop),
          reachLinkState D (memOf r.value) r.value.length 0 D.noLsData) ∧
      (decode st r).data.lsAttrs = st.data.lsAttrs := by
  rw [← fresh]
  unfold decode
  by_cases empty : r.value = []
  · rw [if_pos empty]
    simp [empty, reachHop, reachLinkState, hopView]
  · rw [if_neg empty, isReach]
    refine ⟨parseReachNlriAttr_hop _ _ _ st, ?_⟩
    obtain ⟨hop, advertised, vpn, evpn, ls, after⟩ :=
      parseReachNlriAttr_writes (memOf r.value) r.value.length 0 st
    exact congrArg (fun st => st.data.lsAttrs) after

variable (info : PeerInfo) (routes : List PrefixTuple)

/-- In the order NEXT_HOP, MP_REACH and in the other order. -/
private theorem hop_swap_iff {a r : PathAttr} (isHop : a.code = 3) (isReach : r.code = 14) :
    hopView (decode (decode (withdrawing D info routes) a) r) =
        hopView (decode (decode (withdrawing D info routes) r) a) ↔
      (a.value ≠ [] → ∀ hop, reachHop D (memOf r.value) r.value.length 0 D.noLsData = some hop →
        hop = ipv4Text (memOf a.value) 0) := by
  have hopped (st : UpdateState D) (some_byte : a.value ≠ []) :
      hopView (decode st a) = (some (ipv4Text (memOf a.value) 0), st.data.ls) := by
    unfold decode
    rw [if_neg some_byte, isHop]
    exact Prod.ext (by simp [hopView, parseAttrData, UpdateState.setAttr]) rfl
  by_cases empty : a.value = []
  · have same (st : UpdateState D) : decode st a = st := if_pos empty
    simp only [same, empty, ne_eq, not_true_eq_false, false_imp_iff]
  · have first := hopped (withdrawing D info routes) empty
    simp only [hopView, Prod.mk.injEq] at first
    have ls : (decode (withdrawing D info routes) r).data.ls = _ :=
      congrArg Prod.snd (decode_reach isReach (withdrawing D info routes) rfl).1
    rw [(decode_reach isReach _ first.2).1, hopped _ empty, ls, first.1]
    simp only [Prod.mk.injEq, and_true, ne_eq, empty, not_false_eq_true, true_imp_iff]
    cases reachHop D (memOf r.value) r.value.length 0 D.noLsData with
    | none => simp
    | some hop => simp

/-- In the order MP_REACH, link state and in the other order. -/
private theorem linkState_swap_iff {r b : PathAttr} (isReach : r.code = 14) (isLs : b.code = 29) :
    linkStateView (decode (decode (withdrawing D info routes) r) b) =
        linkStateView (decode (decode (withdrawing D info routes) b) r) ↔
      (b.value ≠ [] → D.parseAttrLinkState (memOf b.value) b.value.length 0
          (reachLinkState D (memOf r.value) r.value.length 0 D.noLsData) D.noLsAttrs =
        D.parseAttrLinkState (memOf b.value) b.value.length 0 D.noLsData D.noLsAttrs) := by
  have decoded (st : UpdateState D) (some_byte : b.value ≠ []) :
      linkStateView (decode st b) = (st.data.ls, D.parseAttrLinkState (memOf b.value)
        b.value.length 0 st.data.ls st.data.lsAttrs) := by
    unfold decode
    rw [if_neg some_byte, isLs]
    rfl
  have reached (st : UpdateState D) (fresh : st.data.ls = D.noLsData) :
      linkStateView (decode st r) =
        (reachLinkState D (memOf r.value) r.value.length 0 D.noLsData, st.data.lsAttrs) :=
    Prod.ext (congrArg Prod.snd (decode_reach isReach st fresh).1) (decode_reach isReach st fresh).2
  by_cases empty : b.value = []
  · have same (st : UpdateState D) : decode st b = st := if_pos empty
    simp only [same, empty, ne_eq, not_true_eq_false, false_imp_iff]
  · have first := decoded (withdrawing D info routes) empty
    have lists := reached (withdrawing D info routes) rfl
    simp only [linkStateView, Prod.mk.injEq] at first lists
    rw [decoded _ empty, reached _ first.1, lists.1, lists.2, first.2]
    simp only [Prod.mk.injEq, true_and, ne_eq, empty, not_false_eq_true, true_imp_iff]
    rfl

/-- Two states with the same views have the same data. -/
private theorem data_ext {s s' : UpdateState D} (path : pathView s = pathView s')
    (key : ∀ key, keyCode key ≠ 2 → key ≠ .nextHop → s.data.attrs key = s'.data.attrs key)
    (reach : reachView s = reachView s') (unReach : unReachView s = unReachView s')
    (hop : hopView s = hopView s') (linkState : linkStateView s = linkStateView s') :
    s.data = s'.data := by
  simp only [pathView, reachView, unReachView, hopView, linkStateView, Prod.mk.injEq] at *
  obtain ⟨-, asPath, count, origin⟩ := path
  have attrs : s.data.attrs = s'.data.attrs := by
    funext k
    by_cases own : keyCode k = 2
    · cases k <;> first | assumption | exact absurd own (by decide)
    by_cases isHop : k = .nextHop
    · rw [isHop]
      exact hop.1
    · exact key k own isHop
  obtain ⟨-, advertised, vpn, evpn, ls⟩ := reach
  obtain ⟨-, withdrawn, vpnWithdrawn, evpnWithdrawn, lsWithdrawn⟩ := unReach
  cases hs : s.data
  cases hs' : s'.data
  simp_all

theorem foldl_decode_perm_iff {attrs : List PathAttr}
    (distinct : attrs.Pairwise (fun a b => a.code ≠ b.code)) :
    (∀ attrs' : List PathAttr, attrs'.Perm attrs →
        (attrs'.foldl decode (withdrawing D info routes)).data =
          (attrs.foldl decode (withdrawing D info routes)).data) ↔
      OrderFree D attrs := by
  have hops := touches_hop (D := D) |>.foldl_perm_iff distinct (by decide)
    (withdrawing D info routes)
  have links := touches_linkState (D := D) |>.foldl_perm_iff distinct (by decide)
    (withdrawing D info routes)
  constructor
  · intro same
    have hopSame := hops.mp (fun attrs' perm => by simp only [hopView, same attrs' perm])
    have linkSame := links.mp (fun attrs' perm => by simp only [linkStateView, same attrs' perm])
    exact ⟨fun a inA r inR isHop isReach =>
        (hop_swap_iff info routes isHop isReach).mp (hopSame a inA r inR isHop isReach),
      fun r inR b inB isReach isLs =>
        (linkState_swap_iff info routes isReach isLs).mp (linkSame r inR b inB isReach isLs)⟩
  · intro free attrs' perm
    refine data_ext (touches_path.foldl_perm distinct perm _)
      (fun key notPath notHop => (touches_key notPath notHop).foldl_perm distinct perm _)
      (touches_reach.foldl_perm distinct perm _) (touches_unReach.foldl_perm distinct perm _)
      (hops.mpr ?_ attrs' perm) (links.mpr ?_ attrs' perm)
    · intro a inA r inR isHop isReach
      exact (hop_swap_iff info routes isHop isReach).mpr (free.nextHop a inA r inR isHop isReach)
    · intro r inR b inB isReach isLs
      exact (linkState_swap_iff info routes isReach isLs).mpr
        (free.linkState r inR b inB isReach isLs)

end Order

/-! Whole messages. -/

/-- An UPDATE with well-formed attributes of pairwise distinct types. -/
structure FormedUpdate (D : Decoders) (info : PeerInfo) where
  withdrawn : List (Prefix true)
  attrs : List PathAttr
  nlri : List (Prefix true)
  wellFormed : ∀ a ∈ attrs, WellFormed D info a
  distinct : attrs.Pairwise (fun a b => a.code ≠ b.code)
  fits : (updateBody (encodePrefixes (info.addPathUnicast true) withdrawn) (encodeAttrs attrs)
    (encodePrefixes (info.addPathUnicast true) nlri)).length < 65536

private theorem announce_data_injective {s s' : UpdateState D} {routes : List PrefixTuple}
    (same : (announce s routes).data = (announce s' routes).data) : s.data = s'.data := by
  cases hs : s.data
  cases hs' : s'.data
  simp_all [announce]

section Message

variable {info : PeerInfo} (u : FormedUpdate D info)

/-- The message with its attributes in another order. -/
def FormedUpdate.inOrder (attrs : List PathAttr) : List UInt8 :=
  updateBody (encodePrefixes (info.addPathUnicast true) u.withdrawn) (encodeAttrs attrs)
    (encodePrefixes (info.addPathUnicast true) u.nlri)

private theorem parseUpdateMsg_inOrder {attrs : List PathAttr} (perm : attrs.Perm u.attrs)
    {m : Mem} {data : Nat} (h : Holds m data (u.inOrder attrs)) :
    (parseUpdateMsg D info m data (u.inOrder attrs).length).2.data =
      (announce (attrs.foldl decode (withdrawing D info
          (u.withdrawn.map (Prefix.tuple (info.addPathUnicast true)))))
        (u.nlri.map (Prefix.tuple (info.addPathUnicast true)))).data := by
  have size : (u.inOrder attrs).length < 65536 := by
    have same : (encodeAttrs attrs).length = (encodeAttrs u.attrs).length :=
      (perm.flatMap_right PathAttr.encode).length_eq
    have fits := u.fits
    rw [updateBody_length] at fits
    rw [FormedUpdate.inOrder, updateBody_length, same]
    exact fits
  by_cases some_part : u.withdrawn ≠ [] ∨ encodeAttrs attrs ≠ [] ∨ u.nlri ≠ []
  · obtain ⟨p, held, read⟩ :=
      parseUpdateMsg_parts (D := D) info u.withdrawn u.nlri _ some_part h size
    have walked := parseAttributes_decode attrs (fun a here => u.wellFormed a (perm.mem_iff.mp here))
      (withdrawing D info (u.withdrawn.map (Prefix.tuple (info.addPathUnicast true)))) rfl held
    rw [walked] at read
    exact congrArg (fun result => result.2.data) read
  · -- an End-of-RIB marker
    simp only [ne_eq, not_or, not_not, encodeAttrs_eq_nil] at some_part
    obtain ⟨noWithdrawn, noAttrs, noNlri⟩ := some_part
    have marker : u.inOrder attrs = put16 0 ++ put16 0 := by
      simp [FormedUpdate.inOrder, noWithdrawn, noAttrs, noNlri, updateBody, encodePrefixes, encodeAttrs]
    rw [marker] at h ⊢
    simp only [holds_append, length_put16] at h
    have wlen := h.1.u16 (by decide)
    have alen := h.2.u16 (by decide)
    simp [parseUpdateMsg, wlen, alen, subSize, noWithdrawn, noAttrs, noNlri, announce, withdrawing,
      ParsedUpdateData.empty]

end Message

/-! A message with a NEXT_HOP for its IPv4 route and an IPv6 route in MP_REACH. -/

private def classicHop : PathAttr := ⟨0x40, 3, [10, 0, 0, 1], by decide⟩

private def ipv6Reach : FamilyReach :=
  ⟨false, [0x20, 1, 0xd, 0xb8] ++ List.replicate 11 0 ++ [1], 0,
    .unicast [docPrefix], by decide⟩

private def ipv6Attr : PathAttr := ⟨0x80, 14, ipv6Reach.bytes (modes PeerInfo.fresh), by decide⟩

private def dualUpdate : FormedUpdate Decoders.silent PeerInfo.fresh where
  withdrawn := []
  attrs := [classicHop, ipv6Attr]
  nlri := [tenSlashEight]
  wellFormed := by
    intro a here
    simp only [List.mem_cons, List.not_mem_nil, or_false] at here
    rcases here with rfl | rfl
    · exact Formed.wellFormed rfl
    · exact Formed.wellFormed ⟨ipv6Reach, rfl, fun isIPv4 => absurd isIPv4 (by decide)⟩
  distinct := by decide
  fits := by decide

end SonicBmp.Bgp.AttrOrder
