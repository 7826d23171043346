/- module: SonicBmp/Bgp/AttrReads
   digest: The attribute lengths at which a decoder depends on bytes behind the attribute. -/

import SonicBmp.Bgp.ExtCommunity

set_option autoImplicit false
set_option relaxedAutoImplicit false

namespace SonicBmp.Bgp.AttrReads

open SonicBmp.Library.Memory
open SonicBmp.Library.Loop (strideLoop strideLoop_ragged_ne)
open SonicBmp.Library.Printing (Text decimal)
open SonicBmp.Bgp.Common
open SonicBmp.Bgp.Nlri
open SonicBmp.Bgp.Attributes
open SonicBmp.Bgp.AttrExtent
open SonicBmp.Bgp.ExtCommunity

variable {D : Decoders}

/-- MP_REACH and MP_UNREACH are compared in what their fixed header fields lead to, the
attribute map and the peer information; every other type in all it can write. -/
def SameResult (attrType : Nat) (after after' : UpdateState D) : Prop :=
  if attrType = 14 ∨ attrType = 15 then
    after.data.attrs = after'.data.attrs ∧ after.info = after'.info
  else after = after'

/-- The routes of an MP_REACH are link state, whose decoder is another class. -/
def CarriesLinkState (attrType : Nat) (m : Mem) (data : Nat) : Prop :=
  attrType = 14 ∧ u16 m data = bgpAfiBgpls

/-- Two memories that hold the same attribute decode it alike. -/
def Confined (D : Decoders) (attrType attrLen : Nat) : Prop :=
  ∀ (st : UpdateState D) (m m' : Mem) (data : Nat), SameBytes attrLen m data m' data →
    ¬ CarriesLinkState attrType m data → ¬ CarriesLinkState attrType m' data →
    SameResult attrType (parseAttrData D m attrType attrLen data st)
      (parseAttrData D m' attrType attrLen data st)

/-- The lengths at which the decoder of a type stays inside the attribute. -/
def Enough (attrType attrLen : Nat) : Prop :=
  match attrType with
  | 3 | 4 | 5 | 9 => 4 ≤ attrLen
  | 8 | 10 => 4 ∣ attrLen
  | 14 => attrLen < 5 ∨ 16 ≤ attrLen
  | 32 => attrLen < 12 ∨ 12 ∣ attrLen
  | _ => True

/-! MP_REACH_NLRI and MP_UNREACH_NLRI. -/

/-- The next hop that the IPv4 and IPv6 families store, if any. -/
def hopIPv4IPv6 (isIPv4 : Bool) (m : Mem) (nlri : MpReachNlri) : Option Text :=
  if nlri.safi = bgpSafiUnicast ∨ nlri.safi = bgpSafiNlriLabel then
    some (nextHopText isIPv4 m nlri.nextHop nlri.nhLen)
  else if nlri.safi = bgpSafiMpls then
    some (if isIPv4 then nextHopText true m (nlri.nextHop + 8) ((nlri.nhLen + 256 - 8) % 256)
      else nextHopText false m nlri.nextHop nlri.nhLen)
  else none

/-- The same for all families but link state. -/
def reachHop (m : Mem) (nlri : MpReachNlri) : Option Text :=
  if nlri.afi = bgpAfi false then hopIPv4IPv6 false m nlri
  else if nlri.afi = bgpAfi true then hopIPv4IPv6 true m nlri
  else if nlri.afi = bgpAfiL2vpn then
    some (nextHopText (nlri.nhLen = 4) m nlri.nextHop nlri.nhLen)
  else none

def storeHop (hop : Option Text) (attrs : ParsedAttrsMap) : ParsedAttrsMap :=
  hop.elim attrs (fun text => Function.update attrs .nextHop (some text))

section Multiprotocol

variable {m m' : Mem} {p n : Nat}

theorem reachIPv4IPv6_hop (isIPv4 : Bool) (m : Mem) (nlri : MpReachNlri) (st : UpdateState D) :
    (reachIPv4IPv6 isIPv4 m nlri st).data.attrs =
        storeHop (hopIPv4IPv6 isIPv4 m nlri) st.data.attrs ∧
      (reachIPv4IPv6 isIPv4 m nlri st).info = st.info := by
  unfold reachIPv4IPv6 hopIPv4IPv6
  by_cases unicast : nlri.safi = bgpSafiUnicast
  · rw [if_pos unicast, if_pos (Or.inl unicast)]
    exact ⟨rfl, rfl⟩
  by_cases label : nlri.safi = bgpSafiNlriLabel
  · rw [if_neg unicast, if_pos label, if_pos (Or.inr label)]
    exact ⟨rfl, rfl⟩
  rw [if_neg unicast, if_neg label, if_neg (not_or.mpr ⟨unicast, label⟩)]
  by_cases mpls : nlri.safi = bgpSafiMpls
  · rw [if_pos mpls, if_pos mpls]
    cases isIPv4 with
    | false =>
      simp only [Bool.false_eq_true, if_false]
      exact ⟨rfl, rfl⟩
    | true =>
      simp only [if_true]
      exact ⟨rfl, rfl⟩
  · rw [if_neg mpls, if_neg mpls]
    exact ⟨rfl, rfl⟩

theorem reachAfi_hop (m : Mem) (nlri : MpReachNlri) (st : UpdateState D)
    (routes : nlri.afi ≠ bgpAfiBgpls) :
    (reachAfi m nlri st).data.attrs = storeHop (reachHop m nlri) st.data.attrs ∧
      (reachAfi m nlri st).info = st.info := by
  unfold reachAfi reachHop
  by_cases six : nlri.afi = bgpAfi false
  · rw [if_pos six, if_pos six]
    exact reachIPv4IPv6_hop false m nlri st
  by_cases four : nlri.afi = bgpAfi true
  · rw [if_neg six, if_neg six, if_pos four, if_pos four]
    exact reachIPv4IPv6_hop true m nlri st
  rw [if_neg six, if_neg six, if_neg four, if_neg four, if_neg routes]
  by_cases l2vpn : nlri.afi = bgpAfiL2vpn
  · rw [if_pos l2vpn, if_pos l2vpn]
    by_cases evpn : nlri.safi = bgpSafiEvpn
    · simp only [if_pos evpn]
      exact ⟨rfl, rfl⟩
    · simp only [if_neg evpn]
      exact ⟨rfl, rfl⟩
  · rw [if_neg l2vpn, if_neg l2vpn]
    exact ⟨rfl, rfl⟩

/-- Only four bytes of an IPv4 next hop are printed, however long it claims to be. -/
theorem nextHopText_four {q : Nat} (same : SameBytes 4 m q m' q) (nhLen : Nat) (long : 4 ≤ nhLen) :
    nextHopText true m q nhLen = nextHopText true m' q nhLen := by
  have four (m : Mem) : nextHopText true m q nhLen = ipv4Text m q := by
    have first : readBytes m q (min nhLen 16) =
        readBytes m q 4 ++ readBytes m (q + 4) (min nhLen 16 - 4) :=
      readBytes_split m q (by omega)
    simp only [nextHopText, copyRaw, ipv4Text, first, List.append_assoc]
    rw [List.take_append, length_readBytes, List.take_of_length_le (by simp)]
    exact inetNtop4_append _ _ (by simp)
  rw [four, four]
  exact ipv4Text_congr same 0 (by omega)

/-- The next hop of an attribute that is long enough lies inside it, also when the length
of a VPNv4 next hop wraps around below eight. -/
theorem reachHop_congr (nlri : MpReachNlri) (start : nlri.nextHop = p + 4)
    (inside : 5 + nlri.nhLen ≤ n) (long : 16 ≤ n) (octet : nlri.nhLen < 256)
    (same : SameBytes n m p m' p) : reachHop m nlri = reachHop m' nlri := by
  have hop (isIPv4 : Bool) : nextHopText isIPv4 m nlri.nextHop nlri.nhLen =
      nextHopText isIPv4 m' nlri.nextHop nlri.nhLen := by
    rw [start]
    exact nextHopText_congr isIPv4 _ (same.within 4 _ (by omega))
  have behind : nextHopText true m (nlri.nextHop + 8) ((nlri.nhLen + 256 - 8) % 256) =
      nextHopText true m' (nlri.nextHop + 8) ((nlri.nhLen + 256 - 8) % 256) := by
    rw [start, Nat.add_assoc]
    by_cases eight : 8 ≤ nlri.nhLen
    · exact nextHopText_congr true _ (same.within 12 _ (by omega))
    · exact nextHopText_four (same.within 12 4 (by omega)) _ (by omega)
  simp only [reachHop, hopIPv4IPv6, hop, behind]

theorem parseReachNlriAttr_confined (long : n < 5 ∨ 16 ≤ n) (same : SameBytes n m p m' p)
    (routes : u16 m p ≠ bgpAfiBgpls) (st : UpdateState D) :
    (parseReachNlriAttr m n p st).data.attrs = (parseReachNlriAttr m' n p st).data.attrs ∧
      (parseReachNlriAttr m n p st).info = (parseReachNlriAttr m' n p st).info := by
  simp only [parseReachNlriAttr]
  rcases long with short | long
  · rw [if_pos (by omega), if_pos (by omega)]
    exact ⟨rfl, rfl⟩
  have afi : u16 m p = u16 m' p := same.u16 0 (by omega)
  have safi : u8 m (p + 2) = u8 m' (p + 2) := same.u8 2 (by omega)
  have nhLen : u8 m (p + 3) = u8 m' (p + 3) := same.u8 3 (by omega)
  rw [afi, safi, nhLen]
  rw [afi] at routes
  by_cases short : n < 5 + u8 m' (p + 3)
  · rw [if_pos short, if_pos short]
    exact ⟨rfl, rfl⟩
  rw [if_neg short, if_neg short]
  generalize whole : (⟨u16 m' p, u8 m' (p + 2), u8 m' (p + 3), p + 4, p + 4 + u8 m' (p + 3) + 1,
    n - (5 + u8 m' (p + 3))⟩ : MpReachNlri) = nlri
  have header : nlri.afi = u16 m' p ∧ nlri.nextHop = p + 4 ∧ nlri.nhLen = u8 m' (p + 3) := by
    subst whole
    exact ⟨rfl, rfl, rfl⟩
  have reads := reachAfi_hop m nlri st (by rw [header.1]; exact routes)
  have reads' := reachAfi_hop m' nlri st (by rw [header.1]; exact routes)
  have octet := u8_lt m' (p + 3)
  have hop := reachHop_congr nlri header.2.1 (by omega) long (by omega) same
  exact ⟨by rw [reads.1, reads'.1, hop], by rw [reads.2, reads'.2]⟩

/-- What a withdrawal leaves alone. -/
def KeepsMap (st after : UpdateState D) : Prop :=
  after.data.attrs = st.data.attrs ∧ after.info = st.info

theorem unReachIPv4IPv6_keeps (isIPv4 : Bool) (m : Mem) (nlri : MpUnReachNlri)
    (st : UpdateState D) : KeepsMap st (unReachIPv4IPv6 isIPv4 m nlri st) := by
  unfold unReachIPv4IPv6
  refine iteInduction (fun _ => ?_) fun _ => iteInduction (fun _ => ?_) fun _ =>
    iteInduction (fun _ => ?_) fun _ => ?_
  all_goals exact ⟨rfl, rfl⟩

theorem unReachAfi_keeps (m : Mem) (nlri : MpUnReachNlri) (st : UpdateState D) :
    KeepsMap st (unReachAfi m nlri st) := by
  unfold unReachAfi
  refine iteInduction (fun _ => unReachIPv4IPv6_keeps false m nlri st) fun _ =>
    iteInduction (fun _ => unReachIPv4IPv6_keeps true m nlri st) fun _ =>
      iteInduction (fun _ => ?_) fun _ => iteInduction (fun _ => ?_) fun _ => ?_
  all_goals exact ⟨rfl, rfl⟩

/-- Only the length of an MP_UNREACH decides about the map and the peer information. -/
theorem parseUnReachNlriAttr_confined (m m' : Mem) (p n : Nat) (st : UpdateState D) :
    (parseUnReachNlriAttr m n p st).data.attrs = (parseUnReachNlriAttr m' n p st).data.attrs ∧
      (parseUnReachNlriAttr m n p st).info = (parseUnReachNlriAttr m' n p st).info := by
  simp only [parseUnReachNlriAttr]
  by_cases short : n < 3
  · rw [if_pos short, if_pos short]
    exact ⟨rfl, rfl⟩
  by_cases marker : n - 3 = 0
  · rw [if_neg short, if_neg short, if_pos marker, if_pos marker]
    exact ⟨rfl, rfl⟩
  · rw [if_neg short, if_neg short, if_neg marker, if_neg marker]
    obtain ⟨attrs, info⟩ := unReachAfi_keeps m ⟨u16 m p, u8 m (p + 2), p + 3, n - 3⟩ st
    obtain ⟨attrs', info'⟩ := unReachAfi_keeps m' ⟨u16 m' p, u8 m' (p + 2), p + 3, n - 3⟩ st
    exact ⟨attrs.trans attrs'.symm, info.trans info'.symm⟩

end Multiprotocol

/-- Long enough attributes are decoded from their own bytes. -/
theorem confined_of_enough {attrType attrLen : Nat} (some_byte : 1 ≤ attrLen)
    (notLinkState : attrType ≠ 29) (enough : Enough attrType attrLen) :
    Confined (withExtCommunities D) attrType attrLen := by
  intro st m m' p same routes routes'
  by_cases reach : attrType = 14
  · subst reach
    rw [SameResult, if_pos (Or.inl rfl)]
    exact parseReachNlriAttr_confined enough same (fun ls => routes ⟨rfl, ls⟩) st
  by_cases unreach : attrType = 15
  · subst unreach
    rw [SameResult, if_pos (Or.inr rfl)]
    exact parseUnReachNlriAttr_confined m m' p attrLen st
  rw [SameResult, if_neg (not_or.mpr ⟨reach, unreach⟩)]
  unfold Enough at enough
  split at enough
  · exact congrArg (st.setAttr .nextHop) (ipv4Text_congr same 0 enough)
  · exact congrArg (st.setAttr .med <| decimal ·) (same.u32 0 enough)
  · exact congrArg (st.setAttr .localPref <| decimal ·) (same.u32 0 enough)
  · exact congrArg (st.setAttr .originatorId) (ipv4Text_congr same 0 enough)
  · exact congrArg (st.setAttr .communities)
      (communityListText_congr (fun _ _ => communityText_congr) enough same)
  · exact congrArg (st.setAttr .clusterList) (clusterListText_congr _ enough same)
  · exact absurd rfl reach
  · rcases enough with short | whole
    · simp only [parseAttrData, if_neg (Nat.not_le.mpr short)]
    · have text := communityListText_congr (fun _ _ => largeCommunityText_congr) whole same
      simp only [parseAttrData, text]
  · -- ORIGIN reads one byte, the others bound themselves or read nothing
    unfold parseAttrData
    split <;> try contradiction
    · exact congrArg (st.setAttr .origin <| originText ·) (same.u8 0 some_byte)
    · exact parseAttrAsPath_congr _ same st
    · rfl
    · exact parseAttrAggegator_congr _ same st
    · rw [show (withExtCommunities D).parseExtCommunities m attrLen p =
        (withExtCommunities D).parseExtCommunities m' attrLen p from
          parseExtCommunities_congr attrLen same]
    · rfl

/-! Bytes behind a short attribute. -/

/-- Memory of zeros with a one at address `k`. -/
def touched (k : Nat) : Mem := writeBytes (fun _ => 0) k [1]

theorem sameBytes_touched {n p k : Nat} (behind : p + n ≤ k) :
    SameBytes n (fun _ => 0) p (touched k) p :=
  (readBytes_writeBytes_before _ _ _ _ _ behind).symm

theorem readBytes_zeros (p n : Nat) : readBytes (fun _ => 0) p n = List.replicate n 0 := by
  induction n generalizing p with
  | zero => rfl
  | succ n ih => rw [readBytes, ih, List.replicate_succ]

/-- The last byte of an entry looks the same wherever the entry starts. -/
theorem sameBytes_touched_shift (n i : Nat) :
    SameBytes (n + 1) (touched (i + n)) i (touched n) 0 := by
  have at_i := readBytes_writeBytes_append (fun _ => 0) i n [1]
  have at_0 := readBytes_writeBytes_append (fun _ => 0) 0 n [1]
  rw [readBytes_zeros] at at_i at_0
  rw [Nat.zero_add] at at_0
  exact at_i.trans at_0.symm

/-- A list of fixed-size entries that ends inside an entry depends on a byte behind it. -/
theorem ragged_text_differs {stride n : Nat} (pos : 0 < stride) (ragged : ¬ stride ∣ n)
    {entry : Mem → Nat → Text}
    (reads : ∀ m q m' q', SameBytes stride m q m' q' → entry m q = entry m' q')
    (differs : entry (fun _ => 0) 0 ≠ entry (touched (stride - 1)) 0)
    {wrap : Nat → Text → Text} (injective : ∀ i, Function.Injective (wrap i)) :
    strideLoop stride n (fun i text => text ++ wrap i (entry (fun _ => 0) (0 + i))) 0 [] ≠
      strideLoop stride n (fun i text => text ++
        wrap i (entry (touched (stride * (n / stride) + (stride - 1))) (0 + i))) 0 [] := by
  refine strideLoop_ragged_ne pos ragged (fun i less at_i => ?_) fun alike => differs ?_
  · have inside := inside_of_dvd (Nat.dvd_mul_right stride (n / stride)) at_i less
    exact congrArg (wrap i) (reads _ _ _ _ (sameBytes_touched (by omega)))
  · have shift := sameBytes_touched_shift (stride - 1) (stride * (n / stride))
    rw [Nat.sub_add_cancel pos] at shift
    have zeros : SameBytes stride (fun _ => 0) 0 (fun _ => 0) (stride * (n / stride)) := by
      rw [SameBytes, readBytes_zeros, readBytes_zeros]
    rw [Nat.zero_add] at alike
    rw [← reads _ _ _ _ shift, reads _ _ _ _ zeros]
    exact injective _ alike

section Short

variable {attrType attrLen : Nat}

theorem Confined.attrs_eq (confined : Confined D attrType attrLen) {m m' : Mem} {p : Nat}
    (same : SameBytes attrLen m p m' p) (routes : ¬ CarriesLinkState attrType m p)
    (routes' : ¬ CarriesLinkState attrType m' p) (st : UpdateState D) :
    (parseAttrData D m attrType attrLen p st).data.attrs =
      (parseAttrData D m' attrType attrLen p st).data.attrs := by
  have result := confined st m m' p same routes routes'
  unfold SameResult at result
  split at result
  · exact result.1
  · rw [result]

def emptyState (D : Decoders) : UpdateState D := ⟨PeerInfo.fresh, ParsedUpdateData.empty D⟩

/-- What a one at address `k` behind the attribute changes in the map. -/
theorem Confined.touched_eq (confined : Confined D attrType attrLen) (other : attrType ≠ 14)
    {k : Nat} (behind : attrLen ≤ k) :
    (parseAttrData D (fun _ => 0) attrType attrLen 0 (emptyState D)).data.attrs =
      (parseAttrData D (touched k) attrType attrLen 0 (emptyState D)).data.attrs :=
  confined.attrs_eq (sameBytes_touched (by omega)) (fun ls => other ls.1) (fun ls => other ls.1) _

/-- An MP_REACH for VPNv4 whose next hop is empty prints four bytes further on. -/
theorem parseReachNlriAttr_empty_hop (m : Mem) (n : Nat) (long : 5 ≤ n)
    (header : Holds m 0 [0, 1, 128, 0]) (st : UpdateState D) :
    (parseReachNlriAttr m n 0 st).data.attrs .nextHop = some (nextHopText true m 12 248) := by
  have bytes : m 0 = 0 ∧ m 1 = 1 ∧ m 2 = 128 ∧ m 3 = 0 := by simpa using header
  have afi : u16 m 0 = 1 := by simp [u16, u8, bytes.1, bytes.2.1]
  have safi : u8 m (0 + 2) = 128 := by simp [u8, bytes.2.2.1]
  have nhLen : u8 m (0 + 3) = 0 := by simp [u8, bytes.2.2.2]
  simp only [parseReachNlriAttr, afi, safi, nhLen]
  have hop : reachHop m ⟨1, 128, 0, 0 + 4, 0 + 4 + 0 + 1, n - (5 + 0)⟩ =
      some (nextHopText true m 12 248) := by
    simp [reachHop, hopIPv4IPv6, bgpAfi, bgpSafiUnicast, bgpSafiNlriLabel, bgpSafiMpls]
  rw [if_neg (by omega), (reachAfi_hop m _ st (show 1 ≠ bgpAfiBgpls by decide)).1, hop]
  exact Function.update_self UpdateAttrType.nextHop _ st.data.attrs

/-- A type that stores what it reads from four bytes needs them. -/
theorem Confined.four_le (confined : Confined D attrType attrLen) (other : attrType ≠ 14)
    (key : UpdateAttrType) (text : Mem → Nat → Text)
    (stored : ∀ m st, (parseAttrData D m attrType attrLen 0 st).data.attrs key = some (text m 0))
    (differs : text (fun _ => 0) 0 ≠ text (touched 3) 0) : 4 ≤ attrLen := by
  by_contra short
  have map := congrFun (confined.touched_eq other (show attrLen ≤ 3 by omega)) key
  rw [stored, stored] at map
  exact differs (Option.some.inj map)

/-- A type that stores a list of entries needs whole entries. -/
theorem Confined.dvd (confined : Confined D attrType attrLen) (other : attrType ≠ 14)
    (key : UpdateAttrType) {stride : Nat} (pos : 0 < stride) {entry : Mem → Nat → Text}
    (reads : ∀ m q m' q', SameBytes stride m q m' q' → entry m q = entry m' q')
    (differs : entry (fun _ => 0) 0 ≠ entry (touched (stride - 1)) 0)
    {wrap : Nat → Text → Text} (injective : ∀ i, Function.Injective (wrap i))
    (stored : ∀ m st, (parseAttrData D m attrType attrLen 0 st).data.attrs key =
      some (strideLoop stride attrLen (fun i text => text ++ wrap i (entry m (0 + i))) 0 [])) :
    stride ∣ attrLen := by
  by_contra ragged
  have behind : attrLen ≤ stride * (attrLen / stride) + (stride - 1) := by
    have above : attrLen < stride * (attrLen / stride) + stride := Nat.lt_mul_div_succ attrLen pos
    omega
  have map := congrFun (confined.touched_eq other behind) key
  rw [stored, stored] at map
  exact ragged_text_differs pos ragged reads differs injective (Option.some.inj map)

/-- Where the lengths of a type are not enough, some byte behind the attribute shows in
the map. -/
theorem enough_of_confined (confined : Confined D attrType attrLen) : Enough attrType attrLen := by
  have separated (i : Nat) :
      Function.Injective (fun text : Text => (if i = 0 then [] else [' ']) ++ text) :=
    List.append_right_injective _
  unfold Enough
  split
  · -- NEXT_HOP
    exact confined.four_le (by decide) .nextHop ipv4Text (fun _ _ => rfl) (by decide)
  · -- MED
    exact confined.four_le (by decide) .med (fun m p => decimal (u32 m p)) (fun _ _ => rfl)
      (by decide)
  · -- LOCAL_PREF
    exact confined.four_le (by decide) .localPref (fun m p => decimal (u32 m p)) (fun _ _ => rfl)
      (by decide)
  · -- ORIGINATOR_ID
    exact confined.four_le (by decide) .originatorId ipv4Text (fun _ _ => rfl) (by decide)
  · -- COMMUNITIES
    exact confined.dvd (by decide) .communities (by decide)
      (fun _ _ _ _ => communityText_congr) (by decide) separated (fun _ _ => rfl)
  · -- CLUSTER_LIST
    exact confined.dvd (by decide) .clusterList (by decide)
      (fun _ _ _ _ same => ipv4Text_congr same 0 le_rfl) (by decide)
      (fun _ => List.append_left_injective [' ']) (fun _ _ => rfl)
  · -- MP_REACH_NLRI
    by_contra inside
    have same : SameBytes attrLen (memOf [0, 1, 128, 0]) 0
        (writeBytes (memOf [0, 1, 128, 0]) 15 [1]) 0 :=
      (readBytes_writeBytes_before _ _ _ _ _ (by omega)).symm
    have map := congrFun (confined.attrs_eq same
      (fun ls => absurd ls.2 (by decide)) (fun ls => absurd ls.2 (by decide))
      (emptyState D)) .nextHop
    have hop := parseReachNlriAttr_empty_hop (memOf [0, 1, 128, 0]) attrLen (by omega) rfl
      (emptyState D)
    have hop' := parseReachNlriAttr_empty_hop (writeBytes (memOf [0, 1, 128, 0]) 15 [1]) attrLen
      (by omega) rfl (emptyState D)
    exact absurd (hop.symm.trans (map.trans hop')) (by decide)
  · -- LARGE_COMMUNITY
    by_cases short : attrLen < 12
    · exact Or.inl short
    refine Or.inr (confined.dvd (by decide) .largeCommunity (by decide)
      (fun _ _ _ _ => largeCommunityText_congr) (by decide) separated fun m st => ?_)
    simp only [parseAttrData, if_pos (Nat.not_lt.mp short)]
    exact Function.update_self UpdateAttrType.largeCommunity _ st.data.attrs
  · trivial

end Short

/-- The decoders stay inside an attribute of at least one byte exactly at the lengths
above; all other types always do. -/
theorem confined_iff (D : Decoders) (attrType attrLen : Nat) (some_byte : 1 ≤ attrLen)
    (notLinkState : attrType ≠ 29) :
    Confined (withExtCommunities D) attrType attrLen ↔ Enough attrType attrLen :=
  ⟨enough_of_confined, confined_of_enough some_byte notLinkState⟩

theorem med_confined : Confined (withExtCommunities Decoders.silent) 4 4 :=
  (confined_iff Decoders.silent 4 4 (by decide) (by decide)).mpr (show 4 ≤ 4 by decide)

/-- A MED of one byte takes three more from behind the attribute. -/
theorem one_byte_med_not_confined : ¬ Confined (withExtCommunities Decoders.silent) 4 1 :=
  fun confined => absurd (enough_of_confined confined) (show ¬ 4 ≤ 1 by decide)

end SonicBmp.Bgp.AttrReads
