/- module: SonicBmp/Bgp/Update
   digest: UPDATE parsing from the BGP header on, and the round trips of encoded UPDATE messages. -/

import SonicBmp.Bgp.MpCodec

set_option autoImplicit false
set_option relaxedAutoImplicit false

namespace SonicBmp.Bgp.Update

open SonicBmp.Library.Memory
open SonicBmp.Bgp.Common
open SonicBmp.Bgp.Nlri
open SonicBmp.Bgp.Attributes
open SonicBmp.Bgp.AttrCodec
open SonicBmp.Bgp.MpCodec

/-- `size_t` subtraction. -/
def subSize (a b : Nat) : Nat := (a + 2 ^ 64 - b) % 2 ^ 64

theorem subSize_of_le {a b : Nat} (h : b ≤ a) (ha : a < 2 ^ 64) : subSize a b = a - b := by
  unfold subSize
  omega

variable {D : Decoders}

def withdrawnSection (m : Mem) (data len : Nat) (st : UpdateState D) : UpdateState D :=
  if 0 < len then
    { st with data := { st.data with
        withdrawn := parseNlriDataV4 st.info m data len st.data.withdrawn } }
  else st

/-- The NLRI field; its length is passed as a `uint16_t`. -/
def nlriSection (m : Mem) (data len : Nat) (st : UpdateState D) : UpdateState D :=
  { st with data := { st.data with
      advertised := parseNlriDataV4 st.info m data (len % 65536) st.data.advertised } }

variable (D)

def withdrawnAndAttributes (m : Mem) (data withdrawnLen attrLen : Nat) (st : UpdateState D) :
    UpdateState D :=
  let st := withdrawnSection m (data + 2) withdrawnLen st
  if 0 < attrLen then parseAttributes D m (data + 4 + withdrawnLen) attrLen st else st

/-- `UpdateMsg::parseUpdateMsg`: the bytes read, zero on error, with the peer
information and the parsed data. The attributes length is read before it is known
to lie in the message, so the size left may wrap around. -/
def parseUpdateMsg (info : PeerInfo) (m : Mem) (data size : Nat) : Nat × UpdateState D :=
  let st : UpdateState D := ⟨info, ParsedUpdateData.empty D⟩
  if size < 2 then (0, st)
  else
    let withdrawnLen := u16 m data
    if size - 2 < withdrawnLen then (0, st)
    else
      let attrLen := u16 m (data + 2 + withdrawnLen)
      if subSize size (4 + withdrawnLen) < attrLen then (0, st)
      else
        let readSize := 4 + withdrawnLen + attrLen
        let rest := subSize size readSize
        if withdrawnLen = 0 ∧ rest = 0 ∧ attrLen = 0 then
          (readSize, { st with info := { info with endOfRIB := true } })
        else
          let st := withdrawnAndAttributes D m data withdrawnLen attrLen st
          if 0 < rest then (size, nlriSection m (data + readSize) rest st) else (readSize, st)

def bgpMsgUpdate : Nat := 2

/-- `parseBGP::parseBgpHeader`: the message type, zero for a short buffer, and
`data_bytes_remaining`, an `unsigned int`. A length field beyond the buffer is only
reported. -/
def parseBgpHeader (m : Mem) (data size : Nat) : Nat × Nat :=
  if size < bgpMsgHdrLen then (0, 0)
  else (u8 m (data + 18), (u16 m (data + 16) + 2 ^ 32 - bgpMsgHdrLen) % 2 ^ 32)

/-- A `size_t` stored in an `int` and compared with a `size_t` again. -/
def throughInt (n : Nat) : Nat :=
  if n % 2 ^ 32 < 2 ^ 31 then n % 2 ^ 32 else n % 2 ^ 32 + 2 ^ 64 - 2 ^ 32

/-- What a call of `handleUpdate` leaves behind: its result, the data it passed to
`UpdateDB`, the message-bus calls made there, and the peer information. -/
structure UpdateOutcome (B : Type) where
  error : Bool
  passed : Option (ParsedUpdateData D)
  calls : List B
  info : PeerInfo

variable {B : Type} (updateDB : ParsedUpdateData D → List B)

/-- `parseBGP::handleUpdate`, over the bus calls `updateDB` makes for parsed data. -/
def handleUpdate (info : PeerInfo) (m : Mem) (data size : Nat) : UpdateOutcome D B :=
  let header := parseBgpHeader m data size
  if header.1 = bgpMsgUpdate then
    let parsed := parseUpdateMsg D info m (data + bgpMsgHdrLen) header.2
    if throughInt parsed.1 ≠ subSize size bgpMsgHdrLen then ⟨true, none, [], parsed.2.info⟩
    else ⟨false, some parsed.2.data, updateDB parsed.2.data, parsed.2.info⟩
  else ⟨false, none, [], info⟩

/-! Encoded messages. -/

def bgpMarker : List UInt8 := List.replicate 16 0xff

def updateBody (withdrawn attrs nlri : List UInt8) : List UInt8 :=
  put16 withdrawn.length ++ (withdrawn ++ (put16 attrs.length ++ (attrs ++ nlri)))

def bgpUpdate (withdrawn attrs nlri : List UInt8) : List UInt8 :=
  bgpMarker ++ (put16 (bgpMsgHdrLen + (updateBody withdrawn attrs nlri).length) ++
    (put8 bgpMsgUpdate ++ updateBody withdrawn attrs nlri))

theorem updateBody_length (withdrawn attrs nlri : List UInt8) :
    (updateBody withdrawn attrs nlri).length =
      4 + withdrawn.length + attrs.length + nlri.length := by
  simp [updateBody]
  omega

theorem bgpUpdate_length (withdrawn attrs nlri : List UInt8) :
    (bgpUpdate withdrawn attrs nlri).length =
      bgpMsgHdrLen + (updateBody withdrawn attrs nlri).length := by
  simp [bgpUpdate, bgpMarker, bgpMsgHdrLen]
  omega

variable {D}

theorem nlriSection_zero (m : Mem) (data : Nat) (st : UpdateState D) :
    nlriSection m data 0 st = st := by
  simp [nlriSection, parseNlriDataV4]

private theorem parseAttributes_zero (m : Mem) (data : Nat) (st : UpdateState D) :
    parseAttributes D m data 0 st = st := rfl

theorem withdrawnAndAttributes_eq (m : Mem) (data withdrawnLen attrLen : Nat)
    (st : UpdateState D) :
    withdrawnAndAttributes D m data withdrawnLen attrLen st =
      parseAttributes D m (data + 2 + withdrawnLen + 2) attrLen
        (withdrawnSection m (data + 2) withdrawnLen st) := by
  simp only [withdrawnAndAttributes]
  rw [show data + 4 + withdrawnLen = data + 2 + withdrawnLen + 2 by omega]
  split
  · rfl
  · rw [show attrLen = 0 by omega, parseAttributes_zero]

theorem parseUpdateMsg_body {m : Mem} {data : Nat} (info : PeerInfo)
    (withdrawn attrs nlri : List UInt8) (h : Holds m data (updateBody withdrawn attrs nlri))
    (fits : (updateBody withdrawn attrs nlri).length < 65536)
    (some_part : withdrawn ≠ [] ∨ attrs ≠ [] ∨ nlri ≠ []) :
    parseUpdateMsg D info m data (updateBody withdrawn attrs nlri).length =
      ((updateBody withdrawn attrs nlri).length,
        nlriSection m (data + 2 + withdrawn.length + 2 + attrs.length) nlri.length
          (parseAttributes D m (data + 2 + withdrawn.length + 2) attrs.length
            (withdrawnSection m (data + 2) withdrawn.length
              ⟨info, ParsedUpdateData.empty D⟩))) := by
  rw [updateBody_length] at fits ⊢
  simp only [updateBody, holds_append, length_put16] at h
  have wlen := h.1.u16 (by omega)
  have alen := h.2.2.1.u16 (by omega)
  have marker : ¬ (withdrawn.length = 0 ∧ nlri.length = 0 ∧ attrs.length = 0) := by
    simp only [List.length_eq_zero_iff]
    tauto
  simp only [parseUpdateMsg, wlen, alen]
  rw [if_neg (by omega), if_neg (by omega), subSize_of_le (by omega) (by omega),
    if_neg (by omega), subSize_of_le (by omega) (by omega), Nat.add_sub_cancel_left,
    if_neg marker]
  rw [withdrawnAndAttributes_eq, show data + (4 + withdrawn.length + attrs.length) =
      data + 2 + withdrawn.length + 2 + attrs.length by omega]
  split
  · rfl
  · have none_left : nlri.length = 0 := by omega
    rw [none_left, nlriSection_zero]
    rfl

theorem throughInt_of_lt {n : Nat} (h : n < 2 ^ 31) : throughInt n = n := by
  unfold throughInt
  rw [Nat.mod_eq_of_lt (by omega), if_pos h]

theorem parseBgpHeader_bgpUpdate {m : Mem} {data : Nat} (withdrawn attrs nlri : List UInt8)
    (h : Holds m data (bgpUpdate withdrawn attrs nlri))
    (fits : (bgpUpdate withdrawn attrs nlri).length ≤ bgpMaxMsgSize) :
    parseBgpHeader m data (bgpUpdate withdrawn attrs nlri).length =
        (bgpMsgUpdate, (updateBody withdrawn attrs nlri).length) ∧
      Holds m (data + bgpMsgHdrLen) (updateBody withdrawn attrs nlri) := by
  have size := bgpUpdate_length withdrawn attrs nlri
  have max : bgpMaxMsgSize = 65535 := rfl
  have hdr : bgpMsgHdrLen = 19 := rfl
  have marker : bgpMarker.length = 16 := rfl
  simp only [bgpUpdate, holds_append, length_put16, length_put8, marker] at h
  obtain ⟨-, hlen, htype, hbody⟩ := h
  have len := hlen.u16 (by omega)
  have type := htype.u8 (by decide)
  refine ⟨?_, hbody⟩
  unfold parseBgpHeader
  have remaining : (bgpMsgHdrLen + (updateBody withdrawn attrs nlri).length + 2 ^ 32 -
      bgpMsgHdrLen) % 2 ^ 32 = (updateBody withdrawn attrs nlri).length := by omega
  rw [if_neg (by omega), type, len, remaining]

theorem handleUpdate_bgpUpdate {m : Mem} {data : Nat} (info : PeerInfo)
    (withdrawn attrs nlri : List UInt8) (h : Holds m data (bgpUpdate withdrawn attrs nlri))
    (fits : (bgpUpdate withdrawn attrs nlri).length ≤ bgpMaxMsgSize) (st : UpdateState D)
    (read : parseUpdateMsg D info m (data + bgpMsgHdrLen) (updateBody withdrawn attrs nlri).length =
      ((updateBody withdrawn attrs nlri).length, st)) :
    handleUpdate D updateDB info m data (bgpUpdate withdrawn attrs nlri).length =
      ⟨false, some st.data, updateDB st.data, st.info⟩ := by
  have size := bgpUpdate_length withdrawn attrs nlri
  have max : bgpMaxMsgSize = 65535 := rfl
  have header := (parseBgpHeader_bgpUpdate withdrawn attrs nlri h fits).1
  have whole : throughInt (updateBody withdrawn attrs nlri).length =
      subSize (bgpUpdate withdrawn attrs nlri).length bgpMsgHdrLen := by
    rw [throughInt_of_lt (by omega), subSize_of_le (by omega) (by omega)]
    omega
  simp only [handleUpdate, header, if_true, read, whole, ne_eq, not_true_eq_false, if_false]

/-! Round trips. -/

/-- An UPDATE with classic routes and attributes, for a peer's add-path modes. -/
def classicUpdate (info : PeerInfo) (withdrawn : List (Prefix true)) (attrs : List ClassicAttr)
    (nlri : List (Prefix true)) : List UInt8 :=
  bgpUpdate (encodePrefixes (info.addPathUnicast true) withdrawn)
    (encodeAttrs (attrs.map ClassicAttr.wire)) (encodePrefixes (info.addPathUnicast true) nlri)

def classicData (D : Decoders) (info : PeerInfo) (withdrawn : List (Prefix true))
    (attrs : List ClassicAttr) (nlri : List (Prefix true)) : ParsedUpdateData D :=
  { ParsedUpdateData.empty D with
    attrs := attrEntries attrs
    withdrawn := withdrawn.map (Prefix.tuple (info.addPathUnicast true))
    advertised := nlri.map (Prefix.tuple (info.addPathUnicast true)) }

theorem encodeAttrs_eq_nil {attrs : List PathAttr} : encodeAttrs attrs = [] ↔ attrs = [] := by
  cases attrs with
  | nil => simp [encodeAttrs]
  | cons a attrs => simp [encodeAttrs, PathAttr.encode]

def announce (st : UpdateState D) (routes : List PrefixTuple) : UpdateState D :=
  { st with data := { st.data with advertised := st.data.advertised ++ routes } }

def withdrawing (D : Decoders) (info : PeerInfo) (routes : List PrefixTuple) : UpdateState D :=
  ⟨info, { ParsedUpdateData.empty D with withdrawn := routes }⟩

private theorem withdrawnSection_roundtrip {m : Mem} {data : Nat} (info : PeerInfo)
    (routes : List (Prefix true))
    (h : Holds m data (encodePrefixes (info.addPathUnicast true) routes)) :
    withdrawnSection m data (encodePrefixes (info.addPathUnicast true) routes).length
        ⟨info, ParsedUpdateData.empty D⟩ =
      withdrawing D info (routes.map (Prefix.tuple (info.addPathUnicast true))) := by
  unfold withdrawnSection
  split
  · rw [parseNlriDataV4_roundtrip _ _ _ _ _ h]
    rfl
  · rename_i empty
    have none_left : routes = [] := by
      rwa [List.length_pos_iff, ne_eq, encodePrefixes_eq_nil, not_not] at empty
    simp [none_left, withdrawing, ParsedUpdateData.empty]

private theorem nlriSection_roundtrip {m : Mem} {data : Nat} {ap : Bool} (st : UpdateState D)
    (modes : st.info.addPathUnicast true = ap) (routes : List (Prefix true))
    (h : Holds m data (encodePrefixes ap routes))
    (fits : (encodePrefixes ap routes).length < 65536) :
    nlriSection m data (encodePrefixes ap routes).length st =
      announce st (routes.map (Prefix.tuple ap)) := by
  subst modes
  unfold nlriSection
  rw [Nat.mod_eq_of_lt fits, parseNlriDataV4_roundtrip _ _ _ _ _ h]
  rfl

/-- An UPDATE with encoded routes and any attribute bytes: the attributes are walked
after the withdrawn routes and before the announced ones. -/
theorem parseUpdateMsg_parts (info : PeerInfo) (withdrawn nlri : List (Prefix true))
    (attrs : List UInt8) (some_part : withdrawn ≠ [] ∨ attrs ≠ [] ∨ nlri ≠ []) {m : Mem} {data : Nat}
    (h : Holds m data (updateBody (encodePrefixes (info.addPathUnicast true) withdrawn) attrs
      (encodePrefixes (info.addPathUnicast true) nlri)))
    (fits : (updateBody (encodePrefixes (info.addPathUnicast true) withdrawn) attrs
      (encodePrefixes (info.addPathUnicast true) nlri)).length < 65536) :
    ∃ p, Holds m p attrs ∧
      parseUpdateMsg D info m data
          (updateBody (encodePrefixes (info.addPathUnicast true) withdrawn) attrs
            (encodePrefixes (info.addPathUnicast true) nlri)).length =
        ((updateBody (encodePrefixes (info.addPathUnicast true) withdrawn) attrs
            (encodePrefixes (info.addPathUnicast true) nlri)).length,
          announce (parseAttributes D m p attrs.length
              (withdrawing D info (withdrawn.map (Prefix.tuple (info.addPathUnicast true)))))
            (nlri.map (Prefix.tuple (info.addPathUnicast true)))) := by
  have read := parseUpdateMsg_body (D := D) info _ _ _ h fits
    (by simpa only [ne_eq, encodePrefixes_eq_nil] using some_part)
  rw [updateBody_length] at fits
  simp only [updateBody, holds_append, length_put16] at h
  obtain ⟨-, hw, -, ha, hn⟩ := h
  rw [withdrawnSection_roundtrip info withdrawn hw] at read
  have modes (p : Nat) : (parseAttributes D m p attrs.length
      (withdrawing D info (withdrawn.map (Prefix.tuple (info.addPathUnicast true))))).info.addPathUnicast
        true = info.addPathUnicast true :=
    (parseAttributes_latches m p attrs.length _).addPathUnicast true
  rw [nlriSection_roundtrip _ (modes _) nlri hn (by omega)] at read
  exact ⟨_, ha, read⟩

theorem handleUpdate_parts (info : PeerInfo) (withdrawn nlri : List (Prefix true))
    (attrs : List UInt8) (some_part : withdrawn ≠ [] ∨ attrs ≠ [] ∨ nlri ≠ []) {m : Mem} {data : Nat}
    (h : Holds m data (bgpUpdate (encodePrefixes (info.addPathUnicast true) withdrawn) attrs
      (encodePrefixes (info.addPathUnicast true) nlri)))
    (fits : (bgpUpdate (encodePrefixes (info.addPathUnicast true) withdrawn) attrs
      (encodePrefixes (info.addPathUnicast true) nlri)).length ≤ bgpMaxMsgSize) :
    ∃ p, Holds m p attrs ∧
      let st := parseAttributes D m p attrs.length
        (withdrawing D info (withdrawn.map (Prefix.tuple (info.addPathUnicast true))))
      let parsed := (announce st (nlri.map (Prefix.tuple (info.addPathUnicast true)))).data
      handleUpdate D updateDB info m data
          (bgpUpdate (encodePrefixes (info.addPathUnicast true) withdrawn) attrs
            (encodePrefixes (info.addPathUnicast true) nlri)).length =
        ⟨false, some parsed, updateDB parsed, st.info⟩ := by
  have body := (parseBgpHeader_bgpUpdate _ _ _ h fits).2
  have small : (updateBody (encodePrefixes (info.addPathUnicast true) withdrawn) attrs
      (encodePrefixes (info.addPathUnicast true) nlri)).length < 65536 := by
    have max : bgpMaxMsgSize = 65535 := rfl
    rw [bgpUpdate_length] at fits
    omega
  obtain ⟨p, ha, read⟩ := parseUpdateMsg_parts info withdrawn nlri attrs some_part body small
  exact ⟨p, ha, handleUpdate_bgpUpdate updateDB info _ _ _ h fits _ read⟩

/-- A classic UPDATE is decoded to exactly its contents, and the peer is unchanged. -/
theorem handleUpdate_classic (info : PeerInfo) (four : info.using2OctetAsn = false)
    (withdrawn nlri : List (Prefix true)) (attrs : List ClassicAttr)
    (distinct : attrs.Pairwise (fun a b => a.value.code ≠ b.value.code))
    (some_part : withdrawn ≠ [] ∨ attrs ≠ [] ∨ nlri ≠ []) (m : Mem) (data : Nat)
    (h : Holds m data (classicUpdate info withdrawn attrs nlri))
    (fits : (classicUpdate info withdrawn attrs nlri).length ≤ bgpMaxMsgSize) :
    handleUpdate D updateDB info m data (classicUpdate info withdrawn attrs nlri).length =
      { error := false
        passed := some (classicData D info withdrawn attrs nlri)
        calls := updateDB (classicData D info withdrawn attrs nlri)
        info := info } := by
  obtain ⟨p, ha, outcome⟩ := handleUpdate_parts updateDB info withdrawn nlri _
    (by simpa only [ne_eq, encodeAttrs_eq_nil, List.map_eq_nil_iff] using some_part) h fits
  refine outcome.trans ?_
  rw [parseAttributes_classic attrs distinct ha _ four]
  simp [classicData, withdrawing, announce, ParsedUpdateData.empty, override_none]

def tenSlashEight : Prefix true := ⟨8, [10], 0, by decide, rfl⟩

theorem handleUpdate_classic_ten :
    (handleUpdate Decoders.silent (fun data => data.advertised) PeerInfo.fresh
      (memOf (classicUpdate PeerInfo.fresh [] [⟨0x40, .origin .igp, by decide⟩] [tenSlashEight])) 0
      (classicUpdate PeerInfo.fresh [] [⟨0x40, .origin .igp, by decide⟩] [tenSlashEight]).length).calls =
      [tenSlashEight.tuple false] := by
  rw [handleUpdate_classic (D := Decoders.silent) _ PeerInfo.fresh rfl [] [tenSlashEight]
    [⟨0x40, .origin .igp, by decide⟩] (by simp) (by simp) _ 0 (holds_memOf _) (by decide)]
  rfl

/-- An UPDATE with classic routes and any attributes, for the add-path modes of a session. -/
structure UpdateMessage (ap : AddPathModes) where
  withdrawn : List (Prefix true)
  attrs : List (UpdateAttr ap)
  nlri : List (Prefix true)
  fits : (bgpUpdate (encodePrefixes (ap true) withdrawn) (encodeAttrs (attrs.map UpdateAttr.wire))
    (encodePrefixes (ap true) nlri)).length ≤ bgpMaxMsgSize

variable {ap : AddPathModes}

def UpdateMessage.bytes (u : UpdateMessage ap) : List UInt8 :=
  bgpUpdate (encodePrefixes (ap true) u.withdrawn) (encodeAttrs (u.attrs.map UpdateAttr.wire))
    (encodePrefixes (ap true) u.nlri)

/-- The routes an UPDATE announces, multiprotocol ones first. -/
def UpdateMessage.advertises (u : UpdateMessage ap) : List PrefixTuple :=
  u.attrs.flatMap (fun a => a.body.reachable ap) ++ u.nlri.map (Prefix.tuple (ap true))

def UpdateMessage.withdraws (u : UpdateMessage ap) : List PrefixTuple :=
  u.withdrawn.map (Prefix.tuple (ap true)) ++ u.attrs.flatMap (fun a => a.body.unreachable ap)

theorem handleUpdate_endOfRIB {m : Mem} {data : Nat} (info : PeerInfo)
    (h : Holds m data (bgpUpdate [] [] [])) :
    handleUpdate D updateDB info m data (bgpUpdate [] [] []).length =
      ⟨false, some (ParsedUpdateData.empty D), updateDB (ParsedUpdateData.empty D),
        { info with endOfRIB := true }⟩ := by
  have body := (parseBgpHeader_bgpUpdate [] [] [] h (by decide)).2
  simp only [updateBody, List.nil_append, List.length_nil, List.append_nil, holds_append,
    length_put16] at body
  have wlen := body.1.u16 (by decide)
  have alen := body.2.u16 (by decide)
  refine handleUpdate_bgpUpdate updateDB info [] [] [] h (by decide)
    ⟨{ info with endOfRIB := true }, ParsedUpdateData.empty D⟩ ?_
  simp [parseUpdateMsg, updateBody, wlen, alen, subSize]

/-- Every UPDATE of the session is accepted with its two route lists; of the peer only
the latches may move. -/
theorem handleUpdate_message {m : Mem} {data : Nat} (info : PeerInfo)
    (modes : info.addPathUnicast = ap) (u : UpdateMessage ap) (h : Holds m data u.bytes) :
    ∃ parsed info', handleUpdate D updateDB info m data u.bytes.length =
        ⟨false, some parsed, updateDB parsed, info'⟩ ∧ Latches info info' ∧
      parsed.advertised = u.advertises ∧ parsed.withdrawn = u.withdraws := by
  subst modes
  by_cases some_part : u.withdrawn ≠ [] ∨ u.attrs ≠ [] ∨ u.nlri ≠ []
  · obtain ⟨p, ha, outcome⟩ := handleUpdate_parts updateDB info u.withdrawn u.nlri _
      (by simpa only [ne_eq, encodeAttrs_eq_nil, List.map_eq_nil_iff] using some_part) h u.fits
    obtain ⟨adv, wdr⟩ := parseAttributes_lists (withdrawing D info
      (u.withdrawn.map (Prefix.tuple (info.addPathUnicast true)))) rfl u.attrs ha
    exact ⟨_, _, outcome, parseAttributes_latches m p _ (withdrawing D info _),
      congrArg (· ++ u.nlri.map _) adv, wdr⟩
  · simp only [ne_eq, not_or, not_not] at some_part
    obtain ⟨noW, noA, noN⟩ := some_part
    have marker : u.bytes = bgpUpdate [] [] [] := by
      simp [UpdateMessage.bytes, noW, noA, noN, encodePrefixes, encodeAttrs]
    rw [marker] at h ⊢
    exact ⟨_, _, handleUpdate_endOfRIB updateDB info h, Latches.endOfRIB_set info,
      by simp [ParsedUpdateData.empty, UpdateMessage.advertises, noA, noN],
      by simp [ParsedUpdateData.empty, UpdateMessage.withdraws, noA, noW]⟩

/-- Multiprotocol round trip: the routes of MP_REACH stand before the classic ones,
those of MP_UNREACH after the classic withdrawals. -/
theorem handleUpdate_multiprotocol (info : PeerInfo) (u : UpdateMessage info.addPathUnicast)
    (reach : Option MpReach) (unreach : Option MpUnReach)
    (only_reach : u.attrs.filterMap (fun a => a.body.reach?) = reach.toList)
    (only_unreach : u.attrs.filterMap (fun a => a.body.unreach?) = unreach.toList)
    (m : Mem) (data : Nat) (h : Holds m data u.bytes) :
    ∃ parsed, (handleUpdate D updateDB info m data u.bytes.length).error = false ∧
      (handleUpdate D updateDB info m data u.bytes.length).passed = some parsed ∧
      parsed.advertised = reach.elim [] (MpReach.tuples info.addPathUnicast) ++
        u.nlri.map (Prefix.tuple (info.addPathUnicast true)) ∧
      parsed.withdrawn = u.withdrawn.map (Prefix.tuple (info.addPathUnicast true)) ++
        unreach.elim [] (MpUnReach.tuples info.addPathUnicast) := by
  obtain ⟨parsed, info', outcome, -, adv, wdr⟩ := handleUpdate_message updateDB info rfl u h
  have reachable : u.attrs.flatMap (fun a => a.body.reachable info.addPathUnicast) =
      reach.elim [] (MpReach.tuples info.addPathUnicast) := by
    simp only [AttrBody.reachable_eq]
    rw [← List.flatMap_assoc, ← List.filterMap_eq_flatMap_toList, only_reach]
    cases reach <;> simp
  have unreachable : u.attrs.flatMap (fun a => a.body.unreachable info.addPathUnicast) =
      unreach.elim [] (MpUnReach.tuples info.addPathUnicast) := by
    simp only [AttrBody.unreachable_eq]
    rw [← List.flatMap_assoc, ← List.filterMap_eq_flatMap_toList, only_unreach]
    cases unreach <;> simp
  refine ⟨parsed, by rw [outcome], by rw [outcome], ?_, ?_⟩
  · rw [adv, UpdateMessage.advertises, reachable]
  · rw [wdr, UpdateMessage.withdraws, unreachable]

def docPrefix : Prefix false := ⟨32, [0x20, 1, 0xd, 0xb8], 0, by decide, rfl⟩

private def docReach : MpReach :=
  ⟨false, List.replicate 16 0, 0, [docPrefix], by decide, by simp⟩

private def docUpdate : UpdateMessage PeerInfo.fresh.addPathUnicast :=
  ⟨[], [⟨0x80, .reach docReach, by decide⟩], [tenSlashEight], by decide⟩

theorem handleUpdate_multiprotocol_doc :
    ∃ parsed, (handleUpdate Decoders.silent (fun data => data.advertised) PeerInfo.fresh
        (memOf docUpdate.bytes) 0 docUpdate.bytes.length).passed = some parsed ∧
      parsed.advertised = [docPrefix.tuple false, tenSlashEight.tuple false] := by
  obtain ⟨parsed, -, passed, adv, -⟩ := handleUpdate_multiprotocol (D := Decoders.silent)
    (fun data => data.advertised) PeerInfo.fresh docUpdate (some docReach) none rfl rfl
    (memOf docUpdate.bytes) 0 (holds_memOf _)
  exact ⟨parsed, passed, adv⟩

end SonicBmp.Bgp.Update
