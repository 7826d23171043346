/- module: SonicBmp/Bmp/AsPathWidth
   digest: The ASN width at which the AS path of a route-monitoring message is decoded. -/

import SonicBmp.Bmp.RouteMonitoring

set_option autoImplicit false
set_option relaxedAutoImplicit false

namespace SonicBmp.Bmp.AsPathWidth

open SonicBmp.Library.Memory
open SonicBmp.Bgp.Common
open SonicBmp.Bgp.Attributes
open SonicBmp.Bgp.AttrCodec
open SonicBmp.Bgp.Update
open SonicBmp.Bgp.UpdateDb
open SonicBmp.Bus.Interface
open SonicBmp.Bmp.ParseBmp
open SonicBmp.Bmp.Framing (holds_bmpDataMem)
open SonicBmp.Bmp.Reader
open SonicBmp.Bmp.RouteMonitoring

/-- The width that the A flag announces. -/
def announcedWidth (h : PeerHeader) : AsnWidth :=
  if flagSet (memOf h.bytes 1) 0x20 then .two else .four

/-- An UPDATE with one AS path, every segment of which has an ASN. The other attributes
and the two route fields are any bytes. -/
structure PathUpdate (w : AsnWidth) where
  withdrawn : List UInt8
  before : List PathAttr
  flags : UInt8
  path : List (PathSegment w)
  after : List PathAttr
  nlri : List UInt8
  other_types : ∀ a ∈ before ++ after, a.code ≠ 2
  some_asn : ∀ s ∈ path, s.asns ≠ []
  path_fits : (path.flatMap PathSegment.encode).length <
    (if attrFlagExtended flags.toNat then 65536 else 256)
  fits : bmpPeerHdrLen + (bgpUpdate withdrawn (encodeAttrs (before ++
    ⟨flags, 2, path.flatMap PathSegment.encode, path_fits⟩ :: after)) nlri).length ≤ bgpMaxMsgSize

section

variable {w : AsnWidth}

def PathUpdate.attrs (u : PathUpdate w) : List PathAttr :=
  u.before ++ ⟨u.flags, 2, u.path.flatMap PathSegment.encode, u.path_fits⟩ :: u.after

def PathUpdate.msg (u : PathUpdate w) (header : PeerHeader) : RouteMsg where
  header := header.bytes
  payload := bgpUpdate u.withdrawn (encodeAttrs u.attrs) u.nlri
  header_length := header.length_bytes
  fits := u.fits

end

variable (D : Decoders)

/-- The data the reader hands to `UpdateDB` for a message, the peer's entry in the table
being updated by the A flag first. -/
def parsedData (env : Env) (peers : PeerInfoMap) (msg : RouteMsg) : Option (ParsedUpdateData D) :=
  (msg.update D env (msg.info env peers)).passed

variable {D}

/-- The text, the length and the last ASN recorded are those of the path. -/
def DecodedAs {w : AsnWidth} (path : List (PathSegment w)) (parsed : Option (ParsedUpdateData D)) :
    Prop :=
  ∃ data, parsed = some data ∧ ∀ key, keyCode key = 2 → data.attrs key = pathEntries path key

/-- What has to be known of the peer before a message: without the A flag nothing may have
switched it to two octets; with the flag, only the Loc-RIB type needs it switched already. -/
def WidthKnown (header : PeerHeader) (info : PeerInfo) : Prop :=
  match announcedWidth header with
  | .four => info.using2OctetAsn = false
  | .two => header.type ≠ 3 ∨ info.using2OctetAsn = true

theorem parsePeerFlags_isTwoOctet (type flags : UInt8) :
    (parsePeerFlags type flags ObjBgpPeer.zero).isTwoOctet =
      (decide (type ≠ 3) && flagSet flags 0x20) := by
  by_cases locRib : type = 3
  · rw [parsePeerFlags, if_pos locRib]
    cases flagSet flags 0x80 <;> simp [locRib, ObjBgpPeer.zero]
  · simp [(parsePeerFlags_zero locRib).2.1, locRib]

/-- The flag under which a message is parsed. -/
theorem info_using2OctetAsn {w : AsnWidth} (u : PathUpdate w) (header : PeerHeader) (env : Env)
    (peers : PeerInfoMap) :
    ((u.msg header).info env peers).using2OctetAsn =
      ((decide (header.type ≠ 3) && decide (announcedWidth header = .two)) ||
        (peers.at (peerInfoKey (header.peer env.clock))).using2OctetAsn) := by
  have announced : (header.peer env.clock).isTwoOctet =
      (decide (header.type ≠ 3) && decide (announcedWidth header = .two)) := by
    have flag : decide (announcedWidth header = .two) = flagSet (memOf header.bytes 1) 0x20 := by
      unfold announcedWidth
      cases flagSet (memOf header.bytes 1) 0x20 <;> rfl
    rw [flag]
    exact parsePeerFlags_isTwoOctet header.type (memOf header.bytes 1)
  have noted (peer : ObjBgpPeer) (info : PeerInfo) :
      (noteTwoOctet peer info).using2OctetAsn = (peer.isTwoOctet || info.using2OctetAsn) := by
    unfold noteTwoOctet
    cases peer.isTwoOctet <;> simp
  rw [← announced]
  exact noted _ _

private theorem nlriSection_attrs (m : Mem) (data len : Nat) (st : UpdateState D) :
    (nlriSection m data len st).data.attrs = st.data.attrs := rfl

/-- The path is decoded as the segment list of the parser's width that its bytes spell,
whatever width the sender meant. -/
theorem parsedData_path {w w' : AsnWidth} (u : PathUpdate w') (header : PeerHeader) (env : Env)
    (peers : PeerInfoMap) (segs : List (PathSegment w))
    (spelled : segs.flatMap PathSegment.encode = u.path.flatMap PathSegment.encode)
    (some_asn : segs = [] ∨ segmentAsns segs ≠ [])
    (flag : ((u.msg header).info env peers).using2OctetAsn = w.flag) :
    DecodedAs segs (parsedData D env peers (u.msg header)) := by
  have max : bgpMaxMsgSize = 65535 := rfl
  have fits : (bgpUpdate u.withdrawn (encodeAttrs u.attrs) u.nlri).length ≤ bgpMaxMsgSize :=
    (Nat.le_add_left _ _).trans u.fits
  have held := holds_bmpDataMem env.beyond (bgpUpdate u.withdrawn (encodeAttrs u.attrs) u.nlri)
  have body := (parseBgpHeader_bgpUpdate _ _ _ held fits).2
  have small : (updateBody u.withdrawn (encodeAttrs u.attrs) u.nlri).length < 65536 := by
    rw [bgpUpdate_length] at fits
    omega
  have some_attr : encodeAttrs u.attrs ≠ [] := by simp [encodeAttrs_eq_nil, PathUpdate.attrs]
  have read := parseUpdateMsg_body (D := D) ((u.msg header).info env peers) _ _ _ body small
    (Or.inr (Or.inl some_attr))
  have outcome := handleUpdate_bgpUpdate (updateDB ((u.msg header).peer env.clock)
    (freshAttr env.memory)) ((u.msg header).info env peers) _ _ _ held fits _ read
  have result : (u.msg header).update D env ((u.msg header).info env peers) = _ := outcome
  refine ⟨_, by rw [parsedData, result], ?_⟩
  intro key own
  rw [nlriSection_attrs]
  simp only [updateBody, holds_append, length_put16] at body
  obtain ⟨-, -, -, hattrs, -⟩ := body
  have start (m : Mem) (data len : Nat) (info : PeerInfo) :
      (withdrawnSection m data len ⟨info, ParsedUpdateData.empty D⟩).info = info ∧
        (withdrawnSection m data len ⟨info, ParsedUpdateData.empty D⟩).data.attrs =
          fun _ => none := by
    unfold withdrawnSection
    split <;> exact ⟨rfl, rfl⟩
  have here : ∃ a ∈ u.attrs, a.code = 2 :=
    ⟨⟨u.flags, 2, u.path.flatMap PathSegment.encode, u.path_fits⟩, by simp [PathUpdate.attrs], rfl⟩
  refine parseAttributes_path u.attrs segs some_asn here ?_ hattrs _
    (by rw [(start _ _ _ _).1]; exact flag) (fun key _ => by rw [(start _ _ _ _).2]) key own
  intro a inside isPath
  simp only [PathUpdate.attrs, List.mem_append, List.mem_cons] at inside
  rcases inside with inside | rfl | inside
  · exact absurd isPath (u.other_types a (List.mem_append_left _ inside))
  · exact spelled.symm
  · exact absurd isPath (u.other_types a (List.mem_append_right _ inside))

/-! A path of each width that spells another one of the other width. -/

def otherWidth : AsnWidth → AsnWidth
  | .two => .four
  | .four => .two

def trapPath : (w : AsnWidth) → List (PathSegment w)
  | .two => [⟨2, [1], by decide, by decide⟩, ⟨2, [512], by decide, by decide⟩]
  | .four => [⟨2, [65536], by decide, by decide⟩]

def misreadPath : (w : AsnWidth) → List (PathSegment (otherWidth w))
  | .two => [⟨2, [0x10201], by decide, by decide⟩, ⟨2, [], by decide, by decide⟩]
  | .four => [⟨2, [1], by decide, by decide⟩, ⟨0, [], by decide, by decide⟩]

theorem misreadPath_spelled (w : AsnWidth) :
    (misreadPath w).flatMap PathSegment.encode = (trapPath w).flatMap PathSegment.encode := by
  cases w <;> decide

theorem misreadPath_differs (w : AsnWidth) :
    pathEntries (misreadPath w) .asPath ≠ pathEntries (trapPath w) .asPath := by
  cases w <;> decide

def trapUpdate (w : AsnWidth) : PathUpdate w where
  withdrawn := []
  before := []
  flags := 0x40
  path := trapPath w
  after := []
  nlri := []
  other_types := by simp
  some_asn := by cases w <;> simp [trapPath]
  path_fits := by cases w <;> decide
  fits := by cases w <;> decide

/-- From any peer table, and so after any earlier messages: all paths of the width that
the A flag announces are decoded at that width iff the peer's entry agrees with it. -/
theorem asPath_width_iff (D : Decoders) (env : Env) (peers : PeerInfoMap) (header : PeerHeader) :
    (∀ u : PathUpdate (announcedWidth header), DecodedAs u.path (parsedData D env peers (u.msg header))) ↔
      WidthKnown header (peers.at (peerInfoKey (header.peer env.clock))) := by
  constructor
  · intro decoded
    by_contra unknown
    have flag : (((trapUpdate (announcedWidth header)).msg header).info env peers).using2OctetAsn =
        (otherWidth (announcedWidth header)).flag := by
      rw [info_using2OctetAsn]
      simp only [WidthKnown] at unknown
      cases width : announcedWidth header <;> simp_all [otherWidth, AsnWidth.flag]
    obtain ⟨data, passed, entries⟩ := decoded (trapUpdate (announcedWidth header))
    obtain ⟨data', passed', entries'⟩ := parsedData_path (D := D) (trapUpdate (announcedWidth header)) header
      env peers (misreadPath (announcedWidth header)) (misreadPath_spelled _)
      (Or.inr (by cases announcedWidth header <;> decide)) flag
    obtain rfl : data = data' := Option.some.inj (passed.symm.trans passed')
    exact misreadPath_differs (announcedWidth header) ((entries' .asPath rfl).symm.trans (entries .asPath rfl))
  · intro known u
    have asns : u.path = [] ∨ segmentAsns u.path ≠ [] := by
      cases path : u.path with
      | nil => exact Or.inl rfl
      | cons s segs =>
        have nonempty := u.some_asn s (by simp [path])
        exact Or.inr (by simp [segmentAsns, nonempty])
    refine parsedData_path u header env peers u.path rfl asns ?_
    rw [info_using2OctetAsn]
    simp only [WidthKnown] at known
    cases width : announcedWidth header <;> simp_all [AsnWidth.flag]

/-! A message with the A flag, then one without it. -/

private def twoOctetMsg : UnicastMsg := tenMsg 0 0x20

/-- The path 65536 of the second message, whose A flag is clear, is decoded as 1. -/
theorem two_octets_stay_on :
    ∃ peers, (readerThreadLoop Decoders.silent (fun _ => quietEnv) 1 (fun _ => none)
        (twoOctetMsg.routeMsg.bytes ++ ((trapUpdate .four).msg PeerHeader.plain).bytes)).2 =
          some (peers, ((trapUpdate .four).msg PeerHeader.plain).bytes) ∧
      announcedWidth PeerHeader.plain = .four ∧
      pathEntries (trapUpdate .four).path .asPath = some " 65536".toList ∧
      ∃ data, parsedData Decoders.silent quietEnv peers ((trapUpdate .four).msg PeerHeader.plain) =
        some data ∧ data.attrs .asPath = some " 1".toList := by
  have round := readIncomingMsg_routeMsg Decoders.silent quietEnv (fun _ => none)
    twoOctetMsg.routeMsg ((trapUpdate .four).msg PeerHeader.plain).bytes
  obtain ⟨-, -, -, -, latches⟩ := twoOctetMsg.published (D := Decoders.silent) quietEnv
    (twoOctetMsg.routeMsg.info quietEnv (fun _ => none)) rfl
  have samePeer : peerInfoKey (PeerHeader.plain.peer quietEnv.clock) =
      peerInfoKey (twoOctetMsg.routeMsg.peer quietEnv.clock) := by decide +kernel
  have flag (info : PeerInfo) (on : info.using2OctetAsn = true) :
      (((trapUpdate .four).msg PeerHeader.plain).info quietEnv (Function.update (fun _ => none)
        (peerInfoKey (twoOctetMsg.routeMsg.peer quietEnv.clock)) (some info))).using2OctetAsn =
          true := by
    rw [info_using2OctetAsn, samePeer, PeerInfoMap.at_update_self, on, Bool.or_true]
  obtain ⟨data, passed, entries⟩ := parsedData_path (D := Decoders.silent) (trapUpdate .four)
    PeerHeader.plain quietEnv _ (misreadPath .four) (misreadPath_spelled _) (Or.inr (by decide))
    (flag _ (latches.using2OctetAsn rfl))
  refine ⟨_, ?_, rfl, by decide, data, passed, (entries .asPath rfl).trans (by decide)⟩
  exact readerThreadLoop_succ_state _ (congrArg _ round)

end SonicBmp.Bmp.AsPathWidth
