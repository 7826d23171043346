/- module: SonicBmp/Bgp/MessageReads
   digest: The bytes that the three BGP message handlers look at, and the buffers they stay in. -/

import SonicBmp.Bgp.OpenReads
import SonicBmp.Bgp.PeerEvent
import SonicBmp.Bgp.UpdateReads

set_option autoImplicit false
set_option relaxedAutoImplicit false

namespace SonicBmp.Bgp.MessageReads

open SonicBmp.Library.Memory
open SonicBmp.Library.Footprint
open SonicBmp.Library.Printing (Text strncpy)
open SonicBmp.Bgp.Common
open SonicBmp.Bgp.Update
open SonicBmp.Bgp.UpdateSafety
open SonicBmp.Bgp.AttrWalk
open SonicBmp.Bgp.UpdateSections
open SonicBmp.Bgp.UpdateReads
open SonicBmp.Bgp.OpenMsg
open SonicBmp.Bgp.OpenReads
open SonicBmp.Bgp.PeerEvent
open SonicBmp.Bus.Interface

/-! What the handlers read. -/

def headerReads (data size : Nat) : List Span :=
  if size < bgpMsgHdrLen then [] else [⟨data, bgpMsgHdrLen⟩]

def notifyReads (data size : Nat) : List Span := if 0 < size then [⟨data, 2⟩] else []

/-- The body of a message for `handleUpdate`, up to the values of its attributes. -/
def updateBodyReads (info : PeerInfo) (m : Mem) (data size : Nat) : List Span :=
  if (parseBgpHeader m data size).1 = bgpMsgUpdate then
    updateReads info m (data + bgpMsgHdrLen) (parseBgpHeader m data size).2
  else []

def notifyBodyReads (m : Mem) (data size : Nat) : List Span :=
  if (parseBgpHeader m data size).1 = bgpMsgNotification then
    notifyReads (data + bgpMsgHdrLen) (parseBgpHeader m data size).2
  else []

def openBodyReads (stale : Int) (sentOpen : Bool) (m : Mem) (addPath : AddPathMap)
    (data size : Nat) : List Span :=
  if (parseBgpHeader m data size).1 = bgpMsgOpen then
    openReads stale sentOpen m addPath (data + bgpMsgHdrLen) (parseBgpHeader m data size).2
  else []

def wrongSent : Text :=
  "ERROR: Invalid BGP MSG for BMP Sent OPEN message, expected OPEN message.".toList

def wrongReceived : Text :=
  "ERROR: Invalid BGP MSG for BMP Received OPEN message, expected OPEN message.".toList

/-- The sent OPEN of an up event. -/
def firstOpen (stale : Int) (m : Mem) (info : PeerInfo) (data size : Nat) :
    Except Text (Nat × OpenResult) :=
  readOpen stale true m info.addPathCapability data size wrongSent

/-- Where the received OPEN is looked for. -/
def secondStart (data : Nat) (sent : Nat × OpenResult) : Nat :=
  data + bgpMsgHdrLen + sent.2.readSize

def upReads (stale : Int) (m : Mem) (info : PeerInfo) (data size : Nat) : List Span :=
  (headerReads data size ++ openBodyReads stale true m info.addPathCapability data size) ++
    match firstOpen stale m info data size with
    | .error _ => []
    | .ok sent =>
      headerReads (secondStart data sent) size ++
        openBodyReads stale false m sent.2.state.addPath (secondStart data sent) size

/-! They look at nothing else. -/

theorem parseBgpHeader_readsOnly (data size : Nat) :
    ReadsOnly (fun m => parseBgpHeader m data size) (fun _ => headerReads data size) := by
  unfold headerReads parseBgpHeader
  refine ReadsOnly.ite (fun _ => ReadsOnly.pure (0, 0)) fun _ => ReadsOnly.read fun m m' same => ?_
  rw [same.u8 18 (by decide), same.u16 16 (by decide)]

theorem updateBody_readsOnly (info : PeerInfo) (data size : Nat) :
    ReadsOnly
      (fun m =>
        (parseBgpHeader m data size,
          if (parseBgpHeader m data size).1 = bgpMsgUpdate then
            updateSkeleton info m (data + bgpMsgHdrLen) (parseBgpHeader m data size).2
          else none))
      (fun m => headerReads data size ++ updateBodyReads info m data size) :=
  (parseBgpHeader_readsOnly data size).bind
    (g := fun header m => (header, if header.1 = bgpMsgUpdate then
      updateSkeleton info m (data + bgpMsgHdrLen) header.2 else none))
    (t := fun header m => if header.1 = bgpMsgUpdate then
      updateReads info m (data + bgpMsgHdrLen) header.2 else [])
    fun header => (ReadsOnly.ite (fun _ => updateSkeleton_readsOnly info _ _)
      fun _ => ReadsOnly.pure none).map (Prod.mk header)

theorem parseNotify_readsOnly (data size : Nat) :
    ReadsOnly (fun m => parseNotify m data size) (fun _ => notifyReads data size) := by
  unfold notifyReads parseNotify
  refine ReadsOnly.ite (fun _ => ReadsOnly.read fun m m' same => ?_) fun _ => ReadsOnly.pure none
  have code : u8 m data = u8 m' data := same.u8 0 (by decide)
  rw [code, same.u8 1 (by decide)]

/-- What `handleDownEvent` returns for the header and the notification it has read. -/
private def downResult (downEvent : ObjPeerDownEvent) (header : Nat × Nat)
    (parsed : Option ParsedNotifyMsg) : Except Text (Bool × ObjPeerDownEvent) :=
  if header.1 = bgpMsgNotification then
    parsed.elim (.ok (true, downEvent)) fun parsed =>
      .ok (false, { downEvent with
        bgpErrCode := parsed.errorCode
        bgpErrSubcode := parsed.errorSubcode
        errorText := strncpy 255 parsed.errorText })
  else
    .error "ERROR: Invalid BGP MSG for BMP down event, expected NOTIFICATION message.".toList

theorem handleDownEvent_readsOnly (data size : Nat) (downEvent : ObjPeerDownEvent) :
    ReadsOnly (fun m => handleDownEvent m data size downEvent)
      (fun m => headerReads data size ++ notifyBodyReads m data size) :=
  (parseBgpHeader_readsOnly data size).bind
    (g := fun header m => downResult downEvent header
      (if header.1 = bgpMsgNotification then
        parseNotify m (data + bgpMsgHdrLen) header.2 else none))
    (t := fun header _ => if header.1 = bgpMsgNotification then
      notifyReads (data + bgpMsgHdrLen) header.2 else [])
    (fun header => (ReadsOnly.ite (fun _ => parseNotify_readsOnly _ _)
      fun _ => ReadsOnly.pure none).map _) |>.of_eq
    (fun m => by
      unfold handleDownEvent downResult
      by_cases type : (parseBgpHeader m data size).1 = bgpMsgNotification
      · simp only [if_pos type]
        cases parseNotify m (data + bgpMsgHdrLen) (parseBgpHeader m data size).2 <;> rfl
      · simp only [if_neg type])
    (fun _ => rfl)

private def openOutcome (len : Nat) (result : OpenResult) : Except Text (Nat × OpenResult) :=
  if result.readSize = 0 then .error "Failed to read open message".toList else .ok (len, result)

theorem readOpen_readsOnly (stale : Int) (sentOpen : Bool) (addPath : AddPathMap)
    (data size : Nat) (wrongType : Text) :
    ReadsOnly (fun m => readOpen stale sentOpen m addPath data size wrongType)
      (fun m => headerReads data size ++ openBodyReads stale sentOpen m addPath data size) := by
  by_cases short : size < bgpMsgHdrLen
  · have header (m : Mem) : parseBgpHeader m data size = (0, 0) := by
      rw [parseBgpHeader, if_pos short]
    refine (ReadsOnly.pure (.error wrongType)).of_eq (fun m => ?_) (fun m => ?_)
    · simp only [readOpen, header]
      rfl
    · simp only [headerReads, if_pos short, openBodyReads, header]
      rfl
  · have header : ReadsOnly (fun m => (parseBgpHeader m data size, u16 m (data + 16)))
        (fun _ => headerReads data size) := by
      rw [headerReads, if_neg short]
      refine ReadsOnly.read fun m m' same => ?_
      simp only [parseBgpHeader, if_neg short, same.u8 18 (by decide), same.u16 16 (by decide)]
    refine (header.bind
      (g := fun h m =>
        if h.1.1 = bgpMsgOpen then
          openOutcome h.2 (parseOpenMsg stale sentOpen m addPath (data + bgpMsgHdrLen) h.1.2)
        else .error wrongType)
      (t := fun h m => if h.1.1 = bgpMsgOpen then
        openReads stale sentOpen m addPath (data + bgpMsgHdrLen) h.1.2 else [])
      (fun h => ReadsOnly.ite
        (fun _ => (parseOpenMsg_readsOnly stale sentOpen addPath _ _).map (openOutcome h.2))
        (fun _ => ReadsOnly.pure _))).of_eq (fun m => rfl) (fun m => rfl)

/-- The up event and the peer information that two parsed OPEN messages lead to. -/
private def upResult (upEvent : ObjPeerUpEvent) (info : PeerInfo) (sent received : Nat × OpenResult) :
    Nat × ObjPeerUpEvent × PeerInfo :=
  (sent.1 + received.1,
    { upEvent with
      localAsn := sent.2.state.asn
      localHoldTime := sent.2.holdTime
      localBgpId := strncpy 16 sent.2.bgpId
      sentCap := strncpy 4096 (capString sent.2.state.capabilities)
      remoteAsn := received.2.state.asn
      remoteHoldTime := received.2.holdTime
      remoteBgpId := strncpy 16 received.2.bgpId
      recvCap := strncpy 4096 (capString received.2.state.capabilities) },
    { info with
      sentFourOctetAsn := fourOctetAsn sent.2.state.capabilities
      recvFourOctetAsn := fourOctetAsn received.2.state.capabilities
      using2OctetAsn := false
      addPathCapability := received.2.state.addPath })

def secondOpen (stale : Int) (m : Mem) (data size : Nat) (sent : Nat × OpenResult) :
    Except Text (Nat × OpenResult) :=
  readOpen stale false m sent.2.state.addPath (secondStart data sent) size wrongReceived

theorem handleUpEvent_eq (stale : Int) (m : Mem) (data size : Nat) (upEvent : ObjPeerUpEvent)
    (info : PeerInfo) :
    handleUpEvent stale m data size upEvent info =
      (firstOpen stale m info data size).bind fun sent =>
        (secondOpen stale m data size sent).map (upResult upEvent info sent) := by
  show (firstOpen stale m info data size >>= fun sent =>
    secondOpen stale m data size sent >>= fun received => pure (upResult upEvent info sent received)) = _
  cases firstOpen stale m info data size with
  | error text => rfl
  | ok sent =>
    show (secondOpen stale m data size sent >>= fun received =>
      pure (upResult upEvent info sent received)) = _
    simp only [Except.bind]
    cases secondOpen stale m data size sent <;> rfl

theorem handleUpEvent_readsOnly (stale : Int) (data size : Nat) (upEvent : ObjPeerUpEvent)
    (info : PeerInfo) :
    ReadsOnly (fun m => handleUpEvent stale m data size upEvent info)
      (fun m => upReads stale m info data size) := by
  refine ((readOpen_readsOnly stale true info.addPathCapability data size wrongSent).bind
    (g := fun first m => first.bind fun sent =>
      (secondOpen stale m data size sent).map (upResult upEvent info sent))
    (t := fun first m => match first with
      | .error _ => []
      | .ok sent =>
        headerReads (secondStart data sent) size ++
          openBodyReads stale false m sent.2.state.addPath (secondStart data sent) size)
    ?_).of_eq (fun m => handleUpEvent_eq stale m data size upEvent info) (fun m => rfl)
  rintro (text | sent)
  · exact ReadsOnly.pure (Except.error text)
  · exact (readOpen_readsOnly stale false sent.2.state.addPath (secondStart data sent) size
      wrongReceived).map (Except.map (upResult upEvent info sent))

/-! Buffers the handlers stay in. -/

/-- The length field of the message at `data`. -/
def msgLen (m : Mem) (data : Nat) : Nat := u16 m (data + 16)

def msgType (m : Mem) (data : Nat) : Nat := u8 m (data + 18)

theorem parseBgpHeader_of_le (m : Mem) (data : Nat) {size : Nat} (whole : bgpMsgHdrLen ≤ size) :
    parseBgpHeader m data size =
      (msgType m data, (msgLen m data + 2 ^ 32 - bgpMsgHdrLen) % 2 ^ 32) := by
  rw [parseBgpHeader, if_neg (Nat.not_lt.mpr whole)]
  rfl

theorem parseBgpHeader_of_lt (m : Mem) (data : Nat) {size : Nat} (short : size < bgpMsgHdrLen) :
    parseBgpHeader m data size = (0, 0) := by
  rw [parseBgpHeader, if_pos short]

theorem msgLen_lt (m : Mem) (data : Nat) : msgLen m data < 65536 := u16_lt m (data + 16)

/-- What is left of a message behind its header, when the length field allows for one. -/
theorem remaining_of_le {m : Mem} {data : Nat} (low : bgpMsgHdrLen ≤ msgLen m data) :
    (msgLen m data + 2 ^ 32 - bgpMsgHdrLen) % 2 ^ 32 = msgLen m data - bgpMsgHdrLen := by
  have hdr : bgpMsgHdrLen = 19 := rfl
  have field := msgLen_lt m data
  omega

/-- A message with its length field among the `avail` bytes from its start on, and the
field is below nineteen or beyond those bytes. -/
def BadLength (m : Mem) (data avail : Nat) : Prop :=
  18 ≤ avail ∧ (msgLen m data < bgpMsgHdrLen ∨ avail < msgLen m data)

section Update

variable {D : Decoders} {B : Type} (db : ParsedUpdateData D → List B)

/-- `handleUpdate` stays in its buffer, and reports a header with a wrong length without
a look at the body. -/
def UpdateSafe (info : PeerInfo) (m : Mem) (data size : Nat) : Prop :=
  Inside data (data + size) (headerReads data size ++ updateBodyReads info m data size) ∧
    (BadLength m data size → (handleUpdate D db info m data size).error = true ∧
      updateBodyReads info m data size = [])

/-- The three walks end before `limit`. -/
def SectionsInside (info : PeerInfo) (m : Mem) (body limit : Nat) (s : Sections) : Prop :=
  (s.withdrawn.len = 0 ∨ nlriStop (info.addPathUnicast true) m s.withdrawn.len
      (body + s.withdrawn.start) 0 ≤ limit) ∧
    (∀ v ∈ sectionVisits m (body + s.attributes.start) s.attributes.len,
      body + s.attributes.start + v.value ≤ limit) ∧
    (s.nlri.len = 0 ∨ nlriStop (info.addPathUnicast true) m s.nlri.len
      (body + s.nlri.start) 0 ≤ limit)

/-- The length fields lie before `limit`, as far as they are read, and so do the walks. -/
def BodyInside (info : PeerInfo) (m : Mem) (body size limit : Nat) : Prop :=
  size < 2 ∨ body + 2 ≤ limit ∧
    (size - 2 < withdrawnLen m body ∨ body + 4 + withdrawnLen m body ≤ limit ∧
      ∀ s, handedSections m body size = some s → SectionsInside info m body limit s)

theorem inside_sectionReads (info : PeerInfo) (m : Mem) (lo body limit : Nat) (above : lo ≤ body)
    (s : Sections) :
    Inside lo limit (sectionReads info m body s) ↔ SectionsInside info m body limit s := by
  unfold sectionReads SectionsInside
  rw [inside_append, inside_append, inside_nlriReads _ _ _ _ _ _ (by omega),
    inside_headReads _ _ _ _ _ (by omega), inside_nlriReads _ _ _ _ _ _ (by omega)]

theorem inside_lengthReads (m : Mem) (lo body size limit : Nat) (above : lo ≤ body) :
    Inside lo limit (lengthReads m body size) ↔
      size < 2 ∨ body + 2 ≤ limit ∧
        (size - 2 < withdrawnLen m body ∨ body + 4 + withdrawnLen m body ≤ limit) := by
  unfold lengthReads
  by_cases short : size < 2
  · rw [if_pos short]
    simp [short]
  rw [if_neg short]
  by_cases withdrawnShort : size - 2 < withdrawnLen m body
  · rw [if_pos withdrawnShort]
    simp [short, withdrawnShort, Span.stop, above]
  · rw [if_neg withdrawnShort]
    simp only [inside_append, inside_cons, inside_nil, Span.stop, and_true]
    omega

theorem inside_updateReads (info : PeerInfo) (m : Mem) (lo body size limit : Nat)
    (above : lo ≤ body) :
    Inside lo limit (updateReads info m body size) ↔ BodyInside info m body size limit := by
  unfold updateReads BodyInside
  rw [inside_append, inside_lengthReads m lo body size limit above]
  cases sections : handedSections m body size with
  | none => simp
  | some s =>
    have passed : ¬ size < 2 ∧ ¬ size - 2 < withdrawnLen m body := by
      by_contra failed
      have given_up : handedSections m body size = none := by
        simp only [handedSections]
        split_ifs <;> first | rfl | omega
      rw [given_up] at sections
      cases sections
    simp only [Option.elim_some, inside_sectionReads info m lo body limit above,
      Option.some.injEq, forall_eq', passed.1, passed.2, false_or, and_assoc]

/-- A length field of twenty in a buffer of nineteen: the body parser gives up, and its
zero is what the handler expects of an empty body. -/
private theorem handleUpdate_one_byte (info : PeerInfo) (m : Mem) (data : Nat)
    (len : msgLen m data = 20) : (handleUpdate D db info m data 19).error = false := by
  have header := parseBgpHeader_of_le m data (show bgpMsgHdrLen ≤ 19 from le_rfl)
  have remaining : (msgLen m data + 2 ^ 32 - bgpMsgHdrLen) % 2 ^ 32 = 1 := by rw [len]; rfl
  rw [remaining] at header
  have given_up : parseUpdateMsg D info m (data + bgpMsgHdrLen) 1 =
      (0, ⟨info, ParsedUpdateData.empty D⟩) := by
    rw [parseUpdateMsg, if_pos (show 1 < 2 by decide)]
  simp only [handleUpdate, header, given_up]
  split <;> rfl

/-- A message of another type is not an error. -/
private theorem handleUpdate_other (info : PeerInfo) (m : Mem) (data size : Nat)
    (type : (parseBgpHeader m data size).1 ≠ bgpMsgUpdate) :
    (handleUpdate D db info m data size).error = false := by
  simp only [handleUpdate, if_neg type]

theorem updateReads_ne_nil (info : PeerInfo) (m : Mem) (body size : Nat) (long : 2 ≤ size) :
    updateReads info m body size ≠ [] := by
  rw [updateReads, lengthReads, if_neg (by omega)]
  simp

/-- With a wrong length field `handleUpdate` either returns no error or has looked at the
body. -/
private theorem badLength_not_safe (info : PeerInfo) (m : Mem) (data size : Nat)
    (bad : BadLength m data size) : ¬ UpdateSafe db info m data size := by
  intro safe
  obtain ⟨error, unread⟩ := safe.2 bad
  have outside := bad.2
  have field := msgLen_lt m data
  have hdr : bgpMsgHdrLen = 19 := rfl
  by_cases type : (parseBgpHeader m data size).1 = bgpMsgUpdate
  · by_cases short : size < bgpMsgHdrLen
    · rw [parseBgpHeader_of_lt m data short] at type
      cases type
    have few : (parseBgpHeader m data size).2 < 2 := by
      by_contra long
      rw [updateBodyReads, if_pos type] at unread
      exact updateReads_ne_nil info m _ _ (Nat.not_lt.mp long) unread
    rw [parseBgpHeader_of_le m data (Nat.not_lt.mp short)] at few
    have len : msgLen m data = 20 := by omega
    have size19 : size = 19 := by omega
    rw [size19, handleUpdate_one_byte db info m data len] at error
    cases error
  · rw [handleUpdate_other db info m data size type] at error
    cases error

/-- Too short for a length field, or with a length field that is right and, in an UPDATE,
walks that end in the buffer. -/
def UpdateFits (info : PeerInfo) (m : Mem) (data size : Nat) : Prop :=
  size < 18 ∨
    bgpMsgHdrLen ≤ msgLen m data ∧ msgLen m data ≤ size ∧
      (msgType m data = bgpMsgUpdate →
        BodyInside info m (data + bgpMsgHdrLen) (msgLen m data - bgpMsgHdrLen) (data + size))

theorem updateSafe_iff (info : PeerInfo) (m : Mem) (data size : Nat) :
    UpdateSafe db info m data size ↔ UpdateFits info m data size := by
  unfold UpdateFits
  have hdr : bgpMsgHdrLen = 19 := rfl
  by_cases bad : BadLength m data size
  · refine iff_of_false (badLength_not_safe db info m data size bad) (fun fine => ?_)
    have outside := bad.2
    have here := bad.1
    omega
  have right : size < 18 ∨ bgpMsgHdrLen ≤ msgLen m data ∧ msgLen m data ≤ size := by
    unfold BadLength at bad
    omega
  rcases right with short | ⟨low, high⟩
  · refine iff_of_true ⟨?_, fun isBad => absurd isBad bad⟩ (Or.inl short)
    have below : size < bgpMsgHdrLen := by omega
    rw [headerReads, if_pos below, updateBodyReads, parseBgpHeader_of_lt m data below,
      if_neg (by decide)]
    exact inside_nil _ _
  · have whole : bgpMsgHdrLen ≤ size := low.trans high
    have body : Inside data (data + size) (updateBodyReads info m data size) ↔
        (msgType m data = bgpMsgUpdate →
          BodyInside info m (data + bgpMsgHdrLen) (msgLen m data - bgpMsgHdrLen) (data + size)) := by
      rw [updateBodyReads, parseBgpHeader_of_le m data whole, remaining_of_le low]
      split
      · rename_i type
        rw [inside_updateReads info m data _ _ _ (Nat.le_add_right data _)]
        exact ⟨fun inside _ => inside, fun inside => inside type⟩
      · rename_i type
        exact iff_of_true (inside_nil _ _) (fun isUpdate => absurd isUpdate type)
    have long : ¬ size < 18 := by omega
    unfold UpdateSafe
    rw [inside_append, body, headerReads, if_neg (Nat.not_lt.mpr whole)]
    simp only [bad, false_implies, and_true, long, false_or, low, high, true_and,
      inside_cons, inside_nil, Span.stop, le_refl, Nat.add_le_add_iff_left, whole]

end Update

section Down

/-- An error return or a throw. -/
def Rejected (result : Except Text (Bool × ObjPeerDownEvent)) : Prop :=
  ∀ downEvent, result ≠ .ok (false, downEvent)

def DownSafe (downEvent : ObjPeerDownEvent) (m : Mem) (data size : Nat) : Prop :=
  Inside data (data + size) (headerReads data size ++ notifyBodyReads m data size) ∧
    (BadLength m data size → Rejected (handleDownEvent m data size downEvent) ∧
      notifyBodyReads m data size = [])

/-- A message whose body was not looked at did not become a down event. -/
theorem rejected_of_unread (downEvent : ObjPeerDownEvent) (m : Mem) (data size : Nat)
    (unread : notifyBodyReads m data size = []) :
    Rejected (handleDownEvent m data size downEvent) := by
  intro after
  unfold notifyBodyReads notifyReads at unread
  by_cases type : (parseBgpHeader m data size).1 = bgpMsgNotification
  · rw [if_pos type] at unread
    have empty : ¬ 0 < (parseBgpHeader m data size).2 := by
      intro more
      rw [if_pos more] at unread
      cases unread
    have nothing : parseNotify m (data + bgpMsgHdrLen) (parseBgpHeader m data size).2 = none := by
      rw [parseNotify, if_neg empty]
    simp [handleDownEvent, type, nothing]
  · simp [handleDownEvent, type]

/-- A NOTIFICATION without a body, or one whose length field is right and with both error
octets in the buffer; other types make the handler throw. -/
def DownFits (m : Mem) (data size : Nat) : Prop :=
  size < bgpMsgHdrLen ∨ msgType m data ≠ bgpMsgNotification ∨ msgLen m data = bgpMsgHdrLen ∨
    bgpMsgHdrLen < msgLen m data ∧ msgLen m data ≤ size ∧ bgpMsgHdrLen + 2 ≤ size

theorem downSafe_iff (downEvent : ObjPeerDownEvent) (m : Mem) (data size : Nat) :
    DownSafe downEvent m data size ↔ DownFits m data size := by
  unfold DownFits
  have hdr : bgpMsgHdrLen = 19 := rfl
  have field := msgLen_lt m data
  have unread_iff : DownSafe downEvent m data size ↔
      Inside data (data + size) (headerReads data size ++ notifyBodyReads m data size) ∧
        (BadLength m data size → notifyBodyReads m data size = []) :=
    and_congr_right fun _ => ⟨fun safe bad => (safe bad).2,
      fun safe bad => ⟨rejected_of_unread downEvent m data size (safe bad), safe bad⟩⟩
  rw [unread_iff, inside_append]
  by_cases short : size < bgpMsgHdrLen
  · have unread : notifyBodyReads m data size = [] := by
      rw [notifyBodyReads, parseBgpHeader_of_lt m data short, if_neg (by decide)]
    simp [headerReads, short, unread]
  have whole : bgpMsgHdrLen ≤ size := Nat.not_lt.mp short
  have head : Inside data (data + size) (headerReads data size) := by
    simp [headerReads, short, Span.stop, whole]
  by_cases type : msgType m data = bgpMsgNotification
  swap
  · have unread : notifyBodyReads m data size = [] := by
      rw [notifyBodyReads, parseBgpHeader_of_le m data whole, if_neg type]
    simp [unread, head, type]
  by_cases bare : msgLen m data = bgpMsgHdrLen
  · have unread : notifyBodyReads m data size = [] := by
      rw [notifyBodyReads, parseBgpHeader_of_le m data whole, if_pos type, bare]
      rfl
    simp [unread, head, bare]
  · have read : notifyBodyReads m data size = [⟨data + bgpMsgHdrLen, 2⟩] := by
      rw [notifyBodyReads, parseBgpHeader_of_le m data whole, if_pos type]
      exact if_pos (by omega)
    simp only [read, head, inside_cons, inside_nil, Span.stop, BadLength, short, type, bare,
      ne_eq, not_true_eq_false, false_or, List.cons_ne_nil, and_true, true_and, imp_false]
    omega

end Down

section Up

/-- `handleUpEvent` throws. -/
def Throws {α : Type} (result : Except Text α) : Prop := ∃ text, result = .error text

def UpSafe (stale : Int) (upEvent : ObjPeerUpEvent) (info : PeerInfo) (m : Mem)
    (data size : Nat) : Prop :=
  Inside data (data + size) (upReads stale m info data size) ∧
    (BadLength m data size → Throws (handleUpEvent stale m data size upEvent info) ∧
      openBodyReads stale true m info.addPathCapability data size = []) ∧
    ∀ sent, firstOpen stale m info data size = .ok sent →
      BadLength m (secondStart data sent) (data + size - secondStart data sent) →
        Throws (handleUpEvent stale m data size upEvent info) ∧
          openBodyReads stale false m sent.2.state.addPath (secondStart data sent) size = []

/-- The OPEN message at `start` is not looked at, is of another type or too short for an
OPEN, or has a length field that is right and capabilities that end before `limit`. -/
def OpenInside (stale : Int) (sentOpen : Bool) (m : Mem) (addPath : AddPathMap)
    (lo start size limit : Nat) : Prop :=
  size < bgpMsgHdrLen ∨
    start + bgpMsgHdrLen ≤ limit ∧
      (msgType m start ≠ bgpMsgOpen ∨
        bgpMsgHdrLen ≤ msgLen m start ∧ msgLen m start < bgpMsgHdrLen + openBgpHdrLen ∨
        bgpMsgHdrLen + openBgpHdrLen ≤ msgLen m start ∧ start + msgLen m start ≤ limit ∧
          Inside lo limit
            (parseCapabilitiesReads stale sentOpen m (start + bgpMsgHdrLen + openBgpHdrLen)
              (walkedParams (msgLen m start - bgpMsgHdrLen) (u8 m (start + bgpMsgHdrLen + 9))) 0
              ⟨u16 m (start + bgpMsgHdrLen + 1), [], addPath⟩))

theorem openInside_iff (stale : Int) (sentOpen : Bool) (m : Mem) (addPath : AddPathMap)
    (lo start size limit : Nat) (above : lo ≤ start) :
    Inside lo limit (headerReads start size) ∧
        Inside lo limit (openBodyReads stale sentOpen m addPath start size) ∧
        (BadLength m start (limit - start) →
          openBodyReads stale sentOpen m addPath start size = []) ↔
      OpenInside stale sentOpen m addPath lo start size limit := by
  have hdr : bgpMsgHdrLen = 19 := rfl
  have open_hdr : openBgpHdrLen = 10 := rfl
  have field := msgLen_lt m start
  unfold OpenInside
  by_cases short : size < bgpMsgHdrLen
  · have unread : openBodyReads stale sentOpen m addPath start size = [] := by
      rw [openBodyReads, parseBgpHeader_of_lt m start short, if_neg (by decide)]
    simp [headerReads, short, unread]
  have whole : bgpMsgHdrLen ≤ size := Nat.not_lt.mp short
  have head : Inside lo limit (headerReads start size) ↔ start + bgpMsgHdrLen ≤ limit := by
    simp [headerReads, short, Span.stop, above]
  rw [head, or_iff_right short]
  refine and_congr_right fun fits => ?_
  by_cases type : msgType m start = bgpMsgOpen
  swap
  · have unread : openBodyReads stale sentOpen m addPath start size = [] := by
      rw [openBodyReads, parseBgpHeader_of_le m start whole, if_neg type]
    simp [unread, type]
  rw [or_iff_right (not_not_intro type)]
  by_cases few : bgpMsgHdrLen ≤ msgLen m start ∧ msgLen m start < bgpMsgHdrLen + openBgpHdrLen
  · have unread : openBodyReads stale sentOpen m addPath start size = [] := by
      rw [openBodyReads, parseBgpHeader_of_le m start whole, if_pos type, openReads,
        if_pos (by omega)]
    simp [unread, few]
  rw [or_iff_right few]
  have read : openBodyReads stale sentOpen m addPath start size ≠ [] := by
    rw [openBodyReads, parseBgpHeader_of_le m start whole, if_pos type, openReads,
      if_neg (by omega)]
    simp
  by_cases right : bgpMsgHdrLen + openBgpHdrLen ≤ msgLen m start ∧ start + msgLen m start ≤ limit
  · have fine : ¬ BadLength m start (limit - start) := by
      unfold BadLength
      omega
    have fixed : lo ≤ start + bgpMsgHdrLen ∧ start + bgpMsgHdrLen + openBgpHdrLen ≤ limit := by
      omega
    rw [openBodyReads, parseBgpHeader_of_le m start whole, if_pos type, openReads,
      if_neg (by omega), remaining_of_le (by omega)]
    simp [fine, right.1, right.2, Span.stop, fixed.1, fixed.2]
  · have bad : BadLength m start (limit - start) := by
      unfold BadLength
      omega
    refine iff_of_false (fun safe => read (safe.2 bad)) (fun fine => right ⟨fine.1, fine.2.1⟩)

/-- An OPEN whose body was not looked at is not accepted. -/
theorem readOpen_of_unread (stale : Int) (sentOpen : Bool) (m : Mem) (addPath : AddPathMap)
    (data size : Nat) (wrongType : Text)
    (unread : openBodyReads stale sentOpen m addPath data size = []) :
    Throws (readOpen stale sentOpen m addPath data size wrongType) := by
  unfold readOpen
  by_cases type : (parseBgpHeader m data size).1 = bgpMsgOpen
  · have few : (parseBgpHeader m data size).2 < openBgpHdrLen := by
      by_contra long
      rw [openBodyReads, if_pos type, openReads, if_neg long] at unread
      cases unread
    simp only [type, if_true]
    rw [parseOpenMsg, if_pos few]
    exact ⟨_, rfl⟩
  · simp only [type, if_false]
    exact ⟨_, rfl⟩

theorem handleUpEvent_of_first {stale : Int} {m : Mem} {data size : Nat} {info : PeerInfo}
    (upEvent : ObjPeerUpEvent) (first : Throws (firstOpen stale m info data size)) :
    Throws (handleUpEvent stale m data size upEvent info) := by
  obtain ⟨text, thrown⟩ := first
  exact ⟨text, by rw [handleUpEvent_eq, thrown]; rfl⟩

theorem handleUpEvent_of_second {stale : Int} {m : Mem} {data size : Nat} {info : PeerInfo}
    (upEvent : ObjPeerUpEvent) {sent : Nat × OpenResult}
    (first : firstOpen stale m info data size = .ok sent)
    (second : Throws (secondOpen stale m data size sent)) :
    Throws (handleUpEvent stale m data size upEvent info) := by
  obtain ⟨text, thrown⟩ := second
  refine ⟨text, ?_⟩
  rw [handleUpEvent_eq, first]
  simp only [Except.bind, thrown]
  rfl

/-- Each of the OPEN messages that the handler comes to is fine. -/
def UpFits (stale : Int) (info : PeerInfo) (m : Mem) (data size : Nat) : Prop :=
  OpenInside stale true m info.addPathCapability data data size (data + size) ∧
    ∀ sent, firstOpen stale m info data size = .ok sent →
      OpenInside stale false m sent.2.state.addPath data (secondStart data sent) size
        (data + size)

theorem upSafe_iff (stale : Int) (upEvent : ObjPeerUpEvent) (info : PeerInfo) (m : Mem)
    (data size : Nat) :
    UpSafe stale upEvent info m data size ↔ UpFits stale info m data size := by
  unfold UpFits
  have throwsFirst := readOpen_of_unread stale true m info.addPathCapability data size wrongSent
  have first := openInside_iff stale true m info.addPathCapability data data size (data + size)
    le_rfl
  rw [Nat.add_sub_cancel_left] at first
  unfold UpSafe upReads
  rw [← first, inside_append, inside_append]
  cases opened : firstOpen stale m info data size with
  | error text =>
    have thrown : Throws (handleUpEvent stale m data size upEvent info) :=
      handleUpEvent_of_first upEvent ⟨text, opened⟩
    simp [thrown, and_assoc]
  | ok sent =>
    have above : data ≤ secondStart data sent := by
      unfold secondStart
      omega
    have second := openInside_iff stale false m sent.2.state.addPath data (secondStart data sent)
      size (data + size) above
    have throwsSecond := readOpen_of_unread stale false m sent.2.state.addPath
      (secondStart data sent) size wrongReceived
    simp only [Except.ok.injEq, forall_eq', inside_append, ← second]
    constructor
    · rintro ⟨⟨⟨head, body⟩, head', body'⟩, bad, bad'⟩
      exact ⟨⟨head, body, fun isBad => (bad isBad).2⟩, head', body', fun isBad => (bad' isBad).2⟩
    · rintro ⟨⟨head, body, bad⟩, head', body', bad'⟩
      refine ⟨⟨⟨head, body⟩, head', body'⟩, fun isBad => ⟨?_, bad isBad⟩,
        fun isBad => ⟨?_, bad' isBad⟩⟩
      · exact handleUpEvent_of_first upEvent (throwsFirst (bad isBad))
      · exact handleUpEvent_of_second upEvent opened (throwsSecond (bad' isBad))

end Up

end SonicBmp.Bgp.MessageReads
