/- module: SonicBmp/Bgp/OpenCodec
   digest: OPEN messages as a peer encodes them, and the add-path table they leave. -/

import SonicBmp.Bgp.PeerEvent

set_option autoImplicit false
set_option relaxedAutoImplicit false

namespace SonicBmp.Bgp.OpenCodec

open SonicBmp.Library.Printing
open SonicBmp.Library.Memory
open SonicBmp.Library.Loop
open SonicBmp.Bgp.Common
open SonicBmp.Bgp.OpenMsg
open SonicBmp.Bgp.Update
open SonicBmp.Bgp.PeerEvent
open SonicBmp.Bus.Interface

/-! Messages. -/

structure AddPathTuple where
  afi : UInt16
  safi : UInt8
  sendReceive : UInt8
  deriving DecidableEq

def AddPathTuple.bytes (t : AddPathTuple) : List UInt8 := put16 t.afi.toNat ++ [t.safi, t.sendReceive]

/-- A capability; the parser gives up on a multiprotocol one of another length. -/
inductive OpenCapability
  | addPath (tuples : List AddPathTuple)
  | other (code : UInt8) (value : List UInt8)
      (known : code ≠ 69 ∧ (code = 1 → value.length = 4))

def OpenCapability.code : OpenCapability → UInt8
  | .addPath _ => 69
  | .other code _ _ => code

def OpenCapability.value : OpenCapability → List UInt8
  | .addPath tuples => tuples.flatMap AddPathTuple.bytes
  | .other _ value _ => value

def OpenCapability.bytes (c : OpenCapability) : List UInt8 :=
  put8 c.code.toNat ++ (put8 c.value.length ++ c.value)

/-- An optional parameter with one capability, or of a type that is skipped. -/
inductive OpenParam
  | capability (c : OpenCapability)
  | other (type : UInt8) (value : List UInt8) (notCap : type ≠ 2)

def OpenParam.body : OpenParam → List UInt8
  | .capability c => c.bytes
  | .other _ value _ => value

def OpenParam.type : OpenParam → UInt8
  | .capability _ => 2
  | .other type _ _ => type

def OpenParam.bytes (param : OpenParam) : List UInt8 :=
  put8 param.type.toNat ++ (put8 param.body.length ++ param.body)

def OpenParam.tuples : OpenParam → List AddPathTuple
  | .capability (.addPath tuples) => tuples
  | _ => []

structure OpenMessage where
  version : UInt8
  asn : UInt16
  holdTime : UInt16
  bgpId : UInt32
  params : List OpenParam
  fits : (params.flatMap OpenParam.bytes).length ≤ 255

def OpenMessage.paramBytes (o : OpenMessage) : List UInt8 := o.params.flatMap OpenParam.bytes

def OpenMessage.body (o : OpenMessage) : List UInt8 :=
  put8 o.version.toNat ++ (put16 o.asn.toNat ++ (put16 o.holdTime.toNat ++ (put32 o.bgpId.toNat ++
    (put8 o.paramBytes.length ++ o.paramBytes))))

def OpenMessage.bytes (o : OpenMessage) : List UInt8 :=
  bgpMarker ++ (put16 (bgpMsgHdrLen + o.body.length) ++ (put8 bgpMsgOpen ++ o.body))

def OpenMessage.tuples (o : OpenMessage) : List AddPathTuple := o.params.flatMap OpenParam.tuples

theorem OpenMessage.length_body (o : OpenMessage) :
    o.body.length = openBgpHdrLen + o.paramBytes.length := by
  simp [OpenMessage.body, openBgpHdrLen]
  omega

theorem OpenMessage.length_bytes (o : OpenMessage) :
    o.bytes.length = bgpMsgHdrLen + o.body.length := by
  simp [OpenMessage.bytes, bgpMarker, bgpMsgHdrLen]
  omega

/-! The capability loops. -/

section Parse

variable (stale : Int) (sentOpen : Bool) {m : Mem}

/-- The pointer after a capability: none for an MPBGP capability of another length than
four, behind its entries for ADD_PATH. -/
def capNext (m : Mem) (capPtr : Nat) : Option Nat :=
  if u8 m capPtr = 1 ∧ u8 m (capPtr + 1) ≠ 4 then none
  else if u8 m capPtr = 69 then
    if 4 ≤ u8 m (capPtr + 1) then some (capPtr + 2 + 4 * ((u8 m (capPtr + 1) + 3) / 4))
    else some (capPtr + 2)
  else some capPtr

theorem capability_next (m : Mem) (capPtr : Nat) (st : OpenState) :
    (capability stale sentOpen m capPtr st).2 = capNext m capPtr := by
  unfold capability capNext
  generalize u8 m capPtr = code
  generalize u8 m (capPtr + 1) = len
  split
  · by_cases four : len = 4
    · rw [if_pos four, if_neg (fun refused => refused.2 four)]
      rfl
    · rw [if_neg four, if_pos ⟨rfl, four⟩]
  · rfl
  · rfl
  · rfl
  · by_cases four : len = 4
    · rw [if_pos four]
      rfl
    · rw [if_neg four]
      rfl
  · rfl
  · by_cases entries : 4 ≤ len
    · rw [if_pos entries, if_neg (fun refused => absurd refused.1 (by decide)), if_pos rfl,
        if_pos entries]
    · rw [if_neg entries, if_neg (fun refused => absurd refused.1 (by decide)), if_pos rfl,
        if_neg entries]
  · rfl
  · rfl
  · rename_i multiprotocol _ _ _ _ _ addPath _ _
    rw [if_neg (fun refused => multiprotocol refused.1), if_neg addPath]

def addTuples (cap : AddPathMap) (tuples : List AddPathTuple) : AddPathMap :=
  tuples.foldl (fun cap t =>
    addAddPath stale cap t.afi.toNat t.safi.toNat t.sendReceive.toNat sentOpen) cap

def AddPathTuple.text (t : AddPathTuple) : Text :=
  "ADD Path (69) : ".toList ++ (familyText t.afi.toNat t.safi.toNat ++
    (" send/receive=".toList ++ (decimal t.sendReceive.toNat ++ (" : ".toList ++
      (safiString t.safi.toNat ++ (" ".toList ++ (afiString t.afi.toNat ++ (" ".toList ++
        sendReceiveString t.sendReceive.toNat))))))))

def OpenCapability.tuples : OpenCapability → List AddPathTuple
  | .addPath tuples => tuples
  | .other _ _ _ => []

theorem OpenParam.tuples_capability (c : OpenCapability) :
    (OpenParam.capability c).tuples = c.tuples := by
  cases c <;> rfl

/-- The ASN of a four-octet ASN capability. -/
def OpenCapability.asn? : OpenCapability → Option Nat
  | .addPath _ => none
  | .other code value _ =>
    if code = 65 ∧ value.length = 4 then some (u32 (memOf value) 0) else none

def otherText (code : Nat) (value : List UInt8) : Text :=
  match code with
  | 1 =>
    let afi := u16 (memOf value) 0
    let safi := u8 (memOf value) 3
    "MPBGP (1) : ".toList ++ (familyText afi safi ++ (" : ".toList ++
      (safiString safi ++ (" ".toList ++ afiString afi))))
  | 2 => "Route Refresh (2)".toList
  | 3 => "Outbound Filter (3)".toList
  | 64 => "Graceful Restart (64)".toList
  | 65 => "4 Octet ASN (65)".toList
  | 68 => "Multi-session (68)".toList
  | 70 => "Route Refresh Enhanced (70)".toList
  | 128 => "Route Refresh Old (128)".toList
  | code => decimal code

/-- The texts of a capability: one for every add-path entry, none for a four-octet ASN of
another length. -/
def OpenCapability.texts : OpenCapability → List Text
  | .addPath tuples => tuples.map AddPathTuple.text
  | .other code value _ =>
    if code = 65 ∧ value.length ≠ 4 then [] else [otherText code.toNat value]

/-- What a list of capabilities says, whatever parameters it is spread over. -/
def saidBy (cs : List OpenCapability) (st : OpenState) : OpenState where
  asn := cs.foldl (fun asn c => c.asn?.getD asn) st.asn
  capabilities := st.capabilities ++ cs.flatMap OpenCapability.texts
  addPath := addTuples stale sentOpen st.addPath (cs.flatMap OpenCapability.tuples)

/-- How far the handler of a capability moves the pointer itself. -/
def OpenCapability.moved : OpenCapability → Nat
  | .addPath tuples => 2 + (tuples.flatMap AddPathTuple.bytes).length
  | .other _ _ _ => 0

theorem OpenCapability.length_bytes (c : OpenCapability) : c.bytes.length = 2 + c.value.length := by
  simp [OpenCapability.bytes]
  omega

theorem length_tuples (tuples : List AddPathTuple) :
    (tuples.flatMap AddPathTuple.bytes).length = 4 * tuples.length := by
  induction tuples with
  | nil => rfl
  | cons t ts ih =>
    have width : t.bytes.length = 4 := rfl
    rw [List.flatMap_cons, List.length_append, width, ih, List.length_cons]
    omega

private theorem addPathEntry_of_holds {p : Nat} (t : AddPathTuple) (h : Holds m p t.bytes)
    (st : OpenState) :
    addPathEntry stale sentOpen m p st = { st.push t.text with
      addPath := addAddPath stale st.addPath t.afi.toNat t.safi.toNat t.sendReceive.toNat
        sentOpen } := by
  simp only [AddPathTuple.bytes, holds_append, length_put16, holds_cons] at h
  obtain ⟨afi, safi, code, -⟩ := h
  simp only [addPathEntry, afi.u16 t.afi.toNat_lt, u8, safi, code]
  rfl

private theorem addPathEntries_of_holds {q : Nat} (tuples : List AddPathTuple)
    (h : Holds m q (tuples.flatMap AddPathTuple.bytes)) (st : OpenState) :
    strideLoop 4 (tuples.flatMap AddPathTuple.bytes).length
        (fun l st => addPathEntry stale sentOpen m (q + l) st) 0 st =
      saidBy stale sentOpen [.addPath tuples] st := by
  have folded := strideLoop_flatMap (by decide : 0 < 4) (fun _ : AddPathTuple => rfl)
    (fun i t st _ held => addPathEntry_of_holds stale sentOpen t held st) tuples 0 st (Nat.zero_le 0)
    h (Nat.zero_add _).symm
  rw [folded]
  have run (tuples : List AddPathTuple) (st : OpenState) :
      tuples.foldl (fun st t => { st.push t.text with
        addPath := addAddPath stale st.addPath t.afi.toNat t.safi.toNat t.sendReceive.toNat
          sentOpen }) st = saidBy stale sentOpen [.addPath tuples] st := by
    induction tuples generalizing st with
    | nil => simp [saidBy, OpenCapability.asn?, OpenCapability.texts, OpenCapability.tuples, addTuples]
    | cons t ts ih =>
      rw [List.foldl_cons, ih]
      simp [saidBy, OpenState.push, OpenCapability.asn?, OpenCapability.texts,
        OpenCapability.tuples, addTuples]
  exact run tuples st

/-- The handlers that only push a text. -/
private theorem capability_text {capPtr : Nat} (value : List UInt8)
    (multiprotocol : u8 m capPtr ≠ 1) (fourOctet : u8 m capPtr ≠ 65) (addPath : u8 m capPtr ≠ 69)
    (st : OpenState) :
    capability stale sentOpen m capPtr st =
      (st.push (otherText (u8 m capPtr) value), some capPtr) := by
  simp only [capability]
  generalize u8 m capPtr = code at multiprotocol fourOctet addPath
  unfold otherText
  split
  · exact absurd rfl multiprotocol
  · rfl
  · rfl
  · rfl
  · exact absurd rfl fourOctet
  · rfl
  · exact absurd rfl addPath
  · rfl
  · rfl
  · split <;> first | contradiction | rfl

private theorem capability_addPath {capPtr : Nat} (tuples : List AddPathTuple)
    (code : u8 m capPtr = 69)
    (len : u8 m (capPtr + 1) = (tuples.flatMap AddPathTuple.bytes).length)
    (value : Holds m (capPtr + 2) (tuples.flatMap AddPathTuple.bytes)) (st : OpenState) :
    capability stale sentOpen m capPtr st = (saidBy stale sentOpen [.addPath tuples] st,
      some (capPtr + (OpenCapability.addPath tuples).moved)) := by
  have width := length_tuples tuples
  simp only [capability, code, len]
  split
  · have whole : 4 * (((tuples.flatMap AddPathTuple.bytes).length + 3) / 4) =
        (tuples.flatMap AddPathTuple.bytes).length := by omega
    rw [addPathEntries_of_holds stale sentOpen tuples value st, whole, OpenCapability.moved,
      Nat.add_assoc]
  · have none_left : tuples = [] := by
      rw [← List.length_eq_zero_iff]
      omega
    subst none_left
    simp [saidBy, OpenCapability.asn?, OpenCapability.texts, OpenCapability.tuples, addTuples,
      OpenCapability.moved]

private theorem capability_multiprotocol {capPtr : Nat} {value : List UInt8}
    (code : u8 m capPtr = 1) (len : u8 m (capPtr + 1) = 4)
    (held : SameBytes 4 m (capPtr + 2) (memOf value) 0) (st : OpenState) :
    capability stale sentOpen m capPtr st = (st.push (otherText 1 value), some capPtr) := by
  have afi : u16 m (capPtr + 2) = u16 (memOf value) 0 := held.u16 0 (by omega)
  have safi : u8 m (capPtr + 5) = u8 (memOf value) 3 := held.u8 3 (by omega)
  simp only [capability, code, len, if_true, afi, safi]
  rfl

private theorem capability_fourOctet {capPtr : Nat} {value : List UInt8}
    (code : u8 m capPtr = 65) (len : u8 m (capPtr + 1) = value.length)
    (held : SameBytes value.length m (capPtr + 2) (memOf value) 0)
    (known : (65 : UInt8) ≠ 69 ∧ ((65 : UInt8) = 1 → value.length = 4)) (st : OpenState) :
    capability stale sentOpen m capPtr st =
      (saidBy stale sentOpen [.other 65 value known] st, some capPtr) := by
  simp only [capability, code, len]
  by_cases four : value.length = 4
  · have number : u32 m (capPtr + 2) = u32 (memOf value) 0 := held.u32 0 (by omega)
    have texts : (OpenCapability.other 65 value known).texts = ["4 Octet ASN (65)".toList] :=
      if_neg (fun short => short.2 four)
    have asn : (OpenCapability.other 65 value known).asn? = some (u32 (memOf value) 0) :=
      if_pos ⟨rfl, four⟩
    rw [if_pos four, number, saidBy, List.flatMap_singleton, List.flatMap_singleton, texts,
      List.foldl_cons, asn]
    rfl
  · have texts : (OpenCapability.other 65 value known).texts = [] := if_pos ⟨rfl, four⟩
    have asn : (OpenCapability.other 65 value known).asn? = none := if_neg (fun whole => four whole.2)
    rw [if_neg four, saidBy, List.flatMap_singleton, List.flatMap_singleton, texts,
      List.foldl_cons, asn, List.append_nil]
    rfl

/-- One capability at its place. -/
theorem capability_of_holds {capPtr : Nat} (c : OpenCapability)
    (fits : c.value.length < 256) (h : Holds m capPtr c.bytes) (st : OpenState) :
    capability stale sentOpen m capPtr st =
      (saidBy stale sentOpen [c] st, some (capPtr + c.moved)) := by
  simp only [OpenCapability.bytes, holds_append, length_put8] at h
  obtain ⟨hcode, hlen, hvalue⟩ := h
  have code := hcode.u8 c.code.toNat_lt
  have len := hlen.u8 fits
  cases c with
  | addPath tuples => exact capability_addPath stale sentOpen tuples code len hvalue st
  | other kind value known =>
    have size : u8 m (capPtr + 1) = value.length := len
    have same : u8 m capPtr = kind.toNat := code
    have held : SameBytes value.length m (capPtr + 2) (memOf value) 0 :=
      hvalue.sameBytes (holds_memOf value)
    by_cases fourOctet : kind = 65
    · subst fourOctet
      exact capability_fourOctet stale sentOpen same size held known st
    · have said : saidBy stale sentOpen [.other kind value known] st =
          st.push (otherText kind.toNat value) := by
        simp [saidBy, OpenState.push, OpenCapability.asn?, OpenCapability.texts,
          OpenCapability.tuples, addTuples, fourOctet]
      rw [said]
      by_cases multiprotocol : kind = 1
      · have four := known.2 multiprotocol
        subst multiprotocol
        exact capability_multiprotocol stale sentOpen same (size.trans four) (four ▸ held) st
      · rw [← same]
        refine capability_text stale sentOpen value ?_ ?_ ?_ st
        · exact fun one => multiprotocol (UInt8.toNat_inj.mp (same.symm.trans one))
        · exact fun asn => fourOctet (UInt8.toNat_inj.mp (same.symm.trans asn))
        · exact fun path => known.1 (UInt8.toNat_inj.mp (same.symm.trans path))

/-- A turn at a capability: the index goes on by its length, the pointer by that and by what
the handler has moved it. -/
theorem capLoop_turn {paramLen index capPtr : Nat} (c : OpenCapability)
    (fits : c.value.length < 256) (h : Holds m capPtr c.bytes) (inside : index < paramLen)
    (st : OpenState) :
    capLoop stale sentOpen m paramLen index capPtr st =
      capLoop stale sentOpen m paramLen (index + 2 + c.value.length)
        (capPtr + c.moved + 2 + c.value.length) (saidBy stale sentOpen [c] st) := by
  have step := capability_of_holds stale sentOpen c fits h st
  simp only [OpenCapability.bytes, holds_append, length_put8] at h
  have len := h.2.1.u8 fits
  rw [capLoop, if_pos inside, step, len]

private theorem capLoop_of_holds {capPtr : Nat} (c : OpenCapability)
    (fits : c.value.length < 256) (h : Holds m capPtr c.bytes) (st : OpenState) :
    capLoop stale sentOpen m c.bytes.length 0 capPtr st = (true, saidBy stale sentOpen [c] st) := by
  have size := c.length_bytes
  rw [capLoop_turn stale sentOpen c fits h (by omega), capLoop, if_neg (by omega)]

theorem addTuples_append (cap : AddPathMap) (tuples tuples' : List AddPathTuple) :
    addTuples stale sentOpen cap (tuples ++ tuples') =
      addTuples stale sentOpen (addTuples stale sentOpen cap tuples) tuples' := List.foldl_append

/-- One capability per parameter: every parameter is read to its end. -/
theorem parseCapabilities_of_holds {data size : Nat} (params : List OpenParam) (i : Nat)
    (h : Holds m (data + i) (params.flatMap OpenParam.bytes))
    (hsize : size = i + (params.flatMap OpenParam.bytes).length) (small : size < 256)
    (st : OpenState) :
    ∃ st', parseCapabilities stale sentOpen m data size i st = (size, st') ∧
      st'.addPath =
        addTuples stale sentOpen st.addPath (params.flatMap OpenParam.tuples) := by
  induction params generalizing i st with
  | nil =>
    simp only [List.flatMap_nil, List.length_nil, Nat.add_zero] at hsize
    refine ⟨st, ?_, rfl⟩
    rw [parseCapabilities, if_neg (by omega), hsize]
  | cons param params ih =>
    have width : param.bytes.length = 2 + param.body.length := by
      simp [OpenParam.bytes]
      omega
    simp only [List.flatMap_cons, holds_append, List.length_append] at h hsize
    obtain ⟨hparam, hrest⟩ := h
    rw [width] at hrest hsize
    simp only [OpenParam.bytes, holds_append, length_put8] at hparam
    obtain ⟨htype, hlen, hbody⟩ := hparam
    have type := htype.u8 param.type.toNat_lt
    have len := hlen.u8 (by omega)
    have rest := fun st => ih (i + 2 + param.body.length)
      (by rw [show data + (i + 2 + param.body.length) = data + i + (2 + param.body.length) by omega]
          exact hrest) (by omega) st
    rw [parseCapabilities, if_pos (by omega)]
    simp only [type, len]
    cases param with
    | capability c =>
      have two : (OpenParam.capability c).type.toNat = bgpCapParamType := rfl
      have value : c.bytes.length = 2 + c.value.length := by
        simp [OpenCapability.bytes]
        omega
      rw [if_pos ⟨two, by simp only [OpenParam.body]; omega, by omega⟩]
      simp only [OpenParam.body] at hbody hsize rest ⊢
      rw [capLoop_of_holds stale sentOpen c (by omega) hbody st]
      obtain ⟨st', read, table⟩ := rest (saidBy stale sentOpen [c] st)
      refine ⟨st', read, ?_⟩
      rw [table, List.flatMap_cons, addTuples_append, OpenParam.tuples_capability]
      simp [saidBy]
    | other kind value notCap =>
      have skipped : ¬ (OpenParam.other kind value notCap).type.toNat = bgpCapParamType :=
        fun same => notCap (UInt8.toNat_inj.mp same)
      rw [if_neg (fun all => skipped all.1)]
      exact rest st

theorem parseOpenMsg_of_holds {data : Nat} (o : OpenMessage) (h : Holds m data o.body)
    (cap : AddPathMap) :
    (parseOpenMsg stale sentOpen m cap data o.body.length).readSize = o.body.length ∧
      (parseOpenMsg stale sentOpen m cap data o.body.length).state.addPath =
        addTuples stale sentOpen cap o.tuples := by
  have size := o.length_body
  have small : o.paramBytes.length ≤ 255 := o.fits
  simp only [OpenMessage.body, holds_append, length_put8, length_put16, length_put32] at h
  obtain ⟨-, -, -, -, hlen, hparams⟩ := h
  have paramLen : u8 m (data + 9) = o.paramBytes.length := hlen.u8 (by omega)
  unfold parseOpenMsg
  rw [if_neg (by omega)]
  dsimp only
  rw [paramLen]
  split
  · rename_i empty
    have none_left : o.tuples = [] := by
      have params : o.params = [] := by
        rw [List.length_eq_zero_iff, OpenMessage.paramBytes, List.flatMap_eq_nil_iff] at empty
        rw [List.eq_nil_iff_forall_not_mem]
        intro param here
        simpa [OpenParam.bytes, put8] using empty param here
      simp [OpenMessage.tuples, params]
    exact ⟨by simp [size, empty], by rw [none_left]; rfl⟩
  · rename_i some_left
    rw [if_neg (by omega)]
    obtain ⟨st', read, table⟩ := @parseCapabilities_of_holds stale sentOpen m (data + openBgpHdrLen)
      o.paramBytes.length o.params 0 hparams (Nat.zero_add _).symm (by omega)
      ⟨u16 m (data + 1), [], cap⟩
    rw [read, if_neg some_left]
    exact ⟨size.symm, table⟩

theorem readOpen_of_holds {data size : Nat} (o : OpenMessage) (h : Holds m data o.bytes)
    (room : o.bytes.length ≤ size) (cap : AddPathMap) (wrongType : Text) :
    ∃ result, readOpen stale sentOpen m cap data size wrongType = .ok (o.bytes.length, result) ∧
      result.readSize = o.body.length ∧
      result.state.addPath = addTuples stale sentOpen cap o.tuples := by
  have bytes := o.length_bytes
  have body := o.length_body
  have small : o.paramBytes.length ≤ 255 := o.fits
  have hdr : bgpMsgHdrLen = 19 := rfl
  have fixed : openBgpHdrLen = 10 := rfl
  have marker : bgpMarker.length = 16 := rfl
  simp only [OpenMessage.bytes, holds_append, length_put16, length_put8, marker] at h
  obtain ⟨-, hlen, htype, hbody⟩ := h
  have hbody : Holds m (data + bgpMsgHdrLen) o.body := hbody
  have len := hlen.u16 (by omega)
  have type := htype.u8 (by decide)
  have header : parseBgpHeader m data size = (bgpMsgOpen, o.body.length) := by
    have remaining : (bgpMsgHdrLen + o.body.length + 2 ^ 32 - bgpMsgHdrLen) % 2 ^ 32 =
        o.body.length := by omega
    unfold parseBgpHeader
    rw [if_neg (by omega), type, len, remaining]
  obtain ⟨read, table⟩ := parseOpenMsg_of_holds stale sentOpen o hbody cap
  refine ⟨parseOpenMsg stale sentOpen m cap (data + bgpMsgHdrLen) o.body.length, ?_, read, table⟩
  unfold readOpen
  simp only [header, if_true, len]
  rw [if_neg (by omega), bytes]

/-- An up event with two encoded OPEN messages, whatever follows them. -/
theorem handleUpEvent_of_holds {data size : Nat} (sent received : OpenMessage)
    (h : Holds m data (sent.bytes ++ received.bytes))
    (room : (sent.bytes ++ received.bytes).length ≤ size) (upEvent : ObjPeerUpEvent)
    (info : PeerInfo) :
    ∃ upEvent' info', handleUpEvent stale m data size upEvent info =
        .ok ((sent.bytes ++ received.bytes).length, upEvent', info') ∧
      info'.using2OctetAsn = false ∧
      info'.addPathCapability = addTuples stale false
        (addTuples stale true info.addPathCapability sent.tuples) received.tuples := by
  rw [List.length_append] at room
  rw [holds_append] at h
  obtain ⟨first, readFirst, sizeFirst, tableFirst⟩ :=
    @readOpen_of_holds stale true m data size sent h.1 (by omega) info.addPathCapability
    "ERROR: Invalid BGP MSG for BMP Sent OPEN message, expected OPEN message.".toList
  have next : data + bgpMsgHdrLen + first.readSize = data + sent.bytes.length := by
    rw [sizeFirst, sent.length_bytes, Nat.add_assoc]
  obtain ⟨second, readSecond, sizeSecond, tableSecond⟩ :=
    @readOpen_of_holds stale false m (data + sent.bytes.length) size received h.2 (by omega) first.state.addPath
    "ERROR: Invalid BGP MSG for BMP Received OPEN message, expected OPEN message.".toList
  unfold handleUpEvent
  rw [readFirst]
  simp only [Except.bind, bind, next, readSecond]
  exact ⟨_, _, by rw [List.length_append]; rfl, rfl, by rw [tableSecond, tableFirst]⟩

end Parse

/-! The table entry of one family. -/

/-- Receive, or send and receive. -/
def CanReceive (code : Int) : Prop := code = 1 ∨ code = 3

/-- Send, or send and receive. -/
def CanSend (code : Int) : Prop := code = 2 ∨ code = 3

instance (code : Int) : Decidable (CanReceive code) := inferInstanceAs (Decidable (_ ∨ _))

instance (code : Int) : Decidable (CanSend code) := inferInstanceAs (Decidable (_ ∨ _))

/-- The codes an OPEN lists for a family, in order. -/
def codesFor (tuples : List AddPathTuple) (afi safi : Nat) : List Int :=
  (tuples.filter (fun t => t.afi.toNat = afi ∧ t.safi.toNat = safi)).map
    (fun t => (t.sendReceive.toNat : Int))

/-- The entry after an OPEN: its last code replaces one half, and a new entry has an
indeterminate other half. -/
def entryAfter (stale : Int) (sentOpen : Bool) (before : Option AddPathCodes) (codes : List Int) :
    Option AddPathCodes :=
  match codes.getLast? with
  | none => before
  | some code =>
    let old := before.getD ⟨stale, stale⟩
    some (if sentOpen then { old with sent := code } else { old with received := code })

theorem familyKey_injective {afi safi afi' safi' : Nat}
    (same : getAFiSafiKeyString afi safi = getAFiSafiKeyString afi' safi') :
    afi = afi' ∧ safi = safi' := by
  obtain ⟨afis, -, safis⟩ := decimal_split rfl rfl same
  exact ⟨afis, decimal_injective safis⟩

/-- An OPEN changes the entry of a family by the codes it lists for it. -/
theorem addTuples_entry (stale : Int) (sentOpen : Bool) (cap : AddPathMap)
    (tuples : List AddPathTuple) (afi safi : Nat) :
    addTuples stale sentOpen cap tuples (getAFiSafiKeyString afi safi) =
      entryAfter stale sentOpen (cap (getAFiSafiKeyString afi safi)) (codesFor tuples afi safi) := by
  induction tuples generalizing cap with
  | nil => rfl
  | cons t ts ih =>
    have step : addTuples stale sentOpen cap (t :: ts) = addTuples stale sentOpen
        (addAddPath stale cap t.afi.toNat t.safi.toNat t.sendReceive.toNat sentOpen) ts := rfl
    rw [step, ih]
    by_cases own : t.afi.toNat = afi ∧ t.safi.toNat = safi
    · have codes : codesFor (t :: ts) afi safi =
          (t.sendReceive.toNat : Int) :: codesFor ts afi safi := by
        simp [codesFor, own]
      rw [codes, own.1, own.2]
      cases later : (codesFor ts afi safi).getLast? with
      | none =>
        have empty : codesFor ts afi safi = [] := List.getLast?_eq_none_iff.mp later
        cases sentOpen <;> simp [entryAfter, empty, addAddPath]
      | some last =>
        have both : ((t.sendReceive.toNat : Int) :: codesFor ts afi safi).getLast? = some last := by
          rw [List.getLast?_cons, later]
          rfl
        cases sentOpen <;> simp [entryAfter, later, both, addAddPath]
    · have codes : codesFor (t :: ts) afi safi = codesFor ts afi safi := by
        simp [codesFor, own]
      have other : getAFiSafiKeyString afi safi ≠
          getAFiSafiKeyString t.afi.toNat t.safi.toNat := by
        intro same
        obtain ⟨rfl, rfl⟩ := familyKey_injective same
        exact own ⟨rfl, rfl⟩
      rw [codes, addAddPath, Function.update_of_ne other]

/-- What two OPENs leave of a family is what they negotiate: nothing is left over from
before where one of them does not list the family, and the last code listed counts like all
of them. -/
structure Settles (stale : Int) (before : Option AddPathCodes) (sent received : List Int) :
    Prop where
  neither : sent = [] → received = [] → ∀ left, before = some left →
    CanReceive left.sent → ¬ CanSend left.received
  onlyReceived : sent = [] → ∀ code, received.getLast? = some code → CanSend code →
    ¬ CanReceive (before.getD ⟨stale, stale⟩).sent
  onlySent : received = [] → ∀ code, sent.getLast? = some code → CanReceive code →
    ¬ CanSend (before.getD ⟨stale, stale⟩).received
  lastCounts : (∃ code ∈ sent, CanReceive code) → (∃ code ∈ received, CanSend code) →
    (∀ code, sent.getLast? = some code → CanReceive code) ∧
      ∀ code, received.getLast? = some code → CanSend code

/-- The rule of `isAddPathEnabled` on one entry. -/
def EntryEnabled (entry : Option AddPathCodes) : Prop :=
  ∃ codes, entry = some codes ∧ CanReceive codes.sent ∧ CanSend codes.received

theorem isAddPathEnabled_iff (cap : AddPathMap) (afi safi : Nat) :
    isAddPathEnabled cap afi safi = true ↔ EntryEnabled (cap (getAFiSafiKeyString afi safi)) := by
  unfold isAddPathEnabled EntryEnabled
  cases cap (getAFiSafiKeyString afi safi) with
  | none => simp
  | some codes => simp [CanReceive, CanSend]

/-! Which of the two OPENs list the family. -/

section Settled

variable {stale : Int} {before : Option AddPathCodes} {sent received : List Int} {s r : Int}

private theorem ne_nil_of_last {codes : List Int} {code : Int} (last : codes.getLast? = some code) :
    codes ≠ [] := by
  rintro rfl
  simp at last

private theorem settles_neither : ¬ EntryEnabled before ↔ Settles stale before [] [] := by
  constructor
  · intro off
    exact ⟨fun _ _ left here canReceive canSend => off ⟨left, here, canReceive, canSend⟩,
      by simp, by simp, by simp⟩
  · rintro settles ⟨left, here, canReceive, canSend⟩
    exact settles.neither rfl rfl left here canReceive canSend

private theorem settles_onlyReceived (last : received.getLast? = some r) :
    ¬ (CanReceive (before.getD ⟨stale, stale⟩).sent ∧ CanSend r) ↔
      Settles stale before [] received := by
  constructor
  · intro off
    refine ⟨by simp [ne_nil_of_last last], ?_, by simp, by simp⟩
    intro _ code last' canSend canReceive
    obtain rfl : r = code := Option.some.inj (last.symm.trans last')
    exact off ⟨canReceive, canSend⟩
  · rintro settles ⟨canReceive, canSend⟩
    exact settles.onlyReceived rfl r last canSend canReceive

private theorem settles_onlySent (last : sent.getLast? = some s) :
    ¬ (CanReceive s ∧ CanSend (before.getD ⟨stale, stale⟩).received) ↔
      Settles stale before sent [] := by
  have some_sent := ne_nil_of_last last
  constructor
  · intro off
    refine ⟨by simp [some_sent], by simp [some_sent], ?_, by simp⟩
    intro _ code last' canReceive canSend
    obtain rfl : s = code := Option.some.inj (last.symm.trans last')
    exact off ⟨canReceive, canSend⟩
  · rintro settles ⟨canReceive, canSend⟩
    exact settles.onlySent rfl s last canReceive canSend

private theorem settles_both (lastSent : sent.getLast? = some s)
    (lastReceived : received.getLast? = some r) :
    (CanReceive s ∧ CanSend r ↔
        (∃ code ∈ sent, CanReceive code) ∧ ∃ code ∈ received, CanSend code) ↔
      Settles stale before sent received := by
  have some_sent := ne_nil_of_last lastSent
  have some_received := ne_nil_of_last lastReceived
  constructor
  · intro rule
    refine ⟨by simp [some_sent], by simp [some_sent], by simp [some_received], ?_⟩
    intro canReceive canSend
    obtain ⟨lastCan, lastCan'⟩ := rule.mpr ⟨canReceive, canSend⟩
    exact ⟨fun code last => Option.some.inj (lastSent.symm.trans last) ▸ lastCan,
      fun code last => Option.some.inj (lastReceived.symm.trans last) ▸ lastCan'⟩
  · intro settles
    constructor
    · rintro ⟨canReceive, canSend⟩
      exact ⟨⟨s, List.mem_of_getLast? lastSent, canReceive⟩,
        ⟨r, List.mem_of_getLast? lastReceived, canSend⟩⟩
    · rintro ⟨canReceive, canSend⟩
      obtain ⟨lastCan, lastCan'⟩ := settles.lastCounts canReceive canSend
      exact ⟨lastCan s lastSent, lastCan' r lastReceived⟩

end Settled

theorem negotiated_iff_settles (stale : Int) (before : Option AddPathCodes)
    (sent received : List Int) :
    (EntryEnabled (entryAfter stale false (entryAfter stale true before sent) received) ↔
        (∃ code ∈ sent, CanReceive code) ∧ ∃ code ∈ received, CanSend code) ↔
      Settles stale before sent received := by
  cases lastSent : sent.getLast? with
  | none =>
    obtain rfl : sent = [] := List.getLast?_eq_none_iff.mp lastSent
    cases lastReceived : received.getLast? with
    | none =>
      obtain rfl : received = [] := List.getLast?_eq_none_iff.mp lastReceived
      simpa [entryAfter] using settles_neither
    | some r => simpa [entryAfter, lastReceived, EntryEnabled] using settles_onlyReceived lastReceived
  | some s =>
    cases lastReceived : received.getLast? with
    | none =>
      obtain rfl : received = [] := List.getLast?_eq_none_iff.mp lastReceived
      simpa [entryAfter, lastSent, EntryEnabled] using settles_onlySent lastSent
    | some r =>
      simpa [entryAfter, lastSent, lastReceived, EntryEnabled] using
        settles_both lastSent lastReceived

end SonicBmp.Bgp.OpenCodec
