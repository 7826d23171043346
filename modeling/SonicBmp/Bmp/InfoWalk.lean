/- module: SonicBmp/Bmp/InfoWalk
   digest: The loops over information TLVs go from one TLV to the next exactly while no value is longer than the buffer it is copied into. -/

import SonicBmp.Bmp.Framing

set_option autoImplicit false
set_option relaxedAutoImplicit false

namespace SonicBmp.Bmp.InfoWalk

open SonicBmp.Library.Memory
open SonicBmp.Library.Throwing
open SonicBmp.Bus.Interface
open SonicBmp.Bmp.ParseBmp
open SonicBmp.Bmp.Framing (recv_next holds_bmpDataMem)

/-- An information TLV as a router sends it. -/
structure Info where
  type : Nat
  value : List UInt8
  type_lt : type < 65536
  value_lt : value.length < 65536

def Info.encode (t : Info) : List UInt8 := put16 t.type ++ (put16 t.value.length ++ t.value)

def encodeInfos (ts : List Info) : List UInt8 := ts.flatMap Info.encode

/-- What a loop sees of a TLV that starts at offset `i`, with a buffer of `bufSize` bytes. -/
def Info.seen (bufSize i : Nat) (t : Info) : InfoTlv where
  offset := i
  type := t.type
  len := t.value.length
  info := t.value.take bufSize

/-- The TLVs of a list, each at the offset where it starts. -/
def visits (bufSize : Nat) : Nat → List Info → List InfoTlv
  | _, [] => []
  | i, t :: ts => t.seen bufSize i :: visits bufSize (i + bmpInfoTlvHdrLen + t.value.length) ts

theorem Info.length_encode (t : Info) : t.encode.length = bmpInfoTlvHdrLen + t.value.length := by
  simp only [Info.encode, List.length_append, length_put16, bmpInfoTlvHdrLen]
  omega

section

variable {m : Mem} {data i len bufSize : Nat}

/-- One turn of a loop: the header is read where the loop stands, and the loop goes on
behind the bytes it has copied. -/
theorem infoTlvs_of_holds {t : Info} (held : Holds m (data + i) t.encode) (inside : i < len) :
    infoTlvs bufSize m data len i = t.seen bufSize i ::
      infoTlvs bufSize m data len (i + bmpInfoTlvHdrLen + min bufSize t.value.length) := by
  simp only [Info.encode, holds_append, length_put16] at held
  obtain ⟨typeHeld, lenHeld, valueHeld⟩ := held
  have type := typeHeld.u16 t.type_lt
  have length := lenHeld.u16 t.value_lt
  have value : readBytes m (data + i + bmpInfoTlvHdrLen) (min bufSize t.value.length) =
      t.value.take bufSize := by
    have part := readBytes_within m (data + i + bmpInfoTlvHdrLen)
      (show 0 + min bufSize t.value.length ≤ t.value.length by omega)
    have whole : readBytes m (data + i + bmpInfoTlvHdrLen) t.value.length = t.value := valueHeld
    rw [whole, Nat.add_zero, List.drop_zero, ← List.take_take, List.take_length] at part
    exact part
  rw [infoTlvs, if_pos inside]
  simp only [type, length, value, Info.seen]

theorem infoTlvs_end : infoTlvs bufSize m data i i = [] := by
  rw [infoTlvs, if_neg (lt_irrefl i)]

/-- A loop visits exactly the TLVs of a list, each where it starts, if and only if no value
is longer than its buffer. -/
theorem infoTlvs_visits_iff (bufSize : Nat) (ts : List Info)
    (held : Holds m (data + i) (encodeInfos ts)) :
    infoTlvs bufSize m data (i + (encodeInfos ts).length) i = visits bufSize i ts ↔
      ∀ t ∈ ts, t.value.length ≤ bufSize := by
  induction ts generalizing i with
  | nil => simp [encodeInfos, visits, infoTlvs_end]
  | cons t ts ih =>
    have split : encodeInfos (t :: ts) = t.encode ++ encodeInfos ts := List.flatMap_cons
    have hdr : bmpInfoTlvHdrLen = 4 := rfl
    rw [split, holds_append, t.length_encode] at held
    rw [split, List.length_append, t.length_encode, infoTlvs_of_holds held.1 (by omega), visits,
      List.forall_mem_cons, List.cons.injEq, eq_self, true_and]
    by_cases short : t.value.length ≤ bufSize
    · have next : Holds m (data + (i + bmpInfoTlvHdrLen + t.value.length)) (encodeInfos ts) := by
        simpa only [Nat.add_assoc] using held.2
      rw [Nat.min_eq_right short, ← ih next]
      simp only [short, true_and, Nat.add_assoc]
    · -- the next header is read inside the value
      rw [Nat.min_eq_left (by omega), infoTlvs, if_pos (by omega)]
      refine iff_of_false ?_ (not_and_of_not_left _ short)
      cases ts with
      | nil => simp [visits]
      | cons t' ts =>
        simp only [visits, Info.seen, List.cons.injEq, InfoTlv.mk.injEq]
        omega

end

/-! The two messages that are buffered first. -/

/-- The TLVs the loop goes through once `body` is buffered, empty ones included. -/
def bufferedVisits (beyond : Mem) (body : List UInt8) : List InfoTlv :=
  infoTlvs 4096 (bmpDataMem beyond body) 0 body.length 0

/-- The common header is read, and the body stands next in the socket. -/
structure AtBody (body : List UInt8) (s : Parser) : Prop where
  bmpData : s.bmpData = []
  bmpLen : s.bmpLen = body.length
  arrives : ∃ rest, s.sock = body ++ rest
  fits : body.length ≤ bmpPacketBufSize + 1

variable {body : List UInt8} {s : Parser}

theorem bufferBMPMessage_run (ready : AtBody body s) :
    ∃ s', bufferBMPMessage.run s = .ok ((), s') ∧ s'.bmpData = body := by
  rw [bufferBMPMessage, run_get_bind]
  by_cases empty : s.bmpLen = 0
  · rw [if_pos empty]
    have nothing : body = [] := List.eq_nil_of_length_eq_zero (ready.bmpLen ▸ empty)
    exact ⟨s, rfl, ready.bmpData.trans nothing.symm⟩
  · obtain ⟨rest, arrives⟩ := ready.arrives
    have fits : ¬ bmpPacketBufSize + 1 < s.bmpLen := by
      rw [ready.bmpLen]
      exact not_lt.mpr ready.fits
    obtain ⟨s', -, received⟩ := recv_next ready.bmpLen.symm arrives
    rw [if_neg empty, if_neg fits, run_bind_of_ok received, if_neg (not_not.mpr ready.bmpLen.symm),
      run_modify]
    exact ⟨_, rfl, rfl⟩

theorem handleInitMsg_run (beyond : Mem) (ready : AtBody body s) :
    ∃ s', (handleInitMsg beyond).run s =
      .ok ((bufferedVisits beyond body).filter (fun tlv => 0 < tlv.len), s') := by
  obtain ⟨s', run, data⟩ := bufferBMPMessage_run ready
  refine ⟨s', ?_⟩
  rw [handleInitMsg, run_bind_of_ok run, run_get_bind, data]
  rfl

theorem handleTermMsg_run (beyond : Mem) (ready : AtBody body s) :
    ∃ s', (handleTermMsg beyond).run s = .ok (bufferedVisits beyond body, s') := by
  obtain ⟨s', run, data⟩ := bufferBMPMessage_run ready
  refine ⟨s', ?_⟩
  rw [handleTermMsg, run_bind_of_ok run, run_get_bind, data]
  rfl

theorem bufferedVisits_iff (beyond : Mem) (ts : List Info) :
    bufferedVisits beyond (encodeInfos ts) = visits 4096 0 ts ↔
      ∀ t ∈ ts, t.value.length ≤ 4096 := by
  have held : Holds (bmpDataMem beyond (encodeInfos ts)) (0 + 0) (encodeInfos ts) :=
    holds_bmpDataMem beyond _
  have walk := infoTlvs_visits_iff 4096 ts held
  rwa [Nat.zero_add] at walk

theorem parsePeerUpInfo_iff {m : Mem} {data : Nat} {ts : List Info}
    (held : Holds m data (encodeInfos ts)) :
    parsePeerUpInfo m data (encodeInfos ts).length = visits 255 0 ts ↔
      ∀ t ∈ ts, t.value.length ≤ 255 := by
  have walk := infoTlvs_visits_iff (i := 0) 255 ts held
  rwa [Nat.zero_add] at walk

/-- Each of the three loops visits the TLVs of a message in order, each header read where
that TLV starts, exactly if no value is longer than the buffer of that loop. -/
theorem info_loops_visit_iff {ts : List Info} {m : Mem} {data : Nat}
    (held : Holds m data (encodeInfos ts)) (beyond : Mem) {s : Parser}
    (ready : AtBody (encodeInfos ts) s) :
    (parsePeerUpInfo m data (encodeInfos ts).length = visits 255 0 ts ↔
        ∀ t ∈ ts, t.value.length ≤ 255) ∧
      (∃ seen s', seen = bufferedVisits beyond (encodeInfos ts) ∧
        (handleInitMsg beyond).run s = .ok (seen.filter (fun tlv => 0 < tlv.len), s') ∧
        (seen = visits 4096 0 ts ↔ ∀ t ∈ ts, t.value.length ≤ 4096)) ∧
      (∃ seen s', (handleTermMsg beyond).run s = .ok (seen, s') ∧
        (seen = visits 4096 0 ts ↔ ∀ t ∈ ts, t.value.length ≤ 4096)) := by
  obtain ⟨s₁, init⟩ := handleInitMsg_run beyond ready
  obtain ⟨s₂, term⟩ := handleTermMsg_run beyond ready
  refine ⟨parsePeerUpInfo_iff held, ⟨_, s₁, rfl, init, ?_⟩, _, s₂, term, ?_⟩
  · exact bufferedVisits_iff beyond ts
  · exact bufferedVisits_iff beyond ts

private theorem sysName_fits : (2 : Nat) < 65536 := by decide

/-- The system name `r1`. -/
private def shortName : Info := ⟨2, [114, 49], sysName_fits, sysName_fits⟩

private def shortStart : Parser := { Parser.new (encodeInfos [shortName]) with bmpLen := 6 }

private theorem shortStart_ready : AtBody (encodeInfos [shortName]) shortStart :=
  ⟨rfl, rfl, ⟨[], rfl⟩, by decide⟩

theorem info_loops_visit_shortName :
    (∃ s', (handleTermMsg (fun _ => 0)).run shortStart = .ok (visits 4096 0 [shortName], s')) ∧
      parsePeerUpInfo (memOf (encodeInfos [shortName])) 0 6 = visits 255 0 [shortName] := by
  obtain ⟨peerUp, -, seen, s', term, exact_⟩ :=
    info_loops_visit_iff (holds_memOf (encodeInfos [shortName])) (fun _ => 0) shortStart_ready
  rw [exact_.mpr (by decide)] at term
  exact ⟨⟨s', term⟩, peerUp.mpr (by decide)⟩

private theorem descr_type_fits : (1 : Nat) < 65536 := by decide

private theorem descr_value_fits : (List.replicate 4097 (0 : UInt8)).length < 65536 := by
  rw [List.length_replicate]
  decide

/-- A system description one byte longer than the buffer. -/
private def longDescr : Info := ⟨1, List.replicate 4097 0, descr_type_fits, descr_value_fits⟩

/-- Behind 4096 bytes of a value of 4097 the loop takes the last one for the start of another
TLV, and the loop with the smaller buffer leaves the TLV still earlier. -/
theorem long_value_misread :
    bufferedVisits (fun _ => 0) (encodeInfos [longDescr]) ≠ visits 4096 0 [longDescr] ∧
      parsePeerUpInfo (memOf (encodeInfos [longDescr])) 0 (encodeInfos [longDescr]).length ≠
        visits 255 0 [longDescr] := by
  have length : longDescr.value.length = 4097 := List.length_replicate
  constructor
  · intro same
    have short := (bufferedVisits_iff (fun _ => 0) [longDescr]).mp same longDescr (by simp)
    omega
  · intro same
    have short := (parsePeerUpInfo_iff (holds_memOf _)).mp same longDescr (by simp)
    omega

end SonicBmp.Bmp.InfoWalk
