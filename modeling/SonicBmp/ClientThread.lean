/- module: SonicBmp/ClientThread
   digest: The circular buffer between the router socket and the reader pipe, as a FIFO. -/

import SonicBmp.Library.Memory
import SonicBmp.Library.Queue

set_option autoImplicit false
set_option relaxedAutoImplicit false

namespace SonicBmp.ClientThread

open SonicBmp.Library.Memory
open SonicBmp.Library.Queue

def clientWriteBufferBlockSize : Nat := 8192

/-- What the environment answers when the loop polls the router socket and, if that
does not report a hang-up, reads from it: `none` is a result of -1. -/
inductive SocketEvent
  | timeout
  | hangup
  | ready (result : Option (List UInt8))

/-- The same for the reader pipe; a write reports how many bytes it took. -/
inductive PipeEvent
  | timeout
  | hangup
  | ready (result : Option Nat)

inductive Exit
  | router | pipe
  deriving DecidableEq

/-- The variables of the loop; pointers are offsets into `sock_buf`. The last three
fields only record: the bytes that came from the router, the bytes that went to the
pipe, and the stretches of `sock_buf` lent to the kernel. -/
structure State where
  sockBuf : Mem
  bytesRead : Int
  writeBufPos : Nat
  readBufPos : Nat
  wrapState : Bool
  sockBufReadPtr : Nat
  sockBufWritePtr : Nat
  exit : Option Exit
  received : List UInt8
  piped : List UInt8
  lent : List (Nat × Nat)

/-- Before the first iteration; the buffer is not initialised. -/
def State.start (buf : Mem) : State :=
  { sockBuf := buf, bytesRead := 0, writeBufPos := 0, readBufPos := 0, wrapState := false,
    sockBufReadPtr := 0, sockBufWritePtr := 0, exit := none, received := [], piped := [],
    lent := [] }

def readRequest (size : Nat) (s : State) : Nat :=
  if s.wrapState then s.readBufPos - s.writeBufPos - 1 else size - s.writeBufPos

def writeRequest (size : Nat) (s : State) : Nat :=
  let ready := if s.wrapState then size - s.readBufPos else s.writeBufPos - s.readBufPos
  if clientWriteBufferBlockSize < ready then clientWriteBufferBlockSize else ready

/-- `read(c_sock, sock_buf_write_ptr, ...)`. -/
def readSocket (size : Nat) (result : Option (List UInt8)) (s : State) : State :=
  let s := { s with lent := s.lent ++ [(s.sockBufWritePtr, readRequest size s)] }
  match result with
  | none => { s with bytesRead := -1 }
  | some bytes =>
    { s with
      bytesRead := bytes.length
      sockBuf := writeBytes s.sockBuf s.sockBufWritePtr bytes
      received := s.received ++ bytes }

def writePipe (size : Nat) (result : Option Nat) (s : State) : State :=
  let s := { s with lent := s.lent ++ [(s.sockBufReadPtr, writeRequest size s)] }
  match result with
  | none => { s with bytesRead := -1 }
  | some n =>
    { s with
      bytesRead := n
      piped := s.piped ++ readBytes s.sockBuf s.sockBufReadPtr n }

/-- A read of nothing closes both pipe ends and the socket. -/
def afterRead (s : State) : State :=
  if s.bytesRead ≤ 0 then { s with exit := some .router }
  else
    { s with
      sockBufWritePtr := s.sockBufWritePtr + s.bytesRead.toNat
      writeBufPos := s.writeBufPos + s.bytesRead.toNat }

def afterWrite (s : State) : State :=
  if 0 < s.bytesRead then
    { s with
      sockBufReadPtr := s.sockBufReadPtr + s.bytesRead.toNat
      readBufPos := s.readBufPos + s.bytesRead.toNat }
  else s

/-- The first half of an iteration. -/
def socketPhase (size : Nat) (event : SocketEvent) (s : State) : State :=
  if (s.wrapState ∧ s.writeBufPos + 1 < s.readBufPos) ∨ (¬ s.wrapState ∧ s.writeBufPos < size) then
    match event with
    | .timeout => s
    | .hangup => afterRead { s with bytesRead := 0 }
    | .ready result =>
      -- in the wrapped state nothing is read unless the read position is ahead
      if ¬ s.wrapState ∨ s.writeBufPos < s.readBufPos then afterRead (readSocket size result s)
      else afterRead s
  else if size ≤ s.writeBufPos then
    { s with
      writeBufPos := 0
      sockBufWritePtr := 0
      wrapState := true }
  else s

/-- The second half of an iteration. -/
def pipePhase (size : Nat) (event : PipeEvent) (s : State) : State :=
  if (¬ s.wrapState ∧ s.readBufPos < s.writeBufPos) ∨ (s.wrapState ∧ s.readBufPos < size) then
    match event with
    | .timeout => s
    | .hangup => { s with exit := some .pipe }
    | .ready result => afterWrite (writePipe size result s)
  else if size ≤ s.readBufPos then
    { s with
      readBufPos := 0
      sockBufReadPtr := 0
      wrapState := false }
  else s

def SocketEvent.Fits (size : Nat) (s : State) : SocketEvent → Prop
  | .ready (some bytes) => bytes.length ≤ readRequest size s
  | _ => True

def PipeEvent.Fits (size : Nat) (s : State) : PipeEvent → Prop
  | .ready (some n) => n ≤ writeRequest size s
  | _ => True

inductive Phase
  | socket | pipe

/-- The points of all runs of the loop over a buffer of `size` bytes. -/
inductive Reach (size : Nat) : Phase → State → Prop
  | start (buf : Mem) : Reach size .socket (State.start buf)
  | socket {s : State} (event : SocketEvent) : Reach size .socket s → s.exit = none →
      event.Fits size s → Reach size .pipe (socketPhase size event s)
  | pipe {s : State} (event : PipeEvent) : Reach size .pipe s → s.exit = none →
      event.Fits size s → Reach size .socket (pipePhase size event s)

/-- The bytes read from the router and not yet written to the pipe. -/
def buffered (size : Nat) (s : State) : List UInt8 :=
  if s.wrapState then
    readBytes s.sockBuf s.readBufPos (size - s.readBufPos) ++ readBytes s.sockBuf 0 s.writeBufPos
  else readBytes s.sockBuf s.readBufPos (s.writeBufPos - s.readBufPos)

def view (size : Nat) (s : State) : Fifo UInt8 := ⟨s.received, buffered size s, s.piped⟩

/-- The invariant of the two positions, the two pointers and the wrap flag. An unwrapped
buffer whose read position stands at the end is met only before the socket phase. -/
structure Inv (size : Nat) (phase : Phase) (s : State) : Prop where
  readPtr : s.sockBufReadPtr = s.readBufPos
  writePtr : s.sockBufWritePtr = s.writeBufPos
  write_le : s.writeBufPos ≤ size
  read_le : s.readBufPos ≤ size
  unwrapped : s.wrapState = false → s.readBufPos ≤ s.writeBufPos
  wrapped : s.wrapState = true → s.writeBufPos = 0 ∨ s.writeBufPos < s.readBufPos
  before_pipe : match phase with
    | .socket => True
    | .pipe => s.exit = none → s.wrapState = false → s.readBufPos < size
  lent_le : ∀ stretch ∈ s.lent, stretch.1 + stretch.2 ≤ size

def Polls (size : Nat) (s : State) : Prop :=
  (s.wrapState ∧ s.writeBufPos + 1 < s.readBufPos) ∨ (¬ s.wrapState ∧ s.writeBufPos < size)

def Offers (size : Nat) (s : State) : Prop :=
  (¬ s.wrapState ∧ s.readBufPos < s.writeBufPos) ∨ (s.wrapState ∧ s.readBufPos < size)

def taken (size : Nat) (bytes : List UInt8) (s : State) : State :=
  { s with
    bytesRead := bytes.length
    sockBuf := writeBytes s.sockBuf s.sockBufWritePtr bytes
    received := s.received ++ bytes
    lent := s.lent ++ [(s.sockBufWritePtr, readRequest size s)]
    sockBufWritePtr := s.sockBufWritePtr + bytes.length
    writeBufPos := s.writeBufPos + bytes.length }

def passed (size n : Nat) (s : State) : State :=
  { s with
    bytesRead := n
    piped := s.piped ++ readBytes s.sockBuf s.sockBufReadPtr n
    lent := s.lent ++ [(s.sockBufReadPtr, writeRequest size s)]
    sockBufReadPtr := s.sockBufReadPtr + n
    readBufPos := s.readBufPos + n }

/-- A state that differs only in what the loop does not branch on. -/
structure SameBuffer (size : Nat) (s s' : State) : Prop where
  view : view size s' = view size s
  wrapState : s'.wrapState = s.wrapState
  readBufPos : s'.readBufPos = s.readBufPos
  writeBufPos : s'.writeBufPos = s.writeBufPos
  readPtr : s'.sockBufReadPtr = s.sockBufReadPtr
  writePtr : s'.sockBufWritePtr = s.sockBufWritePtr
  lent : s'.lent = s.lent ∨ (Polls size s ∧
      s'.lent = s.lent ++ [(s.sockBufWritePtr, readRequest size s)]) ∨
    (Offers size s ∧ s'.lent = s.lent ++ [(s.sockBufReadPtr, writeRequest size s)])

theorem SameBuffer.refl (size : Nat) (s : State) : SameBuffer size s s :=
  ⟨rfl, rfl, rfl, rfl, rfl, rfl, Or.inl rfl⟩

/-- Everything the socket phase can do. -/
theorem socketPhase_cases {size : Nat} {s : State} {event : SocketEvent}
    (fits : event.Fits size s) :
    let s' := socketPhase size event s
    (SameBuffer size s s' ∧ (Polls size s ∨ s.wrapState = true)) ∨
    (∃ bytes, Polls size s ∧ bytes.length ≤ readRequest size s ∧ s' = taken size bytes s) ∨
    (size ≤ s.writeBufPos ∧
      s' = { s with writeBufPos := 0, sockBufWritePtr := 0, wrapState := true }) := by
  simp only [socketPhase]
  split
  · rename_i polls
    cases event with
    | timeout => exact Or.inl ⟨SameBuffer.refl size s, Or.inl polls⟩
    | hangup =>
      exact Or.inl ⟨⟨rfl, rfl, rfl, rfl, rfl, rfl, Or.inl rfl⟩, Or.inl polls⟩
    | ready result =>
      have ahead : ¬ s.wrapState ∨ s.writeBufPos < s.readBufPos := by
        rcases polls with ⟨-, h⟩ | ⟨h, -⟩
        · exact Or.inr (by omega)
        · exact Or.inl h
      simp only [if_pos ahead]
      cases result with
      | none =>
        exact Or.inl ⟨⟨rfl, rfl, rfl, rfl, rfl, rfl, Or.inr (Or.inl ⟨polls, rfl⟩)⟩,
          Or.inl polls⟩
      | some bytes =>
        by_cases empty : bytes = []
        · subst empty
          refine Or.inl ⟨⟨?_, rfl, rfl, rfl, rfl, rfl, Or.inr (Or.inl ⟨polls, rfl⟩)⟩,
            Or.inl polls⟩
          simp [afterRead, readSocket, view, buffered, writeBytes_nil]
        · refine Or.inr (Or.inl ⟨bytes, polls, fits, ?_⟩)
          simp [afterRead, readSocket, taken, empty]
  · rename_i idle
    split
    · exact Or.inr (Or.inr ⟨‹_›, rfl⟩)
    · refine Or.inl ⟨SameBuffer.refl size s, Or.inr ?_⟩
      by_contra unwrapped
      exact idle (Or.inr ⟨unwrapped, by omega⟩)

theorem pipePhase_cases {size : Nat} {s : State} {event : PipeEvent} (fits : event.Fits size s) :
    let s' := pipePhase size event s
    SameBuffer size s s' ∨
    (∃ n, Offers size s ∧ n ≤ writeRequest size s ∧ s' = passed size n s) ∨
    (¬ Offers size s ∧ size ≤ s.readBufPos ∧
      s' = { s with readBufPos := 0, sockBufReadPtr := 0, wrapState := false }) := by
  simp only [pipePhase]
  split
  · rename_i offers
    cases event with
    | timeout => exact Or.inl (SameBuffer.refl size s)
    | hangup => exact Or.inl ⟨rfl, rfl, rfl, rfl, rfl, rfl, Or.inl rfl⟩
    | ready result =>
      cases result with
      | none => exact Or.inl ⟨rfl, rfl, rfl, rfl, rfl, rfl, Or.inr (Or.inr ⟨offers, rfl⟩)⟩
      | some n =>
        refine Or.inr (Or.inl ⟨n, offers, fits, ?_⟩)
        rcases Nat.eq_zero_or_pos n with rfl | pos
        · simp [afterWrite, writePipe, passed, readBytes]
        · simp [afterWrite, writePipe, passed, pos]
  · rename_i idle
    split
    · exact Or.inr (Or.inr ⟨idle, ‹_›, rfl⟩)
    · exact Or.inl (SameBuffer.refl size s)

/-! Each half keeps the invariant and is a run of the queue. -/

variable {size : Nat} {s : State}

private theorem readRequest_room {phase : Phase} (inv : Inv size phase s) (polls : Polls size s) :
    s.sockBufWritePtr + readRequest size s ≤ size ∧
      (s.wrapState = true → s.writeBufPos + readRequest size s < s.readBufPos) := by
  have := inv.read_le
  rw [inv.writePtr]
  unfold readRequest
  rcases polls with ⟨wrapped, room⟩ | ⟨unwrapped, room⟩
  · rw [if_pos wrapped]
    exact ⟨by omega, fun _ => by omega⟩
  · rw [if_neg unwrapped]
    exact ⟨by omega, fun wrapped => absurd wrapped unwrapped⟩

/-- What is offered to the pipe is the first stretch of the buffered bytes. -/
private theorem writeRequest_le (size : Nat) (s : State) :
    writeRequest size s ≤
      (if s.wrapState then size - s.readBufPos else s.writeBufPos - s.readBufPos) := by
  simp only [writeRequest]
  generalize (if s.wrapState then _ else _) = ready
  split <;> omega

private theorem buffered_taken {phase : Phase} (inv : Inv size phase s) (polls : Polls size s)
    (bytes : List UInt8) (room : bytes.length ≤ readRequest size s) :
    buffered size (taken size bytes s) = buffered size s ++ bytes := by
  obtain ⟨-, behind⟩ := readRequest_room inv polls
  simp only [buffered, taken, inv.writePtr]
  split
  · rename_i wrapped
    have := behind wrapped
    rw [readBytes_writeBytes_after _ _ _ _ _ (by omega), List.append_assoc]
    congr 1
    simpa using readBytes_writeBytes_append s.sockBuf 0 s.writeBufPos bytes
  · rename_i unwrapped
    have ahead := inv.unwrapped (by simpa using unwrapped)
    have gap : s.readBufPos + (s.writeBufPos - s.readBufPos) = s.writeBufPos := by omega
    have grown : s.writeBufPos + bytes.length - s.readBufPos =
        (s.writeBufPos - s.readBufPos) + bytes.length := by omega
    have := readBytes_writeBytes_append s.sockBuf s.readBufPos (s.writeBufPos - s.readBufPos) bytes
    rwa [gap, ← grown] at this

private theorem buffered_passed {phase : Phase} (inv : Inv size phase s) {n : Nat}
    (room : n ≤ writeRequest size s) :
    buffered size s = readBytes s.sockBuf s.sockBufReadPtr n ++ buffered size (passed size n s) := by
  have first := room.trans (writeRequest_le size s)
  simp only [buffered, passed, inv.readPtr]
  split
  · rename_i wrapped
    rw [if_pos wrapped] at first
    rw [readBytes_split _ _ first, List.append_assoc, Nat.sub_sub]
  · rename_i unwrapped
    rw [if_neg unwrapped] at first
    rw [readBytes_split _ _ first, Nat.sub_sub]

private theorem writeRequest_room {phase : Phase} (inv : Inv size phase s) (offers : Offers size s) :
    s.sockBufReadPtr + writeRequest size s ≤ size := by
  have first := writeRequest_le size s
  have := inv.write_le
  rw [inv.readPtr]
  rcases offers with ⟨unwrapped, room⟩ | ⟨wrapped, room⟩
  · rw [if_neg unwrapped] at first
    omega
  · rw [if_pos wrapped] at first
    omega

private theorem lent_append {lent : List (Nat × Nat)} {new : Nat × Nat}
    (old : ∀ stretch ∈ lent, stretch.1 + stretch.2 ≤ size) (inside : new.1 + new.2 ≤ size) :
    ∀ stretch ∈ lent ++ [new], stretch.1 + stretch.2 ≤ size := by
  intro stretch mem
  rcases List.mem_append.mp mem with before | here
  · exact old stretch before
  · rw [List.mem_singleton.mp here]
    exact inside

private theorem SameBuffer.inv {s' : State} {phase : Phase} (same : SameBuffer size s s')
    (inv : Inv size phase s) {phase' : Phase}
    (before_pipe : match phase' with
      | .socket => True
      | .pipe => s'.exit = none → s.wrapState = false → s.readBufPos < size) :
    Inv size phase' s' := by
  constructor
  · rw [same.readPtr, same.readBufPos, inv.readPtr]
  · rw [same.writePtr, same.writeBufPos, inv.writePtr]
  · exact same.writeBufPos ▸ inv.write_le
  · exact same.readBufPos ▸ inv.read_le
  · rw [same.wrapState, same.readBufPos, same.writeBufPos]
    exact inv.unwrapped
  · rw [same.wrapState, same.readBufPos, same.writeBufPos]
    exact inv.wrapped
  · rw [same.wrapState, same.readBufPos]
    exact before_pipe
  · rcases same.lent with old | ⟨polls, grown⟩ | ⟨offers, grown⟩
    · rw [old]
      exact inv.lent_le
    · rw [grown]
      exact lent_append inv.lent_le (readRequest_room inv polls).1
    · rw [grown]
      exact lent_append inv.lent_le (writeRequest_room inv offers)

private theorem readBufPos_lt {phase : Phase} (inv : Inv size phase s) (polls : Polls size s)
    (unwrapped : s.wrapState = false) : s.readBufPos < size := by
  rcases polls with ⟨wrapped, -⟩ | ⟨-, room⟩
  · exact absurd (wrapped.symm.trans unwrapped) (by simp)
  · exact (inv.unwrapped unwrapped).trans_lt room

private theorem taken_inv (inv : Inv size .socket s) (polls : Polls size s) (bytes : List UInt8)
    (room : bytes.length ≤ readRequest size s) : Inv size .pipe (taken size bytes s) := by
  obtain ⟨space, behind⟩ := readRequest_room inv polls
  constructor
  · exact inv.readPtr
  · simp only [taken, inv.writePtr]
  · rw [inv.writePtr] at space
    simp only [taken]
    omega
  · exact inv.read_le
  · intro unwrapped
    exact (inv.unwrapped unwrapped).trans (Nat.le_add_right _ _)
  · intro wrapped
    have := behind wrapped
    exact Or.inr (by simp only [taken]; omega)
  · intro _ unwrapped
    exact readBufPos_lt (s := s) inv polls unwrapped
  · exact lent_append inv.lent_le space

private theorem view_taken (inv : Inv size .socket s) (polls : Polls size s) (bytes : List UInt8)
    (room : bytes.length ≤ readRequest size s) :
    view size (taken size bytes s) = (view size s).push bytes := by
  simp only [view, Fifo.push, buffered_taken inv polls bytes room]
  rfl

/-- The wrap of the write position moves no byte. -/
private theorem view_writeWrap {phase : Phase} (inv : Inv size phase s)
    (full : size ≤ s.writeBufPos) :
    view size { s with writeBufPos := 0, sockBufWritePtr := 0, wrapState := true } =
      view size s := by
  have atEnd : s.writeBufPos = size := le_antisymm inv.write_le full
  have same : buffered size { s with writeBufPos := 0, sockBufWritePtr := 0, wrapState := true } =
      buffered size s := by
    simp only [buffered, if_true, readBytes, List.append_nil, atEnd]
    split
    · rename_i wrapped
      have rle := inv.read_le
      have zero : size = 0 := by
        rcases inv.wrapped wrapped with h | h <;> omega
      simp [zero, readBytes]
    · rfl
  simp only [view, same]

theorem socketPhase_step (inv : Inv size .socket s) (event : SocketEvent)
    (fits : event.Fits size s) :
    Inv size .pipe (socketPhase size event s) ∧
      Fifo.Run (view size s) (view size (socketPhase size event s)) := by
  rcases socketPhase_cases fits with ⟨same, guard⟩ | ⟨bytes, polls, room, next⟩ | ⟨full, next⟩
  · refine ⟨same.inv inv fun _ unwrapped => ?_, by rw [same.view]; exact .refl⟩
    rcases guard with polls | wrapped
    · exact readBufPos_lt inv polls unwrapped
    · exact absurd (wrapped.symm.trans unwrapped) (by simp)
  · rw [next]
    refine ⟨taken_inv inv polls bytes room, ?_⟩
    rw [view_taken inv polls bytes room]
    exact .single (.push _ bytes)
  · rw [next]
    refine ⟨⟨inv.readPtr, rfl, Nat.zero_le _, inv.read_le, by simp, by simp, by simp,
      inv.lent_le⟩, ?_⟩
    rw [view_writeWrap inv full]
    exact .refl

private theorem passed_inv (inv : Inv size .pipe s) (offers : Offers size s) {n : Nat}
    (room : n ≤ writeRequest size s) : Inv size .socket (passed size n s) := by
  have space := writeRequest_room inv offers
  have first := room.trans (writeRequest_le size s)
  constructor
  · simp only [passed, inv.readPtr]
  · exact inv.writePtr
  · exact inv.write_le
  · rw [inv.readPtr] at space
    simp only [passed]
    omega
  · intro unwrapped
    have ahead := inv.unwrapped unwrapped
    simp only [passed] at unwrapped ⊢
    simp only [unwrapped, Bool.false_eq_true, if_false] at first
    omega
  · intro wrapped
    exact (inv.wrapped wrapped).imp_right (fun h => by simp only [passed]; omega)
  · trivial
  · exact lent_append inv.lent_le space

private theorem view_passed {phase : Phase} (inv : Inv size phase s) {n : Nat}
    (room : n ≤ writeRequest size s) : view size (passed size n s) = (view size s).pop n := by
  have len : (readBytes s.sockBuf s.sockBufReadPtr n).length = n := length_readBytes ..
  simp only [view, Fifo.pop, buffered_passed inv room, List.drop_left' len, List.take_left' len]
  rfl

theorem pipePhase_step (inv : Inv size .pipe s) (running : s.exit = none) (event : PipeEvent)
    (fits : event.Fits size s) :
    Inv size .socket (pipePhase size event s) ∧
      Fifo.Run (view size s) (view size (pipePhase size event s)) := by
  rcases pipePhase_cases fits with same | ⟨n, offers, room, next⟩ | ⟨idle, full, next⟩
  · exact ⟨same.inv inv trivial, by rw [same.view]; exact .refl⟩
  · rw [next]
    refine ⟨passed_inv inv offers room, ?_⟩
    rw [view_passed inv room]
    exact .single (.pop _ n)
  · -- an unwrapped read position at the end of the buffer is met only before the socket phase
    have wrapped : s.wrapState = true := by
      by_contra unwrapped
      have := inv.before_pipe running (by simpa using unwrapped)
      omega
    have atEnd : s.readBufPos = size := le_antisymm inv.read_le full
    rw [next]
    refine ⟨⟨rfl, inv.writePtr, inv.write_le, Nat.zero_le _, by simp, by simp, trivial,
      inv.lent_le⟩, ?_⟩
    have after : buffered size { s with readBufPos := 0, sockBufReadPtr := 0, wrapState := false } =
        buffered size s := by
      simp [buffered, wrapped, atEnd, readBytes]
    simp only [view, after]
    exact .refl

/-! Whole runs. -/

theorem Reach.inv {phase : Phase} (reach : Reach size phase s) :
    Inv size phase s ∧ Fifo.Run Fifo.empty (view size s) := by
  induction reach with
  | start buf =>
    exact ⟨⟨rfl, rfl, Nat.zero_le _, Nat.zero_le _, fun _ => le_rfl, by simp [State.start], trivial,
      by simp [State.start]⟩, .refl⟩
  | socket event _ _ fits ih =>
    obtain ⟨inv, run⟩ := socketPhase_step ih.1 event fits
    exact ⟨inv, ih.2.trans run⟩
  | pipe event _ running fits ih =>
    obtain ⟨inv, run⟩ := pipePhase_step ih.1 running event fits
    exact ⟨inv, ih.2.trans run⟩

theorem Reach.conserved {phase : Phase} (reach : Reach size phase s) :
    s.piped ++ buffered size s = s.received := reach.inv.2.conserved

/-- The circular buffer refines a FIFO queue at every point of every run: what went to
the pipe followed by what is buffered is what came from the router, the positions stay
in range, and so does every stretch of the buffer lent to the kernel. -/
theorem ring_refines_fifo (phase : Phase) (reach : Reach size phase s) :
    Fifo.Run Fifo.empty (view size s) ∧
      s.piped ++ buffered size s = s.received ∧
      s.writeBufPos ≤ size ∧ s.readBufPos ≤ size ∧
      ∀ stretch ∈ s.lent, stretch.1 + stretch.2 ≤ size :=
  ⟨reach.inv.2, reach.conserved, reach.inv.1.write_le, reach.inv.1.read_le, reach.inv.1.lent_le⟩

private def afterTwo (n : Nat) : State :=
  pipePhase 4 (.ready (some n)) (socketPhase 4 (.ready (some [7, 8])) (State.start (fun _ => 0)))

private theorem reach_afterTwo (n : Nat) (h : n ≤ 2) : Reach 4 .socket (afterTwo n) :=
  .pipe _ (.socket _ (.start _) rfl (show 2 ≤ 4 by decide)) rfl h

theorem ring_refines_fifo_afterTwo :
    (afterTwo 1).piped ++ buffered 4 (afterTwo 1) = [7, 8] :=
  (ring_refines_fifo .socket (reach_afterTwo 1 (by decide))).2.1

/-- Nothing is left between the two positions. -/
def Drained (size : Nat) (s : State) : Prop :=
  (s.wrapState = false ∧ s.readBufPos = s.writeBufPos) ∨
    (s.wrapState = true ∧ s.readBufPos = size ∧ s.writeBufPos = 0)

instance (size : Nat) (s : State) : Decidable (Drained size s) :=
  inferInstanceAs (Decidable (_ ∨ _))

private theorem buffered_eq_nil {phase : Phase} (inv : Inv size phase s) :
    buffered size s = [] ↔ Drained size s := by
  have rle := inv.read_le
  rw [← List.length_eq_zero_iff]
  unfold buffered Drained
  cases wrap : s.wrapState with
  | true =>
    simp only [if_true, List.length_append, length_readBytes]
    simp
    omega
  | false =>
    have ahead := inv.unwrapped wrap
    simp only [Bool.false_eq_true, if_false, length_readBytes]
    simp
    omega

/-- When the router closes the connection, every byte read from it has reached the
pipe exactly if the buffer happened to be drained: the exit path does not drain it. -/
theorem router_close_drained_iff (reach : Reach size .socket s) (event : SocketEvent)
    (fits : event.Fits size s)
    (closes : s.exit = none ∧ (socketPhase size event s).exit = some .router) :
    (socketPhase size event s).piped = (socketPhase size event s).received ↔ Drained size s := by
  have same : view size (socketPhase size event s) = view size s := by
    rcases socketPhase_cases fits with ⟨same, -⟩ | ⟨bytes, -, -, next⟩ | ⟨-, next⟩
    · exact same.view
    · have := next ▸ closes.2
      exact absurd (closes.1.symm.trans this) (by simp)
    · have := next ▸ closes.2
      exact absurd (closes.1.symm.trans this) (by simp)
  have piped : (socketPhase size event s).piped = s.piped := congrArg Fifo.delivered same
  have received : (socketPhase size event s).received = s.received := congrArg Fifo.accepted same
  rw [piped, received, ← buffered_eq_nil reach.inv.1, ← reach.conserved]
  exact List.self_eq_append_right

theorem router_close_drained_afterTwo :
    (socketPhase 4 .hangup (afterTwo 2)).piped = (socketPhase 4 .hangup (afterTwo 2)).received :=
  (router_close_drained_iff (reach_afterTwo 2 le_rfl) .hangup trivial (by decide)).mpr (by decide)

/-- The router hangs up after a short write: the second byte never reaches the pipe,
which is closed on this path. -/
theorem router_hangup_loses_byte :
    Reach 4 .pipe (socketPhase 4 .hangup (afterTwo 1)) ∧
      (socketPhase 4 .hangup (afterTwo 1)).exit = some .router ∧
      (socketPhase 4 .hangup (afterTwo 1)).received = [7, 8] ∧
      (socketPhase 4 .hangup (afterTwo 1)).piped = [7] :=
  ⟨.socket _ (reach_afterTwo 1 (by decide)) rfl trivial, rfl, rfl, rfl⟩

end SonicBmp.ClientThread
