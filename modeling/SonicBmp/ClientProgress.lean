/- module: SonicBmp/ClientProgress
   digest: The circular buffer does not stall: an idle loop soon reads unless it is full, and soon writes unless it is empty. -/

import SonicBmp.ClientThread

set_option autoImplicit false
set_option relaxedAutoImplicit false

namespace SonicBmp.ClientProgress

open SonicBmp.ClientThread
open SonicBmp.Library.Memory (length_readBytes)

/-- `goal` holds now or after at most `n` steps, whichever steps are taken; there is always
one to take. -/
def Within {σ : Type} (step : σ → σ → Prop) (goal : σ → Prop) : Nat → σ → Prop
  | 0, s => goal s
  | n + 1, s => goal s ∨ ((∃ s', step s s') ∧ ∀ s', step s s' → Within step goal n s')

theorem within_of_goal {σ : Type} {step : σ → σ → Prop} {goal : σ → Prop} {s : σ} (now : goal s)
    (n : Nat) : Within step goal n s := by
  cases n with
  | zero => exact now
  | succ n => exact Or.inl now

/-- Half an iteration in which no byte is transferred and the loop goes on. -/
inductive Idle (size : Nat) : Phase × State → Phase × State → Prop
  | socket (s : State) (event : SocketEvent) (fits : event.Fits size s)
      (nothing : (socketPhase size event s).received = s.received)
      (running : (socketPhase size event s).exit = none) :
      Idle size (.socket, s) (.pipe, socketPhase size event s)
  | pipe (s : State) (event : PipeEvent) (fits : event.Fits size s)
      (nothing : (pipePhase size event s).piped = s.piped)
      (running : (pipePhase size event s).exit = none) :
      Idle size (.pipe, s) (.socket, pipePhase size event s)

/-- If the socket is ready, bytes are asked from it, whatever comes of that. -/
def AttemptsRead (size : Nat) (at_ : Phase × State) : Prop :=
  at_.1 = .socket ∧ ∃ room, 0 < room ∧ ∀ result,
    (socketPhase size (.ready result) at_.2).lent = at_.2.lent ++ [(at_.2.sockBufWritePtr, room)]

/-- If the pipe is ready, bytes are offered to it, whatever comes of that. -/
def AttemptsWrite (size : Nat) (at_ : Phase × State) : Prop :=
  at_.1 = .pipe ∧ ∃ ready, 0 < ready ∧ ∀ result,
    (pipePhase size (.ready result) at_.2).lent = at_.2.lent ++ [(at_.2.sockBufReadPtr, ready)]

variable {size : Nat} {s : State}

theorem attemptsRead_of_polls (polls : Polls size s) : AttemptsRead size (.socket, s) := by
  have room : 0 < readRequest size s := by
    unfold readRequest
    rcases polls with ⟨wrapped, gap⟩ | ⟨unwrapped, gap⟩
    · rw [if_pos wrapped]
      omega
    · rw [if_neg unwrapped]
      omega
  have ahead : ¬ s.wrapState ∨ s.writeBufPos < s.readBufPos := by
    rcases polls with ⟨-, gap⟩ | ⟨unwrapped, -⟩
    · exact Or.inr (by omega)
    · exact Or.inl unwrapped
  refine ⟨rfl, readRequest size s, room, ?_⟩
  intro result
  unfold Polls at polls
  simp only [socketPhase, if_pos polls, if_pos ahead]
  rw [afterRead, apply_ite State.lent]
  cases result <;> split <;> rfl

theorem attemptsWrite_of_offers (offers : Offers size s) : AttemptsWrite size (.pipe, s) := by
  have ready : 0 < writeRequest size s := by
    have block : clientWriteBufferBlockSize = 8192 := rfl
    unfold writeRequest
    rcases offers with ⟨unwrapped, gap⟩ | ⟨wrapped, gap⟩
    · rw [if_neg unwrapped]
      dsimp only
      split <;> omega
    · rw [if_pos wrapped]
      dsimp only
      split <;> omega
  refine ⟨rfl, writeRequest size s, ready, ?_⟩
  intro result
  unfold Offers at offers
  simp only [pipePhase, if_pos offers]
  rw [afterWrite, apply_ite State.lent]
  cases result <;> split <;> rfl

/-! What the positions are after an idle half. -/

/-- The part of the state the branch conditions read: the wrap flag, the read position and
the write position. -/
def positions (s : State) : Bool × Nat × Nat := (s.wrapState, s.readBufPos, s.writeBufPos)

theorem polls_of_positions {wrap : Bool} {read write : Nat}
    (at_ : positions s = (wrap, read, write))
    (room : (wrap = true ∧ write + 1 < read) ∨ (¬ wrap = true ∧ write < size)) : Polls size s := by
  cases at_
  exact room

theorem offers_of_positions {wrap : Bool} {read write : Nat}
    (at_ : positions s = (wrap, read, write))
    (ready : (¬ wrap = true ∧ read < write) ∨ (wrap = true ∧ read < size)) : Offers size s := by
  cases at_
  exact ready

theorem length_buffered (size : Nat) (s : State) :
    (buffered size s).length =
      if s.wrapState then size - s.readBufPos + s.writeBufPos
      else s.writeBufPos - s.readBufPos := by
  unfold buffered
  split
  · rw [List.length_append, length_readBytes, length_readBytes]
  · rw [length_readBytes]

/-- A loop that goes on can always time out. -/
theorem can_idle (size : Nat) (phase : Phase) (running : s.exit = none) :
    ∃ next, Idle size (phase, s) next := by
  cases phase with
  | socket =>
    refine ⟨_, Idle.socket s .timeout trivial ?_ ?_⟩
    · rw [socketPhase]
      split
      · rfl
      · split <;> rfl
    · rw [socketPhase]
      split
      · exact running
      · split <;> exact running
  | pipe =>
    refine ⟨_, Idle.pipe s .timeout trivial ?_ ?_⟩
    · rw [pipePhase]
      split
      · rfl
      · split <;> rfl
    · rw [pipePhase]
      split
      · exact running
      · split <;> exact running

/-- An idle socket half only wraps the write position, and only when it stands at the end. -/
theorem idle_socket (read_le : s.readBufPos ≤ size) {next : Phase × State}
    (idle : Idle size (.socket, s) next) :
    ∃ s', next = (.pipe, s') ∧ s'.exit = none ∧
      (((Polls size s ∨ s.writeBufPos < size) ∧ positions s' = positions s) ∨
        (¬ Polls size s ∧ size ≤ s.writeBufPos ∧ positions s' = (true, s.readBufPos, 0))) := by
  rcases idle with ⟨_, event, fits, nothing, running⟩
  refine ⟨_, rfl, running, ?_⟩
  by_cases polls : Polls size s
  · refine Or.inl ⟨Or.inl polls, ?_⟩
    rcases socketPhase_cases fits with ⟨same, -⟩ | ⟨bytes, -, -, grown⟩ | ⟨full, -⟩
    · simp only [positions, same.wrapState, same.readBufPos, same.writeBufPos]
    · rw [grown] at nothing ⊢
      have empty : bytes = [] := List.append_right_eq_self.mp nothing
      subst empty
      rfl
    · rcases polls with ⟨-, gap⟩ | ⟨-, gap⟩ <;> omega
  · by_cases full : size ≤ s.writeBufPos
    · refine Or.inr ⟨polls, full, ?_⟩
      unfold Polls at polls
      simp only [socketPhase, if_neg polls, if_pos full, positions]
    · refine Or.inl ⟨Or.inr (by omega), ?_⟩
      unfold Polls at polls
      simp only [socketPhase, if_neg polls, if_neg full]

/-- An idle pipe half only unwraps the read position, and only when it stands at the end. -/
theorem idle_pipe {next : Phase × State} (idle : Idle size (.pipe, s) next) :
    ∃ s', next = (.socket, s') ∧ s'.exit = none ∧
      (((Offers size s ∨ s.readBufPos < size) ∧ positions s' = positions s) ∨
        (¬ Offers size s ∧ size ≤ s.readBufPos ∧ positions s' = (false, 0, s.writeBufPos))) := by
  rcases idle with _ | ⟨_, event, fits, nothing, running⟩
  refine ⟨_, rfl, running, ?_⟩
  by_cases offers : Offers size s
  · refine Or.inl ⟨Or.inl offers, ?_⟩
    rcases pipePhase_cases fits with same | ⟨n, -, -, moved⟩ | ⟨idle, -, -⟩
    · simp only [positions, same.wrapState, same.readBufPos, same.writeBufPos]
    · rw [moved] at nothing ⊢
      have empty : n = 0 := by
        have := congrArg List.length (List.append_right_eq_self.mp nothing)
        rwa [length_readBytes] at this
      subst empty
      rfl
    · exact absurd offers idle
  · by_cases full : size ≤ s.readBufPos
    · refine Or.inr ⟨offers, full, ?_⟩
      unfold Offers at offers
      simp only [pipePhase, if_neg offers, if_pos full, positions]
    · refine Or.inl ⟨Or.inr (by omega), ?_⟩
      unfold Offers at offers
      simp only [pipePhase, if_neg offers, if_neg full]

/-- A buffer that does not poll, although it is not full, has its write position at the
end and soon polls again. -/
theorem read_soon (two : 2 ≤ size) (inv : Inv size .socket s) (running : s.exit = none)
    (room : (buffered size s).length < size - 1) :
    Within (Idle size) (AttemptsRead size) 4 (.socket, s) := by
  have read_le := inv.read_le
  have write_le := inv.write_le
  rw [length_buffered] at room
  by_cases polls : Polls size s
  · exact within_of_goal (attemptsRead_of_polls polls) 4
  have atEnd : s.writeBufPos = size ∧ s.wrapState = false := by
    unfold Polls at polls
    cases wrap : s.wrapState with
    | true =>
      simp only [wrap, if_true, true_and, not_true_eq_false, false_and, or_false] at room polls
      omega
    | false =>
      simp only [wrap, Bool.false_eq_true, false_and, not_false_eq_true, true_and, false_or] at polls
      exact ⟨by omega, rfl⟩
  rw [atEnd.2, if_neg Bool.false_ne_true] at room
  refine Or.inr ⟨can_idle size .socket running, ?_⟩
  intro next idle
  obtain ⟨s', rfl, running', ⟨polling | behind, -⟩ | ⟨-, -, wrapped⟩⟩ := idle_socket read_le idle
  · exact absurd polling polls
  · omega
  refine Or.inr ⟨can_idle size .pipe running', ?_⟩
  intro next' idle'
  obtain ⟨s'', rfl, -, ⟨-, same⟩ | ⟨-, -, unwrapped⟩⟩ := idle_pipe idle'
  · -- the gap behind the read position is the room that is left
    refine within_of_goal (attemptsRead_of_polls ?_) 2
    exact polls_of_positions (same.trans wrapped) (Or.inl ⟨rfl, by omega⟩)
  · refine within_of_goal (attemptsRead_of_polls ?_) 2
    have emptied : s'.writeBufPos = 0 := congrArg (·.2.2) wrapped
    exact polls_of_positions unwrapped (Or.inr ⟨Bool.false_ne_true, by omega⟩)

/-- What is buffered behind a read position at the end is offered after the wrap is undone. -/
theorem write_after_unwrap (running : s.exit = none) (read : s.readBufPos = size)
    (wrapped : s.wrapState = true) (bytes : 0 < s.writeBufPos) (room : s.writeBufPos < size) :
    Within (Idle size) (AttemptsWrite size) 4 (.pipe, s) := by
  refine Or.inr ⟨can_idle size .pipe running, ?_⟩
  intro next idle
  obtain ⟨s', rfl, running', ⟨offers, -⟩ | ⟨-, -, unwrapped⟩⟩ := idle_pipe idle
  · simp only [Offers, wrapped, not_true_eq_false, false_and, true_and, false_or] at offers
    omega
  have read' : s'.readBufPos = 0 := congrArg (·.2.1) unwrapped
  have write' : s'.writeBufPos = s.writeBufPos := congrArg (·.2.2) unwrapped
  refine Or.inr ⟨can_idle size .socket running', ?_⟩
  intro next' idle'
  obtain ⟨s'', rfl, -, ⟨-, same⟩ | ⟨-, full, -⟩⟩ := idle_socket (by omega) idle'
  · refine within_of_goal (attemptsWrite_of_offers ?_) 2
    exact offers_of_positions (same.trans unwrapped) (Or.inl ⟨Bool.false_ne_true, bytes⟩)
  · omega

/-- A buffer that does not offer, although it is not empty, has its read position at the
end and soon offers again. -/
theorem write_soon (two : 2 ≤ size) (inv : Inv size .socket s) (running : s.exit = none)
    (bytes : 0 < (buffered size s).length) :
    Within (Idle size) (AttemptsWrite size) 5 (.socket, s) := by
  have read_le := inv.read_le
  have write_le := inv.write_le
  rw [length_buffered] at bytes
  refine Or.inr ⟨can_idle size .socket running, ?_⟩
  intro next idle
  obtain ⟨s', rfl, running', moved⟩ := idle_socket read_le idle
  by_cases last : s.wrapState = true ∧ s.readBufPos = size
  · obtain ⟨wrapped, atEnd⟩ := last
    rw [if_pos wrapped] at bytes
    have behind := inv.wrapped wrapped
    rcases moved with ⟨-, same⟩ | ⟨-, full, -⟩
    · simp only [positions, Prod.mk.injEq] at same
      obtain ⟨wrap', read', write'⟩ := same
      exact write_after_unwrap running' (by omega) (wrap'.trans wrapped) (by omega) (by omega)
    · omega
  · refine within_of_goal (attemptsWrite_of_offers ?_) 4
    have behind : s.readBufPos < size := by
      by_contra beyond
      have unwrapped : ¬ s.wrapState = true := fun wrapped => last ⟨wrapped, by omega⟩
      rw [if_neg unwrapped] at bytes
      omega
    rcases moved with ⟨-, same⟩ | ⟨-, -, wrapped⟩
    · refine offers_of_positions same ?_
      by_cases wrap : s.wrapState = true
      · exact Or.inr ⟨wrap, behind⟩
      · rw [if_neg wrap] at bytes
        exact Or.inl ⟨wrap, by omega⟩
    · exact offers_of_positions wrapped (Or.inr ⟨rfl, behind⟩)

/-- The buffer never stalls by itself. At the top of the loop, with no byte transferred from
here on: unless it holds all but one byte of its size, a read is attempted at the first, the
second or the third socket half from here, and if it holds anything, a write is attempted at
the first, the second or the third pipe half. -/
theorem never_stalls (two : 2 ≤ size) (reach : Reach size .socket s) (running : s.exit = none) :
    (¬ size - 1 ≤ (buffered size s).length →
        Within (Idle size) (AttemptsRead size) 4 (.socket, s)) ∧
      (1 ≤ (buffered size s).length →
        Within (Idle size) (AttemptsWrite size) 5 (.socket, s)) := by
  constructor
  · intro room
    exact read_soon two reach.inv.1 running (not_le.mp room)
  · intro bytes
    exact write_soon two reach.inv.1 running bytes

/-- The write position stands at the end of a buffer of four bytes, two of them free. -/
private def halfSent : State :=
  pipePhase 4 (.ready (some 2))
    (socketPhase 4 (.ready (some [1, 2, 3, 4])) (State.start (fun _ => 0)))

private theorem reach_halfSent : Reach 4 .socket halfSent :=
  .pipe _ (.socket _ (.start _) rfl (show 4 ≤ 4 by decide)) rfl (show 2 ≤ 4 by decide)

theorem never_stalls_halfSent :
    Within (Idle 4) (AttemptsRead 4) 4 (.socket, halfSent) ∧
      Within (Idle 4) (AttemptsWrite 4) 5 (.socket, halfSent) :=
  have both := never_stalls (show 2 ≤ 4 by decide) reach_halfSent rfl
  ⟨both.1 (by decide), both.2 (by decide)⟩

end SonicBmp.ClientProgress
