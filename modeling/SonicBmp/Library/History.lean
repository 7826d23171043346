/- module: SonicBmp/Library/History
   digest: Histories of additions and removals, and when a grow-only record of them is exact. -/

import Mathlib.Data.List.Basic

set_option autoImplicit false
set_option relaxedAutoImplicit false

namespace SonicBmp.Library.History

variable {E K : Type}

theorem exists_last {P : E → Prop} {history : List E} (some_event : ∃ e ∈ history, P e) :
    ∃ before e after, history = before ++ e :: after ∧ P e ∧ ∀ e' ∈ after, ¬ P e' := by
  induction history with
  | nil => simp at some_event
  | cons first rest ih =>
    by_cases later : ∃ e ∈ rest, P e
    · obtain ⟨before, e, after, split, holds, none_after⟩ := ih later
      exact ⟨first :: before, e, after, by rw [split]; rfl, holds, none_after⟩
    · obtain ⟨e, here, holds⟩ := some_event
      rcases List.mem_cons.mp here with rfl | inRest
      · exact ⟨[], e, rest, rfl, holds, fun e' he' he => later ⟨e', he', he⟩⟩
      · exact absurd ⟨e, inRest, holds⟩ later

variable (adds removes : E → K → Prop)

/-- The last event that mentions the key added it. -/
def LastAdds (history : List E) (k : K) : Prop :=
  ∃ before e after, history = before ++ e :: after ∧ adds e k ∧
    ∀ e' ∈ after, ¬ (adds e' k ∨ removes e' k)

/-- No event removes a key that an earlier one added. -/
def NeverUndoes (history : List E) : Prop :=
  ∀ before e after, history = before ++ e :: after → ∀ k, removes e k → ∀ e' ∈ before, ¬ adds e' k

variable {adds removes}

theorem LastAdds.exists_adds {history : List E} {k : K} (last : LastAdds adds removes history k) :
    ∃ e ∈ history, adds e k := by
  obtain ⟨before, e, after, split, added, -⟩ := last
  exact ⟨e, by simp [split], added⟩

/-- A history that ends with the removal of a key does not add it last. -/
theorem not_lastAdds_concat {history : List E} {e : E} {k : K} (removed : removes e k)
    (kept : ¬ adds e k) : ¬ LastAdds adds removes (history ++ [e]) k := by
  rintro ⟨before, last, after, split, adds_last, none_after⟩
  rcases List.eq_nil_or_concat after with rfl | ⟨others, final, rfl⟩
  · have same : e = last := by simpa using (List.append_inj' split rfl).2
    exact kept (same ▸ adds_last)
  · have regrouped : history ++ [e] = (before ++ last :: others) ++ [final] := by
      rw [split]
      simp
    have same : e = final := by simpa using (List.append_inj' regrouped rfl).2
    exact none_after final (by simp) (Or.inr (same ▸ removed))

theorem NeverUndoes.take {history : List E} (never : NeverUndoes adds removes history) (n : Nat) :
    NeverUndoes adds removes (history.take n) := by
  intro before e after split
  refine never before e (after ++ history.drop n) ?_
  conv_lhs => rw [← List.take_append_drop n history, split]
  simp

theorem NeverUndoes.lastAdds {history : List E} (never : NeverUndoes adds removes history) {k : K}
    (added : ∃ e ∈ history, adds e k) : LastAdds adds removes history k := by
  obtain ⟨e, here, adds_e⟩ := added
  obtain ⟨before, last, after, split, mentions, none_after⟩ :=
    exists_last (P := fun e => adds e k ∨ removes e k) ⟨e, here, Or.inl adds_e⟩
  refine ⟨before, last, after, split, ?_, none_after⟩
  rcases mentions with adds_last | removed
  · exact adds_last
  · rw [split, List.mem_append, List.mem_cons] at here
    rcases here with early | rfl | late
    · exact absurd adds_e (never before last after split k removed e early)
    · exact adds_e
    · exact absurd (Or.inl adds_e) (none_after e late)

/-- A record that keeps every key ever added is right after every event exactly when no
event undoes an earlier one, provided that no event adds and removes one key. -/
theorem growOnly_exact_iff {history : List E}
    (disjoint : ∀ e ∈ history, ∀ k, ¬ (adds e k ∧ removes e k)) :
    (∀ n ≤ history.length, ∀ k, (∃ e ∈ history.take n, adds e k) ↔
      LastAdds adds removes (history.take n) k) ↔ NeverUndoes adds removes history := by
  constructor
  · intro exact_always before e after split k removed early early_mem early_adds
    have cut : history.take (before.length + 1) = before ++ [e] := by
      rw [split, List.take_length_add_append]
      rfl
    have here : e ∈ history := by simp [split]
    have exact_here := exact_always (before.length + 1) (by simp [split]) k
    rw [cut] at exact_here
    have kept : ¬ adds e k := fun added => disjoint e here k ⟨added, removed⟩
    exact not_lastAdds_concat removed kept
      (exact_here.mp ⟨early, by simp [early_mem], early_adds⟩)
  · intro never n _ k
    exact ⟨(never.take n).lastAdds, LastAdds.exists_adds⟩

end SonicBmp.Library.History
