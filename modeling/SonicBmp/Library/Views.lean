/- module: SonicBmp/Library/Views
   digest: Folds over a list of items, seen through a part of the state that few items touch. -/

import Mathlib.Data.List.Permutation

set_option autoImplicit false
set_option relaxedAutoImplicit false

namespace SonicBmp.Library.Views

variable {σ τ α κ : Type}

/-- Only the items in `touch` change what the view shows, and what they change it to
depends on the state through the view alone. -/
structure Touches (step : σ → α → σ) (view : σ → τ) (touch : α → Bool) : Prop where
  own : ∀ a s s', touch a = true → view s = view s' → view (step s a) = view (step s' a)
  frame : ∀ a s, touch a = false → view (step s a) = view s

variable {step : σ → α → σ} {view : σ → τ}

/-- Items that the view does not see can be left out. -/
theorem Touches.foldl_filter {touch : α → Bool} (h : Touches step view touch) (l : List α)
    (s s' : σ) (same : view s = view s') :
    view (l.foldl step s) = view ((l.filter touch).foldl step s') := by
  induction l generalizing s s' with
  | nil => exact same
  | cons a l ih =>
    cases touched : touch a with
    | true =>
      rw [List.filter_cons_of_pos touched]
      exact ih _ _ (h.own a s s' touched same)
    | false =>
      rw [List.filter_cons_of_neg (by simp [touched])]
      exact ih _ _ ((h.frame a s touched).trans same)

/-! Items with codes, no two of them with the same. -/

section Coded

variable [DecidableEq κ] {code : α → κ} {l : List α}
variable (distinct : l.Pairwise (fun a b => code a ≠ code b))

include distinct

/-- Of two codes, at most one item each is in the list. -/
private theorem filter_codes (c d : κ) :
    let both := l.filter (fun a => decide (code a = c ∨ code a = d))
    both = [] ∨ (∃ a, both = [a]) ∨ ∃ a b, both = [a, b] ∧ code a ≠ code b := by
  intro both
  have coded : ∀ a ∈ both, code a = c ∨ code a = d := by simp [both]
  have apart : both.Pairwise (fun a b => code a ≠ code b) := distinct.filter _
  clear_value both
  rcases both with _ | ⟨x, _ | ⟨y, _ | ⟨z, rest⟩⟩⟩
  · exact Or.inl rfl
  · exact Or.inr (Or.inl ⟨x, rfl⟩)
  · exact Or.inr (Or.inr ⟨x, y, rfl, (List.pairwise_cons.mp apart).1 y (by simp)⟩)
  · -- three different codes out of two
    simp only [List.pairwise_cons, List.mem_cons, forall_eq_or_imp] at apart coded
    obtain ⟨⟨xy, xz, -⟩, ⟨yz, -⟩, -⟩ := apart
    obtain ⟨hx, hy, hz, -⟩ := coded
    rcases hx with hx | hx <;> rcases hy with hy | hy <;> rcases hz with hz | hz <;>
      simp_all

/-- A view that two codes touch is the same for every order exactly when it does not see
in which order those two come. -/
theorem Touches.foldl_perm_iff {c d : κ} (other : c ≠ d)
    (h : Touches step view (fun a => decide (code a = c ∨ code a = d))) (s : σ) :
    (∀ l' : List α, l'.Perm l → view (l'.foldl step s) = view (l.foldl step s)) ↔
      ∀ a ∈ l, ∀ b ∈ l, code a = c → code b = d →
        view (step (step s a) b) = view (step (step s b) a) := by
  let touch := fun a : α => decide (code a = c ∨ code a = d)
  have seen (l : List α) : view (l.foldl step s) = view ((l.filter touch).foldl step s) :=
    h.foldl_filter l s s rfl
  have listed (a : α) : a ∈ l.filter touch ↔ a ∈ l ∧ (code a = c ∨ code a = d) := by
    simp [touch]
  constructor
  · intro all a inA b inB isC isD
    have reversed := all l.reverse l.reverse_perm
    rw [seen l.reverse, seen l, List.filter_reverse] at reversed
    have first := (listed a).mpr ⟨inA, Or.inl isC⟩
    have second := (listed b).mpr ⟨inB, Or.inr isD⟩
    have differ : a ≠ b := by
      rintro rfl
      exact other (isC.symm.trans isD)
    rcases filter_codes distinct c d with none_left | ⟨x, one⟩ | ⟨x, y, both, -⟩
    · rw [none_left] at first
      simp at first
    · rw [one, List.mem_singleton] at first second
      exact absurd (first.trans second.symm) differ
    · rw [both] at first second reversed
      simp only [List.mem_cons, List.not_mem_nil, or_false] at first second
      rcases first with rfl | rfl <;> rcases second with rfl | rfl
      · exact absurd rfl differ
      · exact reversed.symm
      · exact reversed
      · exact absurd rfl differ
  · intro swap l' perm
    have filtered := perm.filter touch
    rw [seen l', seen l]
    rcases filter_codes distinct c d with none_left | ⟨x, one⟩ | ⟨x, y, both, apart⟩
    · rw [none_left] at filtered ⊢
      rw [filtered.eq_nil]
    · rw [one] at filtered ⊢
      rw [filtered.eq_singleton]
    · have atX := (listed x).mp (by rw [both]; simp)
      have atY := (listed y).mp (by rw [both]; simp)
      rw [both] at filtered ⊢
      rcases List.perm_pair.mp filtered with order | order <;> rw [order]
      rcases atX.2 with xc | xd <;> rcases atY.2 with yc | yd
      · exact absurd (xc.trans yc.symm) apart
      · exact (swap x atX.1 y atY.1 xc yd).symm
      · exact swap y atY.1 x atX.1 yc xd
      · exact absurd (xd.trans yd.symm) apart

/-- A view that one code touches does not see in which order the codes come. -/
theorem Touches.foldl_perm {c : κ} (h : Touches step view (fun a => decide (code a = c)))
    {l' : List α} (perm : l'.Perm l) (s : σ) :
    view (l'.foldl step s) = view (l.foldl step s) := by
  have filtered := perm.filter (fun a => decide (code a = c))
  have coded : ∀ a ∈ l.filter (fun a => decide (code a = c)), code a = c := by simp
  rw [h.foldl_filter l' s s rfl, h.foldl_filter l s s rfl]
  have shape := filter_codes distinct c c
  simp only [or_self] at shape
  rcases shape with none_left | ⟨x, one⟩ | ⟨x, y, both, apart⟩
  · rw [none_left] at filtered ⊢
    rw [filtered.eq_nil]
  · rw [one] at filtered ⊢
    rw [filtered.eq_singleton]
  · rw [both] at coded
    exact absurd ((coded x (by simp)).trans (coded y (by simp)).symm) apart

end Coded

end SonicBmp.Library.Views
