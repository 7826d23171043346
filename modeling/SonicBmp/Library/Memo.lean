/- module: SonicBmp/Library/Memo
   digest: A table that keeps what was made for the first request with a key, and when no request notices it. -/

import Mathlib.Data.List.Basic
import Mathlib.Logic.Function.Basic

set_option autoImplicit false
set_option relaxedAutoImplicit false

namespace SonicBmp.Library.Memo

variable {ρ κ ν ω : Type} [DecidableEq κ]

/-- Requests with their keys, what is made for a request, and what the caller gets of it:
when it has just been made, and when it is found in the table. -/
structure Table (ρ κ ν ω : Type) where
  key : ρ → κ
  make : ρ → ν
  miss : ν → ω
  hit : ν → ω

namespace Table

variable (m : Table ρ κ ν ω)

def step (table : κ → Option ν) (r : ρ) : ω × (κ → Option ν) :=
  match table (m.key r) with
  | some v => (m.hit v, table)
  | none => (m.miss (m.make r), Function.update table (m.key r) (some (m.make r)))

def run : (κ → Option ν) → List ρ → List ω
  | _, [] => []
  | table, r :: rs => (m.step table r).1 :: run (m.step table r).2 rs

/-- What a request gets that is the first one of all. -/
def fresh (r : ρ) : ω := m.miss (m.make r)

/-- A later request with the same key gets what it would get as the first. -/
def Covers (r r' : ρ) : Prop := m.key r = m.key r' → m.hit (m.make r) = m.fresh r'

/-- The table after some requests: for each key, what was made for the first of them. -/
def after (past : List ρ) (k : κ) : Option ν :=
  (past.find? (fun r => m.key r = k)).map m.make

theorem step_after (past : List ρ) (r : ρ) :
    (m.step (m.after past) r).2 = m.after (past ++ [r]) := by
  funext k
  rw [after, List.find?_append, step]
  cases found : m.after past (m.key r) with
  | some v =>
    rw [after, Option.map_eq_some_iff] at found
    obtain ⟨first, here, -⟩ := found
    by_cases own : m.key r = k
    · subst own
      simp [after, here]
    · cases other : past.find? (fun r => m.key r = k) <;> simp [after, own, other]
  | none =>
    rw [after, Option.map_eq_none_iff] at found
    by_cases own : m.key r = k
    · subst own
      simp [found]
    · cases other : past.find? (fun r => m.key r = k) <;>
        simp [after, own, other, Function.update_of_ne (Ne.symm own)]

variable {m}

/-- A request notices nothing exactly when every earlier one covers it. -/
private theorem step_eq_fresh_iff (settled : ∀ v w, m.hit v = m.miss w → m.hit w = m.miss w)
    {past : List ρ} (so_far : past.Pairwise m.Covers) (r : ρ) :
    (m.step (m.after past) r).1 = m.fresh r ↔ ∀ p ∈ past, m.Covers p r := by
  rw [step]
  cases found : past.find? (fun p => m.key p = m.key r) with
  | none =>
    simp only [after, found, Option.map_none, fresh, true_iff]
    intro p here same
    exact absurd same (by simpa using List.find?_eq_none.mp found p here)
  | some first =>
    simp only [after, found, Option.map_some]
    obtain ⟨same, before, later, rfl, others⟩ := List.find?_eq_some_iff_append.mp found
    have same : m.key first = m.key r := by simpa using same
    constructor
    · intro got p here alike
      rcases List.mem_append.mp here with early | here
      · exact absurd alike (by simpa using others p early)
      rcases List.mem_cons.mp here with rfl | late
      · exact got
      -- what `p` got came from the first one, too
      have covered := (List.pairwise_cons.mp (List.pairwise_append.mp so_far).2.1).1 p late
        (same.trans alike.symm)
      rw [settled _ _ covered, ← fresh, ← covered, got]
    · intro covers
      exact covers first (by simp) same

private theorem run_after (settled : ∀ v w, m.hit v = m.miss w → m.hit w = m.miss w)
    {past : List ρ} (so_far : past.Pairwise m.Covers) (rs : List ρ) :
    m.run (m.after past) rs = rs.map m.fresh ↔ (past ++ rs).Pairwise m.Covers := by
  induction rs generalizing past with
  | nil => simpa [run] using so_far
  | cons r rs ih =>
    have moved : past ++ r :: rs = past ++ [r] ++ rs := by simp
    have grown : (past ++ [r]).Pairwise m.Covers ↔ ∀ p ∈ past, m.Covers p r := by
      simp [List.pairwise_append, so_far]
    rw [run, List.map_cons, List.cons_eq_cons, step_after, step_eq_fresh_iff settled so_far, moved,
      ← grown]
    constructor
    · rintro ⟨here, rest⟩
      exact (ih here).mp rest
    · intro all
      have here := (List.pairwise_append.mp all).1
      exact ⟨here, (ih here).mpr all⟩

/-- No request of a list notices the table exactly when each covers the later ones. -/
theorem run_eq_fresh_iff (settled : ∀ v w, m.hit v = m.miss w → m.hit w = m.miss w)
    (rs : List ρ) : m.run (fun _ => none) rs = rs.map m.fresh ↔ rs.Pairwise m.Covers :=
  run_after settled List.Pairwise.nil rs

end Table

end SonicBmp.Library.Memo
