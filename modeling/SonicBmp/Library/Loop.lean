/- module: SonicBmp/Library/Loop
   digest: Counting loops over a list of encoded items laid out in memory. -/

import SonicBmp.Library.Memory

set_option autoImplicit false
set_option relaxedAutoImplicit false

namespace SonicBmp.Library.Loop

open SonicBmp.Library.Memory

variable {σ β : Type}

/-- `for (; i < len; i += stride)` with a state; a zero stride is not entered. -/
def strideLoop (stride len : Nat) (body : Nat → σ → σ) (i : Nat) (s : σ) : σ :=
  if i < len ∧ 0 < stride then strideLoop stride len body (i + stride) (body i s) else s
termination_by len - i

theorem strideLoop_done (stride len : Nat) (body : Nat → σ → σ) (i : Nat) (s : σ)
    (h : len ≤ i) : strideLoop stride len body i s = s := by
  rw [strideLoop, if_neg (by omega)]

theorem strideLoop_step (stride len : Nat) (body : Nat → σ → σ) (i : Nat) (s : σ)
    (h : i < len) (hs : 0 < stride) :
    strideLoop stride len body i s = strideLoop stride len body (i + stride) (body i s) := by
  rw [strideLoop, if_pos ⟨h, hs⟩]

theorem strideLoop_congr {stride len : Nat} {body body' : Nat → σ → σ}
    (same : ∀ i s, i < len → stride ∣ i → body i s = body' i s) (i : Nat) (s : σ)
    (at_i : stride ∣ i) : strideLoop stride len body i s = strideLoop stride len body' i s := by
  fun_induction strideLoop stride len body i s with
  | case1 i s more ih =>
    rw [strideLoop_step stride len body' i s more.1 more.2, ← same i s more.1 at_i]
    exact ih (Nat.dvd_add at_i (Nat.dvd_refl stride))
  | case2 i s done => rw [strideLoop, if_neg done]

/-- The last turn of a loop whose bound is no multiple of its stride. -/
theorem strideLoop_ragged {stride len : Nat} (pos : 0 < stride) (ragged : ¬ stride ∣ len)
    (body : Nat → σ → σ) (s : σ) :
    strideLoop stride len body 0 s =
      body (stride * (len / stride)) (strideLoop stride (stride * (len / stride)) body 0 s) := by
  have below : stride * (len / stride) < len :=
    lt_of_le_of_ne (Nat.mul_div_le len stride) fun whole => ragged ⟨_, whole.symm⟩
  have above : len < stride * (len / stride) + stride := Nat.lt_mul_div_succ len pos
  generalize len / stride = k at below above
  have from_turn (j : Nat) (s : σ) (rest : j ≤ k) :
      strideLoop stride len body (stride * (k - j)) s =
        body (stride * k) (strideLoop stride (stride * k) body (stride * (k - j)) s) := by
    induction j generalizing s with
    | zero =>
      rw [Nat.sub_zero, strideLoop_step _ _ _ _ _ below pos, strideLoop_done _ _ _ _ _ (by omega),
        strideLoop_done _ _ _ _ _ le_rfl]
    | succ j ih =>
      have next : stride * (k - (j + 1)) + stride = stride * (k - j) := by
        rw [← Nat.mul_succ]
        congr 1
        omega
      have less : stride * (k - (j + 1)) < stride * k :=
        Nat.mul_lt_mul_of_pos_left (by omega) pos
      rw [strideLoop_step _ _ _ _ _ (less.trans below) pos, strideLoop_step _ _ _ _ _ less pos, next]
      exact ih _ (by omega)
  have all := from_turn k s le_rfl
  rwa [Nat.sub_self, Nat.mul_zero] at all

/-- Two such loops that append pieces differ as soon as their last pieces do. -/
theorem strideLoop_ragged_ne {γ : Type} {stride len : Nat} (pos : 0 < stride)
    (ragged : ¬ stride ∣ len) {piece piece' : Nat → List γ}
    (front : ∀ i, i < stride * (len / stride) → stride ∣ i → piece i = piece' i)
    (last : piece (stride * (len / stride)) ≠ piece' (stride * (len / stride))) :
    strideLoop stride len (fun i acc => acc ++ piece i) 0 [] ≠
      strideLoop stride len (fun i acc => acc ++ piece' i) 0 [] := by
  rw [strideLoop_ragged pos ragged, strideLoop_ragged pos ragged]
  have same : strideLoop stride (stride * (len / stride)) (fun i acc => acc ++ piece i) 0 [] =
      strideLoop stride (stride * (len / stride)) (fun i acc => acc ++ piece' i) 0 [] :=
    strideLoop_congr (fun i acc more at_i => by rw [front i more at_i]) 0 [] (dvd_zero stride)
  rw [same]
  exact fun alike => last (List.append_cancel_left alike)

/-- A loop over a whole number of strides that appends a piece at every turn. -/
theorem strideLoop_pieces {γ : Type} {stride : Nat} (pos : 0 < stride) (piece : Nat → List γ)
    (k : Nat) :
    strideLoop stride (k * stride) (fun i acc => acc ++ piece i) 0 [] =
      (List.range k).flatMap fun i => piece (i * stride) := by
  have from_turn (left done : Nat) (acc : List γ) :
      strideLoop stride ((done + left) * stride) (fun i acc => acc ++ piece i) (done * stride) acc =
        acc ++ (List.range' done left).flatMap fun i => piece (i * stride) := by
    induction left generalizing done acc with
    | zero => rw [Nat.add_zero, strideLoop_done _ _ _ _ _ le_rfl]; simp
    | succ left ih =>
      have more : done * stride < (done + (left + 1)) * stride :=
        Nat.mul_lt_mul_of_pos_right (by omega) pos
      have next := ih (done + 1) (acc ++ piece (done * stride))
      rw [Nat.succ_mul, Nat.add_right_comm, Nat.add_assoc done left 1] at next
      rw [strideLoop_step _ _ _ _ _ more pos, next, List.range'_succ, List.flatMap_cons,
        List.append_assoc]
  have all := from_turn k 0 []
  rwa [Nat.zero_add, Nat.zero_mul, List.nil_append, ← List.range_eq_range'] at all

/-- A strided loop over a region that holds a list of fixed-width items folds the
list, when the body at an item's offset acts as `step` on that item. -/
theorem strideLoop_flatMap {stride : Nat} (hs : 0 < stride) {m : Mem} {base : Nat}
    {enc : β → List UInt8} (width : ∀ x, (enc x).length = stride)
    {body : Nat → σ → σ} {step : σ → β → σ} {start : Nat}
    (act : ∀ i x s, start ≤ i → Holds m (base + i) (enc x) → body i s = step s x)
    (xs : List β) (i : Nat) (s : σ) (hi : start ≤ i)
    (hold : Holds m (base + i) (xs.flatMap enc)) {len : Nat}
    (hlen : len = i + (xs.flatMap enc).length) :
    strideLoop stride len body i s = xs.foldl step s := by
  induction xs generalizing i s with
  | nil =>
    simp only [List.flatMap_nil, List.length_nil, Nat.add_zero] at hlen
    rw [strideLoop_done _ _ _ _ _ (by omega)]
    rfl
  | cons x xs ih =>
    rw [List.flatMap_cons, List.length_append, width] at hlen
    rw [List.flatMap_cons, holds_append, width] at hold
    rw [strideLoop_step _ _ _ _ _ (by omega) hs, act i x s hi hold.1, List.foldl_cons]
    exact ih (i + stride) (step s x) (by omega)
      (by rw [← Nat.add_assoc]; exact hold.2) (by omega)

/-- The places of fixed-width items, one stride apart, in a region that holds them. -/
theorem map_range_of_holds {γ : Type} {m : Mem} {stride : Nat} {enc : β → List UInt8}
    (width : ∀ x, (enc x).length = stride) {f : Nat → γ} {decoded : β → γ}
    (act : ∀ p x, Holds m p (enc x) → f p = decoded x) (xs : List β) :
    ∀ base, Holds m base (xs.flatMap enc) →
      (List.range xs.length).map (fun i => f (base + i * stride)) = xs.map decoded := by
  induction xs with
  | nil =>
    intro base _
    rfl
  | cons x xs ih =>
    intro base held
    rw [List.flatMap_cons, holds_append, width] at held
    have next := ih (base + stride) held.2
    rw [List.length_cons, List.range_succ_eq_map, List.map_cons, List.map_map, List.map_cons, ← next,
      Nat.zero_mul, Nat.add_zero, act base x held.1]
    refine congrArg _ (List.map_congr_left fun i _ => ?_)
    rw [Function.comp_apply, Nat.succ_mul, Nat.add_assoc base stride, Nat.add_comm stride]

/-- A loop with a data pointer and a byte count over items of any width: it appends what
the items decode to, when it stops at the end of the region and one turn at an item steps
over the item's bytes. -/
theorem encodedLoop_map {γ : Type} (enc : β → List UInt8) (decoded : β → γ)
    (loop : Nat → Nat → List γ → List γ) {m : Mem} {len : Nat}
    (stop : ∀ data acc, loop data len acc = acc)
    (turn : ∀ x data count acc, Holds m data (enc x) → count + (enc x).length ≤ len →
      loop data count acc =
        loop (data + (enc x).length) (count + (enc x).length) (acc ++ [decoded x]))
    (xs : List β) (data count : Nat) (acc : List γ) (hold : Holds m data (xs.flatMap enc))
    (hlen : len = count + (xs.flatMap enc).length) :
    loop data count acc = acc ++ xs.map decoded := by
  induction xs generalizing data count acc with
  | nil =>
    have done : count = len := by simpa using hlen.symm
    rw [done, stop, List.map_nil, List.append_nil]
  | cons x xs ih =>
    rw [List.flatMap_cons, holds_append] at hold
    rw [List.flatMap_cons, List.length_append] at hlen
    rw [turn x data count acc hold.1 (by omega), ih _ _ _ hold.2 (by omega)]
    simp

end SonicBmp.Library.Loop
