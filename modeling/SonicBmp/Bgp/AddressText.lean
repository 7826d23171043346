/- module: SonicBmp/Bgp/AddressText
   digest: Printed IPv4 and IPv6 addresses determine the bytes they were printed from. -/

import SonicBmp.Bgp.Common

set_option autoImplicit false
set_option relaxedAutoImplicit false

namespace SonicBmp.Bgp.AddressText

open SonicBmp.Library.Printing
open SonicBmp.Bgp.Common

/-! Dotted quads. -/

theorem inetNtop4_getD {src src' : List UInt8} (same : inetNtop4 src = inetNtop4 src') :
    ∀ i < 4, src.getD i 0 = src'.getD i 0 := by
  unfold inetNtop4 at same
  obtain ⟨first, -, same⟩ := decimal_split rfl rfl same
  obtain ⟨second, -, same⟩ := decimal_split rfl rfl same
  obtain ⟨third, -, fourth⟩ := decimal_split rfl rfl same
  intro i small
  match i, small with
  | 0, _ => exact UInt8.toNat_inj.mp first
  | 1, _ => exact UInt8.toNat_inj.mp second
  | 2, _ => exact UInt8.toNat_inj.mp third
  | 3, _ => exact UInt8.toNat_inj.mp (decimal_injective fourth)

theorem inetNtop4_injective {src src' : List UInt8} (length : src.length = 4)
    (length' : src'.length = 4) (same : inetNtop4 src = inetNtop4 src') : src = src' := by
  have bytes := inetNtop4_getD same
  refine List.ext_getElem (length.trans length'.symm) (fun i h h' => ?_)
  have at_i := bytes i (by omega)
  simpa [List.getD_eq_getElem?_getD, h, h'] using at_i

theorem colon_not_mem_inetNtop4 (src : List UInt8) : ':' ∉ inetNtop4 src := by
  have digit : ∀ n, ':' ∉ decimal n := not_mem_decimal rfl
  simp [inetNtop4, digit]

/-- The first character that is no digit tells an address from a number. -/
theorem inetNtop4_ne_decimal (src : List UInt8) (tail : Text) (n : Nat) (tail' : Text) :
    inetNtop4 src ++ tail ≠ decimal n ++ ':' :: tail' := by
  intro same
  unfold inetNtop4 at same
  rw [List.append_assoc, List.cons_append] at same
  obtain ⟨-, stop, -⟩ := decimal_split rfl rfl same
  exact absurd stop (by decide)

theorem dot_mem_inetNtop4 (src : List UInt8) : '.' ∈ inetNtop4 src := by
  simp [inetNtop4]

/-! The run of zero words that is abbreviated. -/

def ZeroRun.Zero (words : List Nat) (r : ZeroRun) : Prop :=
  ∀ j, r.base ≤ j → j < r.base + r.len → words[j]? = some 0

private theorem betterRun_forall {P : ZeroRun → Prop} {best cur : Option ZeroRun}
    (hbest : ∀ r ∈ best, P r) (hcur : ∀ r ∈ cur, P r) : ∀ r ∈ betterRun best cur, P r := by
  have same : betterRun best cur = best ∨ betterRun best cur = cur := by
    unfold betterRun
    split
    · exact Or.inl rfl
    · exact Or.inr rfl
    · split
      · exact Or.inr rfl
      · exact Or.inl rfl
  rcases same with same | same <;> rw [same]
  · exact hbest
  · exact hcur

/-- The scan only keeps runs of zero words; the open run ends where it stands. -/
private theorem scanZeroRuns_zero (words : List Nat) (ws : List Nat) (i : Nat)
    (best cur : Option ZeroRun) (rest : words.drop i = ws)
    (sound : ∀ r ∈ best, ZeroRun.Zero words r)
    (open_run : ∀ r ∈ cur, ZeroRun.Zero words r ∧ r.base + r.len = i) :
    ∀ r ∈ scanZeroRuns i best cur ws, ZeroRun.Zero words r := by
  induction ws generalizing i best cur with
  | nil => exact betterRun_forall sound (fun r here => (open_run r here).1)
  | cons w ws ih =>
    have here : words[i]? = some w := by
      have head := congrArg List.head? rest
      simpa [List.head?_drop] using head
    have next : words.drop (i + 1) = ws := by
      rw [← List.drop_drop, rest]
      rfl
    simp only [scanZeroRuns]
    split
    · rename_i zero
      rw [zero] at here
      refine ih (i + 1) best _ next sound ?_
      intro r isRun
      cases cur with
      | none =>
        obtain rfl := Option.some.inj isRun
        refine ⟨fun j low high => ?_, rfl⟩
        obtain rfl : j = i := by simp only at low high; omega
        exact here
      | some c =>
        obtain rfl := Option.some.inj isRun
        obtain ⟨zeros, stop⟩ := open_run c rfl
        refine ⟨fun j low high => ?_, by simp only; omega⟩
        by_cases last : j = i
        · rw [last, here]
        · exact zeros j low (by simp only at high; omega)
    · exact ih (i + 1) _ none next (betterRun_forall sound (fun r here => (open_run r here).1))
        (by simp)

theorem bestZeroRun_zero {words : List Nat} {r : ZeroRun} (best : bestZeroRun words = some r) :
    ZeroRun.Zero words r ∧ 2 ≤ r.len := by
  obtain ⟨found, long⟩ := Option.filter_eq_some_iff.mp best
  exact ⟨scanZeroRuns_zero words words 0 none none rfl (by simp) (by simp) r found, by simpa using long⟩

/-- The words around and in an abbreviated run. -/
theorem split_at_run {words : List Nat} {r : ZeroRun} (best : bestZeroRun words = some r) :
    words = words.take r.base ++ (List.replicate r.len 0 ++ words.drop (r.base + r.len)) ∧
      r.base + r.len ≤ words.length := by
  obtain ⟨zeros, long⟩ := bestZeroRun_zero best
  have inside : r.base + r.len ≤ words.length := by
    have last := zeros (r.base + r.len - 1) (by omega) (by omega)
    have := (List.getElem?_eq_some_iff.mp last).1
    omega
  refine ⟨?_, inside⟩
  have run : (words.drop r.base).take r.len = List.replicate r.len 0 := by
    refine List.ext_getElem (by simp; omega) (fun i h h' => ?_)
    have at_i := zeros (r.base + i) (by omega) (by simp at h'; omega)
    obtain ⟨_, value⟩ := List.getElem?_eq_some_iff.mp at_i
    simpa using value
  rw [← run, ← List.drop_drop, List.take_append_drop, List.take_append_drop]

/-! An IPv6 address as its texts between colons. -/

private def colons (tokens : List Text) : Text := tokens.flatMap (fun token => ':' :: token)

private theorem intercalate_append {first : List Text} (nonempty : first ≠ []) (second : List Text) :
    List.intercalate [':'] (first ++ second) = List.intercalate [':'] first ++ colons second := by
  obtain ⟨token, tokens, rfl⟩ := List.exists_cons_of_ne_nil nonempty
  simp only [List.cons_append, intercalate_cons, colons, List.flatMap_append, List.append_assoc]

private theorem printWords_outside (src : List UInt8) (best : Option ZeroRun) (quad : Bool)
    (ws rest : List Nat) (i : Nat) (pos : 0 < i)
    (out : ∀ r ∈ best, i + ws.length ≤ r.base ∨ r.base + r.len ≤ i)
    (flat : quad = false ∨ i + ws.length ≤ 6) :
    printWords src best quad i (ws ++ rest) =
      colons (ws.map hex) ++ printWords src best quad (i + ws.length) rest := by
  induction ws generalizing i with
  | nil => simp [colons]
  | cons w ws ih =>
    simp only [List.length_cons] at out flat
    have notIn : best.any (fun r => r.base ≤ i && i < r.base + r.len) = false := by
      cases best with
      | none => rfl
      | some r =>
        have apart := out r rfl
        simp only [Option.any_some, Bool.and_eq_false_iff, decide_eq_false_iff_not]
        omega
    have noDots : (decide (i = 6) && quad) = false := by
      rcases flat with off | early
      · simp [off]
      · simp only [Bool.and_eq_false_iff, decide_eq_false_iff_not]
        omega
    have later := ih (i + 1) (by omega)
      (fun r here => by have := out r here; omega) (flat.imp_right (by omega))
    simp only [List.cons_append, printWords, notIn, noDots, Bool.false_eq_true, if_false,
      if_neg (Nat.pos_iff_ne_zero.mp pos), later]
    simp [colons, Nat.add_comm 1, Nat.add_assoc]

private theorem printWords_inside (src : List UInt8) (r : ZeroRun) (quad : Bool) (ws rest : List Nat)
    (i : Nat) (after : r.base < i) (within : i + ws.length ≤ r.base + r.len) :
    printWords src (some r) quad i (ws ++ rest) =
      printWords src (some r) quad (i + ws.length) rest := by
  induction ws generalizing i with
  | nil => rfl
  | cons w ws ih =>
    simp only [List.length_cons] at within
    have inRun : (decide (r.base ≤ i) && decide (i < r.base + r.len)) = true := by
      simp only [Bool.and_eq_true, decide_eq_true_eq]
      omega
    have notBase : decide (r.base = i) = false := by simp only [decide_eq_false_iff_not]; omega
    simp only [List.cons_append, printWords, Option.any_some, inRun, if_true, notBase,
      Bool.false_eq_true, if_false, List.nil_append, ih (i + 1) (by omega) (by omega),
      List.length_cons]
    congr 1
    omega

/-- The texts right of an abbreviated run. -/
def rightTokens (src : List UInt8) (r : ZeroRun) (words : List Nat) : List Text :=
  if encapsulatesIPv4 (some r) words then
    ((words.drop (r.base + r.len)).take (6 - (r.base + r.len))).map hex ++ [inetNtop4 (src.drop 12)]
  else (words.drop (r.base + r.len)).map hex

/-- The texts of an address between its colons; an abbreviated run leaves an empty one, and
one more where it stands at an end. -/
def addressTokens (src : List UInt8) : List Text :=
  match bestZeroRun (words6 src) with
  | none => (words6 src).map hex
  | some r =>
    (if r.base = 0 then [[]] else ((words6 src).take r.base).map hex) ++
      [] :: (if r.base + r.len = 8 then [[]] else rightTokens src r (words6 src))

theorem length_words6 (src : List UInt8) : (words6 src).length = 8 := rfl

private theorem printWords_left (src : List UInt8) (r : ZeroRun) (quad : Bool) (ws rest : List Nat)
    (base : ws.length = r.base) (flat : quad = true → r.base = 0) :
    printWords src (some r) quad 0 (ws ++ rest) =
      List.intercalate [':'] (if r.base = 0 then [[]] else ws.map hex) ++
        printWords src (some r) quad r.base rest := by
  cases ws with
  | nil =>
    have zero : r.base = 0 := base.symm
    simp [zero]
  | cons w ws =>
    simp only [List.length_cons] at base
    have some_left : r.base ≠ 0 := by omega
    have off : quad = false := by
      cases quad with
      | false => rfl
      | true => exact absurd (flat rfl) some_left
    have notIn : (decide (r.base ≤ 0) && decide (0 < r.base + r.len)) = false := by
      simp only [Bool.and_eq_false_iff, decide_eq_false_iff_not]
      omega
    have later := printWords_outside src (some r) quad ws rest 1 (by omega)
      (fun r' here => by obtain rfl := Option.some.inj here; omega) (Or.inl off)
    simp only [List.cons_append, printWords, Option.any_some, notIn, Bool.false_eq_true, if_false,
      if_true, off, Bool.and_false, List.nil_append, if_neg some_left, List.map_cons,
      intercalate_cons]
    rw [off] at later
    rw [later, ← base, Nat.add_comm 1]
    simp [colons]

private theorem printWords_run (src : List UInt8) (r : ZeroRun) (quad : Bool) (rest : List Nat)
    (some_zero : 0 < r.len) :
    printWords src (some r) quad r.base (List.replicate r.len 0 ++ rest) =
      ':' :: printWords src (some r) quad (r.base + r.len) rest := by
  obtain ⟨n, long⟩ : ∃ n, r.len = n + 1 := ⟨r.len - 1, by omega⟩
  have inRun : (decide (r.base ≤ r.base) && decide (r.base < r.base + r.len)) = true := by
    simp only [Bool.and_eq_true, decide_eq_true_eq]
    omega
  have later := printWords_inside src r quad (List.replicate n 0) rest (r.base + 1) (by omega)
    (by simp; omega)
  rw [long, List.replicate_succ, List.cons_append, printWords]
  simp only [Option.any_some, inRun, if_true, decide_true, later, List.length_replicate]
  simp only [List.cons_append, List.nil_append]
  congr 2
  omega

private theorem encapsulatesIPv4_some {r : ZeroRun} {words : List Nat}
    (quad : encapsulatesIPv4 (some r) words = true) : r.base = 0 ∧ (r.len = 5 ∨ r.len = 6) := by
  simp only [encapsulatesIPv4, Bool.and_eq_true, Bool.or_eq_true, decide_eq_true_eq] at quad
  omega

private theorem printWords_right (src : List UInt8) (r : ZeroRun)
    (best : bestZeroRun (words6 src) = some r) :
    printWords src (some r) (encapsulatesIPv4 (some r) (words6 src)) (r.base + r.len)
        ((words6 src).drop (r.base + r.len)) = colons (rightTokens src r (words6 src)) := by
  have long := (bestZeroRun_zero best).2
  have out (i : Nat) (ws : List Nat) (right : r.base + r.len ≤ i) :
      ∀ r' ∈ some r, i + ws.length ≤ r'.base ∨ r'.base + r'.len ≤ i := by
    intro r' here
    obtain rfl := Option.some.inj here
    exact Or.inr right
  unfold rightTokens
  split
  · rename_i quad
    obtain ⟨base, len⟩ := encapsulatesIPv4_some quad
    have cut := (List.take_append_drop (6 - (r.base + r.len))
      ((words6 src).drop (r.base + r.len))).symm
    have width : (((words6 src).drop (r.base + r.len)).take (6 - (r.base + r.len))).length =
        6 - (r.base + r.len) := by
      simp only [List.length_take, List.length_drop, length_words6]
      omega
    have six : r.base + r.len + (6 - (r.base + r.len)) = 6 := by omega
    have tail : ((words6 src).drop (r.base + r.len)).drop (6 - (r.base + r.len)) =
        (words6 src).drop 6 := by rw [List.drop_drop, six]
    obtain ⟨w, ws, two⟩ : ∃ w ws, (words6 src).drop 6 = w :: ws := ⟨_, _, rfl⟩
    have notIn : (decide (r.base ≤ 6) && decide (6 < r.base + r.len)) = false := by
      simp only [Bool.and_eq_false_iff, decide_eq_false_iff_not]
      omega
    have left := printWords_outside src (some r) true
      (((words6 src).drop (r.base + r.len)).take (6 - (r.base + r.len))) ((words6 src).drop 6)
      (r.base + r.len) (by omega) (out _ _ le_rfl) (Or.inr (by rw [width]; omega))
    conv_lhs => rw [cut, tail, quad, left, width, six, two]
    simp [printWords, notIn, colons]
  · rename_i quad
    have right := printWords_outside src (some r) false ((words6 src).drop (r.base + r.len)) []
      (r.base + r.len) (by omega) (out _ _ le_rfl) (Or.inl rfl)
    rw [Bool.not_eq_true] at quad
    rw [quad, ← List.append_nil ((words6 src).drop (r.base + r.len)), right]
    simp [printWords]

theorem inetNtop6_eq (src : List UInt8) :
    inetNtop6 src = List.intercalate [':'] (addressTokens src) := by
  simp only [inetNtop6, addressTokens]
  cases best : bestZeroRun (words6 src) with
  | none =>
    obtain ⟨w, ws, words⟩ : ∃ w ws, words6 src = w :: ws := ⟨_, _, rfl⟩
    have later := printWords_outside src none false ws [] 1 (by omega) (by simp) (Or.inl rfl)
    rw [List.append_nil] at later
    simp [words, encapsulatesIPv4, printWords, intercalate_cons, later, colons]
  | some r =>
    obtain ⟨split, inside⟩ := split_at_run best
    have long := (bestZeroRun_zero best).2
    have left := printWords_left src r (encapsulatesIPv4 (some r) (words6 src))
      ((words6 src).take r.base) (List.replicate r.len 0 ++ (words6 src).drop (r.base + r.len))
      (by rw [List.length_take]; omega) (fun quad => (encapsulatesIPv4_some quad).1)
    rw [← split, printWords_run src r _ _ (by omega), printWords_right src r best] at left
    have some_left : (if r.base = 0 then [[]] else ((words6 src).take r.base).map hex) ≠ [] := by
      split_ifs with base
      · simp
      · simp [base, ← List.length_eq_zero_iff, length_words6]
    simp only [Option.any_some, decide_eq_true_eq, left, intercalate_append some_left,
      List.append_assoc]
    congr 1
    by_cases whole : r.base + r.len = 8
    · have none_right : rightTokens src r (words6 src) = [] := by
        have quad : encapsulatesIPv4 (some r) (words6 src) ≠ true := by
          intro quad
          have := encapsulatesIPv4_some quad
          omega
        rw [rightTokens, if_neg quad, whole]
        rfl
      simp [none_right, colons, whole]
    · simp [colons, whole]

/-! Reading the texts back. -/

private theorem hex_not_mem {c : Char} (mark : c.isAlphanum = false) (n : Nat) : c ∉ hex n :=
  fun here => absurd (hex_isAlphanum here) (by simp [mark])

private theorem hexes_ne_nil (words : List Nat) : ∀ token ∈ words.map hex, token ≠ [] := by
  intro token here
  obtain ⟨w, -, rfl⟩ := List.mem_map.mp here
  exact hex_ne_nil w

private theorem hexes_inj {words words' : List Nat} (same : words.map hex = words'.map hex) :
    words = words' := List.map_injective_iff.mpr hex_injective same

private theorem colon_not_mem_rightTokens (src : List UInt8) (r : ZeroRun) (words : List Nat) :
    ∀ token ∈ rightTokens src r words, ':' ∉ token := by
  intro token here
  unfold rightTokens at here
  split at here
  · rcases List.mem_append.mp here with here | here
    · obtain ⟨w, -, rfl⟩ := List.mem_map.mp here
      exact hex_not_mem (by decide) w
    · rw [List.mem_singleton.mp here]
      exact colon_not_mem_inetNtop4 _
  · obtain ⟨w, -, rfl⟩ := List.mem_map.mp here
    exact hex_not_mem (by decide) w

theorem colon_not_mem_addressTokens (src : List UInt8) : ∀ token ∈ addressTokens src, ':' ∉ token := by
  have words (ws : List Nat) : ∀ token ∈ ws.map hex, ':' ∉ token := by
    intro token here
    obtain ⟨w, -, rfl⟩ := List.mem_map.mp here
    exact hex_not_mem (by decide) w
  intro token here
  unfold addressTokens at here
  split at here
  · exact words _ token here
  · rename_i r best
    rcases List.mem_append.mp here with here | here
    · split at here
      · simp_all
      · exact words _ token here
    · rcases List.mem_cons.mp here with rfl | here
      · simp
      · split at here
        · simp_all
        · exact colon_not_mem_rightTokens src r _ token here

private theorem rightTokens_ne_nil (src : List UInt8) (r : ZeroRun) (words : List Nat) :
    ∀ token ∈ rightTokens src r words, token ≠ [] := by
  intro token here
  unfold rightTokens at here
  split at here
  · rcases List.mem_append.mp here with here | here
    · exact hexes_ne_nil _ token here
    · rw [List.mem_singleton.mp here]
      exact List.ne_nil_of_mem (dot_mem_inetNtop4 _)
  · exact hexes_ne_nil _ token here

/-- The two bytes-to-words readings of the last two words. -/
private theorem last_words {src src' : List UInt8}
    (same : inetNtop4 (src.drop 12) = inetNtop4 (src'.drop 12)) :
    (words6 src).drop 6 = (words6 src').drop 6 := by
  have bytes := inetNtop4_getD same
  have h0 := bytes 0 (by decide)
  have h1 := bytes 1 (by decide)
  have h2 := bytes 2 (by decide)
  have h3 := bytes 3 (by decide)
  have last (bytes : List UInt8) : (words6 bytes).drop 6 =
      [((bytes.drop 12).getD 0 0).toNat * 256 + ((bytes.drop 12).getD 1 0).toNat,
        ((bytes.drop 12).getD 2 0).toNat * 256 + ((bytes.drop 12).getD 3 0).toNat] := by
    simp [words6, List.range_succ, List.getD_eq_getElem?_getD]
  rw [last src, last src', h0, h1, h2, h3]

private theorem rightTokens_inj {src src' : List UInt8} {r r' : ZeroRun}
    (same : rightTokens src r (words6 src) = rightTokens src' r' (words6 src')) :
    (words6 src).drop (r.base + r.len) = (words6 src').drop (r'.base + r'.len) := by
  have dots (bytes : List UInt8) (words tokens : List Nat) :
      words.map hex ++ [inetNtop4 bytes] ≠ tokens.map hex := by
    intro same
    have here : inetNtop4 bytes ∈ tokens.map hex := by simp [← same]
    obtain ⟨w, -, quad⟩ := List.mem_map.mp here
    exact hex_not_mem (by decide) w (quad ▸ dot_mem_inetNtop4 bytes)
  have whole (bytes : List UInt8) (run : ZeroRun)
      (quad : encapsulatesIPv4 (some run) (words6 bytes) = true) :
      (words6 bytes).drop (run.base + run.len) =
        ((words6 bytes).drop (run.base + run.len)).take (6 - (run.base + run.len)) ++
          (words6 bytes).drop 6 := by
    have := encapsulatesIPv4_some quad
    have six : run.base + run.len + (6 - (run.base + run.len)) = 6 := by omega
    conv_lhs => rw [← List.take_append_drop (6 - (run.base + run.len))
      ((words6 bytes).drop (run.base + run.len)), List.drop_drop, six]
  unfold rightTokens at same
  split at same <;> split at same
  · rename_i quad quad'
    obtain ⟨left, last⟩ := List.append_inj' same rfl
    rw [whole src r quad, whole src' r' quad', hexes_inj left, last_words (List.cons.inj last).1]
  · exact absurd same (dots _ _ _)
  · exact absurd same.symm (dots _ _ _)
  · exact hexes_inj same

private theorem leftTokens_inj {ws ws' : List Nat} {right right' : List Text}
    (same : (if ws.length = 0 then [[]] else ws.map hex) ++ [] :: right =
      (if ws'.length = 0 then [[]] else ws'.map hex) ++ [] :: right') :
    ws = ws' ∧ right = right' := by
  cases ws with
  | nil =>
    cases ws' with
    | nil => simpa using same
    | cons w ws' => exact absurd (List.cons.inj same).1.symm (hex_ne_nil w)
  | cons w ws =>
    cases ws' with
    | nil => exact absurd (List.cons.inj same).1 (hex_ne_nil w)
    | cons w' ws' =>
      simp only [List.length_cons, Nat.add_eq_zero_iff, one_ne_zero, and_false, if_false] at same
      obtain ⟨left, -, rights⟩ := run_split (fun token => token ≠ []) (hexes_ne_nil _)
        (hexes_ne_nil _) (by simp) (by simp) same
      exact ⟨hexes_inj left, rights⟩

theorem words6_of_addressTokens {src src' : List UInt8}
    (same : addressTokens src = addressTokens src') : words6 src = words6 src' := by
  cases best : bestZeroRun (words6 src) with
  | none =>
    cases best' : bestZeroRun (words6 src') with
    | none =>
      simp only [addressTokens, best, best'] at same
      exact hexes_inj same
    | some r' =>
      simp only [addressTokens, best, best'] at same
      exact absurd rfl (hexes_ne_nil (words6 src) [] (by rw [same]; simp))
  | some r =>
    cases best' : bestZeroRun (words6 src') with
    | none =>
      simp only [addressTokens, best, best'] at same
      exact absurd rfl (hexes_ne_nil (words6 src') [] (by rw [← same]; simp))
    | some r' =>
      simp only [addressTokens, best, best'] at same
      obtain ⟨split, inside⟩ := split_at_run best
      obtain ⟨split', inside'⟩ := split_at_run best'
      rw [length_words6] at inside inside'
      have base : ((words6 src).take r.base).length = r.base := by
        rw [List.length_take, length_words6]
        omega
      have base' : ((words6 src').take r'.base).length = r'.base := by
        rw [List.length_take, length_words6]
        omega
      obtain ⟨left, rights⟩ := @leftTokens_inj ((words6 src).take r.base)
        ((words6 src').take r'.base) _ _ (by rw [base, base']; exact same)
      have right : (words6 src).drop (r.base + r.len) = (words6 src').drop (r'.base + r'.len) := by
        split_ifs at rights with whole whole' whole'
        · rw [whole, whole', List.drop_eq_nil_of_le (length_words6 src).le,
            List.drop_eq_nil_of_le (length_words6 src').le]
        · exact absurd rfl (rightTokens_ne_nil src' r' _ [] (by rw [← rights]; simp))
        · exact absurd rfl (rightTokens_ne_nil src r _ [] (by rw [rights]; simp))
        · exact rightTokens_inj rights
      have bases : r.base = r'.base := by rw [← base, ← base', left]
      have lens : r.len = r'.len := by
        have sizes := congrArg List.length right
        simp only [List.length_drop, length_words6] at sizes
        omega
      rw [split, split', left, right, lens]

private theorem getD_of_words6 {src src' : List UInt8} (same : words6 src = words6 src') :
    ∀ j < 16, src.getD j 0 = src'.getD j 0 := by
  intro j small
  have word := congrArg (fun words : List Nat => words[j / 2]?) same
  have here : j / 2 < 8 := by omega
  simp only [words6, List.getElem?_map, List.getElem?_range here, Option.map_some,
    Option.some.injEq] at word
  have hi := (src.getD (2 * (j / 2)) 0).toNat_lt
  have lo := (src.getD (2 * (j / 2) + 1) 0).toNat_lt
  have hi' := (src'.getD (2 * (j / 2)) 0).toNat_lt
  have lo' := (src'.getD (2 * (j / 2) + 1) 0).toNat_lt
  rcases Nat.mod_two_eq_zero_or_one j with even | odd
  · have at_j : j = 2 * (j / 2) := by omega
    rw [at_j]
    exact UInt8.toNat_inj.mp (by omega)
  · have at_j : j = 2 * (j / 2) + 1 := by omega
    rw [at_j]
    exact UInt8.toNat_inj.mp (by omega)

private theorem addressTokens_ne_nil (src : List UInt8) : addressTokens src ≠ [] := by
  unfold addressTokens
  split
  · simp [← List.length_eq_zero_iff, length_words6]
  · simp

theorem inetNtop6_injective {src src' : List UInt8} (length : src.length = 16)
    (length' : src'.length = 16) (same : inetNtop6 src = inetNtop6 src') : src = src' := by
  have tokens : addressTokens src = addressTokens src' := by
    have split := congrArg (List.splitOn ':') same
    rwa [inetNtop6_eq, inetNtop6_eq,
      List.splitOn_intercalate ':' (colon_not_mem_addressTokens src) (addressTokens_ne_nil src),
      List.splitOn_intercalate ':' (colon_not_mem_addressTokens src') (addressTokens_ne_nil src')]
      at split
  have bytes := getD_of_words6 (words6_of_addressTokens tokens)
  refine List.ext_getElem (length.trans length'.symm) (fun i h h' => ?_)
  have at_i := bytes i (by omega)
  simpa [List.getD_eq_getElem?_getD, h, h'] using at_i

theorem colon_mem_inetNtop6 (src : List UInt8) : ':' ∈ inetNtop6 src := by
  have two : 2 ≤ (addressTokens src).length := by
    unfold addressTokens
    split
    · simp [length_words6]
    · simp only [List.length_append, List.length_cons]
      split_ifs with base <;>
        simp only [List.length_cons, List.length_nil, List.length_map, List.length_take,
          length_words6] <;> omega
  obtain ⟨first, second, rest, tokens⟩ :
      ∃ first second rest, addressTokens src = first :: second :: rest := by
    rcases tokens : addressTokens src with _ | ⟨first, _ | ⟨second, rest⟩⟩
    · simp [tokens] at two
    · simp [tokens] at two
    · exact ⟨first, second, rest, rfl⟩
  rw [inetNtop6_eq, tokens, intercalate_cons]
  simp

/-! How long an IPv6 address gets. -/

private theorem length_hex_le {src : List UInt8} {w : Nat} (here : w ∈ words6 src) :
    (hex w).length ≤ 4 :=
  (Nat.length_toDigits_le_iff (by decide) (by decide)).mpr (words6_lt src w here)

private theorem length_colons_hex {src : List UInt8} {ws : List Nat} (words : ws ⊆ words6 src) :
    (colons (ws.map hex)).length ≤ 5 * ws.length := by
  induction ws with
  | nil => simp [colons]
  | cons w ws ih =>
    obtain ⟨here, later⟩ := List.cons_subset.mp words
    have head := length_hex_le here
    have tail := ih later
    simp only [colons, List.map_cons, List.flatMap_cons, List.length_append,
      List.length_cons] at tail ⊢
    omega

private theorem length_colons_right (src : List UInt8) {r : ZeroRun}
    (best : bestZeroRun (words6 src) = some r) :
    (colons (rightTokens src r (words6 src))).length ≤ 5 * (6 - r.base) := by
  have long := (bestZeroRun_zero best).2
  have inside := (split_at_run best).2
  rw [length_words6] at inside
  unfold rightTokens
  split
  · rename_i quad
    obtain ⟨base, len⟩ := encapsulatesIPv4_some quad
    have dotted := inetNtop4_length_le (src.drop 12)
    have part : ((words6 src).drop (r.base + r.len)).take (6 - (r.base + r.len)) ⊆ words6 src :=
      List.Subset.trans (List.take_subset _ _) (List.drop_subset _ _)
    have between := length_colons_hex part
    rw [List.length_take] at between
    simp only [colons, List.flatMap_append, List.flatMap_singleton, List.length_append,
      List.length_cons] at between ⊢
    omega
  · have words := length_colons_hex (List.drop_subset (r.base + r.len) (words6 src))
    rw [List.length_drop, length_words6] at words
    omega

/-- An address text never takes more than eight words of four digits. -/
theorem inetNtop6_length_le (src : List UInt8) : (inetNtop6 src).length ≤ 39 := by
  have total : (inetNtop6 src).length + 1 = (colons (addressTokens src)).length := by
    obtain ⟨first, rest, tokens⟩ := List.exists_cons_of_ne_nil (addressTokens_ne_nil src)
    rw [inetNtop6_eq, tokens, intercalate_cons]
    simp only [colons, List.flatMap_cons, List.length_append, List.length_cons]
    omega
  suffices bound : (colons (addressTokens src)).length ≤ 40 by omega
  unfold addressTokens
  cases best : bestZeroRun (words6 src) with
  | none => exact length_colons_hex (List.Subset.refl _)
  | some r =>
    have inside := (split_at_run best).2
    have long := (bestZeroRun_zero best).2
    rw [length_words6] at inside
    have left : (colons (if r.base = 0 then [[]] else ((words6 src).take r.base).map hex)).length ≤
        5 * r.base + 1 := by
      split
      · simp [colons]
      · have words := length_colons_hex (List.take_subset r.base (words6 src))
        rw [List.length_take] at words
        omega
    have right : (colons (if r.base + r.len = 8 then [[]]
        else rightTokens src r (words6 src))).length ≤ 5 * (6 - r.base) + 1 := by
      split
      · simp [colons]
      · have words := length_colons_right src best
        omega
    have joined (first second : List Text) : (colons (first ++ [] :: second)).length =
        (colons first).length + 1 + (colons second).length := by
      simp only [colons, List.flatMap_append, List.flatMap_cons, List.length_append,
        List.length_cons, List.length_nil]
      omega
    dsimp only
    rw [joined]
    omega

end SonicBmp.Bgp.AddressText
