/- module: SonicBmp/Bmp/StatCounters
   digest: Which TLV of a statistics report each counter ends up with, down to the bytes of the report. -/

import SonicBmp.Bmp.Framing
import Mathlib.Data.List.Induction

set_option autoImplicit false
set_option relaxedAutoImplicit false

namespace SonicBmp.Bmp.StatCounters

open SonicBmp.Library.Memory
open SonicBmp.Library.Throwing
open SonicBmp.Bus.Interface
open SonicBmp.Bmp.ParseBmp
open SonicBmp.Bmp.Framing (recv_next)

/-! The report in memory: seven counters of four bytes, four bytes of padding, and two
counters of eight bytes. -/

def statAt (statType : Nat) : Nat := if statType < 7 then 4 * statType else 8 * statType - 24

def statSize (statType : Nat) : Nat := if statType < 7 then 4 else 8

def counterAt (m : Mem) (statType : Nat) : Nat :=
  leValue (readBytes m (statAt statType) (statSize statType))

def readStats (m : Mem) : ObjStatsReport where
  prefixesRej := counterAt m 0
  knownDupPrefixes := counterAt m 1
  knownDupWithdraws := counterAt m 2
  invalidClusterList := counterAt m 3
  invalidAsPathLoop := counterAt m 4
  invalidOriginatorId := counterAt m 5
  invalidAsConfedLoop := counterAt m 6
  routesAdjRibIn := counterAt m 7
  routesLocRib := counterAt m 8

/-- The nine counters are all there is. -/
theorem stats_ext {stats stats' : ObjStatsReport}
    (same : ∀ c < 9, statCounter stats c = statCounter stats' c) : stats = stats' := by
  have at0 := same 0 (by decide)
  have at1 := same 1 (by decide)
  have at2 := same 2 (by decide)
  have at3 := same 3 (by decide)
  have at4 := same 4 (by decide)
  have at5 := same 5 (by decide)
  have at6 := same 6 (by decide)
  have at7 := same 7 (by decide)
  have at8 := same 8 (by decide)
  cases stats
  cases stats'
  simp only [statCounter] at at0 at1 at2 at3 at4 at5 at6 at7 at8
  simp only [at0, at1, at2, at3, at4, at5, at6, at7, at8]

theorem statCounter_readStats (m : Mem) {c : Nat} (known : c < 9) :
    statCounter (readStats m) c = counterAt m c := by
  interval_cases c <;> rfl

theorem statCounter_setStatCounter (stats : ObjStatsReport) {t : Nat} (known : t < 9)
    (value : Nat) {c : Nat} (hc : c < 9) :
    statCounter (setStatCounter stats t value) c =
      if c = t then value else statCounter stats c := by
  interval_cases t <;> interval_cases c <;> rfl

theorem setStatCounter_unknown (stats : ObjStatsReport) {t : Nat} (unknown : 9 ≤ t) (value : Nat) :
    setStatCounter stats t value = stats := by
  unfold setStatCounter
  split <;> first | omega | rfl

/-- What a TLV of type `t` with a value of four or eight bytes does to the counter `c`. -/
def written (t len value c old : Nat) : Nat :=
  if c < 7 then
    if c = t then value % 2 ^ 32 else if c = t + 1 ∧ len = 8 then value / 2 ^ 32 else old
  else if c = t then if len = 8 then value else old / 2 ^ 32 * 2 ^ 32 + value
  else old

theorem statCounter_copyStat (stats : ObjStatsReport) (t len value : Nat) {c : Nat} (hc : c < 9) :
    statCounter (copyStat stats t len value) c = written t len value c (statCounter stats c) := by
  unfold copyStat written
  by_cases narrow : t < 7
  · rw [if_pos narrow]
    dsimp only
    by_cases runs : len = 8 ∧ t < 6
    · rw [if_pos runs, statCounter_setStatCounter _ (by omega) _ hc,
        statCounter_setStatCounter _ (by omega) _ hc]
      split_ifs <;> first | rfl | omega
    · rw [if_neg runs, statCounter_setStatCounter _ (by omega) _ hc]
      split_ifs <;> first | rfl | omega
  · rw [if_neg narrow]
    by_cases same : c = t
    · have wide : ¬ c < 7 := by omega
      rw [if_neg wide, if_pos same, ← same]
      split
      · rw [statCounter_setStatCounter _ hc _ hc, if_pos rfl]
      · rw [statCounter_setStatCounter _ hc _ hc, if_pos rfl]
    · have other (value : Nat) : statCounter (setStatCounter stats t value) c =
          statCounter stats c := by
        by_cases known : t < 9
        · rw [statCounter_setStatCounter _ known _ hc, if_neg same]
        · rw [setStatCounter_unknown _ (by omega)]
      rw [apply_ite (statCounter · c), other, other, ite_self, if_neg same, if_neg same]
      split_ifs <;> first | rfl | omega

section

variable (m : Mem) {t c value : Nat}

private theorem counterAt_before {p : Nat} (bs : List UInt8)
    (before : statAt c + statSize c ≤ p) : counterAt (writeBytes m p bs) c = counterAt m c := by
  rw [counterAt, readBytes_writeBytes_before _ _ _ _ _ before, counterAt]

private theorem counterAt_after {p : Nat} (bs : List UInt8) (after : p + bs.length ≤ statAt c) :
    counterAt (writeBytes m p bs) c = counterAt m c := by
  rw [counterAt, readBytes_writeBytes_after _ _ _ _ _ after, counterAt]

private theorem counterAt_same {bs : List UInt8} (whole : bs.length = statSize c) :
    counterAt (writeBytes m (statAt c) bs) c = leValue bs := by
  rw [counterAt, ← whole, readBytes_writeBytes_same]

/-- Four bytes written over a counter of four. -/
private theorem counterAt_word {c' : Nat} (hc' : c' < 7) (hc : c < 9) (value : Nat) :
    counterAt (writeBytes m (4 * c') (leBytes 4 value)) c =
      if c = c' then value % 2 ^ 32 else counterAt m c := by
  have place : statAt c' = 4 * c' := if_pos hc'
  split
  · rename_i same
    subst same
    rw [← place, counterAt_same m (by rw [length_leBytes, statSize, if_pos hc']), leValue_leBytes]
    norm_num
  · rcases Nat.lt_or_gt_of_ne ‹¬ c = c'› with below | above
    · refine counterAt_before m _ ?_
      rw [statAt, statSize, if_pos (by omega), if_pos (by omega)]
      omega
    · refine counterAt_after m _ ?_
      rw [length_leBytes, statAt]
      split <;> omega

/-- Up to eight bytes written over a counter of eight leave the others alone. -/
private theorem counterAt_other (wide : ¬ t < 7) (known : t < 9) (hc : c < 9) (other : c ≠ t)
    {bs : List UInt8} (inside : bs.length ≤ 8) :
    counterAt (writeBytes m (statAt t) bs) c = counterAt m c := by
  have place : statAt t = 8 * t - 24 := if_neg wide
  rw [place]
  rcases Nat.lt_or_gt_of_ne other with below | above
  · refine counterAt_before m _ ?_
    unfold statAt statSize
    split <;> omega
  · refine counterAt_after m _ ?_
    rw [statAt, if_neg (by omega)]
    omega

private theorem counterAt_four (known : t < 9) (hc : c < 9) (small : value < 2 ^ 32) :
    counterAt (writeBytes m (statAt t) (leBytes 4 value)) c =
      written t 4 value c (counterAt m c) := by
  unfold written
  by_cases narrow : t < 7
  · rw [statAt, if_pos narrow, counterAt_word m narrow hc]
    split_ifs <;> first | rfl | omega
  by_cases same : c = t
  · subst same
    have size : statSize c = 4 + 4 := if_neg narrow
    have low : leValue (leBytes 4 value) = value := by
      rw [leValue_leBytes]
      exact Nat.mod_eq_of_lt (small.trans_eq (by norm_num))
    have first := leValue_lt (readBytes m (statAt c) 4)
    have new := readBytes_writeBytes_same m (statAt c) (leBytes 4 value)
    rw [length_readBytes] at first
    rw [length_leBytes] at new
    rw [if_neg narrow, if_pos rfl, if_neg (by decide), counterAt, counterAt, size, readBytes_add,
      readBytes_add, new, readBytes_writeBytes_after _ _ _ _ _ (by rw [length_leBytes]),
      leValue_append, leValue_append, low, length_leBytes, length_readBytes]
    omega
  · rw [counterAt_other m narrow known hc same (by rw [length_leBytes]; decide)]
    split_ifs <;> first | rfl | omega

private theorem counterAt_eight (known : t < 9) (hc : c < 9) (small : value < 2 ^ 64) :
    counterAt (writeBytes m (statAt t) (leBytes 8 value)) c =
      written t 8 value c (counterAt m c) := by
  unfold written
  by_cases narrow : t < 7
  · have halves : leBytes 8 value = leBytes 4 value ++ leBytes 4 (value / 2 ^ 32) :=
      leBytes_add 4 4 value
    have high : value / 2 ^ 32 % 2 ^ 32 = value / 2 ^ 32 := by omega
    have next : 4 * t + 4 = 4 * (t + 1) := by omega
    rw [statAt, if_pos narrow, halves, writeBytes_append, length_leBytes, next]
    by_cases last : t = 6
    · -- the high half of the seventh counter goes into the padding
      have padding : counterAt (writeBytes (writeBytes m (4 * t) (leBytes 4 value)) (4 * (t + 1))
          (leBytes 4 (value / 2 ^ 32))) c =
            counterAt (writeBytes m (4 * t) (leBytes 4 value)) c := by
        by_cases low : c < 7
        · refine counterAt_before _ _ ?_
          rw [statAt, statSize, if_pos low, if_pos low]
          omega
        · refine counterAt_after _ _ ?_
          rw [length_leBytes, statAt, if_neg low]
          omega
      rw [padding, counterAt_word m narrow hc]
      split_ifs <;> first | rfl | omega
    · rw [counterAt_word _ (by omega) hc, counterAt_word m narrow hc, high]
      split_ifs <;> first | rfl | omega
  by_cases same : c = t
  · subst same
    have size : (leBytes 8 value).length = statSize c := by
      rw [length_leBytes, statSize, if_neg narrow]
    rw [counterAt_same m size, leValue_leBytes, if_neg narrow, if_pos rfl, if_pos rfl]
    exact Nat.mod_eq_of_lt (small.trans_eq (by norm_num))
  · rw [counterAt_other m narrow known hc same (by rw [length_leBytes])]
    split_ifs <;> first | rfl | omega

/-- The `memcpy` into the report, on its bytes. -/
theorem readStats_memcpy (known : t < 9) {len : Nat} (width : len = 4 ∨ len = 8)
    (small : value < 256 ^ len) :
    readStats (writeBytes m (statAt t) (leBytes len value)) =
      copyStat (readStats m) t len value := by
  apply stats_ext
  intro c hc
  rw [statCounter_copyStat _ _ _ _ hc, statCounter_readStats _ hc, statCounter_readStats _ hc]
  rcases width with rfl | rfl
  · exact counterAt_four m known hc small
  · exact counterAt_eight m known hc small

end

/-! Lists of TLVs. -/

inductive StatValue
  | narrow (value : UInt32)
  | wide (value : UInt64)

/-- A counter as a router sends it. -/
structure StatTlv where
  type : UInt16
  value : StatValue

namespace StatTlv

def isWide (t : StatTlv) : Bool :=
  match t.value with
  | .narrow _ => false
  | .wide _ => true

def toNat (t : StatTlv) : Nat :=
  match t.value with
  | .narrow value => value.toNat
  | .wide value => value.toNat

def len (t : StatTlv) : Nat := if t.isWide then 8 else 4

def valueBytes (t : StatTlv) : List UInt8 :=
  if t.isWide then put32 (t.toNat / 2 ^ 32) ++ put32 (t.toNat % 2 ^ 32) else put32 t.toNat

def encode (t : StatTlv) : List UInt8 :=
  put16 t.type.toNat ++ (put16 t.len ++ t.valueBytes)

def copy (t : StatTlv) (stats : ObjStatsReport) : ObjStatsReport :=
  copyStat stats t.type.toNat t.len t.toNat

def IsOf (c : Nat) (t : StatTlv) : Bool := c = t.type.toNat

/-- The copy of the TLV reaches the counter `c` of four bytes. -/
def Touches (c : Nat) (t : StatTlv) : Bool :=
  c = t.type.toNat ∨ (c = t.type.toNat + 1 ∧ t.len = 8)

theorem toNat_lt (t : StatTlv) : t.toNat < 256 ^ t.len := by
  unfold toNat len isWide
  split
  · rename_i value _
    exact value.toNat_lt
  · rename_i value _
    exact value.toNat_lt

theorem length_valueBytes (t : StatTlv) : t.valueBytes.length = t.len := by
  unfold valueBytes len
  split <;> rfl

end StatTlv

/-- The last TLV of a list that `p` holds of. -/
def lastOf (p : StatTlv → Bool) (tlvs : List StatTlv) : Option StatTlv :=
  (tlvs.filter p).getLast?

/-- What the counter of a type should be: the value of the last TLV of that type, as far as
the counter holds it, or zero. -/
def lastCount (c : Nat) (tlvs : List StatTlv) : Nat :=
  (lastOf (StatTlv.IsOf c) tlvs).elim 0 (fun t => t.toNat % 256 ^ statSize c)

theorem lastOf_append (p : StatTlv → Bool) (tlvs : List StatTlv) (t : StatTlv) :
    lastOf p (tlvs ++ [t]) = if p t then some t else lastOf p tlvs := by
  unfold lastOf
  rw [List.filter_append, List.filter_singleton]
  split <;> rename_i here <;> simp [here]

theorem lastOf_mem {p : StatTlv → Bool} {tlvs : List StatTlv} {t : StatTlv}
    (last : lastOf p tlvs = some t) : p t = true :=
  (List.mem_filter.mp (List.mem_of_getLast? last)).2

/-- The last TLV of a wider class is the last of a narrower one, if it belongs to it. -/
theorem lastOf_narrow {p q : StatTlv → Bool} (narrower : ∀ t, q t = true → p t = true)
    {tlvs : List StatTlv} {t : StatTlv} (last : lastOf p tlvs = some t) (here : q t = true) :
    lastOf q tlvs = some t := by
  induction tlvs using List.reverseRecOn with
  | nil => exact absurd last (by simp [lastOf])
  | append_singleton tlvs u ih =>
    rw [lastOf_append] at last ⊢
    split at last
    · obtain rfl := Option.some.inj last
      rw [if_pos here]
    · rename_i out
      rw [if_neg (fun inside => out (narrower u inside)), ih last]

theorem lastOf_eq_none {p q : StatTlv → Bool} (narrower : ∀ t, q t = true → p t = true)
    {tlvs : List StatTlv} (none_ : lastOf p tlvs = none) : lastOf q tlvs = none := by
  unfold lastOf at none_ ⊢
  rw [List.getLast?_eq_none_iff, List.filter_eq_nil_iff] at none_ ⊢
  exact fun t here inside => none_ t here (narrower t inside)

/-- The counters a list of TLVs leaves. -/
def copyAll (tlvs : List StatTlv) : ObjStatsReport :=
  tlvs.foldl (fun stats t => t.copy stats) ObjStatsReport.zero

theorem copyAll_append (tlvs : List StatTlv) (t : StatTlv) :
    copyAll (tlvs ++ [t]) = t.copy (copyAll tlvs) := by
  rw [copyAll, List.foldl_append]
  rfl

theorem statCounter_zero (c : Nat) : statCounter ObjStatsReport.zero c = 0 := by
  unfold statCounter
  split <;> rfl

/-- A counter of four bytes holds what the last TLV that reaches it put there: the low half
of its own value, or the high half of its neighbour's. -/
theorem copyAll_narrow {c : Nat} (narrow : c < 7) (tlvs : List StatTlv) :
    statCounter (copyAll tlvs) c = (lastOf (StatTlv.Touches c) tlvs).elim 0 (fun t =>
      if c = t.type.toNat then t.toNat % 2 ^ 32 else t.toNat / 2 ^ 32) := by
  induction tlvs using List.reverseRecOn with
  | nil => exact statCounter_zero c
  | append_singleton tlvs t ih =>
    rw [copyAll_append, lastOf_append, StatTlv.copy, statCounter_copyStat _ _ _ _ (by omega),
      written, if_pos narrow, ih]
    by_cases own : c = t.type.toNat
    · simp [StatTlv.Touches, own]
    · by_cases next : c = t.type.toNat + 1 ∧ t.len = 8
      · simp [StatTlv.Touches, next]
      · simp [StatTlv.Touches, own, next]

/-- A counter of eight bytes keeps the high half of the last TLV of eight bytes, whatever
comes after it. -/
theorem copyAll_wide {c : Nat} (wide : 7 ≤ c) (known : c < 9) (tlvs : List StatTlv) :
    statCounter (copyAll tlvs) c =
      (lastOf (fun t => t.IsOf c && t.isWide) tlvs).elim 0 (fun t => t.toNat / 2 ^ 32) * 2 ^ 32 +
        (lastOf (StatTlv.IsOf c) tlvs).elim 0 (fun t => t.toNat % 2 ^ 32) := by
  induction tlvs using List.reverseRecOn with
  | nil => rw [copyAll, List.foldl_nil, statCounter_zero]; simp [lastOf]
  | append_singleton tlvs t ih =>
    rw [copyAll_append, lastOf_append, lastOf_append, StatTlv.copy,
      statCounter_copyStat _ _ _ _ known, written, if_neg (by omega), ih]
    by_cases own : c = t.type.toNat
    · have isOf : t.IsOf c = true := decide_eq_true own
      have low : (lastOf (StatTlv.IsOf c) tlvs).elim 0 (fun t => t.toNat % 2 ^ 32) < 2 ^ 32 := by
        cases lastOf (StatTlv.IsOf c) tlvs with
        | none => exact Nat.two_pow_pos 32
        | some u => exact Nat.mod_lt _ (Nat.two_pow_pos 32)
      have small := t.toNat_lt
      rw [if_pos own, if_pos isOf, isOf, Bool.true_and]
      cases kind : t.isWide with
      | true =>
        have eight : t.len = 8 := if_pos kind
        rw [if_pos eight, if_pos rfl]
        exact (Nat.div_add_mod' _ _).symm
      | false =>
        have four : t.len = 4 := if_neg (by simp [kind])
        rw [four] at small ⊢
        rw [if_neg (by decide), if_neg Bool.false_ne_true, Option.elim_some]
        omega
    · simp [StatTlv.IsOf, own]

/-! Reading a report that is all there. -/

def encodeStats (tlvs : List StatTlv) : List UInt8 := tlvs.flatMap StatTlv.encode

theorem StatTlv.value_of_bytes (t : StatTlv) :
    (if t.len = 4 then u32 (memOf t.valueBytes) 0
      else u32 (memOf t.valueBytes) 0 * 2 ^ 32 + u32 (memOf t.valueBytes) 4) = t.toNat := by
  have small := t.toNat_lt
  have held := holds_memOf t.valueBytes
  cases kind : t.isWide with
  | true =>
    have eight : t.len = 8 := if_pos kind
    rw [eight] at small ⊢
    simp only [StatTlv.valueBytes, kind, if_true, holds_append, length_put32] at held
    rw [if_neg (by decide), StatTlv.valueBytes, if_pos kind, held.1.u32 (by omega),
      held.2.u32 (by omega)]
    exact Nat.div_add_mod' _ _
  | false =>
    have four : t.len = 4 := if_neg (by simp [kind])
    rw [four] at small ⊢
    simp only [StatTlv.valueBytes, kind, Bool.false_eq_true, if_false] at held
    rw [if_pos rfl, StatTlv.valueBytes, if_neg (by simp [kind]), held.u32 small]

theorem statsLoop_cons (n : Nat) (stats : ObjStatsReport) (t : StatTlv) {s : Parser}
    {rest : List UInt8} (sock : s.sock = t.encode ++ rest) :
    ∃ s', s'.sock = rest ∧ (statsLoop (n + 1) stats).run s = (statsLoop n (t.copy stats)).run s' := by
  simp only [StatTlv.encode, List.append_assoc] at sock
  obtain ⟨s₁, sock₁, type⟩ := recv_next (length_put16 _) sock
  obtain ⟨s₂, sock₂, len⟩ := recv_next (length_put16 _) sock₁
  obtain ⟨s₃, sock₃, value⟩ := recv_next (s := { s₂ with bmpLen := sub32 s₂.bmpLen 4 })
    t.length_valueBytes sock₂
  have width : t.len = 4 ∨ t.len = 8 := by
    unfold StatTlv.len
    split
    · exact Or.inr rfl
    · exact Or.inl rfl
  have typeRead : u16 (memOf (put16 t.type.toNat)) 0 = t.type.toNat :=
    (holds_memOf _).u16 t.type.toNat_lt
  have lenRead : u16 (memOf (put16 t.len)) 0 = t.len := (holds_memOf _).u16 (by omega)
  refine ⟨{ s₃ with bmpLen := sub32 s₃.bmpLen t.len }, sock₃, ?_⟩
  rw [statsLoop, run_bind_of_ok type, if_neg (not_not.mpr (length_put16 _)), run_bind_of_ok len,
    if_neg (not_not.mpr (length_put16 _)), run_modify_bind, typeRead, lenRead]
  dsimp only
  rw [if_pos width, run_bind_of_ok value, if_pos t.length_valueBytes, run_modify_bind,
    t.value_of_bytes]
  rfl

theorem statsLoop_run (tlvs : List StatTlv) (stats : ObjStatsReport) {s : Parser}
    {rest : List UInt8} (sock : s.sock = encodeStats tlvs ++ rest) :
    ∃ s', (statsLoop tlvs.length stats).run s =
      .ok (tlvs.foldl (fun stats t => t.copy stats) stats, s') := by
  induction tlvs generalizing stats s with
  | nil => exact ⟨s, rfl⟩
  | cons t tlvs ih =>
    rw [encodeStats, List.flatMap_cons, List.append_assoc] at sock
    obtain ⟨s', sock', run⟩ := statsLoop_cons tlvs.length stats t sock
    obtain ⟨s'', run'⟩ := ih (t.copy stats) sock'
    exact ⟨s'', run.trans run'⟩

/-- A report of these TLVs stands next in the socket. -/
structure AtReport (tlvs : List StatTlv) (s : Parser) : Prop where
  count : tlvs.length < 2 ^ 32
  arrives : ∃ rest, s.sock = put32 tlvs.length ++ (encodeStats tlvs ++ rest)

theorem handleStatsReport_run {tlvs : List StatTlv} {s : Parser} (ready : AtReport tlvs s) :
    ∃ s', handleStatsReport.run s = .ok (copyAll tlvs, s') := by
  obtain ⟨rest, sock⟩ := ready.arrives
  obtain ⟨s₁, sock₁, count⟩ := recv_next (length_put32 _) sock
  have countRead : u32 (memOf (put32 tlvs.length)) 0 = tlvs.length :=
    (holds_memOf _).u32 ready.count
  obtain ⟨s', run⟩ := statsLoop_run tlvs ObjStatsReport.zero
    (s := { s₁ with bmpLen := sub32 s₁.bmpLen 4 }) sock₁
  refine ⟨s', ?_⟩
  rw [handleStatsReport, run_bind_of_ok count, if_neg (not_not.mpr (length_put32 _)),
    run_modify_bind, countRead, run]
  rfl

/-- Of four bytes: the last TLV that reaches the counter is one of its own, or the high half
it brings is what the counter should be anyway. Of eight: where the last TLV has only four
bytes, there is no high half left over from an earlier one. -/
def Undisturbed (tlvs : List StatTlv) : Prop :=
  (∀ c < 7, ∀ t, lastOf (StatTlv.Touches c) tlvs = some t → c ≠ t.type.toNat →
    t.toNat / 2 ^ 32 = lastCount c tlvs) ∧
  (∀ c, 7 ≤ c → c < 9 → ∀ t, lastOf (StatTlv.IsOf c) tlvs = some t → t.isWide = false →
    ∀ t', lastOf (fun t => t.IsOf c && t.isWide) tlvs = some t' → t'.toNat < 2 ^ 32)

theorem narrow_counter_iff {c : Nat} (narrow : c < 7) (tlvs : List StatTlv) :
    statCounter (copyAll tlvs) c = lastCount c tlvs ↔
      ∀ t, lastOf (StatTlv.Touches c) tlvs = some t → c ≠ t.type.toNat →
        t.toNat / 2 ^ 32 = lastCount c tlvs := by
  have own_touches (t : StatTlv) (own : t.IsOf c = true) : t.Touches c = true :=
    decide_eq_true (Or.inl (of_decide_eq_true own))
  rw [copyAll_narrow narrow]
  cases last : lastOf (StatTlv.Touches c) tlvs with
  | none => simp [lastCount, lastOf_eq_none own_touches last]
  | some t =>
    by_cases own : c = t.type.toNat
    · have lastOwn := lastOf_narrow own_touches last (decide_eq_true own)
      have size : 256 ^ statSize c = 2 ^ 32 := by rw [statSize, if_pos narrow]; norm_num
      refine iff_of_true ?_ (fun t' same other => absurd own (Option.some.inj same ▸ other))
      rw [Option.elim_some, if_pos own, lastCount, lastOwn, Option.elim_some, size]
    · simp [own]

theorem wide_counter_iff {c : Nat} (wide : 7 ≤ c) (known : c < 9) (tlvs : List StatTlv) :
    statCounter (copyAll tlvs) c = lastCount c tlvs ↔
      ∀ t, lastOf (StatTlv.IsOf c) tlvs = some t → t.isWide = false →
        ∀ t', lastOf (fun t => t.IsOf c && t.isWide) tlvs = some t' → t'.toNat < 2 ^ 32 := by
  have wide_own (t : StatTlv) (both : (t.IsOf c && t.isWide) = true) : t.IsOf c = true :=
    (Bool.and_eq_true_iff.mp both).1
  have size : 256 ^ statSize c = 2 ^ 64 := by rw [statSize, if_neg (by omega)]; norm_num
  rw [copyAll_wide wide known, lastCount, size]
  cases last : lastOf (StatTlv.IsOf c) tlvs with
  | none => simp [lastOf_eq_none wide_own last]
  | some t =>
    have own := lastOf_mem last
    have small := t.toNat_lt
    rw [Option.elim_some, Option.elim_some]
    cases kind : t.isWide with
    | true =>
      have eight : t.len = 8 := if_pos kind
      have lastWide : lastOf (fun t => t.IsOf c && t.isWide) tlvs = some t :=
        lastOf_narrow wide_own last (by rw [own, kind]; rfl)
      rw [eight] at small
      refine iff_of_true ?_ (fun t' same narrow => ?_)
      · rw [lastWide, Option.elim_some]
        omega
      · rw [← Option.some.inj same, kind] at narrow
        exact absurd narrow (by decide)
    | false =>
      have four : t.len = 4 := if_neg (by simp [kind])
      rw [four] at small
      cases lastWide : lastOf (fun t => t.IsOf c && t.isWide) tlvs with
      | none =>
        refine iff_of_true ?_ (fun _ _ _ t' found => absurd found (by simp))
        rw [Option.elim_none]
        omega
      | some t' =>
        rw [Option.elim_some]
        constructor
        · intro counts u _ _ u' found
          rw [← Option.some.inj found]
          omega
        · intro clean
          have := clean t rfl kind t' rfl
          omega

/-- After a report every counter has the value of the last TLV of its own type exactly if no
copy of eight bytes ran over from the counter before it, and none of four left the high half
of an older value. -/
theorem counters_last_iff {tlvs : List StatTlv} {s : Parser} (ready : AtReport tlvs s) :
    (∃ stats s', handleStatsReport.run s = .ok (stats, s') ∧
        ∀ c < 9, statCounter stats c = lastCount c tlvs) ↔ Undisturbed tlvs := by
  obtain ⟨s', run⟩ := handleStatsReport_run ready
  have copied : (∃ stats s', handleStatsReport.run s = .ok (stats, s') ∧
      ∀ c < 9, statCounter stats c = lastCount c tlvs) ↔
        ∀ c < 9, statCounter (copyAll tlvs) c = lastCount c tlvs := by
    constructor
    · rintro ⟨stats, s'', run', counts⟩
      rw [run] at run'
      cases run'
      exact counts
    · exact fun counts => ⟨_, s', run, counts⟩
  rw [copied]
  constructor
  · intro counts
    exact ⟨fun c narrow => (narrow_counter_iff narrow tlvs).mp (counts c (by omega)),
      fun c wide known => (wide_counter_iff wide known tlvs).mp (counts c known)⟩
  · rintro ⟨narrow, wide⟩ c known
    by_cases low : c < 7
    · exact (narrow_counter_iff low tlvs).mpr (narrow c low)
    · exact (wide_counter_iff (by omega) known tlvs).mpr (wide c (by omega) known)

private def twoCounters : List StatTlv := [⟨0, .narrow 5⟩, ⟨7, .wide 9⟩]

private theorem twoCounters_ready :
    AtReport twoCounters (Parser.new (put32 2 ++ (encodeStats twoCounters ++ []))) :=
  ⟨by decide, [], rfl⟩

theorem counters_last_twoCounters : Undisturbed twoCounters := by
  obtain ⟨s', run⟩ := handleStatsReport_run twoCounters_ready
  exact (counters_last_iff twoCounters_ready).mp ⟨_, s', run, by decide⟩

private def overlong : List StatTlv := [⟨0, .wide 0x100000000⟩]

/-- One TLV of type 0 with eight bytes: a duplicate prefix is counted that nobody reported. -/
theorem wide_counter_runs_over :
    ∃ stats s', handleStatsReport.run (Parser.new (put32 1 ++ (encodeStats overlong ++ []))) =
        .ok (stats, s') ∧
      stats.knownDupPrefixes = 1 ∧ lastCount 1 overlong = 0 := by
  have ready : AtReport overlong (Parser.new (put32 1 ++ (encodeStats overlong ++ []))) :=
    ⟨by decide, [], rfl⟩
  obtain ⟨s', run⟩ := handleStatsReport_run ready
  exact ⟨_, s', run, by decide, by decide⟩

end SonicBmp.Bmp.StatCounters
