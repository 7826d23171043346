/- module: SonicBmp/RunServer
   digest: The accept loop: its two counters against the list of connections, in any interleaving. -/

import Mathlib.Data.List.Induction
import Mathlib.Data.List.Perm.Basic
import Mathlib.Logic.Relation

set_option autoImplicit false
set_option relaxedAutoImplicit false

namespace SonicBmp.RunServer

def maxThreads : Int := 200

/-- What the loop reads of the configuration. -/
structure Config where
  maxConcurrentRouters : Int
  initialRouterTime : Int
  calculateBaseline : Bool

/-- What the loop reads of `ThreadMgmt`; the start time is that of its client. -/
structure ThreadMgmt where
  startTime : Int
  running : Bool
  baselineTimeout : Bool
  deriving DecidableEq

/-- The statements of the loop body at which another thread may get in between. -/
inductive Point
  | top
  | scan (i : Nat)
  | test (i : Nat)
  | joined (i : Nat)
  | left (i : Nat)
  | erase (i : Nat)
  | timer (i : Nat)
  | uncount (i : Nat)
  | mark (i : Nat)
  | limits
  | accept
  | countActive (startTime : Int)
  | countRouter (startTime : Int)
  | create (startTime : Int)
  | insert (thr : ThreadMgmt)
  | stopped
  deriving DecidableEq

structure State where
  run : Bool
  thrList : List ThreadMgmt
  activeConnections : Int
  concurrentRouters : Int
  point : Point

def State.start : State :=
  { run := true, thrList := [], activeConnections := 0, concurrentRouters := 0, point := .top }

/-- What `wait_and_accept_connection` comes back with; a failed `accept` throws. -/
inductive Arrival
  | timeout
  | error
  | client (startTime : Int)

/-- What the loop asks its surroundings: the time, the baseline time of the router at
hand, if one is known, and the listening socket. -/
structure Answer where
  now : Int
  baseline : Option Int
  arrival : Arrival

inductive Event
  | work (answer : Answer)
  | setRunning (k : Nat) (running : Bool)
  | setStarted (running : Bool)
  | stopServer

def initialTime (cfg : Config) (baseline : Option Int) : Int :=
  if cfg.calculateBaseline then baseline.getD cfg.initialRouterTime else cfg.initialRouterTime

/-- `thr_list.at(i)`, which throws beyond the end. -/
def State.at (s : State) (i : Nat) (next : ThreadMgmt → State) : State :=
  s.thrList[i]?.elim { s with point := .stopped } next

/-- One statement of `runServer`. An entry is erased at the index the scan has reached, and
the scan goes on behind it, past the entry that has moved up. -/
def work (cfg : Config) (answer : Answer) (s : State) : State :=
  match s.point with
  | .top => { s with point := if s.run then .scan 0 else .stopped }
  | .scan i => { s with point := if i < s.thrList.length then .test i else .limits }
  | .test i => s.at i fun thr => { s with point := if thr.running then .timer i else .joined i }
  | .joined i => { s with activeConnections := s.activeConnections - 1, point := .left i }
  | .left i => s.at i fun thr =>
      { s with
        concurrentRouters :=
          if thr.baselineTimeout then s.concurrentRouters else s.concurrentRouters - 1
        point := .erase i }
  | .erase i => { s with thrList := s.thrList.eraseIdx i, point := .scan (i + 1) }
  | .timer i => s.at i fun thr =>
      { s with
        point :=
          if ¬ thr.baselineTimeout ∧ initialTime cfg answer.baseline ≤ answer.now - thr.startTime
          then .uncount i else .scan (i + 1) }
  | .uncount i => { s with concurrentRouters := s.concurrentRouters - 1, point := .mark i }
  | .mark i =>
      { s with
        thrList := s.thrList.modify i fun thr => { thr with baselineTimeout := true }
        point := .scan (i + 1) }
  | .limits =>
      { s with
        point :=
          if s.concurrentRouters < cfg.maxConcurrentRouters ∧ s.activeConnections ≤ maxThreads
          then .accept else .top }
  | .accept =>
      { s with
        point := match answer.arrival with
          | .timeout => .top
          | .error => .stopped
          | .client startTime => .countActive startTime }
  | .countActive startTime =>
      { s with activeConnections := s.activeConnections + 1, point := .countRouter startTime }
  | .countRouter startTime =>
      { s with concurrentRouters := s.concurrentRouters + 1, point := .create startTime }
  | .create startTime => { s with point := .insert ⟨startTime, true, false⟩ }
  | .insert thr => { s with thrList := s.thrList ++ [thr], point := .top }
  | .stopped => s

/-- A client thread may also end before it is in the list. -/
def setStarted (running : Bool) (s : State) : State :=
  match s.point with
  | .insert thr => { s with point := .insert { thr with running := running } }
  | _ => s

def step (cfg : Config) (s : State) : Event → State
  | .work answer => work cfg answer s
  | .setRunning k running =>
      { s with thrList := s.thrList.modify k fun thr => { thr with running := running } }
  | .setStarted running => setStarted running s
  | .stopServer => { s with run := false }

def run (cfg : Config) (events : List Event) : State := events.foldl (step cfg) State.start

/-! The books: both counters, and of every entry whether its baseline time is over. Three
operations change them, each as a whole. -/

/-- What `concurrent_routers` counts. -/
def starting (flags : List Bool) : Nat := flags.count false

structure Books where
  active : Int
  concurrent : Int
  flags : List Bool

def Books.empty : Books := ⟨0, 0, []⟩

def Books.close (b : Books) (i : Nat) (flag : Bool) : Books :=
  ⟨b.active - 1, if flag then b.concurrent else b.concurrent - 1, b.flags.eraseIdx i⟩

def Books.expire (b : Books) (i : Nat) : Books := ⟨b.active, b.concurrent - 1, b.flags.set i true⟩

def Books.enter (b : Books) : Books := ⟨b.active + 1, b.concurrent + 1, b.flags ++ [false]⟩

inductive Books.Step (limit : Int) : Books → Books → Prop
  | close (b : Books) (i : Nat) (flag : Bool) (here : b.flags[i]? = some flag) :
      Books.Step limit b (b.close i flag)
  | expire (b : Books) (i : Nat) (here : b.flags[i]? = some false) :
      Books.Step limit b (b.expire i)
  | enter (b : Books) (room : b.concurrent < limit ∧ b.active ≤ maxThreads) :
      Books.Step limit b b.enter

/-- The counters are exact and bounded, so that an `int` holds them. -/
structure Books.Balanced (limit : Int) (b : Books) : Prop where
  active : b.active = b.flags.length
  concurrent : b.concurrent = starting b.flags
  bounded : b.concurrent ≤ limit ∧ b.active ≤ maxThreads + 1

theorem starting_eraseIdx {flags : List Bool} {i : Nat} {flag : Bool}
    (here : flags[i]? = some flag) :
    starting flags = starting (flags.eraseIdx i) + if flag then 0 else 1 := by
  obtain ⟨inside, at_i⟩ := List.getElem?_eq_some_iff.mp here
  have perm := (List.getElem_cons_eraseIdx_perm inside).count_eq false
  rw [at_i] at perm
  unfold starting
  rw [← perm]
  cases flag <;> simp

theorem starting_set {flags : List Bool} {i : Nat} (here : flags[i]? = some false) :
    starting flags = starting (flags.set i true) + 1 := by
  obtain ⟨inside, at_i⟩ := List.getElem?_eq_some_iff.mp here
  have perm := (List.set_perm_cons_eraseIdx inside true).count_eq false
  rw [starting_eraseIdx here]
  unfold starting
  rw [perm]
  simp

theorem Books.Step.balanced {limit : Int} {b b' : Books} (step : Books.Step limit b b')
    (balanced : b.Balanced limit) : b'.Balanced limit := by
  obtain ⟨active, concurrent, bounded⟩ := balanced
  cases step with
  | close i flag here =>
    have inside : i < b.flags.length := (List.getElem?_eq_some_iff.mp here).1
    have count := starting_eraseIdx here
    have length := List.length_eraseIdx_of_lt inside
    refine ⟨?_, ?_, ?_⟩ <;> simp only [Books.close] <;> cases flag <;>
      simp only [if_true, if_false, Bool.false_eq_true] at count ⊢ <;> omega
  | expire i here =>
    have count := starting_set here
    refine ⟨?_, ?_, ?_⟩ <;> simp only [Books.expire, List.length_set] <;> omega
  | enter room =>
    have count : starting (b.flags ++ [false]) = starting b.flags + 1 := by simp [starting]
    refine ⟨?_, ?_, ?_⟩ <;> simp only [Books.enter, List.length_append, List.length_singleton] <;>
      omega

theorem Books.balanced_of_run {limit : Int} (nonneg : 0 ≤ limit) {b : Books}
    (run : Relation.ReflTransGen (Books.Step limit) Books.empty b) : b.Balanced limit := by
  induction run with
  | refl => exact ⟨rfl, rfl, nonneg, by decide⟩
  | tail _ step ih => exact step.balanced ih

/-! The loop carries out one operation at a time, in several statements. -/

def State.flags (s : State) : List Bool := s.thrList.map ThreadMgmt.baselineTimeout

def State.books (s : State) : Books := ⟨s.activeConnections, s.concurrentRouters, s.flags⟩

/-- The books once the operation that has begun is finished. -/
def Point.settle (b : Books) : Point → Books
  | .joined i => b.close i (b.flags[i]?.getD true)
  | .left i =>
      { b with
        concurrent := if b.flags[i]?.getD true then b.concurrent else b.concurrent - 1
        flags := b.flags.eraseIdx i }
  | .erase i => { b with flags := b.flags.eraseIdx i }
  | .uncount i => b.expire i
  | .mark i => { b with flags := b.flags.set i true }
  | .countActive _ => b.enter
  | .countRouter _ => { b with concurrent := b.concurrent + 1, flags := b.flags ++ [false] }
  | .create _ => { b with flags := b.flags ++ [false] }
  | .insert thr => { b with flags := b.flags ++ [thr.baselineTimeout] }
  | _ => b

def State.settled (s : State) : Books := s.point.settle s.books

theorem settled_mk (running : Bool) (thrs : List ThreadMgmt) (active concurrent : Int)
    (point : Point) : State.settled ⟨running, thrs, active, concurrent, point⟩ =
      point.settle ⟨active, concurrent, thrs.map ThreadMgmt.baselineTimeout⟩ := rfl

/-- What has been checked on the way to a statement. -/
def State.Checked (cfg : Config) (s : State) : Prop :=
  match s.point with
  | .joined i | .left i => i < s.thrList.length
  | .accept =>
      s.concurrentRouters < cfg.maxConcurrentRouters ∧ s.activeConnections ≤ maxThreads
  | _ => True

theorem flag_at {thrs : List ThreadMgmt} {i : Nat} {thr : ThreadMgmt}
    (at_i : thrs[i]? = some thr) :
    (thrs.map ThreadMgmt.baselineTimeout)[i]? = some thr.baselineTimeout := by
  rw [List.getElem?_map, at_i]
  rfl

theorem flags_setRunning (thrs : List ThreadMgmt) (k : Nat) (running : Bool) :
    (thrs.modify k fun thr => { thr with running := running }).map ThreadMgmt.baselineTimeout =
      thrs.map ThreadMgmt.baselineTimeout := by
  refine List.ext_getElem? fun i => ?_
  rw [List.getElem?_map, List.getElem?_map, List.getElem?_modify]
  cases thrs[i]? with
  | none => rfl
  | some thr => by_cases here : k = i <;> simp [here]

theorem flags_mark (thrs : List ThreadMgmt) (i : Nat) :
    (thrs.modify i fun thr => { thr with baselineTimeout := true }).map
        ThreadMgmt.baselineTimeout =
      (thrs.map ThreadMgmt.baselineTimeout).set i true := by
  refine List.ext_getElem? fun k => ?_
  rw [List.getElem?_map, List.getElem?_set, List.getElem?_modify]
  by_cases here : i = k
  · subst here
    cases at_i : thrs[i]? with
    | none => simp [List.getElem?_eq_none_iff.mp at_i]
    | some thr => simp [(List.getElem?_eq_some_iff.mp at_i).1]
  · simp [here]

theorem checked_start (cfg : Config) : State.start.Checked cfg := trivial

theorem work_checked (cfg : Config) (answer : Answer) {s : State} (checked : s.Checked cfg) :
    (work cfg answer s).Checked cfg := by
  obtain ⟨running, thrs, active, concurrent, point⟩ := s
  cases point with
  | top => cases running <;> trivial
  | scan i =>
    simp only [work]
    split <;> trivial
  | test i =>
    cases at_i : thrs[i]? with
    | none => simp only [work, State.at, at_i, Option.elim_none, State.Checked]
    | some thr =>
      have inside := (List.getElem?_eq_some_iff.mp at_i).1
      simp only [work, State.at, at_i, Option.elim_some]
      split
      · trivial
      · exact inside
  | joined i => exact checked
  | left i | timer i =>
    cases at_i : thrs[i]? with
    | none => simp only [work, State.at, at_i, Option.elim_none, State.Checked]
    | some thr =>
      simp only [work, State.at, at_i, Option.elim_some]
      first | trivial | split <;> trivial
  | limits =>
    simp only [work]
    split
    · rename_i room
      exact room
    · trivial
  | accept =>
    simp only [work]
    split <;> trivial
  | _ => trivial

theorem step_checked (cfg : Config) (event : Event) {s : State} (checked : s.Checked cfg) :
    (step cfg s event).Checked cfg := by
  obtain ⟨running, thrs, active, concurrent, point⟩ := s
  cases event with
  | work answer => exact work_checked cfg answer checked
  | setRunning k value =>
    have same : (thrs.modify k fun thr => { thr with running := value }).length = thrs.length :=
      List.length_modify ..
    cases point with
    | joined i | left i => exact lt_of_lt_of_eq checked same.symm
    | _ => exact checked
  | setStarted value => cases point <;> exact checked
  | stopServer => cases point <;> exact checked

/-- A statement either leaves the settled books alone or begins an operation on them. -/
theorem work_settled (cfg : Config) (answer : Answer) {s : State} (checked : s.Checked cfg) :
    (work cfg answer s).settled = s.settled ∨
      Books.Step cfg.maxConcurrentRouters s.settled (work cfg answer s).settled := by
  obtain ⟨running, thrs, active, concurrent, point⟩ := s
  cases point with
  | top => cases running <;> exact .inl rfl
  | scan i =>
    simp only [work]
    split <;> exact .inl rfl
  | test i =>
    cases at_i : thrs[i]? with
    | none => simp [work, State.at, at_i, settled_mk, Point.settle]
    | some thr =>
      simp only [work, State.at, at_i, Option.elim_some]
      split
      · exact .inl rfl
      · -- the entry is given up: both counters and the list will change
        right
        have begun := @Books.Step.close cfg.maxConcurrentRouters
          ⟨active, concurrent, thrs.map ThreadMgmt.baselineTimeout⟩ i _ (flag_at at_i)
        simpa only [settled_mk, Point.settle, flag_at at_i, Option.getD_some] using begun
  | joined i => exact .inl rfl
  | left i =>
    left
    have at_i : thrs[i]? = some (thrs[i]) := List.getElem?_eq_getElem checked
    simp only [work, State.at, at_i, Option.elim_some, settled_mk, Point.settle, flag_at at_i,
      Option.getD_some]
  | erase i =>
    left
    simp only [work, settled_mk, Point.settle, List.eraseIdx_map]
  | timer i =>
    cases at_i : thrs[i]? with
    | none => simp [work, State.at, at_i, settled_mk, Point.settle]
    | some thr =>
      simp only [work, State.at, at_i, Option.elim_some]
      split
      · rename_i expired
        have starts : thr.baselineTimeout = false := by simpa using expired.1
        exact .inr (Books.Step.expire _ i ((flag_at at_i).trans (congrArg some starts)))
      · exact .inl rfl
  | uncount i => exact .inl rfl
  | mark i =>
    left
    simp only [work, settled_mk, Point.settle, flags_mark]
  | limits =>
    simp only [work]
    split <;> exact .inl rfl
  | accept =>
    simp only [work]
    split
    · exact .inl rfl
    · exact .inl rfl
    · exact .inr (Books.Step.enter _ checked)
  | countActive startTime => exact .inl rfl
  | countRouter startTime => exact .inl rfl
  | create startTime => exact .inl rfl
  | insert thr =>
    left
    simp only [work, settled_mk, Point.settle, List.map_append, List.map_cons, List.map_nil]
  | stopped => exact .inl rfl

/-- Threads that stop, and a server that is told to stop, leave the books alone. -/
theorem step_settled (cfg : Config) (event : Event) {s : State} (checked : s.Checked cfg) :
    (step cfg s event).settled = s.settled ∨
      Books.Step cfg.maxConcurrentRouters s.settled (step cfg s event).settled := by
  cases event with
  | work answer => exact work_settled cfg answer checked
  | setRunning k value =>
    have same : (step cfg s (.setRunning k value)).books = s.books :=
      congrArg (Books.mk _ _) (flags_setRunning s.thrList k value)
    exact .inl (congrArg (Point.settle · s.point) same)
  | setStarted value =>
    obtain ⟨running, thrs, active, concurrent, point⟩ := s
    cases point <;> exact .inl rfl
  | stopServer => exact .inl rfl

/-- Every run of the loop is, in its settled books, a run of whole operations. -/
theorem run_refines (cfg : Config) (events : List Event) :
    (run cfg events).Checked cfg ∧
      Relation.ReflTransGen (Books.Step cfg.maxConcurrentRouters) Books.empty
        (run cfg events).settled := by
  induction events using List.reverseRecOn with
  | nil => exact ⟨checked_start cfg, .refl⟩
  | append_singleton events event ih =>
    obtain ⟨checked, operations⟩ := ih
    have last : run cfg (events ++ [event]) = step cfg (run cfg events) event := by
      simp [run]
    rw [last]
    refine ⟨step_checked cfg event checked, ?_⟩
    rcases step_settled cfg event checked with same | operation
    · rw [same]
      exact operations
    · exact operations.tail operation

/-- At the top of the loop the counters say how many connections there are and how many
of them are in their baseline time, never more than the limit. -/
theorem counters_at_top (cfg : Config) (nonneg : 0 ≤ cfg.maxConcurrentRouters)
    (events : List Event) (at_top : (run cfg events).point = .top) :
    (run cfg events).activeConnections = (run cfg events).thrList.length ∧
      (run cfg events).concurrentRouters =
        ((run cfg events).thrList.filter fun thr => thr.baselineTimeout = false).length ∧
      0 ≤ (run cfg events).concurrentRouters ∧
      (run cfg events).concurrentRouters ≤ cfg.maxConcurrentRouters := by
  have balanced := Books.balanced_of_run nonneg (run_refines cfg events).2
  have settled : (run cfg events).settled = (run cfg events).books := by
    rw [State.settled, at_top]
    rfl
  rw [settled] at balanced
  have flags_length : (run cfg events).books.flags.length = (run cfg events).thrList.length :=
    List.length_map _
  have starting_length : starting (run cfg events).books.flags =
      ((run cfg events).thrList.filter fun thr => thr.baselineTimeout = false).length := by
    unfold starting
    rw [← List.countP_eq_length_filter, List.count, State.books, State.flags, List.countP_map]
    congr 1
  obtain ⟨active, concurrent, bounded⟩ := balanced
  rw [flags_length] at active
  rw [starting_length] at concurrent
  exact ⟨active, concurrent, le_of_le_of_eq (Int.natCast_nonneg _) concurrent.symm, bounded.1⟩

private def oneAtATime : Config := ⟨1, 60, false⟩

/-- The next statements, with one answer for all of them. -/
private def statements (n : Nat) (answer : Answer) : List Event := List.replicate n (.work answer)

/-- A router connects, a second one after the first one's baseline time, and the first one
leaves: the second is still starting, so that a third has to wait. -/
private def twoRouters : List Event :=
  statements 8 ⟨0, none, .client 0⟩ ++ statements 13 ⟨60, none, .client 60⟩ ++
    .setRunning 0 false :: statements 8 ⟨61, none, .client 61⟩

theorem twoRouters_at_top :
    0 ≤ oneAtATime.maxConcurrentRouters ∧ (run oneAtATime twoRouters).point = .top ∧
      (run oneAtATime twoRouters).activeConnections =
        (run oneAtATime twoRouters).thrList.length ∧
      (run oneAtATime twoRouters).concurrentRouters = 1 :=
  ⟨by decide, by decide, (counters_at_top oneAtATime (by decide) twoRouters (by decide)).1,
    by decide⟩

end SonicBmp.RunServer
