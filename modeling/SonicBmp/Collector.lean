/- module: SonicBmp/Collector
   digest: The collector records: what the server tells about the routers it is connected to. -/

import Mathlib.Data.List.Chain
import SonicBmp.Bus.Kafka
import SonicBmp.Startup

set_option autoImplicit false
set_option relaxedAutoImplicit false

namespace SonicBmp.Collector

open SonicBmp.Library.Printing
open SonicBmp.Bus.Kafka (HashId hashToStr tsvRow)
open SonicBmp.Configuration (Config)
open SonicBmp.RunServer (Answer Point Books)
open SonicBmp.Startup (serverConfig)

/-! Records. -/

inductive CollectorActionCode
  | started
  | change
  | heartbeat
  | stopped
  deriving DecidableEq

def CollectorActionCode.text : CollectorActionCode → Text
  | .started => "started".toList
  | .change => "change".toList
  | .heartbeat => "heartbeat".toList
  | .stopped => "stopped".toList

/-- `obj_collector`, with the time printed. -/
structure ObjCollector where
  adminId : Text
  routers : Text
  routerCount : Nat
  timestamp : Text

/-- A separator is put in front of an address unless nothing has been put down yet. -/
def routerIps (ips : List Text) : Text :=
  ips.foldl (fun text ip => (if text ≠ [] then text ++ ", ".toList else text) ++ ip) []

/-- `collector_update_msg`. -/
def collectorUpdateMsg (adminId : Text) (ips : List Text) (timestamp : Text) : ObjCollector where
  adminId := snprintf 64 adminId
  routers := snprintf 4096 (routerIps ips)
  routerCount := ips.length
  timestamp := timestamp

/-- The fields of `msgBus_kafka::update_Collector`. -/
def collectorFields (collectorHash : HashId) (code : CollectorActionCode) (seq : Nat)
    (object : ObjCollector) : List Text :=
  [code.text, decimal seq, object.adminId, hashToStr collectorHash, object.routers,
    decimal object.routerCount, object.timestamp]

def updateCollector (collectorHash : HashId) (code : CollectorActionCode) (seq : Nat)
    (object : ObjCollector) : Text :=
  snprintf 4096 (tsvRow (collectorFields collectorHash code seq object))

/-! The server. -/

structure Timeval where
  sec : Int
  usec : Nat

/-- A record with the addresses and the time that it was made of. -/
structure Record where
  code : CollectorActionCode
  routers : List Text
  time : Timeval
  text : Text

/-- The accept loop with the addresses of the routers in its list, the address of a client that
is accepted but not yet in the list, and the records produced. -/
structure Server where
  loop : RunServer.State
  routers : List Text
  accepted : Text
  lastHeartbeatTime : Int
  records : List Record

/-- What happens to the loop, with the address that `accept` fills in and two readings of the
clock: `told` goes into a record, and `after` is read when the record is produced. -/
structure Event where
  event : RunServer.Event
  ip : Text
  told : Timeval
  after : Int

/-- The time that the loop compares with the last heartbeat. -/
def Event.checked (e : Event) : Option Int :=
  match e.event with
  | .work answer => some answer.now
  | _ => none

section Run

variable {ρ : Type} (cfg : Config ρ) (collectorHash : HashId) (timestamp : Timeval → Text)

/-- The number of a record is that of the records before it. -/
def Server.send (s : Server) (code : CollectorActionCode) (told : Timeval) : Server :=
  { s with
    records := s.records ++ [⟨code, s.routers, told,
      updateCollector collectorHash code s.records.length
        (collectorUpdateMsg cfg.adminId s.routers (timestamp told))⟩] }

def Server.start (told : Timeval) (after : Int) : Server :=
  Server.send cfg collectorHash timestamp ⟨.start, [], [], after, []⟩ .started told

/-- What a statement of the loop does besides: `loop` is the state it leaves. -/
def work (s : Server) (loop : RunServer.State) (answer : Answer) (e : Event) : Server :=
  match s.loop.point with
  | .top =>
    if s.loop.run then { s with loop }
    else Server.send cfg collectorHash timestamp { s with loop } .stopped e.told
  | .erase i =>
    Server.send cfg collectorHash timestamp
      { s with loop, routers := s.routers.eraseIdx i } .change e.told
  | .accept =>
    match answer.arrival with
    | .client _ => { s with loop, accepted := e.ip }
    | .error => { s with loop }
    | .timeout =>
      if cfg.heartbeatInterval ≤ answer.now - s.lastHeartbeatTime then
        Server.send cfg collectorHash timestamp { s with loop, lastHeartbeatTime := e.after }
          .heartbeat e.told
      else { s with loop }
  | .insert _ =>
    Server.send cfg collectorHash timestamp
      { s with loop, routers := s.routers ++ [s.accepted], lastHeartbeatTime := e.after }
      .change e.told
  | _ => { s with loop }

def step (s : Server) (e : Event) : Server :=
  let loop := RunServer.step (serverConfig cfg) s.loop e.event
  match e.event with
  | .work answer => work cfg collectorHash timestamp s loop answer e
  | _ => { s with loop }

def run (told : Timeval) (after : Int) (events : List Event) : Server :=
  events.foldl (step cfg collectorHash timestamp) (.start cfg collectorHash timestamp told after)

/-! What one statement does. -/

/-- How the addresses of a record differ from those of the record before it. -/
def Follows (before after : List Text) : CollectorActionCode → Prop
  | .started => False
  | .change => (∃ ip, after = before ++ [ip]) ∨ ∃ i < before.length, after = before.eraseIdx i
  | .heartbeat | .stopped => after = before

/-- A client is accepted and not yet in the list. -/
def pending : Point → Bool
  | .countActive _ | .countRouter _ | .create _ | .insert _ => true
  | _ => false

/-- Nothing is told, because the list of routers is as long as it was. A client that is accepted
has the address `ip`. -/
structure Quiet (ip : Text) (s s' : Server) : Prop where
  routers : s'.routers = s.routers
  records : s'.records = s.records
  list : s'.loop.thrList.length = s.loop.thrList.length
  last : s'.lastHeartbeatTime = s.lastHeartbeatTime
  accepted : pending s'.loop.point = true →
    s'.accepted = ip ∨ pending s.loop.point = true ∧ s'.accepted = s.accepted

/-- A record is produced between two operations on the list. -/
structure Sent (e : Event) (s s' : Server) (code : CollectorActionCode) : Prop where
  follows : Follows s.routers s'.routers code
  records : s'.records = s.records ++ [⟨code, s'.routers, e.told,
    updateCollector collectorHash code s.records.length
      (collectorUpdateMsg cfg.adminId s'.routers (timestamp e.told))⟩]
  list : s'.routers.length = s'.loop.thrList.length
  known : ∀ ip ∈ s'.routers, ip ∈ s.routers ∨ pending s.loop.point = true ∧ ip = s.accepted
  settled : s'.loop.settled = s'.loop.books ∧ pending s'.loop.point = false
  heartbeat : code = .heartbeat →
    ∃ now ∈ e.checked, cfg.heartbeatInterval ≤ now - s.lastHeartbeatTime
  last : s'.lastHeartbeatTime = e.after ∨
    s'.lastHeartbeatTime = s.lastHeartbeatTime ∧ code ≠ .heartbeat

/-- The entry that is about to be erased is there. -/
def Inside (loop : RunServer.State) : Prop := ∀ i, loop.point = .erase i → i < loop.thrList.length

end Run

section Steps

variable {ρ : Type} {cfg : Config ρ} {collectorHash : HashId} {timestamp : Timeval → Text}

theorem step_loop (s : Server) (e : Event) :
    (step cfg collectorHash timestamp s e).loop =
      RunServer.step (serverConfig cfg) s.loop e.event := by
  obtain ⟨event, ip, told, after⟩ := e
  cases event with
  | work answer =>
    simp only [step, work, Server.send]
    repeat' split
    all_goals rfl
  | _ => rfl

theorem inside_step (config : RunServer.Config) (event : RunServer.Event) {loop : RunServer.State}
    (checked : loop.Checked config) (inside : Inside loop) :
    Inside (RunServer.step config loop event) := by
  obtain ⟨running, thrs, active, concurrent, point⟩ := loop
  intro j here
  cases event with
  | work answer =>
    cases point with
    | left i =>
      have at_i : thrs[i]? = some thrs[i] := List.getElem?_eq_getElem checked
      simp only [RunServer.step, RunServer.work, RunServer.State.at, at_i, Option.elim_some] at here ⊢
      cases here
      exact checked
    | test i | timer i =>
      simp only [RunServer.step, RunServer.work, RunServer.State.at] at here
      cases at_i : thrs[i]? <;> simp only [at_i, Option.elim_none, Option.elim_some] at here
      · cases here
      · split at here <;> cases here
    | top | scan | limits | accept =>
      simp only [RunServer.step, RunServer.work] at here
      split at here <;> cases here
    | _ => cases here
  | setRunning k running =>
    have same : (thrs.modify k fun thr => { thr with running }).length = thrs.length :=
      List.length_modify ..
    exact lt_of_lt_of_eq (inside j here) same.symm
  | setStarted running =>
    cases point <;> first | exact inside j here | cases here
  | stopServer => exact inside j here

/-- A statement is silent, or it produces one record about the list it leaves. -/
theorem step_cases {s : Server} (e : Event) (listed : s.routers.length = s.loop.thrList.length)
    (inside : Inside s.loop) :
    Quiet e.ip s (step cfg collectorHash timestamp s e) ∨
      ∃ code, Sent cfg collectorHash timestamp e s (step cfg collectorHash timestamp s e) code := by
  obtain ⟨⟨running, thrs, active, concurrent, point⟩, routers, accepted, last, records⟩ := s
  obtain ⟨event, ip, told, after⟩ := e
  cases event with
  | work answer =>
    cases point with
    | top =>
      cases running with
      | true => exact .inl ⟨rfl, rfl, rfl, rfl, by rintro ⟨⟩⟩
      | false =>
        refine .inr ⟨.stopped, rfl, rfl, listed, fun _ => .inl, ⟨rfl, rfl⟩, ?_,
          .inr ⟨rfl, ?_⟩⟩ <;> rintro ⟨⟩
    | erase i =>
      have here : i < routers.length := lt_of_lt_of_eq (inside i rfl) listed.symm
      refine .inr ⟨.change, .inr ⟨i, here, rfl⟩, rfl, ?_,
        fun _ left => .inl (List.mem_of_mem_eraseIdx left), ⟨rfl, rfl⟩, ?_, .inr ⟨rfl, ?_⟩⟩
      · exact (List.length_eraseIdx_of_lt here).trans
          ((congrArg (· - 1) listed).trans (List.length_eraseIdx_of_lt (inside i rfl)).symm)
      · rintro ⟨⟩
      · rintro ⟨⟩
    | accept =>
      cases arrival : answer.arrival with
      | timeout =>
        by_cases due : cfg.heartbeatInterval ≤ answer.now - last
        · refine .inr ⟨.heartbeat, ?_⟩
          simp only [step, work, arrival, due, if_true, Server.send]
          refine ⟨rfl, rfl, listed, fun _ => .inl, ?_, fun _ => ⟨_, rfl, due⟩, .inl rfl⟩
          simp only [RunServer.step, RunServer.work, arrival]
          exact ⟨rfl, rfl⟩
        · left
          simp only [step, work, arrival, due, if_false]
          refine ⟨rfl, rfl, rfl, rfl, ?_⟩
          simp only [RunServer.step, RunServer.work, arrival]
          rintro ⟨⟩
      | error =>
        left
        simp only [step, work, arrival]
        refine ⟨rfl, rfl, rfl, rfl, ?_⟩
        simp only [RunServer.step, RunServer.work, arrival]
        rintro ⟨⟩
      | client startTime =>
        left
        simp only [step, work, arrival]
        exact ⟨rfl, rfl, rfl, rfl, fun _ => .inl rfl⟩
    | insert thr =>
      refine .inr ⟨.change, .inl ⟨accepted, rfl⟩, rfl, ?_, fun ip here => ?_,
        ⟨rfl, rfl⟩, ?_, .inl rfl⟩
      · simpa [step, work, Server.send, RunServer.step, RunServer.work] using listed
      · rcases List.mem_append.mp here with old | new
        · exact .inl old
        · exact .inr ⟨rfl, List.mem_singleton.mp new⟩
      · rintro ⟨⟩
    | countActive startTime | countRouter startTime | create startTime =>
      exact .inl ⟨rfl, rfl, rfl, rfl, fun _ => .inr ⟨rfl, rfl⟩⟩
    | test i | left i | timer i =>
      left
      simp only [step, work, RunServer.step, RunServer.work, RunServer.State.at]
      cases thrs[i]? with
      | none => exact ⟨rfl, rfl, rfl, rfl, by rintro ⟨⟩⟩
      | some thr =>
        refine ⟨rfl, rfl, rfl, rfl, ?_⟩
        simp only [Option.elim_some]
        first | rintro ⟨⟩ | (split <;> rintro ⟨⟩)
    | mark i =>
      left
      simp only [step, work, RunServer.step, RunServer.work]
      exact ⟨rfl, rfl, List.length_modify .., rfl, by rintro ⟨⟩⟩
    | scan i | limits =>
      left
      refine ⟨rfl, rfl, rfl, rfl, ?_⟩
      simp only [step, work, RunServer.step, RunServer.work]
      split <;> rintro ⟨⟩
    | joined i | uncount i | stopped => exact .inl ⟨rfl, rfl, rfl, rfl, by rintro ⟨⟩⟩
  | setRunning k running =>
    left
    simp only [step, RunServer.step]
    exact ⟨rfl, rfl, List.length_modify .., rfl, fun waits => .inr ⟨waits, rfl⟩⟩
  | setStarted running =>
    left
    cases point <;> exact ⟨rfl, rfl, rfl, rfl, fun waits => .inr ⟨waits, rfl⟩⟩
  | stopServer => exact .inl ⟨rfl, rfl, rfl, rfl, fun waits => .inr ⟨waits, rfl⟩⟩

/-! Whole runs. -/

variable (cfg collectorHash timestamp) in
/-- Every record is about the list as it was, and the newest is about the list as it is. -/
structure Tracks (s : Server) : Prop where
  listed : s.routers.length = s.loop.thrList.length
  newest : s.records.getLast?.map Record.routers = some s.routers
  chain : s.records.IsChain fun a b => Follows a.routers b.routers b.code
  texts : ∀ i r, s.records[i]? = some r → r.text =
    updateCollector collectorHash r.code i
      (collectorUpdateMsg cfg.adminId r.routers (timestamp r.time))
  bounded : ∀ r ∈ s.records, r.routers.length ≤ 201

theorem tracks_start (told : Timeval) (after : Int) :
    Tracks cfg collectorHash timestamp (.start cfg collectorHash timestamp told after) where
  listed := rfl
  newest := rfl
  chain := .singleton _
  texts i r here := by
    cases i with
    | zero =>
      cases here
      rfl
    | succ i => cases here
  bounded := by simp [Server.start, Server.send]

theorem Tracks.quiet {ip : Text} {s s' : Server} (tracks : Tracks cfg collectorHash timestamp s)
    (quiet : Quiet ip s s') : Tracks cfg collectorHash timestamp s' := by
  refine ⟨?_, ?_, ?_, ?_, ?_⟩
  · rw [quiet.routers, tracks.listed, quiet.list]
  all_goals rw [quiet.records]
  · rw [quiet.routers]
    exact tracks.newest
  · exact tracks.chain
  · exact tracks.texts
  · exact tracks.bounded

theorem Tracks.sent {e : Event} {s s' : Server} {code : CollectorActionCode}
    (tracks : Tracks cfg collectorHash timestamp s)
    (sent : Sent cfg collectorHash timestamp e s s' code) (few : s'.routers.length ≤ 201) :
    Tracks cfg collectorHash timestamp s' := by
  refine ⟨sent.list, ?_, ?_, ?_, ?_⟩
  all_goals rw [sent.records]
  · simp
  · refine tracks.chain.append (.singleton _) ?_
    rintro a last b ⟨⟩
    have same : a.routers = s.routers := by
      have newest := tracks.newest
      rw [last] at newest
      simpa using newest
    exact same ▸ sent.follows
  · intro i r here
    rw [List.getElem?_append] at here
    split at here
    · exact tracks.texts i r here
    · rename_i beyond
      have at_end : i = s.records.length := by
        have inside := (List.getElem?_eq_some_iff.mp here).1
        simp only [List.length_singleton] at inside
        omega
      subst at_end
      rw [Nat.sub_self] at here
      cases here
      rfl
  · intro r here
    rcases List.mem_append.mp here with old | new
    · exact tracks.bounded r old
    · rw [List.mem_singleton.mp new]
      exact few

/-- The books bound the list that a record is about: they are settled when it is produced. -/
theorem Sent.few {e : Event} {s s' : Server} {code : CollectorActionCode}
    (sent : Sent cfg collectorHash timestamp e s s' code) {limit : Int}
    (balanced : s'.loop.settled.Balanced limit) : s'.routers.length ≤ 201 := by
  have active := balanced.active
  have most := balanced.bounded.2
  have flags : s'.loop.settled.flags.length = s'.loop.thrList.length := by
    rw [sent.settled.1]
    exact List.length_map _
  rw [flags, ← sent.list] at active
  rw [active] at most
  exact Int.ofNat_le.mp most

theorem Tracks.step {s : Server} (tracks : Tracks cfg collectorHash timestamp s) (e : Event)
    (inside : Inside s.loop) {limit : Int}
    (balanced : (Collector.step cfg collectorHash timestamp s e).loop.settled.Balanced limit) :
    Tracks cfg collectorHash timestamp (Collector.step cfg collectorHash timestamp s e) := by
  rcases step_cases e tracks.listed inside with quiet | ⟨code, sent⟩
  · exact tracks.quiet quiet
  · exact tracks.sent sent (sent.few balanced)

theorem run_concat (told : Timeval) (after : Int) (events : List Event) (e : Event) :
    run cfg collectorHash timestamp told after (events ++ [e]) =
      step cfg collectorHash timestamp (run cfg collectorHash timestamp told after events) e := by
  simp [run]

theorem run_loop (told : Timeval) (after : Int) (events : List Event) :
    (run cfg collectorHash timestamp told after events).loop =
      RunServer.run (serverConfig cfg) (events.map Event.event) := by
  induction events using List.reverseRecOn with
  | nil => rfl
  | append_singleton events e ih =>
    rw [run_concat, step_loop, ih, List.map_append, RunServer.run, RunServer.run, List.foldl_append]
    rfl

theorem run_inside (told : Timeval) (after : Int) (events : List Event) :
    Inside (run cfg collectorHash timestamp told after events).loop := by
  induction events using List.reverseRecOn with
  | nil => rintro i ⟨⟩
  | append_singleton events e ih =>
    rw [run_concat, step_loop]
    refine inside_step _ _ ?_ ih
    rw [run_loop]
    exact (RunServer.run_refines _ _).1

theorem run_tracks (nonneg : 0 ≤ cfg.maxConcurrentRouters) (told : Timeval) (after : Int)
    (events : List Event) :
    Tracks cfg collectorHash timestamp (run cfg collectorHash timestamp told after events) := by
  induction events using List.reverseRecOn with
  | nil => exact tracks_start told after
  | append_singleton events e ih =>
    have balanced : (run cfg collectorHash timestamp told after (events ++ [e])).loop.settled.Balanced
        cfg.maxConcurrentRouters := by
      rw [run_loop]
      exact Books.balanced_of_run nonneg (RunServer.run_refines (serverConfig cfg) _).2
    rw [run_concat] at balanced ⊢
    exact ih.step e (run_inside told after events) balanced

/-! Addresses. -/

/-- As `inet_ntop` prints it for IPv4. -/
def Short (ip : Text) : Prop := ip ≠ [] ∧ ip.length ≤ 15

instance (ip : Text) : Decidable (Short ip) := inferInstanceAs (Decidable (_ ∧ _))

structure Addressed (s : Server) : Prop where
  routers : ∀ ip ∈ s.routers, Short ip
  accepted : pending s.loop.point = true → Short s.accepted
  records : ∀ r ∈ s.records, ∀ ip ∈ r.routers, Short ip

theorem Addressed.step {s : Server} (addressed : Addressed s) (e : Event) (short : Short e.ip)
    (listed : s.routers.length = s.loop.thrList.length) (inside : Inside s.loop) :
    Addressed (Collector.step cfg collectorHash timestamp s e) := by
  rcases step_cases e listed inside with quiet | ⟨code, sent⟩
  · refine ⟨quiet.routers ▸ addressed.routers, fun waits => ?_, quiet.records ▸ addressed.records⟩
    rcases quiet.accepted waits with own | ⟨before, same⟩
    · exact own ▸ short
    · exact same ▸ addressed.accepted before
  · have each : ∀ ip ∈ (Collector.step cfg collectorHash timestamp s e).routers, Short ip := by
      intro ip here
      rcases sent.known ip here with old | ⟨waits, rfl⟩
      · exact addressed.routers ip old
      · exact addressed.accepted waits
    refine ⟨each, fun waits => ?_, fun r here => ?_⟩
    · rw [sent.settled.2] at waits
      cases waits
    · rw [sent.records] at here
      rcases List.mem_append.mp here with old | new
      · exact addressed.records r old
      · rw [List.mem_singleton.mp new]
        exact each

theorem run_addressed (nonneg : 0 ≤ cfg.maxConcurrentRouters) (told : Timeval) (after : Int)
    {events : List Event} (short : ∀ e ∈ events, Short e.ip) :
    Addressed (run cfg collectorHash timestamp told after events) := by
  induction events using List.reverseRecOn with
  | nil =>
    refine ⟨by rintro ip ⟨⟩, by rintro ⟨⟩, fun r here => ?_⟩
    rw [List.mem_singleton.mp here]
    rintro ip ⟨⟩
  | append_singleton events e ih =>
    rw [run_concat]
    exact (ih fun e here => short e (List.mem_append_left _ here)).step e (short e (by simp))
      (run_tracks nonneg told after events).listed (run_inside told after events)

theorem length_records (told : Timeval) (after : Int) (nonneg : 0 ≤ cfg.maxConcurrentRouters)
    (events : List Event) :
    (run cfg collectorHash timestamp told after events).records.length ≤ events.length + 1 := by
  induction events using List.reverseRecOn with
  | nil => exact le_rfl
  | append_singleton events e ih =>
    rw [run_concat, List.length_append, List.length_singleton]
    rcases step_cases e (run_tracks nonneg told after events).listed
      (run_inside told after events) with quiet | ⟨code, sent⟩
    · rw [quiet.records]
      exact ih.trans (Nat.le_succ _)
    · rw [sent.records, List.length_append, List.length_singleton]
      exact Nat.succ_le_succ ih

/-! Heartbeats. -/

/-- What the clock shows in the course of a statement. -/
def Event.readings (e : Event) : List Int := e.checked.toList ++ [e.told.sec, e.after]

def CollectorActionCode.Beat (code : CollectorActionCode) : Prop :=
  code = .started ∨ code = .heartbeat

variable (cfg) in
/-- The heartbeats until `clock` are an interval apart. -/
structure Paced (clock : Int) (s : Server) : Prop where
  last : s.lastHeartbeatTime ≤ clock
  before : ∀ r ∈ s.records, r.code.Beat → r.time.sec ≤ s.lastHeartbeatTime
  apart : s.records.Pairwise fun a b =>
    a.code.Beat → b.code = .heartbeat → cfg.heartbeatInterval ≤ b.time.sec - a.time.sec

theorem told_le_after {e : Event} (forward : e.readings.Pairwise (· ≤ ·)) :
    e.told.sec ≤ e.after := by
  rw [Event.readings] at forward
  simpa using (List.pairwise_append.mp forward).2.1

theorem checked_le_told {e : Event} (forward : e.readings.Pairwise (· ≤ ·)) {now : Int}
    (read : now ∈ e.checked) : now ≤ e.told.sec := by
  rw [Event.readings] at forward
  exact (List.pairwise_append.mp forward).2.2 now (Option.mem_toList.mpr read) _ List.mem_cons_self

theorem Paced.quiet {clock clock' : Int} {ip : Text} {s s' : Server} (paced : Paced cfg clock s)
    (later : clock ≤ clock') (quiet : Quiet ip s s') : Paced cfg clock' s' := by
  refine ⟨quiet.last ▸ paced.last.trans later, ?_, quiet.records ▸ paced.apart⟩
  rw [quiet.records, quiet.last]
  exact paced.before

theorem Paced.sent {clock : Int} {e : Event} {s s' : Server} {code : CollectorActionCode}
    (paced : Paced cfg clock s) (later : clock ≤ e.after)
    (forward : e.readings.Pairwise (· ≤ ·))
    (sent : Sent cfg collectorHash timestamp e s s' code) : Paced cfg e.after s' := by
  have last : s.lastHeartbeatTime ≤ s'.lastHeartbeatTime ∧ s'.lastHeartbeatTime ≤ e.after := by
    rcases sent.last with now | ⟨same, -⟩
    · exact ⟨now ▸ paced.last.trans later, now.le⟩
    · exact ⟨same.ge, same ▸ paced.last.trans later⟩
  refine ⟨last.2, fun r here beat => ?_, ?_⟩
  · rw [sent.records] at here
    rcases List.mem_append.mp here with old | new
    · exact (paced.before r old beat).trans last.1
    · rw [List.mem_singleton.mp new] at beat ⊢
      rcases beat with rfl | rfl
      · exact sent.follows.elim
      · rcases sent.last with now | ⟨-, other⟩
        · exact (told_le_after forward).trans now.ge
        · exact absurd rfl other
  · rw [sent.records, List.pairwise_append]
    refine ⟨paced.apart, List.pairwise_singleton .., ?_⟩
    intro a old b new beat heartbeat
    rw [List.mem_singleton.mp new] at heartbeat ⊢
    obtain ⟨now, read, due⟩ := sent.heartbeat heartbeat
    have shown := checked_le_told forward read
    have earlier := paced.before a old beat
    show cfg.heartbeatInterval ≤ e.told.sec - a.time.sec
    omega

theorem Paced.step {clock : Int} {s : Server} (paced : Paced cfg clock s) {e : Event}
    (forward : (clock :: e.readings).Pairwise (· ≤ ·))
    (listed : s.routers.length = s.loop.thrList.length) (inside : Inside s.loop) :
    Paced cfg e.after (Collector.step cfg collectorHash timestamp s e) := by
  have later : clock ≤ e.after := List.rel_of_pairwise_cons forward (by simp [Event.readings])
  rcases step_cases e listed inside with quiet | ⟨code, sent⟩
  · exact paced.quiet later quiet
  · exact paced.sent later (List.pairwise_cons.mp forward).2 sent

theorem run_paced (nonneg : 0 ≤ cfg.maxConcurrentRouters) {told : Timeval} {after : Int}
    {events : List Event}
    (forward : (told.sec :: after :: events.flatMap Event.readings).Pairwise (· ≤ ·)) :
    ∃ clock ∈ told.sec :: after :: events.flatMap Event.readings,
      Paced cfg clock (run cfg collectorHash timestamp told after events) := by
  induction events using List.reverseRecOn with
  | nil =>
    refine ⟨after, by simp, le_rfl, fun r here _ => ?_, List.pairwise_singleton ..⟩
    rw [List.mem_singleton.mp here]
    exact List.rel_of_pairwise_cons forward List.mem_cons_self
  | append_singleton events e ih =>
    rw [List.flatMap_append, List.flatMap_singleton, ← List.cons_append, ← List.cons_append,
      List.pairwise_append] at forward
    obtain ⟨before, own, between⟩ := forward
    obtain ⟨clock, read, paced⟩ := ih before
    rw [run_concat]
    exact ⟨e.after, by simp [Event.readings], paced.step (.cons (between clock read) own)
      (run_tracks nonneg told after events).listed (run_inside told after events)⟩

end Steps

/-! Texts. -/

theorem routerIps_eq {ips : List Text} (shown : ∀ ip ∈ ips, ip ≠ []) :
    routerIps ips = commas ips := by
  have behind (text : Text) (some_ : text ≠ []) (ips : List Text) :
      ips.foldl (fun text ip => (if text ≠ [] then text ++ ", ".toList else text) ++ ip) text =
        text ++ ips.flatMap fun ip => ", ".toList ++ ip := by
    induction ips generalizing text with
    | nil => simp
    | cons ip ips ih =>
      rw [List.foldl_cons, if_pos some_, ih _ (by simp), List.flatMap_cons, List.append_assoc,
        List.append_assoc, List.append_assoc]
  cases ips with
  | nil => rfl
  | cons ip ips =>
    rw [routerIps, List.foldl_cons, behind _ (by simpa using shown ip List.mem_cons_self),
      commas_cons]
    rfl

theorem length_commas_le {ips : List Text} {most : Nat} (short : ∀ ip ∈ ips, ip.length ≤ most) :
    (commas ips).length ≤ ips.length * (most + 2) := by
  have rest (ips : List Text) (short : ∀ ip ∈ ips, ip.length ≤ most) :
      (ips.flatMap fun ip => ", ".toList ++ ip).length ≤ ips.length * (most + 2) := by
    induction ips with
    | nil => simp
    | cons ip ips ih =>
      have own := short ip List.mem_cons_self
      have later := ih fun ip here => short ip (List.mem_cons_of_mem _ here)
      have two : ", ".toList.length = 2 := rfl
      rw [List.flatMap_cons, List.length_append, List.length_append, List.length_cons,
        Nat.succ_mul, two]
      omega
  cases ips with
  | nil => simp [commas, List.intercalate]
  | cons ip ips =>
    have own := short ip List.mem_cons_self
    have later := rest ips fun ip here => short ip (List.mem_cons_of_mem _ here)
    rw [commas_cons, List.length_append, List.length_cons, Nat.succ_mul]
    omega

theorem length_hashToStr (hash : HashId) : (hashToStr hash).length = 32 := by
  simp [hashToStr, Bus.Kafka.hexByte, List.length_flatMap]

theorem length_text_le (code : CollectorActionCode) : code.text.length ≤ 9 := by
  cases code <;> decide

/-- A record about at most 201 routers with IPv4 addresses is not cut off. -/
theorem updateCollector_whole (collectorHash : HashId) (code : CollectorActionCode) {seq : Nat}
    (adminId : Text) {ips : List Text} {timestamp : Text} (few : ips.length ≤ 201)
    (short : ∀ ip ∈ ips, Short ip) (small : seq < 10 ^ 20) (stamp : timestamp.length ≤ 48) :
    updateCollector collectorHash code seq (collectorUpdateMsg adminId ips timestamp) =
      tsvRow [code.text, decimal seq, adminId.take 63, hashToStr collectorHash, commas ips,
        decimal ips.length, timestamp] := by
  have listed : (commas ips).length ≤ 3417 :=
    (length_commas_le fun ip here => (short ip here).2).trans (Nat.mul_le_mul_right 17 few)
  have uncut : snprintf 4096 (routerIps ips) = commas ips := by
    rw [routerIps_eq fun ip here => (short ip here).1, snprintf]
    exact List.take_of_length_le (listed.trans (by decide))
  have number : (decimal seq).length ≤ 20 := length_decimal_le (by decide) small
  have count : (decimal ips.length).length ≤ 3 :=
    length_decimal_le (by decide) (few.trans_lt (by decide))
  have name : (adminId.take (64 - 1)).length ≤ 63 := List.length_take_le ..
  have word := length_text_le code
  have hash := length_hashToStr collectorHash
  rw [updateCollector, collectorUpdateMsg, collectorFields, uncut, snprintf, snprintf]
  apply List.take_of_length_le
  simp only [tsvRow, List.intercalate, List.intersperse, List.flatten_cons, List.flatten_nil,
    List.length_append, List.length_cons, List.length_nil]
  omega

def testConfig : Config Unit :=
  { Config.default Unit with adminId := "c".toList, heartbeatInterval := 60 }

def testEvent (now : Int) (arrival : RunServer.Arrival) : Event :=
  ⟨.work ⟨now, none, arrival⟩, "10.0.0.1".toList, ⟨now, 0⟩, now⟩

/-- A router connects, and then nothing happens for a minute. -/
def testEvents : List Event :=
  List.replicate 3 (testEvent 5 .timeout) ++ List.replicate 5 (testEvent 6 (.client 6)) ++
    List.replicate 9 (testEvent 66 .timeout)

/-- As long as the clock is not set back, there is at least the configured interval between the
start and a heartbeat and between one heartbeat and another. -/
theorem heartbeats_apart {ρ : Type} (cfg : Config ρ) (collectorHash : HashId)
    (timestamp : Timeval → Text) (told : Timeval) (after : Int) (events : List Event)
    (nonneg : 0 ≤ cfg.maxConcurrentRouters)
    (forward : (told.sec :: after :: events.flatMap Event.readings).Pairwise (· ≤ ·)) :
    (run cfg collectorHash timestamp told after events).records.Pairwise fun a b =>
      a.code.Beat → b.code = .heartbeat → cfg.heartbeatInterval ≤ b.time.sec - a.time.sec := by
  obtain ⟨clock, -, paced⟩ := run_paced nonneg forward
  exact paced.apart

theorem heartbeats_apart_one_router :
    (run testConfig (.replicate 16 0) (fun _ => []) ⟨0, 0⟩ 0 testEvents).records.Pairwise fun a b =>
      a.code.Beat → b.code = .heartbeat → 60 ≤ b.time.sec - a.time.sec :=
  heartbeats_apart testConfig (.replicate 16 0) (fun _ => []) ⟨0, 0⟩ 0 testEvents (by decide)
    (by decide)

end SonicBmp.Collector
