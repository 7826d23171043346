/- module: SonicBmp/Bus/KafkaPeers
   digest: The peer cache of the Kafka bus against the peer records it has produced. -/

import SonicBmp.Bus.Kafka
import Mathlib.Data.List.Induction

set_option autoImplicit false
set_option relaxedAutoImplicit false

namespace SonicBmp.Bus.KafkaPeers

open SonicBmp.Library.Printing (Text)
open SonicBmp.Bus.Interface
open SonicBmp.Bus.Kafka

/-! What the peer records of a history say. -/

def announcedAfter (hash : Text) (known : Bool) : KafkaRecord → Bool
  | .peer action _ h _ _ _ => if h = hash then decide (action ≠ .down) else known
  | _ => known

/-- A first or up record was produced for the hash, and no down record since. -/
def announced (records : List KafkaRecord) (hash : Text) : Bool :=
  records.foldl (announcedAfter hash) false

/-- The FIRST call produces a first record for its peer. -/
def EmitsFirst (md5 : Md5) (bus : MsgBusKafka) (peer : KafkaPeer) (up : Option ObjPeerUpEvent)
    (down : Option ObjPeerDownEvent) : Prop :=
  ∃ seq object up' down', KafkaRecord.peer .first seq (peerHash md5 peer) object up' down' ∈
    (bus.updatePeer md5 peer up down .first).2

theorem emitsFirst_iff (md5 : Md5) (bus : MsgBusKafka) (peer : KafkaPeer)
    (up : Option ObjPeerUpEvent) (down : Option ObjPeerDownEvent) :
    EmitsFirst md5 bus peer up down ↔ bus.peerList (peerHash md5 peer) = false := by
  unfold EmitsFirst MsgBusKafka.updatePeer
  by_cases cached : bus.peerList (peerHash md5 peer) = true
  · simp [cached]
  · simp [cached]

/-! What the calls of a history say. -/

/-- FIRST, and UP with its event, announce their peer. -/
def Announces (md5 : Md5) (hash : Text) : KafkaCall → Prop
  | .updatePeer peer up _ code =>
    peerHash md5 peer = hash ∧ (code = .first ∨ code = .up ∧ up.isSome = true)
  | _ => False

def Known (md5 : Md5) (calls : List KafkaCall) (hash : Text) : Prop :=
  ∃ call ∈ calls, Announces md5 hash call

/-- The cache entry that a call other than `update_Peer` looks up, and so creates. -/
def lookedUp : KafkaCall → Option Text
  | .updateRouter _ _ | .updatePeer _ _ _ _ => none
  | .updateBaseAttribute peer _ | .updateLs _ peer _ _ | .addStatReport peer _ =>
    some (hashToStr peer.hashId)
  | .updateUnicastPrefix peer rib attr code =>
    if abandoned rib attr code then none else some (hashToStr peer.hashId)
  | .updateL3Vpn peer vpn attr code =>
    if abandoned vpn attr code then none else some (hashToStr peer.hashId)
  | .updateEVPN peer vpn attr code =>
    if abandoned vpn attr code then none else some (hashToStr peer.hashId)
  | .sendBmpRaw peer data => if data.length = 0 then none else some (hashToStr peer.hashId)

/-- What keeps the cache in step with the records: no DOWN with its event at all, no DOWN
without it for a known peer, no UP without its event that enters an unknown peer, and no
other call for a peer that is not known yet. -/
def InStep (md5 : Md5) (bus : MsgBusKafka) (before : List KafkaCall) (call : KafkaCall) : Prop :=
  match call with
  | .updatePeer peer up down code =>
    match code with
    | .first => True
    | .up => up.isNone = true → bus.topicSel = true → Known md5 before (peerHash md5 peer)
    | .down => down.isNone = true ∧ ¬ Known md5 before (peerHash md5 peer)
  | call => ∀ hash, lookedUp call = some hash → ∀ peer, peerHash md5 peer = hash →
      Known md5 before hash

/-! One call. -/

section Step

variable {md5 : Md5} {bus : MsgBusKafka}

/-- A call other than `update_Peer` produces no peer record and enters what it looks up. -/
theorem step_lookedUp (call : KafkaCall)
    (other : ∀ peer up down code, call ≠ .updatePeer peer up down code) :
    (∀ hash known, (bus.step md5 call).2.foldl (announcedAfter hash) known = known) ∧
      (bus.step md5 call).1.peerList =
        (lookedUp call).elim bus.peerList (fun hash => Function.update bus.peerList hash true) := by
  cases call with
  | updatePeer peer up down code => exact absurd rfl (other peer up down code)
  | updateRouter router code =>
    simp only [MsgBusKafka.step, MsgBusKafka.updateRouter, lookedUp, Option.elim_none]
    cases code <;> simp only [reduceCtorEq, if_false, if_true, false_and, true_and, ne_eq,
      not_true_eq_false, not_false_eq_true]
    · split
      · exact ⟨fun _ _ => rfl, rfl⟩
      · exact ⟨fun _ _ => rfl, rfl⟩
    · exact ⟨fun _ _ => rfl, rfl⟩
    · exact ⟨fun _ _ => rfl, rfl⟩
  | updateBaseAttribute peer attr => exact ⟨fun _ _ => rfl, rfl⟩
  | updateLs object peer rows code => exact ⟨fun _ _ => rfl, rfl⟩
  | addStatReport peer stats => exact ⟨fun _ _ => rfl, rfl⟩
  | updateUnicastPrefix peer rib attr code =>
    simp only [MsgBusKafka.step, MsgBusKafka.updateUnicastPrefix, lookedUp]
    split <;> exact ⟨fun _ _ => rfl, rfl⟩
  | updateL3Vpn peer vpn attr code =>
    simp only [MsgBusKafka.step, MsgBusKafka.updateL3Vpn, lookedUp]
    split <;> exact ⟨fun _ _ => rfl, rfl⟩
  | updateEVPN peer vpn attr code =>
    simp only [MsgBusKafka.step, MsgBusKafka.updateEVPN, lookedUp]
    split <;> exact ⟨fun _ _ => rfl, rfl⟩
  | sendBmpRaw peer data =>
    simp only [MsgBusKafka.step, MsgBusKafka.sendBmpRaw, lookedUp]
    split <;> exact ⟨fun _ _ => rfl, rfl⟩

/-- The cache entry of the peer after `update_Peer`. -/
def entryAfter (topicSel cached : Bool) (up : Option ObjPeerUpEvent)
    (down : Option ObjPeerDownEvent) : PeerActionCode → Bool
  | .first => true
  | .up => up.isSome || topicSel || cached
  | .down => down.isSome

/-- What the records say about the peer after `update_Peer`. -/
def knownAfter (cached known : Bool) (up : Option ObjPeerUpEvent)
    (down : Option ObjPeerDownEvent) : PeerActionCode → Bool
  | .first => !cached || known
  | .up => up.isSome || known
  | .down => down.isNone && known

theorem step_updatePeer (peer : KafkaPeer) (up : Option ObjPeerUpEvent)
    (down : Option ObjPeerDownEvent) (code : PeerActionCode) (hash : Text) :
    let cached := bus.peerList (peerHash md5 peer)
    let after := bus.step md5 (.updatePeer peer up down code)
    (after.1.peerList hash = if hash = peerHash md5 peer then
        entryAfter bus.topicSel cached up down code else bus.peerList hash) ∧
      ∀ known, after.2.foldl (announcedAfter hash) known = if hash = peerHash md5 peer then
        knownAfter cached known up down code else known := by
  by_cases own : hash = peerHash md5 peer
  · subst own
    cases code with
    | first =>
      cases cached : bus.peerList (peerHash md5 peer) <;> cases sel : bus.topicSel <;>
        simp [MsgBusKafka.step, MsgBusKafka.updatePeer, cached, sel, MsgBusKafka.producePeer,
          MsgBusKafka.produce, MsgBusKafka.lookup, entryAfter, knownAfter, announcedAfter]
    | up =>
      cases event : up.isSome <;> cases sel : bus.topicSel <;>
        simp [MsgBusKafka.step, MsgBusKafka.updatePeer, event, sel, MsgBusKafka.producePeer,
          MsgBusKafka.produce, MsgBusKafka.lookup, entryAfter, knownAfter, announcedAfter]
    | down =>
      cases down <;>
        simp [MsgBusKafka.step, MsgBusKafka.updatePeer, MsgBusKafka.producePeer,
          MsgBusKafka.produce, MsgBusKafka.lookup, MsgBusKafka.erase, entryAfter, knownAfter,
          announcedAfter]
  · have own' : peerHash md5 peer ≠ hash := fun same => own same.symm
    cases code with
    | first =>
      cases cached : bus.peerList (peerHash md5 peer) <;> cases sel : bus.topicSel <;>
        simp [MsgBusKafka.step, MsgBusKafka.updatePeer, cached, sel, MsgBusKafka.producePeer,
          MsgBusKafka.produce, MsgBusKafka.lookup, announcedAfter, own, own', Function.update]
    | up =>
      cases event : up.isSome <;> cases sel : bus.topicSel <;>
        simp [MsgBusKafka.step, MsgBusKafka.updatePeer, event, sel, MsgBusKafka.producePeer,
          MsgBusKafka.produce, MsgBusKafka.lookup, announcedAfter, own, own', Function.update]
    | down =>
      cases down <;>
        simp [MsgBusKafka.step, MsgBusKafka.updatePeer, MsgBusKafka.producePeer,
          MsgBusKafka.produce, MsgBusKafka.lookup, MsgBusKafka.erase, announcedAfter, own, own',
          Function.update]

end Step

theorem announced_append (records records' : List KafkaRecord) (hash : Text) :
    announced (records ++ records') hash =
      records'.foldl (announcedAfter hash) (announced records hash) := by
  rw [announced, List.foldl_append]
  rfl

theorem known_append (md5 : Md5) (calls : List KafkaCall) (call : KafkaCall) (hash : Text) :
    Known md5 (calls ++ [call]) hash ↔ Known md5 calls hash ∨ Announces md5 hash call := by
  simp only [Known, List.mem_append, List.mem_singleton, or_and_right, exists_or, exists_eq_left]

/-- Cache, records and calls agree about every peer. -/
def Agrees (md5 : Md5) (bus : MsgBusKafka) (records : List KafkaRecord) (calls : List KafkaCall) :
    Prop :=
  ∀ peer : KafkaPeer, bus.peerList (peerHash md5 peer) = announced records (peerHash md5 peer) ∧
    (announced records (peerHash md5 peer) = true ↔ Known md5 calls (peerHash md5 peer))

/-- Cache and records agree about every peer, whatever the calls were. -/
def Matches (md5 : Md5) (bus : MsgBusKafka) (records : List KafkaRecord) : Prop :=
  ∀ peer : KafkaPeer, bus.peerList (peerHash md5 peer) = announced records (peerHash md5 peer)

section Agreement

variable {md5 : Md5} {bus : MsgBusKafka} {records : List KafkaRecord} {calls : List KafkaCall}

private theorem agrees_updatePeer (agrees : Agrees md5 bus records calls) (peer : KafkaPeer)
    (up : Option ObjPeerUpEvent) (down : Option ObjPeerDownEvent) (code : PeerActionCode)
    (inStep : InStep md5 bus calls (.updatePeer peer up down code)) :
    let now := bus.step md5 (.updatePeer peer up down code)
    Agrees md5 now.1 (records ++ now.2) (calls ++ [.updatePeer peer up down code]) := by
  intro now other
  obtain ⟨cached, known⟩ := agrees peer
  obtain ⟨entry, said⟩ := @step_updatePeer md5 bus peer up down code (peerHash md5 other)
  rw [entry, announced_append, said, known_append]
  by_cases own : peerHash md5 other = peerHash md5 peer
  · rw [if_pos own, if_pos own, own]
    cases code with
    | first => simp [entryAfter, knownAfter, Announces, ← cached]
    | up =>
      cases event : up.isSome with
      | true => simp [entryAfter, knownAfter, Announces, event]
      | false =>
        have entered : bus.topicSel = true → announced records (peerHash md5 peer) = true :=
          fun sel => known.mpr (inStep (by simpa using event) sel)
        simp only [entryAfter, knownAfter, Announces, event, cached, Bool.false_or, reduceCtorEq,
          Bool.false_eq_true, and_false, or_false]
        exact ⟨by cases sel : bus.topicSel <;> simp_all, known⟩
    | down =>
      obtain ⟨noEvent, unknown⟩ := inStep
      have silent : announced records (peerHash md5 peer) = false := by
        rw [← Bool.not_eq_true]
        exact fun said => unknown (known.mp said)
      have none_left : down.isSome = false := by simpa using noEvent
      simp [entryAfter, knownAfter, Announces, silent, none_left, unknown]
  · have silent : ¬ Announces md5 (peerHash md5 other) (.updatePeer peer up down code) :=
      fun told => own told.1.symm
    rw [if_neg own, if_neg own]
    exact ⟨(agrees other).1, by simpa only [silent, or_false] using (agrees other).2⟩

/-- Only a call that is in step leaves the cache and the records matching. -/
private theorem inStep_updatePeer (agrees : Agrees md5 bus records calls) (peer : KafkaPeer)
    (up : Option ObjPeerUpEvent) (down : Option ObjPeerDownEvent) (code : PeerActionCode)
    (same : let now := bus.step md5 (.updatePeer peer up down code)
      Matches md5 now.1 (records ++ now.2)) :
    InStep md5 bus calls (.updatePeer peer up down code) := by
  obtain ⟨-, known⟩ := agrees peer
  have after := same peer
  obtain ⟨entry, said⟩ := @step_updatePeer md5 bus peer up down code (peerHash md5 peer)
  rw [entry, announced_append, said, if_pos rfl, if_pos rfl] at after
  cases code with
  | first => trivial
  | up =>
    intro noEvent sel
    have none_left : up.isSome = false := by simpa using noEvent
    simp only [entryAfter, knownAfter, none_left, sel, Bool.false_or, Bool.true_or] at after
    exact known.mp after.symm
  | down =>
    simp only [entryAfter, knownAfter] at after
    cases event : down with
    | some event' => simp [event] at after
    | none =>
      simp only [event, Option.isSome_none, Option.isNone_none, Bool.true_and] at after
      exact ⟨rfl, fun told => by simp [known.mpr told] at after⟩

private theorem agrees_step (agrees : Agrees md5 bus records calls) (call : KafkaCall) :
    let now := bus.step md5 call
    (InStep md5 bus calls call → Agrees md5 now.1 (records ++ now.2) (calls ++ [call])) ∧
      (Matches md5 now.1 (records ++ now.2) → InStep md5 bus calls call) := by
  by_cases isPeer : ∃ peer up down code, call = .updatePeer peer up down code
  · obtain ⟨peer, up, down, code, rfl⟩ := isPeer
    exact ⟨agrees_updatePeer agrees peer up down code, inStep_updatePeer agrees peer up down code⟩
  · have other : ∀ peer up down code, call ≠ .updatePeer peer up down code :=
      fun peer up down code same => isPeer ⟨peer, up, down, code, same⟩
    obtain ⟨silent, entered⟩ := @step_lookedUp md5 bus call other
    have quiet (hash : Text) : ¬ Announces md5 hash call := by
      cases call with
      | updatePeer peer up down code => exact absurd rfl (other peer up down code)
      | _ => exact id
    have rule : InStep md5 bus calls call ↔ ∀ hash, lookedUp call = some hash →
        ∀ peer, peerHash md5 peer = hash → Known md5 calls hash := by
      cases call with
      | updatePeer peer up down code => exact absurd rfl (other peer up down code)
      | _ => exact Iff.rfl
    dsimp only
    rw [rule]
    constructor
    · intro inStep peer
      rw [announced_append, silent, known_append]
      refine ⟨?_, by simpa only [quiet, or_false] using (agrees peer).2⟩
      rw [entered]
      cases found : lookedUp call with
      | none => exact (agrees peer).1
      | some hash =>
        by_cases own : peerHash md5 peer = hash
        · have known := (agrees peer).2.mpr (own ▸ inStep hash found peer own)
          simp [own, ← own ▸ known]
        · simp [Function.update_of_ne own, (agrees peer).1]
    · intro same hash found peer own
      have after := same peer
      rw [announced_append, silent, entered, found] at after
      subst own
      simp only [Option.elim_some, Function.update_self] at after
      exact (agrees peer).2.mp after.symm

/-- Every call of a history comes in step with the calls before it. -/
def AllInStep (md5 : Md5) (start : MsgBusKafka) (calls : List KafkaCall) : Prop :=
  ∀ before call after, calls = before ++ call :: after →
    InStep md5 (start.run md5 before).1 before call

private theorem allInStep_append {md5 : Md5} {start : MsgBusKafka} {calls : List KafkaCall}
    {call : KafkaCall} : AllInStep md5 start (calls ++ [call]) ↔
      AllInStep md5 start calls ∧ InStep md5 (start.run md5 calls).1 calls call := by
  constructor
  · intro inStep
    exact ⟨fun before c after split => inStep before c (after ++ [call]) (by simp [split]),
      inStep calls call [] rfl⟩
  · rintro ⟨inStep, last⟩ before c after split
    rcases List.eq_nil_or_concat after with rfl | ⟨after, d, rfl⟩
    · obtain ⟨rfl, same⟩ := List.append_inj' split rfl
      obtain rfl : call = c := by simpa using same
      exact last
    · have parts : calls ++ [call] = (before ++ c :: after) ++ [d] := by simpa using split
      exact inStep before c after (List.append_inj' parts rfl).1

private theorem run_snoc (md5 : Md5) (start : MsgBusKafka) (calls : List KafkaCall)
    (call : KafkaCall) :
    start.run md5 (calls ++ [call]) =
      let bus := (start.run md5 calls).1
      ((bus.step md5 call).1, (start.run md5 calls).2 ++ (bus.step md5 call).2) := by
  simp [MsgBusKafka.run_append, MsgBusKafka.run]

private theorem agrees_run {start : MsgBusKafka} (empty : ∀ hash, start.peerList hash = false)
    (calls : List KafkaCall) (inStep : AllInStep md5 start calls) :
    Agrees md5 (start.run md5 calls).1 (start.run md5 calls).2 calls := by
  induction calls using List.reverseRecOn with
  | nil =>
    intro peer
    simp [MsgBusKafka.run, empty, announced, Known]
  | append_singleton calls call ih =>
    obtain ⟨earlier, last⟩ := allInStep_append.mp inStep
    rw [run_snoc]
    exact (agrees_step (ih earlier) call).1 last

/-- The calls come in step exactly when cache and records match all along. -/
private theorem allInStep_iff_matches {start : MsgBusKafka}
    (empty : ∀ hash, start.peerList hash = false) (calls : List KafkaCall) :
    AllInStep md5 start calls ↔ ∀ before after, calls = before ++ after →
      Matches md5 (start.run md5 before).1 (start.run md5 before).2 := by
  constructor
  · intro inStep before after split peer
    have earlier : AllInStep md5 start before := fun first call rest here =>
      inStep first call (rest ++ after) (by simp [split, here])
    exact (agrees_run empty before earlier peer).1
  · intro same
    induction calls using List.reverseRecOn with
    | nil =>
      intro before call after split
      simp at split
    | append_singleton calls call ih =>
      have earlier := ih fun before after split =>
        same before (after ++ [call]) (by simp [split])
      have now := same (calls ++ [call]) [] (by simp)
      rw [run_snoc] at now
      have last := (agrees_step (agrees_run empty calls earlier) call).2 now
      exact allInStep_append.mpr ⟨earlier, last⟩

end Agreement

/-- At every point of a history a FIRST call would be answered by a first record exactly for
the peers not announced since their last down record, iff all calls come in step. -/
theorem emitsFirst_exact_iff (md5 : Md5) (topicSel : Bool) (calls : List KafkaCall) :
    (∀ before after, calls = before ++ after →
        let history := (MsgBusKafka.new topicSel).run md5 before
        ∀ peer up down, EmitsFirst md5 history.1 peer up down ↔
          announced history.2 (peerHash md5 peer) = false) ↔
      AllInStep md5 (MsgBusKafka.new topicSel) calls := by
  rw [allInStep_iff_matches (fun _ => rfl) calls]
  constructor
  · intro answers before after split peer
    have answered := answers before after split peer none none
    rw [emitsFirst_iff] at answered
    exact Bool.eq_iff_iff.mpr (not_iff_not.mp (by simpa using answered))
  · intro same before after split history peer up down
    rw [emitsFirst_iff, same before after split peer]

private def downEvent : ObjPeerDownEvent := ⟨1, 6, 2, "Cease".toList⟩

private def plainPeer : KafkaPeer := ⟨ObjBgpPeer.zero, HashId.zero, HashId.zero, []⟩

/-- A peer that went down is announced again, but no record says so: `produce` was given
the cache entry that the DOWN call had just erased, and that entered it again. -/
theorem first_after_down_is_silent :
    let md5 : Md5 := fun _ => HashId.zero
    let history := (MsgBusKafka.new true).run md5
      [.updatePeer plainPeer none none .first, .updatePeer plainPeer none (some downEvent) .down]
    history.2.length = 2 ∧ announced history.2 (peerHash md5 plainPeer) = false ∧
      (history.1.updatePeer md5 plainPeer none none .first).2 = [] ∧
      ¬ EmitsFirst md5 history.1 plainPeer none none := by
  simp [MsgBusKafka.run, MsgBusKafka.step, MsgBusKafka.updatePeer, MsgBusKafka.new,
    MsgBusKafka.lookup, MsgBusKafka.producePeer, MsgBusKafka.produce, MsgBusKafka.erase,
    announced, announcedAfter, emitsFirst_iff]

end SonicBmp.Bus.KafkaPeers
