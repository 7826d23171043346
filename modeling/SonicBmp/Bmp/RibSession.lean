/- module: SonicBmp/Bmp/RibSession
   digest: The RIB tables over a whole session of route-monitoring messages. -/

import SonicBmp.Library.History
import SonicBmp.Bmp.RouteMonitoring

set_option autoImplicit false
set_option relaxedAutoImplicit false

namespace SonicBmp.Bmp.RibSession

open SonicBmp.Library.Printing
open SonicBmp.Library.History
open SonicBmp.Bgp.Common
open SonicBmp.Bgp.Attributes (Latches)
open SonicBmp.Bgp.Nlri
open SonicBmp.Bgp.MpCodec
open SonicBmp.Bgp.Update
open SonicBmp.Bgp.UpdateDb
open SonicBmp.Bus.Interface
open SonicBmp.Bus.Redis
open SonicBmp.Bmp.ParseBmp
open SonicBmp.Bmp.Reader
open SonicBmp.Bmp.RouteMonitoring

/-! The routes of an UPDATE as the RIB tables name them. -/

/-- The message advertises the route; the time of day plays no part in the peer's table
and address. -/
def Advertises (msg : UnicastMsg) (route : RibRoute) : Prop :=
  ∃ tuple ∈ msg.update.advertises,
    route.Is (msg.routeMsg.peer (0, 0)) tuple.prefixText tuple.len

def Withdraws (msg : UnicastMsg) (route : RibRoute) : Prop :=
  ∃ tuple ∈ msg.update.withdraws,
    route.Is (msg.routeMsg.peer (0, 0)) tuple.prefixText tuple.len

theorem advertises_printed {ap : AddPathModes} (u : UpdateMessage ap) :
    ∀ tuple ∈ u.advertises, ∃ isIPv4 src, tuple.prefixText = inetNtop isIPv4 src := by
  intro tuple here
  rcases List.mem_append.mp here with here | here
  · obtain ⟨attr, -, here⟩ := List.mem_flatMap.mp here
    cases body : attr.body with
    | reach r =>
      rw [body] at here
      obtain ⟨p, -, rfl⟩ := List.mem_map.mp here
      exact ⟨r.isIPv4, p.bin, rfl⟩
    | unreach u => rw [body] at here; cases here
    | endOfRib isIPv4 => rw [body] at here; cases here
    | other code value notMp => rw [body] at here; cases here
  · obtain ⟨p, -, rfl⟩ := List.mem_map.mp here
    exact ⟨true, p.bin, rfl⟩

theorem ribEntry_advertised {ap : AddPathModes} (u : UpdateMessage ap) {tuple : PrefixTuple}
    (here : tuple ∈ u.advertises) :
    (ribEntry tuple).prefixText = tuple.prefixText ∧
      ∀ c ∈ (ribEntry tuple).prefixText, AddressChar c := by
  obtain ⟨isIPv4, src, text⟩ := advertises_printed u tuple here
  have whole : (ribEntry tuple).prefixText = tuple.prefixText := by
    rw [ribEntry, text]
    exact List.take_of_length_le (inetNtop_length_le isIPv4 src)
  refine ⟨whole, ?_⟩
  rw [whole, text]
  exact inetNtop_chars isIPv4 src

def AddPathOff (peers : PeerInfoMap) : Prop :=
  ∀ key, (peers.at key).addPathUnicast = fun _ => false

theorem addPathOff_none : AddPathOff (fun _ => none) := fun _ => rfl

theorem AddPathOff.update {peers : PeerInfoMap} (off : AddPathOff peers) (key : Text)
    {info : PeerInfo} (off' : info.addPathUnicast = fun _ => false) :
    AddPathOff (Function.update peers key (some info)) := by
  intro key'
  by_cases same : key' = key
  · rw [same, PeerInfoMap.at_update_self]
    exact off'
  · rw [PeerInfoMap.at_update_of_ne _ same]
    exact off key'

theorem addPathOff_of_latches {before after : PeerInfo} (latches : Latches before after)
    (off : before.addPathUnicast = fun _ => false) : after.addPathUnicast = fun _ => false := by
  funext isIPv4
  rw [latches.addPathUnicast isIPv4, off]

section

variable {D : Decoders} {redisMgr : RedisManager} {separator : Char}

/-- One message: the session goes on behind it, with add-path still off. -/
theorem readIncomingMsg_continues (env : Env) (peers : PeerInfoMap) (off : AddPathOff peers)
    (msg : UnicastMsg) (rest : List UInt8) :
    ∃ peers', AddPathOff peers' ∧
      (readIncomingMsg D env peers (msg.routeMsg.bytes ++ rest)).result =
        .ok (true, peers', rest) := by
  have before : (msg.routeMsg.info env peers).addPathUnicast = fun _ => false :=
    (noteTwoOctet_addPathUnicast _ _).trans (off _)
  obtain ⟨-, -, -, -, latches⟩ := msg.published (D := D) env _ before
  rw [readIncomingMsg_routeMsg]
  exact ⟨_, off.update _ (addPathOff_of_latches latches before), rfl⟩

/-- One message: exactly the keys of its advertised routes are added. -/
theorem store_step (one : redisMgr.separator = [separator]) (stop : separator.isDigit = false)
    (enabled : ∀ table, table ≠ .nei → redisMgr.enabledTables table = true) (store : Store)
    (env : Env) (peers : PeerInfoMap) (off : AddPathOff peers) (msg : UnicastMsg)
    (rest : List UInt8) (route : RibRoute) :
    store.after redisMgr (readIncomingMsg D env peers (msg.routeMsg.bytes ++ rest)).calls
        (route.key separator) = true ↔
      store (route.key separator) = true ∨ Advertises msg route := by
  have asCalls : store.after redisMgr
      (readIncomingMsg D env peers (msg.routeMsg.bytes ++ rest)).calls =
      store.after redisMgr ([.updatePeer (msg.routeMsg.peer env.clock) none none .first] ++
        [.updateUnicastPrefix (msg.routeMsg.peer env.clock) (msg.update.advertises.map ribEntry)
          (some (freshAttr env.memory)) .add]) := by
    rw [Store.after, commands_unicastMsg D redisMgr env peers msg rest (off _)]
    simp [Store.after, commands, updateUnicastPrefix, List.flatMap_map]
  have rib : ribTable (msg.routeMsg.peer env.clock) ≠ .nei := by
    unfold ribTable
    split <;> decide
  rw [asCalls, Store.after_append, Store.after_add one stop _ _ (enabled _ rib),
    Store.after_updatePeer one]
  · have named (tuple : PrefixTuple) (inList : tuple ∈ msg.update.advertises) :
        route.Is (msg.routeMsg.peer env.clock) (ribEntry tuple).prefixText tuple.len ↔
          route.Is (msg.routeMsg.peer (0, 0)) tuple.prefixText tuple.len := by
      obtain ⟨table, addr⟩ := msg.routeMsg.peer_clock env.clock (0, 0)
      rw [RibRoute.Is, RibRoute.Is, (ribEntry_advertised msg.update inList).1, table, addr]
    refine or_congr_right ⟨?_, ?_⟩
    · rintro ⟨r, here, names⟩
      obtain ⟨tuple, inList, rfl⟩ := List.mem_map.mp here
      exact ⟨tuple, inList, (named tuple inList).mp names⟩
    · rintro ⟨tuple, inList, names⟩
      exact ⟨ribEntry tuple, List.mem_map_of_mem inList, (named tuple inList).mpr names⟩
  · intro r here
    obtain ⟨tuple, inList, rfl⟩ := List.mem_map.mp here
    exact (ribEntry_advertised msg.update inList).2

def sessionBytes (msgs : List UnicastMsg) : List UInt8 :=
  msgs.flatMap (fun msg => msg.routeMsg.bytes)

/-- A run of the reader: after `n` messages the keys of all routes that they advertise
have been added, and nothing else has happened to the RIB tables. -/
theorem store_run (one : redisMgr.separator = [separator]) (stop : separator.isDigit = false)
    (enabled : ∀ table, table ≠ .nei → redisMgr.enabledTables table = true) (n : Nat)
    (envs : Nat → Env) (peers : PeerInfoMap) (off : AddPathOff peers) (store : Store)
    (msgs : List UnicastMsg) (inside : n ≤ msgs.length) (route : RibRoute) :
    store.after redisMgr (readerThreadLoop D envs n peers (sessionBytes msgs)).1
        (route.key separator) = true ↔
      store (route.key separator) = true ∨ ∃ msg ∈ msgs.take n, Advertises msg route := by
  induction n generalizing envs peers store msgs with
  | zero => simp [readerThreadLoop, Store.after]
  | succ n ih =>
    cases msgs with
    | nil => simp at inside
    | cons msg msgs =>
      have bytes : sessionBytes (msg :: msgs) = msg.routeMsg.bytes ++ sessionBytes msgs := rfl
      obtain ⟨peers', off', round⟩ := readIncomingMsg_continues (D := D) (envs 0) peers off msg
        (sessionBytes msgs)
      rw [bytes, readerThreadLoop_succ D round, Store.after_append,
        ih _ peers' off' _ msgs (by simpa using inside),
        store_step one stop enabled store (envs 0) peers off msg]
      simp only [List.take_succ_cons, List.mem_cons, exists_eq_or_imp, or_assoc]

/-- The database after `n` messages of a session that starts with empty tables and no
known peer. -/
def sessionStore (D : Decoders) (redisMgr : RedisManager) (envs : Nat → Env)
    (msgs : List UnicastMsg) (n : Nat) : Store :=
  Store.after redisMgr (fun _ => false)
    (readerThreadLoop D envs n (fun _ => none) (sessionBytes msgs)).1

/-- The RIB tables hold, after every message, exactly the routes whose last mention is an
advertisement, if and only if no message withdraws a route that an earlier one has
advertised. -/
theorem rib_exact_iff (one : redisMgr.separator = [separator])
    (stop : separator.isDigit = false)
    (enabled : ∀ table, table ≠ .nei → redisMgr.enabledTables table = true) (envs : Nat → Env)
    (msgs : List UnicastMsg)
    (disjoint : ∀ msg ∈ msgs, ∀ route, ¬ (Advertises msg route ∧ Withdraws msg route)) :
    (∀ n ≤ msgs.length, ∀ route : RibRoute,
      sessionStore D redisMgr envs msgs n (route.key separator) = true ↔
        LastAdds Advertises Withdraws (msgs.take n) route) ↔
      NeverUndoes Advertises Withdraws msgs := by
  rw [← growOnly_exact_iff disjoint]
  refine forall₃_congr (fun n inside route => iff_congr ?_ Iff.rfl)
  rw [sessionStore, store_run one stop enabled n envs _ addPathOff_none _ msgs inside route]
  simp only [Bool.false_eq_true, false_or]

end

def tenWithdrawal : UnicastMsg where
  header := List.replicate 42 0
  update := ⟨[tenSlashEight], [], [], by decide⟩
  header_length := rfl
  fits := by decide

/-- `10.0.0.0/8` in Adj-RIB-In of the peer `0.0.0.0`. -/
def tenRoute : RibRoute where
  table := .ribIn
  prefixText := "10.0.0.0".toList
  prefixLen := 8
  peerAddr := "0.0.0.0".toList
  inRib := by decide
  printed := by
    rw [show "10.0.0.0".toList = inetNtop true [10, 0, 0, 0] by decide]
    exact inetNtop_chars true _

private theorem tenMsg_advertises : Advertises (tenMsg 0 0) tenRoute :=
  ⟨_, List.mem_cons_self, by unfold RibRoute.Is; decide +kernel⟩

private theorem tenMsg_withdraws (route : RibRoute) : ¬ Withdraws (tenMsg 0 0) route := by
  rintro ⟨tuple, here, -⟩
  cases here

theorem rib_exact_ten :
    sessionStore Decoders.silent allTables (fun _ => quietEnv) [tenMsg 0 0] 1
      (tenRoute.key '|') = true := by
  have never : NeverUndoes Advertises Withdraws [tenMsg 0 0] := by
    intro before msg after split route withdrawn
    have this : msg = tenMsg 0 0 := List.mem_singleton.mp (by rw [split]; simp)
    exact absurd (this ▸ withdrawn) (tenMsg_withdraws route)
  have disjoint : ∀ msg ∈ [tenMsg 0 0], ∀ route,
      ¬ (Advertises msg route ∧ Withdraws msg route) := by
    intro msg here route both
    rw [List.mem_singleton.mp here] at both
    exact tenMsg_withdraws route both.2
  have one : allTables.separator = ['|'] := rfl
  have enabled : ∀ table, table ≠ .nei → allTables.enabledTables table = true := fun _ _ => rfl
  have present := (rib_exact_iff (D := Decoders.silent) one (by decide) enabled
    (fun _ => quietEnv) [tenMsg 0 0] disjoint).mpr never
  exact (present 1 le_rfl tenRoute).mpr ⟨[], tenMsg 0 0, [], rfl, tenMsg_advertises, by simp⟩

/-- The route is still there after its last mention withdrew it. -/
theorem withdrawn_route_stays :
    tenRoute.key '|' = "BGP_RIB_IN_TABLE|10.0.0.0/8|0.0.0.0".toList ∧
      sessionStore Decoders.silent allTables (fun _ => quietEnv) [tenMsg 0 0, tenWithdrawal] 2
        (tenRoute.key '|') = true ∧
      ¬ LastAdds Advertises Withdraws [tenMsg 0 0, tenWithdrawal] tenRoute := by
  refine ⟨by decide, ?_, ?_⟩
  · rw [sessionStore, store_run rfl (by decide) (fun _ _ => rfl) 2 _ _ addPathOff_none _ _ le_rfl]
    exact Or.inr ⟨_, List.mem_cons_self, tenMsg_advertises⟩
  · have removed : Withdraws tenWithdrawal tenRoute :=
      ⟨_, List.mem_cons_self, by unfold RibRoute.Is; decide +kernel⟩
    have kept : ¬ Advertises tenWithdrawal tenRoute := by
      rintro ⟨tuple, here, -⟩
      cases here
    change ¬ LastAdds Advertises Withdraws ([tenMsg 0 0] ++ [tenWithdrawal]) tenRoute
    exact not_lastAdds_concat removed kept

end SonicBmp.Bmp.RibSession
