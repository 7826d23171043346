/- module: SonicBmp/Bgp/ParserBounds
   digest: How many turns the loops of the UPDATE parsers take on any bytes. -/

import Mathlib.Algebra.Order.BigOperators.Group.List
import SonicBmp.Bgp.NlriWalk
import SonicBmp.Bgp.LabelCodec
import SonicBmp.Bgp.Evpn
import SonicBmp.Bgp.AttrWalk
import SonicBmp.Bgp.AsPathGrammar

set_option autoImplicit false
set_option relaxedAutoImplicit false

namespace SonicBmp.Bgp.ParserBounds

open SonicBmp.Library.Memory
open SonicBmp.Library.Turns
open SonicBmp.Library.Printing (Text decimal)
open SonicBmp.Bgp.Common
open SonicBmp.Bgp.Nlri
open SonicBmp.Bgp.NlriWalk
open SonicBmp.Bgp.LabelCodec (addPathLabel labelStack)
open SonicBmp.Bgp.Evpn
open SonicBmp.Bgp.Attributes
open SonicBmp.Bgp.AttrWalk
open SonicBmp.Bgp.AsPathGrammar

/-! Unicast prefixes. -/

section Unicast

variable (p : NlriParser) (info : PeerInfo) (m : Mem) (data len : Nat)

theorem length_turns_le : (p.turns info m data len).length ≤ len := by
  have one := (walk p (p.addPath info) m data len).length_turns_le_div Nat.one_pos
    (walk p (p.addPath info) m data len).advances 0
  simpa [NlriParser.turns, turnsFrom, walk] using one

theorem length_emitted_le (t : NlriTurn) : (p.emitted m data t).length ≤ 1 := by
  cases p with
  | v4 =>
    rw [NlriParser.emitted]
    split
    · exact le_rfl
    · exact Nat.zero_le 1
  | ipv4IPv6 isIPv4 => exact le_rfl

theorem length_parse_le (prefixes : List PrefixTuple) :
    (p.parse info m data len prefixes).length ≤ prefixes.length + len := by
  have emitted : ((p.turns info m data len).flatMap (p.emitted m data)).length ≤
      (p.turns info m data len).length := by
    rw [List.length_flatMap]
    refine (List.sum_le_card_nsmul _ 1 ?_).trans (by simp)
    intro n here
    obtain ⟨t, -, rfl⟩ := List.mem_map.mp here
    exact length_emitted_le p m data t
  have turns := length_turns_le p info m data len
  rw [p.parse_eq_turns, List.length_append]
  omega

end Unicast

/-! Labelled prefixes. -/

section Labelled

variable (isIPv4 isVPN addPath : Bool) (m : Mem) (len : Nat)

def labelWalk : CountingLoop LabelCursor where
  bound := len
  count := LabelCursor.readSize
  next c :=
    let next := labelEntry isIPv4 isVPN addPath m len c
    some { next with readSize := next.readSize + 1 }
  advances := by
    intro c next _ goes
    cases goes
    exact Nat.lt_succ_of_le (labelEntry_readSize isIPv4 isVPN addPath m len c)

theorem nlriLoopLabel_eq_turns (c : LabelCursor) (prefixes : List VpnTuple) :
    nlriLoopLabel isIPv4 isVPN addPath m len c prefixes =
      prefixes ++ ((labelWalk isIPv4 isVPN addPath m len).turns c).flatMap fun c =>
        [(labelEntry isIPv4 isVPN addPath m len c).tuple] := by
  refine (labelWalk isIPv4 isVPN addPath m len).run_eq_flatMap
    (nlriLoopLabel isIPv4 isVPN addPath m len) _ ?_ ?_ c prefixes
  · intro c acc (done : ¬ c.readSize < len)
    rw [nlriLoopLabel, if_neg done]
  · intro c acc (more : c.readSize < len)
    refine ⟨_, rfl, ?_⟩
    rw [nlriLoopLabel, if_pos more]

variable (stack : VpnTuple) (info : PeerInfo) (data : Nat)

/-- The entries of a whole call, each by the cursor it starts with. -/
def labelTurns : List LabelCursor :=
  (labelWalk isIPv4 isVPN (addPathLabel info isIPv4 isVPN) m len).turns
    ⟨labelStack isIPv4 stack, data, 0⟩

theorem parseLabel_eq_turns :
    parseNlriDataLabelIPv4IPv6 isIPv4 isVPN stack info m data len =
      (labelTurns isIPv4 isVPN m len stack info data).map fun c =>
        (labelEntry isIPv4 isVPN (addPathLabel info isIPv4 isVPN) m len c).tuple := by
  rw [List.map_eq_flatMap, labelTurns]
  by_cases empty : len = 0
  · rw [parseNlriDataLabelIPv4IPv6, if_pos empty, CountingLoop.turns_done]
    · rfl
    · exact Nat.not_lt.mpr (empty ▸ le_rfl)
  · rw [parseNlriDataLabelIPv4IPv6, if_neg empty]
    exact nlriLoopLabel_eq_turns isIPv4 isVPN _ m len _ []

theorem length_labelTurns_le : (labelTurns isIPv4 isVPN m len stack info data).length ≤ len := by
  have one := (labelWalk isIPv4 isVPN (addPathLabel info isIPv4 isVPN) m len).length_turns_le_div
    Nat.one_pos (labelWalk isIPv4 isVPN (addPathLabel info isIPv4 isVPN) m len).advances
    ⟨labelStack isIPv4 stack, data, 0⟩
  simpa [labelTurns, labelWalk] using one

end Labelled

/-! Label stacks. -/

section Stack

variable (m : Mem) (data len : Nat)

/-- The three conditions that end a stack. -/
def endsStack (word : Nat) : Bool := word / 256 % 2 = 1 ∨ word = 0x80000000 ∨ word = 0

def stackWalk : CountingLoop Nat where
  bound := len + 1
  count := id
  next read := if endsStack (labelWord m (data + read)) then none else some (read + 3)
  advances := by
    intro read next _ goes
    obtain ⟨-, rfl⟩ : _ ∧ read + 3 = next := by simpa using goes
    exact Nat.lt_add_of_pos_right (by decide)

/-- What a label adds to the text: its value, and a comma unless it ends the stack. -/
def shownLabel (read : Nat) : Text :=
  decimal (labelWord m (data + read) / 4096) ++
    if endsStack (labelWord m (data + read)) then [] else [',']

theorem decodeLabelLoop_eq_turns (read : Nat) (labels : Text) :
    decodeLabelLoop m len (data + read) read labels =
      (read + 3 * ((stackWalk m data len).turns read).length,
        labels ++ ((stackWalk m data len).turns read).flatMap (shownLabel m data)) := by
  induction read using (stackWalk m data len).induct generalizing labels with
  | done read done =>
    have past : ¬ read ≤ len := fun within => done (Nat.lt_succ_of_le within)
    rw [(stackWalk m data len).turns_done done, decodeLabelLoop, if_neg past]
    simp
  | last read more ends =>
    have within : read ≤ len := Nat.le_of_lt_succ more
    have ended : endsStack (labelWord m (data + read)) = true := by
      simpa [stackWalk] using ends
    rw [(stackWalk m data len).turns_last more ends, decodeLabelLoop, if_pos within]
    refine (if_pos (by simpa [endsStack] using ended)).trans ?_
    simp [shownLabel, ended]
  | step read next more goes ih =>
    have within : read ≤ len := Nat.le_of_lt_succ more
    obtain ⟨going, rfl⟩ : endsStack (labelWord m (data + read)) = false ∧ read + 3 = next := by
      simpa [stackWalk] using goes
    rw [(stackWalk m data len).turns_next more goes, decodeLabelLoop, if_pos within]
    refine (if_neg (by simpa [endsStack] using going)).trans ?_
    rw [Nat.add_assoc data, ih, List.length_cons, List.flatMap_cons]
    simp only [shownLabel, going, Bool.false_eq_true, if_false, List.append_assoc, Prod.mk.injEq,
      and_true]
    omega

/-- The labels of one entry. -/
def stackTurns : List Nat := (stackWalk m data len).turns 0

theorem decodeLabel_eq_turns :
    decodeLabel m data len =
      (3 * (stackTurns m data len).length, (stackTurns m data len).flatMap (shownLabel m data)) := by
  have loop := decodeLabelLoop_eq_turns m data len 0 []
  rw [Nat.zero_add, List.nil_append] at loop
  exact loop

/-- An entry has at most 255 bits, that is 32 bytes. -/
theorem length_stackTurns_le (entry : Nat) :
    (stackTurns m data (addrBytes (u8 m entry))).length ≤ 11 := by
  have bits := u8_lt m entry
  have bytes : addrBytes (u8 m entry) ≤ 32 := by
    unfold addrBytes
    split <;> omega
  have three : ∀ len, (stackTurns m data len).length ≤ (len + 1 + 2) / 3 := by
    intro len
    refine (stackWalk m data len).length_turns_le_div (k := 3) (by decide) ?_ 0
    intro read next more goes
    obtain ⟨-, rfl⟩ : _ ∧ read + 3 = next := by simpa [stackWalk] using goes
    exact le_rfl
  have := three (addrBytes (u8 m entry))
  omega

end Stack

/-! EVPN routes. -/

section Evpn

variable (m : Mem) (data len : Nat)

def evpnTurns : List (Nat × Nat) := (evpnWalk m len).turns (data, 0)

def evpnShown (here : Nat × Nat) : Option EvpnTuple :=
  (evpnTurn m len here.1 here.2).map EvpnCursor.tuple

theorem evpnLoop_eq_turns (here : Nat × Nat) (tuples : List EvpnTuple) :
    evpnLoop m len here.1 here.2 tuples =
      (((evpnWalk m len).turns here).mapM (evpnShown m len)).map (tuples ++ ·) := by
  induction here using (evpnWalk m len).induct generalizing tuples with
  | done here done =>
    have enough : ¬ here.2 + 10 < len := fun more => done (Nat.lt_sub_of_add_lt more)
    rw [(evpnWalk m len).turns_done done, evpnLoop_done enough]
    simp
  | last here more ends =>
    have room : here.2 + 10 < len := Nat.add_lt_of_lt_sub more
    have stuck : evpnTurn m len here.1 here.2 = none := by simpa [evpnWalk] using ends
    rw [(evpnWalk m len).turns_last more ends, evpnLoop_stuck room stuck]
    simp [evpnShown, stuck]
  | step here next more goes ih =>
    have room : here.2 + 10 < len := Nat.add_lt_of_lt_sub more
    obtain ⟨after, turn, rfl⟩ := Option.map_eq_some_iff.mp goes
    rw [(evpnWalk m len).turns_next more goes, evpnLoop_turn room turn, ih]
    cases rest : ((evpnWalk m len).turns (after.data, after.read)).mapM (evpnShown m len) <;>
      simp [evpnShown, turn, rest]

theorem parseEvpn_eq_turns :
    parseNlriData m data len = (evpnTurns m data len).mapM (evpnShown m len) := by
  have loop := evpnLoop_eq_turns m len (data, 0) []
  simp only [List.nil_append, Option.map_id'] at loop
  exact loop

theorem length_of_mapM {α β : Type} {f : α → Option β} {as : List α} {bs : List β}
    (result : as.mapM f = some bs) : bs.length = as.length := by
  induction as generalizing bs with
  | nil =>
    cases result
    rfl
  | cons a as ih =>
    rw [List.mapM_cons] at result
    obtain ⟨b, -, rest⟩ := Option.bind_eq_some_iff.mp result
    obtain ⟨bs', tail, same⟩ := Option.bind_eq_some_iff.mp rest
    cases same
    rw [List.length_cons, List.length_cons, ih tail]

theorem length_evpnTurns_le : (evpnTurns m data len).length ≤ (len - 10 + 9) / 10 := by
  refine (evpnWalk m len).length_turns_le_div (k := 10) (by decide) ?_ (data, 0)
  intro here next more goes
  obtain ⟨after, turn, rfl⟩ := Option.map_eq_some_iff.mp goes
  exact evpnTurn_read turn

end Evpn

/-! Attributes. -/

section Attributes

variable (m : Mem) (base len : Nat)

def attrWalk : CountingLoop Nat where
  bound := len
  count := id
  next offset :=
    let v := visitAt m base len offset
    if v.decoded ∨ v.attrLen = 0 then some v.stop else none
  advances := by
    intro offset next _ goes
    dsimp only at goes
    split at goes
    · cases goes
      exact offset_lt_stop m base len offset
    · cases goes

theorem attrVisits_eq_turns (offset : Nat) :
    attrVisits m base len offset =
      ((attrWalk m base len).turns offset).map (visitAt m base len) := by
  fun_induction attrVisits m base len offset with
  | case1 offset more v goes_on ih =>
    rw [(attrWalk m base len).turns_next more (if_pos goes_on), List.map_cons, ih]
  | case2 offset more v stopped =>
    rw [(attrWalk m base len).turns_last more (if_neg stopped), List.map_singleton]
  | case3 offset done => rw [(attrWalk m base len).turns_done done, List.map_nil]

theorem visitAt_stop_ge (offset : Nat) : offset + 3 ≤ (visitAt m base len offset).stop := by
  have width : 1 ≤ lengthWidth m (base + offset) := by
    unfold lengthWidth
    split <;> decide
  simp only [AttrVisit.stop, AttrVisit.value, visitAt]
  omega

theorem length_sectionVisits_le : (sectionVisits m base len).length ≤ (len + 2) / 3 := by
  rw [sectionVisits]
  split
  · exact Nat.zero_le _
  · rw [attrVisits_eq_turns, List.length_map]
    refine (attrWalk m base len).length_turns_le_div (k := 3) (by decide) ?_ 0
    intro offset next more goes
    obtain ⟨-, rfl⟩ : _ ∧ (visitAt m base len offset).stop = next := by
      simpa [attrWalk] using goes
    exact visitAt_stop_ge m base len offset

end Attributes

/-! AS paths. -/

section AsPath

variable (size : Nat) (m : Mem) (attrLen data : Nat)

/-- The body of the segment loop. -/
def segmentStep (acc : AsPathAcc) (read : Nat) : Option AsPathAcc :=
  let segLen := u8 m (data + read + 1)
  if attrLen - read < 2 + segLen * size then none
  else some (asSetBrace (u8 m (data + read)) '\x7d' (asPathAsns size m segLen (data + read + 2)
    (asSetBrace (u8 m (data + read)) '\x7b' acc)))

theorem asPathLoop_eq_turns (read : Nat) (acc : AsPathAcc) :
    asPathLoop size m (attrLen - read) (data + read) acc =
      ((segmentWalk size m attrLen data).turns read).foldlM (segmentStep size m attrLen data)
        acc := by
  induction read using (segmentWalk size m attrLen data).induct generalizing acc with
  | done read done =>
    have none_left : ¬ 0 < attrLen - read := fun left => done (Nat.lt_of_sub_pos left)
    rw [(segmentWalk size m attrLen data).turns_done done, asPathLoop, if_neg none_left]
    rfl
  | last read more ends =>
    have left : 0 < attrLen - read := Nat.sub_pos_of_lt more
    have short : attrLen - read < 2 + u8 m (data + read + 1) * size := by
      simpa [segmentWalk] using ends
    rw [(segmentWalk size m attrLen data).turns_last more ends, asPathLoop, if_pos left]
    simp [segmentStep, short]
  | step read next more goes ih =>
    have left : 0 < attrLen - read := Nat.sub_pos_of_lt more
    obtain ⟨fits, rfl⟩ : ¬ attrLen - read < 2 + u8 m (data + read + 1) * size ∧
        read + (2 + u8 m (data + read + 1) * size) = next := by
      simpa [segmentWalk] using goes
    rw [(segmentWalk size m attrLen data).turns_next more goes, asPathLoop, if_pos left]
    refine (if_neg fits).trans ?_
    have data' : data + (read + (2 + u8 m (data + read + 1) * size)) =
        data + read + 2 + u8 m (data + read + 1) * size := by omega
    rw [List.foldlM_cons, segmentStep, if_neg fits, Option.bind_eq_bind, Option.bind_some, ← ih,
      Nat.sub_sub, data']

theorem asPathLoop_eq_segmentTurns (enough : size ≤ attrLen) (acc : AsPathAcc) :
    asPathLoop size m attrLen data acc =
      (segmentTurns size m attrLen data).foldlM (segmentStep size m attrLen data) acc := by
  rw [segmentTurns, if_neg (Nat.not_lt.mpr enough), ← asPathLoop_eq_turns]
  rfl

theorem length_segmentTurns_le : (segmentTurns size m attrLen data).length ≤ (attrLen + 1) / 2 := by
  rw [segmentTurns]
  split
  · exact Nat.zero_le _
  · refine (segmentWalk size m attrLen data).length_turns_le_div (k := 2) (by decide) ?_ 0
    intro read next more goes
    obtain ⟨-, rfl⟩ : _ ∧ read + (2 + u8 m (data + read + 1) * size) = next := by
      simpa [segmentWalk] using goes
    show read + 2 ≤ read + (2 + _)
    omega

theorem length_le_of_mem_calls {D : Decoders} (st : UpdateState D) :
    ∀ turns ∈ (asPathCalls m attrLen data st).2, turns.length ≤ attrLen / 2 + 1 := by
  have one (size : Nat) : (segmentTurns size m attrLen data).length ≤ attrLen / 2 + 1 := by
    have := length_segmentTurns_le size m attrLen data
    omega
  intro turns here
  cases width : st.info.using2OctetAsn with
  | true =>
    rw [asPathCalls_two m attrLen data st width, List.mem_singleton] at here
    exact here ▸ one 2
  | false =>
    rw [asPathCalls_four m attrLen data st width] at here
    rcases List.mem_cons.mp here with rfl | again
    · exact one 4
    · split at again
      · exact List.mem_singleton.mp again ▸ one 2
      · cases again

end AsPath

/-- What the loops do on `n` bytes, whatever they are and whatever follows them: each
result comes from the listed turns, and the turns are few. The EVPN loop may also end in a
turn that does not come back from the logger. -/
structure WorkBound (D : Decoders) (m : Mem) (data n : Nat) : Prop where
  unicast : ∀ (p : NlriParser) (info : PeerInfo) (prefixes : List PrefixTuple),
    p.parse info m data n prefixes =
        prefixes ++ (p.turns info m data n).flatMap (p.emitted m data) ∧
      (p.turns info m data n).length ≤ n ∧
      (p.parse info m data n prefixes).length ≤ prefixes.length + n
  labelled : ∀ (isIPv4 isVPN : Bool) (stack : VpnTuple) (info : PeerInfo),
    (parseNlriDataLabelIPv4IPv6 isIPv4 isVPN stack info m data n =
        (labelTurns isIPv4 isVPN m n stack info data).map fun c =>
          (labelEntry isIPv4 isVPN (addPathLabel info isIPv4 isVPN) m n c).tuple) ∧
      (labelTurns isIPv4 isVPN m n stack info data).length ≤ n
  labels : ∀ stack entry : Nat,
    decodeLabel m stack (addrBytes (u8 m entry)) =
        (3 * (stackTurns m stack (addrBytes (u8 m entry))).length,
          (stackTurns m stack (addrBytes (u8 m entry))).flatMap (shownLabel m stack)) ∧
      (stackTurns m stack (addrBytes (u8 m entry))).length ≤ 11
  evpn : parseNlriData m data n = (evpnTurns m data n).mapM (evpnShown m n) ∧
    (evpnTurns m data n).length ≤ n / 10 + 1 ∧
    ∀ tuples, parseNlriData m data n = some tuples → tuples.length ≤ n
  attributes : ∀ st : UpdateState D,
    parseAttributes D m data n st =
        (((sectionVisits m data n).filter AttrVisit.decoded).map AttrVisit.call).foldl
          (runCall D m data) st ∧
      (sectionVisits m data n).length ≤ n / 3 + 1
  asPath : ∀ st : UpdateState D,
    (asPathCalls m n data st).1 = parseAttrAsPath D m n data st ∧
      (asPathCalls m n data st).2.length ≤ 2 ∧
      ∀ turns ∈ (asPathCalls m n data st).2, turns.length ≤ n / 2 + 1
  segments : ∀ (size : Nat) (acc : AsPathAcc), size ≤ n →
    asPathLoop size m n data acc =
      (segmentTurns size m n data).foldlM (segmentStep size m n data) acc

/-- Every loop ends, within these bounds. -/
theorem parser_work_bound (D : Decoders) (m : Mem) (data n : Nat) : WorkBound D m data n where
  unicast p info prefixes :=
    ⟨p.parse_eq_turns info m data n prefixes, length_turns_le p info m data n,
      length_parse_le p info m data n prefixes⟩
  labelled isIPv4 isVPN stack info :=
    ⟨parseLabel_eq_turns isIPv4 isVPN m n stack info data,
      length_labelTurns_le isIPv4 isVPN m n stack info data⟩
  labels stack entry := ⟨decodeLabel_eq_turns m stack _, length_stackTurns_le m stack entry⟩
  evpn := by
    have turns := length_evpnTurns_le m data n
    refine ⟨parseEvpn_eq_turns m data n, by omega, ?_⟩
    intro tuples result
    rw [parseEvpn_eq_turns] at result
    have := length_of_mapM result
    omega
  attributes st := by
    have visits := length_sectionVisits_le m data n
    exact ⟨parseAttributes_eq_calls m data n st, by omega⟩
  asPath st :=
    ⟨asPathCalls_eq m n data st, length_asPathCalls_le m n data st,
      length_le_of_mem_calls m n data st⟩
  segments size acc enough := asPathLoop_eq_segmentTurns size m n data enough acc

end SonicBmp.Bgp.ParserBounds
