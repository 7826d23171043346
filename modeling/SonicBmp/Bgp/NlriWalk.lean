/- module: SonicBmp/Bgp/NlriWalk
   digest: The turns of the two unicast NLRI loops on any bytes, and which inputs they read cleanly. -/

import SonicBmp.Library.Turns
import SonicBmp.Bgp.Nlri

set_option autoImplicit false
set_option relaxedAutoImplicit false

namespace SonicBmp.Bgp.NlriWalk

open SonicBmp.Library.Memory
open SonicBmp.Library.Turns
open SonicBmp.Bgp.Common
open SonicBmp.Bgp.Nlri

/-- The parser of the classic NLRI field, and that of MP_REACH and MP_UNREACH in
either family. -/
inductive NlriParser
  | v4
  | ipv4IPv6 (isIPv4 : Bool)
  deriving DecidableEq

/-- What one turn of either loop takes from its input; offsets count from the start of
the field. -/
structure NlriTurn where
  offset : Nat
  idLen : Nat
  pathId : Nat
  bits : Nat
  deriving DecidableEq

def NlriTurn.addr (t : NlriTurn) : Nat := t.offset + t.idLen + 1

namespace NlriParser

def isIPv4 : NlriParser → Bool
  | .v4 => true
  | .ipv4IPv6 isIPv4 => isIPv4

def parse (p : NlriParser) (info : PeerInfo) (m : Mem) (data len : Nat)
    (prefixes : List PrefixTuple) : List PrefixTuple :=
  match p with
  | .v4 => parseNlriDataV4 info m data len prefixes
  | .ipv4IPv6 isIPv4 => parseNlriDataIPv4IPv6 isIPv4 info m data len prefixes

/-- The bytes a turn copies into its address buffer: the classic parser copies none of
an address longer than four bytes. -/
def copied : NlriParser → Nat → Nat
  | .v4, bits => if addrBytes bits ≤ 4 then addrBytes bits else 0
  | .ipv4IPv6 _, bits => addrBytes bits

def emitted (p : NlriParser) (m : Mem) (data : Nat) (t : NlriTurn) : List PrefixTuple :=
  match p with
  | .v4 => if addrBytes t.bits ≤ 4 then [tupleV4 m (data + t.addr) t.bits t.pathId] else []
  | .ipv4IPv6 isIPv4 => [tupleIPv4IPv6 isIPv4 m (data + t.addr) t.bits t.pathId]

def stop (p : NlriParser) (t : NlriTurn) : Nat := t.addr + p.copied t.bits

end NlriParser

section Walk

variable (p : NlriParser) (addPath : Bool) (m : Mem) (data len : Nat)

def turnAt (offset : Nat) : NlriTurn :=
  let id := pathIdAt addPath m (data + offset) (len - offset)
  ⟨offset, id.2, id.1, u8 m (data + offset + id.2)⟩

theorem turnAt_addr (offset : Nat) : data + (turnAt addPath m data len offset).addr =
    data + offset + (pathIdAt addPath m (data + offset) (len - offset)).2 + 1 := by
  simp only [NlriTurn.addr, turnAt]
  omega

/-- Both loops as loops over the offset; their data pointer keeps step with it. -/
def walk : CountingLoop Nat where
  bound := len
  count := id
  next offset := some (p.stop (turnAt addPath m data len offset))
  advances := by
    intro offset next _ goes
    cases goes
    simp only [id, NlriParser.stop, NlriTurn.addr, turnAt]
    omega

def turnsFrom (offset : Nat) : List NlriTurn :=
  ((walk p addPath m data len).turns offset).map (turnAt addPath m data len)

variable {p addPath m data len}

/-- Induction along the turns of either loop. -/
theorem walk_induct {P : Nat → Prop} (done : ∀ offset, ¬ offset < len → P offset)
    (step : ∀ offset, offset < len → P (p.stop (turnAt addPath m data len offset)) → P offset)
    (offset : Nat) : P offset := by
  refine (walk p addPath m data len).induct done ?_ ?_ offset
  · intro offset _ ends
    cases ends
  · intro offset next more goes
    cases goes
    exact step offset more

theorem turnsFrom_done {offset : Nat} (done : ¬ offset < len) :
    turnsFrom p addPath m data len offset = [] := by
  rw [turnsFrom, (walk p addPath m data len).turns_done done, List.map_nil]

theorem turnsFrom_step {offset : Nat} (more : offset < len) :
    turnsFrom p addPath m data len offset =
      turnAt addPath m data len offset ::
        turnsFrom p addPath m data len (p.stop (turnAt addPath m data len offset)) := by
  rw [turnsFrom, (walk p addPath m data len).turns_next more rfl, List.map_cons]
  rfl

theorem nlriLoopV4_eq_turns (offset : Nat) (prefixes : List PrefixTuple) :
    nlriLoopV4 addPath m len (data + offset) offset prefixes =
      prefixes ++ (turnsFrom .v4 addPath m data len offset).flatMap
        (NlriParser.v4.emitted m data) := by
  rw [turnsFrom, List.flatMap_map]
  refine (walk .v4 addPath m data len).run_eq_flatMap
    (fun offset acc => nlriLoopV4 addPath m len (data + offset) offset acc) _ ?_ ?_ offset prefixes
  · intro offset acc (done : ¬ offset < len)
    rw [nlriLoopV4, if_neg done]
  · intro offset acc (more : offset < len)
    refine ⟨_, rfl, ?_⟩
    rw [nlriLoopV4, if_pos more]
    have addr := turnAt_addr addPath m data len offset
    by_cases fits : addrBytes (turnAt addPath m data len offset).bits ≤ 4
    · refine (if_pos fits).trans ?_
      rw [NlriParser.stop, NlriParser.copied, if_pos fits, NlriParser.emitted, if_pos fits, addr]
      congr 1 <;> simp only [turnAt, NlriTurn.addr] <;> omega
    · refine (if_neg fits).trans ?_
      rw [NlriParser.stop, NlriParser.copied, if_neg fits, NlriParser.emitted, if_neg fits,
        List.append_nil]
      congr 1
      simp only [turnAt, NlriTurn.addr]
      omega

theorem nlriLoopIPv4IPv6_eq_turns (isIPv4 : Bool) (offset : Nat) (prefixes : List PrefixTuple) :
    nlriLoopIPv4IPv6 isIPv4 addPath m len (data + offset) offset prefixes =
      prefixes ++ (turnsFrom (.ipv4IPv6 isIPv4) addPath m data len offset).flatMap
        ((NlriParser.ipv4IPv6 isIPv4).emitted m data) := by
  rw [turnsFrom, List.flatMap_map]
  refine (walk (.ipv4IPv6 isIPv4) addPath m data len).run_eq_flatMap
    (fun offset acc => nlriLoopIPv4IPv6 isIPv4 addPath m len (data + offset) offset acc) _ ?_ ?_
    offset prefixes
  · intro offset acc (done : ¬ offset < len)
    rw [nlriLoopIPv4IPv6, if_neg done]
  · intro offset acc (more : offset < len)
    refine ⟨_, rfl, ?_⟩
    rw [nlriLoopIPv4IPv6, if_pos more]
    rw [NlriParser.emitted, turnAt_addr]
    dsimp only
    congr 1 <;> simp only [NlriParser.stop, NlriParser.copied, turnAt, NlriTurn.addr] <;> omega

end Walk

namespace NlriParser

variable (p : NlriParser) (info : PeerInfo) (m : Mem) (data len : Nat)

def addPath : Bool := info.addPathUnicast p.isIPv4

/-- The turns of a whole call. -/
def turns : List NlriTurn := turnsFrom p (p.addPath info) m data len 0

/-- A call appends what its turns emit, on any bytes. -/
theorem parse_eq_turns (prefixes : List PrefixTuple) :
    p.parse info m data len prefixes =
      prefixes ++ (p.turns info m data len).flatMap (p.emitted m data) := by
  by_cases empty : len = 0
  · rw [turns, turnsFrom_done (by omega), List.flatMap_nil, List.append_nil]
    cases p with
    | v4 => exact if_pos empty
    | ipv4IPv6 isIPv4 => exact if_pos empty
  · cases p with
    | v4 => exact (if_neg empty).trans (nlriLoopV4_eq_turns 0 prefixes)
    | ipv4IPv6 isIPv4 => exact (if_neg empty).trans (nlriLoopIPv4IPv6_eq_turns isIPv4 0 prefixes)

end NlriParser

/-! What a parser should keep to on every input. -/

/-- The entry of a turn lies inside the field, its path identifier included. -/
def NlriTurn.Complete (addPath : Bool) (len : Nat) (t : NlriTurn) : Prop :=
  t.idLen = (if addPath then 4 else 0) ∧ t.addr + addrBytes t.bits ≤ len

def NlriTurn.Good (p : NlriParser) (addPath : Bool) (len : Nat) (t : NlriTurn) : Prop :=
  t.Complete addPath len ∧ t.bits ≤ maxBits p.isIPv4

/-- Tuples only from complete entries of a legal length, at most sixteen bytes into the
address buffer, and nothing more after the first truncated or illegal entry. -/
structure Guarded (p : NlriParser) (addPath : Bool) (m : Mem) (data len : Nat)
    (ts : List NlriTurn) : Prop where
  emits_good : ∀ t ∈ ts, p.emitted m data t ≠ [] → t.Good p addPath len
  copies_fit : ∀ t ∈ ts, p.copied t.bits ≤ 16
  stops : ts.Pairwise fun t later => t.Good p addPath len ∨ p.emitted m data later = []

section Clean

variable {p : NlriParser} {addPath : Bool} {m : Mem} {data len : Nat}

theorem length_encodePrefix {isIPv4 : Bool} (addPath : Bool) (q : Prefix isIPv4) :
    (encodePrefix addPath q).length = (if addPath then 4 else 0) + 1 + q.addr.length := by
  have id : (if addPath then put32 q.pathId.toNat else []).length = if addPath then 4 else 0 := by
    cases addPath <;> rfl
  rw [encodePrefix, List.length_append, List.length_append, id, length_put8]
  omega

theorem NlriParser.copied_of_legal {bits : Nat} (legal : bits ≤ maxBits p.isIPv4) :
    p.copied bits = addrBytes bits := by
  cases p with
  | v4 => exact if_pos (addrBytes_le_four legal)
  | ipv4IPv6 isIPv4 => rfl

theorem addrBytes_le_sixteen {bits : Nat} (legal : bits ≤ 128) : addrBytes bits ≤ 16 := by
  unfold addrBytes
  split <;> omega

/-- At an encoded prefix a turn is good and goes to its end. -/
theorem turnAt_of_holds {offset : Nat} (q : Prefix p.isIPv4)
    (held : Holds m (data + offset) (encodePrefix addPath q))
    (room : offset + (encodePrefix addPath q).length ≤ len) :
    (turnAt addPath m data len offset).Good p addPath len ∧
      p.stop (turnAt addPath m data len offset) = offset + (encodePrefix addPath q).length := by
  obtain ⟨-, bits, -, size⟩ := pathIdAt_of_holds (len - offset) q addPath held (by omega)
  have length := length_encodePrefix addPath q
  have legal : (turnAt addPath m data len offset).bits ≤ maxBits p.isIPv4 := bits.trans_le q.len_le
  have addr : addrBytes (turnAt addPath m data len offset).bits = q.addr.length :=
    (congrArg addrBytes bits).trans q.addrBytes_len
  have idLen : (turnAt addPath m data len offset).idLen = if addPath then 4 else 0 := by
    show (pathIdAt addPath m (data + offset) (len - offset)).2 = _
    omega
  have start : (turnAt addPath m data len offset).offset = offset := rfl
  refine ⟨⟨⟨idLen, ?_⟩, legal⟩, ?_⟩
  · rw [addr, NlriTurn.addr, idLen, start]
    omega
  · rw [NlriParser.stop, NlriParser.copied_of_legal legal, addr, NlriTurn.addr, idLen, start]
    omega

/-- A good turn stands at an encoded prefix. -/
theorem prefix_of_good {offset : Nat} (good : (turnAt addPath m data len offset).Good p addPath len) :
    ∃ q : Prefix p.isIPv4, Holds m (data + offset) (encodePrefix addPath q) ∧
      offset + (encodePrefix addPath q).length ≤ len := by
  obtain ⟨⟨idLen, room⟩, legal⟩ := good
  generalize here : turnAt addPath m data len offset = t at *
  have start : t.offset = offset := by rw [← here]; rfl
  have octet : t.bits = u8 m (data + offset + t.idLen) := by rw [← here]; rfl
  have bytes : (readBytes m (data + t.addr) (addrBytes t.bits)).length = (t.bits + 7) / 8 := by
    rw [length_readBytes, addrBytes]
    split <;> omega
  refine ⟨⟨t.bits, readBytes m (data + t.addr) (addrBytes t.bits),
    UInt32.ofNat (u32 m (data + offset)), legal, bytes⟩, ?_, ?_⟩
  · have word : (UInt32.ofNat (u32 m (data + offset))).toNat = u32 m (data + offset) :=
      UInt32.toNat_ofNat_of_lt' (u32_lt m _)
    have rest : Holds m (data + offset + t.idLen)
        (put8 t.bits ++ readBytes m (data + t.addr) (addrBytes t.bits)) := by
      rw [holds_append, length_put8, octet, ← readBytes_one, ← octet]
      refine ⟨holds_readBytes m _ 1, ?_⟩
      have addr : data + offset + t.idLen + 1 = data + t.addr := by rw [NlriTurn.addr, start]; omega
      rw [addr]
      exact holds_readBytes m _ _
    rw [idLen] at rest
    cases addPath with
    | false => exact rest
    | true =>
      rw [encodePrefix, if_pos rfl, holds_append, length_put32]
      refine ⟨?_, rest⟩
      rw [word, ← readBytes_four]
      exact holds_readBytes m _ 4
  · rw [length_encodePrefix, length_readBytes, ← idLen, ← start]
    rw [NlriTurn.addr] at room
    omega

theorem guarded_cons {t : NlriTurn} {ts : List NlriTurn} :
    Guarded p addPath m data len (t :: ts) ↔
      (p.emitted m data t ≠ [] → t.Good p addPath len) ∧ p.copied t.bits ≤ 16 ∧
        (∀ later ∈ ts, t.Good p addPath len ∨ p.emitted m data later = []) ∧
        Guarded p addPath m data len ts := by
  constructor
  · rintro ⟨emits, copies, stops⟩
    rw [List.forall_mem_cons] at emits copies
    rw [List.pairwise_cons] at stops
    exact ⟨emits.1, copies.1, stops.1, emits.2, copies.2, stops.2⟩
  · rintro ⟨emits, copies, stops, rest⟩
    exact ⟨List.forall_mem_cons.mpr ⟨emits, rest.emits_good⟩,
      List.forall_mem_cons.mpr ⟨copies, rest.copies_fit⟩, List.pairwise_cons.mpr ⟨stops, rest.stops⟩⟩

variable (addPath m data len)

/-- The octets the classic parser takes for lengths when it finds each of them too long:
it steps over the octet alone. -/
def skippedOctets (offset : Nat) : List Nat :=
  if offset < len then
    (turnAt addPath m data len offset).bits ::
      skippedOctets (turnAt addPath m data len offset).addr
  else []
termination_by len - offset
decreasing_by
  simp only [NlriTurn.addr, turnAt]
  omega

/-- Nothing more is emitted from here on: for the multiprotocol parser that is the end of
the field, the classic one may still step over octets that are no IPv4 length. -/
def NlriParser.Quiet (p : NlriParser) (offset : Nat) : Prop :=
  match p with
  | .v4 => ∀ bits ∈ skippedOctets addPath m data len offset, 32 < bits
  | .ipv4IPv6 _ => offset = len

variable {addPath m data len}

theorem four_lt_addrBytes {bits : Nat} : ¬ addrBytes bits ≤ 4 ↔ 32 < bits := by
  unfold addrBytes
  split <;> omega

theorem emitted_v4_eq_nil {t : NlriTurn} : NlriParser.v4.emitted m data t = [] ↔ 32 < t.bits := by
  rw [← four_lt_addrBytes]
  show (if _ then [_] else []) = [] ↔ _
  split
  · rename_i fits
    exact ⟨fun none => absurd none (List.cons_ne_nil _ _), fun long => absurd fits long⟩
  · rename_i long
    exact ⟨fun _ => long, fun _ => rfl⟩

theorem quiet_iff {offset : Nat} (inside : offset ≤ len) :
    p.Quiet addPath m data len offset ↔
      ∀ t ∈ turnsFrom p addPath m data len offset, p.emitted m data t = [] := by
  cases p with
  | v4 =>
    show (∀ bits ∈ skippedOctets addPath m data len offset, 32 < bits) ↔ _
    clear inside
    fun_induction skippedOctets addPath m data len offset with
    | case1 offset more ih =>
      have stop (quiet : 32 < (turnAt addPath m data len offset).bits) :
          NlriParser.v4.stop (turnAt addPath m data len offset) =
            (turnAt addPath m data len offset).addr := by
        rw [NlriParser.stop, NlriParser.copied, if_neg (four_lt_addrBytes.mpr quiet), Nat.add_zero]
      rw [turnsFrom_step more, List.forall_mem_cons, List.forall_mem_cons, emitted_v4_eq_nil]
      constructor
      · rintro ⟨first, rest⟩
        exact ⟨first, by rw [stop first]; exact ih.mp rest⟩
      · rintro ⟨first, rest⟩
        exact ⟨first, ih.mpr (by rwa [stop first] at rest)⟩
    | case2 offset done => simp [turnsFrom_done done]
  | ipv4IPv6 isIPv4 =>
    constructor
    · intro (atEnd : offset = len)
      rw [turnsFrom_done (by omega)]
      exact List.forall_mem_nil _
    · intro silent
      by_contra before
      have more : offset < len := lt_of_le_of_ne inside before
      rw [turnsFrom_step more, List.forall_mem_cons] at silent
      exact absurd silent.1 (List.cons_ne_nil _ _)

/-- Only a field that is a list of prefixes up to a quiet rest is read as it should be. -/
theorem prefixes_of_guarded {offset : Nat} (inside : offset ≤ len)
    (guarded : Guarded p addPath m data len (turnsFrom p addPath m data len offset)) :
    ∃ ps : List (Prefix p.isIPv4), Holds m (data + offset) (encodePrefixes addPath ps) ∧
      offset + (encodePrefixes addPath ps).length ≤ len ∧
      p.Quiet addPath m data len (offset + (encodePrefixes addPath ps).length) := by
  -- the induction follows the turns: a good one is a prefix of the list, the first other one
  -- makes all that follows quiet
  induction offset using @walk_induct p addPath m data len with
  | done offset done =>
    refine ⟨[], holds_nil _ _, inside, (quiet_iff inside).mpr ?_⟩
    show ∀ t ∈ turnsFrom p addPath m data len offset, p.emitted m data t = []
    rw [turnsFrom_done done]
    exact List.forall_mem_nil _
  | step offset more ih =>
    rw [turnsFrom_step more, guarded_cons] at guarded
    obtain ⟨emits, -, stops, rest⟩ := guarded
    by_cases good : (turnAt addPath m data len offset).Good p addPath len
    · obtain ⟨q, held, room⟩ := prefix_of_good good
      obtain ⟨-, stop⟩ := turnAt_of_holds q held room
      rw [stop] at rest ih
      obtain ⟨ps, heldRest, roomRest, quiet⟩ := ih room rest
      refine ⟨q :: ps, ?_, ?_, ?_⟩
      · rw [encodePrefixes, List.flatMap_cons, holds_append, Nat.add_assoc]
        exact ⟨held, heldRest⟩
      · rw [encodePrefixes, List.flatMap_cons, List.length_append, ← Nat.add_assoc]
        exact roomRest
      · rw [encodePrefixes, List.flatMap_cons, List.length_append, ← Nat.add_assoc]
        exact quiet
    · have silent : p.emitted m data (turnAt addPath m data len offset) = [] :=
        not_not.mp fun some => good (emits some)
      refine ⟨[], holds_nil _ _, inside, (quiet_iff inside).mpr ?_⟩
      show ∀ t ∈ turnsFrom p addPath m data len offset, p.emitted m data t = []
      rw [turnsFrom_step more, List.forall_mem_cons]
      exact ⟨silent, fun later here => (stops later here).resolve_left good⟩

theorem guarded_of_quiet {offset : Nat} (inside : offset ≤ len)
    (quiet : p.Quiet addPath m data len offset) :
    Guarded p addPath m data len (turnsFrom p addPath m data len offset) := by
  have silent := (quiet_iff inside).mp quiet
  refine ⟨fun t here some => absurd (silent t here) some, ?_, ?_⟩
  · intro t here
    cases p with
    | v4 => 
      show (if _ then _ else _) ≤ 16
      split <;> omega
    | ipv4IPv6 isIPv4 => exact absurd (silent t here) (List.cons_ne_nil _ _)
  · refine List.pairwise_of_forall_mem_list ?_
    intro t _ later here
    exact Or.inr (silent later here)

theorem guarded_of_prefixes {offset : Nat} (ps : List (Prefix p.isIPv4))
    (held : Holds m (data + offset) (encodePrefixes addPath ps))
    (room : offset + (encodePrefixes addPath ps).length ≤ len)
    (quiet : p.Quiet addPath m data len (offset + (encodePrefixes addPath ps).length)) :
    Guarded p addPath m data len (turnsFrom p addPath m data len offset) := by
  induction ps generalizing offset with
  | nil => exact guarded_of_quiet room quiet
  | cons q ps ih =>
    rw [encodePrefixes, List.flatMap_cons] at held room quiet
    rw [holds_append, Nat.add_assoc] at held
    rw [List.length_append, ← Nat.add_assoc] at room quiet
    have pos := encodePrefix_length_pos addPath q
    have here : offset + (encodePrefix addPath q).length ≤ len := by omega
    have more : offset < len := by omega
    obtain ⟨good, stop⟩ := turnAt_of_holds q held.1 here
    have legal := good.2.trans (maxBits_le p.isIPv4)
    rw [turnsFrom_step more, guarded_cons, stop]
    refine ⟨fun _ => good, ?_, fun _ _ => Or.inl good, ih held.2 room quiet⟩
    rw [NlriParser.copied_of_legal good.2]
    exact addrBytes_le_sixteen legal

end Clean

/-- A call appends what its turns emit. It keeps to complete and legal entries on the fields
that are a list of encoded prefixes, followed for the classic parser by octets that are no
IPv4 length; on every other field it does not. -/
theorem parse_guarded_iff (p : NlriParser) (info : PeerInfo) (m : Mem) (data len : Nat) :
    (∀ prefixes, p.parse info m data len prefixes =
        prefixes ++ (p.turns info m data len).flatMap (p.emitted m data)) ∧
      (Guarded p (p.addPath info) m data len (p.turns info m data len) ↔
        ∃ ps : List (Prefix p.isIPv4),
          Holds m data (encodePrefixes (p.addPath info) ps) ∧
          (encodePrefixes (p.addPath info) ps).length ≤ len ∧
          p.Quiet (p.addPath info) m data len (encodePrefixes (p.addPath info) ps).length) := by
  refine ⟨p.parse_eq_turns info m data len, ?_⟩
  constructor
  · intro guarded
    obtain ⟨ps, held, room, quiet⟩ := prefixes_of_guarded (Nat.zero_le len) guarded
    rw [Nat.zero_add] at room quiet
    exact ⟨ps, held, room, quiet⟩
  · rintro ⟨ps, held, room, quiet⟩
    rw [← Nat.zero_add (encodePrefixes _ _).length] at room quiet
    exact guarded_of_prefixes ps held room quiet

/-- Two bytes of a /24 make the classic parser emit a prefix that is not there, and a
length octet of 200 makes the other one copy 25 bytes. -/
theorem broken_entries_not_guarded :
    ¬ Guarded .v4 (NlriParser.v4.addPath PeerInfo.fresh) (memOf [24, 10]) 0 2
        (NlriParser.v4.turns PeerInfo.fresh (memOf [24, 10]) 0 2) ∧
      ¬ Guarded (.ipv4IPv6 false) ((NlriParser.ipv4IPv6 false).addPath PeerInfo.fresh)
        (memOf [200]) 0 1 ((NlriParser.ipv4IPv6 false).turns PeerInfo.fresh (memOf [200]) 0 1) := by
  constructor
  · intro guarded
    rw [NlriParser.turns, turnsFrom_step (by decide), guarded_cons] at guarded
    have inside := (guarded.1 (List.cons_ne_nil _ _)).1.2
    revert inside
    decide
  · intro guarded
    rw [NlriParser.turns, turnsFrom_step (by decide), guarded_cons] at guarded
    have copied := guarded.2.1
    revert copied
    decide

end SonicBmp.Bgp.NlriWalk
