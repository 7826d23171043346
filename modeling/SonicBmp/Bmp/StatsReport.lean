/- module: SonicBmp/Bmp/StatsReport
   digest: Where in the stream a statistics report ends for the parser, and when that is where its length field says. -/

import SonicBmp.Bmp.Reader

set_option autoImplicit false
set_option relaxedAutoImplicit false

namespace SonicBmp.Bmp.StatsReport

open SonicBmp.Library.Memory
open SonicBmp.Library.Throwing
open SonicBmp.Bgp.Common (Decoders bgpMaxMsgSize)
open SonicBmp.Bus.Interface
open SonicBmp.Bmp.ParseBmp
open SonicBmp.Bmp.Framing
open SonicBmp.Bmp.Reader

/-- How many bytes the loop takes for `n` TLVs: what their length fields say, up to the end
of the stream. Without a whole header there is no end. -/
def tlvsEnd : Nat → List UInt8 → Option Nat
  | 0, _ => some 0
  | n + 1, bytes =>
    if bytes.length < 4 then none
    else
      let span := 4 + min (u16 (memOf bytes) 2) (bytes.length - 4)
      (tlvsEnd n (bytes.drop span)).map (span + ·)

/-- The same for a whole report from its per-peer header on; the count stands behind that
header. -/
def reportEnd (bytes : List UInt8) : Option Nat :=
  if bytes.length < 46 then none
  else (tlvsEnd (u32 (memOf bytes) 42) (bytes.drop 46)).map (46 + ·)

theorem tlvsEnd_le {n k : Nat} {bytes : List UInt8} (ends : tlvsEnd n bytes = some k) :
    k ≤ bytes.length := by
  induction n generalizing bytes k with
  | zero =>
    obtain rfl := Option.some.inj ends
    exact Nat.zero_le _
  | succ n ih =>
    rw [tlvsEnd] at ends
    split at ends
    · cases ends
    · obtain ⟨later, found, rfl⟩ := Option.map_eq_some_iff.mp ends
      have := ih found
      rw [List.length_drop] at this
      omega

theorem recv_any (k : Nat) (s : Parser) :
    ∃ s', s'.sock = s.sock.drop k ∧ s'.bmpType = s.bmpType ∧
      (recv k).run s = .ok (s.sock.take k, s') := by
  refine ⟨_, rfl, ?_, rfl⟩
  unfold Parser.keep
  split <;> rfl

theorem skipBytes_run (n : Nat) (s : Parser) :
    ∃ s', s'.sock = s.sock.drop n ∧ (skipBytes n).run s = .ok ((), s') := by
  induction n generalizing s with
  | zero => exact ⟨s, rfl, rfl⟩
  | succ n ih =>
    obtain ⟨s₁, sock₁, -, one⟩ := recv_any 1 s
    obtain ⟨s₂, sock₂, rest⟩ := ih s₁
    refine ⟨s₂, ?_, ?_⟩
    · rw [sock₂, sock₁, List.drop_drop, Nat.add_comm]
    · rw [skipBytes, run_bind_of_ok one, rest]

/-- A header of a TLV that is not all there. -/
theorem statsLoop_cut {n : Nat} (stats : ObjStatsReport) {s : Parser} (short : s.sock.length < 4) :
    ∃ e, (statsLoop (n + 1) stats).run s = .error e := by
  obtain ⟨s₁, sock₁, -, type⟩ := recv_any 2 s
  rw [statsLoop, run_bind_of_ok type]
  split
  · exact ⟨_, rfl⟩
  · obtain ⟨s₂, -, -, len⟩ := recv_any 2 s₁
    rw [run_bind_of_ok len, sock₁]
    split
    · exact ⟨_, rfl⟩
    · rename_i typeRead lenRead
      rw [not_not, List.length_take] at typeRead lenRead
      rw [List.length_drop] at lenRead
      omega

/-- A TLV with a whole header is passed by, whatever its length and however much of its
value is there. -/
theorem statsLoop_pass {n : Nat} (stats : ObjStatsReport) {s : Parser}
    (whole : ¬ s.sock.length < 4) :
    ∃ stats' s', s'.sock = s.sock.drop (4 + u16 (memOf s.sock) 2) ∧
      (statsLoop (n + 1) stats).run s = (statsLoop n stats').run s' := by
  obtain ⟨s₁, sock₁, -, type⟩ := recv_any 2 s
  obtain ⟨s₂, sock₂, -, len⟩ := recv_any 2 s₁
  have sock : s₂.sock = s.sock.drop 4 := by rw [sock₂, sock₁, List.drop_drop]
  have lenRead : u16 (memOf (s₁.sock.take 2)) 0 = u16 (memOf s.sock) 2 := by
    rw [sock₁]
    simp [u16, u8, memOf_apply, List.getD_eq_getElem?_getD]
  have typeLength : (s.sock.take 2).length = 2 := by
    rw [List.length_take]
    omega
  have lenLength : (s₁.sock.take 2).length = 2 := by
    rw [sock₁, List.length_take, List.length_drop]
    omega
  rw [statsLoop, run_bind_of_ok type, if_neg (not_not.mpr typeLength), run_bind_of_ok len,
    if_neg (not_not.mpr lenLength), run_modify_bind, lenRead]
  dsimp only
  generalize u16 (memOf s.sock) 2 = statLen
  have goal (t : Parser) : t.sock = s₂.sock.drop statLen ↔
      t.sock = s.sock.drop (4 + statLen) := by rw [sock, List.drop_drop]
  split
  · obtain ⟨s₃, sock₃, -, value⟩ := recv_any statLen { s₂ with bmpLen := sub32 s₂.bmpLen 4 }
    rw [run_bind_of_ok value]
    split
    · rw [run_modify_bind]
      exact ⟨_, { s₃ with bmpLen := sub32 s₃.bmpLen statLen }, (goal _).mp sock₃, rfl⟩
    · exact ⟨_, s₃, (goal s₃).mp sock₃, rfl⟩
  · obtain ⟨s₃, sock₃, skipped⟩ := skipBytes_run statLen { s₂ with bmpLen := sub32 s₂.bmpLen 4 }
    rw [run_bind_of_ok skipped]
    exact ⟨_, s₃, (goal s₃).mp sock₃, rfl⟩

/-- The loop throws when a header is cut off, and otherwise stands behind the TLVs. -/
theorem statsLoop_end (n : Nat) (stats : ObjStatsReport) (s : Parser) :
    (tlvsEnd n s.sock = none ∧ ∃ e, (statsLoop n stats).run s = .error e) ∨
    (∃ k stats' s', tlvsEnd n s.sock = some k ∧ s'.sock = s.sock.drop k ∧
      (statsLoop n stats).run s = .ok (stats', s')) := by
  induction n generalizing stats s with
  | zero => exact Or.inr ⟨0, stats, s, rfl, rfl, rfl⟩
  | succ n ih =>
    rw [tlvsEnd]
    by_cases short : s.sock.length < 4
    · rw [if_pos short]
      exact Or.inl ⟨rfl, statsLoop_cut stats short⟩
    · obtain ⟨stats', s', sock, run⟩ := statsLoop_pass (n := n) stats short
      have rest : s'.sock = s.sock.drop (4 + min (u16 (memOf s.sock) 2) (s.sock.length - 4)) := by
        rw [sock]
        rcases Nat.le_total (u16 (memOf s.sock) 2) (s.sock.length - 4) with there | cut
        · rw [Nat.min_eq_left there]
        · rw [Nat.min_eq_right cut, List.drop_eq_nil_of_le (by omega),
            List.drop_eq_nil_of_le (by omega)]
      rw [if_neg short, run]
      dsimp only
      rw [← rest]
      rcases ih stats' s' with ⟨none_, thrown⟩ | ⟨k, stats'', s'', ends, sock'', run''⟩
      · rw [none_]
        exact Or.inl ⟨rfl, thrown⟩
      · rw [ends]
        refine Or.inr ⟨_, stats'', s'', rfl, ?_, run''⟩
        rw [sock'', rest, List.drop_drop]

/-- A length field the reader does not accept, since it wraps around or is too large. -/
def Refused (len : Nat) : Prop := len < 6 ∨ 6 + bgpMaxMsgSize < len

theorem refused_iff (len : UInt32) :
    bgpMaxMsgSize < sub32 len.toNat (1 + bmpHdrV3Len) ↔ Refused len.toNat := by
  have max : bgpMaxMsgSize = 65535 := rfl
  have small := len.toNat_lt
  simp only [sub32, bmpHdrV3Len, Refused]
  omega

/-- After the headers the count stands next; the length field only decides whether the
message is taken at all. -/
theorem reportHeaders_run (clock : Nat × Nat) (len : UInt32) (rest : List UInt8) :
    (Refused len.toNat ∧
      ∃ e, (handleMessage clock).run (Parser.new (v3Stream len 1 rest)) = .error e) ∨
    (¬ Refused len.toNat ∧ ∃ s, s.sock = rest.drop 42 ∧ s.bmpType = typeStatsReport ∧
      (handleMessage clock).run (Parser.new (v3Stream len 1 rest)) = .ok ((), s)) := by
  have stream : (Parser.new (v3Stream len 1 rest)).sock =
      [3] ++ ((put32 len.toNat ++ [1]) ++ rest) := by simp [Parser.new, v3Stream]
  obtain ⟨s₁, sock₁, version⟩ := recv_next (k := 1) rfl stream
  obtain ⟨s₂, sock₂, header⟩ := recv_next (k := bmpHdrV3Len) rfl sock₁
  obtain ⟨lenField, typeField⟩ := v3Header_fields len 1
  have start : (handleMessage clock).run (Parser.new (v3Stream len 1 rest)) =
      (parseBMPv3 clock).run s₁ := by
    rw [handleMessage, run_bind_of_ok version]
    dsimp only
    rw [if_pos rfl]
  have whole : ¬ (put32 len.toNat ++ [1]).length ≠ bmpHdrV3Len := by simp [bmpHdrV3Len]
  rw [start, parseBMPv3, run_bind_of_ok header, if_neg whole, lenField, typeField]
  dsimp only
  by_cases refused : Refused len.toNat
  · refine Or.inl ⟨refused, ?_⟩
    rw [if_pos ((refused_iff len).mpr refused)]
    exact ⟨_, rfl⟩
  · obtain ⟨s₃, sock₃, type₃, peer⟩ := recv_any bmpPeerHdrLen
      { s₂ with bmpType := typeStatsReport, bmpLen := sub32 len.toNat (1 + bmpHdrV3Len) }
    refine Or.inr ⟨refused, ?_⟩
    have withPeer : (1 : UInt8).toNat = typeRouteMon ∨ (1 : UInt8).toNat = typeStatsReport ∨
        (1 : UInt8).toNat = typePeerUp ∨ (1 : UInt8).toNat = typePeerDown := Or.inr (Or.inl rfl)
    rw [if_neg (fun large => refused ((refused_iff len).mp large)), run_modify_bind,
      if_pos withPeer, parsePeerHdr]
    refine ⟨_, ?_, ?_, run_bind_of_ok peer⟩
    · exact sock₃.trans (congrArg (List.drop 42) sock₂)
    · exact type₃

/-- From the count on. -/
theorem handleStatsReport_end {s : Parser} {bytes : List UInt8} (sock : s.sock = bytes.drop 42) :
    (reportEnd bytes = none ∧ ∃ e, handleStatsReport.run s = .error e) ∨
    (∃ k stats s', reportEnd bytes = some k ∧ s'.sock = bytes.drop k ∧
      handleStatsReport.run s = .ok (stats, s')) := by
  obtain ⟨s₁, sock₁, -, count⟩ := recv_any 4 s
  rw [sock] at count sock₁
  rw [List.drop_drop] at sock₁
  have length : ((bytes.drop 42).take 4).length = min 4 (bytes.length - 42) := by
    rw [List.length_take, List.length_drop]
  rw [reportEnd, handleStatsReport, run_bind_of_ok count]
  by_cases short : bytes.length < 46
  · rw [if_pos short, if_pos (by omega)]
    exact Or.inl ⟨rfl, _, rfl⟩
  · have countRead : u32 (memOf ((bytes.drop 42).take 4)) 0 = u32 (memOf bytes) 42 := by
      simp [u32, u16, u8, memOf_apply, List.getD_eq_getElem?_getD]
    rw [if_neg short, if_neg (by omega), run_modify_bind, countRead]
    rcases statsLoop_end (u32 (memOf bytes) 42) ObjStatsReport.zero
      { s₁ with bmpLen := sub32 s₁.bmpLen 4 } with ⟨none_, thrown⟩ | ⟨k, stats, s', ends, sock', run⟩
    · refine Or.inl ⟨?_, thrown⟩
      rw [← show s₁.sock = bytes.drop 46 from sock₁, none_]
      rfl
    · refine Or.inr ⟨46 + k, stats, s', ?_, ?_, run⟩
      · rw [← show s₁.sock = bytes.drop 46 from sock₁, ends]
        rfl
      · rw [sock', ← List.drop_drop]
        exact congrArg (List.drop k) sock₁

theorem reportEnd_le {k : Nat} {bytes : List UInt8} (ends : reportEnd bytes = some k) :
    k ≤ bytes.length := by
  rw [reportEnd] at ends
  split at ends
  · cases ends
  · obtain ⟨later, found, rfl⟩ := Option.map_eq_some_iff.mp ends
    have := tlvsEnd_le found
    rw [List.length_drop] at this
    omega

theorem processMessage_stats (D : Decoders) (env : Env) (peers : PeerInfoMap) {s : Parser}
    (type : s.bmpType = typeStatsReport) :
    (processMessage D env peers).run s =
      (handleStatsReport >>= fun stats =>
        pure ⟨true, [.addStatReport s.peer stats], peers⟩ : Parse Processed).run s := by
  rw [processMessage, run_get_bind]
  dsimp only
  rw [type, if_neg (by decide), if_neg (by decide), if_neg (by decide), if_pos rfl]

/-- A report is read to its end as its length field says, or the reader throws, exactly if
the length is refused, or the TLVs that are counted run out of the stream, or they end where
the length field says: the loop goes by the count and the lengths of the TLVs alone. -/
theorem stats_report_consumed_iff (D : Decoders) (env : Env) (peers : PeerInfoMap) (len : UInt32)
    (rest : List UInt8) (enough : len.toNat ≤ (v3Stream len 1 rest).length) :
    ((∃ text, (readIncomingMsg D env peers (v3Stream len 1 rest)).result = .error text) ∨
        ∃ more peers', (readIncomingMsg D env peers (v3Stream len 1 rest)).result =
          .ok (more, peers', (v3Stream len 1 rest).drop len.toNat)) ↔
      Refused len.toNat ∨ ∀ last, reportEnd rest = some last → 6 + last = len.toNat := by
  rcases reportHeaders_run env.clock len rest with ⟨refused, e, thrown⟩ | ⟨taken, s, sock, type, run⟩
  · refine iff_of_true (Or.inl ⟨e, ?_⟩) (Or.inl refused)
    rw [readIncomingMsg, thrown]
  · have process := processMessage_stats D env (notePeer peers s) type
    rcases handleStatsReport_end sock with ⟨none_, e, thrown⟩ | ⟨last, stats, s', ends, sock', done⟩
    · refine iff_of_true (Or.inl ⟨e, ?_⟩) (Or.inr (by simp [none_]))
      have body : (processMessage D env (notePeer peers s)).run s = .error e := by
        rw [process, StateT.run_bind, thrown]
        rfl
      rw [readIncomingMsg, run]
      simp only [body]
    · have body := process.trans (run_bind_of_ok done)
      have read := congrArg ReadOutcome.result (readIncomingMsg_of_ok D run body)
      have least : 6 ≤ len.toNat := by
        unfold Refused at taken
        omega
      have stream : (v3Stream len 1 rest).drop len.toNat = rest.drop (len.toNat - 6) := by
        have six : (v3Stream len 1 rest).drop 6 = rest := rfl
        rw [← six, List.drop_drop, six, Nat.add_sub_cancel' least]
      rw [v3Stream_length] at enough
      have within := reportEnd_le ends
      rw [read, stream, sock', ends]
      constructor
      · rintro (⟨text, thrown⟩ | ⟨more, peers', same⟩)
        · cases thrown
        · right
          intro last' found
          obtain rfl := Option.some.inj found
          have lengths := congrArg List.length (Prod.mk.inj (Prod.mk.inj (Except.ok.inj same)).2).2
          simp only [List.length_drop] at lengths
          omega
      · rintro (refused | ended)
        · exact absurd refused taken
        · have here := ended last rfl
          have place : len.toNat - 6 = last := by omega
          exact Or.inr ⟨_, _, by rw [place]⟩

/-- A report without counters, followed by the start of another message. -/
private theorem noCounters_enough :
    (52 : UInt32).toNat ≤ (v3Stream 52 1 (List.replicate 46 0 ++ [3])).length := by decide

theorem stats_report_consumed_noCounters :
    (∃ text, (readIncomingMsg Decoders.silent quietEnv (fun _ => none)
        (v3Stream 52 1 (List.replicate 46 0 ++ [3]))).result = .error text) ∨
      ∃ more peers', (readIncomingMsg Decoders.silent quietEnv (fun _ => none)
        (v3Stream 52 1 (List.replicate 46 0 ++ [3]))).result =
          .ok (more, peers', (v3Stream 52 1 (List.replicate 46 0 ++ [3])).drop 52) :=
  (stats_report_consumed_iff Decoders.silent quietEnv (fun _ => none) 52 _ noCounters_enough).mpr
    (Or.inr (by decide))

/-- A report of 56 bytes without counters: the four bytes behind its count are left in the
stream, where the next message is looked for. -/
theorem stats_report_leaves_bytes :
    ∃ more peers', (readIncomingMsg Decoders.silent quietEnv (fun _ => none)
        (v3Stream 56 1 (List.replicate 46 0 ++ ([1, 2, 3, 4] ++ [3])))).result =
          .ok (more, peers', [1, 2, 3, 4, 3]) ∧
      (v3Stream 56 1 (List.replicate 46 0 ++ ([1, 2, 3, 4] ++ [3]))).drop 56 = [3] :=
  ⟨_, _, rfl, rfl⟩

end SonicBmp.Bmp.StatsReport
