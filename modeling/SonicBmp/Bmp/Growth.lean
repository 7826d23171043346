/- module: SonicBmp/Bmp/Growth
   digest: What the reader publishes does not depend on how much of the stream has come through the buffer. -/

import SonicBmp.Bmp.Builds
import SonicBmp.ClientThread
import SonicBmp.Library.Growing

set_option autoImplicit false
set_option relaxedAutoImplicit false

namespace SonicBmp.Bmp.Growth

open SonicBmp.Library.Printing (Text)
open SonicBmp.Library.Memory
open SonicBmp.Library.Throwing
open SonicBmp.Library.Growing
open SonicBmp.Bgp.Common
open SonicBmp.Bus.Interface
open SonicBmp.Bus.Kafka
open SonicBmp.Bmp.ParseBmp
open SonicBmp.Bmp.Reader
open SonicBmp.Bmp.KafkaSession
open SonicBmp.Bmp.Builds
open SonicBmp.ClientThread

/-- The socket of a parser. -/
def socket : Source Parser UInt8 where
  rest := Parser.sock
  grow t s := { s with sock := s.sock ++ t }
  rest_grow _ _ := rfl

/-! The parser. -/

theorem keep_sock (s : Parser) (got : List UInt8) : (s.keep got).sock = s.sock := by
  unfold Parser.keep
  split <;> rfl

theorem keep_grow (t got : List UInt8) (s : Parser) :
    (socket.grow t s).keep got = socket.grow t (s.keep got) := by
  unfold Parser.keep socket
  dsimp only
  split <;> rfl

/-- A read that leaves something was not cut short. -/
theorem recv_grows (len : Nat) : Grows socket (recv len) := by
  rintro s _ _ ⟨⟩
  refine ⟨fun empty => ?_, fun left t => ?_⟩
  · rw [show s.sock = [] from empty]
    exact List.drop_nil
  · have enough : len ≤ s.sock.length := by
      by_contra short
      exact left (List.drop_eq_nil_of_le (Nat.le_of_not_le short))
    have grown : recv len (socket.grow t s) = .ok (s.sock.take len,
        { (socket.grow t s).keep (s.sock.take len) with sock := s.sock.drop len ++ t }) := by
      have got : (s.sock ++ t).take len = s.sock.take len := List.take_append_of_le_length enough
      have gone : (s.sock ++ t).drop len = s.sock.drop len ++ t := List.drop_append_of_le_length enough
      rw [← got, ← gone]
      rfl
    rw [keep_grow] at grown
    exact grown

/-- A look ahead is harmless if a short one leaves nothing or ends in an error. -/
theorem peek_bind_grows {β : Type} {len : Nat} {f : List UInt8 → Parse β}
    (rest : ∀ got, Grows socket (f got))
    (short : ∀ (s : Parser) b s', s.sock.length < len → (f s.sock).run (s.keep s.sock) = .ok (b, s') →
      s'.sock = []) : Grows socket (peek len >>= f) := by
  intro s b s' run
  have now (s : Parser) :
      (peek len >>= f).run s = (f (s.sock.take len)).run (s.keep (s.sock.take len)) := rfl
  rw [now] at run
  obtain ⟨shrinks, same⟩ := rest _ _ _ _ run
  refine ⟨fun empty => shrinks ((keep_sock s _).trans empty), fun left t => ?_⟩
  have enough : len ≤ s.sock.length := by
    by_contra less
    rw [List.take_of_length_le (Nat.le_of_not_le less)] at run
    exact left (short s b s' (Nat.lt_of_not_le less) run)
  have got : (socket.grow t s).sock.take len = s.sock.take len :=
    List.take_append_of_le_length enough
  rw [now, got, keep_grow]
  exact same left t

theorem oldTypeStep_grows (type : Nat) : Grows socket (oldTypeStep type) := by
  unfold oldTypeStep
  split
  · refine peek_bind_grows (fun buf => ?_) ?_
    · exact grows_ite (fun _ => grows_modify (fun _ => rfl) (fun _ _ => rfl))
        (fun _ => grows_throw _)
    · intro s b s' less run
      rw [if_neg less.ne] at run
      cases run
  · refine peek_bind_grows (fun buf => ?_) ?_
    · exact grows_ite (fun _ => grows_pure _) (fun _ => grows_throw _)
    · intro s b s' less run
      rw [if_pos less.ne] at run
      cases run
      exact (keep_sock s _).trans (List.eq_nil_of_length_eq_zero (Nat.lt_one_iff.mp less))
  · exact grows_throw _
  · exact grows_pure _

theorem parsePeerHdr_grows (clock : Nat × Nat) : Grows socket (parsePeerHdr clock) := by
  refine (recv_grows _).bind fun got => ?_
  exact grows_modify (fun _ => rfl) (fun _ _ => rfl)

theorem parseBMPv2_grows (clock : Nat × Nat) : Grows socket (parseBMPv2 clock) := by
  refine (recv_grows _).bind fun got => ?_
  refine grows_ite (fun _ => grows_throw _) fun _ => ?_
  refine grows_modify_bind (fun _ => rfl) (fun _ _ => rfl) ?_
  refine (oldTypeStep_grows _).bind fun _ => ?_
  exact grows_modify (fun _ => rfl) (fun _ _ => rfl)

theorem parseBMPv3_grows (clock : Nat × Nat) : Grows socket (parseBMPv3 clock) := by
  refine (recv_grows _).bind fun got => ?_
  refine grows_ite (fun _ => grows_throw _) fun _ => ?_
  refine grows_ite (fun _ => grows_throw _) fun _ => ?_
  refine grows_modify_bind (fun _ => rfl) (fun _ _ => rfl) ?_
  refine grows_ite (fun _ => parsePeerHdr_grows clock) fun _ => ?_
  exact grows_ite (fun _ => grows_pure _) (fun _ => grows_throw _)

theorem handleMessage_grows (clock : Nat × Nat) : Grows socket (handleMessage clock) := by
  refine (recv_grows 1).bind fun got => ?_
  cases got with
  | nil => exact grows_throw _
  | cons ver _ =>
    refine grows_ite (fun _ => parseBMPv3_grows clock) fun _ => ?_
    exact grows_ite (fun _ => parseBMPv2_grows clock) (fun _ => grows_throw _)

theorem bufferBMPMessage_grows : Grows socket bufferBMPMessage := by
  refine grows_get_bind (fun _ _ => rfl) fun s => ?_
  refine grows_ite (fun _ => grows_pure _) fun _ => ?_
  refine grows_ite (fun _ => grows_throw _) fun _ => ?_
  refine (recv_grows _).bind fun got => ?_
  refine grows_ite (fun _ => grows_throw _) fun _ => ?_
  exact grows_modify (fun _ => rfl) (fun _ _ => rfl)

theorem parsePeerDownEventHdr_grows : Grows socket parsePeerDownEventHdr := by
  refine (recv_grows 1).bind fun got => ?_
  cases got with
  | nil => exact grows_pure _
  | cons reason _ =>
    refine grows_modify_bind (fun _ => rfl) (fun _ _ => rfl) ?_
    exact grows_pure _

theorem finishPeerUp_grows (isParseGood : Bool) (bytesRead : Nat) (upEvent : ObjPeerUpEvent) :
    Grows socket (finishPeerUp isParseGood bytesRead upEvent) := by
  refine grows_modify_bind (fun _ => rfl) (fun _ _ => rfl) ?_
  refine bufferBMPMessage_grows.bind fun _ => ?_
  refine grows_ite (fun _ => grows_pure _) fun _ => ?_
  exact bufferBMPMessage_grows.bind fun _ => grows_pure _

theorem parsePeerUpEventHdr_grows (upEvent : ObjPeerUpEvent) :
    Grows socket (parsePeerUpEventHdr upEvent) := by
  refine grows_get_bind (fun _ _ => rfl) fun s => ?_
  refine (recv_grows 16).bind fun addr => ?_
  refine grows_ite (fun _ => finishPeerUp_grows _ _ _) fun _ => ?_
  refine (recv_grows 2).bind fun port => ?_
  refine grows_ite (fun _ => finishPeerUp_grows _ _ _) fun _ => ?_
  refine (recv_grows 2).bind fun port' => ?_
  exact grows_ite (fun _ => finishPeerUp_grows _ _ _) (fun _ => finishPeerUp_grows _ _ _)

theorem skipBytes_grows (n : Nat) : Grows socket (skipBytes n) := by
  induction n with
  | zero => exact grows_pure _
  | succ n ih => exact (recv_grows 1).bind fun _ => ih

theorem statsLoop_grows (n : Nat) (stats : ObjStatsReport) : Grows socket (statsLoop n stats) := by
  induction n generalizing stats with
  | zero => exact grows_pure _
  | succ n ih =>
    refine (recv_grows 2).bind fun type => ?_
    refine grows_ite (fun _ => grows_throw _) fun _ => ?_
    refine (recv_grows 2).bind fun len => ?_
    refine grows_ite (fun _ => grows_throw _) fun _ => ?_
    refine grows_modify_bind (fun _ => rfl) (fun _ _ => rfl) ?_
    refine grows_ite (fun _ => ?_) (fun _ => (skipBytes_grows _).bind fun _ => ih stats)
    refine (recv_grows _).bind fun b => ?_
    refine grows_ite (fun _ => ?_) (fun _ => ih stats)
    exact grows_modify_bind (fun _ => rfl) (fun _ _ => rfl) (ih _)

theorem handleStatsReport_grows : Grows socket handleStatsReport := by
  refine (recv_grows 4).bind fun b => ?_
  refine grows_ite (fun _ => grows_throw _) fun _ => ?_
  refine grows_modify_bind (fun _ => rfl) (fun _ _ => rfl) ?_
  exact statsLoop_grows _ _

theorem handleInitMsg_grows (beyond : Mem) : Grows socket (handleInitMsg beyond) :=
  bufferBMPMessage_grows.bind fun _ => grows_get_bind (fun _ _ => rfl) fun _ => grows_pure _

theorem handleTermMsg_grows (beyond : Mem) : Grows socket (handleTermMsg beyond) :=
  bufferBMPMessage_grows.bind fun _ => grows_get_bind (fun _ _ => rfl) fun _ => grows_pure _

/-! One message. -/

theorem peerDown_grows (env : Env) : Grows socket (peerDown env) := by
  refine parsePeerDownEventHdr_grows.bind fun reason => ?_
  cases reason with
  | none => exact grows_throw _
  | some reason =>
    refine bufferBMPMessage_grows.bind fun _ => ?_
    refine grows_get_bind (fun _ _ => rfl) fun s => ?_
    split
    · exact grows_throw _
    · exact grows_pure _

theorem peerUp_grows (env : Env) (info : PeerInfo) : Grows socket (peerUp env info) := by
  refine (parsePeerUpEventHdr_grows _).bind fun header => ?_
  refine grows_ite (fun _ => ?_) (fun _ => grows_pure _)
  refine bufferBMPMessage_grows.bind fun _ => ?_
  refine grows_get_bind (fun _ _ => rfl) fun s => ?_
  dsimp only
  split
  · exact grows_throw _
  · exact grows_modify_bind (fun _ => rfl) (fun _ _ => rfl) (grows_pure _)

variable (D : Decoders)

theorem routeMon_grows (env : Env) (info : PeerInfo) : Grows socket (routeMon D env info) :=
  bufferBMPMessage_grows.bind fun _ => grows_get_bind (fun _ _ => rfl) fun _ => grows_pure _

theorem processMessage_grows (env : Env) (peers : PeerInfoMap) :
    Grows socket (processMessage D env peers) := by
  refine grows_get_bind (fun _ _ => rfl) fun s => ?_
  refine grows_ite (fun _ => (peerDown_grows env).bind fun _ => grows_pure _) fun _ => ?_
  refine grows_ite (fun _ => (peerUp_grows env _).bind fun _ => grows_pure _) fun _ => ?_
  refine grows_ite (fun _ => (routeMon_grows D env _).bind fun _ => grows_pure _) fun _ => ?_
  refine grows_ite (fun _ => handleStatsReport_grows.bind fun _ => grows_pure _) fun _ => ?_
  refine grows_ite (fun _ => (handleInitMsg_grows _).bind fun _ => grows_pure _) fun _ => ?_
  exact grows_ite (fun _ => (handleTermMsg_grows _).bind fun _ => grows_pure _)
    (fun _ => grows_pure _)

/-- A message after which something is left unread is handled in the same way whatever comes
behind it. -/
theorem readIncomingMsg_grows {env : Env} {peers peers' : PeerInfoMap} {stream rest : List UInt8}
    {more : Bool}
    (round : (readIncomingMsg D env peers stream).result = .ok (more, peers', rest))
    (left : rest ≠ []) (t : List UInt8) :
    stream ≠ [] ∧ readIncomingMsg D env peers (stream ++ t) =
      ⟨(readIncomingMsg D env peers stream).calls, .ok (more, peers', rest ++ t)⟩ := by
  rcases readIncomingMsg_cases D env peers stream with ⟨text, thrown⟩ | ⟨s, done, s', headers, body, all⟩
  · rw [thrown] at round
    cases round
  · rw [all] at round ⊢
    cases round
    obtain ⟨shrinks, same⟩ := handleMessage_grows env.clock _ _ _ headers
    obtain ⟨shrinks', same'⟩ := processMessage_grows D env _ _ _ _ body
    refine ⟨fun empty => left (shrinks' (shrinks empty)), ?_⟩
    exact readIncomingMsg_of_ok D (same (fun empty => left (shrinks' empty)) t) (same' left t)

/-! Whole sessions. -/

/-- While something is left unread, the rounds so far are those of every longer stream. -/
theorem readerThreadLoop_grows {envs : Nat → Env} {n : Nat} {peers peers' : PeerInfoMap}
    {stream rest : List UInt8}
    (rounds : (readerThreadLoop D envs n peers stream).2 = some (peers', rest)) (left : rest ≠ [])
    (t : List UInt8) :
    stream ≠ [] ∧ readerThreadLoop D envs n peers (stream ++ t) =
      ((readerThreadLoop D envs n peers stream).1, some (peers', rest ++ t)) := by
  induction n generalizing envs peers stream with
  | zero =>
    cases rounds
    exact ⟨left, rfl⟩
  | succ n ih =>
    cases round : (readIncomingMsg D (envs 0) peers stream).result with
    | error text =>
      rw [readerThreadLoop] at rounds
      simp only [round] at rounds
      cases rounds
    | ok result =>
      obtain ⟨more, peers₁, rest₁⟩ := result
      cases more with
      | false =>
        rw [readerThreadLoop] at rounds
        simp only [round] at rounds
        cases rounds
      | true =>
        rw [readerThreadLoop_succ_state D round] at rounds
        obtain ⟨left₁, later⟩ := ih rounds
        obtain ⟨nonempty, now⟩ := readIncomingMsg_grows D round left₁ t
        refine ⟨nonempty, ?_⟩
        rw [readerThreadLoop, now]
        dsimp only
        rw [later, readerThreadLoop_succ D round]

/-! The Kafka build. -/

section Kafka

variable (md5 : Md5)

theorem routeMonKafka_grows (env : KafkaEnv D) (info : PeerInfo) :
    Grows socket (routeMonKafka D md5 env info) :=
  bufferBMPMessage_grows.bind fun _ => grows_get_bind (fun _ _ => rfl) fun _ => grows_pure _

theorem processMessageKafka_grows (env : KafkaEnv D) (peers : PeerInfoMap) :
    Grows socket (processMessageKafka D md5 env peers) := by
  refine grows_get_bind (fun _ _ => rfl) fun s => ?_
  refine grows_ite (fun _ => (routeMonKafka_grows D md5 env _).bind fun _ => grows_pure _) fun _ => ?_
  exact (processMessage_grows D env.toEnv peers).bind fun _ => grows_pure _

theorem readIncomingMsgKafka_grows {env : KafkaEnv D} {peers peers' : PeerInfoMap}
    {stream rest : List UInt8} {more : Bool}
    (round : (readIncomingMsgKafka D md5 env peers stream).result = .ok (more, peers', rest))
    (left : rest ≠ []) (t : List UInt8) :
    stream ≠ [] ∧ readIncomingMsgKafka D md5 env peers (stream ++ t) =
      ⟨(readIncomingMsgKafka D md5 env peers stream).calls, .ok (more, peers', rest ++ t)⟩ := by
  unfold readIncomingMsgKafka at round ⊢
  cases headers : (handleMessage env.clock).run (Parser.new stream) with
  | error text =>
    rw [headers] at round
    cases round
  | ok parsed =>
    obtain ⟨⟨⟩, s⟩ := parsed
    simp only [headers] at round ⊢
    cases body : (processMessageKafka D md5 env (notePeer peers s)).run s with
    | error text =>
      rw [body] at round
      cases round
    | ok processed =>
      obtain ⟨done, s'⟩ := processed
      rw [body] at round
      cases round
      obtain ⟨shrinks, same⟩ := handleMessage_grows env.clock _ _ _ headers
      obtain ⟨shrinks', same'⟩ := processMessageKafka_grows D md5 env _ _ _ _ body
      refine ⟨fun empty => left (shrinks' (shrinks empty)), ?_⟩
      have headers' : (handleMessage env.clock).run (Parser.new (stream ++ t)) =
          .ok ((), socket.grow t s) := same (fun empty => left (shrinks' empty)) t
      have body' : (processMessageKafka D md5 env (notePeer peers (socket.grow t s))).run
          (socket.grow t s) = .ok (done, socket.grow t s') := same' left t
      simp only [headers', body']
      rfl

theorem sessionCalls_grows {envs : Nat → KafkaEnv D} {n : Nat} {peers peers' : PeerInfoMap}
    {stream rest : List UInt8}
    (rounds : (sessionCalls D md5 envs n peers stream).2 = some (peers', rest)) (left : rest ≠ [])
    (t : List UInt8) :
    stream ≠ [] ∧ sessionCalls D md5 envs n peers (stream ++ t) =
      ((sessionCalls D md5 envs n peers stream).1, some (peers', rest ++ t)) := by
  induction n generalizing envs peers stream with
  | zero =>
    cases rounds
    exact ⟨left, rfl⟩
  | succ n ih =>
    rw [sessionCalls] at rounds
    cases round : (readIncomingMsgKafka D md5 (envs 0) peers stream).result with
    | error text =>
      simp only [round] at rounds
      cases rounds
    | ok result =>
      obtain ⟨_ | _, peers₁, rest₁⟩ := result
      · simp only [round] at rounds
        cases rounds
      · simp only [round] at rounds
        obtain ⟨left₁, later⟩ := ih rounds
        obtain ⟨nonempty, now⟩ := readIncomingMsgKafka_grows D md5 round left₁ t
        refine ⟨nonempty, ?_⟩
        rw [sessionCalls, sessionCalls, now]
        simp only [round]
        rw [later]

end Kafka

/-! The buffer and the reader. -/

/-- Seven octets are read into a buffer of eight and piped: an initiation message and the first
octet of the next one. -/
def sevenPiped : State :=
  pipePhase 8 (.ready (some 7))
    (socketPhase 8 (.ready (some [3, 0, 0, 0, 6, 4, 3])) (State.start (fun _ => 0)))

theorem reach_sevenPiped : Reach 8 .socket sevenPiped :=
  .pipe _ (.socket _ (.start _) rfl (show 7 ≤ 8 by decide)) rfl (show 7 ≤ 7 by decide)

end SonicBmp.Bmp.Growth
