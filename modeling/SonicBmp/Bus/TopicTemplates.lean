/- module: SonicBmp/Bus/TopicTemplates
   digest: The name of a topic is its configured template with all variables filled in at once. -/

import Mathlib.Data.List.Infix
import SonicBmp.Configuration
import SonicBmp.Library.Templates

set_option autoImplicit false
set_option relaxedAutoImplicit false

namespace SonicBmp.Bus.TopicTemplates

open SonicBmp.Library.Printing
open SonicBmp.Library.Templates
open SonicBmp.Bus.TopicSelector
open SonicBmp.Configuration (Config topicMark topicSubstitutions)

/-! One variable. -/

/-- A template as it stands in the configuration. -/
abbrev written (template : Template Char) : Text := text '\x7b' '\x7d' template

abbrev TidyText (template : Template Char) : Prop := Tidy '\x7b' '\x7d' template

theorem written_char (c : Char) (template : Template Char) :
    written (.char c :: template) = c :: written template := rfl

theorem written_hole (name : Text) (template : Template Char) :
    written (.hole name :: template) = topicMark name ++ written template := rfl

theorem replaceFrom_skip (old new before rest : Text) :
    replaceFrom old new before.length (before ++ rest) = replaceFrom old new 0 rest := by
  induction before with
  | nil => rfl
  | cons c before ih => exact ih

theorem topicMark_differs (var : Text) {c : Char} (other : '\x7b' ≠ c) (rest : Text) :
    (topicMark var).isPrefixOf (c :: rest) = false := by
  simp [topicMark, List.isPrefixOf, other]

/-- Text without the bracket that begins a mark is passed over. -/
theorem replaceFrom_plain (var new : Text) {before : Text} (plain : '\x7b' ∉ before) (rest : Text) :
    replaceFrom (topicMark var) new 0 (before ++ rest) =
      before ++ replaceFrom (topicMark var) new 0 rest := by
  induction before with
  | nil => rfl
  | cons c before ih =>
    have differs := topicMark_differs var (List.ne_of_not_mem_cons plain) (before ++ rest)
    rw [List.cons_append, replaceFrom, if_neg (by simp [differs]),
      ih (List.not_mem_of_not_mem_cons plain), List.cons_append]

theorem topicMark_append (name rest : Text) :
    topicMark name ++ rest = '\x7b' :: ((name ++ ['\x7d']) ++ rest) := rfl

theorem topicMark_begins_iff {var name : Text} (bare : '\x7d' ∉ var) (bare' : '\x7d' ∉ name)
    (rest : Text) : (topicMark var).isPrefixOf (topicMark name ++ rest) = true ↔ var = name := by
  rw [ List.isPrefixOf_iff_prefix]
  constructor
  · rintro ⟨tail, same⟩
    rw [topicMark_append, topicMark_append, ← List.append_cons, ← List.append_cons] at same
    exact (run_split (· ≠ '\x7d') (fun c here => ne_of_mem_of_not_mem here bare)
      (fun c here => ne_of_mem_of_not_mem here bare') (by simp) (by simp) (List.cons.inj same).2).1
  · rintro rfl
    exact List.prefix_append _ _

/-- Replacing the mark of a variable fills its holes. -/
theorem replaceAll_written {var : Text} (bare : '\x7d' ∉ var) (value : Text)
    {template : Template Char} (tidy : TidyText template) :
    replaceAll (topicMark var) value (written template) =
      written (fill (single var value) template) := by
  induction template with
  | nil => rfl
  | cons piece template ih =>
    have rest := ih fun piece here => tidy piece (List.mem_cons_of_mem _ here)
    have own := tidy piece List.mem_cons_self
    cases piece with
    | char c =>
      have plain : '\x7b' ∉ [c] := by simpa using Ne.symm own
      exact (replaceFrom_plain var value plain _).trans (congrArg (c :: ·) rest)
    | hole name =>
      rw [written_hole]
      by_cases same : var = name
      · subst same
        have begins := (topicMark_begins_iff bare bare (written template)).mpr rfl
        have cut : written (fill (single var value) (.hole var :: template)) =
            value ++ written (fill (single var value) template) := by
          simp [written, text, fill, Piece.fill, single, List.flatMap_append, List.flatMap_map,
            Piece.text]
        have long : (topicMark var).length - 1 = (var ++ ['\x7d']).length := by simp [topicMark]
        rw [topicMark_append] at begins ⊢
        rw [replaceAll, replaceFrom, if_pos begins, long, replaceFrom_skip, cut]
        exact congrArg (value ++ ·) rest
      · have differs := mt (topicMark_begins_iff bare own.2 (written template)).mp same
        have kept : written (fill (single var value) (.hole name :: template)) =
            topicMark name ++ written (fill (single var value) template) := by
          simp [written, text, fill, Piece.fill, single, Ne.symm same, Piece.text, topicMark, mark]
        have plain : '\x7b' ∉ name ++ ['\x7d'] := by simpa using own.1
        rw [topicMark_append] at differs ⊢
        rw [replaceAll, replaceFrom, if_neg differs, replaceFrom_plain var value plain, kept,
          topicMark_append]
        exact congrArg (fun rest => '\x7b' :: ((name ++ ['\x7d']) ++ rest)) rest

/-! All variables. -/

/-- Variables that can stand in a mark, with values that begin no mark. -/
def Plain (vars : List (Text × Text)) : Prop := ∀ var ∈ vars, '\x7d' ∉ var.1 ∧ '\x7b' ∉ var.2

theorem foldl_replaceAll_written {vars : List (Text × Text)} (plain : Plain vars)
    {template : Template Char} (tidy : TidyText template) :
    vars.foldl (fun name var => replaceAll (topicMark var.1) var.2 name) (written template) =
      written (fill (fun name => vars.lookup name) template) := by
  rw [← foldl_fill]
  induction vars generalizing template with
  | nil => rfl
  | cons var vars ih =>
    obtain ⟨bare, value⟩ := plain var List.mem_cons_self
    rw [List.foldl_cons, List.foldl_cons, replaceAll_written bare var.2 tidy]
    refine ih (fun var here => plain var (List.mem_cons_of_mem _ here)) (tidy.fill ?_)
    intro name filled own
    unfold single at own
    split at own
    · cases own
      exact value
    · cases own

/-- What the application fills in for a message. -/
def appVars (call : TopicCall) : List (Text × Text) :=
  if call.topicVar = .collector then []
  else ("router_group".toList, TopicSelector.groupName call.routerGroup) ::
    if call.topicVar = .router then []
    else
      [("peer_group".toList, TopicSelector.groupName call.peerGroup),
        ("peer_asn".toList, asnName call.peerAsn)]

theorem topicName_eq (env : TopicEnv) (call : TopicCall) :
    env.topicName call =
      (appVars call).foldl (fun name var => replaceAll (topicMark var.1) var.2 name)
        (env.topicNames call.topicVar) := by
  unfold TopicEnv.topicName appVars
  split
  · rfl
  · split <;> rfl

/-- The selector's surroundings once the configuration is loaded. -/
def topicEnv {ρ : Type} (cfg : Config ρ) (creates : Text → Bool) : TopicEnv :=
  ⟨(topicSubstitutions cfg).topicNames, creates⟩

theorem occurs_plain (var : Text) {before : Text} (plain : '\x7b' ∉ before) (rest : Text) :
    occurs (topicMark var) (before ++ rest) = occurs (topicMark var) rest := by
  induction before with
  | nil => rfl
  | cons c before ih =>
    have differs := topicMark_differs var (List.ne_of_not_mem_cons plain) (before ++ rest)
    rw [← ih (List.not_mem_of_not_mem_cons plain), List.cons_append, occurs, List.tails_cons,
      List.any_cons, differs, Bool.false_or, occurs]

/-- A mark occurs where there is a hole of that name. -/
theorem occurs_written_iff {var : Text} (bare : '\x7d' ∉ var) {template : Template Char}
    (tidy : TidyText template) :
    occurs (topicMark var) (written template) = true ↔ .hole var ∈ template := by
  induction template with
  | nil => simp [occurs, written, text, topicMark]
  | cons piece template ih =>
    have rest := ih fun piece here => tidy piece (List.mem_cons_of_mem _ here)
    have own := tidy piece List.mem_cons_self
    cases piece with
    | char c =>
      have plain : '\x7b' ∉ [c] := by simpa using Ne.symm own
      rw [written_char, ← List.singleton_append, occurs_plain var plain, rest]
      simp
    | hole name =>
      have plain : '\x7b' ∉ name ++ ['\x7d'] := by simpa using own.1
      have begins := topicMark_begins_iff bare own.2 (written template)
      rw [written_hole]
      rw [topicMark_append] at begins ⊢
      rw [occurs, List.tails_cons, List.any_cons, Bool.or_eq_true, begins, ← occurs,
        occurs_plain var plain, rest]
      simp

theorem plain_appVars {call : TopicCall} (router : '\x7b' ∉ groupText call.routerGroup)
    (peer : '\x7b' ∉ groupText call.peerGroup) : Plain (appVars call) := by
  have group {group : Option Text} (plain : '\x7b' ∉ groupText group) :
      '\x7b' ∉ TopicSelector.groupName group := by
    unfold TopicSelector.groupName
    split
    · decide
    · exact plain
  have asn (n : UInt32) : '\x7b' ∉ asnName n := by
    unfold asnName
    split
    · exact not_mem_decimal (by decide) _
    · decide
  intro var here
  unfold appVars at here
  split at here
  · exact absurd here List.not_mem_nil
  · rcases List.mem_cons.mp here with rfl | here
    · exact ⟨show '\x7d' ∉ "router_group".toList by decide, group router⟩
    · split at here
      · exact absurd here List.not_mem_nil
      · rcases List.mem_pair.mp here with rfl | rfl
        · exact ⟨show '\x7d' ∉ "peer_group".toList by decide, group peer⟩
        · exact ⟨show '\x7d' ∉ "peer_asn".toList by decide, asn _⟩

/-- A peer topic for each feed, router group and ASN. -/
def feedTemplate : Template Char :=
  "openbmp.".toList.map .char ++ [.hole "feed".toList, .char '.', .hole "router_group".toList,
    .char '.', .hole "peer_asn".toList]

def feedConfig : Config Unit :=
  { Config.default Unit with
    topicNames := fun _ => written feedTemplate
    topicVars := .assign .empty "feed".toList "parsed".toList }

def feedCall : TopicCall := ⟨.peer, some "core".toList, none, 65000⟩

end SonicBmp.Bus.TopicTemplates
