/- module: SonicBmp/Bus/TopicSelector
   digest: The topics that the selector keeps under joined keys, and when a kept topic is the caller's own. -/

import SonicBmp.Library.Memo
import SonicBmp.Library.Printing

set_option autoImplicit false
set_option relaxedAutoImplicit false

namespace SonicBmp.Bus.TopicSelector

open SonicBmp.Library.Printing
open SonicBmp.Library.Memo (Table)

/-- `MSGBUS_TOPIC_VAR_*`. -/
inductive TopicVar
  | collector | router | peer | baseAttribute | unicastPrefix | l3vpn | evpn | lsNode | lsLink
  | lsPrefix | bmpStat | bmpRaw
  deriving DecidableEq, Repr

def TopicVar.text : TopicVar → Text
  | collector => "collector".toList
  | router => "router".toList
  | peer => "peer".toList
  | baseAttribute => "base_attribute".toList
  | unicastPrefix => "unicast_prefix".toList
  | l3vpn => "l3vpn".toList
  | evpn => "evpn".toList
  | lsNode => "ls_node".toList
  | lsLink => "ls_link".toList
  | lsPrefix => "ls_prefix".toList
  | bmpStat => "bmp_stat".toList
  | bmpRaw => "bmp_raw".toList

/-- The arguments of `getTopic`. A group is a pointer, which may be NULL. -/
structure TopicCall where
  topicVar : TopicVar
  routerGroup : Option Text
  peerGroup : Option Text
  peerAsn : UInt32
  deriving DecidableEq

/-- `topic_names_map`, and the names that `RdKafka::Topic::create` makes a topic of. -/
structure TopicEnv where
  topicNames : TopicVar → Text
  creates : Text → Bool

/-! Names. -/

/-- `boost::replace_all`: occurrences from the left, the replaced text is not read again.
`skip` characters belong to the occurrence just replaced. -/
def replaceFrom (old new : Text) : (skip : Nat) → Text → Text
  | _, [] => []
  | skip + 1, _ :: rest => replaceFrom old new skip rest
  | 0, c :: rest =>
    if old.isPrefixOf (c :: rest) then new ++ replaceFrom old new (old.length - 1) rest
    else c :: replaceFrom old new 0 rest

def replaceAll (old new text : Text) : Text := replaceFrom old new 0 text

/-- `find` does not give `npos`. -/
def occurs (old text : Text) : Bool := text.tails.any old.isPrefixOf

def routerGroupMark : Text := "\x7brouter_group\x7d".toList

def peerGroupMark : Text := "\x7bpeer_group\x7d".toList

def peerAsnMark : Text := "\x7bpeer_asn\x7d".toList

/-- NULL and the empty string mean that there is no group. -/
def groupText (group : Option Text) : Text := group.getD []

def groupName (group : Option Text) : Text :=
  if groupText group = [] then "default".toList else groupText group

def asnText (asn : UInt32) : Text := if 0 < asn.toNat then decimal asn.toNat else []

def asnName (asn : UInt32) : Text := if 0 < asn.toNat then decimal asn.toNat else "default".toList

/-- The template with the router group substituted, then the peer group, then the ASN;
the collector's template is taken as it is, the router's has a router group only. -/
def TopicEnv.topicName (env : TopicEnv) (call : TopicCall) : Text :=
  let name := env.topicNames call.topicVar
  if call.topicVar = .collector then name
  else
    let name := replaceAll routerGroupMark (groupName call.routerGroup) name
    if call.topicVar = .router then name
    else
      let name := replaceAll peerGroupMark (groupName call.peerGroup) name
      replaceAll peerAsnMark (asnName call.peerAsn) name

/-! The selector. -/

/-- `getTopicKey`, with the flag of the topic variable. -/
def getTopicKey (includePeerAsn : Bool) (call : TopicCall) : Text :=
  call.topicVar.text ++
    if call.topicVar = .collector then []
    else '_' :: (groupText call.routerGroup ++
      if call.topicVar = .router then []
      else '_' :: (groupText call.peerGroup ++
        if includePeerAsn then '_' :: asnText call.peerAsn else []))

/-- `topic`, whose entries may be NULL, and `include_peerAsn` in `topic_flags_map`, which is
false for a variable that has no entry. -/
structure Selector where
  topic : Text → Option (Option Text)
  includePeerAsn : TopicVar → Bool

def Selector.new : Selector := ⟨fun _ => none, fun _ => false⟩

/-- What a call gives: a topic, here its name, or NULL, or the exception of `initTopic`. -/
inductive TopicResult
  | topic (name : Text)
  | null
  | thrown (error : String)
  deriving DecidableEq

def failedToCreate : TopicResult := .thrown "ERROR: Failed to create topic"

/-- `RdKafka::Topic::create`. -/
def TopicEnv.create (env : TopicEnv) (call : TopicCall) : Option Text :=
  if env.creates (env.topicName call) then some (env.topicName call) else none

def TopicEnv.wantsAsn (env : TopicEnv) (topicVar : TopicVar) : Bool :=
  occurs peerAsnMark (env.topicNames topicVar)

/-- The flag is learned from the template, and the key is formed once more with it. A topic
already kept under that key is deleted; `getTopic_eq` has none there. -/
def Selector.initTopic (env : TopicEnv) (sel : Selector) (call : TopicCall) :
    TopicResult × Selector :=
  let flags := Function.update sel.includePeerAsn call.topicVar (env.wantsAsn call.topicVar)
  let key := getTopicKey (flags call.topicVar) call
  let sel' : Selector := ⟨Function.update sel.topic key (some (env.create call)), flags⟩
  match env.create call with
  | none => (failedToCreate, sel')
  | some name => (.topic name, sel')

def Selector.getTopic (env : TopicEnv) (sel : Selector) (call : TopicCall) :
    TopicResult × Selector :=
  match sel.topic (getTopicKey (sel.includePeerAsn call.topicVar) call) with
  | some (some name) => (.topic name, sel)
  | some none => (.null, sel)
  | none => sel.initTopic env call

/-- The results of one call after another. -/
def Selector.run (env : TopicEnv) : Selector → List TopicCall → List TopicResult
  | _, [] => []
  | sel, call :: calls => (sel.getTopic env call).1 :: run env (sel.getTopic env call).2 calls

/-! Keys. -/

/-- No variable's text begins another's. -/
theorem var_of_text_begins {v v' : TopicVar} (begins : v.text <+: v'.text) : v = v' := by
  revert begins
  cases v <;> cases v' <;> decide

theorem var_of_getTopicKey {flag flag' : Bool} {call call' : TopicCall}
    (same : getTopicKey flag call = getTopicKey flag' call') : call.topicVar = call'.topicVar := by
  have begins : call.topicVar.text <+: getTopicKey flag' call' := same ▸ List.prefix_append _ _
  rcases List.prefix_or_prefix_of_prefix begins (List.prefix_append _ _) with short | short
  · exact var_of_text_begins short
  · exact (var_of_text_begins short).symm

theorem underscore_not_mem_asnText (asn : UInt32) : '_' ∉ asnText asn := by
  unfold asnText
  split
  · exact not_mem_decimal rfl _
  · simp

theorem asnText_injective : Function.Injective asnText := by
  intro asn asn' same
  apply UInt32.toNat_inj.mp
  unfold asnText at same
  have shown (n : Nat) : decimal n ≠ [] := Nat.toDigits_ne_nil
  split at same <;> split at same
  · exact decimal_injective same
  · exact absurd same (shown _)
  · exact absurd same.symm (shown _)
  · omega

/-- What two keys do not tell apart: the group names are compared as they are joined, an
underscore in one of them counts like the one between them, and the ASN is compared if the
template asks for it. -/
def TopicEnv.JoinedAlike (env : TopicEnv) (call call' : TopicCall) : Prop :=
  call.topicVar = call'.topicVar ∧
    (call.topicVar ≠ .collector →
      if call.topicVar = .router then groupText call.routerGroup = groupText call'.routerGroup
      else
        groupText call.routerGroup ++ '_' :: groupText call.peerGroup =
          groupText call'.routerGroup ++ '_' :: groupText call'.peerGroup ∧
        (env.wantsAsn call.topicVar = true → call.peerAsn = call'.peerAsn))

/-- The key of a call, once the flag of its variable is known. -/
def TopicEnv.fullKey (env : TopicEnv) (call : TopicCall) : Text :=
  getTopicKey (env.wantsAsn call.topicVar) call

theorem fullKey_eq_iff (env : TopicEnv) (call call' : TopicCall) :
    env.fullKey call = env.fullKey call' ↔ env.JoinedAlike call call' := by
  by_cases var : call.topicVar = call'.topicVar
  · rw [TopicEnv.fullKey, TopicEnv.fullKey, getTopicKey, getTopicKey, TopicEnv.JoinedAlike, ← var,
      List.append_cancel_left_eq]
    by_cases collector : call.topicVar = .collector
    · simp [collector]
    by_cases router : call.topicVar = .router
    · simp [router]
    cases wants : env.wantsAsn call.topicVar with
    | false => simp [collector, router]
    | true =>
      have regrouped (call : TopicCall) :
          groupText call.routerGroup ++
            '_' :: (groupText call.peerGroup ++ '_' :: asnText call.peerAsn) =
          (groupText call.routerGroup ++ '_' :: groupText call.peerGroup) ++
            '_' :: asnText call.peerAsn := by simp
      simp only [collector, router, if_false, if_true, List.cons_eq_cons, true_and, regrouped,
        last_split (underscore_not_mem_asnText _) (underscore_not_mem_asnText _),
        asnText_injective.eq_iff, ne_eq, not_false_eq_true, forall_const]
  · constructor
    · intro same
      exact absurd (var_of_getTopicKey same) var
    · intro alike
      exact absurd alike.1 var

/-! The selector as a table under full keys. -/

def TopicEnv.table (env : TopicEnv) : Table TopicCall Text (Option Text) TopicResult where
  key := env.fullKey
  make := env.create
  miss made := made.elim failedToCreate .topic
  hit kept := kept.elim .null .topic

/-- Every topic kept belongs to a variable whose flag has been learned. -/
structure Learned (env : TopicEnv) (sel : Selector) : Prop where
  flags : ∀ v, sel.includePeerAsn v = true → env.wantsAsn v = true
  kept : ∀ key, sel.topic key ≠ none → ∃ call, key = env.fullKey call ∧
    sel.includePeerAsn call.topicVar = env.wantsAsn call.topicVar

theorem learned_new (env : TopicEnv) : Learned env Selector.new where
  flags _ set := by cases set
  kept _ here := absurd rfl here

/-- A call finds under the key it looks for what is kept under its full key. -/
theorem Learned.lookup {env : TopicEnv} {sel : Selector} (learned : Learned env sel)
    (call : TopicCall) :
    sel.topic (getTopicKey (sel.includePeerAsn call.topicVar) call) =
      sel.topic (env.fullKey call) := by
  by_cases known : sel.includePeerAsn call.topicVar = env.wantsAsn call.topicVar
  · rw [known]
    rfl
  · -- before the flag is learned nothing is kept for the variable
    have absent (flag : Bool) : sel.topic (getTopicKey flag call) = none := by
      by_contra here
      obtain ⟨other, found, known'⟩ := learned.kept _ here
      exact known (var_of_getTopicKey found ▸ known')
    rw [absent, TopicEnv.fullKey, absent]

theorem initTopic_eq (env : TopicEnv) (sel : Selector) (call : TopicCall) :
    sel.initTopic env call =
      (env.table.fresh call,
        ⟨Function.update sel.topic (env.fullKey call) (some (env.create call)),
          Function.update sel.includePeerAsn call.topicVar (env.wantsAsn call.topicVar)⟩) := by
  simp only [Selector.initTopic, Function.update_self, Table.fresh, TopicEnv.table,
    TopicEnv.fullKey]
  cases env.create call <;> rfl

/-- A call does what a step of the table does; in particular `initTopic` never finds a topic
under its key that it would have to delete. -/
theorem getTopic_eq {env : TopicEnv} {sel : Selector} (learned : Learned env sel)
    (call : TopicCall) :
    (sel.getTopic env call).1 = (env.table.step sel.topic call).1 ∧
      (sel.getTopic env call).2.topic = (env.table.step sel.topic call).2 := by
  have own : env.table.key call = env.fullKey call := rfl
  rw [Selector.getTopic, learned.lookup, Table.step, own]
  cases found : sel.topic (env.fullKey call) with
  | none =>
    rw [initTopic_eq]
    exact ⟨rfl, rfl⟩
  | some kept => cases kept <;> exact ⟨rfl, rfl⟩

theorem Learned.getTopic {env : TopicEnv} {sel : Selector} (learned : Learned env sel)
    (call : TopicCall) : Learned env (sel.getTopic env call).2 := by
  rw [Selector.getTopic]
  split
  · exact learned
  · exact learned
  · rw [initTopic_eq]
    constructor
    · intro v set
      by_cases own : v = call.topicVar
      · subst own
        simpa using set
      · exact learned.flags v (by simpa [own] using set)
    · intro key here
      by_cases own : key = env.fullKey call
      · exact ⟨call, own, by simp⟩
      · obtain ⟨other, found, known⟩ := learned.kept key (by simpa [own] using here)
        refine ⟨other, found, ?_⟩
        by_cases same : other.topicVar = call.topicVar
        · simp [same]
        · simpa [same] using known

theorem run_eq {env : TopicEnv} {sel : Selector} (learned : Learned env sel)
    (calls : List TopicCall) : sel.run env calls = env.table.run sel.topic calls := by
  induction calls generalizing sel with
  | nil => rfl
  | cons call calls ih =>
    obtain ⟨result, kept⟩ := getTopic_eq learned call
    rw [Selector.run, Table.run, result, ih (learned.getTopic call), kept]

/-! Transparency. -/

/-- The topic whose name is the template with the call's own groups and ASN, as far as Kafka
makes one of that name. -/
def TopicEnv.ownTopic (env : TopicEnv) (call : TopicCall) : TopicResult :=
  if env.creates (env.topicName call) then .topic (env.topicName call) else failedToCreate

/-- If keys do not tell the calls apart, their names are the same, and Kafka makes a topic of
it: a refused name leaves NULL in the map. -/
def TopicEnv.Shares (env : TopicEnv) (call call' : TopicCall) : Prop :=
  env.JoinedAlike call call' →
    env.topicName call = env.topicName call' ∧ env.creates (env.topicName call') = true

theorem table_fresh (env : TopicEnv) (call : TopicCall) :
    env.table.fresh call = env.ownTopic call := by
  simp only [Table.fresh, TopicEnv.table, TopicEnv.create, TopicEnv.ownTopic]
  split <;> rfl

theorem covers_iff (env : TopicEnv) (call call' : TopicCall) :
    env.table.Covers call call' ↔ env.Shares call call' := by
  have own : env.table.key call = env.table.key call' ↔ env.JoinedAlike call call' :=
    fullKey_eq_iff env call call'
  rw [Table.Covers, TopicEnv.Shares, own, table_fresh]
  apply imp_congr_right
  intro _
  simp only [TopicEnv.table, TopicEnv.create, TopicEnv.ownTopic, failedToCreate]
  constructor
  · intro same
    split at same <;> split at same <;> simp_all
  · rintro ⟨same, made⟩
    rw [same, if_pos made, if_pos made]
    rfl

/-- A new selector gives a call its own topic, and so does one that has seen other calls,
exactly when the calls whose keys read alike have names that are alike. -/
theorem getTopic_transparent_iff (env : TopicEnv) (calls : List TopicCall) :
    (∀ call, (Selector.new.getTopic env call).1 = env.ownTopic call) ∧
      (Selector.new.run env calls = calls.map env.ownTopic ↔ calls.Pairwise env.Shares) := by
  constructor
  · intro call
    rw [(getTopic_eq (learned_new env) call).1, ← table_fresh]
    rfl
  · have settled : ∀ kept made, env.table.hit kept = env.table.miss made →
        env.table.hit made = env.table.miss made := by
      intro kept made same
      cases made with
      | none => cases kept <;> cases same
      | some name => rfl
    have fresh : env.table.fresh = env.ownTopic := funext (table_fresh env)
    have covers : env.table.Covers = env.Shares := by
      funext call call'
      exact propext (covers_iff env call call')
    rw [run_eq (learned_new env), ← fresh, ← covers]
    exact Table.run_eq_fresh_iff settled calls

/-- Every topic is named after its groups, and Kafka takes every name. -/
def groupTopics : TopicEnv :=
  ⟨fun _ => "bmp.\x7brouter_group\x7d.\x7bpeer_group\x7d".toList, fun _ => true⟩

def joinedCall (routerGroup peerGroup : String) : TopicCall :=
  ⟨.unicastPrefix, some routerGroup.toList, some peerGroup.toList, 65001⟩

/-- The second call gets the topic of the first one's groups. -/
theorem underscore_groups_share_topic :
    Selector.new.run groupTopics [joinedCall "a_b" "c", joinedCall "a" "b_c"] =
        [.topic "bmp.a_b.c".toList, .topic "bmp.a_b.c".toList] ∧
      groupTopics.ownTopic (joinedCall "a" "b_c") = .topic "bmp.a.b_c".toList ∧
      Selector.new.run groupTopics [joinedCall "a_b" "c", joinedCall "a" "b_c"] ≠
        [joinedCall "a_b" "c", joinedCall "a" "b_c"].map groupTopics.ownTopic := by
  decide +kernel

end SonicBmp.Bus.TopicSelector
