/- module: SonicBmp/Bgp/LabelLists
   digest: Labelled and VPN lists read back entry by entry, and what an entry takes over from those before it. -/

import SonicBmp.Bgp.LabelCodec

set_option autoImplicit false
set_option relaxedAutoImplicit false

namespace SonicBmp.Bgp.LabelLists

open SonicBmp.Library.Memory
open SonicBmp.Library.Printing (Text decimal)
open SonicBmp.Bgp.Common
open SonicBmp.Bgp.Nlri
open SonicBmp.Bgp.LabelCodec

variable {isIPv4 isVPN : Bool}

/-! Round trip. -/

/-- The values of a label stack, joined by commas. -/
def joinedLabels (f : LabelField) : Text :=
  List.intercalate [','] ((f.upper ++ [f.last]).map fun l => decimal l.value)

/-- A tuple that shows an entry. -/
structure Shows (addPath : Bool) (e : LabelRoute isIPv4 isVPN) (t : VpnTuple) : Prop where
  labels : t.labels = joinedLabels e.labels
  len : t.len = e.route.len
  prefixText : e.route.len ≠ 0 → t.prefixText = inetNtop isIPv4 e.route.bin
  defaultText : e.route.len = 0 → t.prefixText = if isIPv4 then "0.0.0.0".toList else "::".toList
  pathId : t.pathId = if addPath && !isVPN then e.route.pathId.toNat else 0
  rd : ∀ d ∈ e.rd, ∀ before : VpnTuple,
    t.rdType = (parseRouteDistinguisher (memOf d.bytes) 0 before).rdType ∧
      t.rdAssignedNumber = (parseRouteDistinguisher (memOf d.bytes) 0 before).rdAssignedNumber ∧
      t.rdAdministratorSubfield =
        (parseRouteDistinguisher (memOf d.bytes) 0 before).rdAdministratorSubfield

theorem text_eq_joinedLabels (f : LabelField) : f.text = joinedLabels f := by
  have joined (upper : List Label) (last : Label) :
      upper.flatMap (fun l => decimal l.value ++ [',']) ++ decimal last.value =
        List.intercalate [','] ((upper ++ [last]).map fun l => decimal l.value) := by
    induction upper with
    | nil => simp [List.intercalate]
    | cons l upper ih =>
      have more : (upper ++ [last]).map (fun l => decimal l.value) ≠ [] := by simp
      obtain ⟨w, ws, split⟩ := List.exists_cons_of_ne_nil more
      rw [List.flatMap_cons, List.append_assoc, ih, List.cons_append, List.map_cons, split,
        List.intercalate_cons_cons]
  exact joined f.upper f.last

theorem shows_write (addPath : Bool) (e : LabelRoute isIPv4 isVPN) (t : VpnTuple) :
    Shows addPath e (e.write addPath t) where
  labels := text_eq_joinedLabels e.labels
  len := rfl
  prefixText _ := rfl
  defaultText zero := by
    have empty : e.route.addr = [] := List.length_eq_zero_iff.mp (by rw [e.route.addr_length, zero])
    have zeros : e.route.bin = List.replicate 16 0 := by simp [Prefix.bin, empty]
    rw [← inetNtop_default, ← zeros]
    rfl
  pathId := rfl
  rd d here before := by
    rw [parseRouteDistinguisher_of_holds d before (holds_memOf d.bytes)]
    simp only [LabelRoute.write, Option.mem_def.mp here, Option.elim_some, and_self]

theorem forall₂_writeAll (addPath : Bool) (es : List (LabelRoute isIPv4 isVPN)) (t : VpnTuple) :
    List.Forall₂ (Shows addPath) es (writeAll addPath es t) := by
  induction es generalizing t with
  | nil => exact .nil
  | cons e es ih => exact .cons (shows_write addPath e t) (ih _)

/-- Every entry of an encoded list comes back as one tuple, in order. -/
theorem label_round_trip (stack : VpnTuple) (info : PeerInfo) (m : Mem) (data : Nat)
    (es : List (LabelRoute isIPv4 isVPN))
    (held : Holds m data (encodeLabelRoutes (addPathLabel info isIPv4 isVPN) es)) :
    List.Forall₂ (Shows (addPathLabel info isIPv4 isVPN)) es
      (parseNlriDataLabelIPv4IPv6 isIPv4 isVPN stack info m data
        (encodeLabelRoutes (addPathLabel info isIPv4 isVPN) es).length) := by
  rw [parseNlriDataLabelIPv4IPv6_of_holds stack info m data es held]
  exact forall₂_writeAll _ es _

private theorem eight_le_maxBits : 8 ≤ maxBits true := by decide

private theorem ten_length : [(10 : UInt8)].length = (8 + 7) / 8 := rfl

/-- Two labels, a distinguisher of type 1 and the prefix 10.0.0.0/8. -/
private def tenVpn : LabelRoute true true where
  labels := ⟨[⟨0, 1, 0⟩], ⟨0, 2, 1⟩, by decide, by decide⟩
  rd := some (.ipv4 0x0a000001 7)
  route := ⟨8, [10], 0, eight_le_maxBits, ten_length⟩
  rd_isSome := rfl
  fits := by decide

theorem tenVpn_round_trip :
    Holds (memOf (encodeLabelRoutes (addPathLabel .fresh true true) [tenVpn])) 0
        (encodeLabelRoutes (addPathLabel .fresh true true) [tenVpn]) ∧
      List.Forall₂ (Shows (addPathLabel .fresh true true)) [tenVpn]
        (parseNlriDataLabelIPv4IPv6 true true Decoders.silent.stackTuple .fresh
          (memOf (encodeLabelRoutes (addPathLabel .fresh true true) [tenVpn])) 0
          (encodeLabelRoutes (addPathLabel .fresh true true) [tenVpn]).length) :=
  ⟨holds_memOf _, label_round_trip _ .fresh _ 0 [tenVpn] (holds_memOf _)⟩

/-! Independence. -/

/-- The fields that the tuple type has: a `prefix_tuple` has no distinguisher. -/
def fields (isVPN : Bool) (t : VpnTuple) : PrefixTuple × Option (Nat × Text × Text) :=
  (t.toPrefixTuple,
    if isVPN then some (t.rdType, t.rdAssignedNumber, t.rdAdministratorSubfield) else none)

/-- A tuple object as its declaration leaves it: the strings are empty, the rest is
whatever the stack held. -/
structure Unwritten (t : VpnTuple) : Prop where
  labels : t.labels = []
  prefixText : t.prefixText = []
  assigned : t.rdAssignedNumber = []
  administrator : t.rdAdministratorSubfield = []
  bin : t.prefixBin.length = 16

/-- The entries give these tuples, wherever they lie, whatever follows them and whatever
the stack held. -/
def Yields (info : PeerInfo) (es : List (RawRoute isIPv4 isVPN))
    (ts : List (PrefixTuple × Option (Nat × Text × Text))) : Prop :=
  ∀ (m : Mem) (data : Nat) (stack : VpnTuple), Unwritten stack →
    Holds m data (es.flatMap (RawRoute.encode (addPathLabel info isIPv4 isVPN))) →
    (parseNlriDataLabelIPv4IPv6 isIPv4 isVPN stack info m data
      (es.flatMap (RawRoute.encode (addPathLabel info isIPv4 isVPN))).length).map
        (fields isVPN) = ts

def LabelComposes (info : PeerInfo) (a b : List (RawRoute isIPv4 isVPN)) : Prop :=
  ∃ ta tb, Yields info a ta ∧ Yields info b tb ∧ Yields info (a ++ b) (ta ++ tb)

def Registered (e : RawRoute isIPv4 isVPN) : Prop := e.rd.getD 1 0 ≤ 2

instance (e : RawRoute isIPv4 isVPN) : Decidable (Registered e) :=
  inferInstanceAs (Decidable (_ ≤ _))

/-- No default route, and no distinguisher of an unknown type behind one of a known type. -/
structure SelfContained (es : List (RawRoute isIPv4 isVPN)) : Prop where
  addressed : ∀ e ∈ es, e.route.addr ≠ []
  registered : isVPN = true → es.Pairwise fun e later => Registered e → Registered later

/-! What an entry takes over. -/

section Distinguish

variable (e : RawRoute isIPv4 true) (t : VpnTuple)

theorem distinguish_eq : e.distinguish t = parseRouteDistinguisher (memOf e.rd) 0 t := if_pos rfl

theorem type_at : u8 (memOf e.rd) (0 + 1) = (e.rd.getD 1 0).toNat := by
  rw [u8, memOf_apply]

/-- A distinguisher of a known type writes all of its fields. -/
theorem distinguish_registered (known : Registered e) (t' : VpnTuple) :
    (e.distinguish t).rdType = (e.distinguish t').rdType ∧
      (e.distinguish t).rdAssignedNumber = (e.distinguish t').rdAssignedNumber ∧
      (e.distinguish t).rdAdministratorSubfield = (e.distinguish t').rdAdministratorSubfield ∧
      (e.distinguish t).rdAssignedNumber ≠ [] := by
  have small : (e.rd.getD 1 0).toNat ≤ 2 := known
  simp only [distinguish_eq, parseRouteDistinguisher, type_at]
  interval_cases (e.rd.getD 1 0).toNat
  · exact ⟨rfl, rfl, rfl, decimal_ne_nil _⟩
  · exact ⟨rfl, rfl, rfl, decimal_ne_nil _⟩
  · exact ⟨rfl, rfl, rfl, decimal_ne_nil _⟩

/-- One of an unknown type writes its type and leaves both texts. -/
theorem distinguish_unregistered (unknown : ¬ Registered e) :
    e.distinguish t = { t with rdType := (e.rd.getD 1 0).toNat } := by
  have large : ¬ (e.rd.getD 1 0).toNat ≤ 2 := unknown
  obtain ⟨k, type⟩ : ∃ k, (e.rd.getD 1 0).toNat = k + 3 := ⟨(e.rd.getD 1 0).toNat - 3, by omega⟩
  simp only [distinguish_eq, parseRouteDistinguisher, type_at, type]

end Distinguish

/-! The tuples of a list. -/

section Tuples

variable (addPath : Bool)

/-- Both texts of the distinguisher are still empty. -/
def NoTexts (t : VpnTuple) : Prop := t.rdAssignedNumber = [] ∧ t.rdAdministratorSubfield = []

theorem write_toPrefixTuple (e : RawRoute isIPv4 isVPN) (t : VpnTuple) :
    (e.write addPath t).toPrefixTuple =
      { t.toPrefixTuple with
        len := e.route.len
        prefixText := inetNtop isIPv4 e.route.bin
        prefixBin := if e.route.addr = [] then t.prefixBin else e.route.bin
        pathId := if addPath && !isVPN then e.route.pathId.toNat else 0
        labels := e.labels.text } := by
  simp only [RawRoute.write, RawRoute.distinguish_toPrefixTuple]

theorem noTexts_write {e : RawRoute isIPv4 true} {t : VpnTuple} (unknown : ¬ Registered e) :
    NoTexts (e.write addPath t) ↔ NoTexts t := by
  rw [RawRoute.write, distinguish_unregistered e t unknown]
  rfl

/-- The texts stay empty exactly as long as every type is unknown. -/
theorem noTexts_foldl_write (es : List (RawRoute isIPv4 true)) (t : VpnTuple) :
    NoTexts (es.foldl (fun t e => e.write addPath t) t) ↔
      NoTexts t ∧ ∀ e ∈ es, ¬ Registered e := by
  induction es generalizing t with
  | nil => simp
  | cons e es ih =>
    rw [List.foldl_cons, ih, List.forall_mem_cons]
    by_cases known : Registered e
    · have written : ¬ NoTexts (e.write addPath t) :=
        fun none => (distinguish_registered e t known t).2.2.2 none.1
      simp [written, known]
    · rw [noTexts_write addPath known]
      simp [known]

/-- Two tuple objects that an entry makes alike. -/
theorem fields_write {e : RawRoute isIPv4 isVPN} {t t' : VpnTuple} (addressed : e.route.addr ≠ [])
    (type : t.type = t'.type) (family : t.isIPv4 = t'.isIPv4)
    (texts : isVPN = true → Registered e ∨ NoTexts t ∧ NoTexts t') :
    fields isVPN (e.write addPath t) = fields isVPN (e.write addPath t') := by
  refine Prod.ext ?_ ?_
  · simp only [fields, write_toPrefixTuple, if_neg addressed, type, family]
  · cases isVPN with
    | false => rfl
    | true =>
      by_cases known : Registered e
      · obtain ⟨rdType, assigned, administrator, -⟩ := distinguish_registered e t known t'
        simp only [fields, RawRoute.write, rdType, assigned, administrator]
      · obtain ⟨none, none'⟩ := (texts rfl).resolve_left known
        simp only [fields, RawRoute.write, distinguish_unregistered e _ known, none.1, none.2,
          none'.1, none'.2]

/-- A tuple object of which nothing is written, its address bytes all alike. -/
def blank (fill : UInt8) : VpnTuple :=
  ⟨⟨.unicastV4, 0, [], List.replicate 16 fill, 0, true, []⟩, [], [], 0⟩

theorem unwritten_blank (fill : UInt8) : Unwritten (blank fill) := ⟨rfl, rfl, rfl, rfl, rfl⟩

/-- The tuple of an entry on its own. -/
def alone (e : RawRoute isIPv4 isVPN) : PrefixTuple × Option (Nat × Text × Text) :=
  fields isVPN (e.write addPath (labelStack isIPv4 (blank 0)))

/-- From the first entry of a known type on there are texts, and from there on every type
is known; before it there are none. -/
theorem map_fields_writeAll (es : List (RawRoute isIPv4 isVPN)) (contained : SelfContained es)
    (t : VpnTuple) (type : t.type = labelType isIPv4) (family : t.isIPv4 = isIPv4)
    (texts : isVPN = true → (∀ e ∈ es, Registered e) ∨ NoTexts t) :
    (RawRoute.writeAll addPath es t).map (fields isVPN) = es.map (alone addPath) := by
  induction es generalizing t with
  | nil => rfl
  | cons e es ih =>
    have rest : SelfContained es :=
      ⟨fun e here => contained.addressed e (List.mem_cons_of_mem _ here),
        fun vpn => (List.pairwise_cons.mp (contained.registered vpn)).2⟩
    have kept := write_toPrefixTuple addPath e t
    have first : fields isVPN (e.write addPath t) = alone addPath e := by
      refine fields_write addPath (contained.addressed e List.mem_cons_self) type family ?_
      intro vpn
      exact (texts vpn).imp (fun all => all e List.mem_cons_self) fun none => ⟨none, rfl, rfl⟩
    rw [RawRoute.writeAll, List.map_cons, List.map_cons, first, ih rest]
    · exact (congrArg PrefixTuple.type kept).trans type
    · exact (congrArg PrefixTuple.isIPv4 kept).trans family
    · rintro rfl
      by_cases known : Registered e
      · have after := (List.pairwise_cons.mp (contained.registered rfl)).1
        exact Or.inl fun later here => after later here known
      · refine (texts rfl).imp (fun all => absurd (all e List.mem_cons_self) known) ?_
        exact (noTexts_write addPath known).mpr

end Tuples

section Lists

variable (info : PeerInfo)

theorem yields_iff {es : List (RawRoute isIPv4 isVPN)}
    {ts : List (PrefixTuple × Option (Nat × Text × Text))} :
    Yields info es ts ↔ ∀ stack, Unwritten stack →
      (RawRoute.writeAll (addPathLabel info isIPv4 isVPN) es (labelStack isIPv4 stack)).map
        (fields isVPN) = ts := by
  constructor
  · intro yields stack unwritten
    rw [← parseLabel_of_holds stack info _ 0 es (holds_memOf _)]
    exact yields _ 0 stack unwritten (holds_memOf _)
  · intro written m data stack unwritten held
    rw [parseLabel_of_holds stack info m data es held]
    exact written stack unwritten

theorem yields_of_selfContained {es : List (RawRoute isIPv4 isVPN)} (contained : SelfContained es) :
    Yields info es (es.map (alone (addPathLabel info isIPv4 isVPN))) := by
  rw [yields_iff]
  intro stack unwritten
  exact map_fields_writeAll _ es contained _ rfl rfl fun _ =>
    Or.inr ⟨unwritten.assigned, unwritten.administrator⟩

theorem SelfContained.of_append {a b : List (RawRoute isIPv4 isVPN)}
    (contained : SelfContained (a ++ b)) : SelfContained a ∧ SelfContained b := by
  have addressed := List.forall_mem_append.mp contained.addressed
  exact ⟨⟨addressed.1, fun vpn => (List.pairwise_append.mp (contained.registered vpn)).1⟩,
    ⟨addressed.2, fun vpn => (List.pairwise_append.mp (contained.registered vpn)).2.1⟩⟩

theorem writeAll_append (addPath : Bool) (a b : List (RawRoute isIPv4 isVPN)) (t : VpnTuple) :
    RawRoute.writeAll addPath (a ++ b) t =
      RawRoute.writeAll addPath a t ++
        RawRoute.writeAll addPath b (a.foldl (fun t e => e.write addPath t) t) := by
  induction a generalizing t with
  | nil => rfl
  | cons e a ih => rw [List.cons_append, RawRoute.writeAll, ih, RawRoute.writeAll]; rfl

/-- A default route shows whatever the stack held. -/
theorem addressed_of_yields {e : RawRoute isIPv4 isVPN} {es : List (RawRoute isIPv4 isVPN)}
    {ts : List (PrefixTuple × Option (Nat × Text × Text))} (yields : Yields info (e :: es) ts) :
    e.route.addr ≠ [] := by
  intro empty
  rw [yields_iff] at yields
  have same := (yields _ (unwritten_blank 0)).trans (yields _ (unwritten_blank 1)).symm
  have heads := congrArg (fun t => t.1.prefixBin) (List.cons.inj same).1
  simp only [fields, write_toPrefixTuple, if_pos empty] at heads
  have bins : List.replicate 16 (0 : UInt8) = List.replicate 16 1 := heads
  exact absurd bins (by decide)

/-- Behind an entry of a known type, one of an unknown type shows its texts. -/
theorem unregistered_of_composes {a b : List (RawRoute isIPv4 true)} {e : RawRoute isIPv4 true}
    (composes : LabelComposes info a (e :: b)) (unknown : ¬ Registered e) :
    ∀ before ∈ a, ¬ Registered before := by
  obtain ⟨ta, tb, forA, forB, both⟩ := composes
  rw [yields_iff] at forA forB both
  have whole := both _ (unwritten_blank 0)
  rw [writeAll_append, List.map_append, forA _ (unwritten_blank 0),
    ← forB _ (unwritten_blank 0)] at whole
  have heads := (List.cons.inj (List.append_cancel_left whole)).1
  have texts : NoTexts (a.foldl (fun t e => e.write (addPathLabel info isIPv4 true) t)
      (labelStack isIPv4 (blank 0))) := by
    simp only [fields, if_true, RawRoute.write, distinguish_unregistered e _ unknown,
      Prod.mk.injEq, Option.some.injEq, true_and] at heads
    exact heads.2
  exact ((noTexts_foldl_write _ a _).mp texts).2

/-- However a list is cut, its two parts parse on their own to what they parse to together,
exactly if no entry is a default route and no distinguisher of an unknown type comes behind
one of a known type. -/
theorem label_composes_iff (es : List (RawRoute isIPv4 isVPN)) :
    (∀ a b, es = a ++ b → LabelComposes info a b) ↔ SelfContained es := by
  constructor
  · intro composes
    constructor
    · intro e here
      obtain ⟨a, b, rfl⟩ := List.append_of_mem here
      obtain ⟨ta, tb, -, forB, -⟩ := composes a (e :: b) rfl
      exact addressed_of_yields info forB
    · rintro rfl
      rw [List.pairwise_iff_forall_sublist]
      intro e later pair known
      by_contra unknown
      obtain ⟨front, back, rfl, here, rest⟩ := List.cons_sublist_iff.mp pair
      obtain ⟨a, b, rfl⟩ := List.append_of_mem (List.singleton_sublist.mp rest)
      have before := unregistered_of_composes info
        (composes (front ++ a) (later :: b) (List.append_assoc ..).symm) unknown
      exact before e (List.mem_append_left a here) known
  · rintro contained a b rfl
    obtain ⟨forA, forB⟩ := contained.of_append
    refine ⟨_, _, yields_of_selfContained info forA, yields_of_selfContained info forB, ?_⟩
    rw [← List.map_append]
    exact yields_of_selfContained info contained

end Lists

private theorem zero_le_maxBits : 0 ≤ maxBits true := by decide

private theorem nil_length : ([] : List UInt8).length = (0 + 7) / 8 := rfl

private theorem no_rd_length : ([] : List UInt8).length = if false then 8 else 0 := rfl

/-- 10.0.0.0/8 and the default route, both with the labels 16 and 32. -/
private def tenRoute : RawRoute true false where
  labels := tenVpn.labels
  rd := []
  route := tenVpn.route
  rd_length := no_rd_length
  fits := by decide

private def defaultRoute : RawRoute true false :=
  { tenRoute with route := ⟨0, [], 0, zero_le_maxBits, nil_length⟩, fits := by decide }

theorem default_after_ten_not_composed : ¬ LabelComposes .fresh [tenRoute] [defaultRoute] := by
  rintro ⟨ta, tb, -, forB, -⟩
  exact addressed_of_yields .fresh forB rfl

end SonicBmp.Bgp.LabelLists
