import Mathlib.Data.List.Nodup
import Mathlib.Logic.Relation
import Packrat.Grammar.Check

/-!
# Reachability

`Grammar.Reaches` relates a name to those that references lead to from it, through the bodies of
rules. The check of a grammar finds them in rounds: between two of these, the rules among the others
that are referred to are the wanted ones (`Reach.Frontier`). Every round but the last reaches a
rule, so there are enough of them, and in the end the rules are split into those that the start
reaches and the others (`Grammar.reach_splits`). What is reported as undefined is the start, if
there is no such rule, and what the rules reached refer to in vain (`Grammar.mem_undefined_iff`).
-/

set_option autoImplicit false

namespace Packrat

/-! ## The references of an expression -/

namespace Expr

mutual

theorem addReferences_eq (expr : Expr) (names : List String) :
    expr.addReferences names = expr.references ++ names := by
  unfold references
  cases expr with
  | sequence exprs => exact addReferencesOf_eq exprs names
  | choice exprs => exact addReferencesOf_eq exprs names
  | zeroOrMore expr => exact addReferences_eq expr names
  | oneOrMore expr => exact addReferences_eq expr names
  | optional expr => exact addReferences_eq expr names
  | followedBy expr => exact addReferences_eq expr names
  | notFollowedBy expr => exact addReferences_eq expr names
  | _ => rfl

theorem addReferencesOf_eq (exprs : List Expr) (names : List String) :
    addReferencesOf exprs names = addReferencesOf exprs [] ++ names := by
  cases exprs with
  | nil => rfl
  | cons expr exprs =>
    simp only [addReferencesOf]
    rw [addReferencesOf_eq exprs (expr.addReferences names),
      addReferencesOf_eq exprs (expr.addReferences []), addReferences_eq expr names,
      addReferences_eq expr [], List.append_nil, List.append_assoc]

end

theorem references_sequence_cons (expr : Expr) (exprs : List Expr) :
    (sequence (expr :: exprs)).references = (sequence exprs).references ++ expr.references :=
  addReferencesOf_eq exprs expr.references

theorem references_choice_cons (expr : Expr) (exprs : List Expr) :
    (choice (expr :: exprs)).references = (choice exprs).references ++ expr.references :=
  addReferencesOf_eq exprs expr.references

end Expr

/-! ## References between rules -/

namespace Grammar

variable {grammar : Grammar} {name : String} {rule : Rule}

/-- The rule of a name refers to a name. -/
def RefersTo (grammar : Grammar) (referrer name : String) : Prop :=
  ∃ rule, grammar.rule? referrer = some rule ∧ name ∈ rule.body.references

/-- References lead from a name to a name, which may be the same. -/
def Reaches (grammar : Grammar) : String → String → Prop := Relation.ReflTransGen grammar.RefersTo

theorem rule?_eq_some_iff :
    grammar.rule? name = some rule ↔ rule ∈ grammar.rules ∧ rule.name = name := by
  constructor
  · intro h
    exact ⟨List.mem_of_find?_eq_some h, by simpa using List.find?_some h⟩
  · rintro ⟨hmem, hname⟩
    cases hfound : grammar.rule? name with
    | none =>
      have hnotmem := not_mem_names_of_rule?_eq_none hfound
      exact absurd (hname ▸ List.mem_map_of_mem hmem) hnotmem
    | some found =>
      have hfoundmem : found ∈ grammar.rules := List.mem_of_find?_eq_some hfound
      have hfoundname : found.name = name := by simpa using List.find?_some hfound
      rw [List.inj_on_of_nodup_map grammar.names_nodup hfoundmem hmem (hfoundname.trans hname.symm)]

end Grammar

/-! ## The rounds -/

namespace Reach

variable {grammar : Grammar} {start : String} {wanted : List String} {reach : Reach}

/-- What holds between two rounds: all that is reached or wanted can be reached, and what the start
or the rules reached refer to is reached or wanted. -/
structure Frontier (grammar : Grammar) (start : String) (wanted : List String) (reach : Reach) :
    Prop where
  covers : ∀ rule, rule ∈ grammar.rules ↔ rule ∈ reach.reached ∨ rule ∈ reach.others
  of_reached : ∀ rule ∈ reach.reached, grammar.Reaches start rule.name
  of_wanted : ∀ name ∈ wanted, grammar.Reaches start name
  start_wanted : ∀ other ∈ reach.others, other.name = start → other.name ∈ wanted
  references_wanted : ∀ rule ∈ reach.reached, ∀ other ∈ reach.others,
    other.name ∈ rule.body.references → other.name ∈ wanted

/-- The rules of the grammar are those that can be reached and the others. -/
structure Splits (grammar : Grammar) (start : String) (reach : Reach) : Prop where
  covers : ∀ rule, rule ∈ grammar.rules ↔ rule ∈ reach.reached ∨ rule ∈ reach.others
  of_reached : ∀ rule ∈ reach.reached, grammar.Reaches start rule.name
  of_other : ∀ rule ∈ reach.others, ¬ grammar.Reaches start rule.name

theorem frontier_start (grammar : Grammar) (start : String) :
    Frontier grammar start [start] ⟨[], grammar.rules⟩ where
  covers _ := by simp
  of_reached := nofun
  of_wanted name h := by
    rw [List.mem_singleton.1 h]
    exact .refl
  start_wanted _ _ h := List.mem_singleton.2 h
  references_wanted := nofun

/-- When none of the others is wanted, none can be reached. -/
theorem Frontier.splits (h : Frontier grammar start wanted reach)
    (hnone : ∀ other ∈ reach.others, other.name ∉ wanted) : Splits grammar start reach := by
  refine ⟨h.covers, h.of_reached, fun other hother hreaches => ?_⟩
  -- by induction on the way there, as the last rule before it is one of those reached
  generalize hname : other.name = name at hreaches
  induction hreaches generalizing other with
  | refl => exact hnone other hother (h.start_wanted other hother hname)
  | tail _ hrefers ih =>
    obtain ⟨rule, hr, hmem⟩ := hrefers
    obtain ⟨hrule, hrulename⟩ := Grammar.rule?_eq_some_iff.1 hr
    rcases (h.covers rule).1 hrule with hreached | hothers
    · exact hnone other hother (h.references_wanted rule hreached other hother (hname ▸ hmem))
    · exact ih rule hothers hrulename

/-- One round: the rules found among the others are reached, and what they refer to is wanted. -/
theorem Frontier.round (h : Frontier grammar start wanted reach) {found others : List Rule}
    (hfound : ∀ rule, rule ∈ found ↔ rule ∈ reach.others ∧ rule.name ∈ wanted)
    (hothers : ∀ rule, rule ∈ others ↔ rule ∈ reach.others ∧ rule.name ∉ wanted) :
    Frontier grammar start (found.flatMap fun rule => rule.body.references)
      ⟨reach.reached ++ found, others⟩ where
  covers rule := by
    rw [h.covers rule, List.mem_append, hfound, hothers]
    by_cases hw : rule.name ∈ wanted <;> simp [hw]
  of_reached rule hrule := by
    rcases List.mem_append.1 hrule with hrule | hrule
    · exact h.of_reached rule hrule
    · exact h.of_wanted rule.name ((hfound rule).1 hrule).2
  of_wanted name hname := by
    obtain ⟨rule, hrule, hmem⟩ := List.mem_flatMap.1 hname
    obtain ⟨hother, hw⟩ := (hfound rule).1 hrule
    have hr : grammar.rule? rule.name = some rule :=
      Grammar.rule?_eq_some_iff.2 ⟨(h.covers rule).2 (.inr hother), rfl⟩
    exact (h.of_wanted rule.name hw).tail ⟨rule, hr, hmem⟩
  start_wanted other hother hstart := by
    obtain ⟨hother, hw⟩ := (hothers other).1 hother
    exact absurd (h.start_wanted other hother hstart) hw
  references_wanted rule hrule other hother hmem := by
    obtain ⟨hother, hw⟩ := (hothers other).1 hother
    rcases List.mem_append.1 hrule with hrule | hrule
    · exact absurd (h.references_wanted rule hrule other hother hmem) hw
    · exact List.mem_flatMap.2 ⟨rule, hrule, hmem⟩

/-- **Enough rounds split the rules.** There are enough if there are as many as other rules. -/
theorem close_splits {rounds : Nat} (h : Frontier grammar start wanted reach)
    (hrounds : reach.others.length ≤ rounds) :
    Splits grammar start (close rounds wanted reach) := by
  induction rounds generalizing wanted reach with
  | zero =>
    have hnil : reach.others = [] := List.eq_nil_of_length_eq_zero (Nat.le_zero.1 hrounds)
    exact h.splits (by simp [hnil])
  | succ rounds ih =>
    simp only [close, List.partition_eq_filter_filter]
    split
    · next hempty =>
      refine h.splits fun other hother hw => ?_
      rw [List.isEmpty_iff, List.filter_eq_nil_iff] at hempty
      exact hempty other hother (List.contains_iff_mem.2 hw)
    · next hfound =>
      refine ih (h.round (by simp) (by simp)) ?_
      have hlength := reach.others.length_eq_length_filter_add fun rule =>
        wanted.contains rule.name
      have hpos := List.length_pos_iff.2 (mt List.isEmpty_iff.2 hfound)
      show (reach.others.filter fun rule => !wanted.contains rule.name).length ≤ rounds
      omega

end Reach

namespace Grammar

variable {grammar : Grammar} {start name : String} {rule : Rule} {reference : UndefinedReference}

/-- **The check splits the rules** into those that the start reaches and the others. -/
theorem reach_splits (grammar : Grammar) (start : String) :
    (grammar.reach start).Splits grammar start :=
  Reach.close_splits (Reach.frontier_start grammar start) (Nat.le_refl _)

theorem mem_reached_iff :
    rule ∈ (grammar.reach start).reached ↔
      rule ∈ grammar.rules ∧ grammar.Reaches start rule.name := by
  have h := grammar.reach_splits start
  constructor
  · intro hmem
    exact ⟨(h.covers rule).2 (.inl hmem), h.of_reached rule hmem⟩
  · rintro ⟨hmem, hreaches⟩
    exact ((h.covers rule).1 hmem).resolve_right fun hother => h.of_other rule hother hreaches

theorem mem_unreachable_iff :
    name ∈ (grammar.check start).unreachable ↔
      (∃ rule, grammar.rule? name = some rule) ∧ ¬ grammar.Reaches start name := by
  have h := grammar.reach_splits start
  simp only [check, List.mem_map]
  constructor
  · rintro ⟨rule, hother, rfl⟩
    exact ⟨⟨rule, rule?_eq_some_iff.2 ⟨(h.covers rule).2 (.inr hother), rfl⟩⟩,
      h.of_other rule hother⟩
  · rintro ⟨⟨rule, hr⟩, hreaches⟩
    obtain ⟨hmem, rfl⟩ := rule?_eq_some_iff.1 hr
    exact ⟨rule, ((h.covers rule).1 hmem).resolve_left fun hreached =>
      hreaches (h.of_reached rule hreached), rfl⟩

theorem contains_eq_false_iff : grammar.contains name = false ↔ grammar.rule? name = none :=
  Option.isSome_eq_false_iff.trans Option.isNone_iff_eq_none

theorem mem_undefinedReferences :
    reference ∈ grammar.undefinedReferences rule ↔
      reference.referrer? = some rule.name ∧ reference.rule ∈ rule.body.references ∧
        grammar.rule? reference.rule = none := by
  obtain ⟨referrer?, name⟩ := reference
  simp only [undefinedReferences, List.mem_map, List.mem_filter, Bool.not_eq_eq_eq_not,
    Bool.not_true, contains_eq_false_iff, UndefinedReference.mk.injEq]
  constructor
  · rintro ⟨name, ⟨hmem, hnone⟩, rfl, rfl⟩
    exact ⟨rfl, hmem, hnone⟩
  · rintro ⟨rfl, hmem, hnone⟩
    exact ⟨name, ⟨hmem, hnone⟩, rfl, rfl⟩

theorem mem_undefined_iff :
    reference ∈ (grammar.check start).undefined ↔
      grammar.rule? reference.rule = none ∧
        ((reference.referrer? = none ∧ reference.rule = start) ∨
          ∃ referrer, reference.referrer? = some referrer ∧ grammar.Reaches start referrer ∧
            grammar.RefersTo referrer reference.rule) := by
  simp only [check, SortedSet.mem_ofList, List.mem_append, List.mem_flatMap,
    mem_undefinedReferences, mem_reached_iff]
  constructor
  · rintro (hstart | ⟨rule, ⟨hmem, hreaches⟩, hreferrer, hrefers, hnone⟩)
    · split at hstart
      · cases hstart
      · next hcontains =>
        rw [Bool.not_eq_true, contains_eq_false_iff] at hcontains
        cases List.mem_singleton.1 hstart
        exact ⟨hcontains, .inl ⟨rfl, rfl⟩⟩
    · have hr : grammar.rule? rule.name = some rule := rule?_eq_some_iff.2 ⟨hmem, rfl⟩
      exact ⟨hnone, .inr ⟨rule.name, hreferrer, hreaches, rule, hr, hrefers⟩⟩
  · rintro ⟨hnone, ⟨hreferrer, hstart⟩ | ⟨referrer, hreferrer, hreaches, rule, hr, hrefers⟩⟩
    · rw [hstart] at hnone
      obtain ⟨referrer?, name⟩ := reference
      cases hreferrer
      cases hstart
      rw [contains_eq_false_iff.2 hnone]
      exact .inl (List.mem_singleton.2 rfl)
    · obtain ⟨hmem, rfl⟩ := rule?_eq_some_iff.1 hr
      exact .inr ⟨rule, ⟨hmem, hreaches⟩, hreferrer, hrefers, hnone⟩

theorem exists_undefined_of_reaches (h : grammar.Reaches start name)
    (hnone : grammar.rule? name = none) :
    ∃ reference ∈ (grammar.check start).undefined, reference.rule = name := by
  rcases Relation.ReflTransGen.cases_tail h with rfl | ⟨referrer, hreaches, hrefers⟩
  · exact ⟨⟨none, name⟩, mem_undefined_iff.2 ⟨hnone, .inl ⟨rfl, rfl⟩⟩, rfl⟩
  · exact ⟨⟨some referrer, name⟩,
      mem_undefined_iff.2 ⟨hnone, .inr ⟨referrer, rfl, hreaches, hrefers⟩⟩, rfl⟩

end Grammar

end Packrat
