import Mathlib.Data.Finset.Card
import Mathlib.Data.List.Nodup
import Mathlib.Data.Prod.Lex
import Packrat.Proofs.Reachability

/-!
# The check of a grammar is exact

`Expr.Mentions` says by the form of an expression which names it refers to, and
`Grammar.Mentions` leads from rule to rule along these. `Grammar.check_exact`: the check reports
just the rules that the start does not lead to, and just the references without a rule that it
leads to.

The check goes in rounds. A `Search` follows one reference at a time instead, in whatever order:
names may be pending many times over, rules may refer to themselves, and names without a rule are
never marked as followed. All the same it comes to an end (`Search.wellFounded_step`), since each
step follows one more rule or leaves one reference fewer pending, and where it ends it has found
what the check reports (`Search.Upheld.mem_missing_iff`).
-/

set_option autoImplicit false

namespace Packrat

/-! ## References at any depth -/

/-- The expression refers to the name, at any depth. -/
inductive Expr.Mentions (name : String) : Expr → Prop
  | ruleRef : Mentions name (.ruleRef name)
  | sequence {expr : Expr} {exprs : List Expr} (h : expr ∈ exprs) (part : Mentions name expr) :
      Mentions name (.sequence exprs)
  | choice {expr : Expr} {exprs : List Expr} (h : expr ∈ exprs) (part : Mentions name expr) :
      Mentions name (.choice exprs)
  | zeroOrMore {expr : Expr} (part : Mentions name expr) : Mentions name (.zeroOrMore expr)
  | oneOrMore {expr : Expr} (part : Mentions name expr) : Mentions name (.oneOrMore expr)
  | optional {expr : Expr} (part : Mentions name expr) : Mentions name (.optional expr)
  | followedBy {expr : Expr} (part : Mentions name expr) : Mentions name (.followedBy expr)
  | notFollowedBy {expr : Expr} (part : Mentions name expr) : Mentions name (.notFollowedBy expr)

namespace Expr

variable {name : String}

mutual

theorem mem_references_iff (expr : Expr) : name ∈ expr.references ↔ expr.Mentions name := by
  cases expr with
  | sequence exprs =>
    refine (mem_addReferencesOf_iff exprs).trans ⟨?_, ?_⟩
    · rintro ⟨expr, h, part⟩
      exact .sequence h part
    · rintro (_ | ⟨h, part⟩)
      exact ⟨_, h, part⟩
  | choice exprs =>
    refine (mem_addReferencesOf_iff exprs).trans ⟨?_, ?_⟩
    · rintro ⟨expr, h, part⟩
      exact .choice h part
    · rintro (_ | _ | ⟨h, part⟩)
      exact ⟨_, h, part⟩
  | zeroOrMore expr | oneOrMore expr | optional expr | followedBy expr | notFollowedBy expr =>
    refine (mem_references_iff expr).trans ⟨fun part => ?_, ?_⟩
    · constructor
      exact part
    · rintro ⟨⟩
      assumption
  | ruleRef other =>
    refine List.mem_singleton.trans ⟨?_, ?_⟩
    · rintro rfl
      exact .ruleRef
    · rintro ⟨⟩
      rfl
  | _ =>
    refine ⟨fun h => absurd h List.not_mem_nil, ?_⟩
    rintro ⟨⟩

theorem mem_addReferencesOf_iff (exprs : List Expr) :
    name ∈ addReferencesOf exprs [] ↔ ∃ expr ∈ exprs, expr.Mentions name := by
  cases exprs with
  | nil => simp [addReferencesOf]
  | cons expr exprs =>
    have hrest : addReferencesOf (expr :: exprs) [] = addReferencesOf exprs [] ++ expr.references :=
      addReferencesOf_eq exprs expr.references
    rw [hrest, List.mem_append, mem_addReferencesOf_iff exprs, mem_references_iff expr]
    simp only [List.exists_mem_cons_iff, or_comm]

end

end Expr

namespace Grammar

variable {grammar : Grammar} {start name : String}

/-- The rule of a name mentions a name. -/
def Mentions (grammar : Grammar) (referrer name : String) : Prop :=
  ∃ rule, grammar.rule? referrer = some rule ∧ rule.body.Mentions name

theorem refersTo_eq_mentions : grammar.RefersTo = grammar.Mentions := by
  funext referrer name
  simp only [RefersTo, Mentions, Expr.mem_references_iff]

/-- Mentions lead from a name to a name, which may be the same. -/
def LeadsTo (grammar : Grammar) : String → String → Prop := Relation.ReflTransGen grammar.Mentions

theorem reaches_eq_leadsTo : grammar.Reaches = grammar.LeadsTo := by
  rw [Reaches, LeadsTo, refersTo_eq_mentions]

end Grammar

/-! ## What is reported, in order -/

/-- References are in order if their referrers are, or if these are the same and the names are. No
referrer comes before every referrer. -/
theorem UndefinedReference.compare_eq_lt_iff {a b : UndefinedReference} :
    compare a b = .lt ↔
      a.referrer? < b.referrer? ∨ a.referrer? = b.referrer? ∧ a.rule < b.rule := by
  have text (s t : String) : compare s t = .lt ↔ s < t := compareOfLessAndEq_eq_lt
  have referrer : compare a.referrer? b.referrer? = .lt ↔ a.referrer? < b.referrer? := by
    cases a.referrer? <;> cases b.referrer?
    · simp [compare]
    · simp [compare]
    · simp [compare]
    · exact text _ _
  show (compare a.referrer? b.referrer?).then (compare a.rule b.rule) = .lt ↔ _
  rw [Ordering.then_eq_lt, referrer, text, Std.LawfulEqOrd.compare_eq_iff_eq]

/-- The rules that are not reached stand in the order in which they stood before. -/
theorem Reach.others_close_sublist (rounds : Nat) (wanted : List String) (reach : Reach) :
    (close rounds wanted reach).others.Sublist reach.others := by
  induction rounds generalizing wanted reach with
  | zero => exact .refl _
  | succ rounds ih =>
    simp only [close, List.partition_eq_filter_filter]
    split
    · exact .refl _
    · exact (ih _ _).trans List.filter_sublist

namespace Grammar

variable {grammar : Grammar} {start name : String}

theorem mem_names_iff : name ∈ grammar.names ↔ ∃ rule, grammar.rule? name = some rule := by
  simp only [names, List.mem_map, rule?_eq_some_iff]

open Classical in
/-- **What is reported as unreachable** are the names of the rules that the start does not lead to,
in the order of their definition. -/
theorem unreachable_eq_filter (grammar : Grammar) (start : String) :
    (grammar.check start).unreachable =
      grammar.names.filter fun name => ¬ grammar.LeadsTo start name := by
  have hsub : (grammar.check start).unreachable.Sublist grammar.names :=
    (Reach.others_close_sublist _ _ _).map Rule.name
  have hmem (name : String) : name ∈ (grammar.check start).unreachable ↔
      name ∈ grammar.names.filter fun name => ¬ grammar.LeadsTo start name := by
    rw [mem_unreachable_iff, reaches_eq_leadsTo, List.mem_filter, mem_names_iff,
      decide_eq_true_iff]
  have hperm := (List.perm_ext_iff_of_nodup (grammar.names_nodup.sublist hsub)
    (grammar.names_nodup.filter _)).2 hmem
  -- both are sublists of the names, which are all different, and they have the same members
  have hfiltered := hsub.filter fun name => decide ¬ grammar.LeadsTo start name
  rw [List.filter_eq_self.2 fun name h => (List.mem_filter.1 ((hmem name).1 h)).2] at hfiltered
  exact hfiltered.eq_of_length hperm.length_eq

end Grammar

/-! ## Following references one by one -/

/-- A search for what a start leads to: the references still to be followed, each with its referrer,
the names of the rules that were followed, and the references found to have no rule. -/
structure Search where
  pending : List (Option String × String)
  followed : List String := []
  missing : List UndefinedReference := []

namespace Search

/-- The search before its first step. -/
def init (start : String) : Search := { pending := [(none, start)] }

/-- A step takes any of the references that are pending. -/
inductive Step (grammar : Grammar) : Search → Search → Prop
  | again {before after : List (Option String × String)} {referrer? : Option String}
      {name : String} {followed : List String} {missing : List UndefinedReference}
      (h : name ∈ followed) :
      Step grammar ⟨before ++ (referrer?, name) :: after, followed, missing⟩
        ⟨before ++ after, followed, missing⟩
  | follow {before after : List (Option String × String)} {referrer? : Option String}
      {name : String} {rule : Rule} {followed : List String} {missing : List UndefinedReference}
      (h : name ∉ followed) (hr : grammar.rule? name = some rule) :
      Step grammar ⟨before ++ (referrer?, name) :: after, followed, missing⟩
        ⟨rule.body.references.map (some name, ·) ++ (before ++ after), name :: followed, missing⟩
  | miss {before after : List (Option String × String)} {referrer? : Option String}
      {name : String} {followed : List String} {missing : List UndefinedReference}
      (h : name ∉ followed) (hr : grammar.rule? name = none) :
      Step grammar ⟨before ++ (referrer?, name) :: after, followed, missing⟩
        ⟨before ++ after, followed, ⟨referrer?, name⟩ :: missing⟩

variable {grammar : Grammar} {start : String} {search next : Search}

/-! ### The end of a search -/

/-- How many rules have not been followed, and how many references are pending. -/
def rank (grammar : Grammar) (search : Search) : Nat × Nat :=
  ((grammar.names.toFinset \ search.followed.toFinset).card, search.pending.length)

theorem Step.rank_lt (h : Step grammar search next) :
    Prod.Lex (· < ·) (· < ·) (next.rank grammar) (search.rank grammar) := by
  cases h with
  | again h =>
    refine .right _ ?_
    simp
  | @follow before after referrer? name rule followed missing h hr =>
    have hname : name ∈ grammar.names.toFinset \ followed.toFinset := by
      simpa [h] using Grammar.mem_names_iff.2 ⟨rule, hr⟩
    refine .left _ _ (Finset.card_lt_card ?_)
    rw [List.toFinset_cons, Finset.sdiff_insert]
    exact Finset.erase_ssubset hname
  | miss h hr =>
    refine .right _ ?_
    simp

/-- **A search comes to an end**, whatever the order: each step follows one more rule, or leaves
one reference fewer pending. -/
theorem wellFounded_step (grammar : Grammar) :
    WellFounded fun next search => Step grammar search next := by
  have hlex : WellFounded (Prod.Lex (· < ·) (· < ·) : Nat × Nat → Nat × Nat → Prop) :=
    WellFounded.prod_lex Nat.lt_wfRel.wf Nat.lt_wfRel.wf
  exact Subrelation.wf (fun h => Step.rank_lt h) (InvImage.wf (rank grammar) hlex)

/-- There is a step just as long as there are references pending. -/
theorem exists_step_iff : (∃ next, Step grammar search next) ↔ search.pending ≠ [] := by
  constructor
  · rintro ⟨next, h⟩
    cases h <;> simp
  · intro h
    obtain ⟨_ | ⟨⟨referrer?, name⟩, after⟩, followed, missing⟩ := search
    · exact absurd rfl h
    by_cases hname : name ∈ followed
    · exact ⟨_, @Step.again grammar [] after referrer? name followed missing hname⟩
    · cases hr : grammar.rule? name with
      | some rule =>
        exact ⟨_, @Step.follow grammar [] after referrer? name rule followed missing hname hr⟩
      | none => exact ⟨_, @Step.miss grammar [] after referrer? name followed missing hname hr⟩

/-! ### What a search finds -/

/-- The reference is the one to the start, or a rule that was followed mentions the name. -/
def Due (grammar : Grammar) (start : String) (search : Search) (referrer? : Option String)
    (name : String) : Prop :=
  (referrer? = none ∧ name = start) ∨
    ∃ referrer ∈ search.followed, referrer? = some referrer ∧ grammar.Mentions referrer name

/-- What holds between two steps: what is followed is a rule that the start leads to, what is
pending or missing is due, and what is due is pending, followed or missing. -/
structure Upheld (grammar : Grammar) (start : String) (search : Search) : Prop where
  followed : ∀ name ∈ search.followed,
    (∃ rule, grammar.rule? name = some rule) ∧ grammar.LeadsTo start name
  pending : ∀ referrer? name, (referrer?, name) ∈ search.pending →
    Due grammar start search referrer? name
  missing : ∀ reference ∈ search.missing, grammar.rule? reference.rule = none ∧
    Due grammar start search reference.referrer? reference.rule
  handled : ∀ referrer? name, Due grammar start search referrer? name →
    (referrer?, name) ∈ search.pending ∨ name ∈ search.followed ∨
      ⟨referrer?, name⟩ ∈ search.missing

theorem upheld_init (grammar : Grammar) (start : String) : Upheld grammar start (init start) where
  followed := nofun
  pending referrer? name h := by
    cases List.mem_singleton.1 h
    exact .inl ⟨rfl, rfl⟩
  missing := nofun
  handled referrer? name h := by
    obtain ⟨rfl, rfl⟩ | ⟨referrer, h, -⟩ := h
    · exact .inl (List.mem_singleton.2 rfl)
    · cases h

theorem Upheld.leadsTo (h : Upheld grammar start search) {referrer? : Option String}
    {name : String} (hdue : Due grammar start search referrer? name) :
    grammar.LeadsTo start name := by
  obtain ⟨-, rfl⟩ | ⟨referrer, hreferrer, -, hmentions⟩ := hdue
  · exact .refl
  · exact (h.followed referrer hreferrer).2.tail hmentions

theorem Due.mono {referrer? : Option String} {name : String}
    (h : Due grammar start search referrer? name)
    (hsub : ∀ name ∈ search.followed, name ∈ next.followed) :
    Due grammar start next referrer? name := by
  refine h.imp_right ?_
  rintro ⟨referrer, hreferrer, hmentions⟩
  exact ⟨referrer, hsub referrer hreferrer, hmentions⟩

/-- What is due and not the reference taken stays pending, unless it is followed or missing. -/
theorem Upheld.handled_taken {before after : List (Option String × String)}
    {taken? referrer? : Option String} {takenName name : String} {followed : List String}
    {missing : List UndefinedReference}
    (h : Upheld grammar start ⟨before ++ (taken?, takenName) :: after, followed, missing⟩)
    (hdue : Due grammar start ⟨before ++ (taken?, takenName) :: after, followed, missing⟩
      referrer? name) :
    referrer? = taken? ∧ name = takenName ∨
      ((referrer?, name) ∈ before ++ after ∨ name ∈ followed ∨ ⟨referrer?, name⟩ ∈ missing) := by
  refine (h.handled referrer? name hdue).elim (fun hpending => ?_) fun hrest => .inr (.inr hrest)
  rcases List.mem_append.1 hpending with hbefore | hafter
  · exact .inr (.inl (List.mem_append_left _ hbefore))
  · rcases List.mem_cons.1 hafter with htaken | hafter
    · cases htaken
      exact .inl ⟨rfl, rfl⟩
    · exact .inr (.inl (List.mem_append_right _ hafter))

theorem Upheld.step (h : Upheld grammar start search) (hstep : Step grammar search next) :
    Upheld grammar start next := by
  have sub {before after : List (Option String × String)} {taken : Option String × String}
      {reference : Option String × String} (hmem : reference ∈ before ++ after) :
      reference ∈ before ++ taken :: after := by
    simp only [List.mem_append, List.mem_cons] at hmem ⊢
    tauto
  cases hstep with
  | again hname =>
    -- the rule was followed before, so nothing is lost with the reference
    refine ⟨h.followed, fun r n hmem => h.pending r n (sub hmem), h.missing, fun r n hdue => ?_⟩
    rcases h.handled_taken hdue with ⟨-, rfl⟩ | hhandled
    · exact .inr (.inl hname)
    · exact hhandled
  | @follow before after referrer? name rule followed missing hname hr =>
    have htaken : (referrer?, name) ∈ before ++ (referrer?, name) :: after := by simp
    have hmono : ∀ other ∈ followed, other ∈ name :: followed := fun _ => List.mem_cons_of_mem _
    refine ⟨?_, fun r n hmem => ?_, fun reference hmem => ?_, fun r n hdue => ?_⟩
    · rintro other (_ | ⟨_, hother⟩)
      · exact ⟨⟨rule, hr⟩, h.leadsTo (h.pending _ _ htaken)⟩
      · exact h.followed other hother
    · rcases List.mem_append.1 hmem with hnew | hold
      · obtain ⟨mentioned, hmentioned, hpair⟩ := List.mem_map.1 hnew
        cases hpair
        exact .inr ⟨name, List.mem_cons_self, rfl, rule, hr,
          (Expr.mem_references_iff _).1 hmentioned⟩
      · exact (h.pending r n (sub hold)).mono hmono
    · obtain ⟨hnone, hdue⟩ := h.missing reference hmem
      exact ⟨hnone, hdue.mono hmono⟩
    · -- due is what was due before, or what the rule now followed mentions
      have hcases : r = some name ∧ grammar.Mentions name n ∨
          Due grammar start ⟨before ++ (referrer?, name) :: after, followed, missing⟩ r n := by
        obtain hstart | ⟨referrer, _ | ⟨_, hreferrer⟩, rfl, hmentions⟩ := hdue
        · exact .inr (.inl hstart)
        · exact .inl ⟨rfl, hmentions⟩
        · exact .inr (.inr ⟨referrer, hreferrer, rfl, hmentions⟩)
      obtain ⟨rfl, other, hother, hmentions⟩ | hdue := hcases
      · cases hr.symm.trans hother
        refine .inl (List.mem_append_left _ (List.mem_map.2 ⟨n, ?_, rfl⟩))
        exact (Expr.mem_references_iff _).2 hmentions
      · rcases h.handled_taken hdue with ⟨-, rfl⟩ | hpending | hfollowed | hmissing
        · exact .inr (.inl List.mem_cons_self)
        · exact .inl (List.mem_append_right _ hpending)
        · exact .inr (.inl (List.mem_cons_of_mem _ hfollowed))
        · exact .inr (.inr hmissing)
  | @miss before after referrer? name followed missing hname hr =>
    have htaken : (referrer?, name) ∈ before ++ (referrer?, name) :: after := by simp
    refine ⟨h.followed, fun r n hmem => h.pending r n (sub hmem), ?_, fun r n hdue => ?_⟩
    · rintro reference (_ | ⟨_, hmem⟩)
      · exact ⟨hr, h.pending _ _ htaken⟩
      · exact h.missing reference hmem
    · rcases h.handled_taken hdue with ⟨rfl, rfl⟩ | hpending | hfollowed | hmissing
      · exact .inr (.inr List.mem_cons_self)
      · exact .inl hpending
      · exact .inr (.inl hfollowed)
      · exact .inr (.inr (List.mem_cons_of_mem _ hmissing))

theorem Upheld.steps (h : Upheld grammar start search)
    (hsteps : Relation.ReflTransGen (Step grammar) search next) : Upheld grammar start next := by
  induction hsteps with
  | refl => exact h
  | tail _ hstep ih => exact ih.step hstep

section
variable (h : Upheld grammar start search) (hend : search.pending = [])
include h hend

theorem Upheld.mem_followed_iff {name : String} :
    name ∈ search.followed ↔
      (∃ rule, grammar.rule? name = some rule) ∧ grammar.LeadsTo start name := by
  refine ⟨h.followed name, ?_⟩
  rintro ⟨⟨rule, hr⟩, hleads⟩
  have handled {referrer? : Option String} {name : String} {rule : Rule}
      (hr : grammar.rule? name = some rule) (hdue : Due grammar start search referrer? name) :
      name ∈ search.followed := by
    rcases h.handled _ _ hdue with hpending | hfollowed | hmissing
    · rw [hend] at hpending
      cases hpending
    · exact hfollowed
    · cases hr.symm.trans (h.missing _ hmissing).1
  induction hleads generalizing rule with
  | refl => exact handled hr (.inl ⟨rfl, rfl⟩)
  | tail _ hmentions ih =>
    obtain ⟨referrerRule, hreferrer, -⟩ := id hmentions
    exact handled hr (.inr ⟨_, ih referrerRule hreferrer, rfl, hmentions⟩)

theorem Upheld.mem_missing_iff {reference : UndefinedReference} :
    reference ∈ search.missing ↔ reference ∈ (grammar.check start).undefined := by
  rw [Grammar.mem_undefined_iff, Grammar.reaches_eq_leadsTo, Grammar.refersTo_eq_mentions]
  constructor
  · intro hmem
    obtain ⟨hnone, hdue⟩ := h.missing reference hmem
    refine ⟨hnone, hdue.imp_right ?_⟩
    rintro ⟨referrer, hfollowed, hreferrer, hmentions⟩
    exact ⟨referrer, hreferrer, (h.followed referrer hfollowed).2, hmentions⟩
  · rintro ⟨hnone, hdue⟩
    have hdue : Due grammar start search reference.referrer? reference.rule := by
      refine hdue.imp_right ?_
      rintro ⟨referrer, hreferrer, hleads, hmentions⟩
      obtain ⟨rule, hr, -⟩ := id hmentions
      exact ⟨referrer, (h.mem_followed_iff hend).2 ⟨⟨rule, hr⟩, hleads⟩, hreferrer, hmentions⟩
    rcases h.handled _ _ hdue with hpending | hfollowed | hmissing
    · rw [hend] at hpending
      cases hpending
    · obtain ⟨rule, hr⟩ := (h.followed _ hfollowed).1
      cases hr.symm.trans hnone
    · exact hmissing

end

end Search

open Classical in
/-- **The check is exact.** It reports as unreachable the names of the rules that mentions do not
lead to from the start, in the order of their definition; and as undefined the start, if it has no
rule, and each name without a rule that a rule mentions to which the start leads, together with
that rule, in order and each pair once. Following the references one by one, in whatever order,
comes to an end, and what it finds by then is what the check reports. -/
theorem Grammar.check_exact (grammar : Grammar) (start : String) :
    let report := grammar.check start
    report.unreachable = (grammar.names.filter fun name => ¬ grammar.LeadsTo start name) ∧
    (∀ reference, reference ∈ report.undefined.toList ↔
      grammar.rule? reference.rule = none ∧
        ((reference.referrer? = none ∧ reference.rule = start) ∨
          ∃ referrer, reference.referrer? = some referrer ∧ grammar.LeadsTo start referrer ∧
            grammar.Mentions referrer reference.rule)) ∧
    (report.undefined.toList.Pairwise fun a b =>
      a.referrer? < b.referrer? ∨ a.referrer? = b.referrer? ∧ a.rule < b.rule) ∧
    report.undefined.toList.Nodup ∧
    (WellFounded fun next search => Search.Step grammar search next) ∧
    ∀ last, Relation.ReflTransGen (Search.Step grammar) (.init start) last →
      (∀ next, ¬ Search.Step grammar last next) →
      (∀ name, name ∈ report.unreachable ↔ name ∈ grammar.names ∧ name ∉ last.followed) ∧
      ∀ reference, reference ∈ report.undefined.toList ↔ reference ∈ last.missing := by
  intro report
  have hascending := report.undefined.ascending
  refine ⟨unreachable_eq_filter grammar start, fun reference => ?_,
    hascending.imp UndefinedReference.compare_eq_lt_iff.1, hascending.imp ?_,
    Search.wellFounded_step grammar, fun last hsteps hlast => ?_⟩
  · rw [← reaches_eq_leadsTo, ← refersTo_eq_mentions]
    exact mem_undefined_iff
  · rintro a b hlt rfl
    simp [Std.compare_self] at hlt
  · have hupheld := (Search.upheld_init grammar start).steps hsteps
    have hend : last.pending = [] := by
      by_contra hpending
      obtain ⟨next, hnext⟩ := Search.exists_step_iff.2 hpending
      exact hlast next hnext
    refine ⟨fun name => ?_, fun reference => (hupheld.mem_missing_iff hend).symm⟩
    rw [unreachable_eq_filter, List.mem_filter, decide_eq_true_iff, hupheld.mem_followed_iff hend,
      ← mem_names_iff]
    tauto

/-- A rule that refers to itself, a reference without a rule and a rule that nothing refers to: the
search meets the first again after it has followed it. -/
theorem Grammar.check_exact_cycle :
    let grammar : Grammar :=
      ⟨[⟨"start", .choice [.ruleRef "a", .ruleRef "ghost"]⟩,
        ⟨"a", .sequence [.literal "a", .optional (.ruleRef "a")]⟩,
        ⟨"orphan", .literal "o"⟩], by decide, by decide⟩
    let last : Search := ⟨[], ["a", "start"], [⟨some "start", "ghost"⟩]⟩
    Relation.ReflTransGen (Search.Step grammar) (.init "start") last ∧
    (∀ next, ¬ Search.Step grammar last next) ∧
    (∀ name, name ∈ (grammar.check "start").unreachable ↔
      name ∈ ["start", "a", "orphan"] ∧ name ∉ ["a", "start"]) ∧
    ∀ reference, reference ∈ (grammar.check "start").undefined.toList ↔
      reference ∈ [⟨some "start", "ghost"⟩] := by
  intro grammar last
  have hsteps : Relation.ReflTransGen (Search.Step grammar) (.init "start") last := by
    refine .head (@Search.Step.follow grammar [] [] none "start" _ [] [] (by decide) rfl) ?_
    refine .head (@Search.Step.miss grammar [] _ (some "start") "ghost" ["start"] []
      (by decide) rfl) ?_
    refine .head (@Search.Step.follow grammar [] [] (some "start") "a" _ ["start"] _
      (by decide) rfl) ?_
    refine .single (@Search.Step.again grammar [] [] (some "a") "a" ["a", "start"] _ (by decide))
  have hlast : ∀ next, ¬ Search.Step grammar last next := fun next h =>
    Search.exists_step_iff.1 ⟨next, h⟩ rfl
  obtain ⟨-, -, -, -, -, hsearch⟩ := check_exact grammar "start"
  exact ⟨hsteps, hlast, hsearch last hsteps hlast⟩

end Packrat
