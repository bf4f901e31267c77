import Packrat.Grammar.Table
import Packrat.Proofs.Reachability

/-!
# Tables of rules represent grammars

A table finds a definition by the number that it keeps for the name, without a check. The invariant
is that it represents a grammar (`RuleTable.Represents`): the definitions are the rules, and the
numbers are the inverse of their names. A call is answered alike by the table and the grammar and
keeps the invariant (`Represents.define`), so every sequence of calls does, and what the table tells
in the end is told by the calls that were not refused (`RuleTable.define_history`).
-/

set_option autoImplicit false

namespace Packrat

/-! ## Grammars -/

namespace Grammar

variable {grammar : Grammar} {name : String} {body : Expr}

/-- The grammar with one more rule at its end, or as it is if the rule is refused. -/
def extended (grammar : Grammar) (rule : Rule) : Grammar :=
  match grammar.define rule.name rule.body with
  | .ok grammar => grammar
  | .error _ => grammar

theorem define_duplicate (hname : name ≠ "") (h : (grammar.rule? name).isSome) :
    grammar.define name body = .error (.duplicateRule name) := by
  unfold define
  rw [dif_neg hname]
  split
  · rfl
  · next hnone =>
    rw [hnone] at h
    cases h

theorem define_fresh (hname : name ≠ "") (h : grammar.rule? name = none) :
    ∃ grammar', grammar.define name body = .ok grammar' ∧
      grammar'.rules = grammar.rules ++ [⟨name, body⟩] := by
  unfold define
  rw [dif_neg hname]
  split
  · next hsome => cases h.symm.trans hsome
  · exact ⟨_, rfl, rfl⟩

theorem rule?_of_getElem? {number : Nat} {rule : Rule} (h : grammar.rules[number]? = some rule) :
    grammar.rule? rule.name = some rule :=
  rule?_eq_some_iff.2 ⟨List.mem_of_getElem? h, rfl⟩

theorem number_unique {number number' : Nat}
    (h : grammar.rules[number]?.map Rule.name = some name)
    (h' : grammar.rules[number']?.map Rule.name = some name) : number = number' := by
  rw [← List.getElem?_map] at h h'
  obtain ⟨hlt, -⟩ := List.getElem?_eq_some_iff.1 h
  exact (List.getElem?_inj hlt grammar.names_nodup).1 (h.trans h'.symm)

end Grammar

namespace RuleTable

variable {table : RuleTable} {grammar : Grammar} {name : String} {body : Expr}

theorem define_cases (table : RuleTable) (name : String) (body : Expr) :
    (name = "" ∧ table.define name body = (.error .emptyName, table)) ∨
    (name ≠ "" ∧ table.contains name = true ∧
      table.define name body = (.error (.duplicateRule name), table)) ∨
    (name ≠ "" ∧ table.contains name = false ∧
      table.define name body = (.ok (),
        { numbers := table.numbers.insert name table.definitions.size
          definitions := table.definitions.push ⟨name, body⟩ })) := by
  unfold define contains
  by_cases hname : name = ""
  · exact .inl ⟨hname, if_pos hname⟩
  · rw [if_neg hname]
    cases table.numbers.contains name with
    | true => exact .inr (.inl ⟨hname, rfl, rfl⟩)
    | false => exact .inr (.inr ⟨hname, rfl, rfl⟩)

/-! ## The invariant -/

/-- The definitions are the rules of the grammar, and the number of a name is where the rule of that
name stands. -/
structure Represents (table : RuleTable) (grammar : Grammar) : Prop where
  definitions : table.definitions.toList = grammar.rules
  numbers : ∀ name number, table.numbers[name]? = some number ↔
    grammar.rules[number]?.map Rule.name = some name

theorem represents_empty : ({} : RuleTable).Represents ∅ where
  definitions := rfl
  numbers name number := by
    rw [Std.TreeMap.getElem?_emptyc]
    exact ⟨nofun, nofun⟩

namespace Represents

theorem definition?_eq (h : table.Represents grammar) (number : Nat) :
    table.definition? number = grammar.rules[number]? := by
  rw [← h.definitions, Array.getElem?_toList]
  rfl

theorem lookup_cases (h : table.Represents grammar) (name : String) :
    (∃ number rule, table.numbers[name]? = some number ∧ table.definition? number = some rule ∧
      grammar.rule? name = some rule) ∨
    (table.numbers[name]? = none ∧ grammar.rule? name = none) := by
  cases hrule : grammar.rule? name with
  | some rule =>
    obtain ⟨hmem, hname⟩ := Grammar.rule?_eq_some_iff.1 hrule
    obtain ⟨number, hnumber⟩ := List.mem_iff_getElem?.1 hmem
    refine .inl ⟨number, rule, (h.numbers name number).2 ?_, ?_, rfl⟩
    · rw [hnumber, Option.map_some, hname]
    · rw [h.definition?_eq, hnumber]
  | none =>
    refine .inr ⟨?_, rfl⟩
    cases hnumber : table.numbers[name]? with
    | none => rfl
    | some number =>
      obtain ⟨rule, hget, rfl⟩ := Option.map_eq_some_iff.1 ((h.numbers name number).1 hnumber)
      cases hrule.symm.trans (Grammar.rule?_of_getElem? hget)

theorem contains_eq (h : table.Represents grammar) (name : String) :
    table.contains name = grammar.contains name := by
  unfold contains Grammar.contains
  rw [Std.TreeMap.contains_eq_isSome_getElem?]
  obtain ⟨number, rule, hnumber, -, hrule⟩ | ⟨hnumber, hrule⟩ := h.lookup_cases name
  · rw [hnumber, hrule]
    rfl
  · rw [hnumber, hrule]
    rfl

/-- **The table resolves names as the grammar does**, and none to a number without a definition. -/
theorem resolve?_eq (h : table.Represents grammar) (name : String) :
    table.resolve? name = some (grammar.resolve name) := by
  unfold resolve? resolveNumber Grammar.resolve
  obtain ⟨number, rule, hnumber, hdefinition, hrule⟩ | ⟨hnumber, hrule⟩ := h.lookup_cases name
  · simp only [hnumber, hdefinition, hrule, Option.map_some]
  · simp only [hnumber, hrule]

/-- **The number of a name is that of its definition.** -/
theorem resolveNumber_iff (h : table.Represents grammar) {number : Nat} :
    table.resolveNumber name = .ok number ↔
      ∃ rule, table.definition? number = some rule ∧ rule.name = name := by
  rw [h.definition?_eq, ← Option.map_eq_some_iff, ← h.numbers]
  unfold resolveNumber
  cases table.numbers[name]? with
  | none => exact ⟨nofun, nofun⟩
  | some found => rw [Except.ok.injEq, Option.some.injEq]

theorem mem_names_iff (h : table.Represents grammar) :
    name ∈ grammar.rules.map Rule.name ↔ table.contains name = true := by
  simp only [h.contains_eq, Grammar.contains, Option.isSome_iff_exists,
    Grammar.rule?_eq_some_iff, List.mem_map]

/-! ## Calls -/

theorem push (h : table.Represents grammar) {grammar' : Grammar}
    (hrules : grammar'.rules = grammar.rules ++ [⟨name, body⟩]) :
    Represents
      { numbers := table.numbers.insert name table.definitions.size
        definitions := table.definitions.push ⟨name, body⟩ } grammar' where
  definitions := by rw [Array.toList_push, h.definitions, hrules]
  numbers other number := by
    have hsize : table.definitions.size = grammar.rules.length := by
      rw [← h.definitions, Array.length_toList]
    have hlast : grammar'.rules[table.definitions.size]?.map Rule.name = some name := by
      rw [hrules, hsize, List.getElem?_concat_length, Option.map_some]
    rw [Std.TreeMap.getElem?_insert]
    split
    · next heq =>
      rw [Std.LawfulEqOrd.eq_of_compare heq] at hlast
      constructor
      · intro hnumber
        cases hnumber
        exact hlast
      · intro hnumber
        rw [Grammar.number_unique hnumber hlast]
    · next hne =>
      have hother : name ≠ other := fun heq => hne (Std.compare_eq_iff_eq.2 heq)
      rw [h.numbers, hrules, List.getElem?_append]
      split
      · exact Iff.rfl
      · next hge =>
        -- neither the grammar before nor the new rule has the name here
        rw [List.getElem?_eq_none (Nat.not_lt.1 hge)]
        refine ⟨nofun, fun hnew => ?_⟩
        obtain ⟨rule, hrule, hname⟩ := Option.map_eq_some_iff.1 hnew
        rw [List.mem_singleton.1 (List.mem_of_getElem? hrule)] at hname
        exact absurd hname hother

/-- **A call is answered alike by the table and the grammar and keeps the invariant.** -/
theorem define (h : table.Represents grammar) (rule : Rule) :
    (table.define rule.name rule.body).1 =
        (grammar.define rule.name rule.body).map (fun _ => ()) ∧
      (table.define rule.name rule.body).2.Represents (grammar.extended rule) := by
  unfold Grammar.extended
  obtain ⟨hname, hdefine⟩ | ⟨hname, hcontains, hdefine⟩ | ⟨hname, hcontains, hdefine⟩ :=
    table.define_cases rule.name rule.body
  · rw [hdefine, hname]
    exact ⟨rfl, h⟩
  · rw [h.contains_eq] at hcontains
    rw [hdefine, Grammar.define_duplicate hname hcontains]
    exact ⟨rfl, h⟩
  · rw [h.contains_eq, Grammar.contains, Option.isSome_eq_false_iff, Option.isNone_iff_eq_none]
      at hcontains
    obtain ⟨grammar', hgrammar, hrules⟩ := Grammar.define_fresh hname hcontains
    rw [hdefine, hgrammar]
    exact ⟨rfl, h.push hrules⟩

/-- **Every sequence of calls keeps the invariant.** -/
theorem defineAll (h : table.Represents grammar) (calls : List Rule) :
    (table.defineAll calls).2.Represents (calls.foldl Grammar.extended grammar) := by
  induction calls generalizing table grammar with
  | nil => exact h
  | cons rule calls ih => exact ih (h.define rule).2

end Represents

/-! ## Histories -/

/-- The rules that were not refused, given the answers to all calls. -/
def accepted (calls : List Rule) (answers : List (Except GrammarError Unit)) : List Rule :=
  ((calls.zip answers).filter fun call => call.2.toBool).map Prod.fst

/-- Just the rules that were not refused have been added, in the order of the calls. -/
theorem definitions_defineAll (table : RuleTable) (calls : List Rule) :
    (table.defineAll calls).2.definitions.toList =
      table.definitions.toList ++ accepted calls (table.defineAll calls).1 := by
  induction calls generalizing table with
  | nil => exact (List.append_nil _).symm
  | cons rule calls ih =>
    simp only [RuleTable.defineAll, ih, accepted, List.zip_cons_cons]
    obtain ⟨-, hdefine⟩ | ⟨-, -, hdefine⟩ | ⟨-, -, hdefine⟩ :=
      table.define_cases rule.name rule.body
    · rw [hdefine]
      rfl
    · rw [hdefine]
      rfl
    · rw [hdefine, Array.toList_push, List.append_assoc]
      rfl

/-- What a table tells that holds the rules. -/
structure Tells (table : RuleTable) (rules : List Rule) : Prop where
  definitions : table.definitions.toList = rules
  names_nodup : (rules.map Rule.name).Nodup
  size : table.size = rules.length
  isEmpty : table.isEmpty = rules.isEmpty
  resolve : ∀ name, table.resolve? name = some
    (match rules.find? fun rule => rule.name = name with
      | some rule => .ok rule.body
      | none => .error (.undefinedRule name))
  contains : ∀ name, table.contains name = true ↔ ∃ body, table.resolve? name = some (.ok body)
  number : ∀ name number, table.resolveNumber name = .ok number ↔
    ∃ rule, table.definition? number = some rule ∧ rule.name = name

theorem Represents.tells (h : table.Represents grammar) : table.Tells grammar.rules where
  definitions := h.definitions
  names_nodup := grammar.names_nodup
  size := by rw [← h.definitions, Array.length_toList, size]
  isEmpty := by rw [← h.definitions, Array.isEmpty_toList, isEmpty]
  resolve name := h.resolve?_eq name
  contains name := by
    rw [h.contains_eq, h.resolve?_eq, Grammar.contains, Grammar.resolve]
    cases grammar.rule? name with
    | none => exact ⟨nofun, nofun⟩
    | some rule => exact ⟨fun _ => ⟨rule.body, rfl⟩, fun _ => rfl⟩
  number name number := h.resolveNumber_iff

/-- **What a table tells after any history of calls** is told by the rules that were accepted: the
grammar that the same calls define has just these, and the next call is refused, without a change to
the table, for an empty name and for the name of one of them. -/
theorem define_history (calls : List Rule) :
    let run := ({} : RuleTable).defineAll calls
    let rules := accepted calls run.1
    let grammar := calls.foldl Grammar.extended ∅
    run.2.Tells rules ∧ grammar.rules = rules ∧
    (∀ name, run.2.resolve? name = some (grammar.resolve name)) ∧
    ∀ name body,
      let next := run.2.define name body
      (next.1 = .error .emptyName ↔ name = "") ∧
      (next.1 = .error (.duplicateRule name) ↔ name ∈ rules.map Rule.name) ∧
      (∀ error, next.1 = .error error →
        (error = .emptyName ∨ error = .duplicateRule name) ∧ next.2 = run.2) ∧
      next.1 = (grammar.define name body).map fun _ => () := by
  intro run rules grammar
  have hrepresents : run.2.Represents grammar := represents_empty.defineAll calls
  have hrules : grammar.rules = rules :=
    hrepresents.definitions.symm.trans (definitions_defineAll {} calls)
  refine ⟨hrules ▸ hrepresents.tells, hrules, hrepresents.resolve?_eq, fun name body => ?_⟩
  intro next
  have hcontains : name ∈ rules.map Rule.name ↔ run.2.contains name = true :=
    hrules ▸ hrepresents.mem_names_iff
  -- the empty name is refused for itself, never as a duplicate
  have hempty : "" ∉ rules.map Rule.name := by
    rw [← hrules, List.mem_map]
    rintro ⟨rule, hmem, hname⟩
    exact grammar.names_nonempty rule hmem hname
  refine ⟨?_, ?_, ?_, (hrepresents.define ⟨name, body⟩).1⟩
  · obtain ⟨rfl, hnext⟩ | ⟨hname, -, hnext⟩ | ⟨hname, -, hnext⟩ := run.2.define_cases name body
    · simp [next, hnext]
    · simp [next, hnext, hname]
    · simp [next, hnext, hname]
  · rw [hcontains]
    obtain ⟨rfl, hnext⟩ | ⟨-, hdefined, hnext⟩ | ⟨-, hdefined, hnext⟩ :=
      run.2.define_cases name body
    · simp [next, hnext, ← hcontains, hempty]
    · simp [next, hnext, hdefined]
    · simp [next, hnext, hdefined]
  · intro error herror
    obtain ⟨-, hnext⟩ | ⟨-, -, hnext⟩ | ⟨-, -, hnext⟩ := run.2.define_cases name body
    · rw [show next = _ from hnext] at herror ⊢
      cases herror
      exact ⟨.inl rfl, rfl⟩
    · rw [show next = _ from hnext] at herror ⊢
      cases herror
      exact ⟨.inr rfl, rfl⟩
    · rw [show next = _ from hnext] at herror
      cases herror

/-- Two of four calls are refused, and so is one more for a name that is taken. -/
theorem define_history_refused :
    let calls : List Rule := [⟨"", .any⟩, ⟨"a", .any⟩, ⟨"a", .endOfInput⟩, ⟨"b", .ruleRef "a"⟩]
    let table := (({} : RuleTable).defineAll calls).2
    table.definitions.toList = [⟨"a", .any⟩, ⟨"b", .ruleRef "a"⟩] ∧
    table.resolve? "a" = some (.ok .any) ∧
    table.resolve? "c" = some (.error (.undefinedRule "c")) ∧
    (table.define "b" .any).1 = .error (.duplicateRule "b") ∧
    (table.define "b" .any).2 = table := by
  intro calls table
  obtain ⟨htells, -, -, hnext⟩ := define_history calls
  have hrefused : (table.define "b" .any).1 = .error (.duplicateRule "b") :=
    (hnext "b" .any).2.1.2 (by decide)
  exact ⟨htells.definitions, htells.resolve "a", htells.resolve "c", hrefused,
    ((hnext "b" .any).2.2.1 _ hrefused).2⟩

end RuleTable

end Packrat
