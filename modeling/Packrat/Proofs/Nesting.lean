import Mathlib.Data.List.Perm.Subperm
import Mathlib.Logic.Relation
import Packrat.Proofs.AttemptsPlain

/-!
# Nested evaluations

`Grammar.Inside` relates an evaluation to the one that it is nested in directly. Whatever has an
answer has no endless descent into nested evaluations (`Grammar.Yields.acc`), so it comes to no rule
that comes back to itself at the same position (`Grammar.Yields.not_leftRecursive`). The rules
entered for an answer are rules of the grammar at positions of the input
(`Grammar.mem_sites_of_mem_entered`), and none is entered again for its own answer
(`Grammar.not_mem_entered_body`).
-/

set_option autoImplicit false

namespace Packrat

/-- The evaluation of the rule at the position. -/
def CacheKey.call (key : CacheKey) : Expr × Nat := (.ruleRef key.rule, key.position)

/-- An evaluation is nested directly in another one, in a lookahead or not. -/
def Grammar.Inside (grammar : Grammar) (input : Input) (inner outer : Expr × Nat) : Prop :=
  grammar.Evaluates input outer.1 outer.2 inner.1 inner.2

/-- Evaluating the rule comes to evaluating it again at the same position. -/
def Grammar.LeftRecursive (grammar : Grammar) (input : Input) (key : CacheKey) : Prop :=
  Relation.TransGen (grammar.Inside input) key.call key.call

/-- The rules of the grammar at the positions of the input. -/
def Grammar.sites (grammar : Grammar) (input : Input) : List CacheKey :=
  grammar.names.flatMap fun name => (List.range (input.length + 1)).map (⟨·, name⟩)

theorem not_transGen_self {α : Type} {r : α → α → Prop} {a : α} (h : Acc r a) :
    ¬ Relation.TransGen r a a := by
  have hacc := h.transGen
  clear h
  induction hacc with
  | intro a _ ih => exact fun ha => ih a ha ha

namespace Script

variable {α : Type}

theorem obeys_any (script : Script α) : script.Obeys (fun _ _ _ => True)
    ⟨fun _ _ => True, fun _ _ => True, fun _ => True⟩ := by
  induction script with
  | done value => trivial
  | note failure next ih => exact ⟨trivial, ih⟩
  | call expr pos next ih => exact ⟨trivial, fun outcome _ => ih outcome⟩
  | peek expr pos next ih => exact ⟨trivial, fun outcome _ => ih outcome.isSuccess⟩

theorem exists_of_mem_entered {f : Expr → Nat → Option (Answer Outcome)} {script : Script α}
    {answer : Answer α} (ha : script.answer? f = some answer) {key : CacheKey}
    (hmem : key ∈ answer.entered) :
    ∃ expr pos first, f expr pos = some first ∧ key ∈ first.entered := by
  obtain ⟨expr, pos, first, -, hfirst, hkey⟩ :=
    script.obeys_any.entered_cases (fun _ _ _ _ => trivial) ha hmem
  exact ⟨expr, pos, first, hfirst, hkey⟩

end Script

namespace Grammar

variable {grammar : Grammar} {input : Input} {expr : Expr} {pos depth : Nat} {name : String}
  {key : CacheKey} {answer : Answer Outcome}

/-! ## Sites -/

theorem length_sites (grammar : Grammar) (input : Input) :
    (grammar.sites input).length = grammar.size * (input.length + 1) := by
  simp [sites, names, size, List.length_flatMap, Function.comp_def]

theorem mem_sites :
    key ∈ grammar.sites input ↔ key.rule ∈ grammar.names ∧ key.position ≤ input.length := by
  obtain ⟨position, rule⟩ := key
  simp only [sites, List.mem_flatMap, List.mem_map, List.mem_range, CacheKey.mk.injEq]
  constructor
  · rintro ⟨name, hname, pos, hpos, rfl, rfl⟩
    exact ⟨hname, Nat.le_of_lt_succ hpos⟩
  · rintro ⟨hname, hpos⟩
    exact ⟨rule, hname, position, Nat.lt_succ_of_le hpos, rfl, rfl⟩

theorem mem_names_of_rule? {rule : Rule} (h : grammar.rule? name = some rule) :
    name ∈ grammar.names := by
  obtain rfl : rule.name = name := by simpa using List.find?_some h
  exact List.mem_map_of_mem (List.mem_of_find?_eq_some h)

theorem mem_names_of_contains (h : grammar.contains name = true) : name ∈ grammar.names := by
  obtain ⟨rule, hr⟩ := Option.isSome_iff_exists.1 h
  exact mem_names_of_rule? hr

theorem Evaluates.mem_sites {part : Expr} {place : Nat}
    (h : grammar.Evaluates input (.ruleRef name) pos part place) (hpos : pos ≤ input.length) :
    ⟨pos, name⟩ ∈ grammar.sites input := by
  refine Grammar.mem_sites.2 ⟨?_, hpos⟩
  cases h with
  | attempted h => cases h with
    | ruleRef_body hr => exact mem_names_of_rule? hr
    | ruleRef_alternative hr => exact mem_names_of_rule? hr

/-! ## Descent -/

/-- **What has an answer has no endless descent.** -/
theorem Yields.acc (h : grammar.Yields input expr pos answer) (hpos : pos ≤ input.length) :
    Acc (grammar.Inside input) (expr, pos) := by
  obtain ⟨depth, h⟩ := h
  induction depth generalizing expr pos answer with
  | zero => cases h
  | succ depth ih =>
    refine .intro _ fun ⟨part, place⟩ hinside => ?_
    obtain ⟨first, hfirst⟩ := Evaluates.answered hinside hpos h
    exact ih (Evaluates.within hinside hpos) hfirst

theorem Yields.not_leftRecursive (h : grammar.Yields input expr pos answer)
    (hpos : pos ≤ input.length)
    (hreach : Relation.ReflTransGen (grammar.Inside input) key.call (expr, pos)) :
    ¬ grammar.LeftRecursive input key := by
  have hacc := h.acc hpos
  rcases Relation.reflTransGen_iff_eq_or_transGen.1 hreach with heq | htrans
  · exact not_transGen_self (heq ▸ hacc)
  · exact not_transGen_self (hacc.inv_of_transGen htrans)

/-! ## The rules entered for an answer -/

theorem mem_sites_of_mem_entered (ha : grammar.plain? input depth expr pos = some answer)
    (hpos : pos ≤ input.length) (hmem : key ∈ answer.entered) : key ∈ grammar.sites input := by
  induction depth generalizing expr pos answer with
  | zero => cases ha
  | succ depth ih =>
    obtain ⟨rfl, rfl, hr⟩ | ⟨part, place, first, hpart, hfirst, hkey⟩ :=
      entered_cases hpos ha hmem
    · exact mem_sites.2 ⟨mem_names_of_contains hr, hpos⟩
    · exact ih hfirst (hpart.within hpos) hkey

/-- A rule that is entered for an answer has an answer itself, with no more depth. -/
theorem exists_answer_of_mem_entered (ha : grammar.plain? input depth expr pos = some answer)
    (hmem : key ∈ answer.entered) :
    ∃ d ≤ depth, ∃ own, grammar.plain? input d (.ruleRef key.rule) key.position = some own := by
  induction depth generalizing expr pos answer with
  | zero => cases ha
  | succ depth ih =>
    have inner {script : Script Outcome} {rest : Answer Outcome}
        (hrest : script.answer? (grammar.plain? input depth) = some rest)
        (hmem : key ∈ rest.entered) : ∃ d ≤ depth + 1, ∃ own,
          grammar.plain? input d (.ruleRef key.rule) key.position = some own := by
      obtain ⟨part, place, first, hfirst, hkey⟩ := Script.exists_of_mem_entered hrest hmem
      obtain ⟨d, hd, hown⟩ := ih hfirst hkey
      exact ⟨d, Nat.le_succ_of_le hd, hown⟩
    rcases expr.ruleRef_or_not with ⟨name, rfl⟩ | he
    · cases hr : grammar.rule? name with
      | none =>
        rw [plain?_undefined hr] at ha
        cases ha
        cases hmem
      | some rule =>
        obtain ⟨rest, hrest, rfl⟩ := Option.map_eq_some_iff.1 (plain?_ruleRef hr pos ▸ ha)
        rcases List.mem_cons.1 hmem with rfl | hmem
        · exact ⟨depth + 1, Nat.le_refl _, _, ha⟩
        · exact inner hrest hmem
    · exact inner (plain?_succ he pos ▸ ha) hmem

/-- **A rule is not entered again for its own answer.** Otherwise it would have that answer with
less depth, and for that answer it would be entered again. -/
theorem not_mem_entered_body {rule : Rule} (hr : grammar.rule? name = some rule)
    {inner : Answer Outcome} (h : (Script.ofBody name rule.body pos).Yields grammar input inner) :
    ⟨pos, name⟩ ∉ inner.entered := by
  obtain ⟨depth, h⟩ := h
  induction depth using Nat.strongRecOn generalizing inner with
  | ind depth ih =>
    intro hmem
    obtain ⟨part, place, first, hfirst, hkey⟩ := Script.exists_of_mem_entered h hmem
    obtain ⟨d, hd, own, hown⟩ := exists_answer_of_mem_entered hfirst hkey
    cases d with
    | zero => cases hown
    | succ d =>
      obtain ⟨again, hagain, -⟩ := Option.map_eq_some_iff.1 (plain?_ruleRef hr pos ▸ hown)
      have hle : d ≤ depth := by omega
      cases h.symm.trans (Script.answer?_mono (fun _ _ _ hf => plain?_mono hf hle) hagain)
      exact ih d (by omega) hagain hmem

end Grammar

end Packrat
