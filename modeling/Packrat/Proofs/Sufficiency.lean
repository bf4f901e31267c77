import Mathlib.Logic.Relation
import Packrat.Proofs.AttemptsPlain

/-!
# Depth that suffices

An expression affords a depth if it has an answer with so many nested evaluations, and only such
rules are entered for the answer as may be (`Grammar.Affords`). It affords one more than all that is
evaluated for it (`Affords.of_parts`), which the semantics tell construct by construct
(`Grammar.Throughout`).
-/

set_option autoImplicit false

namespace Packrat.Grammar

variable {grammar : Grammar} {input : Input} {expr : Expr} {exprs : List Expr} {pos stop : Nat}
  {name : String} {rule : Rule}

/-! ## What is evaluated for an expression -/

variable (grammar input) in
/-- All that is evaluated directly for the expression has the property. -/
def Throughout (P : Expr → Nat → Prop) (expr : Expr) (pos : Nat) : Prop :=
  ∀ part place, grammar.Evaluates input expr pos part place → P part place

namespace Throughout

variable {P : Expr → Nat → Prop}

theorem terminal (h : expr.isTerminal = true) : grammar.Throughout input P expr pos := by
  rintro part place (hattempts | _ | _)
  · cases hattempts <;> cases h
  · cases h
  · cases h

/-- After the last expression there is nothing to be evaluated, however it ends. -/
theorem sequence_last (h : P expr pos) : grammar.Throughout input P (.sequence [expr]) pos := by
  rintro part place (hattempts | _ | _)
  cases hattempts with
  | sequence_first => exact h
  | sequence_rest _ rest => cases rest

theorem sequence_cons (hfirst : P expr pos) (hpos : pos ≤ input.length)
    (hd : grammar.Derives input expr pos (.success stop))
    (hrest : grammar.Throughout input P (.sequence exprs) stop) :
    grammar.Throughout input P (.sequence (expr :: exprs)) pos := by
  rintro part place (hattempts | _ | _)
  cases hattempts with
  | sequence_first => exact hfirst
  | sequence_rest first rest =>
    cases hd.unique first hpos
    exact hrest part place (.attempted rest)

theorem sequence_failure (hfirst : P expr pos) (hpos : pos ≤ input.length)
    (hd : grammar.Derives input expr pos .failure) :
    grammar.Throughout input P (.sequence (expr :: exprs)) pos := by
  rintro part place (hattempts | _ | _)
  cases hattempts with
  | sequence_first => exact hfirst
  | sequence_rest first _ => cases hd.unique first hpos

theorem sequence_all (hpos : pos ≤ input.length)
    (h : ∀ expr ∈ exprs, ∀ place ≤ input.length, P expr place) :
    grammar.Throughout input P (.sequence exprs) pos := by
  induction exprs generalizing pos with
  | nil =>
    rintro part place (hattempts | _ | _)
    cases hattempts
  | cons expr exprs ih =>
    rw [List.forall_mem_cons] at h
    rintro part place (hattempts | _ | _)
    cases hattempts with
    | sequence_first => exact h.1 pos hpos
    | sequence_rest first rest => exact ih (first.within hpos).2 h.2 part place (.attempted rest)

theorem choice_all (h : ∀ expr ∈ exprs, P expr pos) :
    grammar.Throughout input P (.choice exprs) pos := by
  induction exprs with
  | nil =>
    rintro part place (hattempts | _ | _)
    cases hattempts
  | cons expr exprs ih =>
    rw [List.forall_mem_cons] at h
    rintro part place (hattempts | _ | _)
    cases hattempts with
    | choice_first => exact h.1
    | choice_rest _ rest => exact ih h.2 part place (.attempted rest)

theorem zeroOrMore_all (hpos : pos ≤ input.length)
    (h : ∀ place ≤ input.length, P expr place) :
    grammar.Throughout input P (.zeroOrMore expr) pos := by
  rintro part place (hattempts | _ | _)
  have hplace := hattempts.within hpos
  generalize hexpr : Expr.zeroOrMore expr = whole at hattempts
  induction hattempts with
  | zeroOrMore_round =>
    cases hexpr
    exact h _ hplace
  | zeroOrMore_rest round _ _ ih => exact ih (round.within hpos).2 hplace hexpr
  | _ => cases hexpr

theorem oneOrMore_all (hpos : pos ≤ input.length) (h : ∀ place ≤ input.length, P expr place) :
    grammar.Throughout input P (.oneOrMore expr) pos := by
  rintro part place (hattempts | _ | _)
  cases hattempts with
  | oneOrMore_round => exact h _ hpos
  | oneOrMore_rest round _ rest =>
    exact zeroOrMore_all (round.within hpos).2 h part place (.attempted rest)

theorem zeroOrMore_failure (hround : P expr pos) (hpos : pos ≤ input.length)
    (hd : grammar.Derives input expr pos .failure) :
    grammar.Throughout input P (.zeroOrMore expr) pos := by
  rintro part place (hattempts | _ | _)
  cases hattempts with
  | zeroOrMore_round => exact hround
  | zeroOrMore_rest round _ _ => cases hd.unique round hpos

theorem zeroOrMore_more (hround : P expr pos) (hpos : pos ≤ input.length)
    (hd : grammar.Derives input expr pos (.success stop))
    (hrest : grammar.Throughout input P (.zeroOrMore expr) stop) :
    grammar.Throughout input P (.zeroOrMore expr) pos := by
  rintro part place (hattempts | _ | _)
  cases hattempts with
  | zeroOrMore_round => exact hround
  | zeroOrMore_rest round _ rest =>
    cases hd.unique round hpos
    exact hrest part place (.attempted rest)

theorem notFollowedBy (h : P expr pos) : grammar.Throughout input P (.notFollowedBy expr) pos := by
  rintro part place (hattempts | _ | _)
  · cases hattempts
  · exact h

theorem ruleRef (hr : grammar.rule? name = some rule) (hbody : ∀ exprs, rule.body ≠ .choice exprs)
    (h : P rule.body pos) : grammar.Throughout input P (.ruleRef name) pos := by
  rintro part place (hattempts | _ | _)
  cases hattempts with
  | ruleRef_body hr' =>
    cases hr.symm.trans hr'
    exact h
  | ruleRef_alternative hr' hbody' =>
    cases hr.symm.trans hr'
    exact absurd hbody' (hbody _)

theorem alternatives (hr : grammar.rule? name = some rule) (hbody : rule.body = .choice exprs)
    (h : grammar.Throughout input P (.choice exprs) pos) :
    grammar.Throughout input P (.ruleRef name) pos := by
  rintro part place (hattempts | _ | _)
  cases hattempts with
  | ruleRef_body hr' hbody' =>
    cases hr.symm.trans hr'
    exact absurd hbody (hbody' _)
  | ruleRef_alternative hr' hbody' alternative =>
    cases hr.symm.trans hr'
    cases hbody.symm.trans hbody'
    exact h part place (.attempted alternative)

end Throughout

/-! ## Depth -/

variable {may may' : CacheKey → Prop} {depth depth' : Nat}

variable (grammar input) in
/-- With so many nested evaluations the expression has an answer, for which only such rules are
entered as may be. -/
def Affords (may : CacheKey → Prop) (depth : Nat) (expr : Expr) (pos : Nat) : Prop :=
  ∃ answer, grammar.plain? input depth expr pos = some answer ∧ ∀ key ∈ answer.entered, may key

namespace Affords

theorem mono (h : grammar.Affords input may depth expr pos) (hmay : ∀ key, may key → may' key)
    (hdepth : depth ≤ depth') : grammar.Affords input may' depth' expr pos := by
  obtain ⟨answer, hanswer, hentered⟩ := h
  exact ⟨answer, plain?_mono hanswer hdepth, fun key hkey => hmay key (hentered key hkey)⟩

/-- **An expression affords one more than its parts**, and enters itself if it is a rule. -/
theorem of_parts (hpos : pos ≤ input.length) (hkey : ∀ name, expr = .ruleRef name → may ⟨pos, name⟩)
    (h : grammar.Throughout input (grammar.Affords input may depth) expr pos) :
    grammar.Affords input may (depth + 1) expr pos := by
  cases hanswer : grammar.plain? input (depth + 1) expr pos with
  | none =>
    obtain ⟨part, place, hpart, hnone⟩ := exists_unanswered hpos hanswer
    obtain ⟨answer, hsome, -⟩ := h part place hpart
    cases hnone.symm.trans hsome
  | some answer =>
    refine ⟨answer, hanswer, fun key hmem => ?_⟩
    obtain ⟨hexpr, rfl, -⟩ | ⟨part, place, first, hpart, hfirst, hmem⟩ :=
      entered_cases hpos hanswer hmem
    · exact hkey key.rule hexpr
    · obtain ⟨answer', hanswer', hentered⟩ := h part place hpart
      cases hfirst.symm.trans hanswer'
      exact hentered key hmem

theorem of_expr (hpos : pos ≤ input.length) (he : ∀ name, expr ≠ .ruleRef name)
    (h : grammar.Throughout input (grammar.Affords input may depth) expr pos) :
    grammar.Affords input may (depth + 1) expr pos :=
  of_parts hpos (fun name hname => absurd hname (he name)) h

theorem terminal (hpos : pos ≤ input.length) (h : expr.isTerminal = true) :
    grammar.Affords input may 1 expr pos := by
  refine of_expr hpos ?_ (.terminal h)
  rintro name rfl
  cases h

theorem ruleRef (hpos : pos ≤ input.length) (hr : grammar.rule? name = some rule)
    (hbody : ∀ exprs, rule.body ≠ .choice exprs) (hkey : may ⟨pos, name⟩)
    (h : grammar.Affords input may depth rule.body pos) :
    grammar.Affords input may (depth + 1) (.ruleRef name) pos := by
  refine of_parts hpos (fun name' hname => ?_) (.ruleRef hr hbody h)
  cases hname
  exact hkey

theorem alternatives (hpos : pos ≤ input.length) (hr : grammar.rule? name = some rule)
    (hbody : rule.body = .choice exprs) (hkey : may ⟨pos, name⟩)
    (h : grammar.Throughout input (grammar.Affords input may depth) (.choice exprs) pos) :
    grammar.Affords input may (depth + 1) (.ruleRef name) pos := by
  refine of_parts hpos (fun name' hname => ?_) (.alternatives hr hbody h)
  cases hname
  exact hkey

end Affords

/-! ## Depth that suffices anywhere -/

variable (grammar input) in
/-- The expression affords the depth at every position, however it ends there. -/
def AffordsAnywhere (depth : Nat) (expr : Expr) : Prop :=
  ∀ pos ≤ input.length, grammar.Affords input (fun _ => True) depth expr pos

namespace AffordsAnywhere

theorem mono (h : grammar.AffordsAnywhere input depth expr) (hdepth : depth ≤ depth') :
    grammar.AffordsAnywhere input depth' expr :=
  fun pos hpos => (h pos hpos).mono (fun _ hkey => hkey) hdepth

theorem terminal (h : expr.isTerminal = true) : grammar.AffordsAnywhere input 1 expr :=
  fun _ hpos => .terminal hpos h

theorem sequence (h : ∀ expr ∈ exprs, grammar.AffordsAnywhere input depth expr) :
    grammar.AffordsAnywhere input (depth + 1) (.sequence exprs) :=
  fun _ hpos => .of_expr hpos nofun (.sequence_all hpos h)

theorem choice (h : ∀ expr ∈ exprs, grammar.AffordsAnywhere input depth expr) :
    grammar.AffordsAnywhere input (depth + 1) (.choice exprs) :=
  fun pos hpos => .of_expr hpos nofun (.choice_all fun expr hmem => h expr hmem pos hpos)

theorem zeroOrMore (h : grammar.AffordsAnywhere input depth expr) :
    grammar.AffordsAnywhere input (depth + 1) (.zeroOrMore expr) :=
  fun _ hpos => .of_expr hpos nofun (.zeroOrMore_all hpos h)

theorem notFollowedBy (h : grammar.AffordsAnywhere input depth expr) :
    grammar.AffordsAnywhere input (depth + 1) (.notFollowedBy expr) :=
  fun pos hpos => .of_expr hpos nofun (.notFollowedBy (h pos hpos))

theorem ruleRef (hr : grammar.rule? name = some rule) (hbody : ∀ exprs, rule.body ≠ .choice exprs)
    (h : grammar.AffordsAnywhere input depth rule.body) :
    grammar.AffordsAnywhere input (depth + 1) (.ruleRef name) :=
  fun pos hpos => .ruleRef hpos hr hbody trivial (h pos hpos)

theorem alternatives (hr : grammar.rule? name = some rule) (hbody : rule.body = .choice exprs)
    (h : ∀ expr ∈ exprs, grammar.AffordsAnywhere input depth expr) :
    grammar.AffordsAnywhere input (depth + 1) (.ruleRef name) :=
  fun pos hpos =>
    .alternatives hpos hr hbody trivial (.choice_all fun expr hmem => h expr hmem pos hpos)

end AffordsAnywhere

/-! ## Rounds of a repetition -/

variable (grammar input) in
/-- A round of a repetition that affords the depth and consumes something. -/
structure Strides (may : CacheKey → Prop) (depth : Nat) (expr : Expr) (pos stop : Nat) : Prop where
  le : pos ≤ input.length
  derives : grammar.Derives input expr pos (.success stop)
  ne : stop ≠ pos
  affords : grammar.Affords input may depth expr pos

/-- All that a repetition evaluates affords the depth, if the rounds do and then what follows. -/
theorem Throughout.strides
    (h : Relation.ReflTransGen (grammar.Strides input may depth expr) pos stop)
    (hrest : grammar.Throughout input (grammar.Affords input may depth) (.zeroOrMore expr) stop) :
    grammar.Throughout input (grammar.Affords input may depth) (.zeroOrMore expr) pos := by
  induction h using Relation.ReflTransGen.head_induction_on with
  | refl => exact hrest
  | head round _ ih => exact .zeroOrMore_more round.affords round.le round.derives ih

end Packrat.Grammar
