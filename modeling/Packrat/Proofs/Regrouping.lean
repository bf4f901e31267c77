import Packrat.Proofs.Semantics

/-!
# Expressions that end alike

Wherever an expression comes to an end, another may do so too, in the same way and whatever the
rules (`Expr.EndsAs`). Every construct keeps this for its parts. How the parts of sequences and of
choices are grouped makes no difference: those of an inner one may stand in the outer one
(`Expr.EndsAs.sequence_append`, `Expr.EndsAs.choice_append`), and a single part may stand for the
whole (`Expr.endsAs_sequence`, `Expr.endsAs_choice`).
-/

set_option autoImplicit false

namespace Packrat

/-- Wherever an expression comes to an end, the other one does so too, in the same way. -/
def Expr.EndsAs (expr other : Expr) : Prop :=
  ∀ (grammar : Grammar) (input : Input) (pos : Nat) (verdict : Verdict),
    grammar.Derives input expr pos verdict → grammar.Derives input other pos verdict

namespace Grammar

variable {grammar : Grammar} {input : Input} {pos stop : Nat} {verdict : Verdict} {name : String}
  {exprs others : List Expr}

/-! ## Sequences and choices in two pieces -/

theorem Derives.sequence_append_success
    (first : grammar.Derives input (.sequence exprs) pos (.success stop))
    (rest : grammar.Derives input (.sequence others) stop verdict) :
    grammar.Derives input (.sequence (exprs ++ others)) pos verdict := by
  induction exprs generalizing pos with
  | nil =>
    cases first
    exact rest
  | cons expr exprs ih =>
    cases first with
    | sequence_cons head tail => exact .sequence_cons head (ih tail)

theorem Derives.sequence_append_failure
    (first : grammar.Derives input (.sequence exprs) pos .failure) :
    grammar.Derives input (.sequence (exprs ++ others)) pos .failure := by
  induction exprs generalizing pos with
  | nil => cases first
  | cons expr exprs ih =>
    cases first with
    | sequence_cons head tail => exact .sequence_cons head (ih tail)
    | sequence_failure head => exact .sequence_failure head

theorem Derives.sequence_append_undefined
    (first : grammar.Derives input (.sequence exprs) pos (.undefined name)) :
    grammar.Derives input (.sequence (exprs ++ others)) pos (.undefined name) := by
  induction exprs generalizing pos with
  | nil => cases first
  | cons expr exprs ih =>
    cases first with
    | sequence_cons head tail => exact .sequence_cons head (ih tail)
    | sequence_undefined head => exact .sequence_undefined head

theorem Derives.choice_append_failure
    (first : grammar.Derives input (.choice exprs) pos .failure)
    (rest : grammar.Derives input (.choice others) pos verdict) :
    grammar.Derives input (.choice (exprs ++ others)) pos verdict := by
  induction exprs with
  | nil => exact rest
  | cons expr exprs ih =>
    cases first with
    | choice_failure head tail => exact .choice_failure head (ih tail)

theorem Derives.choice_append (hfailure : verdict ≠ .failure)
    (first : grammar.Derives input (.choice exprs) pos verdict) :
    grammar.Derives input (.choice (exprs ++ others)) pos verdict := by
  induction exprs with
  | nil =>
    cases first
    exact absurd rfl hfailure
  | cons expr exprs ih =>
    cases first with
    | choice_success head => exact .choice_success head
    | choice_failure head tail => exact .choice_failure head (ih tail)
    | choice_undefined head => exact .choice_undefined head

end Grammar

namespace Expr

variable {expr other : Expr} {exprs others : List Expr}

theorem EndsAs.refl (expr : Expr) : expr.EndsAs expr := fun _ _ _ _ h => h

theorem EndsAs.trans {third : Expr} (h : expr.EndsAs other) (h' : other.EndsAs third) :
    expr.EndsAs third := fun grammar input pos verdict hd =>
  h' grammar input pos verdict (h grammar input pos verdict hd)

/-! ## Sequences -/

theorem EndsAs.sequence_cons (first : expr.EndsAs other)
    (rest : (sequence exprs).EndsAs (sequence others)) :
    (sequence (expr :: exprs)).EndsAs (sequence (other :: others)) := by
  intro grammar input pos verdict h
  cases h with
  | sequence_cons head tail => exact .sequence_cons (first _ _ _ _ head) (rest _ _ _ _ tail)
  | sequence_failure head => exact .sequence_failure (first _ _ _ _ head)
  | sequence_undefined head => exact .sequence_undefined (first _ _ _ _ head)

/-- The parts of a sequence that comes first in another may stand there themselves. -/
theorem EndsAs.sequence_append (exprs others : List Expr) :
    (sequence (sequence exprs :: others)).EndsAs (sequence (exprs ++ others)) := by
  intro grammar input pos verdict h
  cases h with
  | sequence_cons head tail => exact head.sequence_append_success tail
  | sequence_failure head => exact head.sequence_append_failure
  | sequence_undefined head => exact head.sequence_append_undefined

theorem endsAs_sequence (expr : Expr) : expr.EndsAs (sequence [expr]) := by
  intro grammar input pos verdict h
  cases verdict with
  | success stop => exact .sequence_cons h .sequence_nil
  | failure => exact .sequence_failure h
  | undefined name => exact .sequence_undefined h

/-! ## Choices -/

theorem EndsAs.choice_cons (first : expr.EndsAs other)
    (rest : (choice exprs).EndsAs (choice others)) :
    (choice (expr :: exprs)).EndsAs (choice (other :: others)) := by
  intro grammar input pos verdict h
  cases h with
  | choice_success head => exact .choice_success (first _ _ _ _ head)
  | choice_failure head tail => exact .choice_failure (first _ _ _ _ head) (rest _ _ _ _ tail)
  | choice_undefined head => exact .choice_undefined (first _ _ _ _ head)

theorem EndsAs.choice_append (exprs others : List Expr) :
    (choice (choice exprs :: others)).EndsAs (choice (exprs ++ others)) := by
  intro grammar input pos verdict h
  cases h with
  | choice_success head => exact head.choice_append nofun
  | choice_failure head tail => exact head.choice_append_failure tail
  | choice_undefined head => exact head.choice_append nofun

theorem endsAs_choice (expr : Expr) : expr.EndsAs (choice [expr]) := by
  intro grammar input pos verdict h
  cases verdict with
  | success stop => exact .choice_success h
  | failure => exact .choice_failure h .choice_nil
  | undefined name => exact .choice_undefined h

/-! ## Repetitions and lookahead -/

theorem EndsAs.zeroOrMore (h : expr.EndsAs other) :
    (zeroOrMore expr).EndsAs (zeroOrMore other) := by
  intro grammar input pos verdict hd
  generalize hexpr : Expr.zeroOrMore expr = repetition at hd
  induction hd with
  | zeroOrMore_failure round =>
    cases hexpr
    exact .zeroOrMore_failure (h _ _ _ _ round)
  | zeroOrMore_empty round =>
    cases hexpr
    exact .zeroOrMore_empty (h _ _ _ _ round)
  | zeroOrMore_more round hne _ _ ih =>
    cases hexpr
    exact .zeroOrMore_more (h _ _ _ _ round) hne (ih rfl)
  | zeroOrMore_undefined round =>
    cases hexpr
    exact .zeroOrMore_undefined (h _ _ _ _ round)
  | _ => cases hexpr

theorem EndsAs.oneOrMore (h : expr.EndsAs other) : (oneOrMore expr).EndsAs (oneOrMore other) := by
  intro grammar input pos verdict hd
  cases hd with
  | oneOrMore_failure round => exact .oneOrMore_failure (h _ _ _ _ round)
  | oneOrMore_empty round => exact .oneOrMore_empty (h _ _ _ _ round)
  | oneOrMore_more round hne rest =>
    exact .oneOrMore_more (h _ _ _ _ round) hne (h.zeroOrMore _ _ _ _ rest)
  | oneOrMore_undefined round => exact .oneOrMore_undefined (h _ _ _ _ round)

theorem EndsAs.optional (h : expr.EndsAs other) : (optional expr).EndsAs (optional other) := by
  intro grammar input pos verdict hd
  cases hd with
  | optional_success inner => exact .optional_success (h _ _ _ _ inner)
  | optional_failure inner => exact .optional_failure (h _ _ _ _ inner)
  | optional_undefined inner => exact .optional_undefined (h _ _ _ _ inner)

theorem EndsAs.followedBy (h : expr.EndsAs other) :
    (followedBy expr).EndsAs (followedBy other) := by
  intro grammar input pos verdict hd
  cases hd with
  | followedBy_success inner => exact .followedBy_success (h _ _ _ _ inner)
  | followedBy_failure inner => exact .followedBy_failure (h _ _ _ _ inner)
  | followedBy_undefined inner => exact .followedBy_undefined (h _ _ _ _ inner)

theorem EndsAs.notFollowedBy (h : expr.EndsAs other) :
    (notFollowedBy expr).EndsAs (notFollowedBy other) := by
  intro grammar input pos verdict hd
  cases hd with
  | notFollowedBy_success inner => exact .notFollowedBy_success (h _ _ _ _ inner)
  | notFollowedBy_failure inner => exact .notFollowedBy_failure (h _ _ _ _ inner)
  | notFollowedBy_undefined inner => exact .notFollowedBy_undefined (h _ _ _ _ inner)

end Expr

end Packrat
