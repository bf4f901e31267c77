import Packrat.CharClass

/-!
# The algebra of character classes

However a class is built up from others, it accepts what the Boolean reading of its construction
says (`Construction.Holds`), and it is described by the operands of its outermost unions in their
order (`Construction.operands`), no matter how these are nested and which of them are complements
(`boolean_algebra`).
-/

set_option autoImplicit false

namespace Packrat.CharClass

/-! ## Constructions -/

/-- How a class is built up. -/
inductive Construction
  | digit
  | alphabetic
  | alphanumeric
  | whitespace
  | xidStart
  | xidContinue
  | range (lo hi : Char)
  | oneOf (chars : String)
  | predicate (description : String) (test : Char → Bool)
  | or (a b : Construction)
  | orOneOf (a : Construction) (chars : String)
  | negate (a : Construction)

namespace Construction

def build : Construction → CharClass
  | digit => .digit
  | alphabetic => .alphabetic
  | alphanumeric => .alphanumeric
  | whitespace => .whitespace
  | xidStart => .xidStart
  | xidContinue => .xidContinue
  | range lo hi => .range lo hi
  | oneOf chars => .oneOf chars
  | predicate description test => .predicate description test
  | or a b => a.build.or b.build
  | orOneOf a chars => a.build.orOneOf chars
  | negate a => a.build.negate

/-- The Boolean reading of the construction: whether it says that the character is in the class. -/
def Holds : Construction → Char → Prop
  | digit, c => '0' ≤ c ∧ c ≤ '9'
  | alphabetic, c => Unicode.isAlphabetic c = true
  | alphanumeric, c => Unicode.isAlphanumeric c = true
  | whitespace, c => Unicode.isWhiteSpace c = true
  | xidStart, c => Unicode.isXidStart c = true
  | xidContinue, c => Unicode.isXidContinue c = true
  | range lo hi, c => lo ≤ c ∧ c ≤ hi
  | oneOf chars, c => c ∈ chars.toList
  | predicate _ test, c => test c = true
  | or a b, c => a.Holds c ∨ b.Holds c
  | orOneOf a chars, c => a.Holds c ∨ c ∈ chars.toList
  | negate a, c => ¬ a.Holds c

/-- The operands of the outermost unions, in their order. -/
def operands : Construction → List Construction
  | or a b => a.operands ++ b.operands
  | orOneOf a chars => a.operands ++ [oneOf chars]
  | other => [other]

theorem operands_ne_nil (construction : Construction) : construction.operands ≠ [] := by
  cases construction with
  | or a b => exact List.append_ne_nil_of_left_ne_nil (operands_ne_nil a) _
  | orOneOf a chars => exact List.append_ne_nil_of_left_ne_nil (operands_ne_nil a) _
  | _ => exact List.cons_ne_nil _ _

end Construction

/-! ## What is accepted -/

theorem accepts_oneOf {chars : String} {c : Char} :
    (oneOf chars).accepts c = true ↔ c ∈ chars.toList := by
  simp [oneOf, accepts, Part.accepts]

theorem accepts_or_iff {a b : CharClass} {c : Char} :
    (a.or b).accepts c = true ↔ a.accepts c = true ∨ b.accepts c = true := by
  rw [accepts_or, Bool.or_eq_true]

theorem accepts_negate_iff {cls : CharClass} {c : Char} :
    cls.negate.accepts c = true ↔ ¬ cls.accepts c = true := by
  rw [accepts_negate, Bool.not_eq_true', Bool.not_eq_true]

theorem Construction.accepts_build (construction : Construction) (c : Char) :
    construction.build.accepts c = true ↔ construction.Holds c := by
  induction construction with
  | digit =>
    have hdigit : c.isDigit = true ↔ '0' ≤ c ∧ c ≤ '9' := by
      rw [Char.isDigit, Bool.and_eq_true, decide_eq_true_eq, decide_eq_true_eq]
      exact Iff.rfl
    simpa [build, Holds, CharClass.digit, accepts, Part.accepts] using hdigit
  | range lo hi => simp [build, Holds, CharClass.range, accepts, Part.accepts]
  | oneOf chars => exact accepts_oneOf
  | or a b iha ihb => exact accepts_or_iff.trans (or_congr iha ihb)
  | orOneOf a chars iha => exact accepts_or_iff.trans (or_congr iha accepts_oneOf)
  | negate a iha => exact accepts_negate_iff.trans (not_congr iha)
  | alphabetic => simp [build, Holds, CharClass.alphabetic, accepts, Part.accepts]
  | alphanumeric => simp [build, Holds, CharClass.alphanumeric, accepts, Part.accepts]
  | whitespace => simp [build, Holds, CharClass.whitespace, accepts, Part.accepts]
  | xidStart => simp [build, Holds, CharClass.xidStart, accepts, Part.accepts]
  | xidContinue => simp [build, Holds, CharClass.xidContinue, accepts, Part.accepts]
  | predicate description test =>
    simp [build, Holds, CharClass.predicate, accepts, Part.accepts]

/-! ## Descriptions -/

namespace Part

/-- The part is no union without parts, which would have no words of its own between those of
others. -/
def IsWorded (part : Part) : Prop := part ≠ .union []

variable {left right : Part} {parts : List Part}

theorem IsWorded.descriptions_ne_nil (h : (union parts).IsWorded) : descriptions parts ≠ [] := by
  cases parts with
  | nil => exact absurd rfl h
  | cons part parts => exact List.cons_ne_nil _ _

theorem IsWorded.unionParts (h : left.IsWorded) (right : Part) :
    (union (left.unionParts right)).IsWorded := by
  intro hunion
  injection hunion with hparts
  unfold Part.unionParts at hparts
  split at hparts
  · rw [List.append_eq_nil_iff] at hparts
    exact h (by rw [hparts.1])
  · exact List.append_ne_nil_of_right_ne_nil _ (List.cons_ne_nil _ _) hparts
  · exact List.cons_ne_nil _ _ hparts

/-- The words of a union are those of its two parts, whichever of them give way to their own. -/
theorem IsWorded.description_union (hleft : left.IsWorded) (hright : right.IsWorded) :
    (union (left.unionParts right)).description =
      left.description ++ " or " ++ right.description := by
  unfold Part.unionParts
  split
  · next left right =>
    calc (union (left ++ right)).description
      _ = " or ".intercalate (descriptions left ++ descriptions right) := by
        rw [description, descriptions_append]
      _ = (union left).description ++ " or " ++ (union right).description :=
        String.intercalate_append_of_ne_nil hleft.descriptions_ne_nil hright.descriptions_ne_nil
  · next left _ =>
    calc (union (left ++ [right])).description
      _ = " or ".intercalate (descriptions left ++ [right.description]) := by
        rw [description, descriptions_append, descriptions, descriptions]
      _ = (union left).description ++ " or " ++ right.description :=
        String.intercalate_append_of_ne_nil hleft.descriptions_ne_nil (List.cons_ne_nil _ _)
  · rfl

end Part

theorem isWorded_asPart {cls : CharClass} (h : cls.part.IsWorded) : cls.asPart.IsWorded := by
  unfold asPart
  split
  · nofun
  · exact h

theorem isWorded_or {a : CharClass} (h : a.part.IsWorded) (b : CharClass) :
    (a.or b).part.IsWorded := (isWorded_asPart h).unionParts b.asPart

theorem description_or {a b : CharClass} (ha : a.part.IsWorded) (hb : b.part.IsWorded) :
    (a.or b).description = a.description ++ " or " ++ b.description := by
  rw [← description_asPart a, ← description_asPart b]
  exact (isWorded_asPart ha).description_union (isWorded_asPart hb)

namespace Construction

theorem isWorded (construction : Construction) : construction.build.part.IsWorded := by
  induction construction with
  | or a b iha _ => exact isWorded_or iha b.build
  | orOneOf a chars iha => exact isWorded_or iha (.oneOf chars)
  | negate a iha => exact iha
  | _ => nofun

/-- The construction is described by its operands. -/
def Described (construction : Construction) : Prop :=
  construction.build.description =
    " or ".intercalate (construction.operands.map fun operand => operand.build.description)

theorem Described.or {a b : Construction} (ha : a.Described) (hb : b.Described) :
    (a.or b).Described := by
  have operands (c : Construction) :
      c.operands.map (fun operand => operand.build.description) ≠ [] :=
    fun h => c.operands_ne_nil (List.map_eq_nil_iff.1 h)
  calc (a.or b).build.description
    _ = a.build.description ++ " or " ++ b.build.description :=
      description_or a.isWorded b.isWorded
    _ = _ := by
      rw [ha, hb, Construction.operands, List.map_append,
        String.intercalate_append_of_ne_nil (operands a) (operands b)]

/-- **A class is described by its operands**, however its unions are nested. -/
theorem described (construction : Construction) : construction.Described := by
  induction construction with
  | or a b iha ihb => exact iha.or ihb
  | orOneOf a chars iha =>
    have hset : (oneOf chars).Described := rfl
    exact iha.or hset
  | _ => rfl

end Construction

/-- **Character classes are the Boolean algebra of their parts**: a class accepts what the Boolean
reading of its construction says, a union is described by the words of its operands with `or`
between them, and so is any nesting of unions by those of all operands. -/
theorem boolean_algebra :
    (∀ (construction : Construction) (c : Char),
      construction.build.accepts c = true ↔ construction.Holds c) ∧
    (∀ a b : Construction,
      (a.build.or b.build).description =
        a.build.description ++ " or " ++ b.build.description) ∧
    ∀ construction : Construction,
      construction.build.description =
        " or ".intercalate (construction.operands.map fun operand => operand.build.description) :=
  ⟨Construction.accepts_build, fun a b => description_or a.isWorded b.isWorded,
    Construction.described⟩

/-- A complement in a union that is itself an operand on the right. -/
example :
    (digit.or (digit.negate.orOneOf "5")).description = "digit or not digit or one of '5'" := by
  decide

end Packrat.CharClass
