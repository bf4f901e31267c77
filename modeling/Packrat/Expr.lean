import Packrat.CharClass
import Packrat.Pattern

/-!
# Parsing expressions

What a rule of a grammar consists of. References to rules are by name and are looked up when they
are evaluated, so rules may refer to one another and to themselves in any order.
-/

set_option autoImplicit false

namespace Packrat

/-- A parsing expression. -/
inductive Expr
  /-- Matches the text. -/
  | literal (text : String)
  /-- Matches one atom that the class accepts. -/
  | oneIn (cls : CharClass)
  /-- Matches any one atom. -/
  | any
  /-- Matches nothing, at the end of the input. -/
  | endOfInput
  /-- Matches what the pattern matches from here on. -/
  | regex (pattern : Pattern)
  | sequence (exprs : List Expr)
  /-- Matches what the first of the alternatives matches that matches at all. -/
  | choice (exprs : List Expr)
  | zeroOrMore (expr : Expr)
  | oneOrMore (expr : Expr)
  /-- Matches what the expression matches, or else nothing. -/
  | optional (expr : Expr)
  /-- Matches nothing, where the expression matches. -/
  | followedBy (expr : Expr)
  /-- Matches nothing, where the expression does not match. -/
  | notFollowedBy (expr : Expr)
  | ruleRef (name : String)

namespace Expr

/-- Any number of white space atoms. -/
def whitespace : Expr := zeroOrMore (oneIn .whitespace)

/-- An identifier: an atom that starts one or an underscore, and any number that continue it. -/
def identifier : Expr :=
  sequence [oneIn (CharClass.xidStart.orOneOf "_"), zeroOrMore (oneIn .xidContinue)]

/-- Whether the expression is a sequence or a choice of several parts. -/
def isCompound : Expr → Bool
  | sequence exprs => 1 < exprs.length
  | choice exprs => 1 < exprs.length
  | _ => false

/-- The description of an operand, in parentheses where they are needed. -/
def parenthesized (expr : Expr) (description : String) : String :=
  if expr.isCompound then "(" ++ description ++ ")" else description

mutual

/-- The expression in words, as it stands in expectations. -/
def describe : Expr → String
  | literal text => Text.quoted text
  | oneIn cls => cls.description
  | any => "any character"
  | endOfInput => "end of input"
  | regex pattern => pattern.description
  | sequence [] => ""
  | sequence (expr :: exprs) => describeMore " " expr.describe exprs
  | choice [] => ""
  | choice (expr :: exprs) => describeMore " / " expr.describe exprs
  | zeroOrMore expr => expr.parenthesized expr.describe ++ "*"
  | oneOrMore expr => expr.parenthesized expr.describe ++ "+"
  | optional expr => expr.parenthesized expr.describe ++ "?"
  | followedBy expr => "&" ++ expr.parenthesized expr.describe
  | notFollowedBy expr => "!" ++ expr.parenthesized expr.describe
  | ruleRef name => name

/-- A description continued by those of more expressions, each after a separator. -/
def describeMore (separator before : String) : List Expr → String
  | [] => before
  | expr :: exprs => describeMore separator (before ++ separator ++ expr.describe) exprs

end

mutual

/-- The names in `names` and before them those that the expression refers to. -/
def addReferences : Expr → List String → List String
  | sequence exprs, names => addReferencesOf exprs names
  | choice exprs, names => addReferencesOf exprs names
  | zeroOrMore expr, names => expr.addReferences names
  | oneOrMore expr, names => expr.addReferences names
  | optional expr, names => expr.addReferences names
  | followedBy expr, names => expr.addReferences names
  | notFollowedBy expr, names => expr.addReferences names
  | ruleRef name, names => name :: names
  | literal _, names => names
  | oneIn _, names => names
  | any, names => names
  | endOfInput, names => names
  | regex _, names => names

/-- The names in `names` and before them those that the expressions refer to. -/
def addReferencesOf : List Expr → List String → List String
  | [], names => names
  | expr :: exprs, names => addReferencesOf exprs (expr.addReferences names)

end

/-- The names of the rules that the expression refers to, at any depth. -/
def references (expr : Expr) : List String := expr.addReferences []

end Expr

end Packrat
