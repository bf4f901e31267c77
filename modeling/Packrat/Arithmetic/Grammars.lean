import Packrat.Grammar

/-!
# Grammars for arithmetic

Two grammars for the same terms. In one, numbers are repetitions, operators are rules and white
space is a blank or a tab; in the other, numbers are patterns, operators stand where they are used
and any white space counts. Their trees have the same shape.
-/

set_option autoImplicit false

namespace Packrat.Arithmetic

open Packrat.Expr

/-- Operands of one rule between operators. -/
def operands (operator : Expr) (operand : String) : Expr :=
  sequence [
    ruleRef operand,
    zeroOrMore (sequence [ruleRef "ws", operator, ruleRef "ws", ruleRef operand])]

/-- A term with white space around it, up to the end of the input. -/
def wholeTerm : Expr := sequence [ruleRef "ws", ruleRef "expr", ruleRef "ws", endOfInput]

/-- A term in parentheses, or a number. -/
def parenthesesOrNumber : Expr :=
  choice [
    sequence [literal "(", ruleRef "ws", ruleRef "expr", ruleRef "ws", literal ")"],
    ruleRef "num"]

/-- The operators of sums. -/
def sumOperator : Expr := choice [literal "+", literal "-"]

/-- The operators of products. -/
def productOperator : Expr := choice [literal "*", literal "/", literal "%"]

/-- The grammar in which operators are rules. -/
def ruleGrammar : Grammar where
  rules := [
    ⟨"calculator", wholeTerm⟩,
    ⟨"expr", operands (ruleRef "add_op") "term"⟩,
    ⟨"term", operands (ruleRef "mul_op") "factor"⟩,
    ⟨"factor", parenthesesOrNumber⟩,
    ⟨"num", oneOrMore (oneIn .digit)⟩,
    ⟨"add_op", sumOperator⟩,
    ⟨"mul_op", productOperator⟩,
    ⟨"ws", zeroOrMore (oneIn (.oneOf " \t"))⟩]
  names_nodup := by decide
  names_nonempty := by decide

/-- A decimal number. -/
def decimalNumber : Pattern := .ofSource "[0-9]+"

/-- The grammar in which operators stand where they are used. -/
def inlineGrammar : Grammar where
  rules := [
    ⟨"calculator", wholeTerm⟩,
    ⟨"expr", operands sumOperator "term"⟩,
    ⟨"term", operands productOperator "factor"⟩,
    ⟨"factor", parenthesesOrNumber⟩,
    ⟨"num", regex decimalNumber⟩,
    ⟨"ws", whitespace⟩]
  names_nodup := by decide
  names_nonempty := by decide

end Packrat.Arithmetic
