import Packrat.Grammar

/-!
# Sample grammars

Small grammars that show the expressions at work: phrases, operators, identifiers beside keywords,
nested lists, a rule by way of another, and a rule that refers to itself before anything is
consumed.
-/

set_option autoImplicit false

namespace Packrat.Sample

open Packrat.Expr

/-- One word. -/
def word : Grammar where
  rules := [⟨"foo", literal "barf"⟩]
  names_nodup := by decide
  names_nonempty := by decide

/-- Two phrases, one of them by way of other rules. -/
def phrases : Grammar where
  rules := [
    ⟨"foo", choice [
      sequence [literal "barf", literal " ", literal "darf"],
      ruleRef "carf"]⟩,
    ⟨"carf", sequence [literal "carf", any, ruleRef "erf"]⟩,
    ⟨"erf", literal "erf"⟩]
  names_nodup := by decide
  names_nonempty := by decide

/-- One alternative for each operator on a single expression. -/
def operators : Grammar where
  rules := [
    ⟨"foo", choice [
      sequence [literal "a", optional (literal "b"), literal "c"],
      sequence [literal "x", zeroOrMore (literal "y"), literal "z"],
      sequence [literal "d", oneOrMore (literal "e"), literal "f"],
      sequence [literal "k", notFollowedBy (literal "l"), any],
      sequence [literal "q", followedBy (literal "r"), any]]⟩]
  names_nodup := by decide
  names_nonempty := by decide

/-- Keywords, and identifiers that are no keywords. -/
def identifiers : Grammar where
  rules := [
    ⟨"statement", choice [ruleRef "keyword", ruleRef "ident"]⟩,
    ⟨"keyword", sequence [
      choice [literal "if", literal "else", literal "while"],
      notFollowedBy (oneIn .xidContinue)]⟩,
    ⟨"ident", sequence [notFollowedBy (ruleRef "keyword"), identifier]⟩,
    ⟨"list", sequence [
      ruleRef "ident",
      zeroOrMore (sequence [literal ",", ruleRef "ident"]),
      endOfInput]⟩]
  names_nodup := by decide
  names_nonempty := by decide

/-- A decimal number with an optional sign. -/
def signedNumber : Pattern := .ofSource "-?[0-9]+"

/-- Numbers and lists of such, in brackets and separated by commas. -/
def nestedLists : Grammar where
  rules := [
    ⟨"value", choice [ruleRef "number", ruleRef "list"]⟩,
    ⟨"list", sequence [
      literal "[",
      ruleRef "ws",
      optional (sequence [
        ruleRef "value",
        zeroOrMore (sequence [ruleRef "ws", literal ",", ruleRef "ws", ruleRef "value"])]),
      ruleRef "ws",
      literal "]"]⟩,
    ⟨"number", regex signedNumber⟩,
    ⟨"ws", whitespace⟩]
  names_nodup := by decide
  names_nonempty := by decide

/-- A grammar of one rule. -/
def singleRule (name : String) (body : Expr) (nonempty : name ≠ "" := by decide) : Grammar where
  rules := [⟨name, body⟩]
  names_nodup := by simp
  names_nonempty := by simpa

/-- Numbers by way of another rule. -/
def numbers : Grammar where
  rules := [⟨"Digits", oneOrMore (oneIn .digit)⟩, ⟨"Number", ruleRef "Digits"⟩]
  names_nodup := by decide
  names_nonempty := by decide

/-- A rule that refers to itself before anything is consumed. -/
def leftRecursive : Grammar where
  rules := [
    ⟨"expr", choice [sequence [ruleRef "expr", literal "+", ruleRef "num"], ruleRef "num"]⟩,
    ⟨"num", oneIn .digit⟩]
  names_nodup := by decide
  names_nonempty := by decide

end Packrat.Sample
