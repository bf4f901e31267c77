import Packrat.Arithmetic.Grammars
import Packrat.Arithmetic.Walk
import Packrat.Parser

/-!
# The command line

A calculator that takes one term as its argument and prints the value of it in unsigned words, or
what is wrong with it.
-/

set_option autoImplicit false

namespace Packrat.CommandLine

/-- What a run of the program leaves: the texts on its two outputs and its exit code. -/
structure Outputs where
  stdout : String := ""
  stderr : String := ""
  code : Nat := 0
  deriving DecidableEq, Repr

/-- A fault of an evaluation in words. -/
def faultMessage : Arithmetic.Fault → String
  | .number digits => digits ++ ": number too large to fit in target type"
  | .operation position => s!"arithmetic error at offset {position + 1}"

/-- The value of the term that an input holds, or what is wrong with it, if that can be said. -/
def value (input : Input) : Except (Option String) Int :=
  let parser : Parser := { grammar := Arithmetic.inlineGrammar }
  match (parser.parse "calculator" input).result with
  | .error error => .error (some error.message)
  | .ok result =>
    match result.completeTree? with
    | some tree =>
      match Arithmetic.walk .secondChild .unsigned64 input tree with
      | .value number => .ok number
      | .fault fault => .error (some (faultMessage fault))
      | .stuck => .error none
    | none =>
      match result.failure? with
      | some failure =>
        let place := input.lineColumn failure.position
        .error (some s!"parser error at {place.line}:{place.column}: {failure.message}")
      | none => .error none

/-- Runs the program under a name with its arguments. -/
def run (program : String) (arguments : List String) : Outputs :=
  match arguments with
  | [text] =>
    let stdout := "parsing: " ++ text ++ "\n"
    match value (.ofString text) with
    | .ok value => { stdout := stdout ++ s!"result: {value}\n" }
    | .error message? =>
      { stdout, stderr := (message?.map fun message => message ++ "\n").getD "", code := 1 }
  | _ => { stderr := "Usage " ++ program ++ " EXPRESSION\n", code := 2 }

end Packrat.CommandLine
