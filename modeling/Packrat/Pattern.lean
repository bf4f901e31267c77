import Packrat.Error
import Packrat.Regex.Reader
import Packrat.Regex.Search
import Packrat.Text.Quoted

/-!
# Patterns

Regular expressions as parts of a grammar. A pattern is compiled once, from its source between
`^(?:` and `)`, and is run over the text from the current position on.
-/

set_option autoImplicit false

namespace Packrat

/-- A regular expression with its source. -/
structure Pattern where
  source : String
  program : Regex.Program
  deriving DecidableEq

namespace Pattern

/-- The text that is compiled for a source. -/
def anchoredSource (source : String) : List Char :=
  '^' :: '(' :: '?' :: ':' :: source.toList ++ [')']

/-- The pattern of a source. -/
def compile (source : String) : Except GrammarError Pattern :=
  match (Regex.read? (anchoredSource source)).bind Regex.compile? with
  | some program => .ok ⟨source, program⟩
  | none => .error (.invalidRegex source)

/-- The pattern of a source that is known to be a regular expression. -/
def ofSource (source : String)
    (valid : (compile source).toOption.isSome = true := by decide +kernel) : Pattern :=
  (compile source).toOption.get valid

/-- The number of atoms up to the end of the match in a text. -/
def matchLength? (pattern : Pattern) (text : List Char) : Option Nat :=
  (pattern.program.find? text).map (·.stop)

/-- The source between slashes. -/
def description (pattern : Pattern) : String := "/" ++ pattern.source ++ "/"

/-- The pattern in a form for diagnosis. -/
def inspect (pattern : Pattern) : String := "Pattern(" ++ Text.quoted pattern.source ++ ")"

end Pattern

end Packrat
