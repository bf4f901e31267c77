/-!
# Quoted text

Text between quotation marks on one line: a backslash, a tab, a line feed, a carriage return and
the quotation mark itself are written with a backslash before a letter or the mark, every other
character stands for itself.
-/

set_option autoImplicit false

namespace Packrat.Text

/-- The written form of one character between two of the quotation marks `mark`. -/
def escapeChar (mark c : Char) : List Char :=
  match c with
  | '\\' => ['\\', '\\']
  | '\t' => ['\\', 't']
  | '\n' => ['\\', 'n']
  | '\r' => ['\\', 'r']
  | c => if c = mark then ['\\', c] else [c]

/-- The written form of a text between two double quotation marks, without the marks. -/
def escape (text : String) : String := String.ofList (text.toList.flatMap (escapeChar '\"'))

/-- A text between double quotation marks. -/
def quoted (text : String) : String := "\"" ++ escape text ++ "\""

/-- A character between single quotation marks. -/
def quotedChar (c : Char) : String := "'" ++ String.ofList (escapeChar '\'' c) ++ "'"

end Packrat.Text
