import Packrat.Regex.Flags
import Packrat.Regex.PropertyName

/-!
# Escapes in regular expressions

What a backslash introduces: a character that would otherwise be a sign, a character by its number,
a set of characters, or a test of a place.
-/

set_option autoImplicit false

namespace Packrat.Regex

/-- What an escape, or a character that is no sign, stands for. -/
inductive Token
  | char (c : Char)
  | set (set : CharSet)
  | look (look : Look)

/-- The value of a hexadecimal digit. -/
def hexDigit? (c : Char) : Option Nat :=
  if '0' ≤ c ∧ c ≤ '9' then some (c.toNat - '0'.toNat)
  else if 'a' ≤ c ∧ c ≤ 'f' then some (c.toNat - 'a'.toNat + 10)
  else if 'A' ≤ c ∧ c ≤ 'F' then some (c.toNat - 'A'.toNat + 10)
  else none

/-- The character with a number, if there is one. -/
def charOfCode? (code : Nat) : Option Char :=
  if code.isValidChar then some (Char.ofNat code) else none

/-- Reads exactly `count` hexadecimal digits, of which `value` is what came before. -/
def readHexDigits? (flags : Flags) : (count value : Nat) → List Char → Option (Nat × List Char)
  | 0, value, input => some (value, input)
  | _ + 1, _, [] => none
  | count + 1, value, c :: rest => do
    let digit ← hexDigit? c
    readHexDigits? flags count (value * 16 + digit) (flags.skipSpace rest)

/-- Reads hexadecimal digits up to a closing brace. The first argument bounds their number. -/
def readHexBraced? (flags : Flags) :
    (bound : Nat) → (value? : Option Nat) → List Char → Option (Nat × List Char)
  | 0, _, _ => none
  | _ + 1, _, [] => none
  | bound + 1, value?, c :: rest =>
    let rest := flags.skipSpace rest
    if c = '}' then value?.map fun value => (value, rest)
    else do
      let digit ← hexDigit? c
      readHexBraced? flags bound (some (value?.getD 0 * 16 + digit)) rest

/-- Reads the number of a character after `\x`, `\u` or `\U`: so many digits, or any number of them
in braces. Two digits after `\x` stand for a byte, which without Unicode must be ASCII. -/
def readCharCode? (flags : Flags) (digits : Nat) (input : List Char) :
    Option (Token × List Char) :=
  match flags.skipSpace input with
  | '{' :: rest => do
    let (code, rest) ← readHexBraced? flags (rest.length + 1) none (flags.skipSpace rest)
    return (.char (← charOfCode? code), rest)
  | input => do
    let (code, rest) ← readHexDigits? flags digits 0 input
    if digits = 2 ∧ ¬ flags.unicode ∧ 0x7f < code then none
    else return (.char (← charOfCode? code), rest)

/-- Reads what stands in braces, leaving out what is skipped between tokens. The first argument
bounds its length. -/
def readBraced? (flags : Flags) :
    (bound : Nat) → (read : List Char) → List Char → Option (List Char × List Char)
  | 0, _, _ => none
  | bound + 1, read, input =>
    match flags.skipSpace input with
    | [] => none
    | '}' :: rest => some (read.reverse, rest)
    | c :: rest => readBraced? flags bound (c :: read) rest

/-- A text before and after the first occurrence of a mark. -/
def splitAt? (mark : List Char) : List Char → Option (List Char × List Char)
  | [] => none
  | c :: rest =>
    if mark.isPrefixOf (c :: rest) then some ([], (c :: rest).drop mark.length)
    else (splitAt? mark rest).map fun (before, after) => (c :: before, after)

/-- The set that the text in the braces of `\p` stands for. -/
def braceSet? (text : List Char) : Option CharSet :=
  let marked (mark : List Char) : Option (List Char × List Char) := splitAt? mark text
  match marked ['!', '='] <|> marked [':'] <|> marked ['='] with
  | some (name, value) => valueSetNamed? (String.ofList name) (String.ofList value)
  | none => propertySetNamed? (String.ofList text)

/-- Reads the name of a property after `\p` or, complemented, after `\P`. -/
def readProperty? (flags : Flags) (complemented : Bool) (input : List Char) :
    Option (Token × List Char) :=
  if !flags.unicode then none
  else do
    let (set, rest) ← match flags.skipSpace input with
      | [] => none
      | '\\' :: _ => none
      | '{' :: rest => do
        let (text, rest) ← readBraced? flags (rest.length + 1) [] rest
        pure (← braceSet? text, rest)
      | c :: rest => do pure (← propertySetNamed? c.toString, flags.skipSpace rest)
    return (.set (← flags.complementIf complemented set), rest)

/-- The set of `\d`, `\s` or `\w`, by the letter. -/
def shorthandSet (flags : Flags) (letter : Char) : CharSet :=
  if flags.unicode then
    match letter with
    | 'd' => .property (.category [.nd])
    | 's' => .property .whiteSpace
    | _ => .property .word
  else
    match letter with
    | 'd' => .range '0' '9'
    | 's' => .ofRanges [('\t', '\r'), (' ', ' ')]
    | _ => .ofRanges [('0', '9'), ('A', 'Z'), ('_', '_'), ('a', 'z')]

/-- The complement of the set of `\d`, `\s` or `\w`, which does not exist in ASCII. -/
def shorthandComplement? (flags : Flags) (letter : Char) : Option CharSet :=
  if flags.unicode then some (.complement (shorthandSet flags letter)) else none

/-- Whether a character without a meaning of its own after a backslash stands for itself there:
ASCII characters other than letters, digits and angle brackets do. -/
def isEscapable (c : Char) : Bool :=
  c.toNat < 128 && !c.isAlphanum && c ≠ '<' && c ≠ '>'

/-- The tests that `\b` followed by a name in braces stands for. -/
def boundaryNamed? (alphabet : Alphabet) : List Char → Option Look
  | ['s', 't', 'a', 'r', 't'] => some (.wordStart alphabet)
  | ['e', 'n', 'd'] => some (.wordStop alphabet)
  | ['s', 't', 'a', 'r', 't', '-', 'h', 'a', 'l', 'f'] => some (.wordStartHalf alphabet)
  | ['e', 'n', 'd', '-', 'h', 'a', 'l', 'f'] => some (.wordStopHalf alphabet)
  | _ => none

/-- Reads the rest of a test that starts with `\b`. A brace that no letter follows is not part of
it. -/
def readBoundary? (flags : Flags) (input : List Char) : Option (Token × List Char) :=
  let plain := (Token.look (.wordBoundary flags.alphabet), input)
  match input with
  | '{' :: rest =>
    match flags.skipSpace rest with
    | [] => none
    | c :: _ =>
      if c.isAlpha ∨ c = '-' then do
        let (name, rest) ← readBraced? flags (rest.length + 1) [] rest
        return (.look (← boundaryNamed? flags.alphabet name), rest)
      else some plain
  | _ => some plain

/-- Reads what follows a backslash. -/
def readEscape? (flags : Flags) : List Char → Option (Token × List Char)
  | [] => none
  | c :: rest =>
    let char (c : Char) : Option (Token × List Char) := some (.char c, rest)
    let look (l : Look) : Option (Token × List Char) := some (.look l, rest)
    match c with
    | 'x' => readCharCode? flags 2 rest
    | 'u' => readCharCode? flags 4 rest
    | 'U' => readCharCode? flags 8 rest
    | 'p' => readProperty? flags false rest
    | 'P' => readProperty? flags true rest
    | 'd' | 's' | 'w' => some (.set (shorthandSet flags c), rest)
    | 'D' | 'S' | 'W' => (shorthandComplement? flags c.toLower).map fun set => (.set set, rest)
    | 'a' => char '\x07'
    | 'f' => char '\x0c'
    | 't' => char '\t'
    | 'n' => char '\n'
    | 'r' => char '\r'
    | 'v' => char '\x0b'
    | 'A' => look .textStart
    | 'z' => look .textStop
    | 'b' => readBoundary? flags rest
    | 'B' => look (.notWordBoundary flags.alphabet)
    | '<' => look (.wordStart flags.alphabet)
    | '>' => look (.wordStop flags.alphabet)
    | c => if isEscapable c then char c else none

end Packrat.Regex
