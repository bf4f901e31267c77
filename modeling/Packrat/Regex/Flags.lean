import Packrat.Regex.Basic

/-!
# Flags of regular expressions

The settings that `(?i)` and its like change, and what each means for reading: what is skipped
between two tokens and which sets, tests and repetitions the written signs stand for.
-/

set_option autoImplicit false

namespace Packrat.Regex

/-- The settings under which a part of a regular expression is read. -/
structure Flags where
  /-- `i`: letters match in either case. -/
  ignoreCase : Bool := false
  /-- `m`: `^` and `$` match at the ends of lines. -/
  multiLine : Bool := false
  /-- `s`: the dot matches a line feed too. -/
  dotAll : Bool := false
  /-- `U`: repetitions are lazy unless marked, and greedy when marked. -/
  swapGreed : Bool := false
  /-- `R`: a carriage return ends a line too. -/
  crlf : Bool := false
  /-- `x`: white space is skipped, and comments from `#` to the end of the line. -/
  ignoreSpace : Bool := false
  /-- `u`: classes and case follow the Unicode standard, not ASCII alone. -/
  unicode : Bool := true

namespace Flags

/-- Whether a letter names a flag. -/
def isName (c : Char) : Bool := "imsURxu".toList.contains c

/-- The flags with one of them, given by its letter, set to a value. -/
def update (flags : Flags) (name : Char) (value : Bool) : Flags :=
  match name with
  | 'i' => { flags with ignoreCase := value }
  | 'm' => { flags with multiLine := value }
  | 's' => { flags with dotAll := value }
  | 'U' => { flags with swapGreed := value }
  | 'R' => { flags with crlf := value }
  | 'x' => { flags with ignoreSpace := value }
  | 'u' => { flags with unicode := value }
  | _ => flags

/-- The alphabet of words. -/
def alphabet (flags : Flags) : Alphabet := if flags.unicode then .unicode else .ascii

/-- The set under the flag for case. -/
def closeCase (flags : Flags) (set : CharSet) : CharSet :=
  if flags.ignoreCase then
    if flags.unicode then set.anyCase else set.anyAsciiCase
  else set

/-- The set or its complement, after the flag for case has been heeded. In ASCII there are no
complements, because they would match parts of characters. -/
def complementIf (flags : Flags) (complemented : Bool) (set : CharSet) : Option CharSet :=
  let set := flags.closeCase set
  if complemented then
    if flags.unicode then some set.complement else none
  else some set

/-- What the dot matches. -/
def dot (flags : Flags) : Option CharSet :=
  if !flags.unicode then none
  else if flags.dotAll then some .all
  else if flags.crlf then some (.complement (.ofRanges [('\n', '\n'), ('\r', '\r')]))
  else some (.complement (.single '\n'))

/-- What `^` tests. -/
def caret (flags : Flags) : Look :=
  if flags.multiLine then
    if flags.crlf then .lineStartCrlf else .lineStart
  else .textStart

/-- What `$` tests. -/
def dollar (flags : Flags) : Look :=
  if flags.multiLine then
    if flags.crlf then .lineStopCrlf else .lineStop
  else .textStop

/-- The input after what is skipped before a token: nothing, or white space and comments. -/
def skipSpace (flags : Flags) (input : List Char) : List Char :=
  if flags.ignoreSpace then outside input else input
where
  /-- Skips white space and enters comments. -/
  outside : List Char → List Char
    | [] => []
    | c :: rest =>
      if Unicode.isWhiteSpace c then outside rest
      else if c = '#' then comment rest
      else c :: rest
  /-- Skips a comment with the end of its line. -/
  comment : List Char → List Char
    | [] => []
    | c :: rest => if c = '\n' then outside rest else comment rest

/-- The character that follows the first one of the input and what is skipped after it. Here at
most the sign of one comment is skipped, and white space alone at the end of the input is not. -/
def peekAfter? (flags : Flags) (input : List Char) : Option Char :=
  let following := input.drop 1
  if flags.ignoreSpace then
    match skipBlank following with
    | '#' :: rest =>
      match skipBlank rest with
      | c :: _ => some c
      | [] => following.head?
    | c :: _ => some c
    | [] => following.head?
  else following.head?
where
  /-- The input after white space. -/
  skipBlank (input : List Char) : List Char := input.dropWhile Unicode.isWhiteSpace

end Flags

/-- Letters of flags with the values that they are set to. -/
abbrev FlagSettings := List (Char × Bool)

/-- Reads the letters of flags up to `:` or `)`: those after a hyphen are cleared. Neither a letter
nor the hyphen may come twice, and a letter must follow the hyphen. The result holds the settings,
the closing character and the rest of the input. -/
def readFlags? (input : List Char) : Option (FlagSettings × Char × List Char) :=
  go true false [] input
where
  /-- Reads on after the settings `seen`; `dangling` says whether a hyphen came last. -/
  go (value dangling : Bool) (seen : FlagSettings) :
      List Char → Option (FlagSettings × Char × List Char)
    | [] => none
    | c :: rest =>
      if c = ':' ∨ c = ')' then if dangling then none else some (seen, c, rest)
      else if c = '-' then if value then go false true seen rest else none
      else if Flags.isName c ∧ ¬ seen.any (·.1 = c) then go value false ((c, value) :: seen) rest
      else none

/-- The flags after settings. -/
def Flags.updateAll (flags : Flags) (settings : FlagSettings) : Flags :=
  settings.foldl (fun flags (name, value) => flags.update name value) flags

end Packrat.Regex
