import Packrat.Regex.Bracket

/-!
# Reading regular expressions

From the text of a regular expression to its tree. A text that is no regular expression, or nests
too deeply, has none. There is no look-around and there are no references to groups.
-/

set_option autoImplicit false

namespace Packrat.Regex

/-- A part of a regular expression that has been read, and how deeply its text nests. Only settings
of flags cannot be repeated. -/
structure Piece where
  regex : Regex
  depth : Nat := 0
  repeatable : Bool := true

/-- What has been read of a group: its finished alternatives and the pieces of the one being read,
the last ones first. -/
structure GroupBody where
  alternatives : List Piece := []
  pieces : List Piece := []

namespace GroupBody

/-- The body with one more piece. -/
def push (body : GroupBody) (piece : Piece) : GroupBody :=
  { body with pieces := piece :: body.pieces }

/-- Joins pieces, the last one first, by an operation. -/
def join (op : Regex → Regex → Regex) : List Piece → Piece
  | [] => { regex := .empty, repeatable := false }
  | [piece] => piece
  | last :: pieces =>
    let joined (regex : Regex) (depth : Nat) : Piece := { regex, depth }
    pieces.foldl
      (fun after piece => joined (op piece.regex after.regex) (max after.depth (piece.depth + 1)))
      (joined last.regex (last.depth + 1))

/-- The alternative being read, as one piece. -/
def current (body : GroupBody) : Piece := join .concat body.pieces

/-- The body after the sign between alternatives. -/
def nextAlternative (body : GroupBody) : GroupBody := ⟨body.current :: body.alternatives, []⟩

/-- The whole body as one piece. -/
def whole (body : GroupBody) : Piece := join .alternation (body.current :: body.alternatives)

end GroupBody

/-- How a group opens. -/
inductive Opening
  /-- No group but flags for what follows. -/
  | settings (settings : FlagSettings)
  /-- A group with flags of its own and perhaps a name. -/
  | group (settings : FlagSettings) (name? : Option (List Char))

/-- Reads the name of a group up to the closing bracket. -/
def readGroupName? (input : List Char) : Option (List Char × List Char) :=
  let name := input.takeWhile (· ≠ '>')
  match name, input.dropWhile (· ≠ '>') with
  | first :: others, _ :: rest =>
    let startsName := first = '_' || Unicode.isAlphabetic first
    let continues (c : Char) : Bool :=
      c = '_' || c = '.' || c = '[' || c = ']' || Unicode.isAlphanumeric c
    if startsName && others.all continues then some (name, rest) else none
  | _, _ => none

/-- Reads the opening of a group after its parenthesis. -/
def readOpening? (flags : Flags) (input : List Char) : Option (Opening × List Char) :=
  let named (rest : List Char) : Option (Opening × List Char) :=
    (readGroupName? rest).map fun (name, rest) => (.group [] (some name), rest)
  match flags.skipSpace input with
  | '?' :: '=' :: _ | '?' :: '!' :: _ => none
  | '?' :: '<' :: '=' :: _ | '?' :: '<' :: '!' :: _ => none
  | '?' :: 'P' :: '<' :: rest => named rest
  | '?' :: '<' :: rest => named rest
  | '?' :: rest => do
    let (settings, close, rest) ← readFlags? rest
    if close = ':' then return (.group settings none, rest)
    else if settings.isEmpty then none
    else return (.settings settings, rest)
  | input => some (.group [] none, input)

/-- The greatest count of a repetition. -/
def maxCount : Nat := 4294967295

/-- Reads a decimal number with white space around it. -/
def readCount? (flags : Flags) (input : List Char) : Option (Nat × List Char) :=
  match input.dropWhile Unicode.isWhiteSpace with
  | [] => none
  | first :: rest =>
    if first.isDigit then
      let (value, rest) := digits rest.length (digit first) (flags.skipSpace rest)
      if value ≤ maxCount then some (value, blank rest.length rest) else none
    else none
where
  /-- The value of a digit. -/
  digit (c : Char) : Nat := c.toNat - '0'.toNat
  /-- The number and the rest of the input, after digits of a given value. -/
  digits : Nat → Nat → List Char → Nat × List Char
    | bound + 1, value, c :: rest =>
      if c.isDigit then digits bound (value * 10 + digit c) (flags.skipSpace rest)
      else (value, c :: rest)
    | _, value, input => (value, input)
  /-- The input after white space. -/
  blank : Nat → List Char → List Char
    | bound + 1, c :: rest =>
      if Unicode.isWhiteSpace c then blank bound (flags.skipSpace rest) else c :: rest
    | _, input => input

/-- Reads the bounds of a repetition after the opening brace, up to the closing one. -/
def readBounds? (flags : Flags) (input : List Char) :
    Option (Nat × Option Nat × List Char) := do
  let (min, rest) ← readCount? flags (flags.skipSpace input)
  match rest with
  | '}' :: rest => return (min, some min, rest)
  | ',' :: rest =>
    match flags.skipSpace rest with
    | '}' :: rest => return (min, none, rest)
    | rest =>
      match ← readCount? flags rest with
      | (max, '}' :: rest) => if min ≤ max then return (min, some max, rest) else none
      | _ => none
  | _ => none

/-- Reads the question mark that makes a repetition lazy. -/
def readLazy (input : List Char) : Bool × List Char :=
  match input with
  | '?' :: rest => (true, rest)
  | _ => (false, input)

/-- The body of a group with its last piece repeated. -/
def GroupBody.repeatLast? (flags : Flags) (body : GroupBody) (min : Nat) (max : Option Nat)
    (isLazy : Bool) : Option GroupBody :=
  match body.pieces with
  | [] => none
  | last :: pieces =>
    if last.repeatable then
      let regex := last.regex.repeated min max (isLazy == flags.swapGreed)
      some { body with pieces := { regex, depth := last.depth + 1 } :: pieces }
    else none

/-- The expression for one character outside of brackets. -/
def Token.regex (flags : Flags) : Token → Regex
  | char c => .charIn (flags.closeCase (.single c))
  | set s => .charIn s
  | look l => .test l

/-- Reads a group up to its closing parenthesis or the end of the input, after the part of it that
has been read. `names` are the names of all groups so far, each of which may be given once. The
first argument bounds the number of steps. The result holds the group, the names and the rest of
the input. -/
def readGroup? : Nat → Flags → (names : List (List Char)) → GroupBody → List Char →
    Option (Piece × List (List Char) × List Char)
  | 0, _, _, _, _ => none
  | bound + 1, flags, names, body, input =>
    let repeatBy (min : Nat) (max : Option Nat) (input : List Char) :
        Option (GroupBody × List Char) :=
      let (isLazy, rest) := readLazy input
      (body.repeatLast? flags min max isLazy).map fun body => (body, rest)
    let continueWith (next : Option (GroupBody × List Char)) :
        Option (Piece × List (List Char) × List Char) :=
      match next with
      | some (body, rest) => readGroup? bound flags names body rest
      | none => none
    let pushed (token : Option (Token × List Char)) : Option (GroupBody × List Char) :=
      token.map fun (token, rest) => (body.push { regex := token.regex flags }, rest)
    match flags.skipSpace input with
    | [] => some (body.whole, names, [])
    | ')' :: rest => some (body.whole, names, ')' :: rest)
    | '|' :: rest => readGroup? bound flags names body.nextAlternative rest
    | '(' :: rest =>
      match readOpening? flags rest with
      | none => none
      | some (.settings settings, rest) =>
        readGroup? bound (flags.updateAll settings) names
          (body.push { regex := .empty, repeatable := false }) rest
      | some (.group settings name?, rest) =>
        if name?.any names.contains then none
        else
          match readGroup? bound (flags.updateAll settings) (name?.toList ++ names) {} rest with
          | some (inner, names, ')' :: rest) =>
            readGroup? bound flags names
              (body.push { regex := inner.regex, depth := inner.depth + 1 }) rest
          | _ => none
    | '[' :: rest =>
      continueWith ((readBracket? flags rest).map fun (part, rest) =>
        (body.push { regex := .charIn part.set, depth := part.depth + 1 }, rest))
    | '?' :: rest => continueWith (repeatBy 0 (some 1) rest)
    | '*' :: rest => continueWith (repeatBy 0 none rest)
    | '+' :: rest => continueWith (repeatBy 1 none rest)
    | '{' :: rest =>
      continueWith ((readBounds? flags rest).bind fun (min, max, rest) =>
        repeatBy min max (flags.skipSpace rest))
    | '\\' :: rest => continueWith (pushed (readEscape? flags rest))
    | '.' :: rest =>
      continueWith (flags.dot.bind fun set => pushed (some (.set set, rest)))
    | '^' :: rest => continueWith (pushed (some (.look flags.caret, rest)))
    | '$' :: rest => continueWith (pushed (some (.look flags.dollar, rest)))
    | c :: rest => continueWith (pushed (some (.char c, rest)))

/-- How deeply the text of a regular expression may nest. -/
def maxDepth : Nat := 250

/-- The regular expression that a text stands for. -/
def read? (text : List Char) : Option Regex :=
  match readGroup? (text.length + 1) {} [] {} text with
  | some (piece, _, []) => if piece.depth ≤ maxDepth then some piece.regex else none
  | _ => none

end Packrat.Regex
