import Packrat.Regex.Escape

/-!
# Bracketed classes of regular expressions

Reading a class in square brackets: characters, ranges, named classes and nested brackets, united
or joined by the operators `&&`, `--` and `~~`, which group to the left and bind more loosely than
union. Along with each set goes the depth to which its text nests.
-/

set_option autoImplicit false

namespace Packrat.Regex

/-- A set as it was written, and how deeply its text nests. -/
structure ClassPart where
  set : CharSet
  depth : Nat

/-- An operator between the operands of a class. -/
inductive SetOperator
  | intersection
  | difference
  | symmetricDifference

/-- The set that an operator makes of two. -/
def SetOperator.apply : SetOperator → CharSet → CharSet → CharSet
  | intersection, a, b => a.intersection b
  | difference, a, b => a.intersection b.complement
  | symmetricDifference, a, b => a.symmetricDifference b

/-- What has been read of a class: the operands before the last operator, and the parts of the
operand after it, the last one first. -/
structure ClassBody where
  left? : Option (ClassPart × SetOperator) := none
  parts : List ClassPart := []

namespace ClassBody

/-- The body with one more part. -/
def push (body : ClassBody) (part : ClassPart) : ClassBody :=
  { body with parts := part :: body.parts }

/-- The union of the parts of the last operand. -/
def operand (body : ClassBody) : ClassPart :=
  match body.parts with
  | [] => ⟨.none, 0⟩
  | [part] => part
  | parts =>
    parts.foldl (fun union part => ⟨part.set.union union.set, max union.depth (part.depth + 1)⟩)
      ⟨.none, 0⟩

/-- The set that the body stands for. -/
def part (flags : Flags) (body : ClassBody) : ClassPart :=
  let right := body.operand
  match body.left? with
  | none => right
  | some (left, operator) =>
    ⟨operator.apply (flags.closeCase left.set) (flags.closeCase right.set),
      max left.depth right.depth + 1⟩

/-- The body after an operator. -/
def operate (flags : Flags) (body : ClassBody) (operator : SetOperator) : ClassBody :=
  ⟨some (body.part flags, operator), []⟩

end ClassBody

/-- The classes that `[:name:]` names. -/
def asciiClassNamed? (name : List Char) : Option CharSet :=
  (ranges? (String.ofList name)).map .ofRanges
where
  /-- The ranges of a named class. -/
  ranges? : String → Option (List (Char × Char))
    | "alnum" => some [('0', '9'), ('A', 'Z'), ('a', 'z')]
    | "alpha" => some [('A', 'Z'), ('a', 'z')]
    | "ascii" => some [('\x00', '\x7f')]
    | "blank" => some [('\t', '\t'), (' ', ' ')]
    | "cntrl" => some [('\x00', '\x1f'), ('\x7f', '\x7f')]
    | "digit" => some [('0', '9')]
    | "graph" => some [('!', '~')]
    | "lower" => some [('a', 'z')]
    | "print" => some [(' ', '~')]
    | "punct" => some [('!', '/'), (':', '@'), ('[', '\x60'), ('\x7b', '~')]
    | "space" => some [('\t', '\r'), (' ', ' ')]
    | "upper" => some [('A', 'Z')]
    | "word" => some [('0', '9'), ('A', 'Z'), ('_', '_'), ('a', 'z')]
    | "xdigit" => some [('0', '9'), ('A', 'F'), ('a', 'f')]
    | _ => none

/-- Reads a named class after its first bracket: whether it is complemented, the class, and the
rest of the input. -/
def readAsciiClass? : List Char → Option (Bool × CharSet × List Char)
  | ':' :: '^' :: rest => read true rest
  | ':' :: rest => read false rest
  | _ => none
where
  /-- Reads the name and the closing signs. -/
  read (complemented : Bool) (input : List Char) : Option (Bool × CharSet × List Char) :=
    match input.dropWhile (· ≠ ':') with
    | ':' :: ']' :: rest =>
      (asciiClassNamed? (input.takeWhile (· ≠ ':'))).map fun set => (complemented, set, rest)
    | _ => none

/-- Reads one character or escape of a class. -/
def readClassToken? (flags : Flags) : List Char → Option (Token × List Char)
  | [] => none
  | '\\' :: rest => readEscape? flags rest
  | c :: rest => some (.char c, rest)

/-- The character that a token stands for; without Unicode it must be ASCII. -/
def Token.classChar? (flags : Flags) : Token → Option Char
  | char c => if flags.unicode ∨ c.toNat < 128 then some c else none
  | _ => none

/-- The set that a token stands for in a class. -/
def Token.classSet? (flags : Flags) : Token → Option CharSet
  | set s => some s
  | token => (token.classChar? flags).map .single

/-- Reads a range, or a token that starts none. A hyphen before another one or before the closing
bracket makes no range. -/
def readClassRange? (flags : Flags) (input : List Char) : Option (ClassPart × List Char) := do
  let (first, rest) ← readClassToken? flags input
  match flags.skipSpace rest with
  | '-' :: following =>
    let next := flags.peekAfter? ('-' :: following)
    if next = some ']' ∨ next = some '-' then
      return (⟨← first.classSet? flags, 0⟩, '-' :: following)
    else
      let (last, rest) ← readClassToken? flags (flags.skipSpace following)
      let lo ← first.classChar? flags
      let hi ← last.classChar? flags
      if lo ≤ hi then return (⟨.range lo hi, 0⟩, rest) else none
  | rest => return (⟨← first.classSet? flags, 0⟩, rest)

/-- The hyphens at the start of a class, which stand for themselves. The first argument bounds
their number. -/
def readHyphens (flags : Flags) : Nat → ClassBody → List Char → ClassBody × List Char
  | bound + 1, body, '-' :: rest =>
    readHyphens flags bound (body.push ⟨.single '-', 0⟩) (flags.skipSpace rest)
  | _, body, input => (body, input)

/-- Reads the start of a class after its bracket: whether it is complemented, and the hyphens or
the closing bracket that stand for themselves there. -/
def readClassStart (flags : Flags) (input : List Char) : Bool × ClassBody × List Char :=
  let input := flags.skipSpace input
  let (complemented, input) := match input with
    | '^' :: rest => (true, flags.skipSpace rest)
    | _ => (false, input)
  let (body, input) := readHyphens flags input.length {} input
  match body.parts, input with
  | [], ']' :: rest => (complemented, body.push ⟨.single ']', 0⟩, flags.skipSpace rest)
  | _, _ => (complemented, body, input)

/-- Reads a class up to its closing bracket, after the part of it that has been read. The first
argument bounds the number of parts. -/
def readClassBody? (flags : Flags) :
    Nat → (complemented : Bool) → ClassBody → List Char → Option (ClassPart × List Char)
  | 0, _, _, _ => none
  | bound + 1, complemented, body, input =>
    match flags.skipSpace input with
    | [] => none
    | '[' :: rest =>
      match readAsciiClass? rest with
      | some (complementedName, set, rest) => do
        let set ← flags.complementIf complementedName set
        readClassBody? flags bound complemented (body.push ⟨set, 0⟩) rest
      | none => do
        let (complementedInner, inner, rest) := readClassStart flags rest
        let (part, rest) ← readClassBody? flags bound complementedInner inner rest
        readClassBody? flags bound complemented (body.push { part with depth := part.depth + 1 })
          rest
    | ']' :: rest => do
      let part := body.part flags
      return ({ part with set := ← flags.complementIf complemented part.set }, rest)
    | '&' :: '&' :: rest =>
      readClassBody? flags bound complemented (body.operate flags .intersection) rest
    | '-' :: '-' :: rest =>
      readClassBody? flags bound complemented (body.operate flags .difference) rest
    | '~' :: '~' :: rest =>
      readClassBody? flags bound complemented (body.operate flags .symmetricDifference) rest
    | input => do
      let (part, rest) ← readClassRange? flags input
      readClassBody? flags bound complemented (body.push part) rest

/-- Reads a class after its opening bracket. -/
def readBracket? (flags : Flags) (input : List Char) : Option (ClassPart × List Char) :=
  let (complemented, body, rest) := readClassStart flags input
  readClassBody? flags (rest.length + 1) complemented body rest

end Packrat.Regex
