import Packrat.Regex.Program

/-!
# Leftmost-first search

Runs a program over a text, all threads side by side and in order of preference. The match that is
found starts as far left as any and is, of those that start there, the one preferred by the
expression. At each position every instruction is entered at most once, by the most preferred
thread, so a search takes time proportional to the product of the program and the text.
-/

set_option autoImplicit false

namespace Packrat.Regex

/-- A place in a program, and the position in the text where the match would start. -/
structure Thread where
  pc : Nat
  start : Nat
  deriving DecidableEq, Repr

/-- The positions where a match starts and stops. -/
structure Span where
  start : Nat
  stop : Nat
  deriving DecidableEq, Repr

namespace Program

/-- Follows threads, the most preferred one first, to the instructions that consume or accept.
`seen` marks the instructions that were entered, `settled` holds the threads that have arrived, and
the first argument bounds the number of steps. -/
def follow (program : Program) (before after : Option Char) :
    Nat → List Thread → (seen : Array Bool) → (settled : Array Thread) → Array Thread
  | 0, _, _, settled => settled
  | _ + 1, [], _, settled => settled
  | bound + 1, thread :: threads, seen, settled =>
    if seen.getD thread.pc true then follow program before after bound threads seen settled
    else
      let seen := seen.setIfInBounds thread.pc true
      let enter (pcs : List Nat) : List Thread :=
        pcs.map (fun pc => { thread with pc }) ++ threads
      match program.code[thread.pc]? with
      | none => follow program before after bound threads seen settled
      | some (.consume _) | some .accept =>
        follow program before after bound threads seen (settled.push thread)
      | some (.test look) =>
        follow program before after bound
          (if look.holds before after then enter [thread.pc + 1] else threads) seen settled
      | some (.split first second) =>
        follow program before after bound (enter [first, second]) seen settled
      | some (.jump target) => follow program before after bound (enter [target]) seen settled

/-- The threads that stand at a consuming or accepting instruction, from threads that may stand
anywhere. -/
def settle (program : Program) (before after : Option Char) (threads : List Thread) :
    List Thread :=
  let size := program.code.size
  (follow program before after (threads.length + 2 * size + 1) threads
    (Array.replicate size false) #[]).toList

/-- The threads that consume the character `after`, and the first thread that accepts. Threads less
preferred than that one are dropped. -/
def step (program : Program) (after : Option Char) :
    List Thread → List Thread × Option Thread
  | [] => ([], none)
  | thread :: threads =>
    match program.code[thread.pc]? with
    | some .accept => ([], some thread)
    | some (.consume set) =>
      let (moved, accepted) := step program after threads
      if after.any set.contains then ({ thread with pc := thread.pc + 1 } :: moved, accepted)
      else (moved, accepted)
    | _ => step program after threads

/-- Whether threads get on from the first instruction only at the start of the text. -/
def anchored (program : Program) : Bool := program.code[0]? = some (.test .textStart)

/-- Searches the text from a position on, given the character before it, the threads that have got
so far and the best match yet. -/
def search (program : Program) :
    (before : Option Char) → (rest : List Char) → (pos : Nat) → List Thread → Option Span →
      Option Span
  | before, rest, pos, threads, best =>
    let threads :=
      if best.isSome || (program.anchored && pos ≠ 0) then threads else threads ++ [⟨0, pos⟩]
    let (threads, accepted) := program.step rest.head? (program.settle before rest.head? threads)
    let best := (accepted.map fun thread => ⟨thread.start, pos⟩) <|> best
    match rest with
    | [] => best
    | c :: rest =>
      if threads.isEmpty && (best.isSome || program.anchored) then best
      else search program (some c) rest (pos + 1) threads best
  termination_by structural _ rest => rest

/-- The leftmost match in a text. -/
def find? (program : Program) (text : List Char) : Option Span :=
  program.search none text 0 [] none

end Program

end Packrat.Regex
