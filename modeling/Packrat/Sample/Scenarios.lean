import Packrat.Arithmetic.Grammars
import Packrat.Arithmetic.Walk
import Packrat.Grammar.Check
import Packrat.Parser
import Packrat.Sample.Grammars

/-!
# Scenarios

Parses that belong together, with what is expected of them. A scenario reports the events of all
that it runs and ends at the first expectation that does not hold (`Scenario`), so what it has
reported is never taken back (`Scenario.events_bind`) and it is completed just if all its parts are
(`Scenario.completes_bind_iff`).

Every expectation is completed just where the parse of its text, whatever the grammar and the start
rule, has come to the result that it names, and reports just what that parse reports
(`Scenario.expectFailure_completes_iff` and its like). The scenarios themselves, at the end, are
made of these.
-/

set_option autoImplicit false

namespace Packrat.Sample

/-- A course of parses: the events that they report, and the value that it comes to unless it ends
before. -/
structure Scenario (α : Type) where
  events : List Event := []
  value? : Option α

namespace Scenario

variable {α β : Type}

instance : Monad Scenario where
  pure value := { value? := some value }
  bind scenario next :=
    match scenario.value? with
    | some value =>
      { events := scenario.events ++ (next value).events, value? := (next value).value? }
    | none => { events := scenario.events, value? := none }

/-- All that the scenario expects holds. -/
def Completes (scenario : Scenario α) : Prop := scenario.value?.isSome

instance (scenario : Scenario α) : Decidable scenario.Completes :=
  inferInstanceAs (Decidable (scenario.value?.isSome = true))

/-- A scenario that only reports events. -/
def report (events : List Event) : Scenario Unit := { events, value? := some () }

/-- The value, or the end of the scenario if there is none. -/
def unwrap (value? : Option α) : Scenario α := { value? }

/-- The end of the scenario unless something holds. -/
def expect (holds : Prop) [Decidable holds] : Scenario Unit :=
  unwrap (if holds then some () else none)

/-! ## Courses -/

section
variable (scenario : Scenario α) (next : α → Scenario β)

theorem value?_bind :
    (scenario >>= next).value? = scenario.value?.bind fun value => (next value).value? := by
  show Scenario.value? (match scenario.value? with | some value => _ | none => _) = _
  cases scenario.value? <;> rfl

/-- What is reported once is reported before all that follows. -/
theorem events_bind :
    (scenario >>= next).events =
      scenario.events ++ (scenario.value?.map fun a => (next a).events).getD [] := by
  show Scenario.events (match scenario.value? with | some value => _ | none => _) = _
  cases scenario.value? with
  | some value => rfl
  | none => exact (List.append_nil _).symm

theorem completes_bind_iff :
    (scenario >>= next).Completes ↔ ∃ a, scenario.value? = some a ∧ (next a).Completes := by
  unfold Completes
  rw [value?_bind]
  cases scenario.value? <;> simp

end

/-- A part that reports nothing leaves the report as it is. -/
theorem events_bind_of_silent {scenario : Scenario α} {next : α → Scenario β}
    (h : ∀ a, (next a).events = []) : (scenario >>= next).events = scenario.events := by
  rw [events_bind]
  cases scenario.value? with
  | some a => rw [Option.map_some, Option.getD_some, h, List.append_nil]
  | none => exact List.append_nil _

/-- The value of a course, or the end of it where something does not hold of the value. -/
def check (course : Scenario α) (holds : α → Prop) [DecidablePred holds] : Scenario Unit := do
  expect (holds (← course))

section
variable (course : Scenario α) (holds : α → Prop) [DecidablePred holds]

theorem completes_check_iff :
    (check course holds).Completes ↔ ∃ a, course.value? = some a ∧ holds a := by
  unfold check
  rw [completes_bind_iff]
  refine exists_congr fun a => and_congr_right fun _ => ?_
  unfold expect unwrap Completes
  split <;> simp_all

/-- A check reports just what its course reports, whether it holds or not. -/
theorem events_check : (check course holds).events = course.events :=
  events_bind_of_silent fun _ => rfl

end

/-! ## Parses -/

/-- Parses an input and reports what the parse reports. -/
def parseWith (parser : Parser) (start : String) (input : Input) (cache : Cache := {}) :
    Scenario Parse :=
  let parse := parser.parseWithCache start input cache
  { events := parse.events, value? := some parse }

/-- The result of a text. -/
def result (parser : Parser) (start text : String) : Scenario ParseResult := do
  unwrap (← parseWith parser start (.ofString text)).result.toOption

/-- The error that a text ends in. -/
def error (parser : Parser) (start text : String) : Scenario ParseError := do
  match (← parseWith parser start (.ofString text)).result with
  | .error error => return error
  | .ok _ => unwrap none

/-- The tree of a text that parses completely. -/
def tree (grammar : Grammar) (start text : String) : Scenario Node := do
  unwrap (← result { grammar } start text).completeTree?

/-- The failure of a text that does not parse. -/
def failure (grammar : Grammar) (start text : String) : Scenario Failure := do
  match ← result { grammar } start text with
  | .failed failure => return failure
  | _ => unwrap none

/-- What a walk of the term of a text comes to in signed words. -/
def evaluation (text : String) : Scenario Arithmetic.Evaluation := do
  let tree ← tree Arithmetic.ruleGrammar "calculator" text
  return Arithmetic.walk .firstFound .signed64 (.ofString text) tree

section
variable (parser : Parser) (grammar : Grammar) (start text : String)

/-- **A course of one parse comes to what the parse has come to**, and ends if that is something
else. -/
theorem value?_iff :
    (∀ found, (result parser start text).value? = some found ↔
      (parser.parseText start text).result = .ok found) ∧
    (∀ found, (error parser start text).value? = some found ↔
      (parser.parseText start text).result = .error found) ∧
    (∀ found, (tree grammar start text).value? = some found ↔
      (parse grammar start text).result = .ok (.complete found)) ∧
    ∀ found, (failure grammar start text).value? = some found ↔
      (parse grammar start text).result = .ok (.failed found) := by
  have hresult (parser : Parser) : (result parser start text).value? =
      (parser.parseText start text).result.toOption := rfl
  have herror : (error parser start text).value? =
      match (parser.parseText start text).result with
      | .error error => some error
      | .ok _ => none := by
    rw [error, value?_bind]
    show Scenario.value? (match (parser.parseText start text).result with
      | .error error => pure error
      | .ok _ => unwrap none) = _
    cases (parser.parseText start text).result <;> rfl
  refine ⟨?_, ?_, ?_, ?_⟩
  · intro found
    rw [hresult]
    cases (parser.parseText start text).result <;> simp [Except.toOption]
  · intro found
    rw [herror]
    cases (parser.parseText start text).result <;> simp
  · intro found
    rw [tree, value?_bind, hresult, parse]
    rcases (Parser.parseText _ start text).result with _ | (_ | _ | _) <;>
      simp [Except.toOption, unwrap, ParseResult.completeTree?]
  · intro found
    rw [failure, value?_bind, hresult, parse]
    rcases (Parser.parseText _ start text).result with _ | (_ | _ | _) <;>
      simp [Except.toOption, unwrap, pure]

/-- **A course of one parse reports what the parse reports**, whatever that comes to. -/
theorem events_eq :
    (result parser start text).events = (parser.parseText start text).events ∧
    (error parser start text).events = (parser.parseText start text).events ∧
    (tree grammar start text).events = (parse grammar start text).events ∧
    (failure grammar start text).events = (parse grammar start text).events := by
  have hresult (parser : Parser) : (result parser start text).events =
      (parser.parseText start text).events := events_bind_of_silent fun _ => rfl
  refine ⟨hresult parser, ?_, ?_, ?_⟩
  · refine (events_bind_of_silent fun found => ?_).trans rfl
    cases found.result <;> rfl
  · exact (events_bind_of_silent fun _ => rfl).trans (hresult _)
  · refine (events_bind_of_silent fun found => ?_).trans (hresult _)
    cases found <;> rfl

end

/-! ## Expectations -/

/-- Expects a text to parse completely, or not to. -/
def expectComplete (complete : Bool) (grammar : Grammar) (start text : String) : Scenario Unit :=
  check (result { grammar } start text) fun found => found.isComplete = complete

/-- Expects the tree of a text in print. -/
def expectPrint (grammar : Grammar) (start text printed : String) : Scenario Unit :=
  check (tree grammar start text) fun found => found.print? (.ofString text) = some printed

/-- Expects a text not to parse, and the failure. -/
def expectFailure (grammar : Grammar) (start text : String) (expected : Failure) :
    Scenario Unit :=
  check (failure grammar start text) fun found => found = expected

/-- Expects a text not to parse, and some of what was expected where it failed. -/
def expectExpected (grammar : Grammar) (start text : String) (position : Nat)
    (expected : List String) : Scenario Unit :=
  check (failure grammar start text) fun found =>
    found.position = position ∧ expected.all found.expected.toList.contains = true

/-- Expects a parse to end in an error. -/
def expectError (parser : Parser) (start text : String) (expected : ParseError) :
    Scenario Unit :=
  check (error parser start text) fun found => found = expected

/-- Expects what the walk of a term comes to. -/
def expectEvaluation (text : String) (expected : Arithmetic.Evaluation) : Scenario Unit :=
  check (evaluation text) fun found => found = expected

section
variable {parser : Parser} {grammar : Grammar} {start text : String}

theorem expectComplete_completes_iff {complete : Bool} :
    (expectComplete complete grammar start text).Completes ↔
      ∃ found, (parse grammar start text).result = .ok found ∧ found.isComplete = complete := by
  rw [expectComplete, completes_check_iff]
  exact exists_congr fun found =>
    and_congr_left fun _ => (value?_iff { grammar } grammar start text).1 found

theorem expectPrint_completes_iff {printed : String} :
    (expectPrint grammar start text printed).Completes ↔
      ∃ found, (parse grammar start text).result = .ok (.complete found) ∧
        found.print? (.ofString text) = some printed := by
  rw [expectPrint, completes_check_iff]
  exact exists_congr fun found =>
    and_congr_left fun _ => (value?_iff { grammar } grammar start text).2.2.1 found

theorem expectFailure_completes_iff {expected : Failure} :
    (expectFailure grammar start text expected).Completes ↔
      (parse grammar start text).result = .ok (.failed expected) := by
  rw [expectFailure, completes_check_iff, ← (value?_iff { grammar } grammar start text).2.2.2]
  exact exists_eq_right

theorem expectError_completes_iff {expected : ParseError} :
    (expectError parser start text expected).Completes ↔
      (parser.parseText start text).result = .error expected := by
  rw [expectError, completes_check_iff, ← (value?_iff parser ∅ start text).2.1]
  exact exists_eq_right

end

end Scenario

/-! ## Reports -/

/-- What a scenario leaves: the lines of its log and whether it was completed. -/
structure ScenarioReport where
  lines : List String
  passed : Bool
  deriving DecidableEq

/-- A scenario by its name. Where `concurrent` is set, parts of it run at the same time, so the
order of its events has no meaning and the lines are sorted. -/
structure NamedScenario where
  name : String
  scenario : Scenario Unit
  concurrent : Bool := false

namespace NamedScenario

/-- Runs a scenario. -/
def run (named : NamedScenario) : ScenarioReport :=
  let lines := named.scenario.events.map Event.line
  { lines := if named.concurrent then lines.mergeSort (fun a b => a ≤ b) else lines
    passed := named.scenario.Completes }

/-- **The report of a concurrent scenario does not depend on the order of the events.** -/
theorem run_eq_of_perm {named other : NamedScenario} (hnamed : named.concurrent = true)
    (hother : other.concurrent = true)
    (hevents : named.scenario.events.Perm other.scenario.events)
    (hpassed : named.scenario.Completes ↔ other.scenario.Completes) : named.run = other.run := by
  have sorted (lines : List String) :
      (lines.mergeSort fun a b => a ≤ b).Pairwise fun a b => decide (a ≤ b) = true :=
    List.pairwise_mergeSort (by simpa using fun a b c => String.le_trans)
      (by simpa using String.le_total) lines
  have hlines : (named.scenario.events.map Event.line).mergeSort (fun a b => a ≤ b) =
      (other.scenario.events.map Event.line).mergeSort fun a b => a ≤ b := by
    refine List.Perm.eq_of_pairwise (fun a b _ _ hab hba => ?_) (sorted _) (sorted _) ?_
    · exact String.le_antisymm (of_decide_eq_true hab) (of_decide_eq_true hba)
    · exact (List.mergeSort_perm _ _).trans
        ((hevents.map Event.line).trans (List.mergeSort_perm _ _).symm)
  simp only [run, hnamed, hother, if_true, hlines, hpassed]

end NamedScenario

open Packrat.Expr Scenario

/-! ## The sample grammars -/

/-- One word, and a text that is another. -/
def wordScenario : Scenario Unit := do
  expectComplete true word "foo" "barf"
  expectComplete false word "foo" "berf"

/-- Both phrases, atoms outside of ASCII, and where wrong phrases fail. -/
def phrasesScenario : Scenario Unit := do
  expectPrint phrases "foo" "barf darf"
    "(foo, alt=0, \"barf darf\", (Terminal, \"barf\"), (Terminal, \" \"), (Terminal, \"darf\"))"
  expectPrint phrases "foo" "carf erf"
    ("(foo, alt=1, \"carf erf\", (carf, \"carf erf\", (Terminal, \"carf\"), (Terminal, \" \"), "
      ++ "(erf, \"erf\", (Terminal, \"erf\"))))")
  expectComplete true phrases "foo" "carfxerf"
  expectComplete true phrases "foo" "carfµerf"
  expectFailure phrases "foo" "carf" (.single 4 "any character")
  expectFailure phrases "foo" "carfµ" (.single 5 "\"erf\"")
  expectFailure phrases "foo" "carfx" (.single 5 "\"erf\"")
  expectFailure phrases "foo" "berf" (.single 1 "\"barf\"")

/-- Each operator, with and without what it repeats or leaves out. -/
def operatorsScenario : Scenario Unit := do
  expectPrint operators "foo" "abc"
    "(foo, alt=0, \"abc\", (Terminal, \"a\"), (Terminal, \"b\"), (Terminal, \"c\"))"
  expectPrint operators "foo" "ac" "(foo, alt=0, \"ac\", (Terminal, \"a\"), (Terminal, \"c\"))"
  expectPrint operators "foo" "xyyyyz"
    ("(foo, alt=1, \"xyyyyz\", (Terminal, \"x\"), (Repetition, \"yyyy\", (Terminal, \"y\"), "
      ++ "(Terminal, \"y\"), (Terminal, \"y\"), (Terminal, \"y\")), (Terminal, \"z\"))")
  expectPrint operators "foo" "xz"
    "(foo, alt=1, \"xz\", (Terminal, \"x\"), (Repetition, \"\"), (Terminal, \"z\"))"
  expectPrint operators "foo" "def"
    ("(foo, alt=2, \"def\", (Terminal, \"d\"), (Repetition, \"e\", (Terminal, \"e\")), "
      ++ "(Terminal, \"f\"))")
  expectPrint operators "foo" "deeeef"
    ("(foo, alt=2, \"deeeef\", (Terminal, \"d\"), (Repetition, \"eeee\", (Terminal, \"e\"), "
      ++ "(Terminal, \"e\"), (Terminal, \"e\"), (Terminal, \"e\")), (Terminal, \"f\"))")
  expectPrint operators "foo" "kx" "(foo, alt=3, \"kx\", (Terminal, \"k\"), (Terminal, \"x\"))"
  expectPrint operators "foo" "qr" "(foo, alt=4, \"qr\", (Terminal, \"q\"), (Terminal, \"r\"))"
  expectFailure operators "foo" "qs" (.single 1 "\"r\"")
  expectFailure operators "foo" "kl" (.single 1 "not \"l\"")
  expectFailure operators "foo" "df" (.single 1 "\"e\"")
  check (failure operators "foo" "ad") fun found =>
    found.message = "expected one of \"b\", \"c\" at position 1"

/-- Values of terms, the tree of a number and an open parenthesis. -/
def arithmeticScenario : Scenario Unit := do
  let grammar := Arithmetic.ruleGrammar
  let checked := grammar.check "calculator"
  report checked.events
  expect checked.isClean
  expectPrint grammar "calculator" "1"
    ("(calculator, \"1\", (ws, \"\"), (expr, \"1\", (term, \"1\", (factor, alt=1, \"1\", "
      ++ "(num, \"1\", (Terminal, \"1\"))), (Repetition, \"\")), (Repetition, \"\")), (ws, \"\"))")
  expectEvaluation "1+2*3" (.value 7)
  expectEvaluation "(1+2)*3" (.value 9)
  expectEvaluation " 10 % 4 - 1 " (.value 1)
  expectEvaluation "10-2-3" (.value 5)
  expectEvaluation "((((7))))" (.value 7)
  expectEvaluation "8/0" (.fault (.operation 1))
  expectExpected grammar "calculator" "2*(3" 4 ["\")\"", "\"+\""]

/-- Keywords, identifiers that begin with one, and a list with a keyword in it. -/
def identifiersScenario : Scenario Unit := do
  let expectStatement (text : String) (alternative : Nat) (rule : String) : Scenario Unit :=
    check (tree identifiers "statement" text) fun found =>
      found.alternative = some alternative ∧
        (found.children.head?.bind Node.ruleName?) = some rule
  expectStatement "while" 0 "keyword"
  expectStatement "whiles" 1 "ident"
  expectStatement "iffy" 1 "ident"
  expectStatement "_if" 1 "ident"
  expectComplete true identifiers "list" "α_1,_x,b9"
  expectFailure identifiers "list" "a,b,if" (.single 4 "not keyword")

/-- The numbers of a nested list, and a missing value. -/
def nestedListsScenario : Scenario Unit := do
  let text := "[1, [2,-3], []]"
  check (tree nestedLists "value" text) fun found =>
    (found.findAll "number").map (·.text? (.ofString text)) = [some "1", some "2", some "-3"] ∧
      (found.findAll "list").length = 1
  expectExpected nestedLists "value" "[1,,2]" 3 ["\"[\""]

/-! ## Rules of matching -/

/-- Two literals that fail at the same atom. -/
def furthestFailureScenario : Scenario Unit :=
  check (failure (singleRule "Start" (choice [literal "ac", literal "ax"])) "Start" "ab")
    fun found =>
      found.position = 1 ∧
        found.message = "expected one of \"ac\", \"ax\" at position 1" ∧
        (Input.ofString "ab").lineColumn found.position = ⟨1, 2⟩

/-- Two alternatives that both match. -/
def leftBiasScenario : Scenario Unit :=
  expectPrint (singleRule "Start" (choice [literal "ab", sequence [literal "a", literal "b"]]))
    "Start" "ab" "(Start, alt=0, \"ab\", (Terminal, \"ab\"))"

/-- A whole number and the start of a text that goes on otherwise. -/
def digitsScenario : Scenario Unit := do
  check (tree numbers "Number" "123") fun found =>
    found.ruleName? = some "Number" ∧ found.start = 0 ∧ found.stop = 3 ∧
      found.leaves.map (fun leaf => (leaf.label, leaf.start, leaf.stop)) =
        (List.range 3).map fun i => (Label.terminal, i, i + 1)
  match ← result { grammar := numbers } "Number" "123abc" with
  | .partialMatch tree consumed _ => expect (consumed = 3 ∧ tree.stop = 3)
  | _ => unwrap none

/-- A rule that is missing, on an input that never reaches it and on one that does. -/
def undefinedRuleScenario : Scenario Unit := do
  let grammar := singleRule "Start" (choice [literal "a", ruleRef "Missing"])
  expectComplete true grammar "Start" "a"
  expectError { grammar } "Start" "b" (.undefinedRule "Missing")

/-- An optional expression that does not match. -/
def optionalScenario : Scenario Unit := do
  match ← result { grammar := singleRule "S" (optional (literal "x")) } "S" "y" with
  | .partialMatch tree consumed furthest? =>
    expect (consumed = 0 ∧ tree.isEmpty = true ∧ tree.children.isEmpty = true ∧
      furthest? = some (.single 0 "\"x\""))
  | _ => unwrap none

/-- A rule under lookahead, and then again in the same session and in a new one. -/
def lookaheadScenario : Scenario Unit := do
  let grammar := singleRule "X" (oneOrMore (literal "a"))
  let context : Context := { grammar, input := .ofString "aaa" }
  let (peeked, session) := context.matchExpr (followedBy (ruleRef "X")) .start {}
  let (direct, session) := context.matchExpr (ruleRef "X") .start session
  let (fresh, other) := matchExpr grammar (ruleRef "X") (.start : Cursor context.input) {}
  report (session.events ++ other.events)
  expect (peeked.toOption = some (.nothing 0) ∧ direct.toOption = fresh.toOption ∧
    direct.toOption.bind Outcome.stop? = some 3)

/-! ## Options -/

/-- The same results with and without a cache, and a cache that is of use. -/
def memoizationScenario : Scenario Unit := do
  let cached : Parser := { grammar := Arithmetic.ruleGrammar }
  let plain : Parser := { grammar := Arithmetic.ruleGrammar, options := { memoize := false } }
  for text in ["1+2*3", " ( 4 % 3 ) * (2 - 1)", "2*(3", "1+", "((1)", ""] do
    let withCache ← result cached "calculator" text
    let withoutCache ← result plain "calculator" text
    expect (withCache = withoutCache)
  let parse ← parseWith cached "calculator" (.ofString "(1)")
  expect (0 < parse.cache.hits)

/-- Left recursion under a limit of the caller's. -/
def leftRecursionScenario : Scenario Unit :=
  expectError { grammar := leftRecursive, options := { maxDepth := 64 } } "expr" "1+1"
    (.recursionLimit 64 0)

/-- A number in so many parentheses. -/
def nestedNumber (depth : Nat) : String :=
  String.ofList (List.replicate depth '(' ++ ['7'] ++ List.replicate depth ')')

/-- Left recursion and parentheses under the default limit. -/
def defaultDepthScenario : Scenario Unit := do
  expectError { grammar := leftRecursive } "expr" "1+1" (.recursionLimit defaultMaxDepth 0)
  expectEvaluation (nestedNumber 20) (.value 7)
  for depth in [100, 1000] do
    check (error { grammar := Arithmetic.ruleGrammar } "calculator" (nestedNumber depth))
      fun found => found.isResourceExhaustion = true

/-- Several inputs, one after the other and then at the same time. -/
def parallelScenario : Scenario Unit := do
  let run := result { grammar := Arithmetic.ruleGrammar } "calculator"
  let texts := ["1+2", "3*(4-1)", "7 % 4", "9/", "((2))"]
  let expected ← texts.mapM run
  let results ← texts.mapM run
  expect (results = expected)

/-! ## The list -/

/-- The scenarios. -/
def scenarios : List NamedScenario := [
  ⟨"word", wordScenario, false⟩,
  ⟨"phrases", phrasesScenario, false⟩,
  ⟨"operators", operatorsScenario, false⟩,
  ⟨"arithmetic", arithmeticScenario, false⟩,
  ⟨"identifiers", identifiersScenario, false⟩,
  ⟨"nested lists", nestedListsScenario, false⟩,
  ⟨"furthest failure", furthestFailureScenario, false⟩,
  ⟨"left bias", leftBiasScenario, false⟩,
  ⟨"digits", digitsScenario, false⟩,
  ⟨"undefined rule", undefinedRuleScenario, false⟩,
  ⟨"optional", optionalScenario, false⟩,
  ⟨"lookahead", lookaheadScenario, false⟩,
  ⟨"memoization", memoizationScenario, false⟩,
  ⟨"left recursion", leftRecursionScenario, false⟩,
  ⟨"default depth", defaultDepthScenario, false⟩,
  ⟨"parallel", parallelScenario, true⟩]

end Packrat.Sample
