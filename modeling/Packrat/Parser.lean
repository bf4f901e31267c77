import Packrat.Session.Evaluate

/-!
# Parsers

Parses of whole inputs from a start rule.
-/

set_option autoImplicit false

namespace Packrat

/-- A grammar and the options to parse with. -/
structure Parser where
  grammar : Grammar
  options : Options := {}

/-- What a parse leaves: its result or the error that ended it, the cache, and the events in
order. -/
structure Parse where
  result : Except ParseError ParseResult
  cache : Cache
  events : List Event

namespace Parser

/-- The result of a parse from the outcome of the start rule and the furthest failure. -/
def resultOf (input : Input) (start : String) (outcome : Outcome) (furthest? : Option Failure) :
    ParseResult :=
  match outcome with
  | .success stop node? =>
    let tree := node?.getD { label := .rule start, start := 0, stop }
    if stop = input.length then .complete tree else .partialMatch tree stop furthest?
  | .failure failure => .failed ((furthest?.map failure.merge).getD failure)

/-- Parses an input from a start rule, over a cache that is cleared first. Too long an input is
refused before that. -/
def parseWithCache (parser : Parser) (start : String) (input : Input) (cache : Cache) : Parse :=
  match parser.options.maxInputLength?.filter (· < input.length) with
  | some limit => ⟨.error (.inputTooLarge input.length limit), cache, []⟩
  | none =>
    let context : Context := { grammar := parser.grammar, input, options := parser.options }
    let session := Session.report {} (.parseStarted input.length start)
    match context.matchAt (.ruleRef start) 0 session with
    | (.error error, session) => ⟨.error error, session.cache, session.events⟩
    | (.ok outcome, session) =>
      let result := resultOf input start outcome session.furthest?
      let cache := session.cache
      let finished := Event.parseFinished start result cache.size cache.hits cache.misses
      ⟨.ok result, cache, (session.report finished).events⟩

/-- Parses an input from a start rule. -/
def parse (parser : Parser) (start : String) (input : Input) : Parse :=
  parser.parseWithCache start input {}

/-- Parses a text from a start rule. -/
def parseText (parser : Parser) (start text : String) : Parse :=
  parser.parse start (.ofString text)

end Parser

/-- Parses a text from a start rule with the default options. -/
def parse (grammar : Grammar) (start text : String) : Parse :=
  ({ grammar } : Parser).parseText start text

end Packrat
