import Packrat.Outcome

/-!
# Events

What a parse and the check of a grammar report about their work, for a log.
-/

set_option autoImplicit false

namespace Packrat

/-- Something worth a line in a log. -/
inductive Event
  /-- A parse of so many atoms begins. -/
  | parseStarted (atoms : Nat) (start : String)
  /-- A rule is evaluated at a position. -/
  | ruleEntered (rule : String) (position : Nat)
  /-- The outcome of a rule at a position is taken from the cache. -/
  | cacheHit (rule : String) (position : Nat)
  /-- A parse has ended, with the number of entries, hits and misses of the cache. -/
  | parseFinished (start : String) (result : ParseResult) (entries hits misses : Nat)
  /-- A rule cannot be reached from the start rule. -/
  | unusedRule (rule : String)
  /-- A rule, or the caller who starts with it, refers to a rule that there is not. -/
  | undefinedReference (referrer? : Option String) (rule : String)

/-- How important an event is. -/
inductive Severity
  | trace
  | debug
  | warning
  deriving DecidableEq, Repr

/-- The severity in print. -/
def Severity.text : Severity → String
  | trace => "TRACE"
  | debug => "DEBUG"
  | warning => "WARN"

namespace Event

/-- How important the event is. -/
def severity : Event → Severity
  | parseStarted _ _ => .debug
  | ruleEntered _ _ => .trace
  | cacheHit _ _ => .trace
  | parseFinished _ _ _ _ _ => .debug
  | unusedRule _ => .warning
  | undefinedReference _ _ => .warning

/-- The event in words. -/
def message : Event → String
  | parseStarted atoms start => s!"parsing {atoms} atoms from rule {start}"
  | ruleEntered rule position => s!"rule {rule} at {position}"
  | cacheHit rule position => s!"memo hit for rule {rule} at {position}"
  | parseFinished start result entries hits misses =>
    s!"parse of rule {start}: {result.summary}, {entries} memo entries, {hits} hits, "
      ++ s!"{misses} misses"
  | unusedRule rule => s!"rule {rule} is not used anywhere"
  | undefinedReference (some referrer) rule =>
    s!"rule {referrer} refers to undefined rule {rule}"
  | undefinedReference none rule => s!"start rule {rule} is not defined"

/-- The line of a log. -/
def line (event : Event) : String := event.severity.text ++ " " ++ event.message

end Event

end Packrat
