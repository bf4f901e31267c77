import Packrat.Cache
import Packrat.Event
import Packrat.Grammar
import Packrat.Options

/-!
# Sessions

A `Context` is what stays the same while expressions are evaluated: the grammar, the input and the
options. A `Session` is what changes: the cache, the furthest failure met so far and the log. A
text that does not match is an outcome; an error alone stops an evaluation, and it leaves the
session fit for more.
-/

set_option autoImplicit false

namespace Packrat

/-- What stays the same during a session. -/
structure Context where
  grammar : Grammar
  input : Input
  options : Options := {}

/-- What changes during a session. -/
structure Session where
  cache : Cache := {}
  /-- The furthest failure met outside of lookahead. -/
  furthest? : Option Failure := none
  /-- The events so far, the newest one first. -/
  log : List Event := []

/-- A computation's value or the error that ended it, and the session afterwards. -/
abbrev Result (α : Type) := Except ParseError α × Session

/-- Matches an expression at a position. -/
abbrev Evaluator := Expr → Nat → Session → Result Outcome

namespace Session

/-- The session with one more event in its log. -/
def report (session : Session) (event : Event) : Session :=
  { session with log := event :: session.log }

/-- The events so far, in order. -/
def events (session : Session) : List Event := session.log.reverse

/-- The session after a failure may have been met. -/
def note (session : Session) (failure? : Option Failure) : Session :=
  { session with furthest? := Failure.mergeOption session.furthest? failure? }

/-- The session without a furthest failure. -/
def withoutFurthest (session : Session) : Session := { session with furthest? := none }

/-- Looks up a rule in the cache. -/
def lookup (session : Session) (rule : String) (pos : Nat) : Option CacheEntry × Session :=
  let (found, cache) := session.cache.lookup rule pos
  (found, { session with cache })

/-- Keeps an outcome in the cache. -/
def keep (session : Session) (rule : String) (pos : Nat) (entry : CacheEntry) : Session :=
  { session with cache := session.cache.insert rule pos entry }

/-- Fails for one expectation, and takes note of the failure. -/
def fail (session : Session) (pos : Nat) (expected : String) : Result Outcome :=
  let failure := Failure.single pos expected
  (.ok (.failure failure), session.note (some failure))

/-- Succeeds with what is matched as a whole. -/
def accept (session : Session) (start stop : Nat) : Result Outcome :=
  (.ok (.terminal start stop), session)

/-- Succeeds with nothing. -/
def pass (session : Session) (pos : Nat) : Result Outcome := (.ok (.nothing pos), session)

end Session

end Packrat
