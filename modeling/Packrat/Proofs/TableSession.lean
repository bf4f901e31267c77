import Packrat.Parser
import Packrat.Proofs.RuleTable
import Packrat.Proofs.Script
import Std.Data.HashMap

/-!
# Sessions over tables of rules

The engine over a table of rules instead of a grammar. Outcomes are kept by the number of the rule,
a definition is taken by its number without a check, and the limit of nested evaluations is compared
with a count of those under way, which an evaluation raises on its way in and lowers on its way out
(`TableContext.evaluate`).

* `TableContext.evaluate_restores`: whatever the table, an evaluation that comes to an end leaves
  the count as it was, with an error as well as with an outcome.
* `TableContext.evaluate_refines`: over a table that represents a grammar, the evaluation comes to
  what the one over the grammar comes to with as much depth as the count leaves, and to a session
  with the same log, furthest failure and statistics and with the same entries. So no number without
  a definition is met.
* `TableParser.parseWithCache_defineAll`: parses over the table that any calls have defined are
  those over the grammar that the same calls define.
-/

set_option autoImplicit false

namespace Packrat

/-! ## The engine -/

/-- Outcomes of rules by the number of the rule and the position, with a count of the look-ups. -/
structure NumberedCache where
  entries : Std.HashMap (Nat × Nat) CacheEntry := ∅
  hits : Nat := 0
  misses : Nat := 0

namespace NumberedCache

def size (cache : NumberedCache) : Nat := cache.entries.size

/-- The entry of a rule at a position. -/
def get? (cache : NumberedCache) (number position : Nat) : Option CacheEntry :=
  cache.entries[(number, position)]?

/-- Looks up a rule at a position and counts the look-up. -/
def lookup (cache : NumberedCache) (number position : Nat) : Option CacheEntry × NumberedCache :=
  match cache.get? number position with
  | some entry => (some entry, { cache with hits := cache.hits + 1 })
  | none => (none, { cache with misses := cache.misses + 1 })

/-- The cache with the entry of a rule at a position set. -/
def insert (cache : NumberedCache) (number position : Nat) (entry : CacheEntry) : NumberedCache :=
  { cache with entries := cache.entries.insert (number, position) entry }

theorem get?_insert (cache : NumberedCache) (number other position pos : Nat)
    (entry : CacheEntry) :
    (cache.insert number position entry).get? other pos =
      if number = other ∧ position = pos then some entry else cache.get? other pos := by
  simp only [get?, insert, Std.HashMap.getElem?_insert, beq_iff_eq, Prod.mk.injEq]

end NumberedCache

/-- What stays the same during a session over a table. -/
structure TableContext where
  table : RuleTable
  input : Input
  options : Options := {}

/-- What changes during a session over a table. -/
structure TableSession where
  cache : NumberedCache := {}
  /-- How many evaluations are under way. -/
  depth : Nat := 0
  /-- The furthest failure met outside of lookahead. -/
  furthest? : Option Failure := none
  /-- The events so far, the newest one first. -/
  log : List Event := []

/-- A computation's value or the error that ended it, and the session afterwards; nothing, if a
number without a definition was met. -/
abbrev TableResult (α : Type) := Option (Except ParseError α × TableSession)

/-- Matches an expression at a position. -/
abbrev TableEvaluator := Expr → Nat → TableSession → TableResult Outcome

namespace TableSession

def report (session : TableSession) (event : Event) : TableSession :=
  { session with log := event :: session.log }

/-- The session after a failure may have been met. -/
def note (session : TableSession) (failure? : Option Failure) : TableSession :=
  { session with furthest? := Failure.mergeOption session.furthest? failure? }

/-- The session without a furthest failure. -/
def withoutFurthest (session : TableSession) : TableSession := { session with furthest? := none }

/-- Keeps an outcome in the cache. -/
def keep (session : TableSession) (number pos : Nat) (entry : CacheEntry) : TableSession :=
  { session with cache := session.cache.insert number pos entry }

end TableSession

/-- Plays a script with an evaluator for the expressions that it calls. An error ends it. -/
def Script.play {α : Type} (eval : TableEvaluator) : Script α → TableSession → TableResult α
  | done value, session => some (.ok value, session)
  | note failure next, session => next.play eval (session.note (some failure))
  | call expr pos next, session =>
    match eval expr pos session with
    | some (.ok outcome, session) => (next outcome).play eval session
    | some (.error error, session) => some (.error error, session)
    | none => none
  | peek expr pos next, session =>
    match eval expr pos session.withoutFurthest with
    | some (.ok outcome, after) =>
      (next outcome.isSuccess).play eval { after with furthest? := session.furthest? }
    | some (.error error, after) =>
      some (.error error, { after with furthest? := session.furthest? })
    | none => none

namespace TableContext

/-- Evaluates the rule of a number and, if outcomes are kept, keeps its outcome. -/
def enterRule (context : TableContext) (eval : TableEvaluator) (name : String) (number pos : Nat)
    (session : TableSession) : TableResult Outcome :=
  let session := session.report (.ruleEntered name pos)
  match context.table.definition? number with
  | none => none
  | some rule =>
    match (Script.ofBody rule.name rule.body pos).play eval session.withoutFurthest with
    | none => none
    | some (result, inner) =>
      let after := { inner with
        furthest? := Failure.mergeOption session.furthest? inner.furthest? }
      match result with
      | .ok outcome =>
        some (.ok outcome,
          if context.options.memoize then after.keep number pos ⟨outcome, inner.furthest?⟩
          else after)
      | .error error => some (.error error, after)

/-- Matches the rule of a name, from the cache if outcomes are kept and this one has been. -/
def matchRule (context : TableContext) (eval : TableEvaluator) (name : String) (pos : Nat)
    (session : TableSession) : TableResult Outcome :=
  match context.table.resolveNumber name with
  | .error error => some (.error error, session)
  | .ok number =>
    if context.options.memoize then
      match session.cache.lookup number pos with
      | (some entry, cache) =>
        some (.ok entry.outcome,
          ({ session with cache }.report (.cacheHit name pos)).note entry.furthest?)
      | (none, cache) => context.enterRule eval name number pos { session with cache }
    else context.enterRule eval name number pos session

/-- Matches an expression, given an evaluator for the expressions inside it and for the bodies of
rules. -/
def step (context : TableContext) (eval : TableEvaluator) (expr : Expr) (pos : Nat)
    (session : TableSession) : TableResult Outcome :=
  match expr with
  | .ruleRef name => context.matchRule eval name pos session
  | expr => (Script.ofExpr context.input expr pos).play eval session

/-- Matches an expression unless there are as many evaluations under way as the options allow. The
recursion is on `attempts`, of which there are enough if they exceed what the options still
allow. -/
def evaluate (context : TableContext) : (attempts : Nat) → TableEvaluator
  | 0 => fun _ _ _ => none
  | attempts + 1 => fun expr pos session =>
    if context.options.maxDepth ≤ session.depth then
      some (.error (.recursionLimit context.options.maxDepth pos), session)
    else
      match context.step (evaluate context attempts) expr pos
          { session with depth := session.depth + 1 } with
      | some (result, session) => some (result, { session with depth := session.depth - 1 })
      | none => none

/-- Matches an expression at a position. -/
def matchAt (context : TableContext) (expr : Expr) (pos : Nat) (session : TableSession) :
    TableResult Outcome :=
  context.evaluate (context.options.maxDepth - session.depth + 1) expr pos session

end TableContext

/-- A table of rules and the options to parse with. -/
structure TableParser where
  table : RuleTable
  options : Options := {}

/-- What a parse over a table leaves: its result or the error that ended it, the cache, and the
events in order. -/
structure TableParse where
  result : Except ParseError ParseResult
  cache : NumberedCache
  events : List Event

/-- Parses an input from a start rule, over a cache that is cleared first. Too long an input is
refused before that. -/
def TableParser.parseWithCache (parser : TableParser) (start : String) (input : Input)
    (cache : NumberedCache) : Option TableParse :=
  match parser.options.maxInputLength?.filter (· < input.length) with
  | some limit => some ⟨.error (.inputTooLarge input.length limit), cache, []⟩
  | none =>
    let context : TableContext := { table := parser.table, input, options := parser.options }
    let session := TableSession.report {} (.parseStarted input.length start)
    match context.matchAt (.ruleRef start) 0 session with
    | some (.error error, session) => some ⟨.error error, session.cache, session.log.reverse⟩
    | some (.ok outcome, session) =>
      let result := Parser.resultOf input start outcome session.furthest?
      let cache := session.cache
      let finished := Event.parseFinished start result cache.size cache.hits cache.misses
      some ⟨.ok result, cache, (session.report finished).log.reverse⟩
    | none => none

/-! ## The count of the evaluations under way -/

/-- The evaluator leaves the count as it was. -/
def TableEvaluator.Restores (eval : TableEvaluator) : Prop :=
  ∀ ⦃expr pos session result after⦄, eval expr pos session = some (result, after) →
    after.depth = session.depth

section
variable {eval : TableEvaluator} (h : eval.Restores)
include h

theorem Script.play_restores {α : Type} {script : Script α} {session after : TableSession}
    {result : Except ParseError α} (hplay : script.play eval session = some (result, after)) :
    after.depth = session.depth := by
  induction script generalizing session with
  | done value =>
    cases hplay
    rfl
  | note failure next ih =>
    have hdepth := ih (show next.play eval (session.note (some failure)) = _ from hplay)
    exact hdepth
  | call expr pos next ih =>
    simp only [play] at hplay
    split at hplay
    · next hcall => rw [ih _ hplay, h hcall]
    · next hcall =>
      cases hplay
      exact h hcall
    · cases hplay
  | peek expr pos next ih =>
    simp only [play] at hplay
    split at hplay
    · next hpeek =>
      have hdepth := h hpeek
      exact (ih _ hplay).trans hdepth
    · next hpeek =>
      cases hplay
      have hdepth := h hpeek
      exact hdepth
    · cases hplay

variable {context : TableContext} {name : String} {number pos : Nat}
  {session after : TableSession} {result : Except ParseError Outcome}

theorem TableContext.enterRule_restores
    (hrule : context.enterRule eval name number pos session = some (result, after)) :
    after.depth = session.depth := by
  simp only [enterRule] at hrule
  split at hrule
  · cases hrule
  · split at hrule
    · cases hrule
    · next hbody =>
      have hdepth := Script.play_restores h hbody
      split at hrule <;> cases hrule
      · -- keeping an outcome changes the cache alone
        split <;> exact hdepth
      · exact hdepth

theorem TableContext.matchRule_restores
    (hrule : context.matchRule eval name pos session = some (result, after)) :
    after.depth = session.depth := by
  simp only [matchRule] at hrule
  split at hrule
  · cases hrule
    rfl
  · split at hrule
    · split at hrule
      · cases hrule
        rfl
      · have hdepth := enterRule_restores h hrule
        exact hdepth
    · exact enterRule_restores h hrule

end

namespace TableContext

theorem step_restores {context : TableContext} {eval : TableEvaluator} (h : eval.Restores) :
    TableEvaluator.Restores (context.step eval) := by
  intro expr pos session result after hstep
  unfold step at hstep
  split at hstep
  · exact matchRule_restores h hstep
  · exact Script.play_restores h hstep

/-- **Every evaluation leaves the count as it was**, however it ends. -/
theorem evaluate_restores (context : TableContext) (attempts : Nat) :
    TableEvaluator.Restores (context.evaluate attempts) := by
  induction attempts with
  | zero => exact nofun
  | succ attempts ih =>
    intro expr pos session result after heval
    simp only [evaluate] at heval
    split at heval
    · cases heval
      rfl
    · split at heval
      · next hstep =>
        cases heval
        -- one more on the way in, one less on the way out
        have hdepth := step_restores ih hstep
        simp only [hdepth, Nat.add_sub_cancel]
      · cases heval

end TableContext

/-! ## Numbers for names -/

/-- The entries of the rules of a grammar are the same by number and by name. -/
structure NumberedCache.Represents (grammar : Grammar) (numbered : NumberedCache) (cache : Cache) :
    Prop where
  get? : ∀ number rule, grammar.rules[number]? = some rule → ∀ position,
    numbered.get? number position = cache.get? rule.name position
  size : numbered.size = cache.size
  hits : numbered.hits = cache.hits
  misses : numbered.misses = cache.misses

/-- The two sessions have met and kept the same. -/
structure TableSession.Represents (grammar : Grammar) (numbered : TableSession)
    (session : Session) : Prop where
  cache : numbered.cache.Represents grammar session.cache
  furthest? : numbered.furthest? = session.furthest?
  log : numbered.log = session.log

/-- The run over a table comes to the result of the one over the grammar, and its session to that
one's session. -/
def TableResult.Refines {α : Type} (grammar : Grammar) (run : TableResult α) (result : Result α) :
    Prop :=
  ∃ after, run = some (result.1, after) ∧ after.Represents grammar result.2

/-- With so many evaluations under way, the evaluator over a table comes to what the other one comes
to. -/
def TableEvaluator.RefinesAt (grammar : Grammar) (depth : Nat) (eval : TableEvaluator)
    (eval' : Evaluator) : Prop :=
  ∀ expr pos {numbered session}, numbered.Represents grammar session → numbered.depth = depth →
    TableResult.Refines grammar (eval expr pos numbered) (eval' expr pos session)

section
variable {grammar : Grammar}

namespace NumberedCache.Represents

variable {numbered : NumberedCache} {cache : Cache}

theorem empty : ({} : NumberedCache).Represents grammar {} where
  get? number rule _ position := by
    rw [Cache.get?_empty]
    exact Std.HashMap.getElem?_empty
  size := rfl
  hits := rfl
  misses := rfl

theorem insert (h : numbered.Represents grammar cache) {number : Nat} {rule : Rule}
    (hrule : grammar.rules[number]? = some rule) (position : Nat) (entry : CacheEntry) :
    (numbered.insert number position entry).Represents grammar
      (cache.insert rule.name position entry) where
  get? other rule' hrule' pos := by
    -- two rules have one number just if they have one name
    have hsame : number = other ↔ rule.name = rule'.name := by
      constructor
      · rintro rfl
        cases hrule.symm.trans hrule'
        rfl
      · intro hname
        refine @Grammar.number_unique grammar rule.name number other ?_ ?_
        · rw [hrule, Option.map_some]
        · rw [hrule', Option.map_some, hname]
    simp only [NumberedCache.get?_insert, Cache.get?_insert, hsame, h.get? other rule' hrule' pos]
  size := by
    have hkept : (number, position) ∈ numbered.entries ↔
        cache.entries.contains ⟨position, rule.name⟩ = true := by
      rw [Std.HashMap.mem_iff_isSome_getElem?, Std.TreeMap.contains_eq_isSome_getElem?]
      exact iff_of_eq (congrArg (·.isSome = true) (h.get? number rule hrule position))
    have hsize : numbered.entries.size = cache.entries.size := h.size
    simp only [NumberedCache.size, NumberedCache.insert, Cache.size, Cache.insert,
      Std.HashMap.size_insert, Std.TreeMap.size_insert, hkept, hsize]
  hits := h.hits
  misses := h.misses

theorem hit (h : numbered.Represents grammar cache) :
    NumberedCache.Represents grammar { numbered with hits := numbered.hits + 1 }
      { cache with hits := cache.hits + 1 } where
  get? := h.get?
  size := h.size
  hits := congrArg (· + 1) h.hits
  misses := h.misses

theorem missed (h : numbered.Represents grammar cache) :
    NumberedCache.Represents grammar { numbered with misses := numbered.misses + 1 }
      { cache with misses := cache.misses + 1 } where
  get? := h.get?
  size := h.size
  hits := h.hits
  misses := congrArg (· + 1) h.misses

end NumberedCache.Represents

namespace TableSession.Represents

variable {numbered : TableSession} {session : Session}

theorem report (h : numbered.Represents grammar session) (event : Event) :
    (numbered.report event).Represents grammar (session.report event) where
  cache := h.cache
  furthest? := h.furthest?
  log := congrArg (event :: ·) h.log

theorem withCache (h : numbered.Represents grammar session) {kept : NumberedCache} {cache : Cache}
    (hc : kept.Represents grammar cache) :
    TableSession.Represents grammar { numbered with cache := kept } { session with cache } where
  cache := hc
  furthest? := h.furthest?
  log := h.log

/-- The count of evaluations under way has no counterpart. -/
theorem withDepth (h : numbered.Represents grammar session) (depth : Nat) :
    TableSession.Represents grammar { numbered with depth } session where
  cache := h.cache
  furthest? := h.furthest?
  log := h.log

theorem withFurthest (h : numbered.Represents grammar session) {f? f'? : Option Failure}
    (hf : f? = f'?) :
    TableSession.Represents grammar { numbered with furthest? := f? }
      { session with furthest? := f'? } where
  cache := h.cache
  furthest? := hf
  log := h.log

theorem note (h : numbered.Represents grammar session) (failure? : Option Failure) :
    (numbered.note failure?).Represents grammar (session.note failure?) :=
  h.withFurthest (by rw [h.furthest?])

theorem withoutFurthest (h : numbered.Represents grammar session) :
    numbered.withoutFurthest.Represents grammar session.withoutFurthest := h.withFurthest rfl

end TableSession.Represents

/-! ## The refinement -/

section
variable {depth : Nat} {eval : TableEvaluator} {eval' : Evaluator} (hr : eval.Restores)
  (h : eval.RefinesAt grammar depth eval')
include hr h

/-- Induction on the script: each call is answered alike and leaves the count as it was, so what
follows it is played at the same depth. -/
theorem Script.play_refines {α : Type} (script : Script α) {numbered : TableSession}
    {session : Session} (hs : numbered.Represents grammar session) (hd : numbered.depth = depth) :
    TableResult.Refines grammar (script.play eval numbered) (script.run eval' session) := by
  induction script generalizing numbered session with
  | done value => exact ⟨numbered, rfl, hs⟩
  | note failure next ih => exact ih (hs.note (some failure)) hd
  | call expr pos next ih =>
    obtain ⟨after, hcall, hafter⟩ := h expr pos hs hd
    have hdepth : after.depth = depth := (hr hcall).trans hd
    simp only [play, run, hcall]
    generalize eval' expr pos session = answer at hafter ⊢
    obtain ⟨error | outcome, session'⟩ := answer
    · exact ⟨after, rfl, hafter⟩
    · exact ih outcome hafter hdepth
  | peek expr pos next ih =>
    obtain ⟨after, hpeek, hafter⟩ := h expr pos hs.withoutFurthest hd
    have hdepth : after.depth = depth := (hr hpeek).trans hd
    have hrestored := hafter.withFurthest hs.furthest?
    simp only [play, run, Context.lookahead, hpeek]
    generalize eval' expr pos session.withoutFurthest = answer at hrestored ⊢
    obtain ⟨error | outcome, session'⟩ := answer
    · exact ⟨_, rfl, hrestored⟩
    · exact ih outcome.isSuccess hrestored hdepth

variable {table : RuleTable} (ht : table.Represents grammar) {input : Input} {options : Options}
  {numbered : TableSession} {session : Session}

theorem TableContext.enterRule_refines {number : Nat} {rule : Rule} (pos : Nat)
    (hs : numbered.Represents grammar session) (hd : numbered.depth = depth)
    (hdefinition : table.definition? number = some rule)
    (hrule : grammar.rules[number]? = some rule) :
    TableResult.Refines grammar
      (TableContext.enterRule ⟨table, input, options⟩ eval rule.name number pos numbered)
      (Context.enterRule ⟨grammar, input, options⟩ eval' rule.name rule.body pos session) := by
  have hentered := hs.report (.ruleEntered rule.name pos)
  obtain ⟨inner, hplay, hinner⟩ :=
    Script.play_refines hr h (Script.ofBody rule.name rule.body pos) hentered.withoutFurthest hd
  have hmerged := hinner.withFurthest
    (congrArg₂ Failure.mergeOption hs.furthest? hinner.furthest?)
  simp only [enterRule, hdefinition, hplay, Context.enterRule, Context.matchBody_eq_run]
  generalize (Script.ofBody rule.name rule.body pos).run eval' _ = answer at hinner hmerged ⊢
  obtain ⟨error | outcome, session'⟩ := answer
  · exact ⟨_, rfl, hmerged⟩
  · cases options.memoize with
    | false => exact ⟨_, rfl, hmerged⟩
    | true =>
      refine ⟨_, rfl, hmerged.withCache ?_⟩
      rw [hinner.furthest?]
      exact hmerged.cache.insert hrule pos _

include ht

theorem TableContext.matchRule_refines (name : String) (pos : Nat)
    (hs : numbered.Represents grammar session) (hd : numbered.depth = depth) :
    TableResult.Refines grammar
      (TableContext.matchRule ⟨table, input, options⟩ eval name pos numbered)
      (Context.matchRule ⟨grammar, input, options⟩ eval' name pos session) := by
  obtain ⟨number, rule, hnumber, hdefinition, hrule⟩ | ⟨hnumber, hrule⟩ := ht.lookup_cases name
  · obtain rfl : rule.name = name := (Grammar.rule?_eq_some_iff.1 hrule).2
    have hplace : grammar.rules[number]? = some rule := by rw [← ht.definition?_eq, hdefinition]
    have hget := hs.cache.get? number rule hplace pos
    simp only [matchRule, RuleTable.resolveNumber, hnumber]
    cases hm : options.memoize with
    | false =>
      rw [Context.matchRule_unmemoized hrule hm]
      exact enterRule_refines hr h pos hs hd hdefinition hplace
    | true =>
      cases hcache : session.cache.get? rule.name pos with
      | some entry =>
        rw [hcache] at hget
        rw [Context.matchRule_hit hrule hm hcache]
        simp only [if_true, NumberedCache.lookup, hget]
        have hfound := hs.withCache hs.cache.hit
        exact ⟨_, rfl, (hfound.report (.cacheHit rule.name pos)).note entry.furthest?⟩
      | none =>
        rw [hcache] at hget
        rw [Context.matchRule_miss hrule hm hcache]
        simp only [if_true, NumberedCache.lookup, hget]
        have hmissed := hs.withCache hs.cache.missed
        exact enterRule_refines hr h pos hmissed hd hdefinition hplace
  · rw [Context.matchRule_undefined hrule]
    simp only [matchRule, RuleTable.resolveNumber, hnumber]
    exact ⟨_, rfl, hs⟩

variable (input options) in
theorem TableContext.step_refinesAt :
    TableEvaluator.RefinesAt grammar depth (TableContext.step ⟨table, input, options⟩ eval)
      (Context.step ⟨grammar, input, options⟩ eval') := by
  intro expr pos numbered session hs hd
  obtain ⟨name, rfl⟩ | hexpr := expr.ruleRef_or_not
  · exact matchRule_refines hr h ht name pos hs hd
  · rw [Context.step_eq_run _ _ hexpr]
    have hstep : TableContext.step ⟨table, input, options⟩ eval expr pos numbered =
        (Script.ofExpr input expr pos).play eval numbered := by
      unfold TableContext.step
      split
      · next name => exact absurd rfl (hexpr name)
      · rfl
    rw [hstep]
    exact Script.play_refines hr h _ hs hd

end

section
variable {table : RuleTable} (ht : table.Represents grammar) (input : Input) (options : Options)
include ht

/-- **An evaluation over the table is one over the grammar**, with the depth that the count leaves
of what the options allow. -/
theorem TableContext.evaluate_refines {attempts depth : Nat}
    (hattempts : options.maxDepth - depth < attempts) :
    TableEvaluator.RefinesAt grammar depth
      (TableContext.evaluate ⟨table, input, options⟩ attempts)
      (Context.evaluate ⟨grammar, input, options⟩ (options.maxDepth - depth)) := by
  induction attempts generalizing depth with
  | zero => exact absurd hattempts (Nat.not_lt_zero _)
  | succ attempts ih =>
    intro expr pos numbered session hs hd
    simp only [evaluate, hd]
    by_cases hlimit : options.maxDepth ≤ depth
    · rw [if_pos hlimit, Nat.sub_eq_zero_of_le hlimit]
      exact ⟨numbered, rfl, hs⟩
    · rw [if_neg hlimit]
      -- what the count leaves is one more than it leaves inside
      have hleft : options.maxDepth - depth = options.maxDepth - (depth + 1) + 1 := by omega
      obtain ⟨after, hstep, hafter⟩ :=
        step_refinesAt (evaluate_restores _ attempts) (@ih (depth + 1) (by omega)) ht input options
          expr pos (hs.withDepth (depth + 1)) rfl
      rw [hleft, Context.evaluate]
      simp only [hstep]
      exact ⟨_, rfl, hafter.withDepth (after.depth - 1)⟩

/-- **A match over the table is one over the grammar**, from any sessions that have kept the same,
and leaves the count as it was. -/
theorem TableContext.matchAt_refines {numbered : TableSession} {session : Session} (expr : Expr)
    (pos : Nat) (hs : numbered.Represents grammar session) (hd : numbered.depth = 0) :
    ∃ result after,
      TableContext.matchAt ⟨table, input, options⟩ expr pos numbered = some (result, after) ∧
      after.depth = 0 ∧
      (Context.matchAt ⟨grammar, input, options⟩ expr pos session).1 = result ∧
      after.Represents grammar (Context.matchAt ⟨grammar, input, options⟩ expr pos session).2 := by
  have hattempts : options.maxDepth - 0 < options.maxDepth - numbered.depth + 1 := by omega
  obtain ⟨after, hmatch, hafter⟩ := evaluate_refines ht input options hattempts expr pos hs hd
  refine ⟨_, after, hmatch, ?_, rfl, hafter⟩
  exact (evaluate_restores _ _ hmatch).trans hd

/-- **A parse over the table is one over the grammar**: the same result, the same events and a cache
with the same entries and statistics, and no number without a definition is met. -/
theorem TableParser.parseWithCache_refines (start : String) {numbered : NumberedCache}
    {cache : Cache} (hc : numbered.Represents grammar cache) :
    let named := Parser.parseWithCache ⟨grammar, options⟩ start input cache
    ∃ parse, TableParser.parseWithCache ⟨table, options⟩ start input numbered = some parse ∧
      parse.result = named.result ∧ parse.events = named.events ∧
      parse.cache.Represents grammar named.cache := by
  intro named
  simp only [named, parseWithCache, Parser.parseWithCache]
  cases options.maxInputLength?.filter (· < input.length) with
  | some limit => exact ⟨_, rfl, rfl, rfl, hc⟩
  | none =>
    have hopening : TableSession.Represents grammar
        (TableSession.report {} (.parseStarted input.length start))
        (Session.report {} (.parseStarted input.length start)) :=
      TableSession.Represents.report ⟨.empty, rfl, rfl⟩ _
    obtain ⟨result, after, hmatch, -, hresult, hafter⟩ :=
      TableContext.matchAt_refines ht input options (.ruleRef start) 0 hopening rfl
    simp only [hmatch]
    generalize Context.matchAt ⟨grammar, input, options⟩ (.ruleRef start) 0 _ = answer
      at hresult hafter ⊢
    obtain ⟨value, session⟩ := answer
    cases hresult
    cases value with
    | error error => exact ⟨_, rfl, rfl, congrArg List.reverse hafter.log, hafter.cache⟩
    | ok outcome =>
      obtain ⟨hcache, hfurthest, hlog⟩ := hafter
      refine ⟨_, rfl, ?_, ?_, hcache⟩
      · simp only [hfurthest]
      · simp only [TableSession.report, Session.report, Session.events, hfurthest, hlog,
          hcache.size, hcache.hits, hcache.misses]

end

end

/-- **Whatever calls have defined a table**, parses over it are parses over the grammar that the
same calls define. -/
theorem TableParser.parseWithCache_defineAll (calls : List Rule) (options : Options)
    (start : String) (input : Input) :
    let table := (({} : RuleTable).defineAll calls).2
    let grammar := calls.foldl Grammar.extended ∅
    let named := Parser.parse ⟨grammar, options⟩ start input
    ∃ parse, TableParser.parseWithCache ⟨table, options⟩ start input {} = some parse ∧
      parse.result = named.result ∧ parse.events = named.events ∧
      parse.cache.Represents grammar named.cache :=
  parseWithCache_refines (RuleTable.represents_empty.defineAll calls) input options start .empty

end Packrat
