import Packrat.Proofs.Construction
import Packrat.Proofs.Coverage
import Packrat.Proofs.DepthBound
import Packrat.Proofs.Sufficiency

/-!
# Depth that does not suffice

An expression starves at a depth if the engine is exhausted on it from every session whose cache
holds no other rules than it may (`Grammar.Starves`), with memoization or without. What an
expression calls first and starves lets the expression starve with one more nested evaluation; what
comes later does so if all before it leaves no other rules in the cache. A rule starves with its
body unless the cache may hold its outcome, which is where a use of the cache would save depth.
-/

set_option autoImplicit false

namespace Packrat

variable {grammar : Grammar} {input : Input} {may may' : CacheKey → Prop} {depth depth' : Nat}
  {expr : Expr} {exprs : List Expr} {pos stop : Nat} {name : String} {rule : Rule} {α β : Type}

/-- With so many nested evaluations the engine is exhausted on the expression, whatever the options
and over every cache with no other entries than it may have. -/
def Grammar.Starves (grammar : Grammar) (input : Input) (may : CacheKey → Prop) (depth : Nat)
    (expr : Expr) (pos : Nat) : Prop :=
  ∀ (options : Options) (session : Session), session.cache.Sound grammar input →
    (∀ key, session.cache.Has key → may key) →
      Exhausted (Context.evaluate ⟨grammar, input, options⟩ depth expr pos session).1

/-- The same for a script whose calls are evaluated with so many nested evaluations. -/
def Script.Starves (grammar : Grammar) (input : Input) (may : CacheKey → Prop) (depth : Nat)
    (script : Script α) : Prop :=
  ∀ (options : Options) (session : Session), session.cache.Sound grammar input →
    (∀ key, session.cache.Has key → may key) →
      Exhausted (script.run (Context.evaluate ⟨grammar, input, options⟩ depth) session).1

/-! ## Scripts -/

namespace Script.Starves

theorem call {next : Outcome → Script α} (h : grammar.Starves input may depth expr pos) :
    (Script.call expr pos next).Starves grammar input may depth :=
  fun options session hs hmay => exhausted_call (h options session hs hmay)

theorem map {script : Script α} (h : script.Starves grammar input may depth) (f : α → β) :
    (script.map f).Starves grammar input may depth := by
  intro options session hs hmay
  rw [run_map]
  exact exhausted_map_iff.2 (h options session hs hmay)

/-- What follows a call starves if the call leaves no other entries than there may be. -/
theorem after {next : Outcome → Script α} {answer : Answer Outcome} {outcome : Outcome}
    (hy : grammar.Yields input expr pos answer) (hv : answer.value = .ok outcome)
    (hentered : ∀ key ∈ answer.entered, may key)
    (h : (next outcome).Starves grammar input may depth) :
    (Script.call expr pos next).Starves grammar input may depth := by
  intro options session hs hmay
  have hfaithful :=
    Context.evaluate_faithful ⟨grammar, input, options⟩ depth expr pos session hs
  rcases hfaithful.answered with hx | ⟨answer', hy', hresult, hreflects⟩
  · exact exhausted_call hx
  cases hy.unique hy'
  rw [Answer.result_ok hv] at hresult
  rw [run_call_ok (Prod.ext hresult rfl)]
  refine h options _ hfaithful.sound fun key hkey => ?_
  rcases hreflects.only outcome hv key hkey with hkey | ⟨-, hkey⟩
  · exact hmay key hkey
  · exact hentered key hkey

section
variable {next : Outcome → Script α} (hpos : pos ≤ input.length)
  (hafford : grammar.Affords input may depth' expr pos)
include hpos hafford

theorem after_success (hd : grammar.Derives input expr pos (.success stop))
    (h : ∀ node?, (next (.success stop node?)).Starves grammar input may depth) :
    (Script.call expr pos next).Starves grammar input may depth := by
  obtain ⟨answer, hanswer, hentered⟩ := hafford
  have hy : grammar.Yields input expr pos answer := ⟨depth', hanswer⟩
  obtain ⟨node?, hv⟩ := Verdict.ofValue_eq_success.1 ((hy.derives hpos).unique hd hpos)
  exact after hy hv hentered (h node?)

theorem after_failure (hd : grammar.Derives input expr pos .failure)
    (h : ∀ failure, (next (.failure failure)).Starves grammar input may depth) :
    (Script.call expr pos next).Starves grammar input may depth := by
  obtain ⟨answer, hanswer, hentered⟩ := hafford
  have hy : grammar.Yields input expr pos answer := ⟨depth', hanswer⟩
  obtain ⟨failure, hv⟩ := Verdict.ofValue_eq_failure.1 ((hy.derives hpos).unique hd hpos)
  exact after hy hv hentered (h failure)

end

end Script.Starves

namespace Grammar

/-! ## Parts -/

variable (grammar input) in
/-- The rest of a sequence starves. -/
def StarvesThen (may : CacheKey → Prop) (depth : Nat) (exprs : List Expr) (pos : Nat) : Prop :=
  ∀ start children,
    (Script.ofSequence input start exprs pos children).Starves grammar input may depth

variable (grammar input) in
/-- The rest of a repetition starves, as long as attempts are not the limit. -/
def StarvesAgain (may : CacheKey → Prop) (depth : Nat) (expr : Expr) (pos : Nat) : Prop :=
  ∀ start attempts children, input.length - pos < attempts →
    (Script.ofRepetition input expr start attempts pos children).Starves grammar input may depth

variable (grammar input) in
/-- The rest of a choice starves. -/
def StarvesElse (may : CacheKey → Prop) (depth : Nat) (exprs : List Expr) (pos : Nat) : Prop :=
  ∀ index failure?,
    (Script.ofChoice pos exprs index failure?).Starves grammar input may depth

theorem StarvesThen.here (h : grammar.Starves input may depth expr pos) :
    grammar.StarvesThen input may depth (expr :: exprs) pos :=
  fun _ _ => .call h

theorem StarvesElse.here (h : grammar.Starves input may depth expr pos) :
    grammar.StarvesElse input may depth (expr :: exprs) pos :=
  fun _ _ => .call h

theorem StarvesAgain.here (h : grammar.Starves input may depth expr pos) :
    grammar.StarvesAgain input may depth expr pos := by
  intro start attempts children hattempts
  obtain ⟨attempts, rfl⟩ : ∃ more, attempts = more + 1 := ⟨attempts - 1, by omega⟩
  exact .call h

section
variable (hpos : pos ≤ input.length) (hafford : grammar.Affords input may depth' expr pos)
include hpos hafford

theorem StarvesThen.later (hd : grammar.Derives input expr pos (.success stop))
    (h : grammar.StarvesThen input may depth exprs stop) :
    grammar.StarvesThen input may depth (expr :: exprs) pos := by
  intro start children
  refine .after_success hpos hafford hd fun node? => ?_
  simp only [Input.clamp_of_le (hd.within hpos).2]
  exact h _ _

theorem StarvesElse.later (hd : grammar.Derives input expr pos .failure)
    (h : grammar.StarvesElse input may depth exprs pos) :
    grammar.StarvesElse input may depth (expr :: exprs) pos :=
  fun _ _ => .after_failure hpos hafford hd fun _ => h _ _

theorem StarvesAgain.later (hd : grammar.Derives input expr pos (.success stop))
    (hne : stop ≠ pos) (h : grammar.StarvesAgain input may depth expr stop) :
    grammar.StarvesAgain input may depth expr pos := by
  intro start attempts children hattempts
  obtain ⟨attempts, rfl⟩ : ∃ more, attempts = more + 1 := ⟨attempts - 1, by omega⟩
  obtain ⟨hle, hstop⟩ := hd.within hpos
  refine .after_success hpos hafford hd fun node? => ?_
  simp only [if_neg hne, Input.clamp_of_le hstop]
  exact h _ _ _ (by omega)

end

theorem StarvesAgain.strides
    (h : Relation.ReflTransGen (grammar.Strides input may depth' expr) pos stop)
    (hrest : grammar.StarvesAgain input may depth expr stop) :
    grammar.StarvesAgain input may depth expr pos := by
  induction h using Relation.ReflTransGen.head_induction_on with
  | refl => exact hrest
  | head round _ ih => exact .later round.le round.affords round.derives round.ne ih

/-! ## Expressions -/

namespace Starves

theorem zero : grammar.Starves input may 0 expr pos := fun _ _ _ _ => ⟨_, _, rfl⟩

/-- Over fewer caches, or with less depth, an expression starves all the more. -/
theorem anti (h : grammar.Starves input may' depth' expr pos) (hmay : ∀ key, may key → may' key)
    (hdepth : depth ≤ depth') : grammar.Starves input may depth expr pos := by
  intro options session hs hkeys
  apply Classical.byContradiction
  intro hx
  have hexhausted := h options session hs fun key hkey => hmay key (hkeys key hkey)
  rw [Context.evaluate_refinedBy rfl hdepth expr pos session hx] at hexhausted
  exact hx hexhausted

theorem of_script (he : ∀ name, expr ≠ .ruleRef name)
    (h : (Script.ofExpr input expr pos).Starves grammar input may depth) :
    grammar.Starves input may (depth + 1) expr pos := by
  intro options session hs hmay
  rw [Context.evaluate, Context.step_eq_run _ _ he]
  exact h options session hs hmay

theorem sequence (h : grammar.StarvesThen input may depth exprs pos) :
    grammar.Starves input may (depth + 1) (.sequence exprs) pos :=
  of_script nofun (h pos [])

theorem zeroOrMore (h : grammar.StarvesAgain input may depth expr pos) :
    grammar.Starves input may (depth + 1) (.zeroOrMore expr) pos :=
  of_script nofun (h pos _ [] (Nat.lt_succ_self _))

theorem oneOrMore (h : grammar.Starves input may depth expr pos) :
    grammar.Starves input may (depth + 1) (.oneOrMore expr) pos :=
  of_script nofun (.call h)

/-- **A rule starves with its body**, where its outcome is not kept. -/
theorem of_body (hr : grammar.rule? name = some rule) (hkey : ¬ may ⟨pos, name⟩)
    (h : (Script.ofBody name rule.body pos).Starves grammar input may depth) :
    grammar.Starves input may (depth + 1) (.ruleRef name) pos := by
  intro options session hs hmay
  let context : Context := ⟨grammar, input, options⟩
  have hmiss : session.cache.get? name pos = none := by
    cases hentry : session.cache.get? name pos with
    | none => rfl
    | some entry => exact absurd (hmay ⟨pos, name⟩ ⟨entry, hentry⟩) hkey
  obtain ⟨looked, hlooked, hrun⟩ :=
    @Context.matchRule_enters context (context.evaluate depth) name rule pos session hr
      fun _ => hmiss
  have hevaluate : context.evaluate (depth + 1) (.ruleRef name) pos session =
      context.matchRule (context.evaluate depth) name pos session := rfl
  rw [hevaluate, hrun, Context.exhausted_enterRule]
  refine h options _ (hs.congr hlooked) fun key hhas => hmay key ?_
  unfold Cache.Has Cache.get? at hhas ⊢
  rw [← hlooked]
  exact hhas

theorem ruleRef (hr : grammar.rule? name = some rule) (hbody : ∀ exprs, rule.body ≠ .choice exprs)
    (hkey : ¬ may ⟨pos, name⟩) (h : grammar.Starves input may depth rule.body pos) :
    grammar.Starves input may (depth + 1) (.ruleRef name) pos := by
  refine of_body hr hkey ?_
  have hcall : (Script.call rule.body pos Script.done).Starves grammar input may depth := .call h
  have hmap := hcall.map (Context.ruleOutcome name pos none)
  cases he : rule.body with
  | choice exprs => exact absurd he (hbody exprs)
  | _ =>
    rw [he] at hmap
    exact hmap

theorem alternatives (hr : grammar.rule? name = some rule) (hbody : rule.body = .choice exprs)
    (hkey : ¬ may ⟨pos, name⟩) (h : grammar.StarvesElse input may depth exprs pos) :
    grammar.Starves input may (depth + 1) (.ruleRef name) pos := by
  refine of_body hr hkey ?_
  rw [hbody]
  exact (h 0 none).map _

end Starves

end Grammar

/-! ## Parses -/

/-- Unless the first of two evaluations stops at its own limit, the second, with more depth, does
the same. -/
theorem Context.evaluate_agreesUnless_limit {o₁ o₂ : Options} (hm : o₁.memoize = o₂.memoize)
    {d₁ d₂ : Nat} (hd : d₁ ≤ d₂) :
    (evaluate ⟨grammar, input, o₁⟩ d₁).AgreesUnless
      (fun error => ∃ place, error = .recursionLimit o₁.maxDepth place)
      (evaluate ⟨grammar, input, o₂⟩ d₂) := by
  induction d₁ generalizing d₂ with
  | zero =>
    intro expr pos session hx
    exact absurd ⟨_, rfl, _, rfl⟩ hx
  | succ d₁ ih =>
    obtain ⟨d₂, rfl⟩ : ∃ d, d₂ = d + 1 := ⟨d₂ - 1, by omega⟩
    have hd : d₁ ≤ d₂ := by omega
    exact step_agreesUnless (ih hd) hm fun _ => .inl rfl

namespace Parser

variable {start : String} {options : Options}

theorem not_exhausted_of_affords (h : grammar.Affords input may depth (.ruleRef start) 0)
    (hdepth : depth ≤ options.maxDepth) :
    ¬ Exhausted (parse ⟨grammar, options⟩ start input).result := by
  intro hx
  obtain ⟨answer, hanswer, -⟩ := h.mono (fun _ hkey => hkey) hdepth
  cases (plain?_eq_none_of_exhausted hx).symm.trans hanswer

/-- **With depth that suffices a parse is read off the outcome** that its start rule comes to. -/
theorem parse_of_affords (h : grammar.Affords input may depth (.ruleRef start) 0)
    (hdepth : depth ≤ options.maxDepth) {outcome : Outcome}
    (hproduces : grammar.Produces input (.ruleRef start) 0 (.ok outcome))
    (hlimit : options.maxInputLength?.filter (· < input.length) = none) :
    ∃ furthest?, (parse ⟨grammar, options⟩ start input).result =
      .ok (resultOf input start outcome furthest?) := by
  obtain ⟨answer, hy, hv⟩ := hproduces
  have hx : ¬ Exhausted (startRun grammar start input options).1 := fun hx =>
    not_exhausted_of_affords h hdepth (exhausted_parse_iff.2 ⟨hlimit, hx⟩)
  obtain ⟨answer', hy', hresult, -⟩ :=
    Context.evaluate_yields (sound_opening grammar start input) hx
  cases hy.unique hy'
  have hrun : (startRun grammar start input options).1 = .ok outcome :=
    hresult.trans (Answer.result_ok hv)
  unfold parse
  rw [parseWithCache_result hlimit, hrun]
  exact ⟨_, rfl⟩

theorem complete_iff_matches (h : grammar.Affords input may depth (.ruleRef start) 0)
    (hdepth : depth ≤ options.maxDepth)
    (hlimit : options.maxInputLength?.filter (· < input.length) = none) {tree : Node} :
    (parse ⟨grammar, options⟩ start input).result = .ok (.complete tree) ↔
      grammar.Matches input (.ruleRef start) 0 input.length (some tree) := by
  constructor
  · exact matches_of_complete
  · intro hmatch
    obtain ⟨furthest?, hresult⟩ := parse_of_affords h hdepth hmatch hlimit
    rw [hresult, resultOf, if_pos rfl]
    rfl

/-- **With depth that does not suffice a parse stops at its limit.** -/
theorem parse_of_starves (h : grammar.Starves input (fun _ => False) depth (.ruleRef start) 0)
    (hdepth : options.maxDepth ≤ depth)
    (hafford : grammar.Affords input may depth' (.ruleRef start) 0)
    (hlimit : options.maxInputLength?.filter (· < input.length) = none) :
    ∃ place, (parse ⟨grammar, options⟩ start input).result =
      .error (.recursionLimit options.maxDepth place) := by
  have hs := sound_opening grammar start input
  have hkeys (key : CacheKey) (hkey : (opening start input).cache.Has key) : False :=
    Cache.not_has_empty key hkey
  obtain ⟨limit, place, hrun⟩ := h.anti (fun _ hkey => hkey) hdepth options _ hs hkeys
  have hstart : (startRun grammar start input options).1 = .error (.recursionLimit limit place) :=
    hrun
  unfold parse
  rw [parseWithCache_result hlimit, hstart]
  -- another limit would also stop the run that has enough depth
  suffices hmax : limit = options.maxDepth from hmax ▸ ⟨place, rfl⟩
  apply Classical.byContradiction
  intro hne
  let enough : Options := { options with maxDepth := max depth' options.maxDepth }
  have hsame := @Context.evaluate_agreesUnless_limit grammar input options enough rfl
    options.maxDepth enough.maxDepth (Nat.le_max_right _ _) (.ruleRef start) 0 (opening start input)
  rw [hrun] at hsame
  have hexhausted : Exhausted (startRun grammar start input enough).1 := by
    unfold startRun Context.matchAt
    rw [hsame, hrun]
    · exact ⟨limit, place, rfl⟩
    · rintro ⟨error, he, place', rfl⟩
      cases he
      exact hne rfl
  have hle : depth' ≤ enough.maxDepth := Nat.le_max_left _ _
  exact not_exhausted_of_affords hafford hle (exhausted_parse_iff.2 ⟨hlimit, hexhausted⟩)

end Parser

end Packrat
