import Packrat.Proofs.StartRun
import Packrat.Sample.Grammars

/-!
# Caches with a history

A cache may be used again and again for one grammar and one input: by sessions with any options, by
matches and parses, cleared or not, and also by evaluations that were given up. Each use keeps the
cache sound (`CacheUse.apply_sound`), so every history does (`CacheUse.applyAll_sound`).
`matchExpr_after_history` says what that means for the next use: it cannot tell the cache from an
empty one, but for the evaluations that it is spared.
-/

set_option autoImplicit false

namespace Packrat

/-- A use of a cache for one input. -/
inductive CacheUse (input : Input)
  /-- A session matches expressions, one after the other. -/
  | session (options : Options) (calls : List (Expr × Cursor input))
  /-- An expression is matched with the default options. -/
  | matchExpr (expr : Expr) (cursor : Cursor input)
  /-- The input is parsed from a start rule. -/
  | parse (options : Options) (start : String)
  | clear

namespace CacheUse

variable {input : Input}

/-- The cache after a use for one grammar. -/
def apply (grammar : Grammar) : CacheUse input → Cache → Cache
  | session options calls, cache =>
    (calls.foldl (fun session call =>
      (Context.matchExpr ⟨grammar, input, options⟩ call.1 call.2 session).2) { cache }).cache
  | matchExpr expr cursor, cache => (Packrat.matchExpr grammar expr cursor cache).2.cache
  | parse options start, cache => (Parser.parseWithCache ⟨grammar, options⟩ start input cache).cache
  | clear, _ => {}

/-- The cache after a history of uses, the first of which finds it empty. -/
def applyAll (grammar : Grammar) (history : List (CacheUse input)) : Cache :=
  history.foldl (fun cache use => use.apply grammar cache) {}

variable {grammar : Grammar} {cache : Cache}

theorem session_sound (options : Options) (calls : List (Expr × Cursor input))
    {session : Session} (hs : session.cache.Sound grammar input) :
    (calls.foldl (fun session call =>
      (Context.matchExpr ⟨grammar, input, options⟩ call.1 call.2 session).2)
        session).cache.Sound grammar input := by
  induction calls generalizing session with
  | nil => exact hs
  | cons call calls ih =>
    have h := Context.evaluate_faithful ⟨grammar, input, options⟩ options.maxDepth call.1
      call.2.position session hs
    exact ih h.sound

theorem parse_sound (options : Options) (start : String) (hs : cache.Sound grammar input) :
    (Parser.parseWithCache ⟨grammar, options⟩ start input cache).cache.Sound grammar input := by
  cases hlimit : options.maxInputLength?.filter (· < input.length) with
  | some limit => rwa [Parser.parseWithCache_tooLarge hlimit]
  | none =>
    have h := Context.evaluate_faithful ⟨grammar, input, options⟩ options.maxDepth (.ruleRef start)
      0 (Parser.opening start input) (Parser.sound_opening grammar start input)
    rw [Parser.parseWithCache_cache hlimit]
    exact h.sound

theorem apply_sound (use : CacheUse input) (hs : cache.Sound grammar input) :
    (use.apply grammar cache).Sound grammar input := by
  cases use with
  | session options calls =>
    have hs : ({ cache } : Session).cache.Sound grammar input := hs
    exact session_sound options calls hs
  | matchExpr expr cursor =>
    have h := Context.evaluate_faithful ⟨grammar, input, {}⟩ defaultMaxDepth expr cursor.position
      { cache } hs
    exact h.sound
  | parse options start => exact parse_sound options start hs
  | clear => exact Cache.sound_empty

/-- **A history leaves a sound cache.** -/
theorem applyAll_sound (grammar : Grammar) (history : List (CacheUse input)) :
    (applyAll grammar history).Sound grammar input := by
  have run (history : List (CacheUse input)) (cache : Cache) (hs : cache.Sound grammar input) :
      (history.foldl (fun cache use => use.apply grammar cache) cache).Sound grammar input := by
    induction history generalizing cache with
    | nil => exact hs
    | cons use history ih => exact ih _ (use.apply_sound hs)
  exact run history {} Cache.sound_empty

end CacheUse

namespace Parser

variable {grammar : Grammar} {start : String} {input : Input} {options : Options}

/-- A parse is refused as too large, whatever the cache, or it forgets what the cache held. -/
theorem parseWithCache_forgets (grammar : Grammar) (start : String) (input : Input)
    (options : Options) (cache : Cache) :
    let used := parseWithCache ⟨grammar, options⟩ start input cache
    let new := parseWithCache ⟨grammar, options⟩ start input {}
    used.result = new.result ∧
      ((∃ limit, used.result = .error (.inputTooLarge input.length limit)) ∧ used.cache = cache ∨
        (∀ length limit, used.result ≠ .error (.inputTooLarge length limit)) ∧
          used.cache = new.cache) := by
  intro used new
  cases hlimit : options.maxInputLength?.filter (· < input.length) with
  | some limit =>
    have hused : used = _ := parseWithCache_tooLarge hlimit cache
    have hnew : new = _ := parseWithCache_tooLarge hlimit {}
    rw [hused, hnew]
    exact ⟨rfl, .inl ⟨⟨limit, rfl⟩, rfl⟩⟩
  | none =>
    have hsame : used = new := by
      simp only [used, new, parseWithCache, hlimit]
    refine ⟨by rw [hsame], .inr ⟨fun length limit h => ?_, by rw [hsame]⟩⟩
    have hrun := Context.evaluate_faithful ⟨grammar, input, options⟩ options.maxDepth
      (.ruleRef start) 0 (opening start input) (sound_opening grammar start input)
    have hresult : used.result = _ := parseWithCache_result hlimit cache
    rw [hresult] at h
    unfold startRun Context.matchAt at h
    rcases hrun.answered with ⟨_, _, he⟩ | ⟨answer, _, hr, _⟩
    · rw [he] at h
      cases h
    · rw [hr] at h
      unfold Answer.result at h
      split at h <;> cases h

end Parser

/-- **A cache with a history is as good as an empty one.** After any history of uses for one grammar
and one input, an outcome or an undefined rule that a match over an empty cache ends with is what
the match over the used cache ends with, with the same furthest failure; an outcome over the used
cache is that over an empty one, given more depth; and a parse, which clears the cache, ends as it
does over an empty one, unless it is refused, which leaves the cache as it was. -/
theorem matchExpr_after_history (grammar : Grammar) (input : Input)
    (history : List (CacheUse input)) (options : Options) (expr : Expr) (cursor : Cursor input) :
    let used := Context.matchExpr ⟨grammar, input, options⟩ expr cursor
      { cache := CacheUse.applyAll grammar history }
    let fresh (depth : Nat) :=
      Context.matchExpr ⟨grammar, input, { options with maxDepth := depth }⟩ expr cursor {}
    (∀ outcome, (fresh options.maxDepth).1 = .ok outcome →
      used.1 = .ok outcome ∧ used.2.furthest? = (fresh options.maxDepth).2.furthest?) ∧
    (∀ name, (fresh options.maxDepth).1 = .error (.undefinedRule name) →
      used.1 = .error (.undefinedRule name) ∧
        used.2.furthest? = (fresh options.maxDepth).2.furthest?) ∧
    (∀ outcome, used.1 = .ok outcome →
      ∃ depth, options.maxDepth < depth ∧ ∀ d ≥ depth, (fresh d).1 = .ok outcome) ∧
    (∀ start cache,
      let used := Parser.parseWithCache ⟨grammar, options⟩ start input cache
      let new := Parser.parseWithCache ⟨grammar, options⟩ start input {}
      used.result = new.result ∧
        ((∃ limit, used.result = .error (.inputTooLarge input.length limit)) ∧
            used.cache = cache ∨
          (∀ length limit, used.result ≠ .error (.inputTooLarge length limit)) ∧
            used.cache = new.cache)) := by
  intro used fresh
  have hs := CacheUse.applyAll_sound grammar history
  have hempty : ({} : Session).cache.Sound grammar input := Cache.sound_empty
  have agree (hx : ¬ Exhausted (fresh options.maxDepth).1) :
      used.1 = (fresh options.maxDepth).1 ∧
        used.2.furthest? = (fresh options.maxDepth).2.furthest? := by
    -- the empty cache has no entry for the used one to lack
    have hc : Covers options.memoize options.memoize ({} : Session)
        { cache := CacheUse.applyAll grammar history } := by
      refine fun hm => ⟨hm, fun key hkey => ?_⟩
      obtain ⟨entry, hentry⟩ := hkey
      rw [Cache.get?_empty] at hentry
      cases hentry
    exact Context.evaluate_eq_of_not_exhausted (Nat.le_refl _) hempty hs hc rfl hx
  refine ⟨fun outcome h => ?_, fun name h => ?_, fun outcome h => ?_, fun start =>
    Parser.parseWithCache_forgets grammar start input options⟩
  · obtain ⟨hr, hf⟩ := agree (h ▸ not_exhausted_ok)
    exact ⟨hr.trans h, hf⟩
  · have hx : ¬ Exhausted (fresh options.maxDepth).1 := by
      rintro ⟨limit, place, he⟩
      cases h.symm.trans he
    obtain ⟨hr, hf⟩ := agree hx
    exact ⟨hr.trans h, hf⟩
  · have hx : ¬ Exhausted used.1 := h ▸ not_exhausted_ok
    obtain ⟨answer, hy, hr, -⟩ := Context.evaluate_yields hs hx
    obtain ⟨depth, hplain⟩ := Context.evaluate_of_yields hy
    refine ⟨max depth (options.maxDepth + 1), by omega, fun d hd => ?_⟩
    have hfresh := (hplain d (by omega) { options with maxDepth := d } {} hempty).1
    exact hfresh.trans (hr.symm.trans h)

/-- A session with too little depth and a match of one of the rules come first. -/
theorem matchExpr_after_aborted_session :
    let history : List (CacheUse (.ofString "carf!erf")) :=
      [.session { maxDepth := 3 } [(.ruleRef "foo", .start)],
       .matchExpr (.ruleRef "erf") (.ofPosition 5)]
    (Context.matchExpr ⟨Sample.phrases, .ofString "carf!erf", {}⟩ (.ruleRef "foo") .start
        { cache := CacheUse.applyAll Sample.phrases history }).1 =
      .ok (.success 8 (some ⟨.rule "foo", 0, 8,
        [⟨.rule "carf", 0, 8,
          [⟨.terminal, 0, 4, [], none⟩, ⟨.terminal, 4, 5, [], none⟩,
           ⟨.rule "erf", 5, 8, [⟨.terminal, 5, 8, [], none⟩], none⟩],
          none⟩],
        some 1⟩)) := by
  intro history
  exact ((matchExpr_after_history Sample.phrases _ history {} (.ruleRef "foo") .start).1 _ rfl).1

end Packrat
