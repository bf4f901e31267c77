import Mathlib.Data.List.Nodup
import Packrat.Proofs.History
import Packrat.Proofs.Ledger

/-!
# No rule is evaluated twice at one position

`evaluated_once`: the cache and the log of a memoized parse with a result show one evaluation for
every rule at a position that has been looked up, and the look-ups that found its outcome come
after that. Over a whole history of uses, a cache has no more entries than look-ups have failed; it
has as many if no use since the last time it was cleared has ended with an error.
-/

set_option autoImplicit false

namespace Packrat

/-- The cache and the log that a parse leaves show that every rule has been evaluated no more than
once at every position, of which there are so many. -/
structure Parse.EvaluatedOnce (sites : Nat) (parse : Parse) : Prop where
  /-- Every look-up that failed has led to an entry. -/
  misses : parse.cache.misses = parse.cache.size
  size_le : parse.cache.size ≤ sites
  /-- The log reports no evaluation twice. -/
  nodup : (Event.entries parse.events).Nodup
  /-- The log reports the evaluations that have led to entries. -/
  mem_entries : ∀ key, key ∈ Event.entries parse.events ↔ parse.cache.Has key
  /-- The log reports the look-ups that did not fail. -/
  hits : (Event.hits parse.events).length = parse.cache.hits
  /-- An outcome is taken from the cache after the evaluation. -/
  taken_after : ∀ earlier later rule pos, parse.events = earlier ++ .cacheHit rule pos :: later →
    .ruleEntered rule pos ∈ earlier

namespace Event

theorem entries_reverse (events : List Event) : entries events.reverse = (entries events).reverse :=
  List.filterMap_reverse

theorem hits_reverse (events : List Event) : hits events.reverse = (hits events).reverse :=
  List.filterMap_reverse

end Event

/-- A ledger from the very beginning shows that. -/
theorem Session.Ledger.evaluatedOnce {session : Session} {events : List Event}
    (h : ({} : Session).Ledger session events) {sites : List CacheKey}
    (hsites : ∀ key, session.cache.Has key → key ∈ sites) {parse : Parse}
    (hcache : parse.cache = session.cache) (hevents : parse.events = session.events) :
    parse.EvaluatedOnce sites.length := by
  have hsize : session.cache.size = (Event.entries events).length :=
    h.size.trans (Nat.zero_add _)
  have hmisses : session.cache.misses = (Event.entries events).length :=
    h.misses.trans (Nat.zero_add _)
  have hlog : session.log = events := h.log.trans (List.append_nil _)
  rw [Session.events, hlog] at hevents
  refine ⟨?_, ?_, ?_, fun key => ?_, ?_, fun earlier later rule pos heq => ?_⟩
  · rw [hcache, hmisses, hsize]
  · have hsub : Event.entries events ⊆ sites :=
      fun key hkey => hsites key ((h.has_iff key).2 (.inr hkey))
    rw [hcache, hsize]
    exact (h.nodup.subperm hsub).length_le
  · rw [hevents, Event.entries_reverse]
    exact List.nodup_reverse.2 h.nodup
  · rw [hevents, Event.entries_reverse, hcache, List.mem_reverse, h.has_iff]
    exact ⟨.inr, fun hkey => hkey.resolve_left (Cache.not_has_empty key)⟩
  · rw [hevents, Event.hits_reverse, hcache, List.length_reverse, h.hits]
    exact (Nat.zero_add _).symm
  · -- the ledger is read from its newest event on
    rw [hevents, List.reverse_eq_iff, List.reverse_append, List.reverse_cons,
      List.append_assoc] at heq
    have hmem := (h.sourced _ _ rule pos heq).resolve_left (Cache.not_has_empty _)
    exact List.mem_reverse.1 hmem

namespace Parser

variable {grammar : Grammar} {start : String} {input : Input} {options : Options} {cache : Cache}

theorem parseWithCache_ok {result : ParseResult}
    (h : (parseWithCache ⟨grammar, options⟩ start input cache).result = .ok result) :
    ∃ outcome session, startRun grammar start input options = (.ok outcome, session) ∧
      (parseWithCache ⟨grammar, options⟩ start input cache).cache = session.cache ∧
      (parseWithCache ⟨grammar, options⟩ start input cache).events =
        (session.report (.parseFinished start result session.cache.size session.cache.hits
          session.cache.misses)).events := by
  cases hlimit : options.maxInputLength?.filter (· < input.length) with
  | some limit =>
    rw [parseWithCache_tooLarge hlimit] at h
    cases h
  | none =>
    rw [parseWithCache_result hlimit] at h
    rcases hrun : startRun grammar start input options with ⟨error | outcome, session⟩ <;>
      rw [hrun] at h <;> cases h
    have hcache : (parseWithCache ⟨grammar, options⟩ start input cache).cache = _ :=
      parseWithCache_cache hlimit cache
    rw [hrun] at hcache
    unfold startRun opening at hrun
    refine ⟨outcome, session, rfl, hcache, ?_⟩
    simp only [parseWithCache, hlimit, hrun]

/-- **A memoized parse with a result has evaluated no rule twice** at one position. -/
theorem parseWithCache_evaluatedOnce (hm : options.memoize = true) {result : ParseResult}
    (h : (parseWithCache ⟨grammar, options⟩ start input cache).result = .ok result) :
    (parseWithCache ⟨grammar, options⟩ start input cache).EvaluatedOnce
      (grammar.size * (input.length + 1)) := by
  obtain ⟨outcome, session, hrun, hcache, hevents⟩ := parseWithCache_ok h
  have hs := sound_opening grammar start input
  have hfaithful := Context.evaluate_faithful ⟨grammar, input, options⟩ options.maxDepth
    (.ruleRef start) 0 (opening start input) hs
  obtain ⟨events, hledger⟩ := Context.evaluate_ledger ⟨grammar, input, options⟩ hm
    options.maxDepth _ _ _ _ _ hs hrun
  unfold startRun Context.matchAt at hrun
  rw [hrun] at hfaithful
  obtain ⟨answer, ⟨depth, hplain⟩, hres, hrefl⟩ :=
    hfaithful.answered.resolve_left not_exhausted_ok
  have hsites (key : CacheKey) (hkey : session.cache.Has key) : key ∈ grammar.sites input := by
    rcases hrefl.only _ (Answer.value_of_result_ok hres.symm) key hkey with hkey | ⟨-, hkey⟩
    · exact absurd hkey (Cache.not_has_empty key)
    · exact Grammar.mem_sites_of_mem_entered hplain (Nat.zero_le _) hkey
  have hopening : ({} : Session).Ledger (opening start input) _ := .report rfl rfl
  rw [← Grammar.length_sites]
  exact ((hopening.trans hledger).trans (.report rfl rfl)).evaluatedOnce hsites hcache hevents

end Parser

/-! ## Histories -/

/-- An evaluation that ends with an outcome adds as many entries as look-ups have failed. -/
theorem Context.evaluate_size_eq (context : Context) {depth : Nat} {expr : Expr} {pos : Nat}
    {session : Session} (hs : session.cache.Sound context.grammar context.input)
    (hsize : session.cache.size = session.cache.misses)
    (hok : (context.evaluate depth expr pos session).1.isOk = true) :
    (context.evaluate depth expr pos session).2.cache.size =
      (context.evaluate depth expr pos session).2.cache.misses := by
  rcases hrun : context.evaluate depth expr pos session with ⟨error | outcome, after⟩ <;>
    rw [hrun] at hok
  · cases hok
  cases hm : context.options.memoize with
  | true =>
    obtain ⟨events, h⟩ := evaluate_ledger context hm depth _ _ _ _ _ hs hrun
    rw [h.size, h.misses, hsize]
  | false =>
    obtain ⟨hanswer, hnone⟩ := evaluate_returns hm depth expr pos session
    cases hplain : context.grammar.plain? context.input depth expr pos with
    | none =>
      have hx := hnone hplain
      rw [hrun] at hx
      exact absurd hx not_exhausted_ok
    | some answer =>
      have hafter := (Prod.mk.inj (hrun.symm.trans (hanswer answer hplain))).2
      rw [hafter]
      exact hsize

namespace CacheUse

variable {grammar : Grammar} {input : Input} {cache : Cache}

/-- Whether all calls of a session return outcomes. -/
def callsSucceed (grammar : Grammar) (options : Options) :
    List (Expr × Cursor input) → Session → Bool
  | [], _ => true
  | call :: calls, before =>
    let run := Context.matchExpr ⟨grammar, input, options⟩ call.1 call.2 before
    run.1.isOk && callsSucceed grammar options calls run.2

/-- Whether all calls of a use return outcomes or results. -/
def succeeds (grammar : Grammar) : CacheUse input → Cache → Bool
  | session options calls, cache => callsSucceed grammar options calls { cache }
  | matchExpr expr cursor, cache => (Packrat.matchExpr grammar expr cursor cache).1.isOk
  | parse options start, cache =>
    (Parser.parseWithCache ⟨grammar, options⟩ start input cache).result.isOk
  | clear, _ => true

/-- Whether all uses of a history succeed, one after the other. -/
def allSucceed (grammar : Grammar) : List (CacheUse input) → Cache → Bool
  | [], _ => true
  | use :: history, cache =>
    use.succeeds grammar cache && allSucceed grammar history (use.apply grammar cache)

/-- Whether the use clears the cache. A parse does so at first. -/
def clears : CacheUse input → Bool
  | session _ _ => false
  | matchExpr _ _ => false
  | parse _ _ => true
  | clear => true

/-! ### Any use -/

theorem session_size_le (options : Options) (calls : List (Expr × Cursor input))
    {session : Session} (h : session.cache.size ≤ session.cache.misses) :
    let after := calls.foldl (fun session call =>
      (Context.matchExpr ⟨grammar, input, options⟩ call.1 call.2 session).2) session
    after.cache.size ≤ after.cache.misses := by
  induction calls generalizing session with
  | nil => exact h
  | cons call calls ih =>
    have hpaid := Context.evaluate_paysUp ⟨grammar, input, options⟩ options.maxDepth call.1
      call.2.position session
    exact ih (hpaid.size_le h)

theorem parse_size_le (options : Options) (start : String) (h : cache.size ≤ cache.misses) :
    let after := (Parser.parseWithCache ⟨grammar, options⟩ start input cache).cache
    after.size ≤ after.misses := by
  cases hlimit : options.maxInputLength?.filter (· < input.length) with
  | some limit => rwa [Parser.parseWithCache_tooLarge hlimit]
  | none =>
    have hpaid := Context.evaluate_paysUp ⟨grammar, input, options⟩ options.maxDepth
      (.ruleRef start) 0 (Parser.opening start input)
    rw [Parser.parseWithCache_cache hlimit]
    exact hpaid.size_le (Nat.le_refl 0)

theorem apply_size_le (use : CacheUse input) (h : cache.size ≤ cache.misses) :
    (use.apply grammar cache).size ≤ (use.apply grammar cache).misses := by
  cases use with
  | session options calls =>
    have h : ({ cache } : Session).cache.size ≤ ({ cache } : Session).cache.misses := h
    exact session_size_le options calls h
  | matchExpr expr cursor =>
    have hpaid := Context.evaluate_paysUp ⟨grammar, input, {}⟩ defaultMaxDepth expr cursor.position
      { cache }
    exact hpaid.size_le h
  | parse options start => exact parse_size_le options start h
  | clear => exact Nat.le_refl 0

/-! ### Uses that succeed -/

theorem session_size_eq (options : Options) {calls : List (Expr × Cursor input)}
    {session : Session} (hs : session.cache.Sound grammar input)
    (h : session.cache.size = session.cache.misses)
    (hok : callsSucceed grammar options calls session = true) :
    let after := calls.foldl (fun session call =>
      (Context.matchExpr ⟨grammar, input, options⟩ call.1 call.2 session).2) session
    after.cache.size = after.cache.misses := by
  induction calls generalizing session with
  | nil => exact h
  | cons call calls ih =>
    obtain ⟨hcall, hcalls⟩ := Bool.and_eq_true_iff.1 hok
    have hsound := (Context.evaluate_faithful ⟨grammar, input, options⟩ options.maxDepth call.1
      call.2.position session hs).sound
    exact ih hsound (Context.evaluate_size_eq _ hs h hcall) hcalls

theorem parse_size_eq {options : Options} {start : String}
    (hok : (Parser.parseWithCache ⟨grammar, options⟩ start input cache).result.isOk = true) :
    let after := (Parser.parseWithCache ⟨grammar, options⟩ start input cache).cache
    after.size = after.misses := by
  rcases hresult : (Parser.parseWithCache ⟨grammar, options⟩ start input cache).result
    with error | result
  · rw [hresult] at hok
    cases hok
  · obtain ⟨outcome, after, hrun, hcache, -⟩ := Parser.parseWithCache_ok hresult
    have hs := Parser.sound_opening grammar start input
    have hstart : (Parser.startRun grammar start input options).1.isOk = true := by rw [hrun]; rfl
    have heq := Context.evaluate_size_eq ⟨grammar, input, options⟩ hs rfl hstart
    unfold Parser.startRun Context.matchAt at hrun
    rw [hrun] at heq
    rw [hcache]
    exact heq

theorem apply_size_eq {use : CacheUse input} (hs : cache.Sound grammar input)
    (h : use.clears = true ∨ cache.size = cache.misses)
    (hok : use.succeeds grammar cache = true) :
    (use.apply grammar cache).size = (use.apply grammar cache).misses := by
  cases use with
  | session options calls =>
    have hs : ({ cache } : Session).cache.Sound grammar input := hs
    exact session_size_eq options hs (h.resolve_left Bool.false_ne_true) hok
  | matchExpr expr cursor =>
    have hs : ({ cache } : Session).cache.Sound grammar input := hs
    have h := h.resolve_left Bool.false_ne_true
    exact Context.evaluate_size_eq ⟨grammar, input, {}⟩ hs h hok
  | parse options start => exact parse_size_eq hok
  | clear => rfl

theorem foldl_size_eq {history : List (CacheUse input)} (hs : cache.Sound grammar input)
    (h : cache.size = cache.misses) (hok : allSucceed grammar history cache = true) :
    let after := history.foldl (fun cache use => use.apply grammar cache) cache
    after.size = after.misses := by
  induction history generalizing cache with
  | nil => exact h
  | cons use history ih =>
    obtain ⟨huse, hhistory⟩ := Bool.and_eq_true_iff.1 hok
    exact ih (use.apply_sound hs) (apply_size_eq hs (.inr h) huse) hhistory

end CacheUse

/-- **Packrat parsing.** A memoized parse with a result has evaluated no rule twice at one position.
Over any history of uses for one grammar and one input, the entries of a cache are no more than the
look-ups that failed, and as many if all uses have succeeded since it was new or was cleared. -/
theorem evaluated_once (grammar : Grammar) (input : Input) :
    (∀ (options : Options) (start : String) (cache : Cache) (result : ParseResult),
      let parse := Parser.parseWithCache ⟨grammar, options⟩ start input cache
      options.memoize = true → parse.result = .ok result →
        parse.EvaluatedOnce (grammar.size * (input.length + 1))) ∧
    (∀ history : List (CacheUse input),
      let cache := CacheUse.applyAll grammar history
      cache.size ≤ cache.misses) ∧
    ∀ earlier recent : List (CacheUse input),
      (earlier = [] ∨ ∃ use rest, recent = use :: rest ∧ use.clears = true) →
      CacheUse.allSucceed grammar recent (CacheUse.applyAll grammar earlier) = true →
        let cache := CacheUse.applyAll grammar (earlier ++ recent)
        cache.size = cache.misses := by
  refine ⟨?_, fun history => ?_, fun earlier recent hfirst hok => ?_⟩
  · intro options start cache result parse hm h
    exact Parser.parseWithCache_evaluatedOnce hm h
  · have run (history : List (CacheUse input)) (cache : Cache) (h : cache.size ≤ cache.misses) :
        let after := history.foldl (fun cache use => use.apply grammar cache) cache
        after.size ≤ after.misses := by
      induction history generalizing cache with
      | nil => exact h
      | cons use history ih => exact ih _ (use.apply_size_le h)
    exact run history {} (Nat.le_refl 0)
  · have hs := CacheUse.applyAll_sound grammar earlier
    unfold CacheUse.applyAll at hs hok ⊢
    rw [List.foldl_append]
    rcases hfirst with rfl | ⟨use, rest, rfl, hclears⟩
    · exact CacheUse.foldl_size_eq hs rfl hok
    · obtain ⟨huse, hrest⟩ := Bool.and_eq_true_iff.1 hok
      have hsize := CacheUse.apply_size_eq hs (.inl hclears) huse
      rw [List.foldl_cons]
      exact CacheUse.foldl_size_eq (use.apply_sound hs) hsize hrest

/-- The keyword is looked up again within a lookahead. A session without enough depth leaves
look-ups that failed and no entry, until the cache is cleared. -/
theorem evaluated_once_identifier :
    let aborted : CacheUse (.ofString "if1") :=
      .session { maxDepth := 3 } [(.ruleRef "list", .start)]
    let recent : List (CacheUse (.ofString "if1")) :=
      [.clear, .session {} [(.ruleRef "ident", .start), (.ruleRef "keyword", .start)],
        .matchExpr (.ruleRef "list") .start]
    let before := CacheUse.applyAll Sample.identifiers [aborted]
    let after := CacheUse.applyAll Sample.identifiers (aborted :: recent)
    (Parser.parseWithCache ⟨Sample.identifiers, {}⟩ "statement" (.ofString "if1") {}).EvaluatedOnce
      16 ∧
    before.size ≤ before.misses ∧ after.size = after.misses := by
  intro aborted recent before after
  obtain ⟨hparse, hle, heq⟩ := evaluated_once Sample.identifiers (.ofString "if1")
  have hresult : ∃ result,
      (Parser.parseWithCache ⟨Sample.identifiers, {}⟩ "statement" (.ofString "if1") {}).result =
        .ok result := ⟨_, rfl⟩
  obtain ⟨result, hresult⟩ := hresult
  exact ⟨hparse {} "statement" {} result rfl hresult, hle [aborted],
    heq [aborted] recent (.inr ⟨_, _, rfl, rfl⟩) rfl⟩

end Packrat
