import Packrat.Proofs.Plain

/-!
# Sound caches

A cache is sound for a grammar and an input (`Cache.Sound`) if each of its entries keeps the answer
of plain evaluation, and if the cache also has all rules that were entered for that answer. Every
evaluation keeps a cache sound, aborted ones too, and returns from a sound cache what plain
evaluation returns (`Context.evaluate_faithful`). The induction is on the depth; a step is one for
scripts (`Script.run_faithful`) and one for calls of rules (`Context.matchRule_faithful`).
-/

set_option autoImplicit false

namespace Packrat

/-! ## Caches -/

/-- There is an entry of the rule at the position. -/
def Cache.Has (cache : Cache) (key : CacheKey) : Prop :=
  ∃ entry, cache.get? key.rule key.position = some entry

/-- The entry keeps the answer of a rule. -/
structure CacheEntry.Keeps (entry : CacheEntry) (answer : Answer Outcome) : Prop where
  outcome : answer.value = .ok entry.outcome
  furthest : entry.furthest? = Failure.join answer.raised

/-- Every entry keeps the answer of its rule, and the rules entered for it have entries too. -/
def Cache.Sound (grammar : Grammar) (input : Input) (cache : Cache) : Prop :=
  ∀ rule pos entry, cache.get? rule pos = some entry →
    ∃ answer, grammar.Yields input (.ruleRef rule) pos answer ∧ entry.Keeps answer ∧
      ∀ key ∈ answer.entered, cache.Has key

namespace Cache

variable {grammar : Grammar} {input : Input} {cache : Cache}

theorem has_insert {rule : String} {pos : Nat} {entry : CacheEntry} {key : CacheKey} :
    (cache.insert rule pos entry).Has key ↔ key = ⟨pos, rule⟩ ∨ cache.Has key := by
  unfold Has
  rw [get?_insert]
  by_cases h : rule = key.rule ∧ pos = key.position
  · obtain ⟨rfl, rfl⟩ := h
    simp
  · rw [if_neg h]
    have hne : key ≠ ⟨pos, rule⟩ := by
      rintro rfl
      exact h ⟨rfl, rfl⟩
    simp only [hne, false_or]

theorem not_has_empty (key : CacheKey) : ¬ ({} : Cache).Has key := by
  rintro ⟨entry, hentry⟩
  rw [get?_empty] at hentry
  cases hentry

theorem sound_empty : ({} : Cache).Sound grammar input := by
  intro rule pos entry h
  rw [get?_empty] at h
  cases h

theorem Sound.congr (h : cache.Sound grammar input) {other : Cache}
    (he : other.entries = cache.entries) : other.Sound grammar input := by
  unfold Sound Has get? at *
  rw [he]
  exact h

theorem Sound.insert (h : cache.Sound grammar input) {rule : String} {pos : Nat}
    {entry : CacheEntry} {answer : Answer Outcome}
    (hy : grammar.Yields input (.ruleRef rule) pos answer) (hk : entry.Keeps answer)
    (hkeys : ∀ key ∈ answer.entered, (cache.insert rule pos entry).Has key) :
    (cache.insert rule pos entry).Sound grammar input := by
  intro rule' pos' entry' hg
  rw [get?_insert] at hg
  by_cases hsame : rule = rule' ∧ pos = pos'
  · obtain ⟨rfl, rfl⟩ := hsame
    rw [if_pos ⟨rfl, rfl⟩] at hg
    cases hg
    exact ⟨answer, hy, hk, hkeys⟩
  · rw [if_neg hsame] at hg
    obtain ⟨answer', hy', hk', hkeys'⟩ := h rule' pos' entry' hg
    exact ⟨answer', hy', hk', fun key hkey => has_insert.2 (.inr (hkeys' key hkey))⟩

end Cache

/-! ## Faithful runs -/

/-- What an answer leaves in a session: its failures are merged into the furthest, and of its rules
there are entries if outcomes are kept, and no other new ones. -/
structure Session.Reflects {α : Type} (memoize : Bool) (answer : Answer α)
    (before after : Session) : Prop where
  furthest : after.furthest? = Failure.mergeOption before.furthest? (Failure.join answer.raised)
  kept : memoize = true → ∀ value, answer.value = .ok value → ∀ key ∈ answer.entered,
    after.cache.Has key
  only : ∀ value, answer.value = .ok value → ∀ key, after.cache.Has key →
    before.cache.Has key ∨ memoize = true ∧ key ∈ answer.entered

/-- The run of something with the answers `yields`: it keeps the cache sound and its entries, and
unless it is exhausted it returns an answer and leaves a session that reflects it. -/
structure Faithful {α : Type} (grammar : Grammar) (input : Input) (memoize : Bool)
    (yields : Answer α → Prop) (before : Session) (run : Result α) : Prop where
  sound : run.2.cache.Sound grammar input
  grows : ∀ key, before.cache.Has key → run.2.cache.Has key
  answered : Exhausted run.1 ∨
    ∃ answer, yields answer ∧ run.1 = answer.result ∧ before.Reflects memoize answer run.2

namespace Session.Reflects

variable {α β : Type} {memoize : Bool} {s s₁ s₂ : Session} {first : Answer α} {rest : Answer β}

theorem followedBy {value : α} (h₁ : s.Reflects memoize first s₁)
    (hv : first.value = .ok value) (hg : ∀ key, s₁.cache.Has key → s₂.cache.Has key)
    (h₂ : s₁.Reflects memoize rest s₂) : s.Reflects memoize (first.followedBy rest) s₂ := by
  refine ⟨?_, fun hm v hr key hkey => ?_, fun v hr key hkey => ?_⟩
  · rw [h₂.furthest, h₁.furthest, Answer.followedBy, Failure.join_append,
      Failure.mergeOption_assoc]
  · rcases List.mem_append.1 hkey with hkey | hkey
    · exact hg key (h₁.kept hm value hv key hkey)
    · exact h₂.kept hm v hr key hkey
  · rcases h₂.only v hr key hkey with hkey | ⟨hm, hkey⟩
    · rcases h₁.only value hv key hkey with hkey | ⟨hm, hkey⟩
      · exact .inl hkey
      · exact .inr ⟨hm, List.mem_append_left _ hkey⟩
    · exact .inr ⟨hm, List.mem_append_right _ hkey⟩

/-- From a session without a furthest failure, the failures of the answer are all. -/
theorem own_furthest (h : s.withoutFurthest.Reflects memoize first s₁) :
    s₁.furthest? = Failure.join first.raised := by
  rw [h.furthest]
  exact Failure.mergeOption_none_left _

theorem aborted (h : s.Reflects memoize first s₁) (name : String) :
    s.Reflects memoize (⟨.error name, first.raised, first.entered⟩ : Answer β) s₁ :=
  ⟨h.furthest, fun _ _ hv => (nomatch hv), fun _ hv => (nomatch hv)⟩

theorem hidden (h : s.withoutFurthest.Reflects memoize first s₁) :
    s.Reflects memoize first.hidden { s₁ with furthest? := s.furthest? } :=
  ⟨(Failure.mergeOption_none_right _).symm, h.kept, h.only⟩

end Session.Reflects

section
variable {grammar : Grammar} {input : Input} {memoize : Bool} {α β : Type}

namespace Faithful

variable {yields : Answer α → Prop} {yields' : Answer β → Prop} {s s₁ : Session}

theorem aborted {error : ParseError}
    (h : Faithful grammar input memoize yields s (.error error, s₁))
    (hy : ∀ first name, yields first → first.value = .error name →
      yields' ⟨.error name, first.raised, first.entered⟩) :
    Faithful grammar input memoize yields' s (.error error, s₁) := by
  refine ⟨h.sound, h.grows, ?_⟩
  rcases h.answered with ⟨limit, place, he⟩ | ⟨first, hfirst, hr, hrefl⟩
  · cases he
    exact .inl ⟨limit, place, rfl⟩
  · obtain ⟨name, hv, rfl⟩ := Answer.value_of_result_error hr.symm
    exact .inr ⟨_, hy first name hfirst hv, rfl, hrefl.aborted name⟩

theorem followedBy {value : α} {run : Result β}
    (h₁ : Faithful grammar input memoize yields s (.ok value, s₁))
    {rests : Answer β → Prop} (h₂ : Faithful grammar input memoize rests s₁ run)
    (hy : ∀ first rest, yields first → first.value = .ok value → rests rest →
      yields' (first.followedBy rest)) :
    Faithful grammar input memoize yields' s run := by
  refine ⟨h₂.sound, fun key hkey => h₂.grows key (h₁.grows key hkey), ?_⟩
  rcases h₁.answered with ⟨limit, place, he⟩ | ⟨first, hfirst, hr, hrefl⟩
  · cases he
  have hv := Answer.value_of_result_ok hr.symm
  refine h₂.answered.imp_right ?_
  rintro ⟨rest, hrest, hr', hrefl'⟩
  exact ⟨_, hy first rest hfirst hv hrest, hr', hrefl.followedBy hv h₂.grows hrefl'⟩

theorem hidden {result : Except ParseError α}
    (h : Faithful grammar input memoize yields s.withoutFurthest (result, s₁)) :
    Faithful grammar input memoize (fun answer => ∃ first, yields first ∧ answer = first.hidden) s
      (result, { s₁ with furthest? := s.furthest? }) := by
  refine ⟨h.sound, h.grows, h.answered.imp_right ?_⟩
  rintro ⟨first, hfirst, hr, hrefl⟩
  exact ⟨first.hidden, ⟨first, hfirst, rfl⟩, hr, hrefl.hidden⟩

end Faithful

/-- An evaluator runs faithfully from every session with a sound cache. -/
def Evaluator.IsFaithful (eval : Evaluator) (grammar : Grammar) (input : Input) (memoize : Bool) :
    Prop :=
  ∀ expr pos session, session.cache.Sound grammar input →
    Faithful grammar input memoize (grammar.Yields input expr pos) session (eval expr pos session)

theorem Script.run_faithful {eval : Evaluator} (heval : eval.IsFaithful grammar input memoize)
    (script : Script α) {session : Session} (hs : session.cache.Sound grammar input) :
    Faithful grammar input memoize (script.Yields grammar input) session
      (script.run eval session) := by
  induction script generalizing session with
  | done value =>
    refine ⟨hs, fun _ h => h, .inr ⟨_, .done value, rfl, ?_⟩⟩
    exact ⟨(Failure.mergeOption_none_right _).symm, fun _ _ _ _ h => (nomatch h),
      fun _ _ _ h => .inl h⟩
  | note failure next ih =>
    have hs : (session.note (some failure)).cache.Sound grammar input := hs
    obtain ⟨hsound, hgrows, hanswered⟩ := ih hs
    refine ⟨hsound, hgrows, hanswered.imp_right ?_⟩
    rintro ⟨answer, hy, hr, hrefl⟩
    refine ⟨_, hy.note, hr, ?_, hrefl.kept, hrefl.only⟩
    rw [run, hrefl.furthest]
    simp only [Session.note, Failure.join, Failure.mergeOption_assoc]
  | call expr pos next ih =>
    have h := heval expr pos session hs
    rcases hrun : eval expr pos session with ⟨error | outcome, s₁⟩ <;> rw [hrun] at h
    · rw [run_call_error hrun]
      exact h.aborted fun first name hy hv => Yields.call_error hy hv
    · rw [run_call_ok hrun]
      exact h.followedBy (ih outcome h.sound) fun first rest hy hv hrest => Yields.call hy hv hrest
  | peek expr pos next ih =>
    have h := heval expr pos session.withoutFurthest hs
    rcases hrun : eval expr pos session.withoutFurthest with ⟨error | outcome, s₁⟩ <;>
      rw [hrun] at h
    · rw [run_peek_error hrun]
      refine h.hidden.aborted ?_
      rintro _ name ⟨first, hy, rfl⟩ hv
      exact Yields.peek_error hy hv
    · rw [run_peek_ok hrun]
      refine h.hidden.followedBy (ih outcome.isSuccess h.sound) ?_
      rintro _ rest ⟨first, hy, rfl⟩ hv hrest
      exact Yields.peek hy hv hrest

end

/-! ## Runs of rules -/

namespace Session.Reflects

variable {α : Type} {memoize : Bool} {answer : Answer α} {s inner : Session}

/-- The share of a rule in the furthest failure is merged into what came before. -/
theorem mergedInto_furthest (h : s.withoutFurthest.Reflects memoize answer inner)
    (earlier? : Option Failure) :
    (inner.mergedInto earlier?).furthest? =
      Failure.mergeOption earlier? (Failure.join answer.raised) := by
  rw [mergedInto, h.own_furthest]

end Session.Reflects

namespace Faithful

variable {grammar : Grammar} {input : Input} {memoize : Bool} {name : String} {rule : Rule}
  {pos : Nat} {event : Event} {session inner : Session} {error : ParseError} {outcome : Outcome}

theorem ruleAborted (hr : grammar.rule? name = some rule)
    (h : Faithful grammar input memoize ((Script.ofBody name rule.body pos).Yields grammar input)
      (session.report event).withoutFurthest (.error error, inner)) :
    Faithful grammar input memoize (grammar.Yields input (.ruleRef name) pos) session
      (.error error, inner.mergedInto session.furthest?) := by
  refine ⟨h.sound, h.grows, h.answered.imp_right ?_⟩
  rintro ⟨answer, hy, hres, hrefl⟩
  obtain ⟨undefined, hv, -⟩ := Answer.value_of_result_error hres.symm
  refine ⟨_, .of_body hr hy, hres, hrefl.mergedInto_furthest _, fun _ v hv' => ?_, fun v hv' => ?_⟩
  · exact nomatch hv.symm.trans hv'
  · exact nomatch hv.symm.trans hv'

theorem ruleNotKept (hr : grammar.rule? name = some rule) (hm : ¬ memoize = true)
    (h : Faithful grammar input memoize ((Script.ofBody name rule.body pos).Yields grammar input)
      (session.report event).withoutFurthest (.ok outcome, inner)) :
    Faithful grammar input memoize (grammar.Yields input (.ruleRef name) pos) session
      (.ok outcome, inner.mergedInto session.furthest?) := by
  obtain ⟨_, _, he⟩ | ⟨answer, hy, hres, hrefl⟩ := h.answered
  · cases he
  have hv := Answer.value_of_result_ok hres.symm
  refine ⟨h.sound, h.grows, .inr ⟨_, .of_body hr hy, hres, hrefl.mergedInto_furthest _,
    fun hm' => absurd hm' hm, fun _ _ key hkey => ?_⟩⟩
  exact (hrefl.only _ hv key hkey).imp_right fun hkey => absurd hkey.1 hm

/-- The outcome of a rule is kept, beside those of the rules entered for it. -/
theorem ruleKept (hr : grammar.rule? name = some rule) (hm : memoize = true)
    (h : Faithful grammar input memoize ((Script.ofBody name rule.body pos).Yields grammar input)
      (session.report event).withoutFurthest (.ok outcome, inner)) :
    Faithful grammar input memoize (grammar.Yields input (.ruleRef name) pos) session
      (.ok outcome,
        (inner.mergedInto session.furthest?).keep name pos ⟨outcome, inner.furthest?⟩) := by
  obtain ⟨_, _, he⟩ | ⟨answer, hy, hres, hrefl⟩ := h.answered
  · cases he
  have hv := Answer.value_of_result_ok hres.symm
  have hkeys : ∀ key ∈ (answer.entering name pos).entered,
      (inner.cache.insert name pos ⟨outcome, inner.furthest?⟩).Has key := by
    intro key hkey
    rcases List.mem_cons.1 hkey with rfl | hkey
    · exact Cache.has_insert.2 (.inl rfl)
    · exact Cache.has_insert.2 (.inr (hrefl.kept hm _ hv key hkey))
  refine ⟨h.sound.insert (.of_body hr hy) ⟨hv, hrefl.own_furthest⟩ hkeys,
    fun key hkey => Cache.has_insert.2 (.inr (h.grows key hkey)),
    .inr ⟨_, .of_body hr hy, hres, hrefl.mergedInto_furthest _, fun _ _ _ => hkeys,
      fun _ _ key hkey => ?_⟩⟩
  rcases Cache.has_insert.1 hkey with rfl | hkey
  · exact .inr ⟨hm, List.mem_cons_self⟩
  · exact (hrefl.only _ hv key hkey).imp_right fun hkey => ⟨hm, List.mem_cons_of_mem _ hkey.2⟩

end Faithful

/-! ## Evaluations -/

namespace Context

section
variable {context : Context} {eval : Evaluator}
  (heval : eval.IsFaithful context.grammar context.input context.options.memoize)
  {session : Session} (hs : session.cache.Sound context.grammar context.input)
include heval hs

theorem enterRule_faithful {name : String} {rule : Rule}
    (hr : context.grammar.rule? name = some rule) (pos : Nat) :
    Faithful context.grammar context.input context.options.memoize
      (context.grammar.Yields context.input (.ruleRef name) pos) session
      (context.enterRule eval name rule.body pos session) := by
  have hs : (session.report (.ruleEntered name pos)).withoutFurthest.cache.Sound context.grammar
      context.input := hs
  have hbody := Script.run_faithful heval (Script.ofBody name rule.body pos) hs
  rcases hrun : (Script.ofBody name rule.body pos).run eval
    (session.report (.ruleEntered name pos)).withoutFurthest with ⟨error | outcome, inner⟩ <;>
    rw [hrun] at hbody
  · rw [enterRule_error hrun]
    exact hbody.ruleAborted hr
  · rw [enterRule_ok hrun]
    by_cases hm : context.options.memoize = true
    · rw [if_pos hm]
      exact hbody.ruleKept hr hm
    · rw [if_neg hm]
      exact hbody.ruleNotKept hr hm

theorem matchRule_faithful (name : String) (pos : Nat) :
    Faithful context.grammar context.input context.options.memoize
      (context.grammar.Yields context.input (.ruleRef name) pos) session
      (context.matchRule eval name pos session) := by
  cases hr : context.grammar.rule? name with
  | none =>
    rw [matchRule_undefined hr]
    refine ⟨hs, fun _ h => h, .inr ⟨_, .of_undefined hr, rfl, ?_⟩⟩
    exact ⟨(Failure.mergeOption_none_right _).symm, fun _ _ h => (nomatch h),
      fun _ h => (nomatch h)⟩
  | some rule =>
    by_cases hm : context.options.memoize = true
    · cases hc : session.cache.get? name pos with
      | none =>
        rw [matchRule_miss hr hm hc]
        have hs : session.missed.cache.Sound context.grammar context.input := hs.congr rfl
        obtain ⟨hsound, hgrows, hanswered⟩ := enterRule_faithful heval hs hr pos
        refine ⟨hsound, hgrows, hanswered.imp_right ?_⟩
        rintro ⟨answer, hy, hres, hrefl⟩
        exact ⟨answer, hy, hres, hrefl.furthest, hrefl.kept, hrefl.only⟩
      | some entry =>
        rw [matchRule_hit hr hm hc]
        obtain ⟨answer, hy, hk, hkeys⟩ := hs name pos entry hc
        refine ⟨hs.congr rfl, fun _ h => h, .inr ⟨answer, hy, ?_, ?_⟩⟩
        · exact (Answer.result_ok hk.outcome).symm
        · refine ⟨?_, fun _ _ _ => hkeys, fun _ _ _ h => .inl h⟩
          show Failure.mergeOption session.furthest? entry.furthest? = _
          rw [hk.furthest]
    · rw [matchRule_unmemoized hr (Bool.eq_false_iff.2 hm)]
      exact enterRule_faithful heval hs hr pos

end

/-- **Every evaluation from a sound cache is faithful** to plain evaluation. -/
theorem evaluate_faithful (context : Context) (depth : Nat) :
    (context.evaluate depth).IsFaithful context.grammar context.input context.options.memoize := by
  induction depth with
  | zero =>
    intro expr pos session hs
    exact ⟨hs, fun _ h => h, .inl ⟨_, _, rfl⟩⟩
  | succ depth ih =>
    intro expr pos session hs
    rcases expr.ruleRef_or_not with ⟨name, rfl⟩ | he
    · exact matchRule_faithful ih hs name pos
    · rw [evaluate, step_eq_run context _ he]
      obtain ⟨hsound, hgrows, hanswered⟩ :=
        Script.run_faithful ih (Script.ofExpr context.input expr pos) hs
      refine ⟨hsound, hgrows, hanswered.imp_right ?_⟩
      rintro ⟨answer, hy, hrest⟩
      exact ⟨answer, .of_script he hy, hrest⟩

end Context

end Packrat
