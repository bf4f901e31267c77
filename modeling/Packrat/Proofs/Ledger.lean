import Packrat.Proofs.CacheSound
import Packrat.Proofs.Nesting

/-!
# What the log and the counts of a cache record

For every entry that a run adds to a cache there has been a look-up that found none, whatever the
run ends with (`Context.evaluate_paysUp`).

Of a memoized run that ends with a value there is a `Session.Ledger`: the evaluations in the log are
as many as the look-ups that found no entry, each of them has led to an entry, and what has been
taken from the cache was there before or had been evaluated. The ledgers of two runs one after the
other come to one of both (`Ledger.trans`), and a rule adds its own line, because it is not entered
again for its own answer (`Context.enterRule_ledger`). So every evaluation keeps a ledger
(`Context.evaluate_ledger`).
-/

set_option autoImplicit false

namespace Packrat

/-! ## Sizes -/

namespace Cache

variable {cache : Cache} {rule : String} {pos : Nat} {entry : CacheEntry}

theorem has_iff_mem {key : CacheKey} : cache.Has key ↔ key ∈ cache.entries := by
  unfold Has get?
  rw [Std.TreeMap.mem_iff_isSome_getElem?, Option.isSome_iff_exists]

theorem size_insert_of_not_has (h : ¬ cache.Has ⟨pos, rule⟩) :
    (cache.insert rule pos entry).size = cache.size + 1 := by
  rw [has_iff_mem, Std.TreeMap.mem_iff_contains] at h
  unfold size insert
  rw [Std.TreeMap.size_insert, if_neg h]

theorem size_insert_le : (cache.insert rule pos entry).size ≤ cache.size + 1 :=
  Std.TreeMap.size_insert_le

end Cache

/-! ## Every run -/

/-- The cache has grown by no more entries than there have been look-ups without one. -/
def Cache.PaidUp (before after : Cache) : Prop :=
  after.size + before.misses ≤ before.size + after.misses

namespace Cache.PaidUp

variable {a b c : Cache}

theorem refl (a : Cache) : a.PaidUp a := Nat.le_refl _

theorem trans (h₁ : a.PaidUp b) (h₂ : b.PaidUp c) : a.PaidUp c := by
  unfold PaidUp at *
  omega

theorem size_le (h : a.PaidUp b) (ha : a.size ≤ a.misses) : b.size ≤ b.misses := by
  unfold PaidUp at h
  omega

end Cache.PaidUp

/-- Every run of the evaluator pays for the entries that it makes. -/
def Evaluator.PaysUp (eval : Evaluator) : Prop :=
  ∀ expr pos (session : Session), session.cache.PaidUp (eval expr pos session).2.cache

theorem Script.run_paidUp {α : Type} {eval : Evaluator} (heval : eval.PaysUp) (script : Script α)
    (session : Session) :
    session.cache.PaidUp (script.run eval session).2.cache := by
  induction script generalizing session with
  | done value => exact .refl _
  | note failure next ih => exact ih (session.note (some failure))
  | call expr pos next ih =>
    have h := heval expr pos session
    rcases hrun : eval expr pos session with ⟨error | outcome, after⟩ <;> rw [hrun] at h
    · rw [run_call_error hrun]
      exact h
    · rw [run_call_ok hrun]
      exact h.trans (ih outcome after)
  | peek expr pos next ih =>
    have h := heval expr pos session.withoutFurthest
    rcases hrun : eval expr pos session.withoutFurthest with ⟨error | outcome, after⟩ <;>
      rw [hrun] at h
    · rw [run_peek_error hrun]
      exact h
    · rw [run_peek_ok hrun]
      exact h.trans (ih outcome.isSuccess { after with furthest? := session.furthest? })

namespace Context

/-- A rule pays for the entries of what it evaluates. Its own is paid for by the look-up. -/
theorem enterRule_paidUp (context : Context) {eval : Evaluator} (heval : eval.PaysUp)
    (name : String) (body : Expr) (pos : Nat) (session : Session) :
    let after := (context.enterRule eval name body pos session).2.cache
    after.size + session.cache.misses ≤
      session.cache.size + after.misses + if context.options.memoize then 1 else 0 := by
  have h := Script.run_paidUp heval (Script.ofBody name body pos)
    (session.report (.ruleEntered name pos)).withoutFurthest
  have h : session.cache.PaidUp _ := h
  unfold Cache.PaidUp at h
  rcases hrun : (Script.ofBody name body pos).run eval
    (session.report (.ruleEntered name pos)).withoutFurthest with ⟨error | outcome, inner⟩ <;>
    rw [hrun] at h
  · rw [enterRule_error hrun]
    exact Nat.le_add_right_of_le h
  · rw [enterRule_ok hrun]
    split
    · have h : inner.cache.size + session.cache.misses ≤
          session.cache.size + inner.cache.misses := h
      have hsize : (inner.cache.insert name pos ⟨outcome, inner.furthest?⟩).size ≤
          inner.cache.size + 1 := Cache.size_insert_le
      show (inner.cache.insert name pos ⟨outcome, inner.furthest?⟩).size + session.cache.misses ≤
        session.cache.size + inner.cache.misses + 1
      omega
    · exact h

theorem matchRule_paidUp {context : Context} {eval : Evaluator} (heval : eval.PaysUp)
    (name : String) (pos : Nat) (session : Session) :
    session.cache.PaidUp (context.matchRule eval name pos session).2.cache := by
  cases hr : context.grammar.rule? name with
  | none =>
    rw [matchRule_undefined hr]
    exact .refl _
  | some rule =>
    cases hm : context.options.memoize with
    | false =>
      have h := enterRule_paidUp context heval name rule.body pos session
      rw [matchRule_unmemoized hr hm]
      rw [hm] at h
      exact h
    | true =>
      cases hc : session.cache.get? name pos with
      | none =>
        have h := enterRule_paidUp context heval name rule.body pos session.missed
        have hmisses : session.missed.cache.misses = session.cache.misses + 1 := rfl
        have hsize : session.missed.cache.size = session.cache.size := rfl
        rw [matchRule_miss hr hm hc]
        simp only [hm, if_true] at h
        unfold Cache.PaidUp
        omega
      | some entry =>
        rw [matchRule_hit hr hm hc]
        exact .refl _

/-- **For every entry there has been a look-up without one**, whatever a run ends with. -/
theorem evaluate_paysUp (context : Context) (depth : Nat) : (context.evaluate depth).PaysUp := by
  induction depth with
  | zero => exact fun _ _ _ => .refl _
  | succ depth ih =>
    intro expr pos session
    rcases expr.ruleRef_or_not with ⟨name, rfl⟩ | he
    · exact matchRule_paidUp ih name pos session
    · rw [evaluate, step_eq_run context _ he]
      exact Script.run_paidUp ih _ session

end Context

/-! ## The events of a run -/

/-- The rule whose evaluation the event reports. -/
def Event.entered? : Event → Option CacheKey
  | .ruleEntered rule position => some ⟨position, rule⟩
  | _ => none

/-- The rule whose outcome, as the event reports, is taken from the cache. -/
def Event.taken? : Event → Option CacheKey
  | .cacheHit rule position => some ⟨position, rule⟩
  | _ => none

/-- The rules whose evaluation is reported. -/
def Event.entries (events : List Event) : List CacheKey := events.filterMap Event.entered?

/-- The rules whose outcomes are taken from the cache. -/
def Event.hits (events : List Event) : List CacheKey := events.filterMap Event.taken?

/-- Of the events, the newest first, every one that takes an outcome from the cache takes a known
one or comes after the evaluation. -/
def Event.Sourced (known : CacheKey → Prop) (events : List Event) : Prop :=
  ∀ newer older rule pos, events = newer ++ .cacheHit rule pos :: older →
    known ⟨pos, rule⟩ ∨ .ruleEntered rule pos ∈ older

namespace Event

theorem entries_append (events events' : List Event) :
    entries (events ++ events') = entries events ++ entries events' := List.filterMap_append

theorem hits_append (events events' : List Event) :
    hits (events ++ events') = hits events ++ hits events' := List.filterMap_append

theorem mem_entries {events : List Event} {key : CacheKey} :
    key ∈ entries events ↔ .ruleEntered key.rule key.position ∈ events := by
  unfold entries
  rw [List.mem_filterMap]
  constructor
  · rintro ⟨event, hmem, hkey⟩
    cases event <;> cases hkey
    exact hmem
  · exact fun hmem => ⟨_, hmem, rfl⟩

theorem Sourced.of_hits_eq_nil {known : CacheKey → Prop} {events : List Event}
    (h : hits events = []) : Sourced known events := by
  rintro newer older rule pos rfl
  rw [hits_append] at h
  exact nomatch (List.append_eq_nil_iff.1 h).2

theorem Sourced.append {known known' : CacheKey → Prop} {older newer : List Event}
    (hold : Sourced known older) (hnew : Sourced known' newer)
    (hknown : ∀ key, known' key → known key ∨ key ∈ entries older) :
    Sourced known (newer ++ older) := by
  intro before after rule pos heq
  rcases List.append_eq_append_iff.1 heq with ⟨between, -, holder⟩ | ⟨between, hnewer, hrest⟩
  · exact hold between after rule pos holder
  · cases between with
    | nil => exact hold [] after rule pos hrest.symm
    | cons event between =>
      obtain ⟨rfl, rfl⟩ := List.cons.inj hrest
      rcases hnew before between rule pos hnewer with hkey | hmem
      · exact (hknown _ hkey).imp_right fun hkey =>
          List.mem_append_right _ (mem_entries.1 hkey)
      · exact .inr (List.mem_append_left _ hmem)

end Event

/-! ## Ledgers -/

/-- The events that a memoized run has added to the log account for what it has added to the cache:
every entry has been evaluated once, after a look-up without one, and every other look-up has found
an entry that there was or that had been evaluated. -/
structure Session.Ledger (before after : Session) (events : List Event) : Prop where
  log : after.log = events ++ before.log
  nodup : (Event.entries events).Nodup
  fresh : ∀ key ∈ Event.entries events, ¬ before.cache.Has key
  has_iff : ∀ key, after.cache.Has key ↔ before.cache.Has key ∨ key ∈ Event.entries events
  size : after.cache.size = before.cache.size + (Event.entries events).length
  misses : after.cache.misses = before.cache.misses + (Event.entries events).length
  hits : after.cache.hits = before.cache.hits + (Event.hits events).length
  sourced : Event.Sourced before.cache.Has events

namespace Session.Ledger

variable {s s₁ s₂ : Session} {events events' : List Event}

theorem of_entries_eq_nil (hlog : s₁.log = events ++ s.log) (hnone : Event.entries events = [])
    (hcache : s₁.cache.entries = s.cache.entries) (hmisses : s₁.cache.misses = s.cache.misses)
    (hhits : s₁.cache.hits = s.cache.hits + (Event.hits events).length)
    (hsourced : Event.Sourced s.cache.Has events) : s.Ledger s₁ events where
  log := hlog
  nodup := by rw [hnone]; exact .nil
  fresh := by rw [hnone]; exact fun _ h => absurd h List.not_mem_nil
  has_iff := fun key => by
    rw [hnone]
    unfold Cache.Has Cache.get?
    rw [hcache]
    exact ⟨.inl, fun h => h.resolve_right List.not_mem_nil⟩
  size := by rw [hnone, Cache.size, hcache]; rfl
  misses := by rw [hnone, hmisses]; rfl
  hits := hhits
  sourced := hsourced

theorem of_eq (hc : s₁.cache = s.cache) (hl : s₁.log = s.log) : s.Ledger s₁ [] :=
  of_entries_eq_nil hl rfl (by rw [hc]) (by rw [hc]) (by rw [hc]; rfl) (.of_hits_eq_nil rfl)

theorem report {event : Event} (hentries : Event.entries [event] = [])
    (hhits : Event.hits [event] = []) : s.Ledger (s.report event) [event] :=
  of_entries_eq_nil rfl hentries rfl rfl (by rw [hhits]; rfl) (.of_hits_eq_nil hhits)

/-- **One run after another.** -/
theorem trans (h₁ : s.Ledger s₁ events) (h₂ : s₁.Ledger s₂ events') :
    s.Ledger s₂ (events' ++ events) where
  log := by rw [h₂.log, h₁.log, List.append_assoc]
  nodup := by
    rw [Event.entries_append]
    refine List.nodup_append.2 ⟨h₂.nodup, h₁.nodup, fun key hnew other hold => ?_⟩
    rintro rfl
    exact h₂.fresh key hnew ((h₁.has_iff key).2 (.inr hold))
  fresh := by
    intro key hkey hs
    rw [Event.entries_append] at hkey
    rcases List.mem_append.1 hkey with hkey | hkey
    · exact h₂.fresh key hkey ((h₁.has_iff key).2 (.inl hs))
    · exact h₁.fresh key hkey hs
  has_iff := fun key => by
    rw [h₂.has_iff, h₁.has_iff, Event.entries_append, List.mem_append, or_assoc,
      @or_comm (key ∈ Event.entries events)]
  size := by
    rw [h₂.size, h₁.size, Event.entries_append, List.length_append]
    omega
  misses := by
    rw [h₂.misses, h₁.misses, Event.entries_append, List.length_append]
    omega
  hits := by
    rw [h₂.hits, h₁.hits, Event.hits_append, List.length_append]
    omega
  sourced := h₁.sourced.append h₂.sourced fun key => (h₁.has_iff key).1

theorem congr {t t₁ : Session} (h : s.Ledger s₁ events) (hc : t.cache = s.cache)
    (hl : t.log = s.log) (hc₁ : t₁.cache = s₁.cache) (hl₁ : t₁.log = s₁.log) :
    t.Ledger t₁ events where
  log := by rw [hl, hl₁, h.log]
  nodup := h.nodup
  fresh := by rw [hc]; exact h.fresh
  has_iff := by rw [hc, hc₁]; exact h.has_iff
  size := by rw [hc, hc₁, h.size]
  misses := by rw [hc, hc₁, h.misses]
  hits := by rw [hc, hc₁, h.hits]
  sourced := by rw [hc]; exact h.sourced

end Session.Ledger

/-- There is a ledger of every memoized run of the evaluator that ends with a value. -/
def Evaluator.KeepsLedger (eval : Evaluator) (grammar : Grammar) (input : Input) : Prop :=
  ∀ expr pos session outcome after, session.cache.Sound grammar input →
    eval expr pos session = (.ok outcome, after) → ∃ events, session.Ledger after events

section
variable {grammar : Grammar} {input : Input} {eval : Evaluator}
  (hf : eval.IsFaithful grammar input true) (heval : eval.KeepsLedger grammar input)
include hf heval

theorem Script.run_ledger {α : Type} (script : Script α) {session after : Session} {value : α}
    (hs : session.cache.Sound grammar input)
    (hrun : script.run eval session = (.ok value, after)) :
    ∃ events, session.Ledger after events := by
  induction script generalizing session with
  | done value =>
    cases hrun
    exact ⟨[], .of_eq rfl rfl⟩
  | note failure next ih =>
    have hs : (session.note (some failure)).cache.Sound grammar input := hs
    obtain ⟨events, h⟩ := ih hs hrun
    exact ⟨events, h.congr rfl rfl rfl rfl⟩
  | call expr pos next ih =>
    have hsound := (hf expr pos session hs).sound
    rcases hcall : eval expr pos session with ⟨error | outcome, middle⟩ <;> rw [hcall] at hsound
    · rw [run_call_error hcall] at hrun
      cases hrun
    · rw [run_call_ok hcall] at hrun
      obtain ⟨events, h₁⟩ := heval expr pos session outcome middle hs hcall
      obtain ⟨events', h₂⟩ := ih outcome hsound hrun
      exact ⟨events' ++ events, h₁.trans h₂⟩
  | peek expr pos next ih =>
    have hsound := (hf expr pos session.withoutFurthest hs).sound
    rcases hcall : eval expr pos session.withoutFurthest with ⟨error | outcome, middle⟩ <;>
      rw [hcall] at hsound
    · rw [run_peek_error hcall] at hrun
      cases hrun
    · rw [run_peek_ok hcall] at hrun
      obtain ⟨events, h₁⟩ := heval expr pos session.withoutFurthest outcome middle hs hcall
      -- putting the furthest failure back touches neither the cache nor the log
      have hsound : ({ middle with furthest? := session.furthest? } : Session).cache.Sound grammar
          input := hsound
      obtain ⟨events', h₂⟩ := ih outcome.isSuccess hsound hrun
      have h₁ : session.Ledger { middle with furthest? := session.furthest? } events :=
        h₁.congr rfl rfl rfl rfl
      exact ⟨events' ++ events, h₁.trans h₂⟩

end

/-! ## Rules and evaluations -/

namespace Session.Ledger

/-- A rule that is not in the cache is evaluated, without being evaluated again on the way, and its
outcome is kept. -/
theorem entering {s start inner : Session} {events : List Event} {name : String} {pos : Nat}
    {entry : CacheEntry} (h : start.Ledger inner events)
    (hcache : start.cache = s.missed.cache) (hlog : start.log = .ruleEntered name pos :: s.log)
    (hnew : ¬ inner.cache.Has ⟨pos, name⟩) :
    s.Ledger (inner.keep name pos entry) (events ++ [.ruleEntered name pos]) := by
  have hentries : Event.entries (events ++ [.ruleEntered name pos]) =
      Event.entries events ++ [⟨pos, name⟩] := Event.entries_append _ _
  have hstart : start.cache.Has = s.cache.Has := by rw [hcache]; rfl
  have hnot := fun hkey => hnew ((h.has_iff ⟨pos, name⟩).2 hkey)
  constructor
  case log => exact h.log.trans (by rw [hlog, List.append_assoc]; rfl)
  case nodup =>
    rw [hentries]
    refine List.nodup_append.2 ⟨h.nodup, by simp, fun key hkey other hother => ?_⟩
    rintro rfl
    cases List.mem_singleton.1 hother
    exact hnot (.inr hkey)
  case fresh =>
    rw [hentries, ← hstart]
    intro key hkey
    rcases List.mem_append.1 hkey with hkey | hkey
    · exact h.fresh key hkey
    · cases List.mem_singleton.1 hkey
      exact fun hkey => hnot (.inl hkey)
  case has_iff =>
    intro key
    rw [hentries, ← hstart, List.mem_append, List.mem_singleton, ← or_assoc, ← h.has_iff, or_comm]
    exact Cache.has_insert
  case size =>
    rw [hentries, List.length_append]
    have hsize := h.size
    have hsame : start.cache.size = s.cache.size := by rw [hcache]; rfl
    -- the key is new, so the entry does not take the place of another one
    have hinsert : (inner.keep name pos entry).cache.size = inner.cache.size + 1 :=
      Cache.size_insert_of_not_has hnew
    simp only [List.length_singleton]
    omega
  case misses =>
    rw [hentries, List.length_append]
    have hmisses := h.misses
    have hsame : start.cache.misses = s.cache.misses + 1 := by rw [hcache]; rfl
    have hinsert : (inner.keep name pos entry).cache.misses = inner.cache.misses := rfl
    simp only [List.length_singleton]
    omega
  case hits =>
    have hhits : Event.hits (events ++ [.ruleEntered name pos]) = Event.hits events := by
      rw [Event.hits_append]
      exact List.append_nil _
    have hsame : start.cache.hits = s.cache.hits := by rw [hcache]; rfl
    rw [hhits, ← hsame, ← h.hits]
    rfl
  case sourced =>
    rw [← hstart]
    exact Event.Sourced.append (.of_hits_eq_nil rfl) h.sourced fun key hkey => .inl hkey

end Session.Ledger

namespace Context

section
variable {context : Context} {eval : Evaluator} (hm : context.options.memoize = true)
  (hf : eval.IsFaithful context.grammar context.input true)
  (heval : eval.KeepsLedger context.grammar context.input) {session after : Session}
  (hs : session.cache.Sound context.grammar context.input) {outcome : Outcome}
include hm hf heval hs

/-- **A rule keeps a ledger.** Of the rules entered for its answer none is the rule itself. -/
theorem enterRule_ledger {name : String} {rule : Rule} {pos : Nat}
    (hr : context.grammar.rule? name = some rule) (hmiss : ¬ session.cache.Has ⟨pos, name⟩)
    (hrun : context.enterRule eval name rule.body pos session.missed = (.ok outcome, after)) :
    ∃ events, session.Ledger after events := by
  let start := (session.missed.report (.ruleEntered name pos)).withoutFurthest
  have hs : start.cache.Sound context.grammar context.input := hs.congr rfl
  have hbody := Script.run_faithful hf (Script.ofBody name rule.body pos) hs
  rcases hinner : (Script.ofBody name rule.body pos).run eval start with ⟨error | value, inner⟩ <;>
    rw [hinner] at hbody
  · rw [enterRule_error hinner] at hrun
    cases hrun
  · rw [enterRule_ok hinner, if_pos hm] at hrun
    cases hrun
    obtain ⟨events, h⟩ := Script.run_ledger hf heval _ hs hinner
    obtain ⟨answer, hy, hres, hrefl⟩ := hbody.answered.resolve_left not_exhausted_ok
    have hnew : ¬ inner.cache.Has ⟨pos, name⟩ := by
      intro hkey
      rcases hrefl.only _ (Answer.value_of_result_ok hres.symm) _ hkey with hkey | ⟨-, hkey⟩
      · exact hmiss hkey
      · exact Grammar.not_mem_entered_body hr hy hkey
    have h : start.Ledger (inner.mergedInto session.missed.furthest?) events :=
      h.congr rfl rfl rfl rfl
    exact ⟨_, h.entering rfl rfl hnew⟩

theorem matchRule_ledger {name : String} {pos : Nat}
    (hrun : context.matchRule eval name pos session = (.ok outcome, after)) :
    ∃ events, session.Ledger after events := by
  cases hr : context.grammar.rule? name with
  | none =>
    rw [matchRule_undefined hr] at hrun
    cases hrun
  | some rule =>
    cases hc : session.cache.get? name pos with
    | none =>
      rw [matchRule_miss hr hm hc] at hrun
      refine enterRule_ledger hm hf heval hs hr ?_ hrun
      rintro ⟨entry, hentry⟩
      cases hc.symm.trans hentry
    | some entry =>
      rw [matchRule_hit hr hm hc] at hrun
      cases hrun
      refine ⟨[.cacheHit name pos], .of_entries_eq_nil rfl rfl rfl rfl rfl ?_⟩
      intro newer older rule place heq
      cases newer with
      | nil =>
        cases heq
        exact .inl ⟨entry, hc⟩
      | cons event newer => simp at heq

end

/-- **Memoized evaluation from a sound cache keeps a ledger**, if it ends with an outcome. -/
theorem evaluate_ledger (context : Context) (hm : context.options.memoize = true) (depth : Nat) :
    (context.evaluate depth).KeepsLedger context.grammar context.input := by
  induction depth with
  | zero =>
    intro expr pos session outcome after _ hrun
    cases hrun
  | succ depth ih =>
    have hf := context.evaluate_faithful depth
    rw [hm] at hf
    intro expr pos session outcome after hs hrun
    rcases expr.ruleRef_or_not with ⟨name, rfl⟩ | he
    · exact matchRule_ledger hm hf ih hs hrun
    · rw [evaluate, step_eq_run context _ he] at hrun
      exact Script.run_ledger hf ih _ hs hrun

end Context

end Packrat
