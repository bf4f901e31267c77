import Packrat.Proofs.Regex.Compilation
import Packrat.Proofs.Terminal

/-!
# What a search finds

Every thread of a search has come along a path from the first instruction and from the position
where its match would start (`Program.Arrived`): following threads, moving them over a character and
starting new ones keep this. So what is found is a match of the expression that the program was
compiled from (`Regex.matches_of_find?`).
-/

set_option autoImplicit false

namespace Packrat.Regex

namespace Program

variable {program : Program} {text : List Char} {pos : Nat}

/-- The thread has come along a path to the position. -/
def Arrived (program : Program) (text : List Char) (pos : Nat) (thread : Thread) : Prop :=
  ∃ steps, program.Path text steps 0 thread.start thread.pc pos

/-- The span is that of a path up to where the program accepts. -/
def Found (program : Program) (text : List Char) (span : Span) : Prop :=
  ∃ steps pc, program.Path text steps 0 span.start pc span.stop ∧
    program.code[pc]? = some .accept

theorem Arrived.step {thread : Thread} {pc pos' : Nat} (h : program.Arrived text pos thread)
    (hstep : program.Step text thread.pc pos pc pos') :
    program.Arrived text pos' { thread with pc } := by
  obtain ⟨steps, hpath⟩ := h
  exact ⟨steps + 1, hpath.concat hstep⟩

/-! ## One position -/

theorem arrived_follow {bound : Nat} {threads : List Thread} {seen : Array Bool}
    {settled : Array Thread} (hthreads : ∀ thread ∈ threads, program.Arrived text pos thread)
    (hsettled : ∀ thread ∈ settled, program.Arrived text pos thread) :
    ∀ thread ∈ program.follow (before? text pos) text[pos]? bound threads seen settled,
      program.Arrived text pos thread := by
  induction bound generalizing threads seen settled with
  | zero => exact hsettled
  | succ bound ih =>
    cases threads with
    | nil => exact hsettled
    | cons thread threads =>
      rw [List.forall_mem_cons] at hthreads
      obtain ⟨harrived, hthreads⟩ := hthreads
      -- entering an instruction without consuming is one more step of the path
      have henter {pcs : List Nat}
          (hpcs : ∀ pc ∈ pcs, program.Step text thread.pc pos pc pos) :
          ∀ entered ∈ pcs.map (fun pc => { thread with pc }) ++ threads,
            program.Arrived text pos entered := by
        intro entered hmem
        rcases List.mem_append.1 hmem with hmem | hmem
        · obtain ⟨pc, hpc, rfl⟩ := List.mem_map.1 hmem
          exact harrived.step (hpcs pc hpc)
        · exact hthreads entered hmem
      have hpush : ∀ arrived ∈ settled.push thread, program.Arrived text pos arrived := by
        intro arrived hmem
        rcases Array.mem_push.1 hmem with hmem | rfl
        · exact hsettled arrived hmem
        · exact harrived
      simp only [follow]
      split
      · exact ih hthreads hsettled
      · split
        · exact ih hthreads hsettled
        · exact ih hthreads hpush
        · exact ih hthreads hpush
        · next look hcode =>
          split
          · next hholds =>
            exact ih (henter (by simpa using .test hcode hholds)) hsettled
          · exact ih hthreads hsettled
        · next first second hcode =>
          exact ih (henter (by simpa using ⟨.first hcode, .second hcode⟩)) hsettled
        · next target hcode =>
          exact ih (henter (by simpa using .jump hcode)) hsettled

theorem arrived_settle {threads : List Thread}
    (h : ∀ thread ∈ threads, program.Arrived text pos thread) :
    ∀ thread ∈ program.settle (before? text pos) text[pos]? threads,
      program.Arrived text pos thread := by
  intro thread hmem
  unfold settle at hmem
  rw [Array.mem_toList_iff] at hmem
  exact arrived_follow h (fun _ hempty => absurd hempty (Array.not_mem_empty _)) thread hmem

/-- Threads that have moved over a character have arrived at the next position, and one that
accepts has come to where the program does. -/
theorem arrived_step {threads : List Thread}
    (h : ∀ thread ∈ threads, program.Arrived text pos thread) :
    (∀ thread ∈ (program.step text[pos]? threads).1, program.Arrived text (pos + 1) thread) ∧
      ∀ thread, (program.step text[pos]? threads).2 = some thread →
        program.Found text ⟨thread.start, pos⟩ := by
  induction threads with
  | nil => exact ⟨nofun, nofun⟩
  | cons thread threads ih =>
    rw [List.forall_mem_cons] at h
    obtain ⟨harrived, h⟩ := h
    obtain ⟨hmoved, haccepted⟩ := ih h
    simp only [step]
    split
    · next hcode =>
      refine ⟨nofun, fun found hfound => ?_⟩
      cases hfound
      obtain ⟨steps, hpath⟩ := harrived
      exact ⟨steps, thread.pc, hpath, hcode⟩
    · next set hcode =>
      split
      · next hset =>
        refine ⟨?_, haccepted⟩
        rw [List.forall_mem_cons]
        exact ⟨harrived.step (.consume hcode hset), hmoved⟩
      · exact ⟨hmoved, haccepted⟩
    · exact ⟨hmoved, haccepted⟩

/-! ## The whole text -/

/-- What a search does at one position: the threads that move on, and the best match up to there. -/
def round (program : Program) (before after : Option Char) (pos : Nat) (threads : List Thread)
    (best : Option Span) : List Thread × Option Span :=
  let threads :=
    if best.isSome || (program.anchored && pos ≠ 0) then threads else threads ++ [⟨0, pos⟩]
  let (threads, accepted) := program.step after (program.settle before after threads)
  (threads, (accepted.map fun thread => ⟨thread.start, pos⟩) <|> best)

section
variable (program : Program) (before : Option Char) (pos : Nat) (threads : List Thread)
  (best : Option Span)

theorem search_nil : program.search before [] pos threads best =
    (program.round before none pos threads best).2 := rfl

theorem search_cons (c : Char) (rest : List Char) :
    program.search before (c :: rest) pos threads best =
      let (moved, better) := program.round before (some c) pos threads best
      if moved.isEmpty && (better.isSome || program.anchored) then better
      else program.search (some c) rest (pos + 1) moved better := rfl

end

theorem found_round {threads : List Thread} {best : Option Span}
    (hthreads : ∀ thread ∈ threads, program.Arrived text pos thread)
    (hbest : ∀ span, best = some span → program.Found text span) :
    let next := program.round (before? text pos) text[pos]? pos threads best
    (∀ thread ∈ next.1, program.Arrived text (pos + 1) thread) ∧
      ∀ span, next.2 = some span → program.Found text span := by
  have hstarted : ∀ thread ∈
      (if best.isSome || (program.anchored && pos ≠ 0) then threads else threads ++ [⟨0, pos⟩]),
        program.Arrived text pos thread := by
    intro thread hmem
    split at hmem
    · exact hthreads thread hmem
    · rcases List.mem_append.1 hmem with hmem | hmem
      · exact hthreads thread hmem
      · rw [List.mem_singleton.1 hmem]
        exact ⟨0, .refl⟩
  obtain ⟨hmoved, haccepted⟩ := arrived_step (arrived_settle hstarted)
  refine ⟨hmoved, fun span hspan => ?_⟩
  simp only [round] at hspan
  cases ha : (program.step text[pos]? (program.settle (before? text pos) text[pos]? _)).2 with
  | none =>
    rw [ha] at hspan
    exact hbest span hspan
  | some thread =>
    rw [ha] at hspan
    cases hspan
    exact haccepted thread ha

/-- **A search finds what a path leads to.** The induction is on the text that is left. -/
theorem found_search {rest : List Char} (hrest : text.drop pos = rest) {threads : List Thread}
    (hthreads : ∀ thread ∈ threads, program.Arrived text pos thread) {best : Option Span}
    (hbest : ∀ span, best = some span → program.Found text span) {span : Span}
    (h : program.search (before? text pos) rest pos threads best = some span) :
    program.Found text span := by
  induction rest generalizing pos threads best with
  | nil =>
    have hhere : text[pos]? = none := by
      rw [← List.head?_drop, hrest, List.head?_nil]
    rw [search_nil, ← hhere] at h
    exact (found_round hthreads hbest).2 span h
  | cons c rest ih =>
    have hhere : text[pos]? = some c := by
      rw [← List.head?_drop, hrest, List.head?_cons]
    have hnext : text.drop (pos + 1) = rest := by
      rw [← List.drop_drop, hrest, List.drop_succ_cons, List.drop_zero]
    obtain ⟨hmoved, hfound⟩ := found_round hthreads hbest
    rw [search_cons, ← hhere] at h
    simp only at h
    split at h
    · exact hfound span h
    · exact ih hnext hmoved hfound h

theorem found_find? {span : Span} (h : program.find? text = some span) :
    program.Found text span := by
  have hstart : program.search (before? text 0) text 0 [] none = some span := h
  refine found_search rfl (fun _ hmem => ?_) (fun _ hspan => ?_) hstart
  · cases hmem
  · cases hspan

end Program

/-- **What is found is a match**, within the text, of the expression that was compiled. -/
theorem matches_of_find? {regex : Regex} {program : Program} (h : regex.compile? = some program)
    {text : List Char} {span : Span} (hspan : program.find? text = some span) :
    span.start ≤ span.stop ∧ span.stop ≤ text.length ∧
      regex.Matches text span.start span.stop := by
  obtain ⟨steps, pc, hpath, haccept⟩ := Program.found_find? hspan
  exact ⟨hpath.le, Program.find?_stop_le hspan, matches_of_compile h hpath haccept⟩

end Packrat.Regex
