import Packrat.Regex.Search

/-!
# What compiled expressions match

`Regex.Matches` says which parts of a text an expression matches, by its constructors, with no
regard to preference. A program goes along paths (`Program.Path`): from one instruction to another,
and from one position to another. The code of an expression is left at its end alone, and what has
been passed by then is a match (`Regex.leaves_emit`), construct by construct; repetitions are
induction on the length of the path. So a path of a whole program from its start to where it accepts
is a match of the expression (`Regex.matches_of_compile`).
-/

set_option autoImplicit false

namespace Packrat.Regex

/-! ## Matches -/

/-- The character before a position. -/
def before? (text : List Char) : (pos : Nat) → Option Char
  | 0 => none
  | pos + 1 => text[pos]?

/-- So many steps of a relation. -/
def Copies (R : Nat → Nat → Prop) : (count start stop : Nat) → Prop
  | 0, start, stop => start = stop
  | count + 1, start, stop => ∃ middle, R start middle ∧ Copies R count middle stop

/-- The expression matches the text from `start` to `stop`. -/
def Matches (text : List Char) : Regex → (start stop : Nat) → Prop
  | empty, start, stop => start = stop
  | charIn set, start, stop => (text[start]?).any set.contains ∧ stop = start + 1
  | test look, start, stop => look.holds (before? text start) text[start]? ∧ start = stop
  | concat first second, start, stop =>
    ∃ middle, first.Matches text start middle ∧ second.Matches text middle stop
  | alternation first second, start, stop =>
    first.Matches text start stop ∨ second.Matches text start stop
  | repetition body min max _, start, stop =>
    ∃ more, (∀ bound ∈ max, more ≤ bound - min) ∧
      Copies (body.Matches text) (min + more) start stop

theorem copies_add {R : Nat → Nat → Prop} {m n start stop : Nat} :
    Copies R (m + n) start stop ↔
      ∃ middle, Copies R m start middle ∧ Copies R n middle stop := by
  induction m generalizing start with
  | zero => simp [Copies]
  | succ m ih =>
    rw [Nat.add_right_comm]
    simp only [Copies, ih]
    constructor
    · rintro ⟨a, ha, b, hb, hrest⟩
      exact ⟨b, ⟨a, ha, hb⟩, hrest⟩
    · rintro ⟨b, ⟨a, ha, hb⟩, hrest⟩
      exact ⟨a, ha, b, hb, hrest⟩

theorem copies_one {R : Nat → Nat → Prop} {start stop : Nat} :
    Copies R 1 start stop ↔ R start stop := by
  simp [Copies]

/-! ## Paths -/

/-- One step of a thread, from an instruction to another. -/
inductive Program.Step (program : Program) (text : List Char) :
    (pc pos pc' pos' : Nat) → Prop
  | consume {pc pos : Nat} {set : CharSet} (h : program.code[pc]? = some (.consume set))
      (hc : (text[pos]?).any set.contains) : Step program text pc pos (pc + 1) (pos + 1)
  | test {pc pos : Nat} {look : Look} (h : program.code[pc]? = some (.test look))
      (hl : look.holds (before? text pos) text[pos]?) : Step program text pc pos (pc + 1) pos
  | first {pc pos first second : Nat} (h : program.code[pc]? = some (.split first second)) :
      Step program text pc pos first pos
  | second {pc pos first second : Nat} (h : program.code[pc]? = some (.split first second)) :
      Step program text pc pos second pos
  | jump {pc pos target : Nat} (h : program.code[pc]? = some (.jump target)) :
      Step program text pc pos target pos

/-- So many steps of a thread. -/
inductive Program.Path (program : Program) (text : List Char) :
    (steps pc pos pc' pos' : Nat) → Prop
  | refl {pc pos : Nat} : Path program text 0 pc pos pc pos
  | step {steps pc pos pc' pos' pc'' pos'' : Nat} (h : program.Step text pc pos pc' pos')
      (rest : Path program text steps pc' pos' pc'' pos'') :
      Path program text (steps + 1) pc pos pc'' pos''

section
variable {program : Program} {text : List Char} {steps pc pos pc' pos' pc'' pos'' : Nat}

namespace Program

theorem Path.concat (h : program.Path text steps pc pos pc' pos')
    (hlast : program.Step text pc' pos' pc'' pos'') :
    program.Path text (steps + 1) pc pos pc'' pos'' := by
  induction h with
  | refl => exact .step hlast .refl
  | step hstep _ ih => exact .step hstep (ih hlast)

theorem Step.le (h : program.Step text pc pos pc' pos') : pos ≤ pos' := by
  cases h <;> omega

theorem Path.le (h : program.Path text steps pc pos pc' pos') : pos ≤ pos' := by
  induction h with
  | refl => exact Nat.le_refl _
  | step hstep _ ih => exact Nat.le_trans hstep.le ih

theorem Path.cases_of_ne (h : program.Path text steps pc pos pc' pos') (hne : pc' ≠ pc) :
    ∃ more pc₁ pos₁, steps = more + 1 ∧ program.Step text pc pos pc₁ pos₁ ∧
      program.Path text more pc₁ pos₁ pc' pos' := by
  cases h with
  | refl => exact absurd rfl hne
  | step hstep rest => exact ⟨_, _, _, rfl, hstep, rest⟩

/-- Paths that start at `first` and end outside of the code from `first` to `last` come by `last`,
and the relation holds between the positions where they start and where they come by. -/
def Leaves (program : Program) (text : List Char) (first last : Nat) (R : Nat → Nat → Prop) :
    Prop :=
  ∀ steps pos pc' pos', program.Path text steps first pos pc' pos' →
    ¬ (first ≤ pc' ∧ pc' < last) →
      ∃ more middle, more ≤ steps ∧ R pos middle ∧ program.Path text more last middle pc' pos'

namespace Leaves

variable {first middle last : Nat} {R R' : Nat → Nat → Prop}

theorem mono (h : program.Leaves text first last R)
    (hR : ∀ start stop, R start stop → R' start stop) : program.Leaves text first last R' := by
  intro steps pos pc' pos' hpath hout
  obtain ⟨more, place, hle, hmatch, hrest⟩ := h steps pos pc' pos' hpath hout
  exact ⟨more, place, hle, hR _ _ hmatch, hrest⟩

theorem nil : program.Leaves text first first Eq :=
  fun steps pos _ _ hpath _ => ⟨steps, pos, Nat.le_refl _, rfl, hpath⟩

theorem append (h : program.Leaves text first middle R) (h' : program.Leaves text middle last R')
    (hle : first ≤ middle) (hle' : middle ≤ last) :
    program.Leaves text first last
      (fun start stop => ∃ place, R start place ∧ R' place stop) := by
  intro steps pos pc' pos' hpath hout
  obtain ⟨more, place, hmore, hmatch, hrest⟩ := h steps pos pc' pos' hpath (by omega)
  obtain ⟨more', place', hmore', hmatch', hrest'⟩ := h' more place pc' pos' hrest (by omega)
  exact ⟨more', place', by omega, ⟨place, hmatch, hmatch'⟩, hrest'⟩

theorem one (h : ∀ pos pc' pos', program.Step text pc pos pc' pos' → pc' = pc + 1 ∧ R pos pos') :
    program.Leaves text pc (pc + 1) R := by
  intro steps pos pc' pos' hpath hout
  obtain ⟨more, pc₁, pos₁, rfl, hstep, hrest⟩ := hpath.cases_of_ne (by omega)
  obtain ⟨rfl, hmatch⟩ := h pos pc₁ pos₁ hstep
  exact ⟨more, pos₁, Nat.le_succ _, hmatch, hrest⟩

end Leaves

/-- From a branch a thread enters or leaves. -/
theorem Step.of_branch {greedy : Bool} {enter leave : Nat}
    (h : program.code[pc]? = some (branch greedy enter leave))
    (hstep : program.Step text pc pos pc' pos') : pos' = pos ∧ (pc' = enter ∨ pc' = leave) := by
  cases greedy <;> cases hstep <;> simp_all [branch]

namespace Leaves

variable {first last hub : Nat} {greedy : Bool} {R : Nat → Nat → Prop}

theorem either {middle : Nat} {R' : Nat → Nat → Prop}
    (hsplit : program.code[pc]? = some (.split (pc + 1) (middle + 1)))
    (h : program.Leaves text (pc + 1) middle R)
    (hjump : program.code[middle]? = some (.jump last))
    (h' : program.Leaves text (middle + 1) last R') (hlt : pc < middle) (hle : middle < last) :
    program.Leaves text pc last (fun start stop => R start stop ∨ R' start stop) := by
  intro steps pos pc' pos' hpath hout
  obtain ⟨more, pc₁, pos₁, rfl, hstep, hrest⟩ := hpath.cases_of_ne (by omega)
  obtain ⟨rfl, rfl | rfl⟩ : pos₁ = pos ∧ (pc₁ = pc + 1 ∨ pc₁ = middle + 1) := by
    cases hstep <;> simp_all
  · obtain ⟨more', place, hmore, hmatch, hafter⟩ := h more pos₁ pc' pos' hrest (by omega)
    obtain ⟨more₂, pc₂, pos₂, rfl, hstep₂, hrest₂⟩ := hafter.cases_of_ne (by omega)
    obtain ⟨rfl, rfl⟩ : pc₂ = last ∧ pos₂ = place := by
      cases hstep₂ <;> simp_all
    exact ⟨more₂, pos₂, by omega, .inl hmatch, hrest₂⟩
  · obtain ⟨more', place, hmore, hmatch, hafter⟩ := h' more pos₁ pc' pos' hrest (by omega)
    exact ⟨more', place, by omega, .inr hmatch, hafter⟩

theorem option (hbranch : program.code[pc]? = some (branch greedy (pc + 1) last))
    (h : program.Leaves text (pc + 1) last R) (hlt : pc < last) :
    program.Leaves text pc last (fun start stop => start = stop ∨ R start stop) := by
  intro steps pos pc' pos' hpath hout
  obtain ⟨more, pc₁, pos₁, rfl, hstep, hrest⟩ := hpath.cases_of_ne (by omega)
  obtain ⟨rfl, rfl | rfl⟩ := hstep.of_branch hbranch
  · obtain ⟨more', place, hle, hmatch, hrest'⟩ := h more pos₁ pc' pos' hrest (by omega)
    exact ⟨more', place, by omega, .inr hmatch, hrest'⟩
  · exact ⟨more, pos₁, Nat.le_succ _, .inl rfl, hrest⟩

theorem plus (h : program.Leaves text first hub R) (hle : first ≤ hub)
    (hbranch : program.code[hub]? = some (branch greedy first (hub + 1))) :
    program.Leaves text first (hub + 1)
      (fun start stop => ∃ count, Copies R (count + 1) start stop) := by
  intro steps
  induction steps using Nat.strongRecOn with
  | ind steps ih =>
    intro pos pc' pos' hpath hout
    obtain ⟨more, place, hmore, hmatch, hrest⟩ := h steps pos pc' pos' hpath (by omega)
    obtain ⟨more', pc₁, pos₁, rfl, hstep, hrest'⟩ := hrest.cases_of_ne (by omega)
    obtain ⟨rfl, rfl | rfl⟩ := hstep.of_branch hbranch
    · obtain ⟨more'', place', hmore', ⟨count, hcopies⟩, hlast⟩ :=
        ih more' (by omega) pos₁ pc' pos' hrest' hout
      exact ⟨more'', place', by omega, ⟨count + 1, pos₁, hmatch, hcopies⟩, hlast⟩
    · exact ⟨more', pos₁, by omega, ⟨0, copies_one.2 hmatch⟩, hrest'⟩

/-- Code between a branch around it and a jump back to the branch. -/
theorem star (hbranch : program.code[pc]? = some (branch greedy (pc + 1) (last + 1)))
    (h : program.Leaves text (pc + 1) last R) (hlt : pc < last)
    (hjump : program.code[last]? = some (.jump pc)) :
    program.Leaves text pc (last + 1) (fun start stop => ∃ count, Copies R count start stop) := by
  intro steps
  induction steps using Nat.strongRecOn with
  | ind steps ih =>
    intro pos pc' pos' hpath hout
    obtain ⟨more, pc₁, pos₁, rfl, hstep, hrest⟩ := hpath.cases_of_ne (by omega)
    obtain ⟨rfl, rfl | rfl⟩ := hstep.of_branch hbranch
    · obtain ⟨more', place, hmore, hmatch, hback⟩ := h more pos₁ pc' pos' hrest (by omega)
      obtain ⟨more₂, pc₂, pos₂, rfl, hstep₂, hrest₂⟩ := hback.cases_of_ne (by omega)
      obtain ⟨rfl, rfl⟩ : pc₂ = pc ∧ pos₂ = place := by
        cases hstep₂ <;> simp_all
      obtain ⟨more₃, place', hmore', ⟨count, hcopies⟩, hlast⟩ :=
        ih more₂ (by omega) pos₂ pc' pos' hrest₂ hout
      exact ⟨more₃, place', by omega, ⟨count + 1, pos₂, hmatch, hcopies⟩, hlast⟩
    · exact ⟨more, pos₁, by omega, ⟨0, rfl⟩, hrest⟩

end Leaves

end Program

end

/-! ## The code of expressions -/

/-- The code goes on as the other does. -/
def Extends (code code' : Array Instruction) : Prop :=
  ∀ (pc : Nat) (instruction : Instruction),
    code[pc]? = some instruction → code'[pc]? = some instruction

namespace Extends

variable {a b c : Array Instruction}

theorem refl (a : Array Instruction) : Extends a a := fun _ _ h => h

theorem trans (h : Extends a b) (h' : Extends b c) : Extends a c :=
  fun pc instruction hpc => h' pc instruction (h pc instruction hpc)

theorem push (a : Array Instruction) (instruction : Instruction) :
    Extends a (a.push instruction) := by
  intro pc found h
  obtain ⟨hlt, rfl⟩ := Array.getElem?_eq_some_iff.1 h
  rw [Array.getElem?_push_lt hlt]

theorem last {instruction : Instruction} (h : Extends (a.push instruction) b) :
    b[a.size]? = some instruction :=
  h a.size instruction Array.getElem?_push_size

theorem iterate {f : Array Instruction → Array Instruction} (h : ∀ code, Extends code (f code))
    (count : Nat) (code : Array Instruction) : Extends code (Nat.repeat f count code) := by
  induction count with
  | zero => exact refl code
  | succ count ih => exact ih.trans (h _)

end Extends

theorem size_repeat {f : Array Instruction → Array Instruction} {size : Nat}
    (h : ∀ code, (f code).size = code.size + size) (count : Nat) (code : Array Instruction) :
    (Nat.repeat f count code).size = code.size + count * size := by
  induction count with
  | zero => simp [Nat.repeat]
  | succ count ih =>
    rw [Nat.repeat, h, ih, Nat.succ_mul, Nat.add_assoc]

theorem repeat_succ {α : Type} (f : α → α) (count : Nat) (a : α) :
    Nat.repeat f (count + 1) a = Nat.repeat f count (f a) := by
  induction count with
  | zero => rfl
  | succ count ih => exact congrArg f ih

/-- The code with one more copy of a body that may be left out, in favour of `stop`. -/
def emitOption (body : Regex) (greedy : Bool) (stop : Nat) (code : Array Instruction) :
    Array Instruction :=
  body.emit (code.push (branch greedy (code.size + 1) stop))

theorem emit_bounded (body : Regex) (min max : Nat) (greedy : Bool) (code : Array Instruction) :
    (repetition body min (some max) greedy).emit code =
      let copies := Nat.repeat body.emit min code
      Nat.repeat (emitOption body greedy (copies.size + (max - min) * (body.length + 1)))
        (max - min) copies := by
  cases min <;> rfl

theorem size_emitOption {body : Regex}
    (h : ∀ code, (body.emit code).size = code.size + body.length) (greedy : Bool) (stop : Nat)
    (code : Array Instruction) :
    (emitOption body greedy stop code).size = code.size + (body.length + 1) := by
  rw [emitOption, h, Array.size_push]
  omega

theorem size_emit (regex : Regex) (code : Array Instruction) :
    (regex.emit code).size = code.size + regex.length := by
  induction regex generalizing code with
  | empty => rfl
  | charIn set => exact Array.size_push _
  | test look => exact Array.size_push _
  | concat first second ihfirst ihsecond =>
    rw [emit, ihsecond, ihfirst, length, Nat.add_assoc]
  | alternation first second ihfirst ihsecond =>
    simp only [emit, length, ihsecond, ihfirst, Array.size_push]
    omega
  | repetition body min max greedy ih =>
    rcases max with _ | max
    · cases min with
      | zero =>
        simp only [emit, length, if_true]
        split <;> simp only [ih, Array.size_push] <;> omega
      | succ min =>
        simp only [emit, length, ih, size_repeat ih, Array.size_push, Nat.succ_mul,
          Nat.succ_ne_zero, if_false]
        omega
    · rw [emit_bounded, size_repeat (size_emitOption ih greedy _), size_repeat ih, length]
      omega

theorem emit_extends (regex : Regex) (code : Array Instruction) :
    Extends code (regex.emit code) := by
  induction regex generalizing code with
  | empty => exact .refl code
  | charIn set => exact .push code _
  | test look => exact .push code _
  | concat first second ihfirst ihsecond => exact (ihfirst code).trans (ihsecond _)
  | alternation first second ihfirst ihsecond =>
    exact ((Extends.push code _).trans (ihfirst _)).trans ((Extends.push _ _).trans (ihsecond _))
  | repetition body min max greedy ih =>
    rcases max with _ | max
    · cases min with
      | zero =>
        simp only [emit]
        split <;> exact ((Extends.push code _).trans (ih _)).trans (.push _ _)
      | succ min => exact ((Extends.iterate ih min code).trans (ih _)).trans (.push _ _)
    · rw [emit_bounded]
      exact (Extends.iterate ih min code).trans
        (.iterate (fun code => (Extends.push code _).trans (ih _)) _ _)

/-! ## Paths through the code of expressions -/

namespace Program.Leaves

variable {program : Program} {text : List Char} {body : Regex} {R : Nat → Nat → Prop}
  (hbody : ∀ code, Extends (body.emit code) program.code →
    program.Leaves text code.size (body.emit code).size R)
include hbody

theorem copies {count : Nat} {code : Array Instruction}
    (h : Extends (Nat.repeat body.emit count code) program.code) :
    program.Leaves text code.size (Nat.repeat body.emit count code).size (Copies R count) := by
  induction count with
  | zero => exact nil
  | succ count ih =>
    have hfirst := ih ((emit_extends body _).trans h)
    have hsize := size_repeat (size_emit body) count code
    have hsize' := size_emit body (Nat.repeat body.emit count code)
    refine (hfirst.append (hbody _ h) (by omega) (by omega)).mono fun start stop hmatch => ?_
    obtain ⟨place, hcopies, hlast⟩ := hmatch
    exact copies_add.2 ⟨place, hcopies, copies_one.2 hlast⟩

/-- So many copies, each of which may be left out with those after it. The induction takes the first
one apart, since all branches lead to where the last one ends. -/
theorem options {greedy : Bool} {stop count : Nat} {code : Array Instruction}
    (hstop : stop = code.size + count * (body.length + 1))
    (h : Extends (Nat.repeat (emitOption body greedy stop) count code) program.code) :
    program.Leaves text code.size stop
      (fun start stop => ∃ more, more ≤ count ∧ Copies R more start stop) := by
  induction count generalizing code with
  | zero =>
    obtain rfl : stop = code.size := by omega
    exact nil.mono fun _ _ hmatch => ⟨0, Nat.le_refl 0, hmatch⟩
  | succ count ih =>
    have hsize := size_emitOption (size_emit body) greedy stop code
    rw [repeat_succ] at h
    rw [Nat.succ_mul] at hstop
    have hrest := ih (by omega) h
    have hcode : Extends (emitOption body greedy stop code) program.code :=
      (Extends.iterate (fun code => (Extends.push code _).trans (emit_extends body _)) _ _).trans h
    have hfirst :
        program.Leaves text (code.size + 1) (emitOption body greedy stop code).size R := by
      rw [← Array.size_push]
      exact hbody _ hcode
    have hbranch := ((emit_extends body _).trans hcode).last
    have hboth := hfirst.append hrest (by omega) (by omega)
    refine (option hbranch hboth (by omega)).mono fun start stop hmatch => ?_
    obtain rfl | ⟨place, hcopy, more, hle, hcopies⟩ := hmatch
    · exact ⟨0, Nat.zero_le _, rfl⟩
    · exact ⟨more + 1, by omega, place, hcopy, hcopies⟩

end Program.Leaves

section
variable {program : Program} {text : List Char} {body : Regex} {R : Nat → Nat → Prop}
  (hbody : ∀ code, Extends (body.emit code) program.code →
    program.Leaves text code.size (body.emit code).size R)
  {greedy : Bool} {code : Array Instruction}
include hbody

theorem leaves_emit_bounded {min max : Nat}
    (h : Extends ((repetition body min (some max) greedy).emit code) program.code) :
    program.Leaves text code.size ((repetition body min (some max) greedy).emit code).size
      (fun start stop => ∃ more, more ≤ max - min ∧ Copies R (min + more) start stop) := by
  rw [emit_bounded] at h ⊢
  simp only at h ⊢
  have hextends (code : Array Instruction) (stop : Nat) :
      Extends code (emitOption body greedy stop code) :=
    (Extends.push code _).trans (emit_extends body _)
  have hcopies := Program.Leaves.copies hbody ((Extends.iterate (hextends · _) _ _).trans h)
  have hsize := size_repeat (size_emit body) min code
  rw [size_repeat (size_emitOption (size_emit body) greedy _)]
  have hoptions := Program.Leaves.options hbody rfl h
  refine (hcopies.append hoptions (by omega) (by omega)).mono fun start stop hmatch => ?_
  obtain ⟨place, hleft, more, hle, hright⟩ := hmatch
  exact ⟨more, hle, copies_add.2 ⟨place, hleft, hright⟩⟩

theorem leaves_emit_plus {min : Nat}
    (h : Extends ((repetition body (min + 1) none greedy).emit code) program.code) :
    program.Leaves text code.size ((repetition body (min + 1) none greedy).emit code).size
      (fun start stop => ∃ more, Copies R (min + more + 1) start stop) := by
  let copies := Nat.repeat body.emit min code
  have hlast : Extends (body.emit copies) program.code := (Extends.push _ _).trans h
  have hcopies : program.Leaves text code.size copies.size (Copies R min) :=
    .copies hbody ((emit_extends body copies).trans hlast)
  have hsize : copies.size = _ := size_repeat (size_emit body) min code
  have hsize' := size_emit body copies
  have hplus := (hbody copies hlast).plus (by omega) h.last
  show program.Leaves text code.size ((body.emit copies).push _).size _
  rw [Array.size_push]
  refine (hcopies.append hplus (by omega) (by omega)).mono fun start stop hmatch => ?_
  obtain ⟨place, hleft, more, hright⟩ := hmatch
  refine ⟨more, ?_⟩
  rw [Nat.add_assoc]
  exact copies_add.2 ⟨place, hleft, hright⟩

theorem leaves_emit_star (h : Extends ((repetition body 0 none greedy).emit code) program.code) :
    program.Leaves text code.size ((repetition body 0 none greedy).emit code).size
      (fun start stop => ∃ more, Copies R more start stop) := by
  let opened := code.push (branch greedy (code.size + 1) (code.size + body.length + 2))
  have hopened : opened.size = code.size + 1 := Array.size_push _
  have hsize : (body.emit opened).size = code.size + body.length + 1 := by
    rw [size_emit, hopened]
    omega
  have hemit : (repetition body 0 none greedy).emit code =
      if body.nullable then
        (body.emit opened).push (branch greedy (code.size + 1) (code.size + body.length + 2))
      else (body.emit opened).push (.jump code.size) := rfl
  have hinner : Extends (body.emit opened) program.code := by
    rw [hemit] at h
    split at h <;> exact (Extends.push _ _).trans h
  have hbranch := ((emit_extends body opened).trans hinner).last
  have hleaves := hbody opened hinner
  rw [hopened, hsize] at hleaves
  rw [hemit] at h ⊢
  split at h
  · next hnullable =>
    rw [if_pos hnullable, Array.size_push, hsize]
    have hagain := h.last
    rw [hsize] at hagain
    -- a body that may match nothing is repeated once or more, and a branch leads around all of it
    have hplus := hleaves.plus (by omega) hagain
    refine (Program.Leaves.option hbranch hplus (by omega)).mono fun start stop hmatch => ?_
    obtain rfl | ⟨count, hcopies⟩ := hmatch
    · exact ⟨0, rfl⟩
    · exact ⟨count + 1, hcopies⟩
  · next hconsumes =>
    rw [if_neg hconsumes, Array.size_push, hsize]
    have hjump := h.last
    rw [hsize] at hjump
    exact .star hbranch hleaves (by omega) hjump

end

/-- **The code of an expression is left at its end, after a match.** -/
theorem leaves_emit {program : Program} (text : List Char) (regex : Regex)
    {code : Array Instruction} (h : Extends (regex.emit code) program.code) :
    program.Leaves text code.size (regex.emit code).size (regex.Matches text) := by
  induction regex generalizing code with
  | empty => exact .nil
  | charIn set =>
    rw [size_emit]
    apply Program.Leaves.one
    intro pos pc' pos' hstep
    have hpc := h.last
    cases hstep <;> simp_all [Matches]
  | test look =>
    rw [size_emit]
    apply Program.Leaves.one
    intro pos pc' pos' hstep
    have hpc := h.last
    cases hstep <;> simp_all [Matches]
  | concat first second ihfirst ihsecond =>
    have hfirst := ihfirst ((emit_extends second _).trans h)
    have hsize := size_emit first code
    have hsize' := size_emit second (first.emit code)
    exact hfirst.append (ihsecond h) (by omega) (by rw [emit]; omega)
  | alternation first second ihfirst ihsecond =>
    let opened := code.push (.split (code.size + 1) (code.size + 1 + first.length + 1))
    -- a split before the first piece of code, and a jump behind it over the second one
    let closed := (first.emit opened).push
      (.jump (code.size + 1 + first.length + 1 + second.length))
    have hclosed : Extends closed program.code := (emit_extends second _).trans h
    have hfirst : Extends (first.emit opened) program.code := (Extends.push _ _).trans hclosed
    have hopened : opened.size = code.size + 1 := Array.size_push _
    have hmiddle : (first.emit opened).size = code.size + 1 + first.length := by
      rw [size_emit, hopened]
    have hafter : closed.size = code.size + 1 + first.length + 1 := by
      rw [Array.size_push, hmiddle]
    have hlast : (second.emit closed).size = code.size + 1 + first.length + 1 + second.length := by
      rw [size_emit, hafter]
    have hsplit := ((emit_extends first opened).trans hfirst).last
    have hjump := hclosed.last
    have hleft := ihfirst hfirst
    have hright : program.Leaves text closed.size (second.emit closed).size _ := ihsecond h
    rw [hopened, hmiddle] at hleft
    rw [hafter, hlast] at hright
    rw [hmiddle] at hjump
    show program.Leaves text code.size (second.emit closed).size _
    rw [hlast]
    exact .either hsplit hleft hjump hright (by omega) (by omega)
  | repetition body min max greedy ih =>
    have hbody (code : Array Instruction) (h : Extends (body.emit code) program.code) := ih h
    rcases max with _ | max
    · cases min with
      | zero => exact (leaves_emit_star hbody h).mono fun _ _ ⟨count, hcopies⟩ =>
          ⟨count, nofun, by rwa [Nat.zero_add]⟩
      | succ min =>
        refine (leaves_emit_plus hbody h).mono fun _ _ ⟨count, hcopies⟩ => ⟨count, nofun, ?_⟩
        rwa [Nat.add_right_comm] at hcopies
    · refine (leaves_emit_bounded hbody h).mono fun _ _ ⟨count, hle, hcopies⟩ => ?_
      refine ⟨count, fun bound hbound => ?_, hcopies⟩
      cases hbound
      exact hle

/-! ## Whole programs -/

section
variable {code : Array Instruction}

theorem accept_mem_of_push {instruction : Instruction} (h : .accept ∈ code.push instruction)
    (hne : instruction ≠ .accept) : .accept ∈ code :=
  (Array.mem_push.1 h).resolve_right hne.symm

theorem accept_mem_of_branch {greedy : Bool} {enter leave : Nat}
    (h : .accept ∈ code.push (branch greedy enter leave)) : .accept ∈ code := by
  refine accept_mem_of_push h ?_
  cases greedy <;> exact nofun

theorem accept_mem_of_repeat {f : Array Instruction → Array Instruction}
    (hf : ∀ code, .accept ∈ f code → .accept ∈ code) {count : Nat}
    (h : .accept ∈ Nat.repeat f count code) : .accept ∈ code := by
  induction count with
  | zero => exact h
  | succ count ih => exact ih (hf _ h)

theorem accept_mem_of_emit {regex : Regex} (h : .accept ∈ regex.emit code) : .accept ∈ code := by
  induction regex generalizing code with
  | empty => exact h
  | charIn set => exact accept_mem_of_push h nofun
  | test look => exact accept_mem_of_push h nofun
  | concat first second ihfirst ihsecond => exact ihfirst (ihsecond h)
  | alternation first second ihfirst ihsecond =>
    exact accept_mem_of_push (ihfirst (accept_mem_of_push (ihsecond h) nofun)) nofun
  | repetition body min max greedy ih =>
    rcases max with _ | max
    · cases min with
      | zero =>
        simp only [emit] at h
        split at h
        · exact accept_mem_of_branch (ih (accept_mem_of_branch h))
        · exact accept_mem_of_branch (ih (accept_mem_of_push h nofun))
      | succ min => exact accept_mem_of_repeat (fun _ => ih) (ih (accept_mem_of_branch h))
    · rw [emit_bounded] at h
      exact accept_mem_of_repeat (fun _ => ih)
        (accept_mem_of_repeat (fun _ hmem => accept_mem_of_branch (ih hmem)) h)

end

/-- **A program accepts matches alone**: a path from its start to where it accepts passes a match of
the expression that it was compiled from. -/
theorem matches_of_compile {regex : Regex} {program : Program} (h : regex.compile? = some program)
    {text : List Char} {steps start pc stop : Nat} (hpath : program.Path text steps 0 start pc stop)
    (haccept : program.code[pc]? = some .accept) : regex.Matches text start stop := by
  unfold compile? at h
  split at h
  · cases h
    have hleaves := leaves_emit text regex (Extends.push (regex.emit #[]) .accept)
    have hend : ¬ (0 ≤ pc ∧ pc < (regex.emit #[]).size) := by
      intro ⟨_, hlt⟩
      rw [Array.getElem?_push_lt hlt] at haccept
      have hmem :=
        Array.mem_of_getElem? (Array.getElem?_eq_some_iff.2 ⟨hlt, Option.some.inj haccept⟩)
      exact absurd (accept_mem_of_emit hmem) (Array.not_mem_empty _)
    obtain ⟨more, place, -, hmatch, hrest⟩ := hleaves steps start pc stop hpath hend
    cases hrest with
    | refl => exact hmatch
    | step hstep _ => cases hstep <;> simp_all
  · cases h

end Packrat.Regex
