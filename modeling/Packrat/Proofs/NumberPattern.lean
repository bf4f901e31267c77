import Mathlib.Data.List.TakeWhile
import Packrat.Arithmetic.Grammars
import Packrat.Proofs.Regex.Search
import Packrat.Sample.Grammars

/-!
# Patterns of numbers

What the patterns `[0-9]+` and `-?[0-9]+` match: as many digits as there are, after a minus sign or
not. Soundness of the search says that what is found is digits; that it is all of them is a matter
of preference, so the searches are followed round by round. Once a digit has been consumed there is
a single thread, which has matched and is ready for another digit (`Regex.Program.search_digits`).
-/

set_option autoImplicit false

namespace Packrat

/-- The number of digits at the start of a text, if there are any. -/
def digitRun? (text : List Char) : Option Nat :=
  if text.takeWhile Char.isDigit = [] then none else some (text.takeWhile Char.isDigit).length

theorem digitRun?_of_head {text : List Char} (h : ∀ c, text.head? = some c → c.isDigit = false) :
    digitRun? text = none := by
  cases text with
  | nil => rfl
  | cons c rest => simp [digitRun?, h c rfl]

theorem takeWhile_digits {digits after : List Char} (hdigits : ∀ c ∈ digits, c.isDigit = true)
    (hafter : ∀ c, after.head? = some c → c.isDigit = false) :
    (digits ++ after).takeWhile Char.isDigit = digits := by
  rw [List.takeWhile_append_of_pos hdigits]
  cases after with
  | nil => simp
  | cons c rest => simp [hafter c rfl]

theorem digitRun?_append {digits after : List Char} (hne : digits ≠ [])
    (hdigits : ∀ c ∈ digits, c.isDigit = true)
    (hafter : ∀ c, after.head? = some c → c.isDigit = false) :
    digitRun? (digits ++ after) = some digits.length := by
  rw [digitRun?, takeWhile_digits hdigits hafter, if_neg hne]

theorem digits_of_digitRun? {text after : List Char}
    (h : digitRun? (text ++ after) = some text.length) :
    text ≠ [] ∧ ∀ c ∈ text, c.isDigit = true := by
  unfold digitRun? at h
  split at h
  · cases h
  · next hne =>
    have hlength := Option.some.inj h
    have hprefix := List.takeWhile_prefix Char.isDigit (l := text ++ after)
    have hrun : (text ++ after).takeWhile Char.isDigit = text :=
      (List.prefix_of_prefix_length_le hprefix (List.prefix_append text after)
        hlength.le).eq_of_length hlength
    refine ⟨hrun ▸ hne, fun c hc => ?_⟩
    rw [← hrun] at hc
    exact List.mem_takeWhile_imp hc

theorem isWhiteSpace_of_isDigit {c : Char} (h : c.isDigit = true) :
    Unicode.isWhiteSpace c = false := by
  have hrange : 48 ≤ c.toNat ∧ c.toNat ≤ 57 := by
    simpa [Char.isDigit, UInt32.le_iff_toNat_le] using h
  simp only [Unicode.isWhiteSpace, Unicode.inRanges, Bool.if_false_left, Bool.if_true_left]
  simp
  omega

/-! ## Searches for digits -/

namespace Regex

/-- The set of the digits. -/
def digitSet : CharSet := .range '0' '9'

theorem contains_digitSet (c : Char) : digitSet.contains c = c.isDigit := rfl

namespace Program

theorem round_start (program : Program) (after : Option Char) :
    program.round none after 0 [] none =
      let next := program.step after (program.settle none after [⟨0, 0⟩])
      (next.1, next.2.map fun thread => ⟨thread.start, 0⟩) := by
  simp [round]

theorem step_consume {program : Program} {pc start : Nat} {set : CharSet}
    (h : program.code[pc]? = some (.consume set)) (after : Option Char) (threads : List Thread) :
    program.step after (⟨pc, start⟩ :: threads) =
      let next := program.step after threads
      (if after.any set.contains then ⟨pc + 1, start⟩ :: next.1 else next.1, next.2) := by
  simp only [step, h]
  split <;> rfl

/-- A thread at `pc` consumes a digit. One that has done so goes on to another digit or, if there is
none, accepts. -/
structure RepeatsDigits (program : Program) (pc : Nat) : Prop where
  anchored : program.anchored = true
  digit : program.code[pc]? = some (.consume digitSet)
  accept : program.code[pc + 2]? = some .accept
  settled : ∀ before after, program.settle before after [⟨pc + 1, 0⟩] = [⟨pc, 0⟩, ⟨pc + 2, 0⟩]

variable {program : Program} {pc : Nat} (h : program.RepeatsDigits pc)
include h

/-- Away from the start no new thread is started. -/
theorem RepeatsDigits.round_eq {pos : Nat} (hpos : pos ≠ 0) (before after : Option Char)
    (threads : List Thread) (best : Option Span) :
    program.round before after pos threads best =
      let next := program.step after (program.settle before after threads)
      (next.1, (next.2.map fun thread => ⟨thread.start, pos⟩) <|> best) := by
  simp [round, h.anchored, hpos]

theorem RepeatsDigits.step_digit (after : Option Char) (threads : List Thread) :
    program.step after (⟨pc, 0⟩ :: threads) =
      let next := program.step after threads
      (if after.any Char.isDigit then ⟨pc + 1, 0⟩ :: next.1 else next.1, next.2) := by
  have hset : digitSet.contains = Char.isDigit := funext contains_digitSet
  rw [step_consume h.digit, hset]

theorem round_digits {pos : Nat} (hpos : pos ≠ 0) (before after : Option Char)
    (best : Option Span) :
    program.round before after pos [⟨pc + 1, 0⟩] best =
      (if after.any Char.isDigit then [⟨pc + 1, 0⟩] else [], some ⟨0, pos⟩) := by
  rw [h.round_eq hpos, h.settled, h.step_digit]
  simp only [step, h.accept]
  rfl

/-- **A search that has found a digit takes all digits that follow.** -/
theorem search_digits {pos : Nat} (hpos : pos ≠ 0) (before : Option Char) (rest : List Char)
    (best : Option Span) :
    program.search before rest pos [⟨pc + 1, 0⟩] best =
      some ⟨0, pos + (rest.takeWhile Char.isDigit).length⟩ := by
  induction rest generalizing before pos best with
  | nil =>
    rw [search_nil, round_digits h hpos]
    rfl
  | cons c rest ih =>
    rw [search_cons, round_digits h hpos, List.takeWhile_cons, Option.any_some]
    cases c.isDigit with
    | false => rfl
    | true =>
      refine (ih (Nat.succ_ne_zero pos) _ _).trans ?_
      simp only [if_true, List.length_cons, Nat.succ_eq_add_one]
      rw [Nat.add_assoc, Nat.add_comm 1]

/-- A search that stands before the digits takes all that there are; if there is none, it finds
nothing. -/
theorem search_digitRun {pos : Nat} {before : Option Char} {rest : List Char}
    {threads : List Thread} (hround : program.round before rest.head? pos threads none =
      (if rest.head?.any Char.isDigit then [⟨pc + 1, 0⟩] else [], none)) :
    program.search before rest pos threads none =
      (digitRun? rest).map fun length => ⟨0, pos + length⟩ := by
  cases rest with
  | nil =>
    rw [List.head?_nil] at hround
    rw [search_nil, hround]
    rfl
  | cons c rest =>
    rw [List.head?_cons] at hround
    rw [search_cons, hround, digitRun?, List.takeWhile_cons, Option.any_some]
    cases c.isDigit with
    | false => simp [h.anchored]
    | true =>
      refine (search_digits h (Nat.succ_ne_zero pos) _ _ _).trans ?_
      simp [Nat.add_assoc, Nat.add_comm 1]

end Program

end Regex

/-! ## Decimal numbers -/

open Regex Regex.Program

namespace Arithmetic

theorem decimalNumber_program : decimalNumber.program =
    ⟨#[.test .textStart, .consume digitSet, .split 1 3, .accept]⟩ := by
  decide +kernel

theorem repeatsDigits_decimalNumber : decimalNumber.program.RepeatsDigits 1 := by
  rw [decimalNumber_program]
  exact ⟨rfl, rfl, rfl, fun _ _ => rfl⟩

/-- **A decimal number is all digits from here on.** -/
theorem matchLength?_decimalNumber (text : List Char) :
    decimalNumber.matchLength? text = digitRun? text := by
  have hsettled : decimalNumber.program.settle none text.head? [⟨0, 0⟩] = [⟨1, 0⟩] := by
    rw [decimalNumber_program]
    rfl
  have hround : decimalNumber.program.round none text.head? 0 [] none =
      (if text.head?.any Char.isDigit then [⟨2, 0⟩] else [], none) := by
    rw [round_start, hsettled, repeatsDigits_decimalNumber.step_digit]
    rfl
  have hfind : decimalNumber.program.find? text = _ :=
    search_digitRun repeatsDigits_decimalNumber hround
  rw [Pattern.matchLength?, hfind, Option.map_map]
  simp [Function.comp_def]

end Arithmetic

/-! ## Numbers with a sign -/

namespace Sample

/-- Digits, after a minus sign or not. -/
def IsNumber (text : List Char) : Prop :=
  ∃ sign digits, (sign = [] ∨ sign = ['-']) ∧ digits ≠ [] ∧ (∀ c ∈ digits, c.isDigit = true) ∧
    text = sign ++ digits

theorem IsNumber.head {text : List Char} (h : IsNumber text) :
    ∃ c rest, text = c :: rest ∧ (c.isDigit = true ∨ c = '-') := by
  obtain ⟨sign, digits, rfl | rfl, hne, hdigits, rfl⟩ := h
  · obtain ⟨c, rest, rfl⟩ := List.exists_cons_of_ne_nil hne
    exact ⟨c, rest, rfl, .inl (hdigits c (.head _))⟩
  · exact ⟨'-', digits, rfl, .inr rfl⟩

theorem signedNumber_program : signedNumber.program =
    ⟨#[.test .textStart, .split 2 3, .consume (.single '-'), .consume digitSet, .split 3 5,
      .accept]⟩ := by
  decide +kernel

theorem repeatsDigits_signedNumber : signedNumber.program.RepeatsDigits 3 := by
  rw [signedNumber_program]
  exact ⟨rfl, rfl, rfl, fun _ _ => rfl⟩

theorem contains_single {a c : Char} : (CharSet.single a).contains c = true ↔ c = a := by
  simp only [CharSet.single, CharSet.contains, Bool.and_eq_true, decide_eq_true_eq]
  constructor
  · rintro ⟨hle, hge⟩
    exact Char.le_antisymm hge hle
  · rintro rfl
    exact ⟨Char.le_refl c, Char.le_refl c⟩

theorem round_signedNumber (after : Option Char) :
    signedNumber.program.round none after 0 [] none =
      (if after = some '-' then [⟨3, 0⟩] else if after.any Char.isDigit then [⟨4, 0⟩] else [],
        none) := by
  have hsettled : signedNumber.program.settle none after [⟨0, 0⟩] = [⟨2, 0⟩, ⟨3, 0⟩] := by
    rw [signedNumber_program]
    rfl
  have hcode : signedNumber.program.code[2]? = some (.consume (.single '-')) := by
    rw [signedNumber_program]
    rfl
  have hsign : after.any (CharSet.single '-').contains = true ↔ after = some '-' := by
    rw [Option.any_eq_true]
    simp only [contains_single]
    exact ⟨fun ⟨c, hc, heq⟩ => heq ▸ hc, fun h => ⟨'-', h, rfl⟩⟩
  rw [round_start, hsettled, step_consume hcode, repeatsDigits_signedNumber.step_digit]
  by_cases h : after = some '-'
  · subst h
    rfl
  · simp only [hsign, if_neg h]
    rfl

/-- **A number with a sign is the sign and all digits after it.** -/
theorem matchLength?_signedNumber_sign (rest : List Char) :
    signedNumber.matchLength? ('-' :: rest) = (digitRun? rest).map (· + 1) := by
  have hsettled : signedNumber.program.settle (some '-') rest.head? [⟨3, 0⟩] = [⟨3, 0⟩] := by
    rw [signedNumber_program]
    rfl
  have hround : signedNumber.program.round (some '-') rest.head? 1 [⟨3, 0⟩] none =
      (if rest.head?.any Char.isDigit then [⟨4, 0⟩] else [], none) := by
    rw [repeatsDigits_signedNumber.round_eq Nat.one_ne_zero, hsettled,
      repeatsDigits_signedNumber.step_digit]
    rfl
  have hfind : signedNumber.program.find? ('-' :: rest) =
      signedNumber.program.search (some '-') rest 1 [⟨3, 0⟩] none := by
    rw [find?, search_cons, round_signedNumber]
    rfl
  rw [Pattern.matchLength?, hfind, search_digitRun repeatsDigits_signedNumber hround,
    Option.map_map]
  simp [Function.comp_def, Nat.add_comm 1]

/-- **A number without a sign is all digits from here on.** -/
theorem matchLength?_signedNumber {text : List Char} (h : text.head? ≠ some '-') :
    signedNumber.matchLength? text = digitRun? text := by
  have hround : signedNumber.program.round none text.head? 0 [] none =
      (if text.head?.any Char.isDigit then [⟨4, 0⟩] else [], none) := by
    rw [round_signedNumber, if_neg h]
  have hfind : signedNumber.program.find? text = _ :=
    search_digitRun repeatsDigits_signedNumber hround
  rw [Pattern.matchLength?, hfind, Option.map_map]
  simp [Function.comp_def]

theorem IsNumber.matchLength? {text after : List Char} (h : IsNumber text)
    (hafter : ∀ c, after.head? = some c → c.isDigit = false) :
    signedNumber.matchLength? (text ++ after) = some text.length := by
  obtain ⟨sign, digits, hsign, hne, hdigits, rfl⟩ := h
  obtain rfl | rfl := hsign
  · have hhead : (digits ++ after).head? ≠ some '-' := by
      obtain ⟨c, rest, rfl⟩ := List.exists_cons_of_ne_nil hne
      intro heq
      cases heq
      exact absurd (hdigits _ (.head _)) (by decide)
    rw [List.nil_append, matchLength?_signedNumber hhead, digitRun?_append hne hdigits hafter]
  · rw [List.append_assoc, List.singleton_append, matchLength?_signedNumber_sign,
      digitRun?_append hne hdigits hafter]
    rfl

theorem matchLength?_eq_none {text : List Char}
    (h : ∀ c, text.head? = some c → c.isDigit = false ∧ c ≠ '-') :
    signedNumber.matchLength? text = none := by
  rw [matchLength?_signedNumber fun hhead => (h _ hhead).2 rfl]
  exact digitRun?_of_head fun c hc => (h c hc).1

theorem isNumber_of_matchLength? {text after : List Char}
    (h : signedNumber.matchLength? (text ++ after) = some text.length) : IsNumber text := by
  by_cases hsign : (text ++ after).head? = some '-'
  · cases text with
    | nil =>
      obtain ⟨rest, rfl⟩ := List.head?_eq_some_iff.1 hsign
      have hlength := (matchLength?_signedNumber_sign rest).symm.trans h
      obtain ⟨length, -, hzero⟩ := Option.map_eq_some_iff.1 hlength
      exact absurd hzero (Nat.succ_ne_zero length)
    | cons c digits =>
      cases hsign
      have hlength := (matchLength?_signedNumber_sign (digits ++ after)).symm.trans h
      obtain ⟨length, hrun, hsucc⟩ := Option.map_eq_some_iff.1 hlength
      rw [Nat.succ.inj hsucc] at hrun
      obtain ⟨hne, hdigits⟩ := digits_of_digitRun? hrun
      exact ⟨['-'], digits, .inr rfl, hne, hdigits, rfl⟩
  · rw [matchLength?_signedNumber hsign] at h
    obtain ⟨hne, hdigits⟩ := digits_of_digitRun? h
    exact ⟨[], text, .inl rfl, hne, hdigits, rfl⟩

end Sample

end Packrat
