import Packrat.Proofs.Regex.Anchoring
import Packrat.Proofs.Regex.Search
import Packrat.Sample.Grammars
import Packrat.Session.Evaluate

/-!
# Where a pattern matches

The source of a pattern stands in a group after the start of the text. What a pattern matches is a
match of that whole expression. If the source is a regular expression by itself, the match starts
where the pattern is tried and is one of the source (`Context.evaluate_regex`). A source with
parentheses that close the group and open another is none by itself, and its match may start later
(`Context.evaluate_regex_later`).
-/

set_option autoImplicit false

namespace Packrat

namespace Regex

variable {text : List Char} {start stop : Nat}

/-- The start of the text is nowhere else in it. -/
theorem matches_textStart (hle : start ≤ text.length)
    (h : (Regex.test .textStart).Matches text start stop) : start = 0 ∧ stop = 0 := by
  obtain ⟨hholds, rfl⟩ := h
  cases start with
  | zero => exact ⟨rfl, rfl⟩
  | succ before =>
    have hbefore : text[before]? = none := by simpa [Look.holds, before?] using hholds
    rw [List.getElem?_eq_none_iff] at hbefore
    omega

theorem Matches.of_textStart {regex : Regex} (hle : start ≤ text.length)
    (h : (Regex.concat (.test .textStart) regex).Matches text start stop) :
    start = 0 ∧ regex.Matches text 0 stop := by
  obtain ⟨middle, hstart, hrest⟩ := h
  obtain ⟨rfl, rfl⟩ := matches_textStart hle hstart
  exact ⟨rfl, hrest⟩

end Regex

namespace Pattern

variable {source : String} {pattern : Pattern}

theorem read?_of_compile (h : compile source = .ok pattern) :
    ∃ wrapped, Regex.read? (anchoredSource source) = some wrapped ∧
      wrapped.compile? = some pattern.program := by
  unfold compile at h
  split at h
  · next program hprogram =>
    cases h
    exact Option.bind_eq_some_iff.1 hprogram
  · cases h

theorem compile_ofSource (source : String) (valid : (compile source).toOption.isSome = true) :
    compile source = .ok (ofSource source valid) := by
  have hsome : (compile source).toOption = some (ofSource source valid) :=
    (Option.some_get valid).symm
  cases hcompile : compile source with
  | error error =>
    rw [hcompile] at hsome
    cases hsome
  | ok pattern =>
    rw [hcompile] at hsome
    cases hsome
    rfl

end Pattern

namespace Context

variable {context : Context} {pattern : Pattern} {session : Session} {depth pos stop : Nat}
  {node? : Option Node}

theorem find?_of_evaluate
    (h : (context.evaluate depth (.regex pattern) pos session).1 = .ok (.success stop node?)) :
    node? = some ⟨.terminal, pos, stop, [], none⟩ ∧ pos ≤ stop ∧
      ∃ start, pattern.program.find? (context.input.rest pos) = some ⟨start, stop - pos⟩ := by
  cases depth with
  | zero => cases h
  | succ depth =>
    simp only [evaluate, step, matchPattern] at h
    split at h
    · next length hlength =>
      cases h
      obtain ⟨span, hspan, rfl⟩ := Option.map_eq_some_iff.1 hlength
      refine ⟨rfl, Nat.le_add_right _ _, span.start, ?_⟩
      rw [hspan, Nat.add_sub_cancel_left]
    · cases h

theorem evaluate_of_find? {span : Regex.Span}
    (h : pattern.program.find? (context.input.rest pos) = some span) :
    (context.evaluate (depth + 1) (.regex pattern) pos session).1 =
      .ok (.terminal pos (pos + span.stop)) := by
  have hlength : pattern.matchLength? (context.input.rest pos) = some span.stop := by
    rw [Pattern.matchLength?, h, Option.map_some]
  simp only [evaluate, step, matchPattern, hlength]
  rfl

/-- **What a pattern matches is a match of its source**, which starts where the pattern is tried, if
the source is a regular expression by itself. Whatever the source is, something of the rest of the
input that ends where the pattern does is a match of the expression that was compiled. -/
theorem evaluate_regex {source : String} (hcompile : Pattern.compile source = .ok pattern)
    (h : (context.evaluate depth (.regex pattern) pos session).1 = .ok (.success stop node?)) :
    let text := context.input.rest pos
    node? = some ⟨.terminal, pos, stop, [], none⟩ ∧ pos ≤ stop ∧
      ∃ wrapped start, Regex.read? (Pattern.anchoredSource source) = some wrapped ∧
        pattern.program.find? text = some ⟨start, stop - pos⟩ ∧
        wrapped.Matches text start (stop - pos) ∧
        ∀ regex, Regex.read? source.toList = some regex →
          start = 0 ∧ regex.Matches text 0 (stop - pos) := by
  intro text
  obtain ⟨hnode, hle, start, hfound⟩ := find?_of_evaluate h
  obtain ⟨wrapped, hread, hprogram⟩ := Pattern.read?_of_compile hcompile
  obtain ⟨hstart, hstop, hmatches⟩ := Regex.matches_of_find? hprogram hfound
  refine ⟨hnode, hle, wrapped, start, hread, hfound, hmatches, fun regex hregex => ?_⟩
  obtain rfl := Regex.read?_anchored hregex hread
  exact hmatches.of_textStart (Nat.le_trans hstart hstop)

theorem evaluate_regex_signedNumber :
    let context : Context := ⟨Sample.nestedLists, .ofString "[-12]", {}⟩
    (context.evaluate 1 (.regex Sample.signedNumber) 1 {}).1 = .ok (.terminal 1 4) ∧
      ∃ regex, Regex.read? "-?[0-9]+".toList = some regex ∧
        regex.Matches (context.input.rest 1) 0 3 := by
  intro context
  have hfind : Sample.signedNumber.program.find? ((Input.ofString "[-12]").rest 1) =
      some ⟨0, 3⟩ := by decide +kernel
  have hrun : (context.evaluate 1 (.regex Sample.signedNumber) 1 {}).1 = .ok (.terminal 1 4) :=
    @evaluate_of_find? context _ {} 0 1 ⟨0, 3⟩ hfind
  obtain ⟨-, -, wrapped, start, -, -, -, hsource⟩ :=
    evaluate_regex (Pattern.compile_ofSource "-?[0-9]+" (by decide +kernel)) hrun
  have hread : (Regex.read? "-?[0-9]+".toList).isSome := by decide +kernel
  exact ⟨hrun, _, (Option.some_get hread).symm, (hsource _ (Option.some_get hread).symm).2⟩

/-- **A match may start later**: parentheses in the source close the group that it stands in. -/
theorem evaluate_regex_later :
    let context : Context := ⟨Sample.word, .ofString "xb", {}⟩
    ∃ pattern, Pattern.compile "a)|(?:b" = .ok pattern ∧
      (context.evaluate 1 (.regex pattern) 0 {}).1 = .ok (.terminal 0 2) ∧
      pattern.program.find? (context.input.rest 0) = some ⟨1, 2⟩ ∧
      Regex.read? "a)|(?:b".toList = none := by
  intro context
  have hvalid : (Pattern.compile "a)|(?:b").toOption.isSome = true := by decide +kernel
  have hfind : (Pattern.ofSource "a)|(?:b" hvalid).program.find? ((Input.ofString "xb").rest 0) =
      some ⟨1, 2⟩ := by decide +kernel +revert
  have hread : Regex.read? "a)|(?:b".toList = none := by decide +kernel
  exact ⟨_, Pattern.compile_ofSource _ hvalid, @evaluate_of_find? context _ {} 0 0 ⟨1, 2⟩ hfind,
    hfind, hread⟩

end Context

end Packrat
