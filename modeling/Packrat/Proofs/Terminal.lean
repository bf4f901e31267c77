import Packrat.Session.Terminal

/-!
# What terminals consume

A text agrees with the input as far as it is a prefix of the rest (`Input.agreement_eq_length_iff`),
and neither a text nor a pattern reaches beyond the end of the input (`Input.agreement_le`,
`Pattern.matchLength?_le`).
-/

set_option autoImplicit false

namespace Packrat

namespace Input

variable {input : Input}

theorem atom?_eq_head? (pos : Nat) : input.atom? pos = (input.rest pos).head? := by
  rw [rest_eq_drop, List.head?_drop, atom?, Array.getElem?_toList]

theorem rest_length (pos : Nat) : (input.rest pos).length = input.length - pos := by
  rw [rest_eq_drop, List.length_drop, Array.length_toList, length]

theorem lt_length_of_atom? {pos : Nat} {c : Char} (h : input.atom? pos = some c) :
    pos < input.length := (Array.getElem?_eq_some_iff.1 h).1

theorem rest_of_atom? {pos : Nat} {c : Char} (h : input.atom? pos = some c) :
    input.rest pos = c :: input.rest (pos + 1) := by
  rw [rest_eq_drop, rest_eq_drop]
  obtain ⟨hlt, rfl⟩ := Array.getElem?_eq_some_iff.1 h
  exact List.drop_eq_getElem_cons hlt

theorem rest_of_append {pos : Nat} {before after : List Char}
    (h : input.rest pos = before ++ after) : input.rest (pos + before.length) = after := by
  rw [rest_eq_drop] at h ⊢
  rw [← List.drop_drop, h, List.drop_left]

theorem agreement_le {pos : Nat} (h : pos ≤ input.length) (chars : List Char) :
    pos + input.agreement chars pos ≤ input.length := by
  induction chars generalizing pos with
  | nil => exact h
  | cons c chars ih =>
    simp only [agreement]
    split
    · next hc =>
      have hlt : pos + 1 ≤ input.length := lt_length_of_atom? hc
      have := ih hlt
      omega
    · exact h

/-- The position stands in the input, and the text is what is left there. -/
structure Remains (input : Input) (pos : Nat) (text : List Char) : Prop where
  le : pos ≤ input.length
  rest : input.rest pos = text

namespace Remains

variable {pos : Nat} {text before after : List Char}

theorem start (text : String) : (ofString text).Remains 0 text.toList :=
  ⟨Nat.zero_le _, by simp [rest_eq_drop, ofString]⟩

theorem length_eq (h : input.Remains pos text) : pos + text.length = input.length := by
  have hle := h.le
  rw [← h.rest, rest_length]
  omega

theorem append (h : input.Remains pos (before ++ after)) :
    input.Remains (pos + before.length) after := by
  have hlength := h.length_eq
  rw [List.length_append] at hlength
  exact ⟨by omega, rest_of_append h.rest⟩

theorem tail {c : Char} (h : input.Remains pos (c :: after)) : input.Remains (pos + 1) after :=
  @append input pos [c] after h

theorem atom? (h : input.Remains pos text) : input.atom? pos = text.head? := by
  rw [atom?_eq_head?, h.rest]

theorem slice? (h : input.Remains pos (before ++ after)) :
    input.slice? pos (pos + before.length) = some (String.ofList before) := by
  have hclamp : input.clamp pos ≤ input.clamp (pos + before.length) := by
    unfold clamp
    omega
  have hrest := h.rest
  rw [rest_eq_drop] at hrest
  rw [Input.slice?, if_pos hclamp, Array.toList_extract, List.extract_eq_take_drop, hrest,
    Nat.add_sub_cancel_left, List.take_left]

end Remains

theorem agreement_eq_length_iff (chars : List Char) (pos : Nat) :
    input.agreement chars pos = chars.length ↔ chars <+: input.rest pos := by
  induction chars generalizing pos with
  | nil => simp [agreement]
  | cons c chars ih =>
    simp only [agreement, List.length_cons]
    by_cases hc : input.atom? pos = some c
    · rw [if_pos hc, rest_of_atom? hc, List.cons_prefix_cons, Nat.add_right_cancel_iff, ih]
      exact ⟨fun h => ⟨rfl, h⟩, fun h => h.2⟩
    · rw [if_neg hc]
      refine ⟨fun h => absurd h (by omega), fun h => absurd ?_ hc⟩
      obtain ⟨tail, htail⟩ := h
      rw [atom?_eq_head?, ← htail]
      rfl

theorem agreement_take (chars : List Char) (count pos : Nat) :
    input.agreement (chars.take count) pos = min count (input.agreement chars pos) := by
  induction chars generalizing count pos with
  | nil => simp [agreement]
  | cons c chars ih =>
    cases count with
    | zero => simp [agreement]
    | succ count =>
      simp only [List.take_succ_cons, agreement, ih]
      split
      · omega
      · simp

theorem agreement_le_length (chars : List Char) (pos : Nat) :
    input.agreement chars pos ≤ chars.length := by
  induction chars generalizing pos with
  | nil => exact Nat.le_refl _
  | cons c chars ih =>
    simp only [agreement, List.length_cons]
    split
    · exact Nat.succ_le_succ (ih _)
    · exact Nat.zero_le _

theorem take_prefix_iff (chars : List Char) (count pos : Nat) :
    chars.take count <+: input.rest pos ↔ min count chars.length ≤ input.agreement chars pos := by
  have hle : input.agreement chars pos ≤ chars.length := agreement_le_length chars pos
  rw [← agreement_eq_length_iff, agreement_take, List.length_take]
  omega

end Input

/-! ## Patterns -/

namespace Regex.Program

/-- The best match so far, or one that ends here, stops within the text. -/
theorem stop_le_of_orElse {bound pos : Nat} (hpos : pos ≤ bound) {best : Option Span}
    (hbest : ∀ span, best = some span → span.stop ≤ bound) (accepted : Option Thread)
    {span : Span} (h : ((accepted.map fun thread => ⟨thread.start, pos⟩) <|> best) = some span) :
    span.stop ≤ bound := by
  cases accepted with
  | none => exact hbest span h
  | some thread =>
    cases h
    exact hpos

theorem search_stop_le (program : Program) {before : Option Char} {rest : List Char} {pos : Nat}
    {threads : List Thread} {best : Option Span}
    (hbest : ∀ span, best = some span → span.stop ≤ pos + rest.length) {span : Span}
    (h : program.search before rest pos threads best = some span) :
    span.stop ≤ pos + rest.length := by
  induction rest generalizing before pos threads best with
  | nil =>
    unfold search at h
    exact stop_le_of_orElse (Nat.le_refl _) hbest _ h
  | cons c rest ih =>
    rw [List.length_cons] at hbest ⊢
    have hnext (accepted : Option Thread) (s : Span)
        (hs : ((accepted.map fun thread => ⟨thread.start, pos⟩) <|> best) = some s) :
        s.stop ≤ pos + 1 + rest.length := by
      have := stop_le_of_orElse (by omega) hbest accepted hs
      omega
    unfold search at h
    simp only at h
    -- a thread may start here or not, and the search may end here or not
    split at h
    all_goals
      split at h
      · exact stop_le_of_orElse (by omega) hbest _ h
      · have := ih (hnext _) h
        omega

theorem find?_stop_le {program : Program} {text : List Char} {span : Span}
    (h : program.find? text = some span) : span.stop ≤ text.length := by
  have hnone : ∀ span, (none : Option Span) = some span → span.stop ≤ 0 + text.length := by
    intro span hspan
    cases hspan
  have := search_stop_le program hnone h
  omega

end Regex.Program

theorem Pattern.matchLength?_le {pattern : Pattern} {text : List Char} {length : Nat}
    (h : pattern.matchLength? text = some length) : length ≤ text.length := by
  obtain ⟨span, hspan, rfl⟩ := Option.map_eq_some_iff.1 h
  exact Regex.Program.find?_stop_le hspan

end Packrat
