import Packrat.Proofs.Regex.Parenthesis

/-!
# Expressions after the start of the text

The reader of groups comes to the end of a text with what it comes to before a closing parenthesis
(`alike_readGroup?`). So a text that is a regular expression by itself is read as the same one in a
group, and after a caret it is tried at the start of the text alone (`read?_anchored`). Nothing of
the kind holds of a text whose own parentheses close the group.
-/

set_option autoImplicit false

namespace Packrat.Regex

section
variable {flags : Flags} {a b : List Char}

/-! ## Openings of groups -/

theorem alike_readFlags? (h : Closes a b) : Alike LeftTwo (readFlags? a) (readFlags? b) := by
  have hgo (value dangling : Bool) (seen : FlagSettings) :
      Alike LeftTwo (readFlags?.go value dangling seen a)
        (readFlags?.go value dangling seen b) := by
    induction h generalizing value dangling seen with
    | mark => exact .none _
    | swallowed => exact .none _
    | cons c h ih =>
      simp only [readFlags?.go]
      split
      · split
        · exact .none _
        · exact .some (.intro _ _ h)
      · split
        · split
          · exact ih _ _ _
          · exact .none _
        · split
          · exact ih _ _ _
          · exact .none _
  exact hgo true false []

theorem alike_readGroupName? (h : Closes a b) :
    Alike Left (readGroupName? a) (readGroupName? b) := by
  have htake := @Closes.takeWhile_eq _ _ h (· ≠ '>')
  have hdrop := h.dropWhile (· ≠ '>')
  simp only [readGroupName?]
  generalize a.dropWhile (· ≠ '>') = x at htake hdrop
  generalize b.dropWhile (· ≠ '>') = x' at hdrop
  cases hdrop with
  | mark => cases a.takeWhile (· ≠ '>') <;> exact .none _
  | swallowed => cases a.takeWhile (· ≠ '>') <;> exact .none _
  | cons c hrest =>
    rw [htake (List.cons_ne_nil _ _)]
    cases a.takeWhile (· ≠ '>') with
    | nil => exact .none _
    | cons first others =>
      simp only
      split
      · exact .some (.intro _ hrest)
      · exact .none _

theorem alike_readOpening? (h : Closes a b) :
    Alike Left (readOpening? flags a) (readOpening? flags b) := by
  have hs := h.skipSpace flags
  simp only [readOpening?]
  generalize flags.skipSpace a = a' at hs
  generalize flags.skipSpace b = b' at hs
  have hnamed {x x' : List Char} (h : Closes x x') :
      Alike Left
        ((readGroupName? x).map fun read => (Opening.group [] (some read.1), read.2))
        ((readGroupName? x').map fun read => (Opening.group [] (some read.1), read.2)) := by
    refine .map (alike_readGroupName? h) ?_
    intro name _ _ hrest
    exact .intro _ hrest
  obtain ⟨x, x', rfl, rfl, hx⟩ | ⟨ha, hb⟩ := hs.sign (by decide : '?' ≠ ')')
  · obtain ⟨y, y', rfl, rfl, hy⟩ | ⟨hequal, hequal'⟩ := hx.sign (by decide : '=' ≠ ')')
    · exact .none _
    obtain ⟨y, y', rfl, rfl, hy⟩ | ⟨hnot, hnot'⟩ := hx.sign (by decide : '!' ≠ ')')
    · exact .none _
    obtain ⟨y, y', rfl, rfl, hy⟩ | ⟨hless, hless'⟩ := hx.sign (by decide : '<' ≠ ')')
    · obtain ⟨z, z', rfl, rfl, hz⟩ | ⟨hequal, hequal'⟩ := hy.sign (by decide : '=' ≠ ')')
      · exact .none _
      obtain ⟨z, z', rfl, rfl, hz⟩ | ⟨hnot, hnot'⟩ := hy.sign (by decide : '!' ≠ ')')
      · exact .none _
      simp
      exact hnamed hy
    -- what is neither a name nor a lookaround is read as flags
    have hflags : Alike Left
        ((readFlags? x).bind fun read =>
          if read.2.1 = ':' then some (Opening.group read.1 none, read.2.2)
          else if read.1.isEmpty then none
          else some (.settings read.1, read.2.2))
        ((readFlags? x').bind fun read =>
          if read.2.1 = ':' then some (Opening.group read.1 none, read.2.2)
          else if read.1.isEmpty then none
          else some (.settings read.1, read.2.2)) := by
      refine .bindTwo (alike_readFlags? hx) ?_
      intro settings close _ _ hrest
      simp only
      split
      · exact .some (.intro _ hrest)
      · split
        · exact .none _
        · exact .some (.intro _ hrest)
    obtain ⟨y, y', rfl, rfl, hy⟩ | ⟨hname, hname'⟩ := hx.sign (by decide : 'P' ≠ ')')
    · obtain ⟨z, z', rfl, rfl, hz⟩ | ⟨hless, hless'⟩ := hy.sign (by decide : '<' ≠ ')')
      · exact hnamed hz
      · simpa [hless, hless'] using hflags
    · simpa [hequal, hequal', hnot, hnot', hless, hless', hname, hname'] using hflags
  · simp [ha, hb]
    exact .some (.intro _ hs)

/-! ## Repetitions -/

theorem left_digits (h : Closes a b) {bound bound' : Nat} (hle : a.length ≤ bound)
    (hle' : b.length ≤ bound') (value : Nat) :
    Left (readCount?.digits flags bound value a) (readCount?.digits flags bound' value b) := by
  induction bound generalizing bound' value a b with
  | zero =>
    obtain rfl : a = [] := List.length_eq_zero_iff.1 (Nat.le_zero.1 hle)
    cases h with
    | mark => cases bound' <;> exact .intro value .mark
    | swallowed => cases bound' <;> exact .intro value .swallowed
  | succ bound ih =>
    cases h with
    | mark => cases bound' <;> exact .intro value .mark
    | swallowed => cases bound' <;> exact .intro value .swallowed
    | cons c h =>
      rw [List.length_cons] at hle hle'
      obtain ⟨bound', rfl⟩ : ∃ more, bound' = more + 1 := ⟨bound' - 1, by omega⟩
      simp only [readCount?.digits]
      split
      · refine ih (h.skipSpace flags) ?_ ?_ _
        · exact Nat.le_trans (flags.length_skipSpace_le _) (by omega)
        · exact Nat.le_trans (flags.length_skipSpace_le _) (by omega)
      · exact .intro value (.cons c h)

theorem closes_blank (h : Closes a b) {bound bound' : Nat} (hle : a.length ≤ bound)
    (hle' : b.length ≤ bound') :
    Closes (readCount?.blank flags bound a) (readCount?.blank flags bound' b) := by
  induction bound generalizing bound' a b with
  | zero =>
    obtain rfl : a = [] := List.length_eq_zero_iff.1 (Nat.le_zero.1 hle)
    cases h with
    | mark => cases bound' <;> exact .mark
    | swallowed => cases bound' <;> exact .swallowed
  | succ bound ih =>
    cases h with
    | mark => cases bound' <;> exact .mark
    | swallowed => cases bound' <;> exact .swallowed
    | cons c h =>
      rw [List.length_cons] at hle hle'
      obtain ⟨bound', rfl⟩ : ∃ more, bound' = more + 1 := ⟨bound' - 1, by omega⟩
      simp only [readCount?.blank]
      split
      · refine ih (h.skipSpace flags) ?_ ?_
        · exact Nat.le_trans (flags.length_skipSpace_le _) (by omega)
        · exact Nat.le_trans (flags.length_skipSpace_le _) (by omega)
      · exact .cons c h

theorem alike_readCount? (h : Closes a b) :
    Alike Left (readCount? flags a) (readCount? flags b) := by
  have hs := h.dropWhile Unicode.isWhiteSpace
  simp only [readCount?]
  generalize a.dropWhile Unicode.isWhiteSpace = a' at hs
  generalize b.dropWhile Unicode.isWhiteSpace = b' at hs
  cases hs with
  | mark => exact .none _
  | swallowed => exact .none _
  | cons first hs =>
    simp only
    split
    · have hdigits := @left_digits flags _ _ (hs.skipSpace flags) _ _
        (flags.length_skipSpace_le _) (flags.length_skipSpace_le _) (readCount?.digit first)
      generalize readCount?.digits flags _ _ _ = read at hdigits
      generalize readCount?.digits flags _ _ _ = read' at hdigits
      obtain ⟨value, hrest⟩ := hdigits
      split
      · exact .some (.intro _ (closes_blank hrest (Nat.le_refl _) (Nat.le_refl _)))
      · exact .none _
    · exact .none _

theorem alike_readBounds? (h : Closes a b) :
    Alike LeftTwo (readBounds? flags a) (readBounds? flags b) := by
  refine .bind (alike_readCount? (h.skipSpace flags)) ?_
  intro min _ _ hrest
  obtain ⟨x, x', rfl, rfl, hx⟩ | ⟨hclose, hclose'⟩ := hrest.sign (by decide : '}' ≠ ')')
  · exact .some (.intro _ _ hx)
  obtain ⟨x, x', rfl, rfl, hx⟩ | ⟨hcomma, hcomma'⟩ := hrest.sign (by decide : ',' ≠ ')')
  · have hs := hx.skipSpace flags
    simp only
    generalize flags.skipSpace x = y at hs
    generalize flags.skipSpace x' = y' at hs
    obtain ⟨z, z', rfl, rfl, hz⟩ | ⟨hclose, hclose'⟩ := hs.sign (by decide : '}' ≠ ')')
    · exact .some (.intro _ _ hz)
    · simp only
      refine .bind (alike_readCount? hs) ?_
      intro max _ _ hafter
      obtain ⟨z, z', rfl, rfl, hz⟩ | ⟨hclose, hclose'⟩ := hafter.sign (by decide : '}' ≠ ')')
      · simp only
        split
        · exact .some (.intro _ _ hz)
        · exact .none _
      · simp [hclose, hclose', Alike.none]
  · simp only
    exact .none _

theorem left_readLazy (h : Closes a b) : Left (readLazy a) (readLazy b) := by
  obtain ⟨x, x', rfl, rfl, hx⟩ | ⟨ha, hb⟩ := h.sign (by decide : '?' ≠ ')')
  · exact .intro true hx
  · simp only [readLazy]
    exact .intro false h

/-! ## Groups -/

theorem alike_pushed (body : GroupBody) {token token' : Option (Token × List Char)}
    (h : Alike Left token token') :
    Alike Left
      (token.map fun read => (body.push { regex := read.1.regex flags }, read.2))
      (token'.map fun read => (body.push { regex := read.1.regex flags }, read.2)) := by
  refine .map h ?_
  intro token _ _ hrest
  exact .intro _ hrest

theorem alike_pushedBracket (body : GroupBody) (h : Closes a b) :
    let pushed (read : ClassPart × List Char) : GroupBody × List Char :=
      (body.push { regex := .charIn read.1.set, depth := read.1.depth + 1 }, read.2)
    Alike Left ((readBracket? flags a).map pushed) ((readBracket? flags b).map pushed) := by
  refine .map (alike_readBracket? h) ?_
  intro part _ _ hrest
  exact .intro _ hrest

theorem alike_repeatLast? (body : GroupBody) (min : Nat) (max : Option Nat) (h : Closes a b) :
    Alike Left
      ((body.repeatLast? flags min max (readLazy a).1).map fun body => (body, (readLazy a).2))
      ((body.repeatLast? flags min max (readLazy b).1).map
        fun body => (body, (readLazy b).2)) := by
  have hlazy := left_readLazy h
  generalize readLazy a = read at hlazy
  generalize readLazy b = read' at hlazy
  obtain ⟨isLazy, hrest⟩ := hlazy
  exact .same_map _ fun body => .intro body hrest

theorem alike_repeatBounded? (body : GroupBody) (h : Closes a b) :
    let repeated (read : Nat × Option Nat × List Char) : Option (GroupBody × List Char) :=
      let mark := readLazy (flags.skipSpace read.2.2)
      (body.repeatLast? flags read.1 read.2.1 mark.1).map fun body => (body, mark.2)
    Alike Left ((readBounds? flags a).bind repeated) ((readBounds? flags b).bind repeated) := by
  refine .bindTwo (alike_readBounds? h) ?_
  intro min max _ _ hrest
  exact alike_repeatLast? body min max (hrest.skipSpace flags)

theorem alike_readGroup? (h : Closes a b) {bound bound' : Nat} (hle : bound ≤ bound')
    (flags : Flags) (names : List (List Char)) (body : GroupBody) :
    Alike LeftTwo (readGroup? bound flags names body a)
      (readGroup? bound' flags names body b) := by
  induction bound generalizing bound' flags names body a b with
  | zero => exact .none _
  | succ bound ih =>
    obtain ⟨bound', rfl⟩ : ∃ more, bound' = more + 1 := ⟨bound' - 1, by omega⟩
    have hle' : bound ≤ bound' := by omega
    have hnext (body : GroupBody) {x x' : List Char} (h : Closes x x') :
        Alike LeftTwo (readGroup? bound flags names body x)
          (readGroup? bound' flags names body x') := ih h hle' flags names body
    have hs := h.skipSpace flags
    simp only [readGroup?]
    generalize flags.skipSpace a = a' at hs
    generalize flags.skipSpace b = b' at hs
    cases hs with
    | mark => exact .some (.intro _ _ .mark)
    | swallowed => exact .some (.intro _ _ .swallowed)
    | @cons c rest rest' hrest =>
      -- both texts have the same character here, so the two readers take the same case
      by_cases hclose : c = ')'
      · subst hclose
        exact .some (.intro _ _ (.cons _ hrest))
      by_cases hbar : c = '|'
      · subst hbar
        exact ih hrest hle' _ _ _
      by_cases hopen : c = '('
      · subst hopen
        simp only
        refine (alike_readOpening? hrest).elim (fun _ => .none _) ?_
        intro opening x x' hopened
        cases opening with
        | settings settings => exact ih hopened hle' _ _ _
        | group settings name? =>
          simp only
          split
          · exact .none _
          · -- where no more than the mark is left, the first text leaves the inner group open
            refine (ih hopened hle' _ _ _).elimTwo (fun _ => .none _) ?_
            intro inner names y y' hafter
            cases hafter with
            | mark => exact .none _
            | swallowed => exact .none _
            | cons c hafter =>
              by_cases hc : c = ')'
              · subst hc
                exact ih hafter hle' _ _ _
              · simp [hc, Alike.none]
      by_cases hbracket : c = '['
      · subst hbracket
        simp only
        exact (alike_pushedBracket body hrest).elim (fun _ => .none _) hnext
      by_cases hoption : c = '?'
      · subst hoption
        simp only
        exact (alike_repeatLast? body 0 (some 1) hrest).elim (fun _ => .none _) hnext
      by_cases hstar : c = '*'
      · subst hstar
        simp only
        exact (alike_repeatLast? body 0 none hrest).elim (fun _ => .none _) hnext
      by_cases hplus : c = '+'
      · subst hplus
        simp only
        exact (alike_repeatLast? body 1 none hrest).elim (fun _ => .none _) hnext
      by_cases hbrace : c = '{'
      · subst hbrace
        simp only
        exact (alike_repeatBounded? body hrest).elim (fun _ => .none _) hnext
      by_cases hslash : c = '\\'
      · subst hslash
        simp only
        exact (alike_pushed body (alike_readEscape? hrest)).elim (fun _ => .none _) hnext
      by_cases hdot : c = '.'
      · subst hdot
        simp only
        cases flags.dot with
        | none => exact .none _
        | some set => exact hnext _ hrest
      by_cases hcaret : c = '^'
      · subst hcaret
        exact hnext _ hrest
      by_cases hdollar : c = '$'
      · subst hdollar
        exact hnext _ hrest
      simp only
      exact hnext _ hrest

end

section
variable {bound : Nat} {names names' : List (List Char)} {body : GroupBody} {rest after : List Char}
  {inner : Piece}

theorem readGroup?_caret : readGroup? (bound + 1) {} names body ('^' :: rest) =
    readGroup? bound {} names (body.push { regex := .test .textStart }) rest := rfl

theorem readGroup?_nil : readGroup? (bound + 1) {} names body [] =
    some (body.whole, names, []) := rfl

theorem readOpening?_unnamed : readOpening? {} ('?' :: ':' :: rest) =
    some (.group [] none, rest) := rfl

theorem readGroup?_closed
    (h : readGroup? bound {} names {} rest = some (inner, names', ')' :: after)) :
    readGroup? (bound + 1) {} names body ('(' :: '?' :: ':' :: rest) =
      readGroup? bound {} names'
        (body.push { regex := inner.regex, depth := inner.depth + 1 }) after := by
  simp [readGroup?, Flags.skipSpace, readOpening?_unnamed, Flags.updateAll, h]

theorem readGroup?_unclosed (h : readGroup? bound {} names {} rest = some (inner, names', [])) :
    readGroup? (bound + 1) {} names body ('(' :: '?' :: ':' :: rest) = none := by
  simp [readGroup?, Flags.skipSpace, readOpening?_unnamed, Flags.updateAll, h]

end

/-- **An expression in a group that follows the start of the text** is read as a test of the start
and the expression. -/
theorem read?_anchored {source : List Char} {regex wrapped : Regex}
    (h : read? source = some regex)
    (hwrapped : read? ('^' :: '(' :: '?' :: ':' :: source ++ [')']) = some wrapped) :
    wrapped = .concat (.test .textStart) regex := by
  unfold read? at h
  split at h
  · next piece names hread =>
    obtain ⟨_, hread', ⟨_, _, hrest⟩⟩ := alike_readGroup? (Closes.append_mark source)
      (by omega : source.length + 1 ≤ source.length + 4) _ _ _ _ hread
    have hlength : ('^' :: '(' :: '?' :: ':' :: source ++ [')']).length + 1 =
        source.length + 4 + 1 + 1 := by
      simp
    unfold read? at hwrapped
    rw [hlength, List.cons_append, List.cons_append, List.cons_append, List.cons_append,
      readGroup?_caret] at hwrapped
    cases hrest with
    | swallowed =>
      rw [readGroup?_unclosed hread'] at hwrapped
      cases hwrapped
    | mark =>
      rw [readGroup?_closed hread', readGroup?_nil] at hwrapped
      simp only at hwrapped
      split at h
      · cases h
        split at hwrapped
        · cases hwrapped
          rfl
        · cases hwrapped
      · cases h
  · cases h

end Packrat.Regex
