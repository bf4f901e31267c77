import Packrat.Regex.Reader

/-!
# Texts before a parenthesis

What is read of a text is read all the same where a closing parenthesis follows the text, and the
parenthesis then follows what is left. Only a comment at the end of the text swallows it (`Closes`).
The readers of escapes and of bracketed classes keep this relation (`Alike`): no sign that they look
for is a parenthesis, and what they read to the end of the text they do not read at all.
-/

set_option autoImplicit false

namespace Packrat.Regex

/-- The second text is the first one with a closing parenthesis at its end, or a comment has
swallowed the parenthesis. -/
inductive Closes : List Char → List Char → Prop
  | mark : Closes [] [')']
  | swallowed : Closes [] []
  | cons (c : Char) {a b : List Char} (h : Closes a b) : Closes (c :: a) (c :: b)

namespace Closes

variable {a b : List Char}

theorem append_mark (a : List Char) : Closes a (a ++ [')']) := by
  induction a with
  | nil => exact .mark
  | cons c a ih => exact .cons c ih

theorem length_le (h : Closes a b) : a.length ≤ b.length := by
  induction h with
  | mark => exact Nat.zero_le _
  | swallowed => exact Nat.le_refl _
  | cons c _ ih => exact Nat.succ_le_succ ih

theorem dropWhile (h : Closes a b) (p : Char → Bool) : Closes (a.dropWhile p) (b.dropWhile p) := by
  induction h with
  | mark => cases hp : p ')' <;> simp [List.dropWhile, hp, Closes.mark, Closes.swallowed]
  | swallowed => exact .swallowed
  | cons c h ih =>
    rw [List.dropWhile_cons, List.dropWhile_cons]
    split
    · exact ih
    · exact .cons c h

theorem takeWhile_eq (h : Closes a b) {p : Char → Bool} (hne : a.dropWhile p ≠ []) :
    b.takeWhile p = a.takeWhile p := by
  induction h with
  | mark => exact absurd rfl hne
  | swallowed => rfl
  | cons c h ih =>
    rw [List.dropWhile_cons] at hne
    rw [List.takeWhile_cons, List.takeWhile_cons]
    split at hne
    · next hp => rw [if_pos hp, if_pos hp, ih hne]
    · next hp => rw [if_neg hp, if_neg hp]

theorem skipSpace_go (h : Closes a b) :
    Closes (Flags.skipSpace.outside a) (Flags.skipSpace.outside b) ∧
      Closes (Flags.skipSpace.comment a) (Flags.skipSpace.comment b) := by
  induction h with
  | mark => exact ⟨.mark, .swallowed⟩
  | swallowed => exact ⟨.swallowed, .swallowed⟩
  | cons c h ih =>
    simp only [Flags.skipSpace.outside, Flags.skipSpace.comment]
    constructor
    · split
      · exact ih.1
      · split
        · exact ih.2
        · exact .cons c h
    · split
      · exact ih.1
      · exact ih.2

theorem skipSpace (h : Closes a b) (flags : Flags) :
    Closes (flags.skipSpace a) (flags.skipSpace b) := by
  unfold Flags.skipSpace
  split
  · exact h.skipSpace_go.1
  · exact h

/-- Either text starts with a sign other than the parenthesis where the other does. -/
theorem sign (h : Closes a b) {sign : Char} (hne : sign ≠ ')') :
    (∃ rest rest', a = sign :: rest ∧ b = sign :: rest' ∧ Closes rest rest') ∨
      (∀ rest, a ≠ sign :: rest) ∧ ∀ rest, b ≠ sign :: rest := by
  cases h with
  | mark => exact .inr ⟨nofun, by simpa using Ne.symm hne⟩
  | swallowed => exact .inr ⟨nofun, nofun⟩
  | cons c h =>
    by_cases hc : c = sign
    · exact .inl ⟨_, _, by rw [hc], by rw [hc], h⟩
    · exact .inr ⟨by simp [hc], by simp [hc]⟩

theorem sign_twice (h : Closes a b) {sign : Char} (hne : sign ≠ ')') :
    (∃ rest rest', a = sign :: sign :: rest ∧ b = sign :: sign :: rest' ∧ Closes rest rest') ∨
      (∀ rest, a ≠ sign :: sign :: rest) ∧ ∀ rest, b ≠ sign :: sign :: rest := by
  obtain ⟨x, x', rfl, rfl, hx⟩ | ⟨ha, hb⟩ := h.sign hne
  · obtain ⟨rest, rest', rfl, rfl, hrest⟩ | ⟨hx, hx'⟩ := hx.sign hne
    · exact .inl ⟨rest, rest', rfl, rfl, hrest⟩
    · exact .inr ⟨by simp [hx], by simp [hx']⟩
  · exact .inr ⟨fun _ => ha _, fun _ => hb _⟩

end Closes

theorem Flags.length_skipSpace_go (a : List Char) :
    (skipSpace.outside a).length ≤ a.length ∧ (skipSpace.comment a).length ≤ a.length := by
  induction a with
  | nil => exact ⟨Nat.le_refl _, Nat.le_refl _⟩
  | cons c a ih =>
    simp only [skipSpace.outside, skipSpace.comment, List.length_cons]
    constructor
    · split
      · omega
      · split
        · omega
        · exact Nat.le_refl _
    · split <;> omega

theorem Flags.length_skipSpace_le (flags : Flags) (a : List Char) :
    (flags.skipSpace a).length ≤ a.length := by
  unfold skipSpace
  split
  · exact (length_skipSpace_go a).1
  · exact Nat.le_refl _

/-! ## What is read -/

/-- Whatever the first reads, the second reads, in the relation. -/
def Alike {α : Type} (R : α → α → Prop) (x y : Option α) : Prop :=
  ∀ a, x = some a → ∃ b, y = some b ∧ R a b

/-- The same has been read, with something left. -/
inductive Left {α : Type} : α × List Char → α × List Char → Prop
  | intro (value : α) {a b : List Char} (h : Closes a b) : Left (value, a) (value, b)

/-- The same two things have been read, with something left. -/
inductive LeftTwo {α β : Type} : α × β × List Char → α × β × List Char → Prop
  | intro (first : α) (second : β) {a b : List Char} (h : Closes a b) :
      LeftTwo (first, second, a) (first, second, b)

namespace Alike

variable {α β γ : Type} {S : β → β → Prop}

theorem none {R : α → α → Prop} (y : Option α) : Alike R none y := nofun

theorem some {R : α → α → Prop} {a b : α} (h : R a b) : Alike R (some a) (some b) := by
  intro found ha
  cases ha
  exact ⟨b, rfl, h⟩

theorem same (x : Option α) {f g : α → Option β} (hf : ∀ a, Alike S (f a) (g a)) :
    Alike S (x.bind f) (x.bind g) := by
  intro found hfound
  obtain ⟨a, rfl, hfa⟩ := Option.bind_eq_some_iff.1 hfound
  exact hf a found hfa

theorem same_map (x : Option α) {f g : α → β} (hf : ∀ a, S (f a) (g a)) :
    Alike S (x.map f) (x.map g) := by
  intro found hfound
  obtain ⟨a, rfl, rfl⟩ := Option.map_eq_some_iff.1 hfound
  exact ⟨g a, rfl, hf a⟩

/-- To show something of what becomes of two readings, it is enough to look at one that fails and
at two that read the same. -/
@[elab_as_elim]
theorem elim {motive : Option (α × List Char) → Option (α × List Char) → Prop}
    {x y : Option (α × List Char)} (h : Alike Left x y) (hnone : ∀ y, motive .none y)
    (hsome : ∀ value {a b : List Char}, Closes a b → motive (.some (value, a)) (.some (value, b))) :
    motive x y := by
  cases x with
  | none => exact hnone y
  | some read =>
    obtain ⟨_, rfl, ⟨value, hleft⟩⟩ := h read rfl
    exact hsome value hleft

theorem bind {x y : Option (α × List Char)} {f g : α × List Char → Option β} (h : Alike Left x y)
    (hf : ∀ value a b, Closes a b → Alike S (f (value, a)) (g (value, b))) :
    Alike S (x.bind f) (y.bind g) :=
  h.elim (fun _ => none _) fun value _ _ hleft => hf value _ _ hleft

theorem map {x y : Option (α × List Char)} {f g : α × List Char → β} (h : Alike Left x y)
    (hf : ∀ value a b, Closes a b → S (f (value, a)) (g (value, b))) :
    Alike S (x.map f) (y.map g) :=
  h.elim (fun _ => none _) fun value _ _ hleft => some (hf value _ _ hleft)

@[elab_as_elim]
theorem elimTwo {motive : Option (α × β × List Char) → Option (α × β × List Char) → Prop}
    {x y : Option (α × β × List Char)} (h : Alike LeftTwo x y) (hnone : ∀ y, motive .none y)
    (hsome : ∀ first second {a b : List Char}, Closes a b →
      motive (.some (first, second, a)) (.some (first, second, b))) : motive x y := by
  cases x with
  | none => exact hnone y
  | some read =>
    obtain ⟨_, rfl, ⟨first, second, hleft⟩⟩ := h read rfl
    exact hsome first second hleft

theorem bindTwo {T : γ → γ → Prop} {x y : Option (α × β × List Char)}
    {f g : α × β × List Char → Option γ} (h : Alike LeftTwo x y)
    (hf : ∀ first second a b, Closes a b →
      Alike T (f (first, second, a)) (g (first, second, b))) : Alike T (x.bind f) (y.bind g) :=
  h.elimTwo (fun _ => none _) fun first second _ _ hleft => hf first second _ _ hleft

end Alike

section
variable {flags : Flags} {a b : List Char}

/-! ## Escapes -/

theorem alike_readHexDigits? (h : Closes a b) (count value : Nat) :
    Alike Left (readHexDigits? flags count value a) (readHexDigits? flags count value b) := by
  induction count generalizing value a b with
  | zero => exact .some (.intro value h)
  | succ count ih =>
    cases h with
    | mark => exact .none _
    | swallowed => exact .none _
    | cons c h => exact .same _ fun digit => ih (h.skipSpace flags) _

theorem alike_readHexBraced? (h : Closes a b) {bound bound' : Nat} (hle : bound ≤ bound')
    (value? : Option Nat) :
    Alike Left (readHexBraced? flags bound value? a) (readHexBraced? flags bound' value? b) := by
  induction bound generalizing bound' value? a b with
  | zero => exact .none _
  | succ bound ih =>
    obtain ⟨bound', rfl⟩ : ∃ more, bound' = more + 1 := ⟨bound' - 1, by omega⟩
    cases h with
    | mark => exact .none _
    | swallowed => exact .none _
    | cons c h =>
      simp only [readHexBraced?]
      split
      · cases value? with
        | none => exact .none _
        | some value => exact .some (.intro value (h.skipSpace flags))
      · exact .same _ fun digit => ih (h.skipSpace flags) (by omega) _

theorem alike_readCharCode? (h : Closes a b) (digits : Nat) :
    Alike Left (readCharCode? flags digits a) (readCharCode? flags digits b) := by
  have hs := h.skipSpace flags
  simp only [readCharCode?]
  obtain ⟨rest, rest', ha, hb, hrest⟩ | ⟨ha, hb⟩ := hs.sign (by decide : '{' ≠ ')')
  · simp only [ha, hb]
    refine .bind (alike_readHexBraced? (hrest.skipSpace flags) ?_ none) ?_
    · exact Nat.succ_le_succ hrest.length_le
    · intro code _ _ hleft
      exact .same _ fun c => .some (.intro _ hleft)
  -- neither text starts with the sign, so both matches come to their last case
  · simp only
    refine .bind (alike_readHexDigits? hs digits 0) ?_
    intro code _ _ hleft
    simp only
    split
    · exact .none _
    · exact .same _ fun c => .some (.intro _ hleft)

theorem alike_readBraced? (h : Closes a b) {bound bound' : Nat} (hle : bound ≤ bound')
    (read : List Char) :
    Alike Left (readBraced? flags bound read a) (readBraced? flags bound' read b) := by
  induction bound generalizing bound' read a b with
  | zero => exact .none _
  | succ bound ih =>
    obtain ⟨bound', rfl⟩ : ∃ more, bound' = more + 1 := ⟨bound' - 1, by omega⟩
    have hs := h.skipSpace flags
    simp only [readBraced?]
    generalize flags.skipSpace a = a' at hs
    generalize flags.skipSpace b = b' at hs
    cases hs with
    | mark => exact .none _
    | swallowed => exact .none _
    | cons c hs =>
      by_cases hc : c = '}'
      · subst hc
        exact .some (.intro _ hs)
      · simp only
        exact ih hs (by omega) _

theorem alike_readProperty? (h : Closes a b) (complemented : Bool) :
    Alike Left (readProperty? flags complemented a) (readProperty? flags complemented b) := by
  have hs := h.skipSpace flags
  simp only [readProperty?]
  split
  · exact .none _
  · generalize flags.skipSpace a = a' at hs
    generalize flags.skipSpace b = b' at hs
    have hset {rest rest' : List Char} (h : Closes rest rest') (set? : Option CharSet) :
        Alike Left
          (set?.bind fun set => (flags.complementIf complemented set).bind fun set =>
            some (Token.set set, rest))
          (set?.bind fun set => (flags.complementIf complemented set).bind fun set =>
            some (Token.set set, rest')) :=
      .same _ fun set => .same _ fun set => .some (.intro _ h)
    cases hs with
    | mark => exact .none _
    | swallowed => exact .none _
    | cons c hs =>
      by_cases hslash : c = '\\'
      · subst hslash
        exact .none _
      · by_cases hbrace : c = '{'
        · subst hbrace
          refine .bind (alike_readBraced? hs (Nat.succ_le_succ hs.length_le) []) ?_
          intro text _ _ hleft
          exact hset hleft _
        · simp only
          exact hset (hs.skipSpace flags) _

theorem alike_readBoundary? (h : Closes a b) :
    Alike Left (readBoundary? flags a) (readBoundary? flags b) := by
  simp only [readBoundary?]
  obtain ⟨rest, rest', rfl, rfl, hrest⟩ | ⟨ha, hb⟩ := h.sign (by decide : '{' ≠ ')')
  · have hs := hrest.skipSpace flags
    simp only
    generalize flags.skipSpace rest = after at hs
    generalize flags.skipSpace rest' = after' at hs
    cases hs with
    | mark => exact .none _
    | swallowed => exact .none _
    | cons c hs =>
      simp only
      split
      · refine .bind (alike_readBraced? hrest (Nat.succ_le_succ hrest.length_le) []) ?_
        intro name _ _ hleft
        exact .same _ fun look => .some (.intro _ hleft)
      · exact .some (.intro _ (.cons _ hrest))
  · simp only
    exact .some (.intro _ h)

theorem alike_readEscape? (h : Closes a b) :
    Alike Left (readEscape? flags a) (readEscape? flags b) := by
  cases h with
  | mark => exact .none _
  | swallowed => exact .none _
  | cons c h =>
    simp only [readEscape?]
    split
    · exact alike_readCharCode? h 2
    · exact alike_readCharCode? h 4
    · exact alike_readCharCode? h 8
    · exact alike_readProperty? h false
    · exact alike_readProperty? h true
    case h_20 => exact alike_readBoundary? h
    case h_24 =>
      split
      · exact .some (.intro _ h)
      · exact .none _
    all_goals first
      | exact .some (.intro _ h)
      | exact .same_map _ fun set => .intro _ h

/-! ## Classes -/

theorem alike_readAsciiClass? (h : Closes a b) :
    Alike LeftTwo (readAsciiClass? a) (readAsciiClass? b) ∧
      (readAsciiClass? a = none → readAsciiClass? b = none) := by
  have hread {rest rest' : List Char} (h : Closes rest rest') (complemented : Bool) :
      Alike LeftTwo (readAsciiClass?.read complemented rest)
          (readAsciiClass?.read complemented rest') ∧
        (readAsciiClass?.read complemented rest = none →
          readAsciiClass?.read complemented rest' = none) := by
    have hdrop := h.dropWhile (· ≠ ':')
    have htake := @Closes.takeWhile_eq _ _ h (· ≠ ':')
    simp only [readAsciiClass?.read]
    obtain ⟨x, x', ha, hb, hx⟩ | ⟨ha, hb⟩ := hdrop.sign (by decide : ':' ≠ ')')
    · rw [ha] at htake
      rw [ha, hb, htake (List.cons_ne_nil _ _)]
      obtain ⟨y, y', rfl, rfl, hy⟩ | ⟨hx, hx'⟩ := hx.sign (by decide : ']' ≠ ')')
      · refine ⟨.same_map _ fun set => .intro _ _ hy, fun hnone => ?_⟩
        simp only [Option.map_eq_none_iff] at hnone ⊢
        exact hnone
      · simp [hx, hx', Alike.none]
    · generalize rest.dropWhile (· ≠ ':') = x at ha
      generalize rest'.dropWhile (· ≠ ':') = x' at hb
      simp [ha, hb, Alike.none]
  obtain ⟨rest, rest', rfl, rfl, hrest⟩ | ⟨ha, hb⟩ := h.sign (by decide : ':' ≠ ')')
  · obtain ⟨x, x', rfl, rfl, hx⟩ | ⟨hx, hx'⟩ := hrest.sign (by decide : '^' ≠ ')')
    · exact hread hx true
    · simp only [readAsciiClass?]
      exact hread hrest false
  · simp [readAsciiClass?, ha, hb, Alike.none]

theorem alike_readClassToken? (h : Closes a b) :
    Alike Left (readClassToken? flags a) (readClassToken? flags b) := by
  cases h with
  | mark => exact .none _
  | swallowed => exact .none _
  | cons c h =>
    by_cases hc : c = '\\'
    · subst hc
      exact alike_readEscape? h
    · simp only [readClassToken?]
      exact .some (.intro _ h)

/-- The character that follows is the same as far as a sign other than the parenthesis goes. -/
theorem peekAfter?_sign (flags : Flags) (h : Closes a b) {sign : Char} (hne : sign ≠ ')')
    (hhash : sign ≠ '#') (hspace : Unicode.isWhiteSpace sign = false) (c : Char) :
    flags.peekAfter? (c :: a) = some sign ↔ flags.peekAfter? (c :: b) = some sign := by
  obtain ⟨rest, rest', rfl, rfl, hrest⟩ | ⟨ha, hb⟩ := h.sign hne
  · simp [Flags.peekAfter?, Flags.peekAfter?.skipBlank, hspace]
  · have hhead : ¬ a.head? = some sign := by simpa [List.head?_eq_some_iff] using ha
    have hhead' : ¬ b.head? = some sign := by simpa [List.head?_eq_some_iff] using hb
    simp only [Flags.peekAfter?, Flags.peekAfter?.skipBlank, List.drop_succ_cons, List.drop_zero]
    split
    · have hs := h.dropWhile Unicode.isWhiteSpace
      generalize a.dropWhile Unicode.isWhiteSpace = a' at hs
      generalize b.dropWhile Unicode.isWhiteSpace = b' at hs
      cases hs with
      | mark => simp [hhead, hne.symm]
      | swallowed => simp [hhead, hhead']
      | cons c hs =>
        by_cases hc : c = '#'
        · subst hc
          have hs' := hs.dropWhile Unicode.isWhiteSpace
          simp only
          generalize List.dropWhile Unicode.isWhiteSpace _ = a' at hs'
          generalize List.dropWhile Unicode.isWhiteSpace _ = b' at hs'
          cases hs' with
          | mark => simp [hhead, hne.symm]
          | swallowed => simp [hhead, hhead']
          | cons c hs' => rfl
        · simp only
    · simp [hhead, hhead']

theorem alike_readClassRange? (h : Closes a b) :
    Alike Left (readClassRange? flags a) (readClassRange? flags b) := by
  refine .bind (alike_readClassToken? h) ?_
  intro first _ _ hrest
  have hfirst {rest rest' : List Char} (h : Closes rest rest') :
      Alike Left ((first.classSet? flags).bind fun set => some (⟨set, 0⟩, rest))
        ((first.classSet? flags).bind fun set => some ((⟨set, 0⟩ : ClassPart), rest')) :=
    .same _ fun set => .some (.intro _ h)
  have hs := hrest.skipSpace flags
  simp only
  generalize flags.skipSpace _ = a' at hs
  generalize flags.skipSpace _ = b' at hs
  obtain ⟨rest, rest', rfl, rfl, hfollowing⟩ | ⟨ha, hb⟩ := hs.sign (by decide : '-' ≠ ')')
  · have hclose := peekAfter?_sign flags hfollowing (by decide : ']' ≠ ')')
      (by decide) (by decide +kernel) '-'
    have hhyphen := peekAfter?_sign flags hfollowing (by decide : '-' ≠ ')')
      (by decide) (by decide +kernel) '-'
    simp only [hclose, hhyphen]
    split
    · exact hfirst hs
    · refine .bind (alike_readClassToken? (hfollowing.skipSpace flags)) ?_
      intro last _ _ hlast
      refine .same _ fun lo => .same _ fun hi => ?_
      split
      · exact .some (.intro _ hlast)
      · exact .none _
  · simp only
    exact hfirst hs

theorem readHyphens_of_ne (ha : ∀ rest, a ≠ '-' :: rest) (bound : Nat) (body : ClassBody) :
    readHyphens flags bound body a = (body, a) := by
  unfold readHyphens
  split
  · exact absurd rfl (ha _)
  · rfl

theorem left_readHyphens (h : Closes a b) {bound bound' : Nat} (hle : a.length ≤ bound)
    (hle' : b.length ≤ bound') (body : ClassBody) :
    Left (readHyphens flags bound body a) (readHyphens flags bound' body b) := by
  induction bound generalizing bound' body a b with
  | zero =>
    have hnil : a = [] := List.length_eq_zero_iff.1 (Nat.le_zero.1 hle)
    obtain ⟨rest, rest', rfl, -⟩ | ⟨ha, hb⟩ := h.sign (by decide : '-' ≠ ')')
    · cases hnil
    · rw [readHyphens_of_ne ha, readHyphens_of_ne hb]
      exact .intro _ h
  | succ bound ih =>
    obtain ⟨rest, rest', rfl, rfl, hrest⟩ | ⟨ha, hb⟩ := h.sign (by decide : '-' ≠ ')')
    · have hskip := flags.length_skipSpace_le rest
      have hskip' := flags.length_skipSpace_le rest'
      rw [List.length_cons] at hle hle'
      obtain ⟨bound', rfl⟩ : ∃ more, bound' = more + 1 := ⟨bound' - 1, by omega⟩
      exact ih (hrest.skipSpace flags) (by omega) (by omega) _
    · rw [readHyphens_of_ne ha, readHyphens_of_ne hb]
      exact .intro _ h

theorem leftTwo_readClassStart (h : Closes a b) :
    LeftTwo (readClassStart flags a) (readClassStart flags b) := by
  have hs := h.skipSpace flags
  simp only [readClassStart]
  generalize flags.skipSpace a = x at hs
  generalize flags.skipSpace b = x' at hs
  obtain ⟨rest, rest', rfl, rfl, hrest⟩ | ⟨ha, hb⟩ := hs.sign (by decide : '^' ≠ ')')
  case' inl =>
    replace hs := hrest.skipSpace flags
    simp only
    generalize flags.skipSpace rest = x at hs
    generalize flags.skipSpace rest' = x' at hs
  case' inr => simp only
  -- from here on it does not matter whether there was a caret
  all_goals
    have hleft : Left (readHyphens flags x.length {} x) (readHyphens flags x'.length {} x') :=
      left_readHyphens hs (Nat.le_refl _) (Nat.le_refl _) {}
    generalize readHyphens flags x.length {} x = read at hleft
    generalize readHyphens flags x'.length {} x' = read' at hleft
    obtain ⟨body, hrest⟩ := hleft
    cases hparts : body.parts with
    | cons part parts =>
      simp only
      exact .intro _ _ hrest
    | nil =>
      obtain ⟨rest, rest', rfl, rfl, h⟩ | ⟨ha, hb⟩ := hrest.sign (by decide : ']' ≠ ')')
      · simp only
        exact .intro _ _ (h.skipSpace flags)
      · simp [ha, hb]
        exact .intro _ _ hrest

theorem alike_readClassBody? (h : Closes a b) {bound bound' : Nat} (hle : bound ≤ bound')
    (complemented : Bool) (body : ClassBody) :
    Alike Left (readClassBody? flags bound complemented body a)
      (readClassBody? flags bound' complemented body b) := by
  induction bound generalizing bound' complemented body a b with
  | zero => exact .none _
  | succ bound ih =>
    obtain ⟨bound', rfl⟩ : ∃ more, bound' = more + 1 := ⟨bound' - 1, by omega⟩
    have hle' : bound ≤ bound' := by omega
    have hs := h.skipSpace flags
    simp only [readClassBody?]
    generalize flags.skipSpace a = a' at hs
    generalize flags.skipSpace b = b' at hs
    obtain ⟨rest, rest', rfl, rfl, hrest⟩ | ⟨hopen, hopen'⟩ := hs.sign (by decide : '[' ≠ ')')
    · obtain ⟨hnamed, hnone⟩ := alike_readAsciiClass? hrest
      cases hread : readAsciiClass? rest with
      | none =>
        have hstart : LeftTwo (readClassStart flags rest) (readClassStart flags rest') :=
          leftTwo_readClassStart hrest
        -- no name of a class follows, so the bracket opens a class in the class
        simp only [hread, hnone hread]
        generalize readClassStart flags rest = start at hstart
        generalize readClassStart flags rest' = start' at hstart
        obtain ⟨complementedInner, inner, hinner⟩ := hstart
        refine .bind (ih hinner hle' _ _) ?_
        intro part _ _ hpart
        exact ih hpart hle' _ _
      | some read =>
        obtain ⟨_, hread', ⟨complementedName, set, hset⟩⟩ := hnamed read hread
        simp only [hread, hread']
        exact .same _ fun set => ih hset hle' _ _
    obtain ⟨rest, rest', rfl, rfl, hrest⟩ | ⟨hclose, hclose'⟩ := hs.sign (by decide : ']' ≠ ')')
    · exact .same _ fun set => .some (.intro _ hrest)
    obtain ⟨rest, rest', rfl, rfl, hrest⟩ | ⟨hand, hand'⟩ :=
      hs.sign_twice (by decide : '&' ≠ ')')
    · exact ih hrest hle' _ _
    obtain ⟨rest, rest', rfl, rfl, hrest⟩ | ⟨hminus, hminus'⟩ :=
      hs.sign_twice (by decide : '-' ≠ ')')
    · exact ih hrest hle' _ _
    obtain ⟨rest, rest', rfl, rfl, hrest⟩ | ⟨htilde, htilde'⟩ :=
      hs.sign_twice (by decide : '~' ≠ ')')
    · exact ih hrest hle' _ _
    cases hs with
    | mark => exact .none _
    | swallowed => exact .none _
    | cons c hs =>
      simp only
      refine .bind (alike_readClassRange? (.cons c hs)) ?_
      intro part _ _ hpart
      exact ih hpart hle' _ _

theorem alike_readBracket? (h : Closes a b) :
    Alike Left (readBracket? flags a) (readBracket? flags b) := by
  have hstart : LeftTwo (readClassStart flags a) (readClassStart flags b) :=
    leftTwo_readClassStart h
  simp only [readBracket?]
  generalize readClassStart flags a = start at hstart
  generalize readClassStart flags b = start' at hstart
  obtain ⟨complemented, body, hrest⟩ := hstart
  exact alike_readClassBody? hrest (Nat.succ_le_succ hrest.length_le) complemented body

end

end Packrat.Regex
