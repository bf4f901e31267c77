import Packrat.Expr

/-!
# What a description denotes

Read by precedence, a text denotes an expression (`Denotes`): suffixes bind closest, then the signs
of lookahead, then sequences and last choices, and parentheses make an atom of everything. It
denotes one at most (`Denotes.eq`), as each kind of text can be told from what may follow it
(`Denotes.unique`).
-/

set_option autoImplicit false

namespace Packrat.Description

/-! ## Signs -/

/-- What may stand behind an expression. -/
inductive Suffix
  | zeroOrMore
  | oneOrMore
  | optional
  deriving DecidableEq, Repr

namespace Suffix

def sign : Suffix → Char
  | zeroOrMore => '*'
  | oneOrMore => '+'
  | optional => '?'

def apply : Suffix → Expr → Expr
  | zeroOrMore, expr => .zeroOrMore expr
  | oneOrMore, expr => .oneOrMore expr
  | optional, expr => .optional expr

theorem sign_injective {suffix other : Suffix} (h : suffix.sign = other.sign) :
    suffix = other := by
  cases suffix <;> cases other <;> simp_all [sign]

theorem isAlphabetic_sign (suffix : Suffix) : Unicode.isAlphabetic suffix.sign = false := by
  cases suffix <;> rfl

end Suffix

/-- What may stand before an expression. -/
inductive Lookahead
  | followedBy
  | notFollowedBy
  deriving DecidableEq, Repr

namespace Lookahead

def sign : Lookahead → Char
  | followedBy => '&'
  | notFollowedBy => '!'

def apply : Lookahead → Expr → Expr
  | followedBy, expr => .followedBy expr
  | notFollowedBy, expr => .notFollowedBy expr

theorem sign_injective {lookahead other : Lookahead} (h : lookahead.sign = other.sign) :
    lookahead = other := by
  cases lookahead <;> cases other <;> simp_all [sign]

theorem isAlphabetic_sign (lookahead : Lookahead) :
    Unicode.isAlphabetic lookahead.sign = false := by
  cases lookahead <;> rfl

theorem sign_ne (lookahead : Lookahead) : lookahead.sign ≠ '(' ∧ lookahead.sign ≠ '/' := by
  cases lookahead <;> decide

end Lookahead

/-! ## Texts and expressions -/

/-- How closely the signs in a text bind, from those that bind closest. -/
inductive Level
  /-- A name or something in parentheses. -/
  | atom
  /-- An atom with suffixes. -/
  | suffixed
  /-- A part of a sequence: signs of lookahead before an atom with suffixes. -/
  | part
  | sequence
  | choice
  deriving DecidableEq, Repr

/-- Read at the level, the text denotes the expression. -/
inductive Denotes : Level → List Char → Expr → Prop
  | name {name : String} (hne : name.toList ≠ [])
      (h : ∀ c ∈ name.toList, Unicode.isAlphabetic c = true) :
      Denotes .atom name.toList (.ruleRef name)
  | group {text : List Char} {expr : Expr} (inner : Denotes .choice text expr) :
      Denotes .atom ('(' :: (text ++ [')'])) expr
  | suffixed {text : List Char} {expr : Expr} (h : Denotes .atom text expr)
      (suffixes : List Suffix) :
      Denotes .suffixed (text ++ suffixes.map Suffix.sign)
        (suffixes.foldl (fun expr suffix => suffix.apply expr) expr)
  | plain {text : List Char} {expr : Expr} (h : Denotes .suffixed text expr) :
      Denotes .part text expr
  | lookahead (lookahead : Lookahead) {text : List Char} {expr : Expr}
      (h : Denotes .part text expr) :
      Denotes .part (lookahead.sign :: text) (lookahead.apply expr)
  | last {text : List Char} {expr : Expr} (h : Denotes .part text expr) :
      Denotes .sequence text (.sequence [expr])
  | next {text text' : List Char} {expr : Expr} {exprs : List Expr}
      (first : Denotes .part text expr) (rest : Denotes .sequence text' (.sequence exprs)) :
      Denotes .sequence (text ++ ' ' :: text') (.sequence (expr :: exprs))
  | lastAlternative {text : List Char} {expr : Expr} (h : Denotes .sequence text expr) :
      Denotes .choice text (.choice [expr])
  | nextAlternative {text text' : List Char} {expr : Expr} {exprs : List Expr}
      (first : Denotes .sequence text expr) (rest : Denotes .choice text' (.choice exprs)) :
      Denotes .choice (text ++ ' ' :: '/' :: ' ' :: text') (.choice (expr :: exprs))

variable {level : Level} {text after : List Char} {expr : Expr}

/-- A text of the level may begin with the character. -/
def Opens : Level → Char → Prop
  | .atom, c | .suffixed, c => Unicode.isAlphabetic c = true ∨ c = '('
  | .part, c | .sequence, c | .choice, c =>
    Unicode.isAlphabetic c = true ∨ c = '(' ∨ ∃ lookahead : Lookahead, c = lookahead.sign

theorem Denotes.head (h : Denotes level text expr) :
    ∃ c rest, text = c :: rest ∧ Opens level c := by
  induction h with
  | @name name hne h =>
    obtain ⟨c, rest, hc⟩ := List.exists_cons_of_ne_nil hne
    exact ⟨c, rest, hc, .inl (h c (hc ▸ .head _))⟩
  | group => exact ⟨'(', _, rfl, .inr rfl⟩
  | suffixed _ suffixes ih =>
    obtain ⟨c, rest, rfl, hc⟩ := ih
    exact ⟨c, _, rfl, hc⟩
  | plain _ ih =>
    obtain ⟨c, rest, rfl, hc⟩ := ih
    exact ⟨c, rest, rfl, hc.imp_right .inl⟩
  | lookahead lookahead => exact ⟨_, _, rfl, .inr (.inr ⟨lookahead, rfl⟩)⟩
  | last _ ih => exact ih
  | next _ _ ih _ =>
    obtain ⟨c, rest, rfl, hc⟩ := ih
    exact ⟨c, _, rfl, hc⟩
  | lastAlternative _ ih => exact ih
  | nextAlternative _ _ ih _ =>
    obtain ⟨c, rest, rfl, hc⟩ := ih
    exact ⟨c, _, rfl, hc⟩

theorem not_opens_slash : ¬ Opens level '/' := by
  have hslash : ¬ Unicode.isAlphabetic '/' = true := by decide
  have hsign (lookahead : Lookahead) : '/' ≠ lookahead.sign := lookahead.sign_ne.2.symm
  cases level <;> simp [Opens, hslash, hsign]

/-! ## What may follow -/

/-- What stands behind a text of the level does not go on with it. -/
def Ends (level : Level) : List Char → Prop
  | [] => True
  | c :: rest => Unicode.isAlphabetic c = false ∧
      (level ≠ .atom → ∀ suffix : Suffix, c ≠ suffix.sign) ∧
      (level = .sequence → c = ' ' → rest.head? = some '/') ∧ (level = .choice → c ≠ ' ')

namespace Ends

theorem closing (level : Level) (rest : List Char) : Ends level (')' :: rest) :=
  ⟨rfl, fun _ suffix => by cases suffix <;> decide, fun _ => nofun, fun _ => nofun⟩

theorem blank (rest : List Char) : Ends .part (' ' :: rest) :=
  ⟨rfl, fun _ suffix => by cases suffix <;> decide, nofun, nofun⟩

theorem slash (rest : List Char) : Ends .sequence (' ' :: '/' :: rest) :=
  ⟨rfl, fun _ suffix => by cases suffix <;> decide, fun _ _ => rfl, nofun⟩

/-- What ends a text that may have suffixes ends whatever stands last in it, but for sequences. -/
theorem inner {inner : Level} (h : Ends level after) (hlevel : level ≠ .atom)
    (hinner : inner ≠ .sequence ∧ inner ≠ .choice) : Ends inner after := by
  cases after with
  | nil => trivial
  | cons c rest =>
    obtain ⟨hword, hsuffix, -, -⟩ := h
    exact ⟨hword, fun _ => hsuffix hlevel, fun he => absurd he hinner.1,
      fun he => absurd he hinner.2⟩

theorem suffixed (h : Ends .part after) : Ends .suffixed after := h.inner nofun ⟨nofun, nofun⟩

theorem part (h : Ends .sequence after) : Ends .part after := h.inner nofun ⟨nofun, nofun⟩

theorem sequence (h : Ends .choice after) : Ends .sequence after := by
  cases after with
  | nil => trivial
  | cons c rest =>
    obtain ⟨hword, hsuffix, -, hblank⟩ := h
    exact ⟨hword, fun _ => hsuffix nofun, fun _ he => absurd he (hblank rfl), nofun⟩

theorem suffixes (h : Ends .suffixed after) (suffixes : List Suffix) :
    Ends .atom (suffixes.map Suffix.sign ++ after) := by
  cases suffixes with
  | nil => exact h.inner nofun ⟨nofun, nofun⟩
  | cons suffix suffixes => exact ⟨suffix.isAlphabetic_sign, fun he => absurd rfl he, nofun, nofun⟩

theorem not_next (h : Denotes .sequence text expr) : ¬ Ends .sequence (' ' :: (text ++ after)) := by
  rintro ⟨-, -, hslash, -⟩
  obtain ⟨c, rest, rfl, hc⟩ := h.head
  cases hslash rfl rfl
  exact not_opens_slash hc

theorem not_alternative (rest : List Char) : ¬ Ends .choice (' ' :: rest) :=
  fun ⟨_, _, _, hblank⟩ => hblank rfl rfl

end Ends

/-! ## One expression at most -/

theorem word_ne_opening {word rest : List Char} (hne : word ≠ [])
    (h : ∀ c ∈ word, Unicode.isAlphabetic c = true) : word ++ after ≠ '(' :: rest := by
  obtain ⟨c, word, rfl⟩ := List.exists_cons_of_ne_nil hne
  intro heq
  obtain ⟨rfl, -⟩ := List.cons.inj heq
  exact absurd (h _ (.head _)) (by decide)

theorem Denotes.ne_sign (h : Denotes .suffixed text expr) {lookahead : Lookahead}
    {rest : List Char} : text ++ after ≠ lookahead.sign :: rest := by
  obtain ⟨c, _, rfl, hc⟩ := h.head
  intro heq
  obtain ⟨rfl, -⟩ := List.cons.inj heq
  rcases hc with hc | hc
  · exact Bool.false_ne_true (lookahead.isAlphabetic_sign.symm.trans hc)
  · exact lookahead.sign_ne.1 hc

theorem takeWhile_word (htext : ∀ c ∈ text, Unicode.isAlphabetic c = true)
    (hafter : Ends level after) : (text ++ after).takeWhile Unicode.isAlphabetic = text := by
  rw [List.takeWhile_append_of_pos htext]
  cases after with
  | nil => simp
  | cons c rest => rw [List.takeWhile_cons_of_neg (by simp [hafter.1]), List.append_nil]

theorem suffixes_unique {suffixes others : List Suffix} {after' : List Char}
    (hafter : Ends .suffixed after) (hafter' : Ends .suffixed after')
    (heq : suffixes.map Suffix.sign ++ after = others.map Suffix.sign ++ after') :
    suffixes = others := by
  induction suffixes generalizing others with
  | nil =>
    cases others with
    | nil => rfl
    | cons other others =>
      obtain rfl : after = _ := heq
      exact absurd rfl (hafter.2.1 nofun other)
  | cons suffix suffixes ih =>
    cases others with
    | nil =>
      obtain rfl : _ = after' := heq
      exact absurd rfl (hafter'.2.1 nofun suffix)
    | cons other others =>
      obtain ⟨hsign, heq⟩ := List.cons.inj heq
      rw [Suffix.sign_injective hsign, ih heq]

/-- **What begins a text denotes one expression at most**, if what follows does not go on with it.
By induction on what is denoted: the heads of two equal texts tell which rule is the last one of
both, and the parts end where they do in both. -/
theorem Denotes.unique (h : Denotes level text expr) {text' after' : List Char} {expr' : Expr}
    (h' : Denotes level text' expr') (hafter : Ends level after) (hafter' : Ends level after')
    (heq : text ++ after = text' ++ after') : text = text' ∧ expr = expr' := by
  induction h generalizing after text' expr' after' with
  | @name name hne hname =>
    cases h' with
    | @name name' _ hname' =>
      -- both names are the letters that the common text begins with
      have hword := congrArg (List.takeWhile Unicode.isAlphabetic) heq
      rw [takeWhile_word hname hafter, takeWhile_word hname' hafter', String.toList_inj] at hword
      subst hword
      exact ⟨rfl, rfl⟩
    | group => exact absurd heq (word_ne_opening hne hname)
  | group inner ih =>
    cases h' with
    | name hne' hname' => exact absurd heq.symm (word_ne_opening hne' hname')
    | group inner' =>
      simp only [List.cons_append, List.append_assoc, List.nil_append, List.cons.injEq,
        true_and] at heq
      obtain ⟨rfl, rfl⟩ := ih inner' (.closing _ _) (.closing _ _) heq
      exact ⟨rfl, rfl⟩
  | suffixed h suffixes ih =>
    cases h' with
    | suffixed h' suffixes' =>
      rw [List.append_assoc, List.append_assoc] at heq
      obtain ⟨rfl, rfl⟩ := ih h' (hafter.suffixes _) (hafter'.suffixes _) heq
      rw [suffixes_unique hafter hafter' (List.append_cancel_left heq)]
      exact ⟨rfl, rfl⟩
  | plain h ih =>
    cases h' with
    | plain h' =>
      exact ih h' hafter.suffixed hafter'.suffixed heq
    | lookahead => exact absurd heq h.ne_sign
  | lookahead lookahead h ih =>
    cases h' with
    | plain h' => exact absurd heq.symm h'.ne_sign
    | lookahead other h' =>
      obtain ⟨hsign, heq⟩ := List.cons.inj heq
      obtain ⟨rfl, rfl⟩ := ih h' hafter hafter' heq
      rw [Lookahead.sign_injective hsign]
      exact ⟨rfl, rfl⟩
  | last h ih =>
    cases h' with
    | last h' =>
      obtain ⟨rfl, rfl⟩ := ih h' hafter.part hafter'.part heq
      exact ⟨rfl, rfl⟩
    | next first' rest' =>
      -- the first parts are the same, so a blank would stand behind the whole text
      rw [List.append_assoc, List.cons_append] at heq
      obtain ⟨rfl, -⟩ := ih first' hafter.part (.blank _) heq
      exact absurd (List.append_cancel_left heq ▸ hafter) (Ends.not_next rest')
  | next first rest ihfirst ihrest =>
    cases h' with
    | last h' =>
      rw [List.append_assoc, List.cons_append] at heq
      obtain ⟨rfl, -⟩ := ihfirst h' (.blank _) hafter'.part heq
      exact absurd (List.append_cancel_left heq ▸ hafter') (Ends.not_next rest)
    | next first' rest' =>
      simp only [List.append_assoc, List.cons_append] at heq
      obtain ⟨rfl, rfl⟩ := ihfirst first' (.blank _) (.blank _) heq
      obtain ⟨rfl, hexprs⟩ := ihrest rest' hafter hafter'
        (List.tail_eq_of_cons_eq (List.append_cancel_left heq))
      cases hexprs
      exact ⟨rfl, rfl⟩
  | lastAlternative h ih =>
    cases h' with
    | lastAlternative h' =>
      obtain ⟨rfl, rfl⟩ := ih h' hafter.sequence hafter'.sequence heq
      exact ⟨rfl, rfl⟩
    | nextAlternative first' rest' =>
      simp only [List.append_assoc, List.cons_append] at heq
      obtain ⟨rfl, -⟩ := ih first' hafter.sequence (.slash _) heq
      exact absurd (List.append_cancel_left heq ▸ hafter) (Ends.not_alternative _)
  | nextAlternative first rest ihfirst ihrest =>
    cases h' with
    | lastAlternative h' =>
      simp only [List.append_assoc, List.cons_append] at heq
      obtain ⟨rfl, -⟩ := ihfirst h' (.slash _) hafter'.sequence heq
      exact absurd (List.append_cancel_left heq ▸ hafter') (Ends.not_alternative _)
    | nextAlternative first' rest' =>
      simp only [List.append_assoc, List.cons_append] at heq
      obtain ⟨rfl, rfl⟩ := ihfirst first' (.slash _) (.slash _) heq
      have hrest := List.append_cancel_left heq
      simp only [List.cons.injEq, true_and] at hrest
      obtain ⟨rfl, hexprs⟩ := ihrest rest' hafter hafter' hrest
      cases hexprs
      exact ⟨rfl, rfl⟩

/-- **A text denotes one expression at most.** -/
theorem Denotes.eq {other : Expr} (h : Denotes level text expr) (h' : Denotes level text other) :
    expr = other :=
  (@Denotes.unique _ _ [] _ h _ [] _ h' trivial trivial rfl).2

end Packrat.Description
