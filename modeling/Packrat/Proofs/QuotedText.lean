import Mathlib.Algebra.Ring.Parity
import Mathlib.Data.List.DropRight
import Packrat.Text.Quoted

/-!
# Reading quoted text

Text between quotation marks can be read back whatever follows it (`Text.unescape?_escape`), so the
written form tells where it ends (`Text.quoted_append_inj`); with no mark behind it, it is read to
the end (`Text.decode?_escape`). The end can also be found without reading: a quotation mark of the
text is written behind an odd number of backslashes (`Text.odd_backslashes`), and the closing one
stands behind an even number (`Text.even_backslashes`). A text without commas ends just as plainly
at the comma after it (`Text.append_comma_inj`).
-/

set_option autoImplicit false

namespace Packrat.Text

/-- What a character stands for after a backslash. -/
def unescapeChar : Char → Char
  | 't' => '\t'
  | 'n' => '\n'
  | 'r' => '\r'
  | c => c

/-- Reads up to the closing quotation mark: the text, and what follows the mark. -/
def unescape? : List Char → Option (List Char × List Char)
  | [] => none
  | '\"' :: rest => some ([], rest)
  | '\\' :: c :: rest =>
    (unescape? rest).map fun (text, after) => (unescapeChar c :: text, after)
  | c :: rest => (unescape? rest).map fun (text, after) => (c :: text, after)

theorem unescape?_escapeChar (c : Char) (rest : List Char) :
    unescape? (escapeChar '\"' c ++ rest) =
      (unescape? rest).map fun (text, after) => (c :: text, after) := by
  unfold escapeChar
  split
  · rfl
  · rfl
  · rfl
  · rfl
  · next hbackslash htab hfeed hreturn =>
    by_cases hquote : c = '\"'
    · subst hquote
      rfl
    · rw [if_neg hquote]
      exact unescape?.eq_4 c rest hquote fun d rest' hd => absurd hd hbackslash

/-- **Escaped text is read back** up to the quotation mark behind it. -/
theorem unescape?_escape (text rest : List Char) :
    unescape? (text.flatMap (escapeChar '\"') ++ '\"' :: rest) = some (text, rest) := by
  induction text with
  | nil => rfl
  | cons c text ih =>
    rw [List.flatMap_cons, List.append_assoc, unescape?_escapeChar, ih]
    rfl

theorem toList_escape (text : String) :
    (escape text).toList = text.toList.flatMap (escapeChar '\"') := by
  rw [escape, String.toList_ofList]

theorem toList_quoted (text : String) :
    (quoted text).toList = '\"' :: (text.toList.flatMap (escapeChar '\"') ++ ['\"']) := by
  unfold quoted
  simp [toList_escape]

theorem quoted_append_inj {a b : String} {r s : List Char}
    (h : (quoted a).toList ++ r = (quoted b).toList ++ s) : a = b ∧ r = s := by
  rw [toList_quoted, toList_quoted, List.cons_append, List.cons_append, List.append_assoc,
    List.append_assoc] at h
  have hread := congrArg unescape? (List.cons.inj h).2
  rw [List.singleton_append, List.singleton_append, unescape?_escape, unescape?_escape] at hread
  obtain ⟨htext, hafter⟩ := Prod.mk.inj (Option.some.inj hread)
  exact ⟨String.toList_inj.1 htext, hafter⟩

/-- Reads escaped text up to the quotation mark that closes it or, where none does, to the end. -/
def decode? (written : String) : Option String :=
  (unescape? (written.toList ++ ['\"'])).map fun (text, _) => String.ofList text

/-- **Escaped text is read back** also with no quotation mark behind it. -/
theorem decode?_escape (text : String) : decode? (escape text) = some text := by
  rw [decode?, toList_escape, unescape?_escape]
  simp

theorem decode?_escape_append (text rest : String) :
    decode? (escape text ++ "\"" ++ rest) = some text := by
  have hwritten : (escape text ++ "\"" ++ rest).toList ++ ['\"'] =
      text.toList.flatMap (escapeChar '\"') ++ '\"' :: (rest.toList ++ ['\"']) := by
    simp [toList_escape]
  rw [decode?, hwritten, unescape?_escape]
  simp

/-! ## What escaped text is made of -/

/-- What stands behind a backslash in escaped text. -/
def escapeLetters : List Char := ['\\', 't', 'n', 'r', '\"']

/-- A character is written as it is or, if it must not be, as a backslash and another one. -/
theorem escapeChar_cases (c : Char) :
    (∃ d ∈ escapeLetters, escapeChar '\"' c = ['\\', d]) ∨
      c ∉ ['\\', '\t', '\n', '\r', '\"'] ∧ escapeChar '\"' c = [c] := by
  unfold escapeChar
  split
  · exact .inl ⟨'\\', by decide, rfl⟩
  · exact .inl ⟨'t', by decide, rfl⟩
  · exact .inl ⟨'n', by decide, rfl⟩
  · exact .inl ⟨'r', by decide, rfl⟩
  · by_cases hquote : c = '\"'
    · subst hquote
      exact .inl ⟨'\"', by decide, rfl⟩
    · rw [if_neg hquote]
      simp_all

theorem not_mem_escapeLetters {c : Char} (hc : c ∈ ['\t', '\n', '\r']) : c ∉ escapeLetters := by
  simp only [List.mem_cons, List.not_mem_nil, or_false] at hc
  rcases hc with rfl | rfl | rfl <;> decide

theorem not_mem_escape {c : Char} (hc : c ∈ ['\t', '\n', '\r']) (text : String) :
    c ∉ (escape text).toList := by
  rw [toList_escape, List.mem_flatMap]
  rintro ⟨d, -, hmem⟩
  obtain ⟨e, he, hescaped⟩ | ⟨hd, hescaped⟩ := escapeChar_cases d
  · rw [hescaped, List.mem_cons, List.mem_singleton] at hmem
    have hletter : c ∈ escapeLetters := by
      rcases hmem with rfl | rfl
      · exact List.mem_cons_self
      · exact he
    exact not_mem_escapeLetters hc hletter
  · rw [hescaped] at hmem
    obtain rfl := List.mem_singleton.1 hmem
    simp_all

/-- The number of backslashes at the end of a text. -/
def backslashes (text : List Char) : Nat := (text.rtakeWhile (· = '\\')).length

theorem backslashes_append (text more : List Char) :
    backslashes (text ++ more) =
      if more.all (· = '\\') then backslashes text + backslashes more else backslashes more := by
  unfold backslashes
  induction more using List.reverseRecOn with
  | nil => simp
  | append_singleton more c ih =>
    rw [← List.append_assoc, List.rtakeWhile_concat, List.rtakeWhile_concat]
    by_cases hc : c = '\\'
    · simp only [hc, decide_true, if_true, List.length_append, ih, List.all_append, List.all_cons,
        List.all_nil, Bool.and_true]
      split <;> omega
    · simp [hc]

theorem even_backslashes_escapeChar (c : Char) : Even (backslashes (escapeChar '\"' c)) := by
  obtain ⟨d, hd, hescaped⟩ | ⟨hc, hescaped⟩ := escapeChar_cases c
  · rw [hescaped]
    simp only [escapeLetters, List.mem_cons, List.not_mem_nil, or_false] at hd
    rcases hd with rfl | rfl | rfl | rfl | rfl <;> decide
  · have hnone : backslashes [c] = 0 := by
      rw [backslashes, ← List.nil_append [c], List.rtakeWhile_concat_neg]
      · rfl
      · simp_all
    rw [hescaped, hnone]
    exact ⟨0, rfl⟩

/-- The characters before do not change whether the number is even: each of them is written with an
even number of backslashes at its end. -/
theorem even_backslashes_escapeChar_append (c : Char) (text : List Char) :
    Even (backslashes (escapeChar '\"' c ++ text)) ↔ Even (backslashes text) := by
  rw [backslashes_append]
  split
  · rw [Nat.even_add]
    exact ⟨fun h => h.1 (even_backslashes_escapeChar c),
      fun h => iff_of_true (even_backslashes_escapeChar c) h⟩
  · rfl

/-- **The closing quotation mark** stands behind an even number of backslashes. -/
theorem even_backslashes (text : List Char) :
    Even (backslashes (text.flatMap (escapeChar '\"'))) := by
  induction text with
  | nil => exact ⟨0, rfl⟩
  | cons c text ih => rwa [List.flatMap_cons, even_backslashes_escapeChar_append]

theorem eq_of_escapeChar_eq {c : Char} {before after : List Char}
    (h : escapeChar '\"' c = before ++ '\"' :: after) : before = ['\\'] := by
  obtain ⟨d, -, hescaped⟩ | ⟨hc, hescaped⟩ := escapeChar_cases c
  · rw [hescaped] at h
    cases before with
    | nil => simp at h
    | cons b before =>
      obtain ⟨rfl, htail⟩ := List.cons.inj h
      cases before with
      | nil => rfl
      | cons b' before => simp at htail
  · have hmem : '\"' ∈ escapeChar '\"' c := by rw [h]; simp
    rw [hescaped, List.mem_singleton] at hmem
    subst hmem
    exact absurd (by decide) hc

/-- **A quotation mark in escaped text** stands behind an odd number of backslashes. -/
theorem odd_backslashes {text before after : List Char}
    (h : text.flatMap (escapeChar '\"') = before ++ '\"' :: after) : Odd (backslashes before) := by
  induction text generalizing before with
  | nil => simp at h
  | cons c text ih =>
    rw [List.flatMap_cons] at h
    -- the mark stands in what is written for the first character, or after it
    obtain ⟨middle, hbefore, hrest⟩ | ⟨middle, hfirst, hrest⟩ := List.append_eq_append_iff.1 h
    · have hodd := ih hrest
      rw [← Nat.not_even_iff_odd] at hodd ⊢
      rwa [hbefore, even_backslashes_escapeChar_append]
    · cases middle with
      | nil =>
        have hodd := @ih [] hrest.symm
        simp [backslashes] at hodd
      | cons m middle =>
        obtain ⟨rfl, -⟩ := List.cons.inj hrest
        rw [eq_of_escapeChar_eq hfirst]
        decide

/-! ## Text before a comma -/

theorem append_comma_inj {a b r s : List Char} (ha : ',' ∉ a) (hb : ',' ∉ b)
    (h : a ++ ',' :: r = b ++ ',' :: s) : a = b ∧ r = s := by
  induction a generalizing b with
  | nil =>
    cases b with
    | nil => exact ⟨rfl, (List.cons.inj h).2⟩
    | cons d b =>
      obtain ⟨rfl, -⟩ := List.cons.inj h
      exact absurd List.mem_cons_self hb
  | cons c a ih =>
    cases b with
    | nil =>
      obtain ⟨rfl, -⟩ := List.cons.inj h
      exact absurd List.mem_cons_self ha
    | cons d b =>
      obtain ⟨rfl, hrest⟩ := List.cons.inj h
      rw [List.mem_cons, not_or] at ha hb
      obtain ⟨rfl, rfl⟩ := ih ha.2 hb.2 hrest
      exact ⟨rfl, rfl⟩

end Packrat.Text
