import Mathlib.Data.List.DropRight
import Mathlib.Data.Prod.Lex
import Mathlib.Order.Fin.Basic
import Mathlib.Order.Hom.Set
import Packrat.Input

/-!
# Lines and columns

The line and column of a position are told by the text before it (`LineColumn.behind`): the line by
the line feeds in it, the column by what stands after the last of them. `Input.lineColumn_eq_behind`
says so of the scan that finds them. One more character behind a text moves its place on
(`LineColumn.behind_concat`), so places come in the order of the positions; one more in front of it
shows which places a text has (`LineColumn.isPlaceOf_iff`): one before each character of a line and
one behind the last, in each of its lines. Together they make the positions of an input and the
places of its text one order (`Input.lineColumn_orderIso`).
-/

set_option autoImplicit false

namespace Packrat

/-! ## The order of places -/

namespace LineColumn

theorem toLex_injective :
    Function.Injective fun place : LineColumn => toLex (place.line, place.column) := by
  rintro ⟨line, column⟩ ⟨line', column'⟩ h
  obtain ⟨rfl, rfl⟩ := Prod.mk.inj (toLex.injective h)
  rfl

/-- Places are in the order of their lines, and in one line in that of their columns. -/
instance : LinearOrder LineColumn :=
  LinearOrder.lift' (fun place => toLex (place.line, place.column)) toLex_injective

theorem lt_iff {a b : LineColumn} :
    a < b ↔ a.line < b.line ∨ a.line = b.line ∧ a.column < b.column := Prod.Lex.toLex_lt_toLex

/-! ## The place behind a text -/

/-- The place behind a text: one line more than there are line feeds in it, and in this line one
column more than there are characters after the last line feed, or from the start. -/
def behind (text : List Char) : LineColumn :=
  ⟨1 + text.count '\n', 1 + (text.rtakeWhile (· ≠ '\n')).length⟩

/-- The place after one more character: a line feed ends its line. -/
def next (place : LineColumn) (c : Char) : LineColumn :=
  if c = '\n' then ⟨place.line + 1, 1⟩ else ⟨place.line, place.column + 1⟩

theorem lt_next (place : LineColumn) (c : Char) : place < place.next c := by
  rw [lt_iff]
  unfold next
  split
  · exact .inl (Nat.lt_succ_self _)
  · exact .inr ⟨rfl, Nat.lt_succ_self _⟩

@[simp] theorem behind_nil : behind [] = ⟨1, 1⟩ := rfl

theorem behind_concat (text : List Char) (c : Char) :
    behind (text ++ [c]) = (behind text).next c := by
  by_cases hc : c = '\n'
  · subst hc
    simp [behind, next, Nat.add_assoc]
  · simp [behind, next, hc, Nat.add_assoc]

/-- Two texts, the second of which goes on from the first, end in one line just if no line feed has
come. -/
theorem behind_append_line_iff (text more : List Char) :
    (behind text).line = (behind (text ++ more)).line ↔ '\n' ∉ more := by
  simp only [behind, List.count_append]
  rw [← List.count_eq_zero]
  omega

end LineColumn

/-! ## The scan for lines -/

namespace Line

theorem after_append (line : Line) (pos : Nat) (cs cs' : List Char) :
    line.after pos (cs ++ cs') = (line.after pos cs).after (pos + cs.length) cs' := by
  induction cs generalizing line pos with
  | nil => rfl
  | cons c cs ih =>
    rw [List.cons_append, after, after, ih, List.length_cons, Nat.add_assoc, Nat.add_comm 1]

/-- **The scan keeps the line and where it starts**, as far before the end of the text as the column
says. -/
theorem after_behind (text : List Char) :
    (after ⟨1, 0⟩ 0 text).number = (LineColumn.behind text).line ∧
      (after ⟨1, 0⟩ 0 text).start + (LineColumn.behind text).column = text.length + 1 := by
  induction text using List.reverseRecOn with
  | nil => exact ⟨rfl, rfl⟩
  | append_singleton text c ih =>
    obtain ⟨hnumber, hstart⟩ := ih
    rw [after_append, LineColumn.behind_concat, List.length_append]
    simp only [after, next, LineColumn.next]
    split
    · exact ⟨by rw [hnumber], by simp⟩
    · exact ⟨hnumber, by simp only [List.length_singleton]; omega⟩

end Line

/-! ## The places of a text -/

namespace LineColumn

/-- The place in a text with one more character in front: a line feed there makes a line of its own,
another character stands in the first line. -/
def under (place : LineColumn) (c : Char) : LineColumn :=
  if c = '\n' then ⟨place.line + 1, place.column⟩
  else if place.line = 1 then ⟨1, place.column + 1⟩
  else place

/-- It makes no difference which of two characters, one in front and one behind, comes first. -/
theorem under_next {place : LineColumn} (h : 0 < place.line) (c d : Char) :
    (place.under c).next d = (place.next d).under c := by
  unfold under next
  by_cases hline : place.line = 1
  · split <;> split <;> simp_all
  · split <;> split <;> simp_all
    omega

theorem behind_cons (c : Char) (text : List Char) : behind (c :: text) = (behind text).under c := by
  induction text using List.reverseRecOn with
  | nil =>
    have h := behind_concat [] c
    simp only [List.nil_append, behind_nil] at h
    rw [h, behind_nil, next, under]
    split <;> rfl
  | append_singleton text d ih =>
    have hline : 0 < (behind text).line := by simp only [behind]; omega
    rw [← List.cons_append, behind_concat, ih, under_next hline, behind_concat]

/-- The places of a text: in each of its lines one before each character and one behind the last. -/
def IsPlaceOf (place : LineColumn) (text : List Char) : Prop :=
  ∃ index before line, place = ⟨index + 1, before + 1⟩ ∧
    (text.splitOn '\n')[index]? = some line ∧ before ≤ line.length

theorem isPlaceOf_nil_iff {place : LineColumn} : place.IsPlaceOf [] ↔ place = ⟨1, 1⟩ := by
  unfold IsPlaceOf
  rw [List.splitOn_nil]
  constructor
  · rintro ⟨index, before, line, rfl, hline, hle⟩
    cases index with
    | zero =>
      obtain rfl : [] = line := Option.some.inj hline
      rw [Nat.le_zero.1 hle]
    | succ index => simp at hline
  · rintro rfl
    exact ⟨0, 0, [], rfl, rfl, Nat.le_refl _⟩

/-- A line feed in front of a text makes an empty line. -/
theorem isPlaceOf_feed_iff {place : LineColumn} {text : List Char} :
    place.IsPlaceOf ('\n' :: text) ↔
      place = ⟨1, 1⟩ ∨ ∃ inner : LineColumn, inner.IsPlaceOf text ∧ place = inner.under '\n' := by
  have hlines : ('\n' :: text).splitOn '\n' = [] :: text.splitOn '\n' := by
    simp [List.splitOn_cons_eq_if_modifyHead]
  unfold IsPlaceOf
  rw [hlines]
  constructor
  · rintro ⟨index, before, line, rfl, hline, hle⟩
    cases index with
    | zero =>
      obtain rfl : [] = line := Option.some.inj hline
      exact .inl (by rw [Nat.le_zero.1 hle])
    | succ index => exact .inr ⟨_, ⟨index, before, line, rfl, hline, hle⟩, by simp [under]⟩
  · rintro (rfl | ⟨inner, ⟨index, before, line, rfl, hline, hle⟩, rfl⟩)
    · exact ⟨0, 0, [], rfl, rfl, Nat.le_refl _⟩
    · exact ⟨index + 1, before, line, by simp [under], hline, hle⟩

theorem isPlaceOf_char_iff {place : LineColumn} {c : Char} {text : List Char} (hc : c ≠ '\n') :
    place.IsPlaceOf (c :: text) ↔
      place = ⟨1, 1⟩ ∨ ∃ inner : LineColumn, inner.IsPlaceOf text ∧ place = inner.under c := by
  obtain ⟨first, others, htext⟩ := List.exists_cons_of_ne_nil (List.splitOn_ne_nil '\n' text)
  have hlines : (c :: text).splitOn '\n' = (c :: first) :: others := by
    simp [List.splitOn_cons_eq_if_modifyHead, hc, htext]
  unfold IsPlaceOf
  rw [hlines, htext]
  constructor
  · rintro ⟨index, before, line, rfl, hline, hle⟩
    cases index with
    | zero =>
      obtain rfl : c :: first = line := Option.some.inj hline
      cases before with
      | zero => exact .inl rfl
      | succ before =>
        have hfirst : before ≤ first.length := Nat.le_of_succ_le_succ hle
        exact .inr ⟨_, ⟨0, before, first, rfl, rfl, hfirst⟩, by simp [under, hc]⟩
    | succ index =>
      exact .inr ⟨_, ⟨index + 1, before, line, rfl, hline, hle⟩, by simp [under, hc]⟩
  · rintro (rfl | ⟨inner, ⟨index, before, line, rfl, hline, hle⟩, rfl⟩)
    · exact ⟨0, 0, c :: first, rfl, rfl, Nat.zero_le _⟩
    · cases index with
      | zero =>
        obtain rfl : first = line := Option.some.inj hline
        exact ⟨0, before + 1, c :: first, by simp [under, hc], rfl, Nat.succ_le_succ hle⟩
      | succ index => exact ⟨index + 1, before, line, by simp [under, hc], hline, hle⟩

theorem isPlaceOf_cons_iff {place : LineColumn} {c : Char} {text : List Char} :
    place.IsPlaceOf (c :: text) ↔
      place = ⟨1, 1⟩ ∨ ∃ inner : LineColumn, inner.IsPlaceOf text ∧ place = inner.under c := by
  by_cases hc : c = '\n'
  · subst hc
    exact isPlaceOf_feed_iff
  · exact isPlaceOf_char_iff hc

/-- **The places of a text are those behind its beginnings.** -/
theorem isPlaceOf_iff {place : LineColumn} {text : List Char} :
    place.IsPlaceOf text ↔ ∃ count ≤ text.length, behind (text.take count) = place := by
  induction text generalizing place with
  | nil =>
    rw [isPlaceOf_nil_iff]
    simp [eq_comm]
  | cons c text ih =>
    rw [isPlaceOf_cons_iff]
    constructor
    · rintro (rfl | ⟨inner, hinner, rfl⟩)
      · exact ⟨0, Nat.zero_le _, rfl⟩
      · obtain ⟨count, hcount, rfl⟩ := ih.1 hinner
        exact ⟨count + 1, Nat.succ_le_succ hcount, behind_cons c _⟩
    · rintro ⟨count, hcount, rfl⟩
      cases count with
      | zero => exact .inl rfl
      | succ count =>
        exact .inr ⟨_, ih.2 ⟨count, Nat.le_of_succ_le_succ hcount, rfl⟩, behind_cons c _⟩

end LineColumn

/-! ## Positions and their places -/

namespace Input

variable (input : Input)

theorem lineAt_eq (pos : Nat) :
    input.lineAt pos = Line.after ⟨1, 0⟩ 0 (input.atoms.toList.take pos) := by
  rw [lineAt, Array.toList_extract, List.extract_eq_take_drop, Nat.sub_zero, List.drop_zero]

theorem length_take_clamp (pos : Nat) :
    (input.atoms.toList.take (input.clamp pos)).length = input.clamp pos := by
  rw [List.length_take, Array.length_toList]
  exact Nat.min_eq_left (input.clamp_le pos)

theorem take_clamp (pos : Nat) :
    input.atoms.toList.take (input.clamp pos) = input.atoms.toList.take pos := by
  rw [List.take_eq_take_iff, Array.length_toList, clamp, length]
  omega

theorem lineColumn_clamp (pos : Nat) :
    input.lineColumn (input.clamp pos) = input.lineColumn pos := by
  simp only [lineColumn, input.clamp_of_le (input.clamp_le pos)]

theorem start_lineAt_le (pos : Nat) : (input.lineAt (input.clamp pos)).start ≤ input.clamp pos := by
  have h := (Line.after_behind (input.atoms.toList.take (input.clamp pos))).2
  rw [← lineAt_eq, length_take_clamp] at h
  simp only [LineColumn.behind] at h
  omega

/-- **The line and column of a position** are those behind the atoms before it. -/
theorem lineColumn_eq_behind (pos : Nat) :
    input.lineColumn pos = .behind (input.atoms.toList.take pos) := by
  obtain ⟨hnumber, hstart⟩ := Line.after_behind (input.atoms.toList.take (input.clamp pos))
  rw [← lineAt_eq, take_clamp] at hnumber
  rw [← lineAt_eq, length_take_clamp, take_clamp] at hstart
  have hle := input.start_lineAt_le pos
  have hcolumn : input.clamp pos - (input.lineAt (input.clamp pos)).start + 1 =
      (LineColumn.behind (input.atoms.toList.take pos)).column := by omega
  simp only [lineColumn, hnumber, hcolumn]

theorem lineColumn_succ {pos : Nat} {c : Char} (h : input.atom? pos = some c) :
    input.lineColumn (pos + 1) = (input.lineColumn pos).next c := by
  rw [atom?, ← Array.getElem?_toList] at h
  rw [lineColumn_eq_behind, lineColumn_eq_behind, List.take_add_one, h, Option.toList_some,
    LineColumn.behind_concat]

theorem lineColumn_of_length_le {pos : Nat} (h : input.length ≤ pos) :
    input.lineColumn pos = input.lineColumn input.length := by
  rw [← lineColumn_clamp, clamp, Nat.min_eq_right h]

/-- Two positions are in one line just if no line feed stands from the first up to the second. -/
theorem line_lineColumn_eq_iff {p q : Nat} (h : p ≤ q) :
    (input.lineColumn p).line = (input.lineColumn q).line ↔
      '\n' ∉ (input.atoms.toList.take q).drop p := by
  have hbefore := List.take_append_drop p (input.atoms.toList.take q)
  rw [List.take_take, Nat.min_eq_left h] at hbefore
  have hiff := LineColumn.behind_append_line_iff (input.atoms.toList.take p)
    ((input.atoms.toList.take q).drop p)
  rw [hbefore] at hiff
  rw [lineColumn_eq_behind, lineColumn_eq_behind, hiff]

theorem lineColumn_strictMono :
    StrictMono fun pos : Fin (input.length + 1) => input.lineColumn pos := by
  rw [Fin.strictMono_iff_lt_succ]
  intro pos
  have hatom : input.atom? pos.val = some input.atoms[pos.val] := Array.getElem?_eq_getElem pos.isLt
  show input.lineColumn pos.val < input.lineColumn (pos.val + 1)
  rw [input.lineColumn_succ hatom]
  exact LineColumn.lt_next _ _

/-- Places are in the order of the positions that they belong to, with those beyond the end taken as
the end. -/
theorem lineColumn_lt_iff (p q : Nat) :
    input.lineColumn p < input.lineColumn q ↔ input.clamp p < input.clamp q := by
  have hp := Nat.lt_succ_of_le (input.clamp_le p)
  have hq := Nat.lt_succ_of_le (input.clamp_le q)
  have h := input.lineColumn_strictMono.lt_iff_lt
    (a := ⟨input.clamp p, hp⟩) (b := ⟨input.clamp q, hq⟩)
  rw [Fin.mk_lt_mk, lineColumn_clamp, lineColumn_clamp] at h
  exact h

theorem lineColumn_eq_iff (p q : Nat) :
    input.lineColumn p = input.lineColumn q ↔ input.clamp p = input.clamp q := by
  have hlt := input.lineColumn_lt_iff p q
  have hgt := input.lineColumn_lt_iff q p
  rcases Nat.lt_trichotomy (input.clamp p) (input.clamp q) with h | h | h
  · exact iff_of_false (ne_of_lt (hlt.2 h)) (Nat.ne_of_lt h)
  · rw [← lineColumn_clamp, h, lineColumn_clamp]
    exact iff_of_true rfl rfl
  · exact iff_of_false (ne_of_gt (hgt.2 h)) (Nat.ne_of_gt h)

theorem range_lineColumn :
    Set.range (fun pos : Fin (input.length + 1) => input.lineColumn pos) =
      {place | place.IsPlaceOf input.atoms.toList} := by
  ext place
  rw [Set.mem_range, Set.mem_ofPred_eq, LineColumn.isPlaceOf_iff, Array.length_toList]
  constructor
  · rintro ⟨pos, rfl⟩
    exact ⟨pos, Nat.le_of_lt_succ pos.isLt, (input.lineColumn_eq_behind pos).symm⟩
  · rintro ⟨pos, hpos, rfl⟩
    exact ⟨⟨pos, Nat.lt_succ_of_le hpos⟩, input.lineColumn_eq_behind pos⟩

/-- **Positions and places are one order.** The line of a position, or of the end for one beyond it,
is one more than the line feeds before it, and its column one more than the atoms after the last of
these; no line starts after a position in it. From the first position to the end, the places are
those of the text's lines, in their order. So places of two positions compare as the positions do,
two positions are in one line just if no line feed stands from the first up to the second, which
leaves a line feed in the line that it ends, and all positions beyond the end have the place of the
end. -/
theorem lineColumn_orderIso :
    (∀ pos,
      let before := input.atoms.toList.take (input.clamp pos)
      input.lineColumn pos =
        ⟨1 + before.count '\n', 1 + (before.rtakeWhile (· ≠ '\n')).length⟩) ∧
    (∀ pos, (input.lineAt (input.clamp pos)).start ≤ input.clamp pos) ∧
    (∃ iso : Fin (input.length + 1) ≃o {place : LineColumn // place.IsPlaceOf input.atoms.toList},
      ∀ pos, (iso pos).val = input.lineColumn pos) ∧
    (∀ p q, input.lineColumn p < input.lineColumn q ↔ input.clamp p < input.clamp q) ∧
    (∀ p q, input.lineColumn p = input.lineColumn q ↔ input.clamp p = input.clamp q) ∧
    (∀ p q, p ≤ q →
      ((input.lineColumn p).line = (input.lineColumn q).line ↔
        '\n' ∉ (input.atoms.toList.take q).drop p)) ∧
    (∀ pos, input.atom? pos = some '\n' →
      input.lineColumn (pos + 1) = ⟨(input.lineColumn pos).line + 1, 1⟩) ∧
    ∀ pos, input.length ≤ pos → input.lineColumn pos = input.lineColumn input.length := by
  refine ⟨fun pos => ?_, input.start_lineAt_le, ?_, input.lineColumn_lt_iff,
    input.lineColumn_eq_iff, fun p q => input.line_lineColumn_eq_iff, fun pos hfeed => ?_,
    fun pos => input.lineColumn_of_length_le⟩
  · rw [take_clamp, lineColumn_eq_behind]
    rfl
  · exact ⟨(input.lineColumn_strictMono.orderIso _).trans
      (OrderIso.setCongr _ _ input.range_lineColumn), fun pos => rfl⟩
  · rw [input.lineColumn_succ hfeed, LineColumn.next, if_pos rfl]

/-- A text with line feeds at the start, at the end and one after the other, and with a character of
two bytes. -/
theorem lineColumn_orderIso_feeds :
    let input := Input.ofString "\nµb\n\n"
    input.lineColumn 3 = ⟨2, 3⟩ ∧ input.lineColumn 4 = ⟨(input.lineColumn 3).line + 1, 1⟩ ∧
      (input.lineColumn 1).line = (input.lineColumn 3).line ∧
      input.lineColumn 3 < input.lineColumn 4 ∧ input.lineColumn 1 ≠ input.lineColumn 4 ∧
      input.lineColumn 9 = input.lineColumn 5 ∧
      LineColumn.IsPlaceOf ⟨4, 1⟩ input.atoms.toList := by
  intro input
  obtain ⟨hplace, -, ⟨iso, hiso⟩, hlt, heq, hline, hfeed, hend⟩ := lineColumn_orderIso input
  have hthird : input.lineColumn 3 = ⟨2, 3⟩ := hplace 3
  have hlast : (iso 5).val = ⟨4, 1⟩ := (hiso 5).trans (hplace 5)
  refine ⟨hthird, hfeed 3 (by decide), (hline 1 3 (by decide)).2 (by decide),
    (hlt 3 4).2 (by decide), fun h => absurd ((heq 1 4).1 h) (by decide), hend 9 (by decide), ?_⟩
  rw [← hlast]
  exact (iso 5).property

end Input

end Packrat
