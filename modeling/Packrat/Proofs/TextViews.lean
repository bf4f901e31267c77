import Packrat.Proofs.ByteOffset
import Packrat.Proofs.Tiling
import Packrat.Sample.Grammars
import Packrat.Session.Evaluate

/-!
# Texts by atoms and by bytes

The three views of an input, its text, its atoms and its byte offsets, stay aligned
(`Input.views_aligned`). Everything goes back to one fact: the byte offset of a position is the size
of the text before it (`Input.byteOffset_eq_utf8ByteSize`), so the text of a span is found again
between the offsets of its ends (`Input.between_toByteArray`). A cursor splits the text in two, and
the match of a pattern splits what follows the cursor (`Context.matchExpr_regex`).
-/

set_option autoImplicit false

namespace Packrat

theorem utf8ByteSize_ofList (chars : List Char) :
    (String.ofList chars).utf8ByteSize = utf8Length chars := by
  induction chars with
  | nil => rfl
  | cons c chars ih =>
    rw [← List.singleton_append, String.ofList_append, String.utf8ByteSize_append, ih,
      ← String.singleton_eq_ofList, String.utf8ByteSize_singleton, utf8Length_append,
      utf8Length_cons, utf8Length_nil, Nat.add_zero]

theorem utf8Length_pos {chars : List Char} (h : chars ≠ []) : 0 < utf8Length chars := by
  obtain ⟨c, rest, rfl⟩ := List.exists_cons_of_ne_nil h
  have hpos := c.utf8Size_pos
  rw [utf8Length_cons]
  omega

namespace Input

variable (input : Input)

/-! ## Byte offsets -/

theorem between_eq (a b : Nat) :
    input.between a b = String.ofList ((input.atoms.toList.take b).drop a) := by
  rw [between, Array.toList_extract, List.extract_eq_take_drop, List.drop_take]

theorem byteOffset_eq_utf8ByteSize (pos : Nat) :
    input.byteOffset pos = (input.between 0 pos).utf8ByteSize := by
  rw [between_eq, List.drop_zero, utf8ByteSize_ofList, byteOffset_eq_utf8Length]

theorem between_clamp (a b : Nat) :
    input.between (input.clamp a) (input.clamp b) = input.between a b := by
  have hlength : input.length = input.atoms.toList.length := rfl
  rw [between_eq, between_eq, clamp, clamp, hlength]
  rcases Nat.le_total a input.atoms.toList.length with ha | ha
  · rw [Nat.min_eq_left ha, ← List.take_take, List.take_length]
  · rw [Nat.min_eq_right ha, List.drop_eq_nil_of_le, List.drop_eq_nil_of_le]
    · exact Nat.le_trans (List.length_take_le' _ _) ha
    · exact List.length_take_le' _ _

theorem between_length : input.between 0 input.length = input.text := by
  have hlength : input.length = input.atoms.toList.length := rfl
  rw [between_eq, List.drop_zero, hlength, List.take_length, Input.text]

theorem byteOffset_clamp (pos : Nat) :
    input.byteOffset (input.clamp pos) = input.byteOffset pos := by
  have hzero : input.clamp 0 = 0 := Nat.zero_min _
  rw [byteOffset_eq_utf8ByteSize, ← hzero, between_clamp, ← byteOffset_eq_utf8ByteSize]

theorem byteOffset_of_length_le {pos : Nat} (h : input.length ≤ pos) :
    input.byteOffset pos = input.text.utf8ByteSize := by
  rw [← byteOffset_clamp, clamp, Nat.min_eq_right h, byteOffset_eq_utf8ByteSize, between_length]

theorem byteOffset_lt {p q : Nat} (h : p < q) (hq : q ≤ input.length) :
    input.byteOffset p < input.byteOffset q := by
  obtain ⟨count, rfl⟩ := Nat.exists_eq_add_of_lt h
  have hne : (input.rest p).take (count + 1) ≠ [] := by
    apply List.ne_nil_of_length_pos
    rw [List.length_take, rest_length]
    omega
  have hpos := utf8Length_pos hne
  rw [Nat.add_assoc, byteOffset_add]
  omega

theorem byteOffset_lt_iff (a b : Nat) :
    input.byteOffset a < input.byteOffset b ↔ input.clamp a < input.clamp b := by
  rw [← byteOffset_clamp, ← byteOffset_clamp _ b]
  rcases Nat.lt_trichotomy (input.clamp a) (input.clamp b) with h | h | h
  · exact iff_of_true (input.byteOffset_lt h (input.clamp_le b)) h
  · rw [h]
    exact iff_of_false (Nat.lt_irrefl _) (Nat.lt_irrefl _)
  · have hoffset := input.byteOffset_lt h (input.clamp_le a)
    exact iff_of_false (Nat.lt_asymm hoffset) (Nat.lt_asymm h)

/-! ## Slices -/

theorem between_toByteArray {a b : Nat} (hab : a ≤ b) (hb : b ≤ input.length) :
    (input.between a b).toByteArray =
      input.text.toByteArray.extract (input.byteOffset a) (input.byteOffset b) := by
  have hbefore : input.between 0 a ++ input.between a b = input.between 0 b :=
    between_append (Nat.zero_le a) hab
  have hwhole : input.between 0 b ++ input.between b input.length = input.text := by
    rw [between_append (Nat.zero_le b) hb, between_length]
  rw [byteOffset_eq_utf8ByteSize, byteOffset_eq_utf8ByteSize, ← hwhole, ← hbefore,
    String.utf8ByteSize_append]
  simp only [String.toByteArray_append, ByteArray.append_assoc, ← String.size_toByteArray]
  have h := @ByteArray.extract_append_size_add (input.between 0 a).toByteArray
    ((input.between a b).toByteArray ++ (input.between b input.length).toByteArray) 0
    (input.between a b).toByteArray.size
  rw [Nat.add_zero] at h
  rw [h, ByteArray.extract_append_eq_left rfl]

theorem slice?_eq (a b : Nat) :
    input.slice? a b =
      if input.clamp b < input.clamp a then none
      else some (input.between (input.clamp a) (input.clamp b)) := by
  rw [between_clamp, slice?, between]
  split <;> split <;> first | rfl | omega

theorem slice?_eq_none_iff (a b : Nat) :
    input.slice? a b = none ↔ input.byteOffset b < input.byteOffset a := by
  rw [slice?_eq, byteOffset_lt_iff]
  split
  · next h => exact iff_of_true rfl h
  · next h => exact iff_of_false nofun h

theorem slice?_toByteArray {a b : Nat} {slice : String} (h : input.slice? a b = some slice) :
    slice.toByteArray =
      input.text.toByteArray.extract (input.byteOffset a) (input.byteOffset b) := by
  rw [slice?_eq] at h
  split at h
  · cases h
  · next hle =>
    cases h
    rw [between_toByteArray _ (Nat.not_lt.1 hle) (input.clamp_le b), byteOffset_clamp,
      byteOffset_clamp]

end Input

/-! ## Cursors -/

namespace Cursor

variable {input : Input} (cursor : Cursor input)

theorem rest_eq_drop : cursor.rest = input.text.toList.drop cursor.position := by
  rw [rest, Input.rest_eq_drop, Input.text, String.toList_ofList]

theorem length_rest : cursor.rest.length = cursor.remaining := Input.rest_length _

theorem position_add_remaining : cursor.position + cursor.remaining = input.length :=
  Nat.add_sub_cancel' cursor.le_length

theorem restText_eq : cursor.restText = input.between cursor.position input.length := by
  have hlength : input.length = input.atoms.toList.length := rfl
  rw [restText, rest, Input.rest_eq_drop, Input.between_eq, hlength, List.take_length]

theorem advance?_eq_none_iff (count : Nat) :
    cursor.advance? count = none ↔ cursor.remaining < count := by
  have h := cursor.position_add_remaining
  unfold advance?
  split
  · exact iff_of_false nofun (by omega)
  · exact iff_of_true rfl (by omega)

theorem advance?_add (a b : Nat) :
    (cursor.advance? a).bind (·.advance? b) = cursor.advance? (a + b) := by
  unfold advance?
  by_cases ha : cursor.position + a ≤ input.length
  · simp only [dif_pos ha, Option.bind_some, Nat.add_assoc]
  · have hab : ¬ cursor.position + (a + b) ≤ input.length := by omega
    rw [dif_neg ha, dif_neg hab, Option.bind_none]

/-- **What follows a cursor is cut at a byte offset**: the position found for it is where the text
of so many bytes ends. -/
theorem slice?_positionOfByte {before after : String} (h : cursor.restText = before ++ after) :
    input.slice? cursor.position
        (input.positionOfByte (input.byteOffset cursor.position + before.utf8ByteSize)) =
      some before := by
  have hremains : input.Remains cursor.position (before.toList ++ after.toList) := by
    refine ⟨cursor.le_length, ?_⟩
    rw [← String.toList_append, ← h, restText, String.toList_ofList, rest]
  have hbytes : before.utf8ByteSize =
      utf8Length ((input.rest cursor.position).take before.toList.length) := by
    rw [hremains.rest, List.take_left, ← utf8ByteSize_ofList, String.ofList_toList]
  rw [hbytes, ← Input.byteOffset_add, Input.positionOfByte_byteOffset _ hremains.append.le,
    hremains.slice?, String.ofList_toList]

end Cursor

/-! ## Matches of patterns -/

/-- A match of a pattern is made of the bytes before where it ends. -/
theorem Pattern.exists_of_matchBytes? {pattern : Pattern} {text : List Char} {bytes : Nat}
    (h : pattern.matchBytes? text = some bytes) :
    ∃ before after, String.ofList text = before ++ after ∧ before.utf8ByteSize = bytes := by
  obtain ⟨length, -, rfl⟩ := Option.map_eq_some_iff.1 h
  refine ⟨String.ofList (text.take length), String.ofList (text.drop length), ?_,
    utf8ByteSize_ofList _⟩
  rw [← String.ofList_append, List.take_append_drop]

/-- **A match of so many bytes is a terminal of these bytes.** -/
theorem Context.matchExpr_regex (context : Context) (hdepth : 0 < context.options.maxDepth)
    (pattern : Pattern) (cursor : Cursor context.input) (session : Session) {bytes : Nat}
    (h : pattern.matchBytes? cursor.rest = some bytes) :
    ∃ matched after stop, cursor.restText = matched ++ after ∧ matched.utf8ByteSize = bytes ∧
      context.input.slice? cursor.position stop = some matched ∧
      (context.matchExpr (.regex pattern) cursor session).1 =
        .ok (.terminal cursor.position stop) := by
  obtain ⟨matched, after, htext, rfl⟩ := Pattern.exists_of_matchBytes? h
  refine ⟨matched, after, _, htext, rfl, cursor.slice?_positionOfByte htext, ?_⟩
  obtain ⟨depth, hdepth⟩ := Nat.exists_eq_succ_of_ne_zero (Nat.ne_of_gt hdepth)
  have hrun : context.matchExpr (.regex pattern) cursor session =
      context.matchPattern pattern cursor.position session := by
    rw [matchExpr, matchAt, hdepth]
    rfl
  rw [hrun, matchPattern_bytes _ _ cursor.le_length, ← Cursor.rest, h]
  rfl

/-! ## All views -/

/-- **The views of an input are aligned.** The byte offset of a position is the size of the text
before it; it grows with the position up to the end, where it stays, and the position is found again
from it. A slice is the atoms between its positions, taken as the end where they lie beyond it, and
the bytes between their byte offsets; there is none just if these stand in the wrong order, and two
that meet make up one. A cursor has as many atoms after it as are missing to the length of the
input, they are those of the text after it, and two moves are one of both distances, or both run
past the end. What follows a cursor can be cut wherever a character ends, so a match of a pattern is
a terminal of just the bytes that were matched. -/
theorem Input.views_aligned (input : Input) :
    (∀ p, input.byteOffset p = (String.ofList (input.atoms.toList.take p)).utf8ByteSize) ∧
    (∀ p q, p < q → q ≤ input.length → input.byteOffset p < input.byteOffset q) ∧
    (∀ p, input.length ≤ p → input.byteOffset p = input.text.utf8ByteSize) ∧
    (∀ p, p ≤ input.length → input.positionOfByte (input.byteOffset p) = p) ∧
    (∀ a b, input.slice? a b =
      if input.clamp b < input.clamp a then none
      else some (String.ofList ((input.atoms.toList.take (input.clamp b)).drop (input.clamp a)))) ∧
    (∀ a b, input.slice? a b = none ↔ input.byteOffset b < input.byteOffset a) ∧
    (∀ a b slice, input.slice? a b = some slice → slice.toByteArray =
      input.text.toByteArray.extract (input.byteOffset a) (input.byteOffset b)) ∧
    (∀ a b c, a ≤ b → b ≤ c → ∃ first second, input.slice? a b = some first ∧
      input.slice? b c = some second ∧ input.slice? a c = some (first ++ second)) ∧
    (∀ cursor : Cursor input,
      cursor.position + cursor.remaining = input.length ∧
      cursor.rest = input.text.toList.drop cursor.position ∧
      cursor.rest.length = cursor.remaining ∧
      cursor.restText = String.ofList cursor.rest ∧
      cursor.restText.toByteArray =
        input.text.toByteArray.extract (input.byteOffset cursor.position)
          input.text.utf8ByteSize ∧
      (∀ count, cursor.advance? count = none ↔ cursor.remaining < count) ∧
      (∀ count next, cursor.advance? count = some next → next.position = cursor.position + count) ∧
      (∀ a b, (cursor.advance? a).bind (·.advance? b) = cursor.advance? (a + b)) ∧
      ∀ before after, cursor.restText = before ++ after →
        input.slice? cursor.position
          (input.positionOfByte (input.byteOffset cursor.position + before.utf8ByteSize)) =
            some before) ∧
    ∀ (grammar : Grammar) (options : Options) (pattern : Pattern) (cursor : Cursor input)
      (session : Session) (bytes : Nat), 0 < options.maxDepth →
      pattern.matchBytes? cursor.rest = some bytes →
        ∃ matched after stop, cursor.restText = matched ++ after ∧
          matched.utf8ByteSize = bytes ∧ input.slice? cursor.position stop = some matched ∧
          (Context.matchExpr ⟨grammar, input, options⟩ (.regex pattern) cursor session).1 =
            .ok (.terminal cursor.position stop) := by
  refine ⟨fun p => ?_, fun p q => input.byteOffset_lt, fun p => input.byteOffset_of_length_le,
    fun p => input.positionOfByte_byteOffset, fun a b => ?_, input.slice?_eq_none_iff,
    fun a b slice => input.slice?_toByteArray, fun a b c hab hbc => ?_, fun cursor => ?_,
    fun grammar options pattern cursor session bytes hdepth h =>
      Context.matchExpr_regex ⟨grammar, input, options⟩ hdepth pattern cursor session h⟩
  · rw [byteOffset_eq_utf8ByteSize, between_eq, List.drop_zero]
  · rw [slice?_eq, between_eq]
  · refine ⟨_, _, slice?_eq_between hab, slice?_eq_between hbc, ?_⟩
    rw [between_append hab hbc, slice?_eq_between (Nat.le_trans hab hbc)]
  · refine ⟨cursor.position_add_remaining, cursor.rest_eq_drop, cursor.length_rest, rfl, ?_,
      cursor.advance?_eq_none_iff, fun count next hnext => ?_, cursor.advance?_add,
      fun before after => cursor.slice?_positionOfByte⟩
    · rw [cursor.restText_eq, between_toByteArray _ cursor.le_length (Nat.le_refl _),
        byteOffset_of_length_le _ (Nat.le_refl _)]
    · unfold Cursor.advance? at hnext
      split at hnext <;> cases hnext
      rfl

/-- Characters of one byte and of two, and a pattern that matches two of the longer ones. -/
theorem Input.views_aligned_micro :
    let input := Input.ofString "aµµ!"
    let cursor : Cursor input := ⟨1, by decide⟩
    let pattern : Pattern := .ofSource "µ+"
    input.byteOffset 1 < input.byteOffset 3 ∧ input.byteOffset 9 = input.text.utf8ByteSize ∧
      input.positionOfByte (input.byteOffset 3) = 3 ∧
      (∃ first second, input.slice? 0 2 = some first ∧ input.slice? 2 9 = some second ∧
        input.slice? 0 9 = some (first ++ second)) ∧
      ∃ matched after stop, cursor.restText = matched ++ after ∧ matched.utf8ByteSize = 4 ∧
        input.slice? 1 stop = some matched ∧
        (Context.matchExpr ⟨Sample.identifiers, input, {}⟩ (.regex pattern) cursor {}).1 =
          .ok (.terminal 1 stop) := by
  intro input cursor pattern
  obtain ⟨-, hgrow, hend, hfound, -, -, -, happend, -, hmatch⟩ := input.views_aligned
  have hbytes : pattern.matchBytes? cursor.rest = some 4 := by decide +kernel
  exact ⟨hgrow 1 3 (by decide) (by decide), hend 9 (by decide), hfound 3 (by decide),
    happend 0 2 9 (by decide) (by decide), hmatch Sample.identifiers {} pattern cursor {} 4
      (by decide) hbytes⟩

end Packrat
