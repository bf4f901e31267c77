import Packrat.Proofs.Diagnosis
import Packrat.Proofs.MergeOrder
import Packrat.Proofs.QuotedText

/-!
# What literals expect

A literal that fails expects itself, between quotation marks (`Context.matchExpr_literal_fails`).
Quoted text can be read back (`Text.decode?_escape`), so the expectations of different literals
differ, and none of them is lost where failures at one position are merged
(`Text.escape_decodable`).
-/

set_option autoImplicit false

namespace Packrat

theorem Text.escape_injective : Function.Injective escape := by
  intro a b h
  have hread := congrArg decode? h
  rw [decode?_escape, decode?_escape] at hread
  exact Option.some.inj hread

theorem Text.quoted_injective : Function.Injective quoted := by
  intro a b h
  have happend : (quoted a).toList ++ [] = (quoted b).toList ++ [] := by rw [h]
  exact (quoted_append_inj happend).1

theorem Text.escape_append_inj {a b r s : String}
    (h : escape a ++ "\"" ++ r = escape b ++ "\"" ++ s) : a = b ∧ r = s := by
  have hquoted : (quoted a).toList ++ r.toList = (quoted b).toList ++ s.toList := by
    unfold quoted
    simp only [← String.toList_append, String.append_assoc] at h ⊢
    rw [h]
  obtain ⟨htext, hrest⟩ := quoted_append_inj hquoted
  exact ⟨htext, String.toList_inj.1 hrest⟩

variable {grammar : Grammar} {input : Input}

/-- **A literal that fails** does so of its own, at the first atom that differs. -/
theorem Context.matchExpr_literal_fails {context : Context} {text : String}
    {cursor : Cursor context.input} {session : Session} {failure : Failure}
    (h : (context.matchExpr (.literal text) cursor session).1 = .ok (.failure failure)) :
    context.grammar.Fails context.input (.literal text) cursor.position failure := by
  unfold matchExpr matchAt at h
  cases hdepth : context.options.maxDepth with
  | zero =>
    rw [hdepth] at h
    cases h
  | succ depth =>
    rw [hdepth] at h
    change (context.matchLiteral text cursor.position session).1 = _ at h
    simp only [matchLiteral] at h
    split at h
    · cases h
    · next hdiffers =>
      cases h
      have hle := @Input.agreement_le_length context.input text.toList cursor.position
      refine .literal ?_ ?_
      · rw [Input.take_prefix_iff]
        omega
      · rw [Input.take_prefix_iff]
        omega

theorem Grammar.Fails.eq_single {text : String} {pos : Nat} {failure : Failure}
    (h : grammar.Fails input (.literal text) pos failure) :
    failure = .single failure.position (Text.quoted text) := by
  cases h
  rfl

/-! ## Two literals that fail -/

section

variable {f g : Failure} {a b : String}

theorem mem_merge_literals (hf : f = .single f.position (Text.quoted a))
    (hg : g = .single g.position (Text.quoted b)) (hpos : f.position = g.position)
    (expected : String) :
    expected ∈ (f.merge g).expected ↔ expected = Text.quoted a ∨ expected = Text.quoted b := by
  rw [Failure.merge_of_eq hpos, SortedSet.mem_union, hf, hg]
  simp only [Failure.single, SortedSet.mem_singleton]

/-- Whatever else failures of two literals are merged with, what they expect is kept unless
something fails further on. -/
theorem Failure.IsJoin.mem_literals {failures : Failure → Prop} {join : Failure}
    (h : IsJoin failures (some join)) (hf : f = .single f.position (Text.quoted a))
    (hg : g = .single g.position (Text.quoted b)) (hmemf : failures f) (hmemg : failures g)
    (hposf : f.position = join.position) (hposg : g.position = join.position) :
    Text.quoted a ∈ join.expected ∧ Text.quoted b ∈ join.expected := by
  constructor
  · refine (h.expected join rfl _).2 ⟨f, hmemf, hposf, ?_⟩
    rw [hf]
    exact SortedSet.mem_singleton.2 rfl
  · refine (h.expected join rfl _).2 ⟨g, hmemg, hposg, ?_⟩
    rw [hg]
    exact SortedSet.mem_singleton.2 rfl

end

/-- **Escaping can be undone.** Escaped text is read back to its end, and up to the quotation mark
behind it whatever follows the mark, so it tells where it ends. It holds no tab, line feed or
carriage return, its quotation marks stand behind an odd number of backslashes, and one behind it
stands behind an even number. So two literals that fail at one position expect two things there:
merged with each other, just these two; merged with any other failures, or met in any evaluation
over entries that keep answers, both of them unless something has failed further on. -/
theorem Text.escape_decodable :
    (∀ text : String, decode? (escape text) = some text) ∧
    (∀ text rest : String, decode? (escape text ++ "\"" ++ rest) = some text) ∧
    Function.Injective escape ∧
    (∀ a b r s : String, escape a ++ "\"" ++ r = escape b ++ "\"" ++ s → a = b ∧ r = s) ∧
    (∀ text : String, ∀ c ∈ ['\t', '\n', '\r'], c ∉ (escape text).toList) ∧
    (∀ (text : String) (before after : List Char), (escape text).toList = before ++ '\"' :: after →
      Odd (before.rtakeWhile (· = '\\')).length) ∧
    (∀ text : String, Even ((escape text).toList.rtakeWhile (· = '\\')).length) ∧
    ∀ (context : Context) (a b : String) (p q : Cursor context.input) (s t : Session)
      (f g : Failure), a ≠ b → (context.matchExpr (.literal a) p s).1 = .ok (.failure f) →
      (context.matchExpr (.literal b) q t).1 = .ok (.failure g) → f.position = g.position →
      quoted a ≠ quoted b ∧
      (∀ expected, expected ∈ (f.merge g).expected ↔ expected = quoted a ∨ expected = quoted b) ∧
      (∀ (merging : Failure.Merging) (merged : Failure), f ∈ merging.failures →
        g ∈ merging.failures → merging.result = some merged → f.position = merged.position →
        quoted a ∈ merged.expected ∧ quoted b ∈ merged.expected) ∧
      ∀ (expr : Expr) (cursor : Cursor context.input) (session : Session),
        (context.options.memoize = true →
          session.cache.Truthful context.grammar context.input) →
        ¬ Exhausted (context.matchExpr expr cursor session).1 →
        context.grammar.Raises context.input expr cursor.position f →
        context.grammar.Raises context.input expr cursor.position g →
        ∃ furthest, (context.matchExpr expr cursor session).2.furthest? = some furthest ∧
          f.position ≤ furthest.position ∧
          (f.position = furthest.position →
            quoted a ∈ furthest.expected ∧ quoted b ∈ furthest.expected) := by
  refine ⟨decode?_escape, decode?_escape_append, escape_injective,
    fun a b r s => escape_append_inj, fun text c hc => not_mem_escape hc text,
    fun text before after h => odd_backslashes (toList_escape text ▸ h),
    fun text => toList_escape text ▸ even_backslashes text.toList,
    fun context a b p q s t f g hne hfailf hfailg hpos => ?_⟩
  have hf := (Context.matchExpr_literal_fails hfailf).eq_single
  have hg := (Context.matchExpr_literal_fails hfailg).eq_single
  refine ⟨fun h => hne (quoted_injective h), mem_merge_literals hf hg hpos,
    fun merging merged hmemf hmemg hresult hmerged => ?_,
    fun expr cursor session hs hx hraisesf hraisesg => ?_⟩
  · have hjoin := merging.isJoin_result
    rw [hresult] at hjoin
    exact hjoin.mem_literals hf hg hmemf hmemg hmerged (hpos ▸ hmerged)
  · have hjoin := context.evaluate_furthest hs cursor.le_length hx
    cases hfurthest : (context.matchExpr expr cursor session).2.furthest? with
    | none => exact absurd (.inr hraisesf) (hjoin.none_iff.1 hfurthest f)
    | some furthest =>
      refine ⟨furthest, rfl, hjoin.furthest furthest hfurthest f (.inr hraisesf), fun hposf => ?_⟩
      have hjoin' : Failure.IsJoin _ (some furthest) := hfurthest ▸ hjoin
      exact hjoin'.mem_literals hf hg (.inr hraisesf) (.inr hraisesg) hposf (hpos ▸ hposf)

/-- A tab, and a backslash before the letter that a tab is written with: alternatives that fail at
one position, and whose expectations are both kept. -/
theorem Text.escape_decodable_tab :
    let context : Context := { grammar := Sample.identifiers, input := .ofString "x" }
    let choice : Expr := .choice [.literal "\t", .literal "\\t"]
    let tab := Failure.single 0 "\"\\t\""
    let letter := Failure.single 0 "\"\\\\t\""
    let merged : Failure := ⟨0, .ofList ["\"\\t\"", "\"\\\\t\""]⟩
    decode? "\\t" = some "\t" ∧ decode? "\\\\t\" \\" = some "\\t" ∧
      '\t' ∉ (escape "\t").toList ∧
      Odd (['a', '\\', '\\', '\\'].rtakeWhile (· = '\\')).length ∧
      quoted "\t" ≠ quoted "\\t" ∧ quoted "\\t" ∈ (tab.merge letter).expected ∧
      quoted "\t" ∈ merged.expected ∧
      ∃ furthest, (context.matchExpr choice .start {}).2.furthest? = some furthest ∧
        quoted "\t" ∈ furthest.expected ∧ quoted "\\t" ∈ furthest.expected := by
  intro context choice tab letter merged
  obtain ⟨hwhole, hpart, -, -, hline, hodd, -, hliterals⟩ := escape_decodable
  have htab : (context.matchExpr (.literal "\t") .start {}).1 = .ok (.failure tab) := rfl
  have hletter : (context.matchExpr (.literal "\\t") .start {}).1 = .ok (.failure letter) := rfl
  obtain ⟨hne, hmerge, hmerging, hrun⟩ :=
    hliterals context "\t" "\\t" .start .start {} {} tab letter (by decide) htab hletter rfl
  have hmerged : (Failure.Merging.merged (.given letter) (.given tab)).result = some merged := by
    decide
  have hraises_tab : context.grammar.Raises context.input choice 0 tab :=
    .attempted .choice_first (.own (Context.matchExpr_literal_fails htab))
  have hraises_letter : context.grammar.Raises context.input choice 0 letter :=
    .attempted (.choice_rest (.literal_failure (by decide)) .choice_first)
      (.own (Context.matchExpr_literal_fails hletter))
  have hx : ¬ Exhausted (context.matchExpr choice .start {}).1 := by
    rintro ⟨limit, place, he⟩
    cases he
  obtain ⟨furthest, hfurthest, -, hkept⟩ :=
    hrun choice .start {} (fun _ => Cache.sound_empty.truthful) hx hraises_tab hraises_letter
  have hplace : (context.matchExpr choice .start {}).2.furthest?.map Failure.position = some 0 :=
    rfl
  rw [hfurthest] at hplace
  refine ⟨hwhole "\t", hpart "\\t" " \\", hline "\t" '\t' (by decide),
    hodd "a\\\"" ['a', '\\', '\\', '\\'] [] (by decide), hne, (hmerge _).2 (.inr rfl),
    (hmerging _ merged ?_ ?_ hmerged rfl).1, furthest, hfurthest, ?_⟩
  · simp [Failure.Merging.failures]
  · simp [Failure.Merging.failures]
  · exact hkept (Option.some.inj hplace).symm

end Packrat
