import Packrat.Proofs.Arithmetic.Tokens
import Packrat.Proofs.ClassAlgebra
import Packrat.Proofs.Starvation

/-!
# Keywords and identifiers

An identifier that ends where the text has no more characters to continue one is the only such at
its place (`IsIdentifier.append_inj`). So the rule of keywords, which looks at the character behind
a keyword, matches just those that are the whole identifier (`derives_keyword_iff`), and the rule of
names, which refuses them, matches all others (`derives_ident_iff`). A statement is thus an
identifier of either kind and a list one of names (`identifiers_partition`).
-/

set_option autoImplicit false

namespace Packrat

variable {grammar : Grammar} {input : Input} {pos stop : Nat} {text before after : List Char}

namespace Sample

/-! ## Identifiers -/

/-- The character starts an identifier. -/
def StartsIdentifier (c : Char) : Prop := Unicode.isXidStart c = true ∨ c = '_'

/-- A character that starts an identifier and any number of characters that continue it. -/
def IsIdentifier (text : List Char) : Prop :=
  ∃ first rest, text = first :: rest ∧ StartsIdentifier first ∧
    ∀ c ∈ rest, Unicode.isXidContinue c = true

/-- The identifiers that are kept for statements and are no names. -/
def keywords : List String := ["if", "else", "while"]

/-- An identifier that is no keyword. -/
structure IsName (name : String) : Prop where
  isIdentifier : IsIdentifier name.toList
  not_keyword : name ∉ keywords

/-- No identifier goes on with the text. -/
def Ends (after : List Char) : Prop := ∀ c, after.head? = some c → Unicode.isXidContinue c = false

theorem ends_nil : Ends [] := nofun

theorem ends_comma : Ends (',' :: after) := by
  intro c hc
  cases hc
  decide

theorem isIdentifier_of_keyword : ∀ keyword ∈ keywords, IsIdentifier keyword.toList := by
  simp only [keywords, List.forall_mem_cons]
  refine ⟨⟨'i', ['f'], rfl, .inl rfl, List.all_eq_true.1 rfl⟩,
    ⟨'e', ['l', 's', 'e'], rfl, .inl rfl, List.all_eq_true.1 rfl⟩,
    ⟨'w', ['h', 'i', 'l', 'e'], rfl, .inl rfl, List.all_eq_true.1 rfl⟩, nofun⟩

/-- An identifier that is the beginning of another one does not end there. -/
theorem IsIdentifier.eq_of_append {word more : List Char} (h : IsIdentifier (word ++ more))
    (hne : word ≠ []) (hends : Ends (more ++ after)) : more = [] := by
  cases more with
  | nil => rfl
  | cons c more =>
    obtain ⟨first, rest, htext, -, hrest⟩ := h
    obtain ⟨d, word, rfl⟩ := List.exists_cons_of_ne_nil hne
    rw [List.cons_append] at htext
    cases htext
    have hcontinues := hrest c (List.mem_append_right _ (.head _))
    rw [hends c rfl] at hcontinues
    cases hcontinues

theorem IsIdentifier.ne_nil (h : IsIdentifier text) : text ≠ [] := by
  obtain ⟨first, rest, rfl, -⟩ := h
  exact List.cons_ne_nil _ _

/-- **A text has one identifier at its beginning** that ends where it does. -/
theorem IsIdentifier.append_inj {word word' after' : List Char} (h : IsIdentifier word)
    (h' : IsIdentifier word') (hends : Ends after) (hends' : Ends after')
    (htext : word ++ after = word' ++ after') : word = word' ∧ after = after' := by
  obtain ⟨more, rfl, rfl⟩ | ⟨more, rfl, rfl⟩ := List.append_eq_append_iff.1 htext
  · cases h'.eq_of_append h.ne_nil hends
    exact ⟨(List.append_nil _).symm, rfl⟩
  · cases h.eq_of_append h'.ne_nil hends'
    exact ⟨List.append_nil _, rfl⟩

theorem exists_identifier {first : Char} {rest : List Char} (h : StartsIdentifier first) :
    ∃ word after, first :: rest = word ++ after ∧ IsIdentifier word ∧ Ends after := by
  refine ⟨first :: rest.takeWhile Unicode.isXidContinue, rest.dropWhile Unicode.isXidContinue,
    ?_, ⟨first, _, rfl, h, fun c hc => List.mem_takeWhile_imp hc⟩, fun c hc => ?_⟩
  · rw [List.cons_append, List.takeWhile_append_dropWhile]
  · have hnot := List.head?_dropWhile_not Unicode.isXidContinue rest
    rwa [hc] at hnot

/-! ## The grammar -/

theorem rule?_statement : identifiers.rule? "statement" =
    some ⟨"statement", .choice [.ruleRef "keyword", .ruleRef "ident"]⟩ := rfl

theorem rule?_keyword : identifiers.rule? "keyword" =
    some ⟨"keyword", .sequence
      [.choice (keywords.map .literal), .notFollowedBy (.oneIn .xidContinue)]⟩ := rfl

theorem rule?_ident : identifiers.rule? "ident" =
    some ⟨"ident", .sequence [.notFollowedBy (.ruleRef "keyword"), .identifier]⟩ := rfl

/-- A name that follows another one. -/
def commaName : Expr := .sequence [.literal ",", .ruleRef "ident"]

theorem rule?_names : identifiers.rule? "list" =
    some ⟨"list", .sequence [.ruleRef "ident", .zeroOrMore commaName, .endOfInput]⟩ := rfl

theorem accepts_xidContinue (c : Char) :
    CharClass.xidContinue.accepts c = Unicode.isXidContinue c := by
  simp [CharClass.accepts, CharClass.xidContinue, CharClass.Part.accepts]

theorem accepts_identifierStart {c : Char} :
    (CharClass.xidStart.orOneOf "_").accepts c = true ↔ StartsIdentifier c := by
  have hstart : CharClass.xidStart.accepts c = Unicode.isXidStart c := by
    simp [CharClass.accepts, CharClass.xidStart, CharClass.Part.accepts]
  have hchars : "_".toList = ['_'] := rfl
  rw [CharClass.orOneOf, CharClass.accepts_or_iff, CharClass.accepts_oneOf, hstart, hchars,
    List.mem_singleton]
  exact Iff.rfl

/-! ## What the rules match -/

theorem derives_identifier (hpos : input.Remains pos (before ++ after)) (h : IsIdentifier before)
    (hends : Ends after) :
    grammar.Derives input .identifier pos (.success (pos + before.length)) := by
  obtain ⟨first, rest, rfl, hfirst, hrest⟩ := h
  have hclass : ∀ c ∈ rest, CharClass.xidContinue.accepts c = true := by
    simpa only [accepts_xidContinue] using hrest
  have hother : ∀ c, after.head? = some c → CharClass.xidContinue.accepts c = false := by
    intro c hc
    rw [accepts_xidContinue]
    exact hends c hc
  have hrun : grammar.Derives input _ (pos + 1) _ :=
    Grammar.derives_run (@Input.Remains.tail input pos (rest ++ after) first hpos) hclass hother
  rw [List.length_cons, Nat.add_comm rest.length, ← Nat.add_assoc]
  exact .sequence_cons (.oneIn_success hpos.atom? (accepts_identifierStart.2 hfirst))
    (.sequence_cons hrun .sequence_nil)

theorem derives_identifier_failure (hpos : input.Remains pos text)
    (h : ∀ c, text.head? = some c → ¬ StartsIdentifier c) :
    grammar.Derives input .identifier pos .failure := by
  refine .sequence_failure (.oneIn_failure fun c hc => ?_)
  rw [← Bool.not_eq_true, accepts_identifierStart]
  exact h c (hpos.atom?.symm.trans hc)

theorem derives_not_continued (hpos : input.Remains pos after) (hends : Ends after) :
    grammar.Derives input (.notFollowedBy (.oneIn .xidContinue)) pos (.success pos) := by
  refine .notFollowedBy_failure (.oneIn_failure fun c hc => ?_)
  rw [accepts_xidContinue]
  exact hends c (hpos.atom?.symm.trans hc)

theorem derives_not_continued_failure (hpos : input.Remains pos after) (hends : ¬ Ends after) :
    grammar.Derives input (.notFollowedBy (.oneIn .xidContinue)) pos .failure := by
  simp only [Ends, not_forall, Bool.not_eq_false] at hends
  obtain ⟨c, hc, hcontinues⟩ := hends
  refine .notFollowedBy_success (.oneIn_success (hpos.atom?.trans hc) ?_)
  rw [accepts_xidContinue, hcontinues]

/-! ### Keywords -/

/-- No keyword is the beginning of another one. -/
theorem keyword_eq_of_isPrefix {keyword other : String} (hmem : keyword ∈ keywords)
    (hother : other ∈ keywords) (h : keyword.toList <+: text) (h' : other.toList <+: text) :
    other = keyword := by
  have distinct : ∀ first ∈ keywords, ∀ second ∈ keywords,
      first.toList <+: second.toList → first = second := by decide
  rcases List.prefix_or_prefix_of_prefix h h' with h | h
  · exact (distinct keyword hmem other hother h).symm
  · exact distinct other hother keyword hmem h

theorem derives_keywordChoice {keyword : String} (hmem : keyword ∈ keywords)
    (hpos : input.Remains pos (keyword.toList ++ after)) :
    identifiers.Derives input (.choice (keywords.map .literal)) pos
      (.success (pos + keyword.toList.length)) := by
  have hbegins : keyword.toList <+: input.rest pos := ⟨after, hpos.rest.symm⟩
  exact Grammar.derives_choice_literal hmem hbegins fun other hother h =>
    keyword_eq_of_isPrefix hmem hother hbegins h

theorem derives_keyword {keyword : String} (hmem : keyword ∈ keywords)
    (hpos : input.Remains pos (keyword.toList ++ after)) (hends : Ends after) :
    identifiers.Derives input (.ruleRef "keyword") pos
      (.success (pos + keyword.toList.length)) :=
  .ruleRef_body rule?_keyword
    (.sequence_cons (derives_keywordChoice hmem hpos)
      (.sequence_cons (derives_not_continued hpos.append hends) .sequence_nil))

theorem derives_keyword_failure (hpos : input.Remains pos text)
    (h : ∀ keyword ∈ keywords, ∀ after, text = keyword.toList ++ after → ¬ Ends after) :
    identifiers.Derives input (.ruleRef "keyword") pos .failure := by
  refine .ruleRef_body rule?_keyword ?_
  by_cases hword : ∃ keyword ∈ keywords, keyword.toList <+: text
  · obtain ⟨keyword, hmem, after, rfl⟩ := hword
    exact .sequence_cons (derives_keywordChoice hmem hpos)
      (.sequence_failure (derives_not_continued_failure hpos.append (h keyword hmem after rfl)))
  · refine .sequence_failure (Grammar.derives_choice_literal_failure fun keyword hmem hbegins => ?_)
    rw [hpos.rest] at hbegins
    exact hword ⟨keyword, hmem, hbegins⟩

/-- The rule of keywords matches the keywords that end where they do, and nothing else. -/
theorem derives_keyword_iff (hpos : input.Remains pos text) :
    identifiers.Derives input (.ruleRef "keyword") pos (.success stop) ↔
      ∃ keyword ∈ keywords, ∃ after, text = keyword.toList ++ after ∧ Ends after ∧
        stop = pos + keyword.toList.length := by
  constructor
  · intro h
    by_cases hword : ∃ keyword ∈ keywords, ∃ after, text = keyword.toList ++ after ∧ Ends after
    · obtain ⟨keyword, hmem, after, rfl, hends⟩ := hword
      cases h.unique (derives_keyword hmem hpos hends) hpos.le
      exact ⟨keyword, hmem, after, rfl, hends, rfl⟩
    · have hfailure := derives_keyword_failure hpos fun keyword hmem after htext hends =>
        hword ⟨keyword, hmem, after, htext, hends⟩
      cases h.unique hfailure hpos.le
  · rintro ⟨keyword, hmem, after, rfl, hends, rfl⟩
    exact derives_keyword hmem hpos hends

theorem IsName.not_keywordAt {name : String} (h : IsName name)
    (hpos : input.Remains pos (name.toList ++ after)) (hends : Ends after) :
    identifiers.Derives input (.ruleRef "keyword") pos .failure := by
  refine derives_keyword_failure hpos fun keyword hmem after' htext hends' => ?_
  have hword := (h.isIdentifier.append_inj (isIdentifier_of_keyword keyword hmem) hends hends'
    htext).1
  exact h.not_keyword (String.toList_inj.1 hword ▸ hmem)

/-! ### Names -/

theorem derives_ident {name : String} (h : IsName name)
    (hpos : input.Remains pos (name.toList ++ after)) (hends : Ends after) :
    identifiers.Derives input (.ruleRef "ident") pos (.success (pos + name.toList.length)) :=
  .ruleRef_body rule?_ident
    (.sequence_cons (.notFollowedBy_failure (h.not_keywordAt hpos hends))
      (.sequence_cons (derives_identifier hpos h.isIdentifier hends) .sequence_nil))

/-- **The rule of names matches the identifiers that are no keywords**, each up to where it ends,
and nothing else. -/
theorem derives_ident_iff (hpos : input.Remains pos text) :
    identifiers.Derives input (.ruleRef "ident") pos (.success stop) ↔
      ∃ name after, text = name.toList ++ after ∧ IsName name ∧ Ends after ∧
        stop = pos + name.toList.length := by
  constructor
  · intro h
    simp only [Grammar.derives_ruleRef_iff rule?_ident, Grammar.derives_sequence_cons_iff,
      Grammar.derives_sequence_nil_iff, Grammar.derives_notFollowedBy_iff] at h
    obtain ⟨start, ⟨hkeyword, rfl⟩, _, hidentifier, rfl⟩ := h
    by_cases hstart : ∃ first rest, text = first :: rest ∧ StartsIdentifier first
    · obtain ⟨first, rest, rfl, hfirst⟩ := hstart
      obtain ⟨word, after, htext, hword, hends⟩ := exists_identifier hfirst
      rw [htext] at hpos
      rw [← @String.toList_ofList word] at htext hpos hword
      have hmatch : identifiers.Derives input .identifier start _ :=
        derives_identifier hpos hword hends
      cases hidentifier.unique hmatch hpos.le
      refine ⟨String.ofList word, after, htext, ⟨hword, fun hmem => ?_⟩, hends, rfl⟩
      cases hkeyword.unique (derives_keyword hmem hpos hends) hpos.le
    · have hfailure : identifiers.Derives input .identifier start .failure := by
        refine derives_identifier_failure hpos fun c hc hfirst => hstart ?_
        obtain ⟨rest, rfl⟩ := List.head?_eq_some_iff.1 hc
        exact ⟨c, rest, rfl, hfirst⟩
      cases hidentifier.unique hfailure hpos.le
  · rintro ⟨name, after, rfl, hname, hends, rfl⟩
    exact derives_ident hname hpos hends

/-! ### Statements -/

/-- **An identifier is matched as a whole**, a keyword by the first alternative of a statement and a
name by the second. -/
theorem statement_of_isIdentifier {word : String} (h : IsIdentifier word.toList) :
    ∃ tree, identifiers.Matches (.ofString word) (.ruleRef "statement") 0
        (Input.ofString word).length (some tree) ∧
      tree.alternative = if word ∈ keywords then some 0 else some 1 := by
  have hpos := Input.Remains.start word
  have hlength := hpos.length_eq
  rw [← List.append_nil word.toList] at hpos
  by_cases hmem : word ∈ keywords
  · obtain ⟨node?, hkeyword⟩ := (derives_keyword hmem hpos ends_nil).matches hpos.le
    rw [hlength] at hkeyword
    have hnone : ∀ expr ∈ ([] : List Expr),
        identifiers.Derives (.ofString word) expr 0 .failure := nofun
    have hmatch := Grammar.Matches.alternative rule?_statement rfl hnone hkeyword hpos.le
    exact ⟨_, hmatch, (if_pos hmem).symm⟩
  · obtain ⟨node?, hname⟩ := (derives_ident ⟨h, hmem⟩ hpos ends_nil).matches hpos.le
    rw [hlength] at hname
    have hkeyword : ∀ expr ∈ [Expr.ruleRef "keyword"],
        identifiers.Derives (.ofString word) expr 0 .failure :=
      List.forall_mem_singleton.2 (IsName.not_keywordAt ⟨h, hmem⟩ hpos ends_nil)
    have hmatch := Grammar.Matches.alternative rule?_statement rfl hkeyword hname hpos.le
    exact ⟨_, hmatch, (if_neg hmem).symm⟩

theorem isIdentifier_of_statement {word : String}
    (h : identifiers.Derives (.ofString word) (.ruleRef "statement") 0
      (.success (Input.ofString word).length)) : IsIdentifier word.toList := by
  have hpos := Input.Remains.start word
  have hlength := hpos.length_eq
  have whole {text after : List Char} (htext : word.toList = text ++ after)
      (hstop : (Input.ofString word).length = 0 + text.length) : word.toList = text := by
    rw [← hlength, htext, List.length_append] at hstop
    rw [htext, List.eq_nil_of_length_eq_zero (by omega : after.length = 0), List.append_nil]
  rw [Grammar.derives_ruleRef_iff rule?_statement, Grammar.derives_choice_cons_iff,
    Grammar.derives_choice_cons_iff] at h
  obtain hkeyword | ⟨-, hname | ⟨-, hnone⟩⟩ := h
  · obtain ⟨keyword, hmem, after, htext, -, hstop⟩ := (derives_keyword_iff hpos).1 hkeyword
    exact whole htext hstop ▸ isIdentifier_of_keyword keyword hmem
  · obtain ⟨name, after, htext, hname, -, hstop⟩ := (derives_ident_iff hpos).1 hname
    exact whole htext hstop ▸ hname.isIdentifier
  · exact absurd hnone Grammar.not_derives_choice_nil

/-! ### Lists of names -/

/-- The names, each with a comma before it. -/
def following (names : List String) : List Char := names.flatMap fun name => ',' :: name.toList

theorem toList_intercalate_cons (first : String) (names : List String) :
    (",".intercalate (first :: names)).toList = first.toList ++ following names := by
  induction names generalizing first with
  | nil => simp [following]
  | cons second names ih =>
    rw [String.intercalate_cons_cons, String.toList_append, ih second, String.toList_append,
      List.append_assoc]
    rfl

theorem ends_following (names : List String) : Ends (following names) := by
  cases names with
  | nil => exact ends_nil
  | cons name names => exact ends_comma

variable {names : List String}

theorem derives_commaNames (h : ∀ name ∈ names, IsName name)
    (hpos : input.Remains pos (following names)) :
    identifiers.Derives input (.zeroOrMore commaName) pos (.success input.length) := by
  induction names generalizing pos with
  | nil =>
    have hcomma : identifiers.Derives input (Grammar.charLiteral ',') pos .failure :=
      Grammar.derives_charLiteral_failure hpos nofun
    have hend : pos = input.length := hpos.length_eq
    exact hend ▸ .zeroOrMore_failure (.sequence_failure hcomma)
  | cons name names ih =>
    rw [List.forall_mem_cons] at h
    have hpos : input.Remains pos (',' :: (name.toList ++ following names)) := hpos
    have hcomma : identifiers.Derives input (Grammar.charLiteral ',') pos _ :=
      Grammar.derives_charLiteral hpos
    have hname := derives_ident h.1 hpos.tail (ends_following names)
    exact .zeroOrMore_more (.sequence_cons hcomma (.sequence_cons hname .sequence_nil)) (by omega)
      (ih h.2 hpos.tail.append)

theorem commaName_of_derives (h : identifiers.Derives input commaName pos (.success stop))
    (hpos : input.Remains pos text) :
    ∃ name after, text = ',' :: (name.toList ++ after) ∧ IsName name ∧
      input.Remains stop after := by
  simp only [commaName, Grammar.derives_sequence_cons_iff, Grammar.derives_sequence_nil_iff] at h
  obtain ⟨_, hcomma, _, hident, rfl⟩ := h
  cases hcomma with
  | literal_success hbegins =>
    obtain ⟨text, rfl⟩ := hpos.rest ▸ hbegins
    obtain ⟨name, after, rfl, hname, -, rfl⟩ := (derives_ident_iff hpos.append).1 hident
    exact ⟨name, after, rfl, hname, hpos.append.append⟩

/-- What is matched up to the end are names with commas before them, by induction on the rounds. -/
theorem names_of_derives
    (h : identifiers.Derives input (.zeroOrMore commaName) pos (.success input.length))
    (hpos : input.Remains pos text) :
    ∃ names, text = following names ∧ ∀ name ∈ names, IsName name := by
  generalize hexpr : Expr.zeroOrMore commaName = expr at h
  generalize hverdict : Verdict.success input.length = verdict at h
  induction h generalizing text with
  | zeroOrMore_failure _ _ | zeroOrMore_empty _ _ =>
    cases hverdict
    have hlength := hpos.length_eq
    rw [List.eq_nil_of_length_eq_zero (by omega : text.length = 0)]
    exact ⟨[], rfl, nofun⟩
  | zeroOrMore_more round _ _ _ ih =>
    cases hexpr
    obtain ⟨name, after, rfl, hname, hafter⟩ := commaName_of_derives round hpos
    obtain ⟨names, rfl, hnames⟩ := ih hafter rfl hverdict
    exact ⟨name :: names, rfl, List.forall_mem_cons.2 ⟨hname, hnames⟩⟩
  | zeroOrMore_undefined _ _ => cases hverdict
  | _ => cases hexpr

/-- **A list matches as a whole** if it consists of one name or more with commas between them. -/
theorem derives_list_iff (text : String) :
    identifiers.Derives (.ofString text) (.ruleRef "list") 0
        (.success (Input.ofString text).length) ↔
      ∃ names, names ≠ [] ∧ (∀ name ∈ names, IsName name) ∧ text = ",".intercalate names := by
  have hpos := Input.Remains.start text
  constructor
  · intro h
    simp only [Grammar.derives_ruleRef_iff rule?_names, Grammar.derives_sequence_cons_iff,
      Grammar.derives_sequence_nil_iff, Grammar.derives_endOfInput_iff] at h
    obtain ⟨_, hident, _, hmore, _, ⟨rfl, -⟩, -⟩ := h
    obtain ⟨first, after, htext, hfirst, -, rfl⟩ := (derives_ident_iff hpos).1 hident
    rw [htext] at hpos
    obtain ⟨names, rfl, hnames⟩ := names_of_derives hmore hpos.append
    refine ⟨first :: names, List.cons_ne_nil _ _, List.forall_mem_cons.2 ⟨hfirst, hnames⟩,
      String.toList_inj.1 ?_⟩
    rw [htext, toList_intercalate_cons]
  · rintro ⟨names, hne, hnames, htext⟩
    obtain ⟨first, names, rfl⟩ := List.exists_cons_of_ne_nil hne
    rw [List.forall_mem_cons] at hnames
    rw [congrArg String.toList htext, toList_intercalate_cons] at hpos
    have hfirst := derives_ident hnames.1 hpos (ends_following names)
    have hmore := derives_commaNames hnames.2 hpos.append
    exact .ruleRef_body rule?_names (.sequence_cons hfirst (.sequence_cons hmore
      (.sequence_cons (.endOfInput_success rfl) .sequence_nil)))

/-! ## Parses -/

variable (input) in
theorem affords_keyword : identifiers.AffordsAnywhere input 4 (.ruleRef "keyword") := by
  refine .ruleRef rule?_keyword nofun (.sequence ?_)
  refine List.forall_mem_cons.2 ⟨.choice fun expr hmem => ?_,
    List.forall_mem_singleton.2 (.notFollowedBy (.terminal rfl))⟩
  obtain ⟨keyword, -, rfl⟩ := List.mem_map.1 hmem
  exact .terminal rfl

variable (input) in
theorem affords_ident : identifiers.AffordsAnywhere input 7 (.ruleRef "ident") := by
  have hidentifier : identifiers.AffordsAnywhere input 3 .identifier := by
    refine .sequence (List.forall_mem_cons.2 ⟨?_, List.forall_mem_singleton.2 ?_⟩)
    · exact .mono (.terminal rfl) (by decide)
    · exact .zeroOrMore (.terminal rfl)
  exact .ruleRef rule?_ident nofun (.sequence (List.forall_mem_cons.2
    ⟨.notFollowedBy (affords_keyword input),
      List.forall_mem_singleton.2 (hidentifier.mono (by decide))⟩))

variable (input) in
theorem affords_statement : identifiers.AffordsAnywhere input 8 (.ruleRef "statement") :=
  .alternatives rule?_statement rfl (List.forall_mem_cons.2
    ⟨(affords_keyword input).mono (by decide), List.forall_mem_singleton.2 (affords_ident input)⟩)

variable (input) in
theorem affords_names : identifiers.AffordsAnywhere input 11 (.ruleRef "list") := by
  have hcomma : identifiers.AffordsAnywhere input 8 commaName :=
    .sequence (List.forall_mem_cons.2
      ⟨.mono (.terminal rfl) (by decide), List.forall_mem_singleton.2 (affords_ident input)⟩)
  refine .ruleRef rule?_names nofun (.sequence ?_)
  simp only [List.forall_mem_cons]
  exact ⟨(affords_ident input).mono (by decide), hcomma.zeroOrMore,
    .mono (.terminal rfl) (by decide), nofun⟩

/-- **Keywords and names are the identifiers.** With default options a statement is complete just
if it is an identifier, of the first alternative if it is a keyword and of the second otherwise. A
list is complete just if it consists of one name or more with commas between them. -/
theorem identifiers_partition :
    let result (start text : String) :=
      (Parser.parse ⟨identifiers, {}⟩ start (.ofString text)).result
    (∀ word : String,
      ((∃ tree, result "statement" word = .ok (.complete tree)) ↔ IsIdentifier word.toList) ∧
        ∀ tree, result "statement" word = .ok (.complete tree) →
          tree.alternative = if word ∈ keywords then some 0 else some 1) ∧
      ∀ text : String, (∃ tree, result "list" text = .ok (.complete tree)) ↔
        ∃ names, names ≠ [] ∧ (∀ name ∈ names, IsName name) ∧ text = ",".intercalate names := by
  intro result
  have hstatement (word : String) (tree : Node) :
      result "statement" word = .ok (.complete tree) ↔
        identifiers.Matches (.ofString word) (.ruleRef "statement") 0
          (Input.ofString word).length (some tree) :=
    Parser.complete_iff_matches (affords_statement _ 0 (Nat.zero_le _)) (by decide) rfl
  have hlist (text : String) (tree : Node) :
      result "list" text = .ok (.complete tree) ↔
        identifiers.Matches (.ofString text) (.ruleRef "list") 0
          (Input.ofString text).length (some tree) :=
    Parser.complete_iff_matches (affords_names _ 0 (Nat.zero_le _)) (by decide) rfl
  refine ⟨fun word => ⟨⟨?_, ?_⟩, ?_⟩, fun text => ?_⟩
  · rintro ⟨tree, hcomplete⟩
    exact isIdentifier_of_statement (((hstatement word tree).1 hcomplete).derives (Nat.zero_le _))
  · intro h
    obtain ⟨tree, hmatch, -⟩ := statement_of_isIdentifier h
    exact ⟨tree, (hstatement word tree).2 hmatch⟩
  · intro tree hcomplete
    have hmatch := (hstatement word tree).1 hcomplete
    have hword := isIdentifier_of_statement (hmatch.derives (Nat.zero_le _))
    obtain ⟨tree', hmatch', halternative⟩ := statement_of_isIdentifier hword
    cases (hmatch.unique hmatch').2
    exact halternative
  · rw [← derives_list_iff]
    constructor
    · rintro ⟨tree, hcomplete⟩
      exact ((hlist text tree).1 hcomplete).derives (Nat.zero_le _)
    · intro h
      obtain ⟨tree, hmatch, -⟩ := h.exists_ruleNode (Nat.zero_le _)
      exact ⟨tree, (hlist text tree).2 hmatch⟩

/-- A keyword, a name that begins with it, and a list of such names. -/
theorem identifiers_partition_while :
    let result (start text : String) :=
      (Parser.parse ⟨identifiers, {}⟩ start (.ofString text)).result
    (∃ tree, result "statement" "while" = .ok (.complete tree) ∧ tree.alternative = some 0) ∧
      (∃ tree, result "statement" "whiles" = .ok (.complete tree) ∧ tree.alternative = some 1) ∧
      ∃ tree, result "list" "whiles,_if" = .ok (.complete tree) := by
  intro result
  have hwhiles : IsIdentifier "whiles".toList :=
    ⟨'w', ['h', 'i', 'l', 'e', 's'], rfl, .inl rfl, List.all_eq_true.1 rfl⟩
  have hif : IsIdentifier "_if".toList := ⟨'_', ['i', 'f'], rfl, .inr rfl, List.all_eq_true.1 rfl⟩
  obtain ⟨hstatement, hlist⟩ := identifiers_partition
  obtain ⟨tree, hkeyword⟩ := (hstatement "while").1.2 (isIdentifier_of_keyword _ (by decide))
  obtain ⟨tree', hname⟩ := (hstatement "whiles").1.2 hwhiles
  refine ⟨⟨tree, hkeyword, (hstatement "while").2 tree hkeyword⟩,
    ⟨tree', hname, (hstatement "whiles").2 tree' hname⟩,
    (hlist "whiles,_if").2 ⟨["whiles", "_if"], List.cons_ne_nil _ _, ?_, rfl⟩⟩
  simp only [List.forall_mem_cons]
  exact ⟨⟨hwhiles, by decide⟩, ⟨hif, by decide⟩, nofun⟩

end Sample

end Packrat
