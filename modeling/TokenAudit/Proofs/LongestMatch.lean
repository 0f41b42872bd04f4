import TokenAudit.Proofs.GrammarLaws
import TokenAudit.Proofs.LexemeSequence

/-!
# Lexemes are longest matches

A lexeme is the longest beginning of the text ahead that can be matched as an operator or delimiter,
a run of digits, a string or a word.  `Grammar.Matches` says what can be matched and
`Grammar.Classified` which kind it then has, both without looking at what follows.
`Grammar.LongestMatch` puts them together with the two ways of matching nothing: a comment that is
never closed takes all that is left, and any other front is unclassified.
-/

namespace TokenAudit

namespace Grammar

/-- A run of digits. -/
def IsDigits (letters : List Char) : Prop :=
  letters ≠ [] ∧ ∀ c ∈ letters, Decimal.isDigit c = true

/-- A run of digits that denotes an integer: it has no leading zero unless it is `0`, and its value
is at most 32767. -/
def IsNumeral (digits : List Char) : Prop :=
  (digits = ['0'] ∨ digits.head? ≠ some '0') ∧ Decimal.value digits ≤ 32767

/-- What a beginning of a text can be matched as. -/
inductive Matches : List Char → Prop
  | operator {kind : Kind} {letters : List Char} : kind ∈ Kind.operators →
      kind.letters? = some letters → Matches letters
  | digits {digits : List Char} : IsDigits digits → Matches digits
  | string {letters : List Char} : (∀ c ∈ letters, Lexeme.isLetter c = true) →
      Matches ('"' :: (letters ++ ['"']))
  | word {c : Char} {rest : List Char} : Lexeme.isLetter c = true →
      (∀ d ∈ rest, Lexeme.isWordPart d = true) → Matches (c :: rest)

/-- The kind of what was matched: that of the lexeme which it is, and none if it is a run of digits
that denotes no integer. -/
inductive Classified : List Char → Option Kind → Prop
  | lexeme {kind : Kind} {letters : List Char} : IsLexeme kind letters →
      Classified letters (some kind)
  | digits {digits : List Char} : IsDigits digits → ¬ IsNumeral digits → Classified digits none

/-- How a lexeme is taken from the front of a text.  Where a comment is opened, it is never closed.
Otherwise the lexeme is the longest match, and where nothing matches it is unclassified: a quote
with the letters behind it, or a single character. -/
structure LongestMatch (text : List Char) (lexeme : Lexeme) : Prop where
  isBlank_head : ∀ c, text.head? = some c → Trivia.isBlank c = false
  not_lineComment : ¬ ['/', '/'] <+: text
  openComment : ['/', '*'] <+: text →
    ¬ ['*', '/'] <:+: text.drop 2 ∧ lexeme = ⟨some .error, text⟩
  longest : ¬ ['/', '*'] <+: text → ∀ front, front <+: text → Matches front →
    lexeme.letters <+: text ∧ Matches lexeme.letters ∧
      front.length ≤ lexeme.letters.length ∧ Classified lexeme.letters lexeme.kind?
  integer_iff : IsDigits lexeme.letters → (lexeme.kind? = some .integer ↔ IsNumeral lexeme.letters)
  unmatched : ¬ ['/', '*'] <+: text → (∀ front, front <+: text → ¬ Matches front) →
    ∃ c rest, text = c :: rest ∧
      lexeme = ⟨none, if c = '"' then c :: rest.takeWhile Lexeme.isLetter else [c]⟩

/-! ### Numerals -/

theorem isNumeral_iff {digits : List Char} (hne : digits ≠ []) :
    Lexeme.isNumeral digits = true ↔ IsNumeral digits := by
  obtain ⟨c, tail, rfl⟩ := List.exists_cons_of_ne_nil hne
  simp only [Lexeme.isNumeral, IsNumeral, Bool.and_eq_true, Bool.or_eq_true, bne_iff_ne,
    decide_eq_true_eq]
  refine and_congr ⟨?_, ?_⟩ Iff.rfl
  · rintro (hshort | hhead)
    · -- A single digit is zero or does not begin with zero.
      have htail : tail = [] := by
        rw [List.length_cons] at hshort
        exact List.length_eq_zero_iff.1 (by omega)
      subst htail
      by_cases hc : c = '0'
      · exact .inl (by rw [hc])
      · exact .inr fun hzero => hc (Option.some.inj hzero)
    · exact .inr hhead
  · rintro (hzero | hhead)
    · exact .inl (by rw [hzero]; rfl)
    · exact .inr hhead

theorem classified_ofDigits {digits : List Char} (h : IsDigits digits) :
    Classified digits (Lexeme.ofDigits digits).kind? := by
  rw [Lexeme.ofDigits]
  split
  · rename_i hnumeral
    exact .lexeme (isLexeme_of_isNumeral h.1 h.2 hnumeral)
  · rename_i hnumeral
    exact .digits h (mt (isNumeral_iff h.1).2 hnumeral)

/-! ### Matches in front -/

theorem prefix_takeWhile {p : Char → Bool} {run text : List Char} (hrun : ∀ c ∈ run, p c = true)
    (h : run <+: text) : run <+: text.takeWhile p := by
  obtain ⟨rest, rfl⟩ := h
  rw [List.takeWhile_append_of_pos hrun]
  exact List.prefix_append _ _

/-- Whatever matches in front of a text is a beginning of the lexeme there, which matches and is
classified itself. -/
theorem prefix_letters_of_matches {c : Char} {tail front : List Char} (h : Matches front)
    (hfront : front <+: c :: tail) (hitem : Trivia.item? (c :: tail) = none)
    (hcomment : ¬ ['/', '*'] <+: c :: tail) :
    front <+: (Lexeme.ofFront c tail).1.letters ∧ Matches (Lexeme.ofFront c tail).1.letters ∧
      Classified (Lexeme.ofFront c tail).1.letters (Lexeme.ofFront c tail).1.kind? := by
  cases h with
  | operator hkind hletters =>
      obtain ⟨rest, hrest⟩ := hfront
      rw [← hrest] at hitem hcomment
      obtain ⟨d, more, rfl, -, htaken⟩ := front_of_operator hkind hletters
        (mayPrecede_operator hkind hletters hitem hcomment)
      rw [List.cons_append, List.cons.injEq] at hrest
      obtain ⟨rfl, rfl⟩ := hrest
      rw [htaken]
      exact ⟨List.prefix_refl _, .operator hkind hletters, .lexeme (.fixed hletters)⟩
  | digits hdigits =>
      obtain ⟨d, run, rfl⟩ := List.exists_cons_of_ne_nil hdigits.1
      obtain ⟨rfl, hrun⟩ := List.cons_prefix_cons.1 hfront
      obtain ⟨hd, hall⟩ := List.forall_mem_cons.1 hdigits.2
      have htaken : IsDigits (d :: tail.takeWhile Decimal.isDigit) :=
        ⟨List.cons_ne_nil _ _, List.forall_mem_cons.2 ⟨hd, fun e he => List.mem_takeWhile_imp he⟩⟩
      rw [Lexeme.ofFront_digits hd]
      exact ⟨List.cons_prefix_cons.2 ⟨rfl, prefix_takeWhile hall hrun⟩, .digits htaken,
        classified_ofDigits htaken⟩
  | @string inner hall =>
      obtain ⟨rfl, after, hafter⟩ := List.cons_prefix_cons.1 hfront
      rw [List.append_assoc, List.singleton_append] at hafter
      have hclose : ∀ d, ('"' :: after).head? = some d → Lexeme.isLetter d = false := by
        rintro d ⟨⟩
        rfl
      obtain ⟨htake, hdrop⟩ := takeWhile_dropWhile_append hall hclose
      rw [← hafter, Lexeme.ofFront_quoted hdrop, htake]
      exact ⟨List.prefix_refl _, .string hall, .lexeme (.stringLit hall)⟩
  | @word d run hd hall =>
      obtain ⟨rfl, hrun⟩ := List.cons_prefix_cons.1 hfront
      have htaken : ∀ e ∈ tail.takeWhile Lexeme.isWordPart, Lexeme.isWordPart e = true :=
        fun e he => List.mem_takeWhile_imp he
      rw [Lexeme.ofFront_word hd]
      exact ⟨List.cons_prefix_cons.2 ⟨rfl, prefix_takeWhile hall hrun⟩, .word hd htaken,
        .lexeme (isLexeme_of_word hd htaken rfl).1⟩

/-- Where nothing matches, the lexeme is a quote with the letters behind it or a single character,
and it is unclassified. -/
theorem ofFront_of_unmatched {c : Char} {tail : List Char}
    (h : ∀ front, front <+: c :: tail → ¬ Matches front) (hcomment : ¬ ['/', '*'] <+: c :: tail) :
    (Lexeme.ofFront c tail).1 =
      ⟨none, if c = '"' then c :: tail.takeWhile Lexeme.isLetter else [c]⟩ := by
  have hsingle : ¬ Matches [c] := h [c] ⟨tail, rfl⟩
  cases Lexeme.shape c tail with
  | word hc =>
      exact absurd (.word hc (List.forall_mem_nil _)) hsingle
  | digits hc =>
      have hdigits : IsDigits [c] := ⟨List.cons_ne_nil _ _, by simpa using hc⟩
      exact absurd (.digits hdigits) hsingle
  | quoted after hc hclose =>
      subst hc
      have hletters : ∀ d ∈ tail.takeWhile Lexeme.isLetter, Lexeme.isLetter d = true :=
        fun d hd => List.mem_takeWhile_imp hd
      refine absurd (.string hletters) (h _ (List.cons_prefix_cons.2 ⟨rfl, after, ?_⟩))
      rw [List.append_assoc, List.singleton_append, ← hclose, List.takeWhile_append_dropWhile]
  | openQuote hc hopen =>
      subst hc
      rw [Lexeme.ofFront_openQuote hopen, if_pos rfl]
  | openComment body hc hrest =>
      subst hc hrest
      exact absurd ⟨body, rfl⟩ hcomment
  | assign after hc hrest =>
      subst hc hrest
      have hassign : Kind.assign ∈ Kind.operators := by decide
      exact absurd (.operator hassign rfl) (h [':', '='] ⟨after, rfl⟩)
  | single hletter hdigit hquote hblock hassign =>
      rw [Lexeme.ofFront_single hletter hdigit hquote hblock hassign, if_neg hquote]
      cases hfound : Kind.operator? [c] with
      | none => rfl
      | some kind =>
          have hkind := List.mem_of_find?_eq_some hfound
          exact absurd (.operator hkind (Kind.letters?_of_operator? hfound)) hsingle

/-! ### Lexemes -/

/-- What is taken where no trivia stands is the longest match. -/
theorem longestMatch_ofFront {c : Char} {tail : List Char}
    (hitem : Trivia.item? (c :: tail) = none) :
    LongestMatch (c :: tail) (Lexeme.ofFront c tail).1 where
  isBlank_head d hd := by
    obtain rfl : c = d := Option.some.inj hd
    by_contra hblank
    rw [Trivia.item?_of_isBlank (by simpa using hblank)] at hitem
    cases hitem
  not_lineComment := by
    rintro ⟨body, hbody⟩
    cases hbody
    cases hitem
  openComment := by
    rintro ⟨body, hbody⟩
    cases hbody
    refine ⟨Trivia.not_infix_of_splitAfterClose?_eq_none ?_, rfl⟩
    exact Option.map_eq_none_iff.1 hitem
  longest hcomment front hfront hmatches := by
    obtain ⟨hbegins, hletters, hclassified⟩ :=
      prefix_letters_of_matches hmatches hfront hitem hcomment
    exact ⟨⟨_, Lexeme.letters_append_ofFront c tail⟩, hletters, hbegins.length_le, hclassified⟩
  integer_iff hdigits := by
    obtain ⟨d, run, hrun⟩ := List.exists_cons_of_ne_nil hdigits.1
    have hhead : d = c := by
      have happend := Lexeme.letters_append_ofFront c tail
      rw [hrun] at happend
      exact (List.cons.inj happend).1
    have hd := hdigits.2 d (hrun ▸ List.mem_cons_self ..)
    subst hhead
    rw [Lexeme.ofFront_digits hd, Lexeme.ofDigits, ← isNumeral_iff (List.cons_ne_nil _ _)]
    simp
  unmatched hcomment hnone := ⟨c, tail, rfl, ofFront_of_unmatched hnone hcomment⟩

end Grammar

/-- Every lexeme of a text is the longest match in front of what stands at its offset.  A scan makes
one token of every lexeme, which keeps its letters as text and is an error exactly if the lexeme is
unclassified or a comment that is never closed. -/
theorem lexemes_are_longest_matches (text : List Char) :
    (∀ l ∈ lexemesOf text, ∃ ahead, Text.dropBytes? text l.start = some ahead ∧
      Grammar.LongestMatch ahead l.lexeme) ∧
    (∃ stop, (Scan.ofText text).tokens.value =
      ((lexemesOf text).map fun l =>
        l.lexeme.token ((LineTable.ofText text).positionAt text l.start)) ++ [.eof stop]) ∧
    ∀ l ∈ lexemesOf text, ∀ p,
      ((l.lexeme.token p).isError = true ↔
        l.lexeme.kind? = none ∨ l.lexeme.kind? = some .error) ∧
      (∀ kind, l.lexeme.kind? = some kind → (l.lexeme.token p).kind = kind) ∧
      (l.lexeme.token p).text = String.ofList l.lexeme.letters := by
  refine ⟨fun l hl => ?_, ⟨_, Scan.tokens_ofText_eq_map text⟩, fun l hl p => ?_⟩
  · obtain ⟨c, tail, ⟨read, rfl, hstart⟩, hitem, hlexeme⟩ := exists_takenFrom_of_mem_lexemesOf hl
    rw [hstart, hlexeme]
    exact ⟨c :: tail, Text.dropBytes?_append _ _, Grammar.longestMatch_ofFront hitem⟩
  · obtain ⟨c, tail, -, -, hlexeme⟩ := exists_takenFrom_of_mem_lexemesOf hl
    rw [hlexeme, Lexeme.token_ofFront]
    cases (Lexeme.ofFront c tail).1.kind? with
    | none => simp [Token.isError, Kind.isError]
    | some kind => simp [Token.isError, Kind.isError]

end TokenAudit
