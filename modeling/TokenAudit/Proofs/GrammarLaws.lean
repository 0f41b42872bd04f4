import Mathlib.Data.List.TakeWhile
import TokenAudit.Lexeme.Grammar
import TokenAudit.Proofs.LexemeFront

/-!
# The grammar and the front of a text

A piece of the grammar is what stands at the front of a text: `isTrivia_iff` for trivia,
`front_of_isLexeme` and `isLexeme_of_front` for lexemes, where the condition on what may follow a
lexeme is that it cannot be taken longer.  So the first piece of a cut is a function of the text,
and a text has at most one cut.
-/

namespace TokenAudit

/-- A run of characters that goes on no further is what is taken and left. -/
theorem takeWhile_dropWhile_append {p : Char → Bool} {run rest : List Char}
    (hrun : ∀ c ∈ run, p c = true) (hrest : ∀ c, rest.head? = some c → p c = false) :
    (run ++ rest).takeWhile p = run ∧ (run ++ rest).dropWhile p = rest := by
  rw [List.takeWhile_append_of_pos hrun, List.dropWhile_append_of_pos hrun]
  cases rest with
  | nil => simp
  | cons c rest => simp [hrest c rfl]

theorem not_of_head?_dropWhile {p : Char → Bool} {text : List Char} {c : Char}
    (h : (text.dropWhile p).head? = some c) : p c = false := by
  have hhead := List.head?_dropWhile_not p text
  rwa [h] at hhead

namespace Trivia

/-- The body of a comment goes on to the first close. -/
theorem splitAfterClose?_append {body : List Char} (h : ¬ ['*', '/'] <:+: body)
    (after : List Char) :
    splitAfterClose? (body ++ '*' :: '/' :: after) = some (body ++ ['*', '/'], after) := by
  induction body with
  | nil => rfl
  | cons c body ih =>
      rw [List.infix_cons_iff, not_or] at h
      have hopen : c = '*' → (body ++ '*' :: '/' :: after).head? ≠ some '/' := by
        rintro rfl hhead
        cases body with
        | nil => cases hhead
        | cons d body =>
            obtain rfl : d = '/' := Option.some.inj hhead
            exact h.1 (by simp)
      rw [List.cons_append, splitAfterClose?_cons hopen, ih h.2]
      rfl

/-- The close that ends a comment is the first one. -/
theorem exists_body_of_splitAfterClose? {text comment after : List Char}
    (h : splitAfterClose? text = some (comment, after)) :
    ∃ body, comment = body ++ ['*', '/'] ∧ ¬ ['*', '/'] <:+: body := by
  fun_induction splitAfterClose? text generalizing comment with
  | case1 => cases h
  | case2 rest =>
      cases h
      exact ⟨[], rfl, by simp⟩
  | case3 c rest hnot ih =>
      obtain ⟨⟨inner, tail⟩, hsplit, heq⟩ := Option.map_eq_some_iff.1 h
      simp only [Prod.mk.injEq] at heq
      obtain ⟨rfl, rfl⟩ := heq
      obtain ⟨body, rfl, hbody⟩ := ih hsplit
      refine ⟨c :: body, rfl, ?_⟩
      rw [List.infix_cons_iff, not_or]
      refine ⟨fun hclose => ?_, hbody⟩
      -- A close at the front would have been taken as such.
      obtain ⟨hc, hfront⟩ := List.cons_prefix_cons.1 hclose
      obtain ⟨tail', rfl⟩ := hfront
      have hrest := append_of_splitAfterClose? hsplit
      exact hnot _ hc.symm hrest.symm

/-- Where a comment does not close, no close stands anywhere. -/
theorem not_infix_of_splitAfterClose?_eq_none {text : List Char}
    (h : splitAfterClose? text = none) : ¬ ['*', '/'] <:+: text := by
  fun_induction splitAfterClose? text with
  | case1 => simp
  | case2 rest => cases h
  | case3 c rest hnot ih =>
      rw [List.infix_cons_iff, not_or]
      refine ⟨fun hclose => ?_, ih (Option.map_eq_none_iff.1 h)⟩
      -- A close at the front would have been taken as such.
      obtain ⟨hc, after, hafter⟩ := List.cons_prefix_cons.1 hclose
      exact hnot after hc.symm hafter.symm

end Trivia

namespace Grammar

/-! ### Trivia -/

/-- The grammar's trivia is what is taken as a piece of trivia. -/
theorem isTrivia_iff {letters rest : List Char} :
    IsTrivia letters rest ↔ Trivia.item? (letters ++ rest) = some (letters, rest) := by
  constructor
  · intro h
    cases h with
    | blank hc => exact Trivia.item?_of_isBlank hc rest
    | @lineComment body _ hbody hend =>
        have hstop : ∀ c, rest.head? = some c → (c != '\n') = false := by
          rintro c hc
          rcases hend with rfl | hfeed
          · cases hc
          · rw [hfeed] at hc
            cases hc
            rfl
        have hrun : ∀ c ∈ body, (c != '\n') = true := fun c hc => by
          rw [bne_iff_ne]
          rintro rfl
          exact hbody hc
        obtain ⟨htake, hdrop⟩ := takeWhile_dropWhile_append hrun hstop
        rw [List.cons_append, List.cons_append, Trivia.item?_lineComment, htake, hdrop]
    | @blockComment body _ hbody =>
        have hclose := Trivia.splitAfterClose?_append hbody rest
        rw [List.cons_append, List.cons_append, Trivia.item?_blockComment, List.append_assoc,
          List.cons_append, List.singleton_append, hclose]
        rfl
  · intro h
    have htext := Trivia.append_of_item? h
    generalize letters ++ rest = text at h
    fun_cases Trivia.item? text with
    | case1 => cases h
    | case2 tail =>
        rw [Trivia.item?_lineComment] at h
        cases h
        refine .lineComment (fun hfeed => ?_) ?_
        · simpa using List.mem_takeWhile_imp hfeed
        · cases hhead : (tail.dropWhile (· != '\n')).head? with
          | none => exact .inl (List.head?_eq_none_iff.1 hhead)
          | some c =>
              have hc := not_of_head?_dropWhile hhead
              rw [bne_eq_false_iff_eq] at hc
              exact .inr (by rw [hc])
    | case3 tail =>
        rw [Trivia.item?_blockComment] at h
        obtain ⟨⟨comment, after⟩, hsplit, heq⟩ := Option.map_eq_some_iff.1 h
        cases heq
        obtain ⟨body, rfl, hbody⟩ := Trivia.exists_body_of_splitAfterClose? hsplit
        exact .blockComment hbody
    | case4 c tail hline hblock hblank =>
        simp only [Trivia.item?, hblank, if_true, Option.some.injEq, Prod.mk.injEq] at h
        obtain ⟨rfl, rfl⟩ := h
        exact .blank hblank
    | case5 c tail hline hblock hblank => simp [Trivia.item?, hblank] at h

/-! ### Lexemes -/

theorem mayPrecede_word {kind : Kind} (h : kind = .identifier ∨ kind ∈ Kind.keywords)
    (rest : List Char) :
    MayPrecede kind rest ↔ ∀ c, rest.head? = some c → Lexeme.isWordPart c = false := by
  rw [MayPrecede, if_pos h]

theorem mayPrecede_integer (rest : List Char) :
    MayPrecede .integer rest ↔ ∀ c, rest.head? = some c → Decimal.isDigit c = false := by
  rw [MayPrecede, if_neg (by decide), if_pos rfl]

theorem mayPrecede_divide (rest : List Char) :
    MayPrecede .divide rest ↔ rest.head? ≠ some '/' ∧ rest.head? ≠ some '*' := by
  rw [MayPrecede, if_neg (by decide), if_neg (by decide), if_pos rfl]

theorem not_word_of_mem_operators {kind : Kind} (h : kind ∈ Kind.operators) :
    ¬(kind = .identifier ∨ kind ∈ Kind.keywords) ∧ kind ≠ .integer := by
  fin_cases h <;> decide

/-- A comment is opened where its two characters stand. -/
theorem openComment_prefix_iff {c : Char} {rest : List Char} :
    ['/', '*'] <+: c :: rest ↔ c = '/' ∧ rest.head? = some '*' := by
  constructor
  · rintro ⟨body, hbody⟩
    cases hbody
    exact ⟨rfl, rfl⟩
  · rintro ⟨rfl, hhead⟩
    obtain ⟨body, rfl⟩ := List.head?_eq_some_iff.1 hhead
    exact ⟨body, rfl⟩

/-- What stands behind an operator that is matched where no comment begins. -/
theorem mayPrecede_operator {kind : Kind} {letters rest : List Char} (hkind : kind ∈ Kind.operators)
    (hletters : kind.letters? = some letters) (hitem : Trivia.item? (letters ++ rest) = none)
    (hcomment : ¬ ['/', '*'] <+: letters ++ rest) : MayPrecede kind rest := by
  obtain ⟨hword, hinteger⟩ := not_word_of_mem_operators hkind
  rw [MayPrecede, if_neg hword, if_neg hinteger]
  split_ifs with hdivide
  · subst hdivide
    cases hletters
    refine ⟨fun hline => ?_, fun hblock => hcomment (openComment_prefix_iff.2 ⟨rfl, hblock⟩)⟩
    -- The second slash would have begun a line comment.
    obtain ⟨body, rfl⟩ := List.head?_eq_some_iff.1 hline
    cases hitem

/-- A word that goes on no further is taken whole. -/
theorem front_of_word {c : Char} {tail rest : List Char} (hc : Lexeme.isLetter c = true)
    (htail : ∀ d ∈ tail, Lexeme.isWordPart d = true)
    (hrest : ∀ d, rest.head? = some d → Lexeme.isWordPart d = false) :
    Trivia.item? (c :: (tail ++ rest)) = none ∧
      Lexeme.ofFront c (tail ++ rest) = (Lexeme.ofWord (c :: tail), rest) := by
  obtain ⟨htake, hdrop⟩ := takeWhile_dropWhile_append htail hrest
  have hslash : c ≠ '/' := by
    rintro rfl
    cases hc
  have hblank : ¬ Trivia.isBlank c = true := fun hblank => by
    have hpart := Lexeme.isWordPart_of_isLetter hc
    rw [Lexeme.not_isWordPart_of_isBlank hblank] at hpart
    cases hpart
  rw [Lexeme.ofFront_word hc, htake, hdrop, Trivia.item?_of_ne_slash hslash, if_neg hblank]
  exact ⟨rfl, rfl⟩

theorem front_of_digits {c : Char} {tail rest : List Char} (hc : Decimal.isDigit c = true)
    (htail : ∀ d ∈ tail, Decimal.isDigit d = true)
    (hrest : ∀ d, rest.head? = some d → Decimal.isDigit d = false) :
    Trivia.item? (c :: (tail ++ rest)) = none ∧
      Lexeme.ofFront c (tail ++ rest) = (Lexeme.ofDigits (c :: tail), rest) := by
  obtain ⟨htake, hdrop⟩ := takeWhile_dropWhile_append htail hrest
  have hslash : c ≠ '/' := by
    rintro rfl
    cases hc
  have hblank : ¬ Trivia.isBlank c = true := fun hblank => by
    have hpart := Lexeme.not_isWordPart_of_isBlank hblank
    rw [Lexeme.isWordPart, hc, Bool.or_true] at hpart
    cases hpart
  rw [Lexeme.ofFront_digits hc, htake, hdrop, Trivia.item?_of_ne_slash hslash, if_neg hblank]
  exact ⟨rfl, rfl⟩

/-- Every operator or delimiter but the assignment sign is one character. -/
theorem exists_char_of_mem_operators {kind : Kind} {letters : List Char}
    (h : kind ∈ Kind.operators) (hletters : kind.letters? = some letters)
    (hassign : kind ≠ .assign) :
    ∃ c, letters = [c] ∧ Kind.operator? [c] = some kind ∧ Lexeme.isLetter c = false ∧
      Decimal.isDigit c = false ∧ c ≠ '"' ∧ c ≠ ':' ∧ Trivia.isBlank c = false ∧
      (c = '/' → kind = .divide) := by
  fin_cases h <;> cases hletters <;>
    first | exact absurd rfl hassign | exact ⟨_, rfl, by decide⟩

/-- An operator or delimiter is taken unless it is a slash that opens a comment. -/
theorem front_of_operator {kind : Kind} {letters rest : List Char} (h : kind ∈ Kind.operators)
    (hletters : kind.letters? = some letters) (hrest : MayPrecede kind rest) :
    ∃ c tail, letters = c :: tail ∧ Trivia.item? (c :: (tail ++ rest)) = none ∧
      Lexeme.ofFront c (tail ++ rest) = (⟨some kind, letters⟩, rest) := by
  -- The assignment sign is the only one of two characters.
  by_cases hassign : kind = .assign
  · subst hassign
    cases hletters
    exact ⟨':', ['='], rfl, Trivia.item?_of_ne_slash (by decide) _, Lexeme.ofFront_assign rest⟩
  obtain ⟨c, rfl, hfound, hletter, hdigit, hquote, hcolon, hblank, hslash⟩ :=
    exists_char_of_mem_operators h hletters hassign
  have hcomment : c = '/' → rest.head? ≠ some '/' ∧ rest.head? ≠ some '*' := by
    intro hc
    rw [hslash hc] at hrest
    exact (mayPrecede_divide rest).1 hrest
  refine ⟨c, [], rfl, ?_, ?_⟩
  · by_cases hc : c = '/'
    · subst hc
      exact Trivia.item?_slash (hcomment rfl).1 (hcomment rfl).2
    · rw [Trivia.item?_of_ne_slash hc, hblank]
      rfl
  · rw [List.nil_append, Lexeme.ofFront_single hletter hdigit hquote (fun hc => (hcomment hc).2)
      (fun hc => absurd hc hcolon), hfound]

/-- A lexeme that may stand before the rest is taken from the front. -/
theorem front_of_isLexeme {kind : Kind} {letters rest : List Char} (h : IsLexeme kind letters)
    (hrest : MayPrecede kind rest) :
    ∃ c tail, letters = c :: tail ∧ Trivia.item? (c :: (tail ++ rest)) = none ∧
      Lexeme.ofFront c (tail ++ rest) = (⟨some kind, letters⟩, rest) := by
  cases h with
  | fixed hletters =>
      rcases Kind.mem_of_letters? hletters with hoperator | hkeyword
      · exact front_of_operator hoperator hletters hrest
      · obtain ⟨hfound, hne, hall⟩ := Kind.keyword?_of_mem hkeyword hletters
        rw [mayPrecede_word (.inr hkeyword)] at hrest
        obtain ⟨c, tail, rfl⟩ := List.exists_cons_of_ne_nil hne
        rw [List.forall_mem_cons] at hall
        obtain ⟨hitem, hfront⟩ := front_of_word hall.1
          (fun d hd => Lexeme.isWordPart_of_isLetter (hall.2 d hd)) hrest
        refine ⟨c, tail, rfl, hitem, ?_⟩
        rw [hfront, Lexeme.ofWord, hfound]
        rfl
  | zero =>
      rw [mayPrecede_integer] at hrest
      obtain ⟨hitem, hfront⟩ := front_of_digits (show Decimal.isDigit '0' = true from rfl)
        (List.forall_mem_nil _) hrest
      exact ⟨'0', [], rfl, hitem, hfront⟩
  | integer hne hall hzero hvalue =>
      rw [mayPrecede_integer] at hrest
      obtain ⟨c, tail, rfl⟩ := List.exists_cons_of_ne_nil hne
      rw [List.forall_mem_cons] at hall
      obtain ⟨hitem, hfront⟩ := front_of_digits hall.1 hall.2 hrest
      refine ⟨c, tail, rfl, hitem, ?_⟩
      have hnumeral : Lexeme.isNumeral (c :: tail) = true := by
        simp only [Lexeme.isNumeral, Bool.and_eq_true, Bool.or_eq_true, bne_iff_ne,
          decide_eq_true_eq]
        exact ⟨.inr hzero, hvalue⟩
      rw [hfront, Lexeme.ofDigits, if_pos hnumeral]
  | @stringLit inner hall =>
      have hclose : ∀ d, ('"' :: rest).head? = some d → Lexeme.isLetter d = false := by
        intro d hd
        cases hd
        rfl
      obtain ⟨htake, hdrop⟩ := takeWhile_dropWhile_append hall hclose
      refine ⟨'"', inner ++ ['"'], rfl, by rw [Trivia.item?_of_ne_slash (by decide)]; rfl, ?_⟩
      rw [List.append_assoc, List.singleton_append, Lexeme.ofFront_quoted hdrop, htake]
  | @identifier c tail hc htail hfree =>
      rw [mayPrecede_word (.inl rfl)] at hrest
      obtain ⟨hitem, hfront⟩ := front_of_word hc htail hrest
      refine ⟨c, tail, rfl, hitem, ?_⟩
      -- A word that is found among the keywords is spelled like one.
      have hnone : Kind.keyword? (c :: tail) = none := by
        by_contra hsome
        obtain ⟨found, hfound⟩ := Option.ne_none_iff_exists'.1 hsome
        exact hfree found (Kind.letters?_of_keyword? hfound)
      rw [hfront, Lexeme.ofWord, hnone]
      rfl

theorem isLexeme_of_isNumeral {digits : List Char} (hne : digits ≠ [])
    (hall : ∀ c ∈ digits, Decimal.isDigit c = true) (h : Lexeme.isNumeral digits = true) :
    IsLexeme .integer digits := by
  simp only [Lexeme.isNumeral, Bool.and_eq_true, Bool.or_eq_true, bne_iff_ne,
    decide_eq_true_eq] at h
  -- A leading zero is no part of a longer numeral.
  by_cases hzero : digits.head? = some '0'
  · obtain ⟨tail, rfl⟩ := List.head?_eq_some_iff.1 hzero
    have hlength : tail = [] := by
      rcases h.1 with hshort | hhead
      · rw [List.length_cons] at hshort
        exact List.length_eq_zero_iff.1 (by omega)
      · exact absurd hzero hhead
    rw [hlength]
    exact .zero
  · exact .integer hne hall hzero h.2

/-- A word is a keyword or an identifier. -/
theorem isLexeme_of_word {c : Char} {tail : List Char} {kind : Kind}
    (hc : Lexeme.isLetter c = true) (htail : ∀ d ∈ tail, Lexeme.isWordPart d = true)
    (hkind : (Lexeme.ofWord (c :: tail)).kind? = some kind) :
    IsLexeme kind (c :: tail) ∧ (kind = .identifier ∨ kind ∈ Kind.keywords) := by
  rw [Lexeme.ofWord, Option.some.injEq] at hkind
  cases hkeyword : Kind.keyword? (c :: tail) with
  | some found =>
      rw [hkeyword, Option.getD_some] at hkind
      subst hkind
      exact ⟨.fixed (Kind.letters?_of_keyword? hkeyword), .inr (List.mem_of_find?_eq_some hkeyword)⟩
  | none =>
      rw [hkeyword, Option.getD_none] at hkind
      subst hkind
      refine ⟨.identifier hc htail fun kind hletters => ?_, .inl rfl⟩
      rcases Kind.mem_of_letters? hletters with hoperator | hword
      · obtain ⟨d, rest, heq, hd⟩ := Kind.exists_head_of_mem_operators hoperator hletters
        cases heq
        rw [hc] at hd
        cases hd
      · rw [(Kind.keyword?_of_mem hword hletters).1] at hkeyword
        cases hkeyword

/-- What is taken from the front of a text is a lexeme that may stand before the rest, unless it is
an error. -/
theorem isLexeme_of_front {c : Char} {tail : List Char} {kind : Kind}
    (hitem : Trivia.item? (c :: tail) = none)
    (hkind : (Lexeme.ofFront c tail).1.kind? = some kind) (herror : kind ≠ .error) :
    IsLexeme kind (Lexeme.ofFront c tail).1.letters ∧
      MayPrecede kind (Lexeme.ofFront c tail).2 := by
  cases Lexeme.shape c tail with
  | word hc =>
      rw [Lexeme.ofFront_word hc] at hkind ⊢
      obtain ⟨hlexeme, hword⟩ :=
        isLexeme_of_word hc (fun d hd => List.mem_takeWhile_imp hd) hkind
      refine ⟨hlexeme, ?_⟩
      rw [mayPrecede_word hword]
      exact fun d hd => not_of_head?_dropWhile hd
  | digits hc =>
      rw [Lexeme.ofFront_digits hc] at hkind ⊢
      simp only [Lexeme.ofDigits, Option.ite_none_right_eq_some, Option.some.injEq] at hkind
      obtain ⟨hnumeral, rfl⟩ := hkind
      refine ⟨isLexeme_of_isNumeral (List.cons_ne_nil _ _) ?_ hnumeral, ?_⟩
      · exact List.forall_mem_cons.2 ⟨hc, fun d hd => List.mem_takeWhile_imp hd⟩
      · rw [mayPrecede_integer]
        exact fun d hd => not_of_head?_dropWhile hd
  | quoted after hc hclose =>
      subst hc
      rw [Lexeme.ofFront_quoted hclose] at hkind ⊢
      cases hkind
      exact ⟨.stringLit fun d hd => List.mem_takeWhile_imp hd, trivial⟩
  | openQuote hc hopen =>
      subst hc
      rw [Lexeme.ofFront_openQuote hopen] at hkind
      cases hkind
  | openComment body hc hrest =>
      subst hc hrest
      cases hkind
      exact absurd rfl herror
  | assign after hc hrest =>
      subst hc hrest
      cases hkind
      exact ⟨.fixed rfl, trivial⟩
  | single hletter hdigit hquote hcomment hassign =>
      rw [Lexeme.ofFront_single hletter hdigit hquote hcomment hassign] at hkind ⊢
      have hfound : Kind.operator? [c] = some kind := hkind
      have hletters := Kind.letters?_of_operator? hfound
      have hopen : ¬ ['/', '*'] <+: c :: tail := by
        rw [openComment_prefix_iff]
        rintro ⟨hc, hhead⟩
        exact hcomment hc hhead
      exact ⟨.fixed hletters,
        mayPrecede_operator (List.mem_of_find?_eq_some hfound) hletters hitem hopen⟩

/-! ### Cuts -/

theorem cuts_nil_iff {pieces : List Piece} : Cuts [] pieces ↔ pieces = [] := by
  constructor
  · intro h
    generalize htext : ([] : List Char) = text at h
    cases h with
    | nil => rfl
    | trivia htrivia _ =>
        have hitem := isTrivia_iff.1 htrivia
        rw [← htext] at hitem
        cases hitem
    | lexeme hlexeme hmay _ =>
        obtain ⟨c, tail, rfl, -, -⟩ := front_of_isLexeme hlexeme hmay
        cases htext
  · rintro rfl
    exact .nil

/-- Where a piece of trivia is taken, every cut begins with it. -/
theorem cuts_iff_of_item? {text item rest : List Char} {pieces : List Piece}
    (hitem : Trivia.item? text = some (item, rest)) :
    Cuts text pieces ↔ ∃ later, pieces = .trivia item :: later ∧ Cuts rest later := by
  constructor
  · intro h
    cases h with
    | nil => cases hitem
    | trivia htrivia hlater =>
        rw [isTrivia_iff.1 htrivia] at hitem
        cases hitem
        exact ⟨_, rfl, hlater⟩
    | lexeme hlexeme hmay hlater =>
        obtain ⟨c, tail, rfl, hnone, -⟩ := front_of_isLexeme hlexeme hmay
        rw [List.cons_append, hnone] at hitem
        cases hitem
  · rintro ⟨later, rfl, hlater⟩
    have htext := Trivia.append_of_item? hitem
    subst htext
    exact .trivia (isTrivia_iff.2 hitem) hlater

/-- Where no trivia is taken, every cut begins with the lexeme there, which must not be an error. -/
theorem cuts_iff_of_front {c : Char} {tail : List Char} {pieces : List Piece}
    (hitem : Trivia.item? (c :: tail) = none) :
    Cuts (c :: tail) pieces ↔ ∃ kind later, (Lexeme.ofFront c tail).1.kind? = some kind ∧
      kind ≠ .error ∧ pieces = .lexeme kind (Lexeme.ofFront c tail).1.letters :: later ∧
      Cuts (Lexeme.ofFront c tail).2 later := by
  constructor
  · intro h
    generalize htext : c :: tail = text at h
    cases h with
    | nil => cases htext
    | trivia htrivia hlater =>
        rw [htext, isTrivia_iff.1 htrivia] at hitem
        cases hitem
    | lexeme hlexeme hmay hlater =>
        obtain ⟨d, letters, rfl, -, hfront⟩ := front_of_isLexeme hlexeme hmay
        rw [List.cons_append, List.cons.injEq] at htext
        obtain ⟨rfl, rfl⟩ := htext
        rw [hfront]
        refine ⟨_, _, rfl, ?_, rfl, hlater⟩
        rintro rfl
        cases hlexeme with
        | fixed hletters => cases hletters
  · rintro ⟨kind, later, hkind, herror, rfl, hlater⟩
    obtain ⟨hlexeme, hmay⟩ := isLexeme_of_front hitem hkind herror
    have hcuts := Cuts.lexeme hlexeme hmay hlater
    rwa [Lexeme.letters_append_ofFront] at hcuts

/-- A text has at most one cut. -/
theorem cuts_unique {text : List Char} {pieces others : List Piece} (h : Cuts text pieces)
    (hothers : Cuts text others) : pieces = others := by
  induction h generalizing others with
  | nil => exact (cuts_nil_iff.1 hothers).symm
  | trivia htrivia _ ih =>
      obtain ⟨later, rfl, hlater⟩ := (cuts_iff_of_item? (isTrivia_iff.1 htrivia)).1 hothers
      rw [ih hlater]
  | lexeme hlexeme hmay _ ih =>
      obtain ⟨c, tail, rfl, hnone, hfront⟩ := front_of_isLexeme hlexeme hmay
      obtain ⟨kind, later, hkind, -, rfl, hlater⟩ := (cuts_iff_of_front hnone).1 hothers
      rw [hfront] at hkind hlater ⊢
      cases hkind
      rw [ih hlater]

end Grammar

end TokenAudit
