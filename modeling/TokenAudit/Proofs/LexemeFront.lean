import Mathlib.Tactic.FinCases
import TokenAudit.Lexeme.Cursor

/-!
# What stands at the front of a text

The cases of `Trivia.item?` and `Lexeme.ofFront`, each with the answer it gives.  A text that does
not begin with trivia begins with a word, a run of digits, a quote, a comment that is never closed,
the assignment sign or some other single character.  `Lexeme.shape` is that case distinction, and
one equation an alternative says what is taken.
-/

namespace TokenAudit

/-! ### Fixed spellings -/

namespace Kind

theorem letters?_of_operator? {cs : List Char} {k : Kind} (h : operator? cs = some k) :
    k.letters? = some cs := by
  have hfound := List.find?_some h
  exact eq_of_beq hfound

theorem letters?_of_keyword? {cs : List Char} {k : Kind} (h : keyword? cs = some k) :
    k.letters? = some cs := by
  have hfound := List.find?_some h
  exact eq_of_beq hfound

/-- Only operators, delimiters and keywords have a fixed spelling. -/
theorem mem_of_letters? {k : Kind} {cs : List Char} (h : k.letters? = some cs) :
    k ∈ operators ∨ k ∈ keywords := by
  cases k <;> first | decide | cases h

theorem exists_head_of_mem_operators {k : Kind} {cs : List Char} (hk : k ∈ operators)
    (h : k.letters? = some cs) : ∃ c rest, cs = c :: rest ∧ Lexeme.isLetter c = false := by
  fin_cases hk <;> cases h <;> exact ⟨_, _, rfl, rfl⟩

/-- A keyword is a word of letters, and is found by its spelling. -/
theorem keyword?_of_mem {k : Kind} {cs : List Char} (hk : k ∈ keywords)
    (h : k.letters? = some cs) :
    keyword? cs = some k ∧ cs ≠ [] ∧ ∀ c ∈ cs, Lexeme.isLetter c = true := by
  fin_cases hk <;> cases h <;>
    exact ⟨rfl, List.cons_ne_nil _ _, List.all_eq_true.1 rfl⟩

end Kind

/-! ### Classes of characters -/

namespace Lexeme

theorem isWordPart_of_isLetter {c : Char} (h : isLetter c = true) : isWordPart c = true := by
  simp [isWordPart, h]

theorem isDigit_eq_false_of_isLetter {c : Char} (h : isLetter c = true) :
    Decimal.isDigit c = false := by
  simp only [isLetter, Decimal.isDigit, Char.le_def, UInt32.le_iff_toNat_le, Bool.or_eq_true,
    Bool.and_eq_true, decide_eq_true_eq, Bool.and_eq_false_iff, decide_eq_false_iff_not] at h ⊢
  simp at h ⊢
  omega

theorem not_isWordPart_of_isBlank {c : Char} (h : Trivia.isBlank c = true) :
    isWordPart c = false := by
  simp only [Trivia.isBlank, Bool.or_eq_true, beq_iff_eq] at h
  rcases h with (((rfl | rfl) | rfl) | rfl) | rfl <;> decide

end Lexeme

/-! ### Trivia in front -/

namespace Trivia

@[simp] theorem item?_lineComment (rest : List Char) :
    item? ('/' :: '/' :: rest) =
      some ('/' :: '/' :: rest.takeWhile (· != '\n'), rest.dropWhile (· != '\n')) := rfl

@[simp] theorem item?_blockComment (rest : List Char) :
    item? ('/' :: '*' :: rest) =
      (splitAfterClose? rest).map fun (body, after) => ('/' :: '*' :: body, after) := rfl

/-- Where no comment closes, the close is looked for further on. -/
theorem splitAfterClose?_cons {c : Char} {rest : List Char} (h : c = '*' → rest.head? ≠ some '/') :
    splitAfterClose? (c :: rest) =
      (splitAfterClose? rest).map fun (body, after) => (c :: body, after) := by
  rw [splitAfterClose?]
  rintro tail rfl rfl
  exact h rfl rfl

/-- Where no comment begins, only a blank character is trivia. -/
theorem item?_of_ne_slash {c : Char} (hc : c ≠ '/') (rest : List Char) :
    item? (c :: rest) = if isBlank c then some ([c], rest) else none := by
  rw [item?]
  · exact fun tail hslash _ => hc hslash
  · exact fun tail hslash _ => hc hslash

theorem item?_slash {rest : List Char} (hline : rest.head? ≠ some '/')
    (hblock : rest.head? ≠ some '*') : item? ('/' :: rest) = none := by
  rw [item?]
  · rfl
  · rintro tail - rfl
    exact hline rfl
  · rintro tail - rfl
    exact hblock rfl

theorem item?_of_isBlank {c : Char} (hc : isBlank c = true) (rest : List Char) :
    item? (c :: rest) = some ([c], rest) := by
  have hne : c ≠ '/' := by
    rintro rfl
    cases hc
  rw [item?_of_ne_slash hne, if_pos hc]

end Trivia

/-! ### Lexemes in front -/

namespace Lexeme

/-- What a text that does not begin with trivia may begin with. -/
inductive Shape (c : Char) (rest : List Char) : Prop
  | word (hc : isLetter c = true)
  | digits (hc : Decimal.isDigit c = true)
  | quoted (after : List Char) (hc : c = '"') (hclose : rest.dropWhile isLetter = '"' :: after)
  | openQuote (hc : c = '"') (hopen : (rest.dropWhile isLetter).head? ≠ some '"')
  | openComment (body : List Char) (hc : c = '/') (hrest : rest = '*' :: body)
  | assign (after : List Char) (hc : c = ':') (hrest : rest = '=' :: after)
  | single (hletter : isLetter c = false) (hdigit : Decimal.isDigit c = false)
      (hquote : c ≠ '"') (hcomment : c = '/' → rest.head? ≠ some '*')
      (hassign : c = ':' → rest.head? ≠ some '=')

/-- Every front has one of these shapes. -/
theorem shape (c : Char) (rest : List Char) : Shape c rest := by
  by_cases hletter : isLetter c = true
  · exact .word hletter
  by_cases hdigit : Decimal.isDigit c = true
  · exact .digits hdigit
  by_cases hquote : c = '"'
  · by_cases hclose : (rest.dropWhile isLetter).head? = some '"'
    · obtain ⟨after, hafter⟩ := List.head?_eq_some_iff.1 hclose
      exact .quoted after hquote hafter
    · exact .openQuote hquote hclose
  by_cases hcomment : c = '/' ∧ rest.head? = some '*'
  · obtain ⟨body, hbody⟩ := List.head?_eq_some_iff.1 hcomment.2
    exact .openComment body hcomment.1 hbody
  by_cases hassign : c = ':' ∧ rest.head? = some '='
  · obtain ⟨after, hafter⟩ := List.head?_eq_some_iff.1 hassign.2
    exact .assign after hassign.1 hafter
  exact .single (by simpa using hletter) (by simpa using hdigit) hquote
    (fun h => not_and.1 hcomment h) (fun h => not_and.1 hassign h)

theorem ofFront_word {c : Char} (hc : isLetter c = true) (rest : List Char) :
    ofFront c rest = (ofWord (c :: rest.takeWhile isWordPart), rest.dropWhile isWordPart) := by
  unfold ofFront
  rw [if_pos hc]

theorem ofFront_digits {c : Char} (hc : Decimal.isDigit c = true) (rest : List Char) :
    ofFront c rest =
      (ofDigits (c :: rest.takeWhile Decimal.isDigit), rest.dropWhile Decimal.isDigit) := by
  have hletter : ¬ isLetter c = true := fun h => by
    rw [isDigit_eq_false_of_isLetter h] at hc
    cases hc
  unfold ofFront
  rw [if_neg hletter, if_pos hc]

theorem ofFront_quoted {rest after : List Char} (h : rest.dropWhile isLetter = '"' :: after) :
    ofFront '"' rest = (⟨some .stringLit, '"' :: (rest.takeWhile isLetter ++ ['"'])⟩, after) := by
  simp [ofFront, h, show isLetter '"' = false by decide, show Decimal.isDigit '"' = false by decide]

theorem ofFront_openQuote {rest : List Char} (h : (rest.dropWhile isLetter).head? ≠ some '"') :
    ofFront '"' rest = (⟨none, '"' :: rest.takeWhile isLetter⟩, rest.dropWhile isLetter) := by
  simp only [ofFront, show isLetter '"' = false by decide,
    show Decimal.isDigit '"' = false by decide, Bool.false_eq_true, if_false]
  split
  · rename_i after hafter
    simp [hafter] at h
  · rfl

@[simp] theorem ofFront_openComment (body : List Char) :
    ofFront '/' ('*' :: body) = (⟨some .error, '/' :: '*' :: body⟩, []) := rfl

@[simp] theorem ofFront_assign (after : List Char) :
    ofFront ':' ('=' :: after) = (⟨some .assign, [':', '=']⟩, after) := rfl

theorem ofFront_single {c : Char} {rest : List Char} (hletter : isLetter c = false)
    (hdigit : Decimal.isDigit c = false) (hquote : c ≠ '"')
    (hcomment : c = '/' → rest.head? ≠ some '*') (hassign : c = ':' → rest.head? ≠ some '=') :
    ofFront c rest = (⟨Kind.operator? [c], [c]⟩, rest) := by
  simp only [ofFront, hletter, hdigit, Bool.false_eq_true, if_false]
  split
  · exact absurd rfl hquote
  · exact absurd rfl (hcomment rfl)
  · exact absurd rfl (hassign rfl)
  · rfl

/-- A lexeme of a kind with a fixed spelling is spelled that way. -/
theorem letters?_ofFront {c : Char} {rest cs : List Char} {k : Kind}
    (hkind : (ofFront c rest).1.kind? = some k) (hcs : k.letters? = some cs) :
    (ofFront c rest).1.letters = cs := by
  -- Only a keyword, the assignment sign and a single character have a kind with a fixed spelling.
  cases shape c rest with
  | word hc =>
      rw [ofFront_word hc, ofWord] at hkind ⊢
      cases hkeyword : Kind.keyword? (c :: rest.takeWhile isWordPart) with
      | none =>
          simp only [hkeyword, Option.getD_none, Option.some.injEq] at hkind
          subst hkind
          cases hcs
      | some found =>
          simp only [hkeyword, Option.getD_some, Option.some.injEq] at hkind
          subst hkind
          rw [Kind.letters?_of_keyword? hkeyword] at hcs
          exact Option.some.inj hcs
  | digits hc =>
      rw [ofFront_digits hc, ofDigits] at hkind
      simp only [Option.ite_none_right_eq_some, Option.some.injEq] at hkind
      rw [← hkind.2] at hcs
      cases hcs
  | quoted after hc hclose =>
      subst hc
      rw [ofFront_quoted hclose] at hkind
      cases hkind
      cases hcs
  | openQuote hc hopen =>
      subst hc
      rw [ofFront_openQuote hopen] at hkind
      cases hkind
  | openComment body hc hrest =>
      subst hc hrest
      cases hkind
      cases hcs
  | assign after hc hrest =>
      subst hc hrest
      cases hkind
      cases hcs
      rfl
  | single hletter hdigit hquote hcomment hassign =>
      rw [ofFront_single hletter hdigit hquote hcomment hassign] at hkind ⊢
      rw [Kind.letters?_of_operator? hkind] at hcs
      exact Option.some.inj hcs

theorem kind?_ofFront_ne_eof (c : Char) (rest : List Char) :
    (ofFront c rest).1.kind? ≠ some .eof := by
  intro h
  cases shape c rest with
  | word hc =>
      rw [ofFront_word hc, ofWord] at h
      cases hkeyword : Kind.keyword? (c :: rest.takeWhile isWordPart) with
      | none => simp [hkeyword] at h
      | some found =>
          simp only [hkeyword, Option.getD_some, Option.some.injEq] at h
          rw [h] at hkeyword
          cases Kind.letters?_of_keyword? hkeyword
  | digits hc =>
      rw [ofFront_digits hc, ofDigits] at h
      simp at h
  | quoted after hc hclose =>
      subst hc
      rw [ofFront_quoted hclose] at h
      cases h
  | openQuote hc hopen =>
      subst hc
      rw [ofFront_openQuote hopen] at h
      cases h
  | openComment body hc hrest =>
      subst hc hrest
      cases h
  | assign after hc hrest =>
      subst hc hrest
      cases h
  | single hletter hdigit hquote hcomment hassign =>
      rw [ofFront_single hletter hdigit hquote hcomment hassign] at h
      cases Kind.letters?_of_operator? h

end Lexeme

end TokenAudit
