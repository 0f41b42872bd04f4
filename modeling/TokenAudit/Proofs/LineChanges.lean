import TokenAudit.Proofs.GrammarLaws

/-!
# Changes at the ends of lines

No lexeme but a comment that is never closed reaches over the end of its line.  So a change of the
text that keeps the characters of a line, and puts something blank where the line ends, changes
nothing that is taken from the front.  Two such changes are more text behind a line feed and other
line endings.
-/

namespace TokenAudit

/-- A change of texts that keeps every character up to the first line feed or the end of the text.
There the changed text is at its end too or goes on with a blank character. -/
structure ChangesLineEnds (change : List Char → List Char) : Prop where
  cons : ∀ {c : Char}, c ≠ '\n' → ∀ text, change (c :: text) = c :: change text
  isBlank_nil : ∀ c, (change []).head? = some c → Trivia.isBlank c = true
  isBlank_lineFeed : ∀ text c, (change ('\n' :: text)).head? = some c → Trivia.isBlank c = true

namespace ChangesLineEnds

variable {change : List Char → List Char} (hchange : ChangesLineEnds change)

include hchange

/-- A change brings no character but a blank one to the front. -/
theorem head?_ne {text : List Char} {c : Char} (hc : Trivia.isBlank c = false)
    (h : text.head? ≠ some c) : (change text).head? ≠ some c := by
  have hnot : ¬ Trivia.isBlank c = true := Bool.not_eq_true _ ▸ hc
  intro hhead
  cases text with
  | nil => exact hnot (hchange.isBlank_nil c hhead)
  | cons d text =>
      by_cases hd : d = '\n'
      · subst hd
        exact hnot (hchange.isBlank_lineFeed text c hhead)
      · rw [hchange.cons hd] at hhead
        exact h hhead

/-- A run of characters that are not blank is the same in front of both texts. -/
theorem takeWhile_dropWhile {p : Char → Bool} (hp : ∀ c, Trivia.isBlank c = true → p c = false)
    (text : List Char) :
    (change text).takeWhile p = text.takeWhile p ∧
      (change text).dropWhile p = change (text.dropWhile p) := by
  have hstop : ∀ text : List Char, (∀ c, text.head? = some c → Trivia.isBlank c = true) →
      text.takeWhile p = [] ∧ text.dropWhile p = text := fun text hblank =>
    takeWhile_dropWhile_append (List.forall_mem_nil _) fun c hc => hp c (hblank c hc)
  induction text with
  | nil => exact hstop _ hchange.isBlank_nil
  | cons c text ih =>
      by_cases hc : c = '\n'
      · subst hc
        have hfeed : p '\n' = false := hp _ rfl
        simpa [hfeed] using hstop _ (hchange.isBlank_lineFeed text)
      · rw [hchange.cons hc]
        cases hrun : p c with
        | true => simp [hrun, ih.1, ih.2]
        | false => simp [hrun, hchange.cons hc]

/-- Where no trivia stands in front, none does after the change. -/
theorem item?_eq_none {c : Char} {rest : List Char} (h : Trivia.item? (c :: rest) = none)
    (hcomment : c = '/' → rest.head? ≠ some '*') : Trivia.item? (c :: change rest) = none := by
  by_cases hc : c = '/'
  · subst hc
    have hline : rest.head? ≠ some '/' := by
      intro hhead
      obtain ⟨body, rfl⟩ := List.head?_eq_some_iff.1 hhead
      cases h
    exact Trivia.item?_slash (hchange.head?_ne (by decide) hline)
      (hchange.head?_ne (by decide) (hcomment rfl))
  · rw [Trivia.item?_of_ne_slash hc] at h ⊢
    split at h
    · cases h
    · rename_i hblank
      rw [if_neg hblank]

/-- The lexeme in front is the same after the change, unless it is a comment that is never closed. -/
theorem ofFront_eq {c : Char} {rest : List Char} (hcomment : c = '/' → rest.head? ≠ some '*') :
    Lexeme.ofFront c (change rest) =
      ((Lexeme.ofFront c rest).1, change (Lexeme.ofFront c rest).2) := by
  have hword (d : Char) (hd : Trivia.isBlank d = true) : Lexeme.isWordPart d = false :=
    Lexeme.not_isWordPart_of_isBlank hd
  -- Letters and digits are parts of words, so no blank character is one.
  have hparts (d : Char) (hd : Trivia.isBlank d = true) :
      Lexeme.isLetter d = false ∧ Decimal.isDigit d = false := by
    simpa [Lexeme.isWordPart] using hword d hd
  obtain ⟨hwordTake, hwordDrop⟩ := hchange.takeWhile_dropWhile hword rest
  obtain ⟨hdigitTake, hdigitDrop⟩ := hchange.takeWhile_dropWhile (fun d hd => (hparts d hd).2) rest
  obtain ⟨htake, hdrop⟩ := hchange.takeWhile_dropWhile (fun d hd => (hparts d hd).1) rest
  cases Lexeme.shape c rest with
  | word hc => rw [Lexeme.ofFront_word hc, Lexeme.ofFront_word hc, hwordTake, hwordDrop]
  | digits hc => rw [Lexeme.ofFront_digits hc, Lexeme.ofFront_digits hc, hdigitTake, hdigitDrop]
  | quoted after hc hclose =>
      subst hc
      rw [hclose, hchange.cons (by decide)] at hdrop
      rw [Lexeme.ofFront_quoted hclose, Lexeme.ofFront_quoted hdrop, htake]
  | openQuote hc hopen =>
      subst hc
      have hstill := hchange.head?_ne (by decide) hopen
      rw [← hdrop] at hstill
      rw [Lexeme.ofFront_openQuote hopen, Lexeme.ofFront_openQuote hstill, htake, hdrop]
  | openComment body hc hrest =>
      rw [hrest] at hcomment
      exact absurd rfl (hcomment hc)
  | assign after hc hrest =>
      subst hc hrest
      rw [hchange.cons (by decide)]
      rfl
  | single hletter hdigit hquote hslash hassign =>
      have hstar : c = '/' → (change rest).head? ≠ some '*' := fun hc =>
        hchange.head?_ne (by decide) (hslash hc)
      have hequals : c = ':' → (change rest).head? ≠ some '=' := fun hc =>
        hchange.head?_ne (by decide) (hassign hc)
      rw [Lexeme.ofFront_single hletter hdigit hquote hslash hassign,
        Lexeme.ofFront_single hletter hdigit hquote hstar hequals]

end ChangesLineEnds

end TokenAudit
