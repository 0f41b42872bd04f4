import TokenAudit.Decimal.Digits
import TokenAudit.Kind
import TokenAudit.Text.Utf8

/-!
# Lexemes

A lexeme is the shortest unit of a text that the listing knows: an operator or delimiter, a word, a
numeral, a quoted string, or a piece of text that is none of these.  A lexeme without a kind is
unclassified.

`Lexeme.ofFront` takes the lexeme at the front of a text that does not begin with trivia.  Words
and digit runs are taken as long as they go on.
-/

namespace TokenAudit

/-- A piece of text with its kind, if it has one. -/
structure Lexeme where
  kind? : Option Kind
  letters : List Char
  deriving DecidableEq, Repr

namespace Lexeme

/-- An ASCII letter. -/
def isLetter (c : Char) : Bool := ('a' ≤ c && c ≤ 'z') || ('A' ≤ c && c ≤ 'Z')

/-- A character that goes on a word. -/
def isWordPart (c : Char) : Bool := isLetter c || Decimal.isDigit c

/-- The greatest number an integer literal may denote. -/
def maxInteger : Nat := 32767

/-- A run of digits is an integer literal if it has no leading zero, except as the literal `0`, and
is not too great. -/
def isNumeral (digits : List Char) : Bool :=
  (digits.length ≤ 1 || digits.head? != some '0') && Decimal.value digits ≤ maxInteger

/-- A keyword, or else an identifier. -/
def ofWord (word : List Char) : Lexeme :=
  ⟨some ((Kind.keyword? word).getD .identifier), word⟩

/-- An integer literal, or unclassified digits. -/
def ofDigits (digits : List Char) : Lexeme :=
  ⟨if isNumeral digits then some .integer else none, digits⟩

/-- The lexeme at the front of a text and the rest of the text.  The text is given as its first
character, which does not begin trivia, and the characters after it.

A quote opens a string that must close after letters only; if it does not, the quote and these
letters are unclassified.  A comment that is never closed is an error up to the end of the text. -/
def ofFront (c : Char) (rest : List Char) : Lexeme × List Char :=
  if isLetter c then
    (ofWord (c :: rest.takeWhile isWordPart), rest.dropWhile isWordPart)
  else if Decimal.isDigit c then
    (ofDigits (c :: rest.takeWhile Decimal.isDigit), rest.dropWhile Decimal.isDigit)
  else match c, rest with
    | '"', rest =>
      match rest.dropWhile isLetter with
      | '"' :: after => (⟨some .stringLit, '"' :: (rest.takeWhile isLetter ++ ['"'])⟩, after)
      | after => (⟨none, '"' :: rest.takeWhile isLetter⟩, after)
    | '/', '*' :: body => (⟨some .error, '/' :: '*' :: body⟩, [])
    | ':', '=' :: after => (⟨some .assign, [':', '=']⟩, after)
    | c, rest => (⟨Kind.operator? [c], [c]⟩, rest)

/-- The lexeme and the rest make up the text. -/
theorem letters_append_ofFront (c : Char) (rest : List Char) :
    (ofFront c rest).1.letters ++ (ofFront c rest).2 = c :: rest := by
  unfold ofFront
  split
  · simp [ofWord]
  · split
    · simp [ofDigits]
    · split
      · split
        · rename_i after hafter
          simp [← hafter]
        · simp
      · simp
      · simp
      · simp

/-- A lexeme is not empty. -/
theorem letters_ofFront_ne_nil (c : Char) (rest : List Char) :
    (ofFront c rest).1.letters ≠ [] := by
  unfold ofFront
  split
  · simp [ofWord]
  · split
    · simp [ofDigits]
    · split
      · split <;> simp
      · simp
      · simp
      · simp

end Lexeme

end TokenAudit
