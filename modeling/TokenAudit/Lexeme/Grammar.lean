import TokenAudit.Lexeme.Basic
import TokenAudit.Lexeme.Trivia

/-!
# The grammar of accepted texts

The texts that are accepted, said without the scan: a text is cut into pieces of trivia and lexemes,
each of a kind and with a condition on what may follow it.  `Cuts` relates a text to the lexemes of
such a cut.
-/

namespace TokenAudit.Grammar

/-- A piece of trivia, given with what follows it.  A line comment runs up to a line feed or the end
of the text, and a block comment ends at its first `*/`. -/
inductive IsTrivia : List Char → List Char → Prop
  | blank {c : Char} {rest : List Char} : Trivia.isBlank c = true → IsTrivia [c] rest
  | lineComment {body rest : List Char} : '\n' ∉ body →
      (rest = [] ∨ rest.head? = some '\n') → IsTrivia ('/' :: '/' :: body) rest
  | blockComment {body rest : List Char} : ¬ ['*', '/'] <:+: body →
      IsTrivia ('/' :: '*' :: (body ++ ['*', '/'])) rest

/-- The lexemes of each kind. -/
inductive IsLexeme : Kind → List Char → Prop
  | fixed {kind : Kind} {letters : List Char} : kind.letters? = some letters →
      IsLexeme kind letters
  | zero : IsLexeme .integer ['0']
  | integer {digits : List Char} : digits ≠ [] → (∀ c ∈ digits, Decimal.isDigit c = true) →
      digits.head? ≠ some '0' → Decimal.value digits ≤ Lexeme.maxInteger →
      IsLexeme .integer digits
  | stringLit {letters : List Char} : (∀ c ∈ letters, Lexeme.isLetter c = true) →
      IsLexeme .stringLit ('"' :: (letters ++ ['"']))
  | identifier {c : Char} {rest : List Char} : Lexeme.isLetter c = true →
      (∀ d ∈ rest, Lexeme.isWordPart d = true) →
      (∀ kind : Kind, kind.letters? ≠ some (c :: rest)) → IsLexeme .identifier (c :: rest)

/-- Whether a lexeme of a kind may stand before a text.  A word ends where no letter or digit
follows, a numeral where no digit follows, and a slash must not open a comment. -/
def MayPrecede (kind : Kind) (rest : List Char) : Prop :=
  if kind = .identifier ∨ kind ∈ Kind.keywords then
    ∀ c, rest.head? = some c → Lexeme.isWordPart c = false
  else if kind = .integer then ∀ c, rest.head? = some c → Decimal.isDigit c = false
  else if kind = .divide then rest.head? ≠ some '/' ∧ rest.head? ≠ some '*'
  else True

/-- A piece of a cut. -/
inductive Piece where
  | trivia (letters : List Char)
  | lexeme (kind : Kind) (letters : List Char)
  deriving DecidableEq, Repr

/-- The characters of a piece. -/
def Piece.letters : Piece → List Char
  | trivia letters | lexeme _ letters => letters

/-- The lexemes among the pieces of a cut. -/
def lexemesOf (pieces : List Piece) : List (Kind × List Char) :=
  pieces.filterMap fun
    | .trivia _ => none
    | .lexeme kind letters => some (kind, letters)

/-- A text is made up of pieces, each of which may stand before the rest. -/
inductive Cuts : List Char → List Piece → Prop
  | nil : Cuts [] []
  | trivia {letters rest : List Char} {pieces : List Piece} : IsTrivia letters rest →
      Cuts rest pieces → Cuts (letters ++ rest) (.trivia letters :: pieces)
  | lexeme {kind : Kind} {letters rest : List Char} {pieces : List Piece} :
      IsLexeme kind letters → MayPrecede kind rest → Cuts rest pieces →
      Cuts (letters ++ rest) (.lexeme kind letters :: pieces)

end TokenAudit.Grammar
