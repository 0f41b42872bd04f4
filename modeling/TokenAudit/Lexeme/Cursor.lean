import TokenAudit.Lexeme.Basic
import TokenAudit.Lexeme.Trivia

/-!
# Cutting a text into lexemes

A cursor is a place in a text: the byte offset reached and the text still ahead.  One step skips the
trivia at the cursor and takes the lexeme behind it.  The steps lose nothing: trivia, lexeme and
rest make up the text ahead, and every lexeme takes at least one character.
-/

namespace TokenAudit

/-- One step through a text: the trivia skipped, the lexeme taken and the text left. -/
structure Cut where
  gap : List Char
  lexeme : Lexeme
  rest : List Char
  deriving DecidableEq, Repr

namespace Cut

/-- The first cut of a text.  A text of nothing but trivia has none. -/
def first? (text : List Char) : Option Cut :=
  match Trivia.split text with
  | (_, []) => none
  | (gap, c :: rest) =>
    let front := Lexeme.ofFront c rest
    some ⟨gap, front.1, front.2⟩

/-- A cut loses nothing. -/
theorem append_of_first? {text : List Char} {cut : Cut} (h : first? text = some cut) :
    cut.gap ++ (cut.lexeme.letters ++ cut.rest) = text := by
  have hsplit := Trivia.split_append text
  unfold first? at h
  split at h
  · simp at h
  · rename_i gap c rest heq
    simp only [Option.some.injEq] at h
    subst h
    rw [heq] at hsplit
    rw [Lexeme.letters_append_ofFront, hsplit]

/-- The lexeme of a cut is not empty. -/
theorem letters_ne_nil_of_first? {text : List Char} {cut : Cut} (h : first? text = some cut) :
    cut.lexeme.letters ≠ [] := by
  unfold first? at h
  split at h
  · simp at h
  · simp only [Option.some.injEq] at h
    subst h
    exact Lexeme.letters_ofFront_ne_nil _ _

/-- A cut shortens the text. -/
theorem length_rest_lt_of_first? {text : List Char} {cut : Cut} (h : first? text = some cut) :
    cut.rest.length < text.length := by
  have hpos := List.length_pos_iff.2 (letters_ne_nil_of_first? h)
  rw [← append_of_first? h]
  simp only [List.length_append]
  omega

end Cut

/-- A lexeme at its byte offset. -/
structure PlacedLexeme where
  lexeme : Lexeme
  start : Nat
  deriving DecidableEq, Repr

/-- The byte offset just after a placed lexeme. -/
def PlacedLexeme.stop (l : PlacedLexeme) : Nat := l.start + Text.byteLength l.lexeme.letters

/-- A place in a text: the bytes behind it and the characters ahead. -/
structure Cursor where
  offset : Nat
  ahead : List Char
  deriving DecidableEq, Repr

namespace Cursor

/-- The start of a text. -/
def ofText (text : List Char) : Cursor := ⟨0, text⟩

/-- The next lexeme and the place after it. -/
def next? (cursor : Cursor) : Option (PlacedLexeme × Cursor) :=
  (Cut.first? cursor.ahead).map fun cut =>
    let placed : PlacedLexeme := ⟨cut.lexeme, cursor.offset + Text.byteLength cut.gap⟩
    (placed, ⟨placed.stop, cut.rest⟩)

/-- A step leaves less of the text ahead. -/
theorem length_ahead_lt_of_next? {cursor after : Cursor} {placed : PlacedLexeme}
    (h : cursor.next? = some (placed, after)) : after.ahead.length < cursor.ahead.length := by
  obtain ⟨cut, hcut, heq⟩ := Option.map_eq_some_iff.1 h
  simp only [Prod.mk.injEq] at heq
  obtain ⟨_, rfl⟩ := heq
  exact Cut.length_rest_lt_of_first? hcut

/-- All lexemes from a place on. -/
def lexemes (cursor : Cursor) : List PlacedLexeme :=
  match _h : cursor.next? with
  | none => []
  | some (placed, after) => placed :: lexemes after
termination_by cursor.ahead.length
decreasing_by exact length_ahead_lt_of_next? _h

end Cursor

/-- The lexemes of a text, in order, each at its byte offset. -/
def lexemesOf (text : List Char) : List PlacedLexeme := (Cursor.ofText text).lexemes

end TokenAudit
