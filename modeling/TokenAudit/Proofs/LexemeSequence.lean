import TokenAudit.Proofs.TokenSequence

/-!
# The lexemes of a text

Reading a text goes from cut to cut: a gap and a lexeme are moved from the text ahead to the text
read, until no lexeme is left.  `Cut.reading_induction` is the induction along these steps.  With
it, every lexeme of a text is what `Lexeme.ofFront` takes at its byte offset, and the tokens of a
text are its lexemes at the positions that the line table gives.
-/

namespace TokenAudit

namespace Cut

/-- A text without a lexeme is nothing but trivia. -/
theorem split_of_first?_eq_none {text : List Char} (h : first? text = none) :
    Trivia.split text = (text, []) := by
  have hsplit := Trivia.split_append text
  unfold first? at h
  split at h
  · rename_i gap heq
    rw [heq] at hsplit
    have hgap : gap = text := by simpa using hsplit
    rw [heq, hgap]
  · cases h

/-- A cut is the trivia in front and the lexeme that stands behind it. -/
theorem split_of_first?_eq_some {text : List Char} {cut : Cut} (h : first? text = some cut) :
    ∃ c tail, Trivia.split text = (cut.gap, c :: tail) ∧
      Lexeme.ofFront c tail = (cut.lexeme, cut.rest) := by
  unfold first? at h
  split at h
  · cases h
  · rename_i gap c tail heq
    simp only [Option.some.injEq] at h
    subst h
    exact ⟨c, tail, heq, rfl⟩

/-- To prove something of every stage of reading a text, prove it where no lexeme is left, and prove
it of a text ahead that can be cut when it holds behind the cut. -/
theorem reading_induction {motive : List Char → List Char → Prop}
    (ended : ∀ before ahead, first? ahead = none → motive before ahead)
    (found : ∀ before ahead cut, first? ahead = some cut →
      motive (before ++ (cut.gap ++ cut.lexeme.letters)) cut.rest → motive before ahead)
    (before ahead : List Char) : motive before ahead := by
  induction hlength : ahead.length using Nat.strong_induction_on generalizing before ahead with
  | _ n ih =>
      cases hcut : first? ahead with
      | none => exact ended before ahead hcut
      | some cut =>
          have hshorter := length_rest_lt_of_first? hcut
          exact found before ahead cut hcut (ih _ (hlength ▸ hshorter) _ _ rfl)

end Cut

namespace Cursor

theorem lexemes_of_first?_eq_none {offset : Nat} {ahead : List Char}
    (h : Cut.first? ahead = none) : (⟨offset, ahead⟩ : Cursor).lexemes = [] := by
  have hnext : (⟨offset, ahead⟩ : Cursor).next? = none := by simp [next?, h]
  rw [lexemes]
  split
  · rfl
  · rename_i heq
    rw [hnext] at heq
    cases heq

/-- The lexeme of a cut comes first, and the others are those of the rest. -/
theorem lexemes_of_first?_eq_some {before ahead : List Char} {cut : Cut}
    (h : Cut.first? ahead = some cut) :
    (⟨Text.byteLength before, ahead⟩ : Cursor).lexemes =
      ⟨cut.lexeme, Text.byteLength (before ++ cut.gap)⟩ ::
        (⟨Text.byteLength (before ++ (cut.gap ++ cut.lexeme.letters)), cut.rest⟩ :
          Cursor).lexemes := by
  have hnext : (⟨Text.byteLength before, ahead⟩ : Cursor).next? =
      some (⟨cut.lexeme, Text.byteLength (before ++ cut.gap)⟩,
        ⟨Text.byteLength (before ++ (cut.gap ++ cut.lexeme.letters)), cut.rest⟩) := by
    simp [next?, h, PlacedLexeme.stop, Nat.add_assoc]
  rw [lexemes]
  split
  · rename_i heq
    rw [hnext] at heq
    cases heq
  · rename_i heq
    rw [hnext] at heq
    cases heq
    rfl

end Cursor

/-- A lexeme stands at a place of a text: the text read before it ends at its byte offset, no trivia
follows there, and it is what is taken from the front of the text ahead. -/
structure PlacedLexeme.TakenFrom (text : List Char) (l : PlacedLexeme) (c : Char)
    (tail : List Char) : Prop where
  exists_read : ∃ read, text = read ++ c :: tail ∧ l.start = Text.byteLength read
  item?_eq_none : Trivia.item? (c :: tail) = none
  lexeme_eq : l.lexeme = (Lexeme.ofFront c tail).1

/-- Every lexeme of a text is taken from the front of what stands at its offset. -/
theorem exists_takenFrom_of_mem_lexemesOf {text : List Char} {l : PlacedLexeme}
    (h : l ∈ lexemesOf text) : ∃ c tail, l.TakenFrom text c tail := by
  have hstage (before ahead : List Char) :
      l ∈ (⟨Text.byteLength before, ahead⟩ : Cursor).lexemes →
        ∃ c tail, l.TakenFrom (before ++ ahead) c tail := by
    induction before, ahead using Cut.reading_induction with
    | ended before ahead hcut =>
        rw [Cursor.lexemes_of_first?_eq_none hcut]
        exact fun hmem => absurd hmem (List.not_mem_nil)
    | found before ahead cut hcut ih =>
        have hahead := Cut.append_of_first? hcut
        rw [Cursor.lexemes_of_first?_eq_some hcut, List.mem_cons]
        rintro (rfl | hlater)
        · obtain ⟨c, tail, hsplit, hfront⟩ := Cut.split_of_first?_eq_some hcut
          have htext := Trivia.split_append ahead
          have hnone := Trivia.item?_split ahead
          rw [hsplit] at htext hnone
          refine ⟨c, tail, ⟨before ++ cut.gap, ?_, rfl⟩, hnone, by rw [hfront]⟩
          rw [List.append_assoc, htext]
        · have hsame : before ++ (cut.gap ++ cut.lexeme.letters) ++ cut.rest = before ++ ahead := by
            rw [← hahead]
            simp only [List.append_assoc]
          rw [← hsame]
          exact ih hlater
  exact hstage [] text h

/-- The tokens of a text ahead are its lexemes, each at the position of its byte offset. -/
theorem tokensFrom_eq_map_lexemes (before ahead : List Char) :
    tokensFrom (Position.start.after before) ahead =
      (⟨Text.byteLength before, ahead⟩ : Cursor).lexemes.map fun l =>
        l.lexeme.token
          ((LineTable.ofText (before ++ ahead)).positionAt (before ++ ahead) l.start) := by
  induction before, ahead using Cut.reading_induction with
  | ended before ahead hcut =>
      rw [tokensFrom_of_first?_eq_none hcut, Cursor.lexemes_of_first?_eq_none hcut, List.map_nil]
  | found before ahead cut hcut ih =>
      have hahead := Cut.append_of_first? hcut
      have hread : before ++ ahead = before ++ cut.gap ++ (cut.lexeme.letters ++ cut.rest) := by
        rw [← hahead, List.append_assoc]
      have hbehind : before ++ (cut.gap ++ cut.lexeme.letters) ++ cut.rest = before ++ ahead := by
        rw [hread]
        simp only [List.append_assoc]
      have hposition : (LineTable.ofText (before ++ ahead)).positionAt (before ++ ahead)
          (Text.byteLength (before ++ cut.gap)) = (Position.start.after before).after cut.gap := by
        rw [hread, LineTable.positionAt_ofText_append, Position.after_append]
      rw [hbehind, Position.after_append] at ih
      rw [tokensFrom_of_first?_eq_some hcut, Cursor.lexemes_of_first?_eq_some hcut, List.map_cons,
        hposition, ih]

/-- The tokens of a scan are the lexemes of its text, and the end. -/
theorem Scan.tokens_ofText_eq_map (text : List Char) :
    (ofText text).tokens.value =
      ((lexemesOf text).map fun l =>
        l.lexeme.token ((LineTable.ofText text).positionAt text l.start)) ++
      [.eof (Position.start.after text)] := by
  rw [tokens_ofText]
  exact congrArg (· ++ _) (tokensFrom_eq_map_lexemes [] text)

end TokenAudit
