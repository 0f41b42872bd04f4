import TokenAudit.Proofs.GrammarLaws
import TokenAudit.Proofs.LexemeSequence

/-!
# Lexemes tile a text

The lexemes of a text, classified or not, stand in order and apart from each other, and what is left
between them is trivia.  `Tile.row` lists them together with the gaps, each as a span of bytes.
`Tiles` says what such a row is worth from a byte offset on; it holds where no lexeme is left, and
it is kept when a gap and a lexeme are put in front.
-/

namespace TokenAudit

theorem Text.byteLength_pos {text : List Char} (h : text ≠ []) : 0 < byteLength text := by
  obtain ⟨c, rest, rfl⟩ := List.exists_cons_of_ne_nil h
  have := c.utf8Size_pos
  rw [byteLength_cons]
  omega

namespace Grammar

/-- Pieces of trivia one behind the other, given with what follows the last of them. -/
inductive IsGap : List Char → List Char → Prop
  | nil {rest : List Char} : IsGap [] rest
  | cons {item gap rest : List Char} : IsTrivia item (gap ++ rest) → IsGap gap rest →
      IsGap (item ++ gap) rest

/-- What is skipped in front of a text is such a run of trivia. -/
theorem isGap_split (text : List Char) : IsGap (Trivia.split text).1 (Trivia.split text).2 := by
  fun_induction Trivia.split text with
  | case1 text h => exact .nil
  | case2 text item rest h tail ih =>
      refine .cons ?_ ih
      rw [Trivia.split_append, isTrivia_iff, Trivia.append_of_item? h, h]

end Grammar

/-- A part of a text: a lexeme, or the gap between two byte offsets. -/
inductive Tile where
  | gap (start stop : Nat)
  | lexeme (l : PlacedLexeme)
  deriving DecidableEq, Repr

namespace Tile

/-- The byte offset at which a tile begins. -/
def start : Tile → Nat
  | gap start _ => start
  | lexeme l => l.start

/-- The byte offset just after a tile. -/
def stop : Tile → Nat
  | gap _ stop => stop
  | lexeme l => l.stop

/-- The characters of a text that a tile covers, if both its ends are character boundaries. -/
def letters? (text : List Char) (tile : Tile) : Option (List Char) :=
  Text.slice? text tile.start tile.stop

/-- Lexemes with the gaps in front of them, between them and behind them, from one byte offset to
another. -/
def row (offset : Nat) : List PlacedLexeme → Nat → List Tile
  | [], stop => [gap offset stop]
  | l :: later, stop => gap offset l.start :: lexeme l :: row l.stop later stop

end Tile

/-- The lexemes of a text from a byte offset on, and the gaps that they leave.  No lexeme is empty,
and each lies inside the text and covers its letters, so both its ends are character boundaries.
Every gap is a run of trivia, and lexemes and gaps in order make up the text ahead. -/
structure Tiles (text : List Char) (offset : Nat) (lexemes : List PlacedLexeme) : Prop where
  inside : ∀ l ∈ lexemes, offset ≤ l.start ∧ l.start < l.stop ∧ l.stop ≤ Text.byteLength text
  letters?_lexeme : ∀ l ∈ lexemes, (Tile.lexeme l).letters? text = some l.lexeme.letters
  ordered : lexemes.Pairwise fun l later => l.stop ≤ later.start
  isGap_gap : ∀ start stop, .gap start stop ∈ Tile.row offset lexemes (Text.byteLength text) →
    ∃ gap rest, (Tile.gap start stop).letters? text = some gap ∧
      Text.dropBytes? text stop = some rest ∧ Grammar.IsGap gap rest
  covers : ∃ pieces : List (List Char),
    (Tile.row offset lexemes (Text.byteLength text)).map (Tile.letters? text) = pieces.map some ∧
      Text.dropBytes? text offset = some pieces.flatten

namespace Tiles

variable {before gap : List Char}

/-- Behind the last lexeme stands a gap up to the end of the text. -/
theorem nil (hgap : Grammar.IsGap gap []) :
    Tiles (before ++ gap) (Text.byteLength before) [] := by
  have hslice := Text.slice?_append before gap []
  have hend := Text.dropBytes?_append (before ++ gap) []
  rw [List.append_nil] at hslice hend
  refine ⟨by simp, by simp, .nil, ?_, ⟨[gap], ?_, ?_⟩⟩
  · intro start stop hmem
    rw [Tile.row, List.mem_singleton, Tile.gap.injEq] at hmem
    obtain ⟨rfl, rfl⟩ := hmem
    exact ⟨gap, [], hslice, hend, hgap⟩
  · simpa [Tile.row, Tile.letters?, Tile.start, Tile.stop] using hslice
  · rw [Text.dropBytes?_append, List.flatten_singleton]

/-- A gap and a lexeme in front of tiles. -/
theorem cons {text rest : List Char} {lexeme : Lexeme} {later : List PlacedLexeme}
    (htext : text = before ++ gap ++ lexeme.letters ++ rest) (hne : lexeme.letters ≠ [])
    (hgap : Grammar.IsGap gap (lexeme.letters ++ rest))
    (hlater : Tiles text (Text.byteLength (before ++ gap ++ lexeme.letters)) later) :
    Tiles text (Text.byteLength before) (⟨lexeme, Text.byteLength (before ++ gap)⟩ :: later) := by
  let placed : PlacedLexeme := ⟨lexeme, Text.byteLength (before ++ gap)⟩
  have hstop : placed.stop = Text.byteLength (before ++ gap ++ lexeme.letters) :=
    (Text.byteLength_append _ _).symm
  have hbetween : (Tile.gap (Text.byteLength before) placed.start).letters? text = some gap := by
    have hslice := Text.slice?_append before gap (lexeme.letters ++ rest)
    rwa [← List.append_assoc, ← htext] at hslice
  have hletters : (Tile.lexeme placed).letters? text = some lexeme.letters := by
    rw [Tile.letters?, Tile.stop, hstop, htext]
    exact Text.slice?_append (before ++ gap) lexeme.letters rest
  have hahead : Text.dropBytes? text placed.start = some (lexeme.letters ++ rest) := by
    rw [htext, List.append_assoc]
    exact Text.dropBytes?_append _ _
  have hbounds : Text.byteLength before ≤ placed.start ∧ placed.start < placed.stop ∧
      placed.stop ≤ Text.byteLength text := by
    have hpos := Text.byteLength_pos hne
    rw [hstop, htext, show placed.start = Text.byteLength (before ++ gap) from rfl]
    simp only [Text.byteLength_append]
    omega
  obtain ⟨hinside, hslices, hordered, hgaps, pieces, hpieces, hrest⟩ := hlater
  rw [← hstop] at hinside hgaps hpieces hrest
  refine ⟨?_, ?_, ?_, ?_, gap :: lexeme.letters :: pieces, ?_, ?_⟩
  · refine List.forall_mem_cons.2 ⟨hbounds, fun l hl => ?_⟩
    obtain ⟨hle, hl⟩ := hinside l hl
    exact ⟨by omega, hl⟩
  · exact List.forall_mem_cons.2 ⟨hletters, hslices⟩
  · exact List.pairwise_cons.2 ⟨fun l hl => (hinside l hl).1, hordered⟩
  · intro start stop hmem
    rcases List.mem_cons.1 hmem with heq | hmem
    · rw [Tile.gap.injEq] at heq
      obtain ⟨rfl, rfl⟩ := heq
      exact ⟨gap, _, hbetween, hahead, hgap⟩
    · rcases List.mem_cons.1 hmem with heq | hmem
      · cases heq
      · exact hgaps start stop hmem
  · rw [Tile.row, List.map_cons, List.map_cons, hbetween, hletters, hpieces]
    rfl
  · -- The pieces behind the lexeme make up the rest.
    rw [hstop, htext, Text.dropBytes?_append, Option.some.injEq] at hrest
    rw [htext, List.append_assoc, List.append_assoc, Text.dropBytes?_append, List.flatten_cons,
      List.flatten_cons, ← hrest]

end Tiles

/-- The lexemes from any stage of reading a text on tile the text ahead. -/
theorem tiles_lexemes (before ahead : List Char) :
    Tiles (before ++ ahead) (Text.byteLength before)
      (⟨Text.byteLength before, ahead⟩ : Cursor).lexemes := by
  induction before, ahead using Cut.reading_induction with
  | ended before ahead hcut =>
      have hgap := Grammar.isGap_split ahead
      rw [Cut.split_of_first?_eq_none hcut] at hgap
      rw [Cursor.lexemes_of_first?_eq_none hcut]
      exact .nil hgap
  | found before ahead cut hcut ih =>
      obtain ⟨c, tail, hsplit, hfront⟩ := Cut.split_of_first?_eq_some hcut
      have hgap := Grammar.isGap_split ahead
      have hletters := Lexeme.letters_append_ofFront c tail
      rw [hfront] at hletters
      rw [hsplit, ← hletters] at hgap
      have htext : before ++ ahead = before ++ cut.gap ++ cut.lexeme.letters ++ cut.rest := by
        rw [← Cut.append_of_first? hcut]
        simp only [List.append_assoc]
      rw [← List.append_assoc, ← htext] at ih
      rw [Cursor.lexemes_of_first?_eq_some hcut, ← List.append_assoc]
      exact .cons htext (Cut.letters_ne_nil_of_first? hcut) hgap ih

/-- No lexeme of a text is empty, and each lies inside the text between character boundaries, in
order and without overlap.  Every gap in front of, between and behind them is a run of blank
characters, line comments and closed block comments, and gaps and lexemes in order are the text. -/
theorem lexemes_tile_text (text : List Char) :
    (∀ l ∈ lexemesOf text, l.start < l.stop ∧ l.stop ≤ Text.byteLength text ∧
      Text.slice? text l.start l.stop = some l.lexeme.letters) ∧
    (lexemesOf text).Pairwise (fun l later => l.stop ≤ later.start) ∧
    (∀ start stop, .gap start stop ∈ Tile.row 0 (lexemesOf text) (Text.byteLength text) →
      ∃ gap rest, Text.slice? text start stop = some gap ∧
        Text.dropBytes? text stop = some rest ∧ Grammar.IsGap gap rest) ∧
    ∃ pieces : List (List Char),
      (Tile.row 0 (lexemesOf text) (Text.byteLength text)).map (Tile.letters? text) =
        pieces.map some ∧ pieces.flatten = text := by
  have htiles : Tiles text 0 (lexemesOf text) := tiles_lexemes [] text
  obtain ⟨pieces, hpieces, htext⟩ := htiles.covers
  have hall : Text.dropBytes? text 0 = some text := Text.dropBytes?_append [] text
  rw [hall, Option.some.injEq] at htext
  refine ⟨fun l hl => ?_, htiles.ordered, htiles.isGap_gap, pieces, hpieces, htext.symm⟩
  obtain ⟨-, hpos, hle⟩ := htiles.inside l hl
  exact ⟨hpos, hle, htiles.letters?_lexeme l hl⟩

end TokenAudit
