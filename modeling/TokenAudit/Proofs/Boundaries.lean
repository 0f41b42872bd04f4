import TokenAudit.Proofs.TokenPlaces

/-!
# Positions of character boundaries

Between two characters of a text, and at its ends, the line table of the text gives the position
that reading the text up to there gives.  So these positions are in the order of the offsets, and
the last of them is on the last line of the table.

In 64-bit words the conversion takes the same steps.  Lines and columns are counted from one and
grow by at most one a byte, so all sums fit if the length of the text and one more do.
-/

namespace TokenAudit

namespace Text

/-- A place between two characters of a text, or at one of its ends, by its byte offset. -/
def IsBoundary (text : List Char) (offset : Nat) : Prop := (takeBytes? text offset).isSome = true

/-- The text before an offset is the beginning of the text with so many bytes. -/
theorem takeBytes?_eq_some_iff {text read : List Char} {offset : Nat} :
    takeBytes? text offset = some read ↔ read <+: text ∧ byteLength read = offset := by
  constructor
  · intro h
    fun_induction takeBytes? text offset generalizing read with
    | case1 text => cases h; exact ⟨List.nil_prefix, rfl⟩
    | case2 n => cases h
    | case3 c rest n hfits ih =>
        obtain ⟨tail, htail, rfl⟩ := Option.map_eq_some_iff.1 h
        obtain ⟨hbegins, hlength⟩ := ih htail
        refine ⟨List.cons_prefix_cons.2 ⟨rfl, hbegins⟩, ?_⟩
        rw [byteLength_cons, hlength]
        omega
    | case4 c rest n hfits => cases h
  · rintro ⟨⟨rest, rfl⟩, rfl⟩
    exact takeBytes?_append read rest

theorem length_le_byteLength (text : List Char) : text.length ≤ byteLength text := by
  induction text with
  | nil => exact Nat.le_refl _
  | cons c text ih =>
      have hsize := c.utf8Size_pos
      rw [List.length_cons, byteLength_cons]
      omega

/-- Of two beginnings of a text, the one with fewer bytes begins the other. -/
theorem exists_gap_of_byteLength_lt {text read later : List Char} (h : read <+: text)
    (hlater : later <+: text) (hless : byteLength read < byteLength later) :
    ∃ gap, gap ≠ [] ∧ later = read ++ gap := by
  rcases List.prefix_or_prefix_of_prefix h hlater with ⟨gap, rfl⟩ | ⟨gap, rfl⟩
  · refine ⟨gap, ?_, rfl⟩
    rintro rfl
    rw [List.append_nil] at hless
    exact Nat.lt_irrefl _ hless
  · rw [byteLength_append] at hless
    omega

end Text

theorem Position.lt_irrefl (p : Position) : ¬ p < p := by
  rintro (hline | ⟨-, hcolumn⟩)
  · exact Nat.lt_irrefl _ hline
  · exact Nat.lt_irrefl _ hcolumn

namespace LineTable

theorem positionAt_of_takeBytes? {text read : List Char} {offset : Nat}
    (h : Text.takeBytes? text offset = some read) :
    (ofText text).positionAt text offset = Position.start.after read := by
  obtain ⟨⟨rest, rfl⟩, rfl⟩ := Text.takeBytes?_eq_some_iff.1 h
  exact positionAt_ofText_append read rest

/-- Positions of character boundaries are in the order of the offsets. -/
theorem positionAt_lt_of_lt {text : List Char} {offset later : Nat}
    (h : Text.IsBoundary text offset) (hlater : Text.IsBoundary text later)
    (hless : offset < later) :
    (ofText text).positionAt text offset < (ofText text).positionAt text later := by
  obtain ⟨read, hread⟩ := Option.isSome_iff_exists.1 h
  obtain ⟨more, hmore⟩ := Option.isSome_iff_exists.1 hlater
  rw [positionAt_of_takeBytes? hread, positionAt_of_takeBytes? hmore]
  obtain ⟨hbegins, rfl⟩ := Text.takeBytes?_eq_some_iff.1 hread
  obtain ⟨hbegins', rfl⟩ := Text.takeBytes?_eq_some_iff.1 hmore
  obtain ⟨gap, hgap, rfl⟩ := Text.exists_gap_of_byteLength_lt hbegins hbegins' hless
  rw [Position.after_append]
  exact Position.lt_after hgap

theorem lineCount_ofText (text : List Char) : (ofText text).lineCount = text.count '\n' + 1 := by
  obtain ⟨before, hstarts, hlength, -⟩ := starts_ofText_append text []
  rw [List.append_nil] at hstarts
  rw [lineCount, ← Array.length_toList, hstarts, List.length_append, hlength]
  rfl

/-! ### The same in words -/

/-- The zero-based line of an offset, computed with words. -/
def lineIndex? (t : LineTable) (offset : Nat) : Option Nat :=
  match t.search offset with
  | .present index => some index
  | .absent index => subWord? index 1

/-- The zero-based column of an offset on a line that begins at `start`, computed with words. -/
def columnIndex? (text : List Char) (start offset : Nat) : Option Nat :=
  match Text.slice? text start offset with
  | some piece => some piece.length
  | none => subWord? offset start

theorem positionAt?_eq (t : LineTable) (text : List Char) (offset : Nat) :
    t.positionAt? text offset = do
      let line ← t.lineIndex? offset
      let start ← t.starts[line]?
      let column ← columnIndex? text start offset
      let line ← addWord? line 1
      let column ← addWord? column 1
      return ⟨line, column⟩ := by
  unfold positionAt? lineIndex? columnIndex?
  -- The cases of the search and of the slice stand around the rest of the steps.
  cases t.search offset <;>
    refine bind_congr fun line => bind_congr fun start => ?_ <;>
    cases Text.slice? text start offset <;> rfl

/-- An offset lies on the line of the last entry that is not behind it, in words as well. -/
theorem lineIndex?_of_append {t : LineTable} {offset last : Nat} {before behind : List Nat}
    (hstarts : t.starts.toList = before ++ last :: behind)
    (hbefore : ∀ start ∈ before, start < last) (hlast : last ≤ offset)
    (hbehind : ∀ start ∈ behind, offset < start) : t.lineIndex? offset = some before.length := by
  rw [lineIndex?, search_of_append hstarts hbefore hlast hbehind]
  split_ifs
  · rfl
  · exact if_pos (Nat.le_add_left 1 before.length)

/-- At a character boundary, words are enough for the conversion if the length of the text and one
more fit in a word. -/
theorem positionAt?_of_takeBytes? {text read : List Char} {offset : Nat}
    (h : Text.takeBytes? text offset = some read)
    (hfits : Text.byteLength text + 1 < wordLimit) :
    (ofText text).positionAt? text offset = some (Position.start.after read) := by
  obtain ⟨⟨rest, rfl⟩, rfl⟩ := Text.takeBytes?_eq_some_iff.1 h
  obtain ⟨before, hstarts, hlength, hbefore⟩ := starts_ofText_append read rest
  have hline := lineIndex?_of_append hstarts hbefore (Text.byteLength_endedLines_le read)
    fun _ h => lt_of_mem_startsAfter h
  have hstart : (ofText (read ++ rest)).starts[before.length]? =
      some (Text.byteLength (Text.endedLines read)) := by
    rw [← Array.getElem?_toList, hstarts]
    simp
  have hcolumn : columnIndex? (read ++ rest) (Text.byteLength (Text.endedLines read))
      (Text.byteLength read) = some (Text.lastLine read).length := by
    rw [columnIndex?, slice?_lastLine]
  -- Every character takes a byte, so neither number grows past the length of the text.
  have hlines : read.count '\n' ≤ read.length := List.count_le_length
  have hcolumns : (Text.lastLine read).length ≤ read.length :=
    (List.rtakeWhile_suffix _ _).length_le
  have hbytes := Text.length_le_byteLength read
  rw [Text.byteLength_append] at hfits
  have hlineWord : addWord? before.length 1 = some (read.count '\n' + 1) := by
    rw [hlength, addWord?, if_pos (by omega)]
  have hcolumnWord : addWord? (Text.lastLine read).length 1 =
      some ((Text.lastLine read).length + 1) := by
    rw [addWord?, if_pos (by omega)]
  rw [positionAt?_eq, hline]
  simp only [Option.bind_eq_bind, Option.bind_some, hstart, hcolumn, hlineWord, hcolumnWord]
  rw [Position.after_start]
  rfl

/-- At the character boundaries of a text, its line table gives the positions that a reading of the
text passes: on the line behind the line feeds read so far, and in the column behind the characters
since the last of them.  These positions are strictly in the order of the offsets.  The last of them
is on the last line.  Words are enough to compute them if the length of the text and one more fit in
a word. -/
theorem boundaries_keep_order (text : List Char) :
    (∀ offset read, Text.takeBytes? text offset = some read →
      (ofText text).positionAt text offset = Position.start.after read ∧
      (ofText text).positionAt text offset =
        ⟨1 + read.count '\n', 1 + (Text.lastLine read).length⟩) ∧
    (∀ offset later, Text.IsBoundary text offset → Text.IsBoundary text later →
      (offset < later →
        (ofText text).positionAt text offset < (ofText text).positionAt text later) ∧
      ((ofText text).positionAt text offset = (ofText text).positionAt text later →
        offset = later)) ∧
    (ofText text).lineCount = ((ofText text).positionAt text (Text.byteLength text)).line ∧
    (Text.byteLength text + 1 < wordLimit → ∀ offset, Text.IsBoundary text offset →
      (ofText text).positionAt? text offset = some ((ofText text).positionAt text offset)) := by
  refine ⟨fun offset read hread => ?_, fun offset later h hlater => ⟨?_, fun heq => ?_⟩, ?_,
    fun hfits offset h => ?_⟩
  · have hplace := positionAt_of_takeBytes? hread
    refine ⟨hplace, ?_⟩
    rw [hplace, Position.after_start, Nat.add_comm 1, Nat.add_comm 1]
  · exact positionAt_lt_of_lt h hlater
  · -- Two offsets that differ would have positions that differ.
    rcases Nat.lt_trichotomy offset later with hless | hsame | hgreater
    · have hlt := positionAt_lt_of_lt h hlater hless
      rw [heq] at hlt
      exact absurd hlt (Position.lt_irrefl _)
    · exact hsame
    · have hlt := positionAt_lt_of_lt hlater h hgreater
      rw [heq] at hlt
      exact absurd hlt (Position.lt_irrefl _)
  · have hend : Text.takeBytes? text (Text.byteLength text) = some text :=
      Text.takeBytes?_eq_some_iff.2 ⟨List.prefix_refl text, rfl⟩
    rw [lineCount_ofText, positionAt_of_takeBytes? hend, Position.after_start]
  · obtain ⟨read, hread⟩ := Option.isSome_iff_exists.1 h
    rw [positionAt_of_takeBytes? hread]
    exact positionAt?_of_takeBytes? hread hfits

/-- The line feed behind a character of two bytes stands in the second column, and the next line
starts behind it. -/
theorem boundaries_around_line_feed :
    let text := ['é', '\n', 'x']
    Text.IsBoundary text 2 ∧ Text.IsBoundary text 3 ∧
      (ofText text).positionAt text 2 = ⟨1, 2⟩ ∧ (ofText text).positionAt text 3 = ⟨2, 1⟩ ∧
      (ofText text).positionAt text 2 < (ofText text).positionAt text 3 ∧
      (ofText text).positionAt? text 3 = some ⟨2, 1⟩ := by
  intro text
  obtain ⟨hplace, horder, -, hwords⟩ := boundaries_keep_order text
  have hfirst : Text.takeBytes? text 2 = some ['é'] := by decide
  have hsecond : Text.takeBytes? text 3 = some ['é', '\n'] := by decide
  have hboundary : Text.IsBoundary text 2 := Option.isSome_iff_exists.2 ⟨_, hfirst⟩
  have hboundary' : Text.IsBoundary text 3 := Option.isSome_iff_exists.2 ⟨_, hsecond⟩
  have hplace' := (hplace 3 _ hsecond).2
  refine ⟨hboundary, hboundary', (hplace 2 _ hfirst).2, hplace',
    (horder 2 3 hboundary hboundary').1 (by decide), ?_⟩
  rw [hwords (by decide) 3 hboundary', hplace']
  rfl

end LineTable

end TokenAudit
