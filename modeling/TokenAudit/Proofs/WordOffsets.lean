import TokenAudit.Proofs.Boundaries

/-!
# Any offset in 64-bit words

A line table may be asked for an offset inside a character or past the end of its text, and the text
that is passed along for the columns may be another one.  The bytes before the offset still fix the
line: it starts behind the last line feed among them, and its number is the number of these line
feeds.  Continuation and leading bytes of longer characters are no line feeds, so the characters
that an offset cuts do not count.

* `starts_ofText_split`: any offset parts the table at the start of its line.
* `positionAt?_ofText`: words are enough unless the column does not fit.
* `column_lt_wordLimit_iff`: that is the last offset of all, in a table of a single line.
-/

namespace TokenAudit

namespace Text

/-! ### Bytes of a text -/

/-- The bytes of a text in UTF-8. -/
def bytes (text : List Char) : List UInt8 := text.flatMap String.utf8EncodeChar

/-- The byte of a line feed. -/
def lineFeedByte : UInt8 := 0x0A

/-- The number of line feeds among the bytes before an offset. -/
def lineFeedsBefore (text : List Char) (offset : Nat) : Nat :=
  ((bytes text).take offset).count lineFeedByte

/-- The offset just behind the last line feed among the bytes before an offset.  It is 0 if there is
none. -/
def lineStartBefore (text : List Char) (offset : Nat) : Nat :=
  (((bytes text).take offset).rdropWhile (· != lineFeedByte)).length

/-- A piece of a text, from one byte offset to another. -/
def IsPiece (text : List Char) (start stop : Nat) (piece : List Char) : Prop :=
  ∃ before behind, text = before ++ piece ++ behind ∧ byteLength before = start ∧
    byteLength (before ++ piece) = stop

@[simp] theorem bytes_append (a b : List Char) : bytes (a ++ b) = bytes a ++ bytes b :=
  List.flatMap_append

@[simp] theorem bytes_singleton (c : Char) : bytes [c] = String.utf8EncodeChar c :=
  List.flatMap_singleton _ _

@[simp] theorem length_bytes (text : List Char) : (bytes text).length = byteLength text := by
  induction text with
  | nil => rfl
  | cons c text ih =>
      rw [bytes, List.flatMap_cons, List.length_append, String.length_utf8EncodeChar, byteLength_cons,
        ← ih, bytes]

/-- All bytes of a longer character have their highest bit set, so a line feed is its own byte only. -/
theorem lineFeedByte_not_mem_utf8EncodeChar {c : Char} (hc : c ≠ '\n') :
    lineFeedByte ∉ String.utf8EncodeChar c := by
  have hcode : c.toNat ≠ 10 := fun h => hc (Char.ext (UInt32.toNat_inj.1 h))
  have hval : c.val.toNat = c.toNat := rfl
  intro h
  have hnat : 10 ∈ (String.utf8EncodeChar c).map UInt8.toNat := List.mem_map.2 ⟨_, h, rfl⟩
  unfold String.utf8EncodeChar at hnat
  dsimp only at hnat
  split_ifs at hnat <;> simp at hnat <;> omega

theorem lineFeedByte_not_mem_bytes {text : List Char} (h : '\n' ∉ text) :
    lineFeedByte ∉ bytes text := by
  intro hbyte
  obtain ⟨c, hc, hbyte⟩ := List.mem_flatMap.1 hbyte
  exact lineFeedByte_not_mem_utf8EncodeChar (fun heq => h (heq ▸ hc)) hbyte

theorem lineFeedByte_mem_bytes {text : List Char} (h : '\n' ∈ text) : lineFeedByte ∈ bytes text :=
  List.mem_flatMap.2 ⟨'\n', h, List.mem_singleton_self _⟩

theorem count_lineFeedByte_bytes (text : List Char) :
    (bytes text).count lineFeedByte = text.count '\n' := by
  induction text using List.reverseRecOn with
  | nil => rfl
  | append_singleton text c ih =>
      rw [bytes_append, bytes_singleton, List.count_append, List.count_append, ih]
      by_cases hc : c = '\n'
      · subst hc
        rfl
      · rw [List.count_eq_zero.2 (lineFeedByte_not_mem_utf8EncodeChar hc),
          List.count_singleton, if_neg (by simpa using hc)]

/-- Bytes that are no line feeds do not move the line start. -/
theorem rdropWhile_append_of_lineFeedByte_not_mem {a b : List UInt8} (h : lineFeedByte ∉ b) :
    (a ++ b).rdropWhile (· != lineFeedByte) = a.rdropWhile (· != lineFeedByte) := by
  rw [List.rdropWhile, List.rdropWhile, List.reverse_append, List.dropWhile_append_of_pos]
  intro byte hbyte
  rw [List.mem_reverse] at hbyte
  exact bne_iff_ne.2 fun heq => h (heq ▸ hbyte)

theorem rdropWhile_bytes (text : List Char) :
    (bytes text).rdropWhile (· != lineFeedByte) = bytes (endedLines text) := by
  induction text using List.reverseRecOn with
  | nil => rfl
  | append_singleton text c ih =>
      by_cases hc : c = '\n'
      · subst hc
        rw [endedLines_concat_lineFeed, bytes_append]
        exact List.rdropWhile_concat_neg _ _ _ (by simp [lineFeedByte])
      · rw [endedLines_concat hc, bytes_append, bytes_singleton,
          rdropWhile_append_of_lineFeedByte_not_mem (lineFeedByte_not_mem_utf8EncodeChar hc), ih]

/-! ### Texts cut at any offset -/

/-- The characters that end before an offset, the first bytes of the one that the offset cuts, and
the rest of the text. -/
theorem exists_split_bytes (text : List Char) (offset : Nat) :
    ∃ read rest part, text = read ++ rest ∧ byteLength read ≤ offset ∧
      (∀ c ∈ rest.head?, offset < byteLength read + c.utf8Size) ∧
      (bytes text).take offset = bytes read ++ part ∧ lineFeedByte ∉ part := by
  induction text generalizing offset with
  | nil => exact ⟨[], [], [], rfl, Nat.zero_le _, by simp, List.take_nil, by simp⟩
  | cons c text ih =>
      have hbytes : bytes (c :: text) = String.utf8EncodeChar c ++ bytes text := List.flatMap_cons
      rcases Nat.lt_or_ge offset c.utf8Size with hcut | hwhole
      · -- The offset cuts this character.
        refine ⟨[], c :: text, (String.utf8EncodeChar c).take offset, rfl, Nat.zero_le _, ?_, ?_, ?_⟩
        · simpa using hcut
        · rw [hbytes, List.take_append_of_le_length
            (by rw [String.length_utf8EncodeChar]; exact Nat.le_of_lt hcut)]
          rfl
        · intro hmem
          by_cases hc : c = '\n'
          · subst hc
            obtain rfl : offset = 0 := Nat.lt_one_iff.1 hcut
            simp at hmem
          · exact lineFeedByte_not_mem_utf8EncodeChar hc (List.mem_of_mem_take hmem)
      · obtain ⟨read, rest, part, rfl, hread, hrest, htake, hpart⟩ := ih (offset - c.utf8Size)
        refine ⟨c :: read, rest, part, rfl, ?_, fun d hd => ?_, ?_, hpart⟩
        · rw [byteLength_cons]
          omega
        · have := hrest d hd
          rw [byteLength_cons]
          omega
        · rw [hbytes, List.take_append, String.length_utf8EncodeChar, htake,
            List.take_of_length_le (by rw [String.length_utf8EncodeChar]; exact hwhole),
            ← List.append_assoc]
          rfl

/-! ### Pieces between offsets -/

theorem dropBytes?_eq_some_iff {text rest : List Char} {offset : Nat} :
    dropBytes? text offset = some rest ↔
      ∃ before, text = before ++ rest ∧ byteLength before = offset := by
  constructor
  · intro h
    fun_induction dropBytes? text offset with
    | case1 text => exact ⟨[], Option.some.inj h, rfl⟩
    | case2 n => cases h
    | case3 c text n hfits ih =>
        obtain ⟨before, rfl, hlength⟩ := ih h
        refine ⟨c :: before, rfl, ?_⟩
        rw [byteLength_cons, hlength]
        omega
    | case4 c text n hfits => cases h
  · rintro ⟨before, rfl, rfl⟩
    exact dropBytes?_append before rest

theorem slice?_eq_some_iff {text piece : List Char} {start stop : Nat} :
    slice? text start stop = some piece ↔ IsPiece text start stop piece := by
  constructor
  · intro h
    rw [slice?, Option.ite_none_right_eq_some, Option.bind_eq_some_iff] at h
    obtain ⟨horder, rest, hdrop, htake⟩ := h
    obtain ⟨before, rfl, rfl⟩ := dropBytes?_eq_some_iff.1 hdrop
    obtain ⟨⟨behind, rfl⟩, hpiece⟩ := takeBytes?_eq_some_iff.1 htake
    refine ⟨before, behind, (List.append_assoc _ _ _).symm, rfl, ?_⟩
    rw [byteLength_append, hpiece]
    omega
  · rintro ⟨before, behind, rfl, rfl, rfl⟩
    exact slice?_append before piece behind

/-- A character takes at least one byte. -/
theorem IsPiece.length_le {text piece : List Char} {start stop : Nat}
    (h : IsPiece text start stop piece) : piece.length ≤ stop - start := by
  obtain ⟨before, behind, rfl, rfl, rfl⟩ := h
  rw [byteLength_append, Nat.add_sub_cancel_left]
  exact length_le_byteLength piece

theorem IsPiece.stop_le {text piece : List Char} {start stop : Nat}
    (h : IsPiece text start stop piece) : stop ≤ byteLength text := by
  obtain ⟨before, behind, rfl, rfl, rfl⟩ := h
  rw [byteLength_append (before ++ piece)]
  exact Nat.le_add_right _ _

end Text

namespace LineTable

open Text

/-! ### The table at any offset -/

/-- A line that starts in the text behind an offset starts behind its first character. -/
theorem lt_of_mem_startsAfter_head {offset stop start : Nat} {text : List Char}
    (hhead : ∀ c ∈ text.head?, stop < offset + c.utf8Size) (h : start ∈ startsAfter offset text) :
    stop < start := by
  cases text with
  | nil => cases h
  | cons c rest =>
      have hstop := hhead c rfl
      rw [startsAfter] at h
      split at h
      next hc =>
        subst hc
        have hsize : ('\n' : Char).utf8Size = 1 := rfl
        rcases List.mem_cons.1 h with rfl | h
        · omega
        · have := lt_of_mem_startsAfter h
          omega
      next hc =>
        have := lt_of_mem_startsAfter h
        omega

/-- The table of a text, seen from any offset: the lines before, the one that the offset lies on,
and those that start behind it. -/
theorem starts_ofText_split (text : List Char) (offset : Nat) :
    ∃ before behind : List Nat, (ofText text).starts.toList =
        before ++ lineStartBefore text offset :: behind ∧
      before.length = lineFeedsBefore text offset ∧
      (∀ start ∈ before, start < lineStartBefore text offset) ∧
      lineStartBefore text offset ≤ offset ∧ ∀ start ∈ behind, offset < start := by
  obtain ⟨read, rest, part, rfl, hread, hrest, htake, hpart⟩ := exists_split_bytes text offset
  have hstart : lineStartBefore (read ++ rest) offset = byteLength (endedLines read) := by
    rw [lineStartBefore, htake, rdropWhile_append_of_lineFeedByte_not_mem hpart, rdropWhile_bytes,
      length_bytes]
  have hcount : lineFeedsBefore (read ++ rest) offset = read.count '\n' := by
    rw [lineFeedsBefore, htake, List.count_append, List.count_eq_zero.2 hpart,
      count_lineFeedByte_bytes, Nat.add_zero]
  obtain ⟨before, hstarts, hlength, hbefore⟩ := starts_ofText_append read rest
  rw [hstart, hcount]
  exact ⟨before, _, hstarts, hlength, hbefore, (byteLength_endedLines_le read).trans hread,
    fun start h => lt_of_mem_startsAfter_head hrest h⟩

theorem lineStartBefore_le (text : List Char) (offset : Nat) :
    lineStartBefore text offset ≤ offset := by
  obtain ⟨-, -, -, -, -, hlast, -⟩ := starts_ofText_split text offset
  exact hlast

/-- A failed search ends behind the start of a line. -/
theorem index_pos_of_search_ofText {text : List Char} {offset index : Nat}
    (h : (ofText text).search offset = .absent index) : 1 ≤ index := by
  obtain ⟨before, behind, hstarts, -, hbefore, hlast, hbehind⟩ := starts_ofText_split text offset
  rw [search_of_append hstarts hbefore hlast hbehind] at h
  split at h
  · cases h
  · cases h
    exact Nat.le_add_left 1 _

theorem lineIndex_ofText (text : List Char) (offset : Nat) :
    (ofText text).lineIndex offset = lineFeedsBefore text offset := by
  obtain ⟨before, behind, hstarts, hlength, hbefore, hlast, hbehind⟩ :=
    starts_ofText_split text offset
  rw [lineIndex_of_append hstarts hbefore hlast hbehind, hlength]

theorem lineIndex?_ofText (text : List Char) (offset : Nat) :
    (ofText text).lineIndex? offset = some (lineFeedsBefore text offset) := by
  obtain ⟨before, behind, hstarts, hlength, hbefore, hlast, hbehind⟩ :=
    starts_ofText_split text offset
  rw [lineIndex?_of_append hstarts hbefore hlast hbehind, hlength]

theorem start_ofText (text : List Char) (offset : Nat) :
    (ofText text).starts[lineFeedsBefore text offset]? = some (lineStartBefore text offset) := by
  obtain ⟨before, behind, hstarts, hlength, -⟩ := starts_ofText_split text offset
  rw [← Array.getElem?_toList, hstarts, ← hlength]
  simp

theorem positionAt_ofText (text passed : List Char) (offset : Nat) :
    (ofText text).positionAt passed offset = ⟨lineFeedsBefore text offset + 1,
      columnIndex passed (lineStartBefore text offset) offset + 1⟩ := by
  rw [positionAt, lineIndex_ofText, start_ofText]
  rfl

theorem lineFeedsBefore_le (text : List Char) (offset : Nat) :
    lineFeedsBefore text offset ≤ text.count '\n' := by
  rw [← count_lineFeedByte_bytes]
  exact (List.take_sublist _ _).count_le _

/-! ### What fits in a word -/

theorem columnIndex_of_isPiece {passed piece : List Char} {start offset : Nat}
    (h : IsPiece passed start offset piece) : columnIndex passed start offset = piece.length := by
  rw [columnIndex, slice?_eq_some_iff.2 h]

theorem columnIndex_of_no_piece {passed : List Char} {start offset : Nat}
    (h : ∀ piece, ¬ IsPiece passed start offset piece) :
    columnIndex passed start offset = offset - start := by
  have hslice : slice? passed start offset = none :=
    Option.eq_none_iff_forall_ne_some.2 fun piece hpiece => h piece (slice?_eq_some_iff.1 hpiece)
  rw [columnIndex, hslice]

theorem columnIndex_le (passed : List Char) (start offset : Nat) :
    columnIndex passed start offset ≤ offset - start := by
  by_cases h : ∃ piece, IsPiece passed start offset piece
  · obtain ⟨piece, hpiece⟩ := h
    rw [columnIndex_of_isPiece hpiece]
    exact hpiece.length_le
  · rw [columnIndex_of_no_piece (not_exists.1 h)]

theorem columnIndex?_eq {passed : List Char} {start offset : Nat} (h : start ≤ offset) :
    columnIndex? passed start offset = some (columnIndex passed start offset) := by
  rw [columnIndex?, columnIndex]
  cases slice? passed start offset with
  | some piece => rfl
  | none => exact if_pos h

/-- Of the steps of the conversion only the last, which counts columns from one, can leave the range
of words. -/
theorem positionAt?_ofText {text passed : List Char} {offset : Nat}
    (htext : byteLength text + 1 < wordLimit) :
    (ofText text).positionAt? passed offset =
      if ((ofText text).positionAt passed offset).column < wordLimit then
        some ((ofText text).positionAt passed offset)
      else none := by
  have hline : addWord? (lineFeedsBefore text offset) 1 = some (lineFeedsBefore text offset + 1) := by
    have hfeeds := lineFeedsBefore_le text offset
    have hcount : text.count '\n' ≤ text.length := List.count_le_length
    have hlength := length_le_byteLength text
    rw [addWord?, if_pos (by omega)]
  rw [positionAt?_eq, lineIndex?_ofText, positionAt_ofText]
  simp only [Option.bind_eq_bind, Option.bind_some, start_ofText,
    columnIndex?_eq (lineStartBefore_le text offset), hline]
  split_ifs with hfits
  · rw [addWord?, if_pos hfits]
    rfl
  · rw [addWord?, if_neg hfits]
    rfl

/-- A line start is behind a line feed of the text, unless it is 0. -/
theorem lineStartBefore_eq_zero_iff {text : List Char} {offset : Nat}
    (h : byteLength text ≤ offset) : lineStartBefore text offset = 0 ↔ '\n' ∉ text := by
  rw [lineStartBefore, List.take_of_length_le (by rwa [length_bytes]), List.length_eq_zero_iff,
    List.rdropWhile_eq_nil_iff]
  constructor
  · intro hall hmem
    simpa using hall lineFeedByte (lineFeedByte_mem_bytes hmem)
  · intro hnot byte hbyte
    exact bne_iff_ne.2 fun heq => lineFeedByte_not_mem_bytes hnot (heq ▸ hbyte)

/-- Only the last of all offsets has a column that does not fit, and only on the first line. -/
theorem column_lt_wordLimit_iff {text passed : List Char} {offset : Nat}
    (htext : byteLength text + 1 < wordLimit) (hpassed : byteLength passed + 1 < wordLimit)
    (hoffset : offset < wordLimit) :
    ((ofText text).positionAt passed offset).column < wordLimit ↔
      ¬ (offset + 1 = wordLimit ∧ '\n' ∉ text) := by
  have hcolumn := columnIndex_le passed (lineStartBefore text offset) offset
  have hpast (hlast : offset + 1 = wordLimit) : byteLength text ≤ offset := by omega
  rw [positionAt_ofText]
  dsimp only
  constructor
  · rintro hfits ⟨hlast, hnot⟩
    have hstart := (lineStartBefore_eq_zero_iff (hpast hlast)).2 hnot
    have hno (piece : List Char) : ¬ IsPiece passed 0 offset piece := fun h => by
      have := h.stop_le
      omega
    rw [hstart, columnIndex_of_no_piece hno] at hfits
    omega
  · intro h
    by_cases hlast : offset + 1 = wordLimit
    · have hfeed : ¬ '\n' ∉ text := fun hnot => h ⟨hlast, hnot⟩
      rw [← lineStartBefore_eq_zero_iff (hpast hlast)] at hfeed
      have hle := lineStartBefore_le text offset
      omega
    · omega

/-- The conversion is safe for every offset that is a word, whether it is at a character boundary,
inside a character or past the end, and whichever text is passed along for the columns.  A failed
search leaves an index that one can be taken from, the line has an entry in the table, and that
entry is not behind the offset.  The line counts the line feeds among the bytes before the offset.
The column counts the characters from the start of the line if the bytes in between are a piece of
the passed text, and these bytes if not.  It fits in a word unless the offset is the last word and
the table has a single line, and then only it keeps the conversion from giving a position. -/
theorem conversion_is_safe {text passed : List Char} {offset : Nat}
    (htext : Text.byteLength text < Nat.pow 2 63) (hpassed : Text.byteLength passed < Nat.pow 2 63)
    (hoffset : offset < wordLimit) :
    let table := ofText text
    let start := Text.lineStartBefore text offset
    let position := table.positionAt passed offset
    (∀ index, table.search offset = .absent index → 1 ≤ index) ∧
    table.starts[table.lineIndex offset]? = some start ∧ start ≤ offset ∧
    position.line = 1 + Text.lineFeedsBefore text offset ∧
    1 ≤ position.line ∧ position.line ≤ table.lineCount ∧
    (∀ piece, Text.IsPiece passed start offset piece → position.column = 1 + piece.length) ∧
    ((∀ piece, ¬ Text.IsPiece passed start offset piece) →
      position.column = 1 + (offset - start)) ∧
    1 ≤ position.column ∧ position.column ≤ offset + 1 ∧
    (position.column < wordLimit ↔ ¬ (offset + 1 = wordLimit ∧ '\n' ∉ text)) ∧
    table.positionAt? passed offset = if position.column < wordLimit then some position else none := by
  intro table start position
  have hlimit : wordLimit = 2 * Nat.pow 2 63 := rfl
  have htextWord : Text.byteLength text + 1 < wordLimit := by omega
  have hplace : position =
      ⟨Text.lineFeedsBefore text offset + 1, columnIndex passed start offset + 1⟩ :=
    positionAt_ofText text passed offset
  have hline : position.line = Text.lineFeedsBefore text offset + 1 := congrArg Position.line hplace
  have hcolumn : position.column = columnIndex passed start offset + 1 :=
    congrArg Position.column hplace
  refine ⟨fun index => index_pos_of_search_ofText, ?_, lineStartBefore_le text offset, ?_, ?_, ?_,
    fun piece hpiece => ?_, fun hno => ?_, ?_, ?_, ?_, positionAt?_ofText htextWord⟩
  · rw [lineIndex_ofText]
    exact start_ofText text offset
  · rw [hline, Nat.add_comm]
  · rw [hline]
    exact Nat.le_add_left 1 _
  · rw [hline, lineCount_ofText]
    exact Nat.succ_le_succ (lineFeedsBefore_le text offset)
  · rw [hcolumn, columnIndex_of_isPiece hpiece, Nat.add_comm]
  · rw [hcolumn, columnIndex_of_no_piece hno, Nat.add_comm]
  · rw [hcolumn]
    exact Nat.le_add_left 1 _
  · rw [hcolumn]
    exact Nat.succ_le_succ ((columnIndex_le passed start offset).trans (Nat.sub_le _ _))
  · have hpassedWord : Text.byteLength passed + 1 < wordLimit := by omega
    exact column_lt_wordLimit_iff htextWord hpassedWord hoffset

/-- Inside a character of the table's text the column counts bytes.  At the last offset the column
does not fit in a table of one line. -/
theorem conversion_inside_character_and_at_last_word :
    Text.byteLength ['é'] < Nat.pow 2 63 ∧ Text.byteLength ['x', 'y'] < Nat.pow 2 63 ∧
      (ofText ['é']).positionAt? ['é'] 1 = some ⟨1, 2⟩ ∧
      (ofText ['é']).positionAt? ['x', 'y'] (wordLimit - 1) = none := by
  have htext : Text.byteLength ['é'] < Nat.pow 2 63 := by decide
  have hpassed : Text.byteLength ['x', 'y'] < Nat.pow 2 63 := by decide
  -- The first byte alone is no piece of the text, so the column is the one behind a byte.
  have hslice : Text.slice? ['é'] (Text.lineStartBefore ['é'] 1) 1 = none := by decide
  have hno (piece : List Char) : ¬ Text.IsPiece ['é'] (Text.lineStartBefore ['é'] 1) 1 piece :=
    fun h => nomatch hslice.symm.trans (Text.slice?_eq_some_iff.2 h)
  obtain ⟨-, -, -, hline, -, -, -, hcolumn, -, -, hfits, hwords⟩ :=
    @conversion_is_safe _ _ 1 htext htext (by decide)
  obtain ⟨-, -, -, -, -, -, -, -, -, -, hfitsLast, hwordsLast⟩ :=
    @conversion_is_safe _ _ (wordLimit - 1) htext hpassed (by decide)
  refine ⟨htext, hpassed, ?_, ?_⟩
  · rw [hwords, if_pos (hfits.2 (by decide))]
    change some (Position.mk ((ofText ['é']).positionAt ['é'] 1).line
      ((ofText ['é']).positionAt ['é'] 1).column) = _
    rw [hline, hcolumn hno]
    rfl
  · rw [hwordsLast, if_neg (fun h => hfitsLast.1 h ⟨rfl, by decide⟩)]

end LineTable

end TokenAudit
