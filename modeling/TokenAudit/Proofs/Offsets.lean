import Mathlib.Data.List.DropRight
import TokenAudit.LineTable

/-!
# Byte offsets and positions

Reading a text character by character moves a position along: a line feed starts a new line, and
every other character takes one column.  A line table gets to the same position by binary search
and by counting characters, without reading the lines before.

* `lineIndex_of_append`: an offset lies on the line of the last table entry that is not behind it.
* `positionAt_ofText_append`: at a character boundary, the table of a text gives the position that
  reading up to the boundary gives.
-/

namespace TokenAudit

namespace Position

/-- The position just after a character. -/
def afterChar (p : Position) (c : Char) : Position :=
  if c = '\n' then ⟨p.line + 1, 1⟩ else ⟨p.line, p.column + 1⟩

/-- The position just after a text. -/
def after (p : Position) (text : List Char) : Position := text.foldl afterChar p

/-- The position so many lines further down, in the same column. -/
def down (p : Position) (lines : Nat) : Position := ⟨p.line + lines, p.column⟩

@[simp] theorem after_nil (p : Position) : p.after [] = p := rfl

@[simp] theorem after_cons (p : Position) (c : Char) (text : List Char) :
    p.after (c :: text) = (p.afterChar c).after text := rfl

@[simp] theorem after_append (p : Position) (a b : List Char) :
    p.after (a ++ b) = (p.after a).after b := by
  simp [after]

@[simp] theorem afterChar_lineFeed (p : Position) : p.afterChar '\n' = ⟨p.line + 1, 1⟩ := rfl

/-- Reading moves the line by the number of line feeds. -/
theorem line_after (p : Position) (text : List Char) :
    (p.after text).line = p.line + text.count '\n' := by
  induction text generalizing p with
  | nil => rfl
  | cons c text ih =>
      rw [after_cons, ih, List.count_cons]
      by_cases hc : c = '\n'
      · simp [afterChar, hc]
        omega
      · simp [afterChar, hc]

/-- Text without a line feed moves the column by its length and keeps the line. -/
theorem after_of_lineFeed_not_mem {p : Position} {text : List Char} (h : '\n' ∉ text) :
    p.after text = ⟨p.line, p.column + text.length⟩ := by
  induction text generalizing p with
  | nil => rfl
  | cons c text ih =>
      rw [List.mem_cons, not_or] at h
      rw [after_cons, ih h.2]
      have hc : c ≠ '\n' := fun heq => h.1 heq.symm
      simp [afterChar, hc, Nat.add_assoc, Nat.add_comm 1]

theorem after_down (p : Position) (lines : Nat) (text : List Char) :
    (p.down lines).after text = (p.after text).down lines := by
  induction text generalizing p with
  | nil => rfl
  | cons c text ih =>
      have hchar : (p.down lines).afterChar c = (p.afterChar c).down lines := by
        by_cases hc : c = '\n'
        · simp [afterChar, down, hc, Nat.add_right_comm]
        · simp [afterChar, down, hc]
      rw [after_cons, after_cons, hchar, ih]

end Position

namespace Text

theorem dropBytes?_append (a b : List Char) : dropBytes? (a ++ b) (byteLength a) = some b := by
  induction a with
  | nil => cases b <;> rfl
  | cons c a ih =>
      obtain ⟨n, hn⟩ := Nat.exists_eq_add_of_lt c.utf8Size_pos
      simp only [Nat.zero_add] at hn
      rw [List.cons_append, byteLength_cons, show c.utf8Size + byteLength a
        = (n + byteLength a) + 1 by omega, dropBytes?, if_pos (by omega), ← ih]
      congr 1
      omega

theorem takeBytes?_append (a b : List Char) : takeBytes? (a ++ b) (byteLength a) = some a := by
  induction a with
  | nil => cases b <;> rfl
  | cons c a ih =>
      obtain ⟨n, hn⟩ := Nat.exists_eq_add_of_lt c.utf8Size_pos
      simp only [Nat.zero_add] at hn
      rw [List.cons_append, byteLength_cons, show c.utf8Size + byteLength a
        = (n + byteLength a) + 1 by omega, takeBytes?, if_pos (by omega),
        show n + byteLength a + 1 - c.utf8Size = byteLength a by omega, ih]
      rfl

theorem slice?_append (a b c : List Char) :
    slice? (a ++ b ++ c) (byteLength a) (byteLength (a ++ b)) = some b := by
  rw [slice?, if_pos (by simp), List.append_assoc, dropBytes?_append, Option.bind_some,
    byteLength_append, Nat.add_sub_cancel_left, takeBytes?_append]

/-- The lines of a text that a line feed ends. -/
def endedLines (text : List Char) : List Char := text.rdropWhile (· != '\n')

/-- The characters of a text behind its last line feed. -/
def lastLine (text : List Char) : List Char := text.rtakeWhile (· != '\n')

theorem endedLines_append_lastLine (text : List Char) : endedLines text ++ lastLine text = text :=
  List.rdropWhile_append_rtakeWhile

theorem endedLines_concat_lineFeed (text : List Char) :
    endedLines (text ++ ['\n']) = text ++ ['\n'] :=
  List.rdropWhile_concat_neg _ _ _ (by simp)

theorem lastLine_concat_lineFeed (text : List Char) : lastLine (text ++ ['\n']) = [] :=
  List.rtakeWhile_concat_neg _ _ _ (by simp)

theorem endedLines_concat {c : Char} (hc : c ≠ '\n') (text : List Char) :
    endedLines (text ++ [c]) = endedLines text :=
  List.rdropWhile_concat_pos _ _ _ (by simpa using hc)

theorem lastLine_concat {c : Char} (hc : c ≠ '\n') (text : List Char) :
    lastLine (text ++ [c]) = lastLine text ++ [c] :=
  List.rtakeWhile_concat_pos _ _ _ (by simpa using hc)

theorem byteLength_endedLines_le (text : List Char) :
    byteLength (endedLines text) ≤ byteLength text := by
  have h := congrArg byteLength (endedLines_append_lastLine text)
  rw [byteLength_append] at h
  omega

end Text

namespace LineTable

open Text

/-! ### The search -/

/-- The search ends at the border between the entries below the offset and the others. -/
theorem lowerBound_eq {starts : Array Nat} {offset border : Nat}
    (hbelow : ∀ i, i < border → starts[i]?.getD 0 < offset)
    (hothers : ∀ i, border ≤ i → i < starts.size → offset ≤ starts[i]?.getD 0)
    {low high : Nat} (hlow : low ≤ border) (hhigh : border ≤ high) (hsize : high ≤ starts.size) :
    lowerBound starts offset low high = border := by
  fun_induction lowerBound starts offset low high with
  | case1 low high hlt middle hless ih =>
      have hmiddle : middle < border := by
        by_contra hge
        have := hothers middle (by omega) (by omega)
        omega
      exact ih hmiddle hhigh hsize
  | case2 low high hlt middle hnot ih =>
      have hmiddle : border ≤ middle := by
        by_contra hless
        exact hnot (hbelow middle (by omega))
      exact ih hlow hmiddle (by omega)
  | case3 low high hnot => omega

/-- A table cut in two pieces, the entries below an offset and the others, is searched to the
length of the first piece. -/
theorem lowerBound_of_append {starts : Array Nat} {offset : Nat} {below others : List Nat}
    (hstarts : starts.toList = below ++ others) (hbelow : ∀ start ∈ below, start < offset)
    (hothers : ∀ start ∈ others, offset ≤ start) :
    lowerBound starts offset 0 starts.size = below.length := by
  have hsize : starts.size = below.length + others.length := by
    rw [← Array.length_toList, hstarts, List.length_append]
  have hentry (i : Nat) : starts[i]? = (below ++ others)[i]? := by
    rw [← hstarts, Array.getElem?_toList]
  apply lowerBound_eq _ _ (Nat.zero_le _) (by omega) (Nat.le_refl _)
  · intro i hi
    rw [hentry, List.getElem?_append_left hi, List.getElem?_eq_getElem hi]
    exact hbelow _ (List.getElem_mem hi)
  · intro i hi his
    have hi' : i - below.length < others.length := by omega
    rw [hentry, List.getElem?_append_right hi, List.getElem?_eq_getElem hi']
    exact hothers _ (List.getElem_mem hi')

/-- The search for an offset finds the last entry that is not behind it, or the place just after that
entry. -/
theorem search_of_append {t : LineTable} {offset last : Nat} {before behind : List Nat}
    (hstarts : t.starts.toList = before ++ last :: behind)
    (hbefore : ∀ start ∈ before, start < last) (hlast : last ≤ offset)
    (hbehind : ∀ start ∈ behind, offset < start) :
    t.search offset =
      if last = offset then .present before.length else .absent (before.length + 1) := by
  have hentry (i : Nat) : t.starts[i]? = (before ++ last :: behind)[i]? := by
    rw [← hstarts, Array.getElem?_toList]
  rcases Nat.lt_or_eq_of_le hlast with hless | rfl
  · -- The offset is no entry, and the entry just below it starts its line.
    have hstarts' : t.starts.toList = (before ++ [last]) ++ behind := by simpa using hstarts
    have hsearch := lowerBound_of_append hstarts'
      (fun start h => by
        rcases List.mem_append.1 h with h | h
        · exact Nat.lt_trans (hbefore start h) hless
        · rwa [List.mem_singleton.1 h])
      (fun start h => Nat.le_of_lt (hbehind start h))
    rw [List.length_append, List.length_singleton] at hsearch
    have habsent : t.starts[before.length + 1]? ≠ some offset := by
      rw [hentry, List.getElem?_append_right (by omega), Nat.add_sub_cancel_left,
        List.getElem?_cons_succ]
      intro h
      exact Nat.lt_irrefl _ (hbehind offset (List.mem_of_getElem? h))
    rw [if_neg (Nat.ne_of_lt hless)]
    simp [search, hsearch, habsent]
  · -- The offset is the entry that starts its line.
    have hsearch := lowerBound_of_append hstarts hbefore (fun start h => by
      rcases List.mem_cons.1 h with rfl | h
      · exact Nat.le_refl _
      · exact Nat.le_of_lt (hbehind start h))
    have hpresent : t.starts[before.length]? = some last := by
      rw [hentry, List.getElem?_append_right (Nat.le_refl _), Nat.sub_self,
        List.getElem?_cons_zero]
    rw [if_pos rfl]
    simp [search, hsearch, hpresent]

/-- An offset lies on the line of the last entry that is not behind it. -/
theorem lineIndex_of_append {t : LineTable} {offset last : Nat} {before behind : List Nat}
    (hstarts : t.starts.toList = before ++ last :: behind)
    (hbefore : ∀ start ∈ before, start < last) (hlast : last ≤ offset)
    (hbehind : ∀ start ∈ behind, offset < start) : t.lineIndex offset = before.length := by
  rw [lineIndex, search_of_append hstarts hbefore hlast hbehind]
  split_ifs <;> rfl

/-! ### The table of a text -/

theorem startsAfter_append (offset : Nat) (a b : List Char) :
    startsAfter offset (a ++ b) = startsAfter offset a ++ startsAfter (offset + byteLength a) b := by
  induction a generalizing offset with
  | nil => rfl
  | cons c a ih =>
      by_cases hc : c = '\n'
      · subst hc
        have hsize : ('\n' : Char).utf8Size = 1 := rfl
        simp [startsAfter, ih, hsize, Nat.add_assoc]
      · simp [startsAfter, hc, ih, Nat.add_assoc]

/-- Every line start after the first lies behind a line feed. -/
theorem lt_of_mem_startsAfter {offset start : Nat} {text : List Char}
    (h : start ∈ startsAfter offset text) : offset < start := by
  induction text generalizing offset with
  | nil => simp [startsAfter] at h
  | cons c text ih =>
      rw [startsAfter] at h
      split at h
      · rcases List.mem_cons.1 h with rfl | h
        · omega
        · have := ih h
          omega
      · have := ih h
        omega

/-- The last line start of a text is where its last line feed ends. -/
theorem starts_eq_append (text : List Char) :
    ∃ before : List Nat, 0 :: startsAfter 0 text = before ++ [byteLength (endedLines text)] ∧
      before.length = text.count '\n' ∧
      ∀ start ∈ before, start < byteLength (endedLines text) := by
  -- The induction is on the last character: only a line feed there adds a line start.
  induction text using List.reverseRecOn with
  | nil => exact ⟨[], rfl, rfl, by simp⟩
  | append_singleton text c ih =>
      obtain ⟨before, hstarts, hlength, hbefore⟩ := ih
      by_cases hc : c = '\n'
      · subst hc
        have hsize : ('\n' : Char).utf8Size = 1 := rfl
        have hle := byteLength_endedLines_le text
        rw [endedLines_concat_lineFeed, byteLength_append, byteLength_cons, hsize]
        refine ⟨before ++ [byteLength (endedLines text)], ?_, by simp [hlength], ?_⟩
        · rw [startsAfter_append, ← List.cons_append, hstarts]
          simp [startsAfter]
        · intro start hstart
          rcases List.mem_append.1 hstart with h | h
          · have := hbefore start h
            omega
          · rw [List.mem_singleton.1 h]
            omega
      · rw [endedLines_concat hc, startsAfter_append, ← List.cons_append, hstarts]
        exact ⟨before, by simp [startsAfter, hc], by simp [hlength, hc], hbefore⟩

/-- The table of a text, seen from a character boundary: the lines before, the one that the boundary
lies on, and those that start behind it. -/
theorem starts_ofText_append (a b : List Char) :
    ∃ before : List Nat, (ofText (a ++ b)).starts.toList =
        before ++ byteLength (endedLines a) :: startsAfter (byteLength a) b ∧
      before.length = a.count '\n' ∧ ∀ start ∈ before, start < byteLength (endedLines a) := by
  obtain ⟨before, hstarts, hlength, hbefore⟩ := starts_eq_append a
  refine ⟨before, ?_, hlength, hbefore⟩
  rw [ofText, startsAfter_append, ← List.cons_append, hstarts, Nat.zero_add, List.append_assoc,
    List.singleton_append]

/-- What stands between the start of its line and a character boundary is the last line before it. -/
theorem slice?_lastLine (a b : List Char) :
    slice? (a ++ b) (byteLength (endedLines a)) (byteLength a) = some (lastLine a) := by
  have hslice := slice?_append (endedLines a) (lastLine a) b
  rwa [endedLines_append_lastLine] at hslice

end LineTable

/-- Reading a text ends on the line behind its last line feed, after the characters since. -/
theorem Position.after_start (text : List Char) :
    Position.start.after text = ⟨text.count '\n' + 1, (Text.lastLine text).length + 1⟩ := by
  induction text using List.reverseRecOn with
  | nil => rfl
  | append_singleton text c ih =>
      rw [Position.after_append, ih, Position.after_cons, Position.after_nil, List.count_append]
      by_cases hc : c = '\n'
      · subst hc
        rw [Text.lastLine_concat_lineFeed]
        rfl
      · rw [Text.lastLine_concat hc]
        simp [Position.afterChar, hc]

/-- The table of a text gives every character boundary the position that reading up to it gives. -/
theorem LineTable.positionAt_ofText_append (a b : List Char) :
    (LineTable.ofText (a ++ b)).positionAt (a ++ b) (Text.byteLength a) =
      Position.start.after a := by
  obtain ⟨before, hstarts, hlength, hbefore⟩ := starts_ofText_append a b
  -- The line starts of the text behind the boundary lie behind the offset.
  have hline := lineIndex_of_append hstarts hbefore (Text.byteLength_endedLines_le a)
    fun _ h => lt_of_mem_startsAfter h
  have hstart : (ofText (a ++ b)).starts[before.length]?.getD 0 =
      Text.byteLength (Text.endedLines a) := by
    rw [← Array.getElem?_toList, hstarts]
    simp
  rw [positionAt, hline, hstart, columnIndex, slice?_lastLine, hlength, Position.after_start]

end TokenAudit
