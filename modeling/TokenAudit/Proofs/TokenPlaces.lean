import Mathlib.Data.List.Chain
import TokenAudit.Proofs.TokenSequence

/-!
# Where tokens stand

The position of a token leads back to its text: behind the lines in front of that position, and so
many characters further, the text goes on with the text of the token.  `dropLines?_count_lineFeed`
undoes the reading of a position, `exists_read_of_mem` says what was read in front of a token, and
`position_follows` what is read between a token and the next one.  The order of the positions and
the distance of the columns come from the last two.
-/

namespace TokenAudit

namespace Text

/-- What stands behind the first line feed. -/
def dropLine? : List Char → Option (List Char)
  | [] => none
  | c :: rest => if c = '\n' then some rest else dropLine? rest

/-- What stands behind the first lines, each up to its line feed. -/
def dropLines? : Nat → List Char → Option (List Char)
  | 0, text => some text
  | n + 1, text => (dropLines? n text).bind dropLine?

/-- A piece of text stands at a position: behind the lines in front of the position, and so many
characters further, the text goes on with the piece. -/
def StandsAt (text piece : List Char) (p : Position) : Prop :=
  ∃ lines columns behind, p = ⟨lines + 1, columns + 1⟩ ∧ dropLines? lines text = some behind ∧
    columns ≤ behind.length ∧ piece <+: behind.drop columns

theorem dropLine?_append_lineFeed {line : List Char} (h : '\n' ∉ line) (rest : List Char) :
    dropLine? (line ++ '\n' :: rest) = some rest := by
  induction line with
  | nil => rfl
  | cons c line ih =>
      rw [List.mem_cons, not_or] at h
      rw [List.cons_append, dropLine?, if_neg (Ne.symm h.1), ih h.2]

theorem lineFeed_not_mem_lastLine (text : List Char) : '\n' ∉ lastLine text := by
  intro h
  simpa using List.mem_rtakeWhile_imp h

/-- Behind as many lines as a text has line feeds stands its last line. -/
theorem dropLines?_count_lineFeed (read rest : List Char) :
    dropLines? (read.count '\n') (read ++ rest) = some (lastLine read ++ rest) := by
  -- The induction is on the last character read, which is handed over to the rest.
  induction read using List.reverseRecOn generalizing rest with
  | nil => rfl
  | append_singleton read c ih =>
      rw [List.append_assoc, List.singleton_append, List.count_append]
      by_cases hc : c = '\n'
      · subst hc
        rw [List.count_singleton_self, dropLines?, ih, lastLine_concat_lineFeed, List.nil_append]
        exact dropLine?_append_lineFeed (lineFeed_not_mem_lastLine read) rest
      · have hcount : [c].count '\n' = 0 := List.count_eq_zero.2 (by simpa using Ne.symm hc)
        rw [hcount, Nat.add_zero, ih, lastLine_concat hc, List.append_assoc, List.singleton_append]

/-- What was read leads to a position, and what follows it stands there. -/
theorem standsAt_after (read piece rest : List Char) :
    StandsAt (read ++ (piece ++ rest)) piece (Position.start.after read) := by
  refine ⟨read.count '\n', (lastLine read).length, lastLine read ++ (piece ++ rest),
    Position.after_start read, dropLines?_count_lineFeed _ _, by simp, ?_⟩
  rw [List.drop_left]
  exact List.prefix_append _ _

end Text

namespace Position

/-- Reading moves a position forward. -/
theorem lt_after {p : Position} {text : List Char} (h : text ≠ []) : p < p.after text := by
  show p.line < (p.after text).line ∨
    p.line = (p.after text).line ∧ p.column < (p.after text).column
  by_cases hfeed : '\n' ∈ text
  · have hcount := List.count_pos_iff.2 hfeed
    rw [line_after]
    exact .inl (by omega)
  · have hpos := List.length_pos_iff.2 h
    rw [after_of_lineFeed_not_mem hfeed]
    exact .inr ⟨rfl, by simpa using hpos⟩

/-- Text that is read without getting to another line has no line feed. -/
theorem lineFeed_not_mem_of_line_eq {p : Position} {text : List Char}
    (h : (p.after text).line = p.line) : '\n' ∉ text := by
  rw [line_after] at h
  exact List.count_eq_zero.1 (by omega)

end Position

/-- A text ahead, up to its end, is read from token to token. -/
theorem exists_read_of_mem {p : Position} {text : List Char} {t : Token}
    (h : t ∈ tokensFrom p text ++ [.eof (p.after text)]) :
    ∃ read rest, text = read ++ (t.text.toList ++ rest) ∧ t.position = p.after read := by
  fun_induction tokensFrom p text with
  | case1 p text item rest hitem ih =>
      obtain rfl := Trivia.append_of_item? hitem
      rw [Position.after_append] at h
      obtain ⟨read, behind, hrest, hposition⟩ := ih h
      exact ⟨item ++ read, behind, by rw [hrest, List.append_assoc],
        by rw [hposition, Position.after_append]⟩
  | case2 p hitem =>
      obtain rfl := List.mem_singleton.1 h
      exact ⟨[], [], rfl, rfl⟩
  | case3 p c rest hitem ih =>
      have hletters := Lexeme.letters_append_ofFront c rest
      rw [← hletters, Position.after_append, List.cons_append] at h
      rcases List.mem_cons.1 h with rfl | hlater
      · refine ⟨[], (Lexeme.ofFront c rest).2, ?_, ?_⟩
        · rw [Lexeme.token_ofFront, String.toList_ofList, hletters, List.nil_append]
        · rw [Lexeme.token_ofFront, Position.after_nil]
      · obtain ⟨read, behind, hrest, hposition⟩ := ih hlater
        refine ⟨(Lexeme.ofFront c rest).1.letters ++ read, behind, ?_, ?_⟩
        · rw [List.append_assoc, ← hrest, hletters]
        · rw [hposition, Position.after_append]

/-- Tokens stand one behind the other, and the end behind all of them. -/
theorem pairwise_position_lt (p : Position) (text : List Char) :
    (tokensFrom p text ++ [Token.eof (p.after text)]).Pairwise
      fun t later => t.position < later.position := by
  fun_induction tokensFrom p text with
  | case1 p text item rest hitem ih =>
      obtain rfl := Trivia.append_of_item? hitem
      rwa [Position.after_append]
  | case2 p hitem => exact List.pairwise_singleton _ _
  | case3 p c rest hitem ih =>
      have hletters := Lexeme.letters_append_ofFront c rest
      rw [← hletters, Position.after_append, List.cons_append, List.pairwise_cons]
      refine ⟨fun later hlater => ?_, ih⟩
      obtain ⟨read, _, _, hposition⟩ := exists_read_of_mem hlater
      have hne : (Lexeme.ofFront c rest).1.letters ++ read ≠ [] :=
        List.append_ne_nil_of_left_ne_nil (Lexeme.letters_ofFront_ne_nil c rest) read
      rw [hposition, ← Position.after_append, Lexeme.token_ofFront]
      exact Position.lt_after hne

/-- From a token to the next one, its text and a gap are read. -/
theorem position_follows (p : Position) (text : List Char) :
    (tokensFrom p text ++ [Token.eof (p.after text)]).IsChain
      fun t next => ∃ gap, next.position = t.position.after (t.text.toList ++ gap) := by
  fun_induction tokensFrom p text with
  | case1 p text item rest hitem ih =>
      obtain rfl := Trivia.append_of_item? hitem
      rwa [Position.after_append]
  | case2 p hitem => exact .singleton _
  | case3 p c rest hitem ih =>
      have hletters := Lexeme.letters_append_ofFront c rest
      rw [← hletters, Position.after_append, List.cons_append, List.isChain_cons]
      refine ⟨fun next hnext => ?_, ih⟩
      obtain ⟨read, _, _, hposition⟩ := exists_read_of_mem (List.mem_of_mem_head? hnext)
      refine ⟨read, ?_⟩
      rw [hposition, Lexeme.token_ofFront, String.toList_ofList, Position.after_append]

/-- On one line, a token leaves room for its text in front of what stands behind it. -/
theorem column_add_length_le {t next : Token} {gap : List Char}
    (h : next.position = t.position.after (t.text.toList ++ gap))
    (hline : t.position.line = next.position.line) :
    t.position.column + t.text.length ≤ next.position.column := by
  rw [h] at hline
  rw [h, Position.after_of_lineFeed_not_mem (Position.lineFeed_not_mem_of_line_eq hline.symm),
    List.length_append, String.length_toList]
  show t.position.column + t.text.length ≤ t.position.column + (t.text.length + gap.length)
  omega

/-- The tokens of a text stand at strictly increasing positions, through the end of the stream.  At
the position of each of them the text goes on with the text of that token, which on one line ends
before the next token begins.  The end stands behind the last character. -/
theorem Scan.positions_locate_tokens (text : List Char) :
    ∃ front stop, (ofText text).tokens.value = front ++ [.eof stop] ∧
      (∀ t ∈ front, t.isEof = false) ∧
      (front ++ [Token.eof stop]).Pairwise (fun t later => t.position < later.position) ∧
      (∀ t ∈ front, Text.StandsAt text t.text.toList t.position) ∧
      (front ++ [Token.eof stop]).IsChain (fun t next => '\n' ∉ t.text.toList →
        t.position.line = next.position.line →
          t.position.column + t.text.length ≤ next.position.column) ∧
      stop = ⟨1 + text.count '\n', 1 + (Text.lastLine text).length⟩ := by
  refine ⟨_, _, tokens_ofText text, fun t ht => isEof_of_mem_tokensFrom ht,
    pairwise_position_lt .start text, fun t ht => ?_, ?_, ?_⟩
  · obtain ⟨read, rest, htext, hposition⟩ := exists_read_of_mem (List.mem_append_left _ ht)
    rw [hposition, htext]
    exact Text.standsAt_after read _ rest
  · refine (position_follows .start text).imp ?_
    rintro t next ⟨gap, hnext⟩ - hline
    exact column_add_length_le hnext hline
  · rw [Position.after_start, Nat.add_comm 1, Nat.add_comm 1]

end TokenAudit
