import TokenAudit.Proofs.FixedPoint
import TokenAudit.Proofs.RunOutcome
import TokenAudit.Proofs.TraceWriting

/-!
# Reading a trace

A trace is read line by line: a position in brackets, a colon, and then a text up to the end of the
line.  What stands in brackets are two decimal numbers, and no content of a scan holds a line feed.
So what is read is what was recorded (`TraceEntry.readAll?_traceText`), whatever brackets, commas
and colons the texts hold.

The trace and the artifact of a validation come about apart from each other, the one token by token
and the other from the listing at the end.  The main result is that they tell the same.
-/

namespace TokenAudit

/-! ### Numbers and lines -/

namespace Decimal

/-- Reads a number at the front of a text, as far as the digits go. -/
def readNumber? (text : List Char) : Option (Nat × List Char) :=
  match text.takeWhile isDigit with
  | [] => none
  | digits => some (value digits, text.dropWhile isDigit)

/-- The digits of a number denote it. -/
theorem value_toList_repr (n : Nat) : value n.repr.toList = n := by
  have hvalue : value n.repr.toList = Nat.ofDigitChars 10 n.repr.toList 0 := by
    simp only [value, Nat.ofDigitChars, Nat.mul_comm 10]
  rw [hvalue, Nat.toList_repr]
  exact Nat.ofDigitChars_toDigits (by decide) (by decide)

/-- A number is read back, if no digit follows it. -/
theorem readNumber?_repr (n : Nat) (rest : List Char)
    (hrest : ∀ c, rest.head? = some c → isDigit c = false) :
    readNumber? (n.repr.toList ++ rest) = some (n, rest) := by
  have hdigits : ∀ c ∈ n.repr.toList, isDigit c = true := by
    intro c hc
    rw [Nat.toList_repr] at hc
    exact Nat.isDigit_of_mem_toDigits (by decide) (by decide) hc
  have hsome : n.repr.toList ≠ [] := by
    rw [Nat.toList_repr]
    exact Nat.toDigits_ne_nil
  obtain ⟨htake, hdrop⟩ := takeWhile_dropWhile_append hdigits hrest
  unfold readNumber?
  rw [htake, hdrop]
  split
  · exact absurd ‹_› hsome
  · rw [value_toList_repr]

end Decimal

/-- What a line of a trace tells: where a token stands, and its text. -/
structure TraceEntry where
  position : Position
  text : String
  deriving DecidableEq, Repr

/-- The entry of a token in a trace. -/
def Token.entry (t : Token) : TraceEntry := ⟨t.position, t.text⟩

namespace TraceEntry

open Decimal

/-- Reads a line: a line number and a column in brackets, a colon, and a text. -/
def ofLine? : List Char → Option TraceEntry
  | '[' :: rest =>
    match readNumber? rest with
    | some (line, ',' :: rest) =>
      match readNumber? rest with
      | some (column, ']' :: ':' :: text) => some ⟨⟨line, column⟩, String.ofList text⟩
      | _ => none
    | _ => none
  | _ => none

/-- Reads the lines of a trace, each of which ends with a line feed. -/
def readAll? (trace : List Char) : Option (List TraceEntry) :=
  let lines := trace.splitOn '\n'
  if lines.getLast? = some [] then lines.dropLast.mapM ofLine? else none

theorem toList_render (t : Token) :
    t.render.toList = '[' :: (t.position.line.repr.toList ++
      ',' :: (t.position.column.repr.toList ++ ']' :: ':' :: t.text.toList)) := by
  simp [Token.render]

/-- The line of a token is read back. -/
theorem ofLine?_render (t : Token) : ofLine? t.render.toList = some t.entry := by
  have hline := readNumber?_repr t.position.line
    (',' :: (t.position.column.repr.toList ++ ']' :: ':' :: t.text.toList))
    fun c hc => by cases hc; rfl
  have hcolumn := readNumber?_repr t.position.column (']' :: ':' :: t.text.toList)
    fun c hc => by cases hc; rfl
  simp only [toList_render, ofLine?, hline, hcolumn, String.ofList_toList, Token.entry]

/-- A text that looks like the rest of the brackets is read as a text. -/
example : ofLine? "[3,14]:]:".toList = some ⟨⟨3, 14⟩, "]:"⟩ := by decide

theorem mapM_ofLine?_render (tokens : List Token) :
    (tokens.map fun t => t.render.toList).mapM ofLine? = some (tokens.map Token.entry) := by
  induction tokens with
  | nil => rfl
  | cons t tokens ih => simp [ofLine?_render, ih]

/-- A line feed in the line of a token stands in its text. -/
theorem lineFeed_not_mem_render {t : Token} (h : '\n' ∉ t.text.toList) :
    '\n' ∉ t.render.toList := by
  have hdigits (n : Nat) : '\n' ∉ Nat.toDigits 10 n := by
    intro hmem
    cases Nat.isDigit_of_mem_toDigits (by decide) (by decide) hmem
  rw [toList_render]
  simp [hdigits, h]

theorem toList_traceText (tokens : List Token) :
    (traceText tokens).toList =
      ['\n'].intercalate (tokens.map (fun t => t.render.toList) ++ [[]]) := by
  induction tokens with
  | nil => rfl
  | cons t tokens ih =>
      have hline : (traceText (t :: tokens)).toList =
          t.render.toList ++ ['\n'] ++ (traceText tokens).toList := by
        rw [traceText, List.map_cons, String.join_cons, String.toList_append, String.toList_append]
        rfl
      rw [hline, ih, List.map_cons, List.cons_append, List.intercalate_cons_of_ne_nil (by simp)]

/-- Recorded tokens are read back, if no line feed stands in their texts. -/
theorem readAll?_traceText {tokens : List Token} (h : ∀ t ∈ tokens, '\n' ∉ t.text.toList) :
    readAll? (traceText tokens).toList = some (tokens.map Token.entry) := by
  have hlines : (traceText tokens).toList.splitOn '\n' =
      tokens.map (fun t => t.render.toList) ++ [[]] := by
    rw [toList_traceText]
    refine List.splitOn_intercalate '\n' ?_ (by simp)
    intro line hline
    rcases List.mem_append.1 hline with hmem | hend
    · obtain ⟨t, ht, rfl⟩ := List.mem_map.1 hmem
      exact lineFeed_not_mem_render (h t ht)
    · rw [List.mem_singleton.1 hend]
      exact List.not_mem_nil
  simp only [readAll?, hlines, List.getLast?_concat, if_true, List.dropLast_concat,
    mapM_ofLine?_render]

/-- A trace has one reading: other tokens with the same trace have the same entries, if no line feed
stands in their texts. -/
theorem entries_eq_of_traceText_eq {tokens others : List Token}
    (h : ∀ t ∈ tokens, '\n' ∉ t.text.toList) (hothers : ∀ t ∈ others, '\n' ∉ t.text.toList)
    (htrace : traceText others = traceText tokens) :
    others.map Token.entry = tokens.map Token.entry := by
  have hread := readAll?_traceText hothers
  rw [htrace, readAll?_traceText h] at hread
  exact (Option.some.inj hread).symm

end TraceEntry

/-! ### What a trace writer has written -/

namespace TraceWriter

/-- A trace writer that does not stop has written all bytes. -/
theorem written_put {sink : TraceWriter} {bytes : ByteArray}
    (h : (sink.put bytes).value.stopped = false) :
    (sink.put bytes).value.writer.written = sink.writer.written ++ bytes := by
  unfold put at h ⊢
  cases hstopped : sink.stopped with
  | true => simp [hstopped] at h
  | false =>
      cases hroom : sink.writer.room with
      | none => simp [ByteWriter.write, hroom]
      | some room =>
          by_cases hfits : bytes.size ≤ room
          · simp [ByteWriter.write, hroom, hfits]
          · simp [hstopped, ByteWriter.write, hroom, hfits] at h

/-- A writer without a limit does not stop a trace. -/
theorem stopped_put_of_unlimited {writer : ByteWriter} (h : writer.room = none)
    (bytes : ByteArray) : (TraceWriter.put { writer } bytes).value.stopped = false := by
  simp [put, ByteWriter.write, h]

end TraceWriter

/-! ### The content of a scan -/

namespace Scan

/-- The tokens in front of the first error, or else of the end. -/
def content (scan : Scan) : List Token := scan.tokens.value.takeWhile Token.isContent

theorem content_ofText (text : List Char) :
    (ofText text).content = (tokensFrom .start text).takeWhile Token.isContent := by
  have hend : [Token.eof (Position.start.after text)].takeWhile Token.isContent = [] := rfl
  rw [content, tokens_ofText, List.takeWhile_append, hend, List.append_nil]
  split
  · rename_i hall
    exact ((List.takeWhile_prefix Token.isContent).eq_of_length hall).symm
  · rfl

/-- No content of a text holds a line feed. -/
theorem lineFeed_not_mem_text {p : Position} {text : List Char} {t : Token}
    (h : t ∈ tokensFrom p text) (hcontent : t.isContent = true) : '\n' ∉ t.text.toList := by
  fun_induction tokensFrom p text with
  | case1 p text item rest hitem ih => exact ih h
  | case2 p hitem => cases h
  | case3 p c rest hitem ih =>
      rcases List.mem_cons.1 h with rfl | hlater
      · obtain ⟨kind, hkind, herror⟩ := (Grammar.isContent_token_ofFront_iff c rest p).1 hcontent
        rw [Lexeme.token_ofFront, String.toList_ofList]
        exact Grammar.lineFeed_not_mem_of_isLexeme (Grammar.isLexeme_of_front hitem hkind herror).1
      · exact ih hlater

theorem lineFeed_not_mem_content (text : List Char) :
    ∀ t ∈ (ofText text).content, '\n' ∉ t.text.toList := by
  intro t ht
  rw [content_ofText] at ht
  exact lineFeed_not_mem_text ((List.takeWhile_prefix _).subset ht) (List.mem_takeWhile_imp ht)

/-- A validation of a scan records its content. -/
theorem sink_run_ofText {κ : Type} [TokenSink κ] (text : List Char) (sink : κ) :
    (Validation.run (ofText text) sink).value.sink =
      (TokenSink.recordAll sink (ofText text).content).value := by
  have hands := handsOut_ofText text
  have hopen : ∀ t ∈ tokensFrom .start text, t.isEof = false :=
    fun t ht => isEof_of_mem_tokensFrom ht
  rw [content_ofText]
  rcases Validation.content_or_error hopen with
    hcontent | ⟨content, error, rest, htokens, hcontent, herror⟩
  · rw [Validation.value_run_of_content hands hcontent, List.takeWhile_eq_self_iff.2 hcontent]
  · have hstop : error.isContent = false := by
      rw [← Bool.not_eq_true, Validation.isContent_iff, herror]
      simp
    rw [htokens] at hands ⊢
    rw [Validation.value_run_of_error hands hcontent herror,
      List.takeWhile_append_of_pos hcontent, List.takeWhile_cons_of_neg (by simp [hstop]),
      List.append_nil]

/-- The texts of an accepted scan are those of its content. -/
theorem texts_content_of_accepted {text : List Char} {listing : Listing}
    (h : verdict text = .accepted listing) :
    (ofText text).content.map Token.text = listing.toList := by
  obtain ⟨hcontent, hlisting⟩ := verdict_eq_accepted_iff.1 h
  rw [content_ofText, List.takeWhile_eq_self_iff.2 hcontent, hlisting]

/-- A trace writer that does not fail writes the trace of the content of a text, which is read back
to the positions and texts of that content and to nothing else.  Its lines are those that a sink of
lines collects.  If the text is accepted, the texts read back are the lines of its artifact. -/
theorem trace_determines_content {κ : Type} [TokenSink κ] (text : String) (sink : κ) :
    let scan := ofText text.toList
    let trace := traceText scan.content
    let lines := (Validation.run scan ({} : TraceLines)).value.sink.lines.toList
    (∀ writer : ByteWriter,
      let kept := (Validation.run scan ({ writer } : TraceWriter)).value.sink
      (writer.room = none → kept.stopped = false) ∧
      (kept.stopped = false → kept.writer.written = writer.written ++ trace.toUTF8)) ∧
    TraceEntry.readAll? trace.toList = some (scan.content.map Token.entry) ∧
    (∀ tokens : List Token, (∀ t ∈ tokens, '\n' ∉ t.text.toList) → traceText tokens = trace →
      tokens.map Token.entry = scan.content.map Token.entry) ∧
    (∀ other : String, traceText (ofText other.toList).content = trace →
      (ofText other.toList).content.map Token.entry = scan.content.map Token.entry) ∧
    trace = String.join (lines.map fun line => line ++ "\n") ∧
    ∀ listing, (Validation.run scan sink).value.result = .ok (.accepted listing) →
      ∃ entries, TraceEntry.readAll? trace.toList = some entries ∧
        "\n".intercalate (entries.map TraceEntry.text) = Audit.artifactText sink text := by
  intro scan trace lines
  have hfree := lineFeed_not_mem_content text.toList
  have hread : TraceEntry.readAll? trace.toList = some (scan.content.map Token.entry) :=
    TraceEntry.readAll?_traceText hfree
  refine ⟨fun writer => ?_, hread, fun tokens => TraceEntry.entries_eq_of_traceText_eq hfree,
    fun other => TraceEntry.entries_eq_of_traceText_eq hfree (lineFeed_not_mem_content _), ?_,
    fun listing haccepted => ⟨_, hread, ?_⟩⟩
  · have hkept : (Validation.run scan ({ writer } : TraceWriter)).value.sink =
        (TraceWriter.put { writer } trace.toUTF8).value := by
      rw [sink_run_ofText, TraceWriter.recordAll_eq_put]
    dsimp only
    rw [hkept]
    exact ⟨fun hroom => TraceWriter.stopped_put_of_unlimited hroom _, TraceWriter.written_put⟩
  · have hlines : lines = scan.content.map Token.render := by
      show (Validation.run scan ({} : TraceLines)).value.sink.lines.toList = _
      rw [sink_run_ofText, lines_recordAll]
      rfl
    rw [hlines, List.map_map]
    rfl
  · rw [result_run_ofText, Except.ok.injEq] at haccepted
    have htexts : (scan.content.map Token.entry).map TraceEntry.text = listing.toList := by
      rw [List.map_map]
      exact texts_content_of_accepted haccepted
    rw [htexts, Audit.artifactText_eq, haccepted]
    rfl

end Scan

end TokenAudit
