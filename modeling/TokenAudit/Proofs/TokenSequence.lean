import TokenAudit.Proofs.LexemeFront
import TokenAudit.Proofs.Offsets
import TokenAudit.Proofs.Pulling
import TokenAudit.Scan

/-!
# The tokens of a text

A scan keeps byte offsets and looks positions up in a line table.  `tokensFrom` reads a text
without either: it carries the position along, skips a piece of trivia or takes a lexeme, and goes
on behind it.  The scan of a text hands out exactly these tokens and then the end of the stream
for ever.

`Scan.Reads` is the invariant of a scan that was not closed: the text behind it is what its cursor
has passed.
-/

namespace TokenAudit

/-- The tokens of a text whose first character stands at a position, without the end. -/
def tokensFrom (position : Position) (text : List Char) : List Token :=
  match _h : Trivia.item? text with
  | some (item, rest) => tokensFrom (position.after item) rest
  | none =>
    match text with
    | [] => []
    | c :: rest =>
      (Lexeme.ofFront c rest).1.token position ::
        tokensFrom (position.after (Lexeme.ofFront c rest).1.letters) (Lexeme.ofFront c rest).2
termination_by text.length
decreasing_by
  · exact Trivia.length_lt_of_item? _h
  · have hpos := List.length_pos_iff.2 (Lexeme.letters_ofFront_ne_nil c rest)
    have hlength := congrArg List.length (Lexeme.letters_append_ofFront c rest)
    rw [List.length_append] at hlength
    omega

@[simp] theorem tokensFrom_nil (p : Position) : tokensFrom p [] = [] := by
  unfold tokensFrom
  rfl

/-- Trivia in front only moves the position. -/
theorem tokensFrom_of_item? {p : Position} {text item rest : List Char}
    (h : Trivia.item? text = some (item, rest)) :
    tokensFrom p text = tokensFrom (p.after item) rest := by
  rw [tokensFrom]
  split
  · rename_i heq
    rw [h] at heq
    cases heq
    rfl
  · rename_i heq
    rw [h] at heq
    cases heq

/-- Where no trivia stands in front, the first token is that of the lexeme there. -/
theorem tokensFrom_of_front {p : Position} {c : Char} {rest : List Char}
    (h : Trivia.item? (c :: rest) = none) :
    tokensFrom p (c :: rest) =
      (Lexeme.ofFront c rest).1.token p ::
        tokensFrom (p.after (Lexeme.ofFront c rest).1.letters) (Lexeme.ofFront c rest).2 := by
  rw [tokensFrom]
  split
  · rename_i heq
    rw [h] at heq
    cases heq
  · rfl

theorem tokensFrom_split (p : Position) (text : List Char) :
    tokensFrom p text = tokensFrom (p.after (Trivia.split text).1) (Trivia.split text).2 := by
  fun_induction Trivia.split text generalizing p with
  | case1 text h => rfl
  | case2 text item rest h tail ih =>
      rw [tokensFrom_of_item? h, ih, Position.after_append]

theorem tokensFrom_of_first?_eq_none {p : Position} {text : List Char}
    (h : Cut.first? text = none) : tokensFrom p text = [] := by
  rw [tokensFrom_split]
  unfold Cut.first? at h
  split at h
  · rename_i heq
    rw [heq, tokensFrom_nil]
  · cases h

/-- The first cut of a text gives its first token. -/
theorem tokensFrom_of_first?_eq_some {p : Position} {text : List Char} {cut : Cut}
    (h : Cut.first? text = some cut) :
    tokensFrom p text =
      cut.lexeme.token (p.after cut.gap) ::
        tokensFrom (p.after (cut.gap ++ cut.lexeme.letters)) cut.rest := by
  have hnone := Trivia.item?_split text
  rw [tokensFrom_split]
  unfold Cut.first? at h
  split at h
  · cases h
  · rename_i gap c rest heq
    simp only [Option.some.injEq] at h
    subst h
    rw [heq] at hnone ⊢
    rw [tokensFrom_of_front hnone, Position.after_append]

/-- The token of a lexeme carries its letters as text, also where the kind has a fixed spelling.
An unclassified lexeme gives an error. -/
theorem Lexeme.token_ofFront (c : Char) (rest : List Char) (p : Position) :
    (ofFront c rest).1.token p =
      ⟨(ofFront c rest).1.kind?.getD .error, String.ofList (ofFront c rest).1.letters, p⟩ := by
  unfold Lexeme.token
  split
  · rename_i hkind
    rw [hkind]
    rfl
  · rename_i hkind
    rw [hkind]
    rfl
  · rename_i kind _ hkind
    rw [hkind, Option.getD_some, Kind.spelling?]
    cases hletters : kind.letters? with
    | none => rfl
    | some cs =>
        rw [letters?_ofFront hkind hletters]
        rfl

/-- The token of a lexeme is never the end of the stream. -/
theorem Lexeme.isEof_token_ofFront (c : Char) (rest : List Char) (p : Position) :
    ((ofFront c rest).1.token p).isEof = false := by
  have hne := kind?_ofFront_ne_eof c rest
  rw [token_ofFront]
  cases hkind : (ofFront c rest).1.kind? with
  | none => rfl
  | some kind =>
      rw [hkind] at hne
      simpa [Token.isEof, Kind.isEof] using hne

/-- No token of a text is the end of the stream. -/
theorem isEof_of_mem_tokensFrom {p : Position} {text : List Char} {t : Token}
    (h : t ∈ tokensFrom p text) : t.isEof = false := by
  fun_induction tokensFrom p text with
  | case1 p text item rest hitem ih => exact ih h
  | case2 p hitem => cases h
  | case3 p c rest hitem ih =>
      rcases List.mem_cons.1 h with rfl | h
      · exact Lexeme.isEof_token_ofFront c rest p
      · exact ih h

namespace Scan

/-- A scan that has read one piece of its text and has another piece ahead. -/
structure Reads (scan : Scan) (before ahead : List Char) : Prop where
  text_eq : scan.text = before ++ ahead
  table_eq : scan.table = LineTable.ofText scan.text
  cursor_eq : scan.cursor? = some ⟨Text.byteLength before, ahead⟩
  stop_eq : scan.stop = Position.start.after scan.text

theorem reads_ofText (text : List Char) : (ofText text).Reads [] text where
  text_eq := rfl
  table_eq := rfl
  cursor_eq := rfl
  stop_eq := by
    have h := LineTable.positionAt_ofText_append text []
    rwa [List.append_nil] at h

variable {scan : Scan} {before ahead : List Char}

theorem Reads.value_pull_of_none (h : scan.Reads before ahead) (hcut : Cut.first? ahead = none) :
    scan.pull.value = (.ok (.eof scan.stop), scan.atEnd) :=
  value_pull_of_ended h.cursor_eq (by simp [Cursor.next?, hcut])

/-- A pull that finds a lexeme hands out its token at the position reached by reading, and moves
the gap and the lexeme from the text ahead to the text read. -/
theorem Reads.value_pull_of_some (h : scan.Reads before ahead) {cut : Cut}
    (hcut : Cut.first? ahead = some cut) :
    ∃ next : Scan, scan.pull.value =
        (.ok (cut.lexeme.token ((Position.start.after before).after cut.gap)), next) ∧
      next.Reads (before ++ (cut.gap ++ cut.lexeme.letters)) cut.rest ∧
      next.stop = scan.stop := by
  have hahead := Cut.append_of_first? hcut
  have hnext : (⟨Text.byteLength before, ahead⟩ : Cursor).next? =
      some (⟨cut.lexeme, Text.byteLength before + Text.byteLength cut.gap⟩,
        ⟨Text.byteLength (before ++ (cut.gap ++ cut.lexeme.letters)), cut.rest⟩) := by
    simp [Cursor.next?, hcut, PlacedLexeme.stop, Nat.add_assoc]
  have hposition : scan.positionOf
      ⟨cut.lexeme, Text.byteLength before + Text.byteLength cut.gap⟩ =
        (Position.start.after before).after cut.gap := by
    have htext : scan.text = (before ++ cut.gap) ++ (cut.lexeme.letters ++ cut.rest) := by
      rw [h.text_eq, ← hahead, List.append_assoc]
    rw [positionOf, h.table_eq, htext, ← Text.byteLength_append,
      LineTable.positionAt_ofText_append, Position.after_append]
  let next : Scan := { scan with
    cursor? := some ⟨Text.byteLength (before ++ (cut.gap ++ cut.lexeme.letters)), cut.rest⟩
    position := (Position.start.after before).after cut.gap }
  have hpull : scan.pull.value =
      (.ok (cut.lexeme.token ((Position.start.after before).after cut.gap)), next) := by
    rw [value_pull_of_found h.cursor_eq hnext, hposition]
  have htext : next.text = before ++ (cut.gap ++ cut.lexeme.letters) ++ cut.rest := by
    rw [List.append_assoc, List.append_assoc, hahead]
    exact h.text_eq
  exact ⟨next, hpull, ⟨htext, h.table_eq, rfl, h.stop_eq⟩, rfl⟩

/-- Once exhausted, a scan answers the end for ever. -/
theorem handsOut_of_exhausted (hcursor : scan.cursor? = none) :
    TokenSource.HandsOut scan [] scan.stop := by
  intro n
  induction n generalizing scan with
  | zero =>
      show scan.pull.value.1 = _
      rw [value_pull_of_exhausted hcursor]
      rfl
  | succ n ih =>
      have hnext : TokenSource.next scan = scan.atEnd :=
        congrArg Prod.snd (value_pull_of_exhausted hcursor)
      rw [TokenSource.answerAt_succ, hnext, ih rfl]
      rfl

/-- A scan hands out the tokens of the text ahead and then the end for ever. -/
theorem Reads.handsOut (h : scan.Reads before ahead) :
    TokenSource.HandsOut scan (tokensFrom (Position.start.after before) ahead) scan.stop := by
  intro n
  -- The invariant moves along: what a pull takes from the text ahead is added to the text behind.
  induction n generalizing scan before ahead with
  | zero =>
      show scan.pull.value.1 = _
      cases hcut : Cut.first? ahead with
      | none => rw [h.value_pull_of_none hcut, tokensFrom_of_first?_eq_none hcut]; rfl
      | some cut =>
          obtain ⟨next, hpull, -, -⟩ := h.value_pull_of_some hcut
          rw [hpull, tokensFrom_of_first?_eq_some hcut]
          rfl
  | succ n ih =>
      rw [TokenSource.answerAt_succ]
      cases hcut : Cut.first? ahead with
      | none =>
          have hnext : TokenSource.next scan = scan.atEnd :=
            congrArg Prod.snd (h.value_pull_of_none hcut)
          rw [hnext, handsOut_of_exhausted rfl, tokensFrom_of_first?_eq_none hcut]
          rfl
      | some cut =>
          obtain ⟨next, hpull, hreads, hstop⟩ := h.value_pull_of_some hcut
          have hnext : TokenSource.next scan = next := congrArg Prod.snd hpull
          rw [hnext, ih hreads, tokensFrom_of_first?_eq_some hcut, hstop,
            Position.after_append, List.getElem?_cons_succ]

/-- The tokens of a scan are what it hands out, and the end. -/
theorem value_tokens_of_handsOut {tokens : List Token} {stop : Position}
    (h : TokenSource.HandsOut scan tokens stop) (htokens : ∀ t ∈ tokens, t.isEof = false) :
    scan.tokens.value = tokens ++ [.eof stop] := by
  have hall : Except.toOption ∘ (Except.ok : Token → Except Fault Token) = some := rfl
  rw [Scan.tokens, Logged.value_bind, FiniteSource.value_pullAll_of_handsOut h htokens,
    Logged.value_pure, List.filterMap_map, hall, List.filterMap_some]

theorem handsOut_ofText (text : List Char) :
    TokenSource.HandsOut (ofText text) (tokensFrom .start text) (Position.start.after text) := by
  have hreads := reads_ofText text
  have h := hreads.handsOut
  rwa [hreads.stop_eq] at h

/-- The tokens of a text and the end behind its last character. -/
theorem tokens_ofText (text : List Char) :
    (ofText text).tokens.value =
      tokensFrom .start text ++ [.eof (Position.start.after text)] :=
  value_tokens_of_handsOut (handsOut_ofText text) fun _ ht => isEof_of_mem_tokensFrom ht

end Scan

end TokenAudit
