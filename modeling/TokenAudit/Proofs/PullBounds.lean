import TokenAudit.Proofs.Decisions
import TokenAudit.Proofs.RunOutcome
import TokenAudit.Proofs.Sessions

/-!
# How many pulls are enough

A pull of a scan skips trivia piece by piece and then takes at least one character, or none is left
(`Scan.exists_advances`).  So every token before the end leaves fewer characters ahead, and the
characters ahead bound the tokens still to come.  A validation pulls at most twice more: the end of
the stream, and the answer behind it (`Validation.exists_endsAfter`).

The bounds are met by runs of operators, for scans and for scripts.
-/

namespace TokenAudit

/-! ### Skipping trivia -/

namespace Trivia

/-- Skipping takes one piece of trivia after the other off the front of a text, and stops where none
is in front. -/
inductive Skips : List Char → List (List Char) → List Char → Prop
  | done {front : List Char} : item? front = none → Skips front [] front
  | skip {text item rest front : List Char} {items : List (List Char)} :
      item? text = some (item, rest) → Skips rest items front → Skips text (item :: items) front

/-- Skipping comes to an end, in front of any text. -/
theorem exists_skips (text : List Char) : ∃ items, Skips text items (split text).2 := by
  fun_induction split text with
  | case1 text h => exact ⟨[], .done h⟩
  | case2 text item rest h tail ih =>
      obtain ⟨items, hskips⟩ := ih
      exact ⟨item :: items, .skip h hskips⟩

/-- Every piece that is skipped takes a character at least. -/
theorem Skips.length_le {text front : List Char} {items : List (List Char)}
    (h : Skips text items front) : items.length + front.length ≤ text.length := by
  induction h with
  | done _ => exact Nat.le_of_eq (Nat.zero_add _)
  | skip hitem _ ih =>
      have hless := length_lt_of_item? hitem
      rw [List.length_cons]
      omega

end Trivia

/-! ### One pull of a scan -/

namespace Scan

open TokenSource

/-- What a pull makes of the characters ahead.  It skips these pieces of trivia and answers this
token, whose text it takes off the front of what is left.  The text is empty for the end alone, and
behind the end nothing is ahead. -/
structure Advances (scan : Scan) (items : List (List Char)) (t : Token) : Prop where
  answer_eq : answer scan = .ok t
  skips : Trivia.Skips scan.ahead items (t.text.toList ++ (next scan).ahead)
  isEof_iff : t.isEof = true ↔ t.text.toList = []
  ahead_of_isEof : t.isEof = true → (next scan).ahead = []

/-- A pull takes no more steps and characters than there are characters ahead. -/
theorem Advances.length_le {scan : Scan} {items : List (List Char)} {t : Token}
    (h : scan.Advances items t) : items.length + t.text.length ≤ scan.ahead.length := by
  have hle := h.skips.length_le
  rw [List.length_append, String.length_toList] at hle
  omega

/-- A pull that finds nothing behind the trivia answers the end. -/
theorem advances_of_ended {scan : Scan} {items : List (List Char)}
    (hskips : Trivia.Skips scan.ahead items [])
    (hpull : scan.pull.value = (.ok (.eof scan.stop), scan.atEnd)) :
    scan.Advances items (.eof scan.stop) := by
  have hnext : (next scan).ahead = [] := congrArg (ahead ∘ Prod.snd) hpull
  refine ⟨congrArg Prod.fst hpull, ?_, iff_of_true rfl rfl, fun _ => hnext⟩
  rw [hnext]
  exact hskips

theorem ahead_of_cursor {scan : Scan} {cursor : Cursor} (h : scan.cursor? = some cursor) :
    scan.ahead = cursor.ahead := by
  rw [ahead, h]

/-- A pull that finds a lexeme behind the trivia takes its letters. -/
theorem advances_of_found {scan : Scan} {cursor : Cursor} (hcursor : scan.cursor? = some cursor)
    {cut : Cut} (hcut : Cut.first? scan.ahead = some cut) {items : List (List Char)}
    (hskips : Trivia.Skips scan.ahead items (Trivia.split scan.ahead).2) :
    ∃ t, scan.Advances items t := by
  obtain ⟨c, tail, hsplit, hfront⟩ := Cut.split_of_first?_eq_some hcut
  rw [ahead_of_cursor hcursor] at hcut
  have hpull := value_pull_of_found hcursor
    (show cursor.next? = some _ by rw [Cursor.next?, hcut, Option.map_some])
  have hnext : (next scan).ahead = cut.rest := congrArg (ahead ∘ Prod.snd) hpull
  have hletters := Lexeme.letters_append_ofFront c tail
  have hne := Lexeme.letters_ofFront_ne_nil c tail
  have htoken := Lexeme.token_ofFront c tail
  have hopen := Lexeme.isEof_token_ofFront c tail
  rw [hfront] at hletters hne htoken hopen
  have htext (p : Position) : (cut.lexeme.token p).text.toList = cut.lexeme.letters := by
    rw [htoken, String.toList_ofList]
  refine ⟨_, congrArg Prod.fst hpull, ?_, ?_, fun h => ?_⟩
  · rw [hnext, htext, hletters]
    rwa [hsplit] at hskips
  · rw [hopen, htext]
    exact iff_of_false Bool.false_ne_true hne
  · rw [hopen] at h
    cases h

/-- In every state, a pull advances. -/
theorem exists_advances (scan : Scan) : ∃ items t, scan.Advances items t := by
  obtain ⟨items, hskips⟩ := Trivia.exists_skips scan.ahead
  cases hcursor : scan.cursor? with
  | none =>
      have hahead : scan.ahead = [] := by rw [ahead, hcursor]
      refine ⟨[], _, advances_of_ended ?_ (value_pull_of_exhausted hcursor)⟩
      rw [hahead]
      exact .done rfl
  | some cursor =>
      cases hcut : Cut.first? scan.ahead with
      | none =>
          rw [Cut.split_of_first?_eq_none hcut] at hskips
          rw [ahead_of_cursor hcursor] at hcut
          have hended := value_pull_of_ended hcursor (by rw [Cursor.next?, hcut, Option.map_none])
          exact ⟨items, _, advances_of_ended hskips hended⟩
      | some cut => exact ⟨items, advances_of_found hcursor hcut hskips⟩

/-! ### The pulls up to the end -/

variable {text : List Char} {scan : Scan}

/-- What is ahead is the end of the text. -/
theorem StandsIn.exists_append_ahead (h : scan.StandsIn text) :
    ∃ before, text = before ++ scan.ahead := by
  cases h with
  | @reading before ahead hreads htext =>
      refine ⟨before, ?_⟩
      rw [← htext, hreads.text_eq, Scan.ahead, hreads.cursor_eq]
  | exhausted hcursor _ =>
      refine ⟨text, ?_⟩
      rw [Scan.ahead, hcursor, List.append_nil]

/-- Nothing is ahead of a scan that is exhausted or was closed. -/
theorem ahead_afterCalls_eq_nil {calls : List Call}
    (h : Call.close ∈ calls ∨ (afterCalls scan calls).isExhausted = true) :
    (afterCalls scan calls).ahead = [] := by
  obtain ⟨pulled, -, hexhausted, -⟩ := exists_pulled scan calls
  have hnone : (afterCalls scan calls).isExhausted = true :=
    h.elim (fun hclosed => hexhausted.2 (.inr (.inl hclosed))) id
  rw [ahead, Option.isNone_iff_eq_none.1 hnone]

/-- A scan answers the end after no more tokens than there are characters ahead, and from then on
for ever. -/
theorem StandsIn.exists_first_end (h : scan.StandsIn text) :
    ∃ n ≤ scan.ahead.length, (∀ m < n, ∃ t, answerAt m scan = .ok t ∧ t.isEof = false) ∧
      ∀ m, n ≤ m → answerAt m scan = .ok (.eof (Position.start.after text)) := by
  obtain ⟨tokens, hopen, hands⟩ := h.exists_handsOut
  have hbound := FiniteSource.length_add_remaining_le hands.delivers hopen
  refine ⟨tokens.length, (Nat.le_add_right _ _).trans hbound, fun m hm => ?_, fun m hm => ?_⟩
  · exact ⟨_, hands.delivers m hm, hopen _ (List.getElem_mem hm)⟩
  · rw [hands, List.getElem?_eq_none hm, Option.getD_none]

end Scan

/-! ### The pulls of a validation -/

/-- Every plus sign of a run of them is a token. -/
theorem tokensFrom_pluses (n : Nat) (p : Position) :
    (tokensFrom p (List.replicate n '+')).length = n ∧
      ∀ t ∈ tokensFrom p (List.replicate n '+'), t.isContent = true := by
  induction n generalizing p with
  | zero => simp
  | succ n ih =>
      have hfront : Trivia.item? ('+' :: List.replicate n '+') = none :=
        Trivia.item?_of_ne_slash (by decide) _
      have hlexeme : Lexeme.ofFront '+' (List.replicate n '+') =
          (⟨some .plus, ['+']⟩, List.replicate n '+') :=
        Lexeme.ofFront_single (by decide) (by decide) (by decide) (by simp) (by simp)
      rw [List.replicate_succ, tokensFrom_of_front hfront, hlexeme, List.length_cons,
        List.forall_mem_cons]
      obtain ⟨hlength, hcontent⟩ := ih (p.after ['+'])
      exact ⟨congrArg (· + 1) hlength, rfl, hcontent⟩

namespace Validation

open TokenSource

section

variable {σ κ : Type} [FiniteSource σ] [TokenSink κ] {s : σ} {sink : κ}

/-- The validation of a source takes exactly so many pulls, by `run` as with every limit that is
high enough. -/
def EndsAfter (s : σ) (sink : κ) (pulls : Nat) : Prop :=
  ∃ turns result recorded, Ends s sink turns result pulls recorded ∧
    (run s sink).value = ⟨result, stateAfter pulls s, recorded⟩

/-- Content that ends is validated with as many pulls, and those of the ending. -/
theorem endsAfter_of_delivers (sink : κ) {content : List Token} (hdelivers : Delivers s content)
    (hcontent : ∀ t ∈ content, t.isContent = true) {result : Except Fault Verdict} {pulls : Nat}
    (hending : Ending (stateAfter content.length s) (.ofList (content.map Token.text)) result
      pulls) : EndsAfter s sink (content.length + pulls) :=
  ⟨_, _, _, ends_of_delivers sink hdelivers hcontent hending,
    value_run_of_delivers hdelivers hcontent hending⟩

/-- A validation of a finite source pulls twice more than the bound of the source at most. -/
theorem exists_endsAfter (s : σ) (sink : κ) :
    ∃ pulls ≤ FiniteSource.remaining s + 2, EndsAfter s sink pulls := by
  obtain ⟨content, hstops⟩ := exists_stopsBehind s
  have hbound := length_le_remaining hstops.delivers hstops.isContent_of_mem
  exact ⟨_, Nat.add_le_add hbound hstops.ending.pulls_le,
    endsAfter_of_delivers sink hstops.delivers hstops.isContent_of_mem hstops.ending⟩

end

variable {κ : Type} [TokenSink κ]

/-- A script of content that does not fault is validated with two pulls behind its tokens. -/
theorem endsAfter_of_content {tokens : List Token} (sink : κ)
    (hcontent : ∀ t ∈ tokens, t.isContent = true) :
    EndsAfter (Script.ofTokens tokens none) sink (tokens.length + 2) := by
  have hlate : ∀ (pull : Nat) (message : String), none = some (pull, message) →
      tokens.length < pull := fun _ _ h => nomatch h
  have hdelivers := Script.delivers_take tokens fun pull message h => (hlate pull message h).le
  rw [List.take_length] at hdelivers
  obtain ⟨position, hend⟩ := Script.answerAt_of_no_fault tokens hlate
  rw [List.getElem?_eq_none (Nat.le_refl _), Option.getD_none] at hend
  exact endsAfter_of_delivers sink hdelivers hcontent
    (.behindEnd (t := .eof position) (by rwa [answerAt_stateAfter]) rfl)

/-- Consumption ends, within bounds that cannot be smaller.  In every state that pulls and closes
lead a scan to, an end of its text is ahead, and nothing once the scan is exhausted or was closed.
A pull skips trivia in finitely many steps and takes what it answers from behind it.  The end comes
after no more tokens than there are characters ahead, and a validation takes at most two pulls more
than there are such characters.  The validation of a script, in whatever state and wherever it
faults, takes at most two pulls more than there are tokens left. -/
theorem consumption_ends_within_bounds :
    (∀ (text : List Char) (calls : List Call),
      let scan := afterCalls (Scan.ofText text) calls
      (∃ before, text = before ++ scan.ahead) ∧
      (.close ∈ calls ∨ scan.isExhausted = true → scan.ahead = []) ∧
      (∃ items t, scan.Advances items t ∧ items.length + t.text.length ≤ scan.ahead.length) ∧
      (∃ n ≤ scan.ahead.length, (∀ m < n, ∃ t, answerAt m scan = .ok t ∧ t.isEof = false) ∧
        ∀ m, n ≤ m → answerAt m scan = .ok (.eof (Position.start.after text))) ∧
      ∀ (κ : Type) [TokenSink κ] (sink : κ),
        ∃ pulls ≤ scan.ahead.length + 2, EndsAfter scan sink pulls) ∧
    (∀ (script : Script) (κ : Type) [TokenSink κ] (sink : κ),
      ∃ pulls ≤ script.tokens.length + 2, EndsAfter script sink pulls) ∧
    ∀ n : Nat, ∃ (scan : Scan) (script : Script),
      (∃ text, scan = .ofText text) ∧ (∃ tokens, script = .ofTokens tokens none) ∧
      scan.ahead.length = n ∧ script.tokens.length = n ∧
      (∀ m < n, ∃ t, answerAt m scan = .ok t ∧ t.isEof = false) ∧
      ∀ (κ : Type) [TokenSink κ] (sink : κ),
        EndsAfter scan sink (n + 2) ∧ EndsAfter script sink (n + 2) := by
  refine ⟨fun text calls => ?_, fun script κ _ sink => exists_endsAfter script sink, fun n => ?_⟩
  · have hstands := Scan.standsIn_afterCalls text calls
    obtain ⟨items, t, hadvances⟩ := Scan.exists_advances (afterCalls (Scan.ofText text) calls)
    exact ⟨hstands.exists_append_ahead, Scan.ahead_afterCalls_eq_nil,
      ⟨items, t, hadvances, hadvances.length_le⟩, hstands.exists_first_end,
      fun κ _ sink => exists_endsAfter (afterCalls (Scan.ofText text) calls) sink⟩
  · -- A run of plus signs is all tokens, and so is a script of these tokens.
    obtain ⟨hlength, hcontent⟩ := tokensFrom_pluses n .start
    have hands := Scan.handsOut_ofText (List.replicate n '+')
    generalize tokensFrom .start (List.replicate n '+') = tokens at hlength hcontent hands
    refine ⟨.ofText (List.replicate n '+'), .ofTokens tokens none, ⟨_, rfl⟩, ⟨_, rfl⟩,
      List.length_replicate, hlength, fun m hm => ?_, fun κ _ sink => ?_⟩
    · rw [← hlength] at hm
      exact ⟨_, hands.delivers m hm, (isContent_iff.1 (hcontent _ (List.getElem_mem hm))).2⟩
    · have hscan := endsAfter_of_delivers sink hands.delivers hcontent (ending_of_content hands _)
      have hscript := endsAfter_of_content sink hcontent
      rw [hlength] at hscan hscript
      exact ⟨hscan, hscript⟩

end Validation

end TokenAudit
