import TokenAudit.Proofs.RunOutcome
import TokenAudit.Proofs.ScanStates
import TokenAudit.Proofs.ValidationLog

/-!
# Validating one source again and again

A validation that rejects leaves its source behind the error, and the next validation of that source
goes on there.  What a source still hands out is therefore cut into stretches, each the content in
front of an error and the error, and the content behind the last error.  `Resumes` says what a series
of validations makes of them, `resumes_of_handsOut` proves it from what one validation leaves behind,
and the main result is about scans in every state they can get into.
-/

namespace TokenAudit

/-- Content and the error behind it. -/
structure Stretch where
  content : List Token
  error : Token
  isContent_of_mem : ∀ t ∈ content, t.isContent = true
  isError_error : error.isError = true

/-- What a stream still holds before its end: stretches, and the content behind the last error. -/
structure Remainder where
  stretches : List Stretch
  last : List Token
  isContent_of_mem : ∀ t ∈ last, t.isContent = true

theorem isError_of_content {content : List Token} (h : ∀ t ∈ content, t.isContent = true) :
    ∀ t ∈ content, t.isError = false :=
  fun t ht => (Validation.isContent_iff.1 (h t ht)).1

theorem countP_isError_of_content {content : List Token} (h : ∀ t ∈ content, t.isContent = true) :
    content.countP Token.isError = 0 :=
  List.countP_eq_zero.2 fun t ht => by simp [isError_of_content h t ht]

theorem filter_of_content {content : List Token} (h : ∀ t ∈ content, t.isContent = true) :
    content.filter (fun t => !t.isError) = content :=
  List.filter_eq_self.2 fun t ht => by simp [isError_of_content h t ht]

/-- The tokens of a stretch. -/
def Stretch.tokens (stretch : Stretch) : List Token := stretch.content ++ [stretch.error]

theorem Stretch.countP_tokens (stretch : Stretch) : stretch.tokens.countP Token.isError = 1 := by
  have hcontent : stretch.content.countP Token.isError = 0 :=
    countP_isError_of_content stretch.isContent_of_mem
  rw [tokens, List.countP_append, hcontent, List.countP_singleton, stretch.isError_error]
  rfl

theorem Stretch.filter_tokens (stretch : Stretch) :
    stretch.tokens.filter (fun t => !t.isError) = stretch.content := by
  rw [tokens, List.filter_append, filter_of_content stretch.isContent_of_mem]
  simp [stretch.isError_error]

namespace Remainder

/-- The tokens of a remainder. -/
def tokens (left : Remainder) : List Token := left.stretches.flatMap Stretch.tokens ++ left.last

/-- Tokens before the end of a stream are stretches and then content. -/
theorem exists_tokens_eq {tokens : List Token} (h : ∀ t ∈ tokens, t.isEof = false) :
    ∃ left : Remainder, left.tokens = tokens := by
  induction hlength : tokens.length using Nat.strong_induction_on generalizing tokens with
  | _ length ih =>
      subst hlength
      rcases Validation.content_or_error h with
        hcontent | ⟨content, error, rest, rfl, hcontent, herror⟩
      · exact ⟨⟨[], tokens, hcontent⟩, rfl⟩
      · have hrest : ∀ t ∈ rest, t.isEof = false := fun t ht =>
          h t (List.mem_append_right _ (List.mem_cons_of_mem _ ht))
        have hless : rest.length < (content ++ error :: rest).length := by
          rw [List.length_append, List.length_cons]
          omega
        obtain ⟨left, rfl⟩ := ih _ hless hrest rfl
        refine ⟨{ left with stretches := ⟨content, error, hcontent, herror⟩ :: left.stretches }, ?_⟩
        simp [tokens, Stretch.tokens]

/-- There are as many errors as stretches. -/
theorem countP_tokens (left : Remainder) :
    left.tokens.countP Token.isError = left.stretches.length := by
  have hstretches : (left.stretches.flatMap Stretch.tokens).countP Token.isError =
      left.stretches.length := by
    rw [List.countP_flatMap, List.map_congr_left fun stretch _ => stretch.countP_tokens]
    simp
  rw [tokens, List.countP_append, hstretches, countP_isError_of_content left.isContent_of_mem,
    Nat.add_zero]

/-- The pieces of content in order: one a stretch, then the content behind the last error. -/
def pieces (left : Remainder) : List (List Token) :=
  left.stretches.map Stretch.content ++ [left.last]

theorem length_pieces (left : Remainder) : left.pieces.length = left.stretches.length + 1 := by
  simp [pieces]

/-- The tokens of a remainder that are no errors are those of its pieces. -/
theorem filter_tokens (left : Remainder) :
    left.tokens.filter (fun t => !t.isError) = left.pieces.flatten := by
  have hstretches : (left.stretches.flatMap Stretch.tokens).filter (fun t => !t.isError) =
      (left.stretches.map Stretch.content).flatten := by
    rw [List.filter_flatMap, List.flatMap_def]
    simp only [Stretch.filter_tokens]
  rw [tokens, List.filter_append, hstretches, filter_of_content left.isContent_of_mem, pieces,
    List.flatten_append, List.flatten_singleton]

/-- The piece with a number, and nothing behind the last one. -/
def piece (left : Remainder) (n : Nat) : List Token := left.pieces[n]?.getD []

theorem piece_of_lt {left : Remainder} {n : Nat} (h : n < left.stretches.length) :
    left.piece n = left.stretches[n].content := by
  simp [piece, pieces, List.getElem?_append_left, h]

theorem piece_length (left : Remainder) : left.piece left.stretches.length = left.last := by
  simp [piece, pieces]

theorem piece_of_gt {left : Remainder} {n : Nat} (h : left.stretches.length < n) :
    left.piece n = [] := by
  have hlength : left.pieces.length ≤ n := by rwa [length_pieces]
  rw [piece, List.getElem?_eq_none hlength]
  rfl

/-- Taking the pieces by their numbers. -/
theorem flatMap_piece (left : Remainder) (n : Nat) :
    (List.range n).flatMap left.piece = (left.pieces.take n).flatten := by
  induction n with
  | zero => rfl
  | succ n ih =>
      have hnext : left.piece n = left.pieces[n]?.toList.flatten := by
        rw [piece]
        cases left.pieces[n]? <;> simp
      rw [List.range_succ, List.flatMap_append, ih, List.flatMap_singleton, hnext, List.take_add_one,
        List.flatten_append]

/-- All pieces together are the tokens that are no errors, in order and once each. -/
theorem flatMap_piece_of_gt {left : Remainder} {n : Nat} (h : left.stretches.length < n) :
    (List.range n).flatMap left.piece = left.tokens.filter (fun t => !t.isError) := by
  have hall : left.pieces.length ≤ n := by rwa [length_pieces]
  rw [flatMap_piece, List.take_of_length_le hall, filter_tokens]

/-- What is left behind the first error, or behind everything. -/
def rest (left : Remainder) : Remainder where
  stretches := left.stretches.tail
  last := if left.stretches.isEmpty then [] else left.last
  isContent_of_mem t ht := by
    split at ht
    · cases ht
    · exact left.isContent_of_mem t ht

theorem piece_rest (left : Remainder) (n : Nat) : left.rest.piece n = left.piece (n + 1) := by
  cases hstretches : left.stretches with
  | nil => cases n <;> simp [piece, pieces, rest, hstretches]
  | cons stretch stretches => simp [piece, pieces, rest, hstretches]

end Remainder

namespace Validation

open TokenSource

/-- One source validated again and again, every time with another sink: how the validation with a
number ends, counted from zero. -/
def series {σ κ : Type} [FiniteSource σ] [TokenSink κ] (s : σ) (sinks : Nat → κ) :
    Nat → Finished σ κ
  | 0 => (run s (sinks 0)).value
  | n + 1 => (run (series s sinks n).source (sinks (n + 1))).value

variable {σ κ : Type} [FiniteSource σ] [TokenSink κ]

/-- Behind its first validation, a series is that of the source left there. -/
theorem series_succ (s : σ) (sinks : Nat → κ) (n : Nat) :
    series s sinks (n + 1) =
      series (run s (sinks 0)).value.source (fun i => sinks (i + 1)) n := by
  induction n with
  | zero => rfl
  | succ n ih => rw [series, ih, series]

/-- A validation with a number keeps to a remainder: an error rejects it, and otherwise it accepts
the piece of content with its number, which it has recorded in any case. -/
structure KeepsTo (left : Remainder) (n : Nat) (sink : κ) (finished : Finished σ κ) : Prop where
  result_eq : finished.result = if n < left.stretches.length then .ok .rejected
    else .ok (.accepted (.ofList ((left.piece n).map Token.text)))
  sink_eq : finished.sink = (TokenSink.recordAll sink (left.piece n)).value

/-- One validation takes up the first piece and leaves the rest in the source. -/
theorem keepsTo_run {s : σ} {left : Remainder} {stop : Position}
    (h : HandsOut s left.tokens stop) (sink : κ) :
    KeepsTo left 0 sink (run s sink).value ∧
      HandsOut (run s sink).value.source left.rest.tokens stop := by
  obtain ⟨stretches, last, hlast⟩ := left
  cases stretches with
  | nil =>
      have hlast' : HandsOut s last stop := h
      have hrun := value_run_of_content hlast' hlast sink
      have hsource := hlast'.stateAfter (last.length + 2)
      rw [List.drop_eq_nil_of_le (by omega)] at hsource
      rw [hrun]
      exact ⟨⟨rfl, rfl⟩, hsource⟩
  | cons stretch stretches =>
      have htokens : HandsOut s
          (stretch.content ++ stretch.error :: (stretches.flatMap Stretch.tokens ++ last)) stop := by
        simpa [Remainder.tokens, Stretch.tokens] using h
      have hrun := value_run_of_error htokens stretch.isContent_of_mem stretch.isError_error sink
      have hsource := htokens.stateAfter (stretch.content.length + 1)
      rw [List.drop_append, List.drop_eq_nil_of_le (Nat.le_succ _), List.nil_append,
        Nat.add_sub_cancel_left, List.drop_one, List.tail_cons] at hsource
      rw [hrun]
      exact ⟨⟨rfl, rfl⟩, hsource⟩

/-- Every validation in a series keeps to what the source held at first. -/
theorem keepsTo_series {s : σ} {left : Remainder} {stop : Position}
    (h : HandsOut s left.tokens stop) (sinks : Nat → κ) (n : Nat) :
    KeepsTo left n (sinks n) (series s sinks n) := by
  -- The induction is on the validations made before, and the remainder shrinks by a piece with each.
  induction n generalizing s left sinks with
  | zero => exact (keepsTo_run h (sinks 0)).1
  | succ n ih =>
      obtain ⟨hresult, hsink⟩ := ih (keepsTo_run h (sinks 0)).2 (fun i => sinks (i + 1))
      rw [series_succ]
      refine ⟨?_, ?_⟩
      · have hless : n < left.rest.stretches.length ↔ n + 1 < left.stretches.length := by
          rw [Remainder.rest, List.length_tail]
          omega
        rw [hresult, left.piece_rest]
        simp only [hless]
      · rw [hsink, left.piece_rest]

/-- A series of validations takes up one stretch after the other: every error rejects once, then the
content behind the last error is accepted, and from then on nothing is left.  Each validation records
the content it has read. -/
structure Resumes (s : σ) (sinks : Nat → κ) (left : Remainder) : Prop where
  rejected : ∀ n, (h : n < left.stretches.length) →
    (series s sinks n).result = .ok .rejected ∧
    (series s sinks n).sink = (TokenSink.recordAll (sinks n) left.stretches[n].content).value
  accepted :
    (series s sinks left.stretches.length).result =
      .ok (.accepted (.ofList (left.last.map Token.text))) ∧
    (series s sinks left.stretches.length).sink =
      (TokenSink.recordAll (sinks left.stretches.length) left.last).value
  exhausted : ∀ n, left.stretches.length < n →
    (series s sinks n).result = .ok (.accepted .empty) ∧ (series s sinks n).sink = sinks n

theorem resumes_of_handsOut {s : σ} {left : Remainder} {stop : Position}
    (h : HandsOut s left.tokens stop) (sinks : Nat → κ) : Resumes s sinks left where
  rejected n hn := by
    obtain ⟨hresult, hsink⟩ := keepsTo_series h sinks n
    rw [if_pos hn] at hresult
    rw [Remainder.piece_of_lt hn] at hsink
    exact ⟨hresult, hsink⟩
  accepted := by
    obtain ⟨hresult, hsink⟩ := keepsTo_series h sinks left.stretches.length
    rw [if_neg (Nat.lt_irrefl _), left.piece_length] at hresult
    rw [left.piece_length] at hsink
    exact ⟨hresult, hsink⟩
  exhausted n hn := by
    obtain ⟨hresult, hsink⟩ := keepsTo_series h sinks n
    rw [if_neg (Nat.not_lt_of_gt hn), Remainder.piece_of_gt hn] at hresult
    rw [Remainder.piece_of_gt hn] at hsink
    exact ⟨hresult, hsink⟩

/-- The traces of a series that is long enough are the lines of all tokens that are no errors. -/
theorem lines_series {s : σ} {left : Remainder} {stop : Position}
    (h : HandsOut s left.tokens stop) {n : Nat} (hn : left.stretches.length < n) :
    (List.range n).flatMap (fun i => (series s (fun _ => ({} : TraceLines)) i).sink.lines.toList) =
      (left.tokens.filter fun t => !t.isError).map Token.render := by
  have hline : ∀ i, (series s (fun _ => ({} : TraceLines)) i).sink.lines.toList =
      (left.piece i).map Token.render := by
    intro i
    rw [(keepsTo_series h _ i).sink_eq, lines_recordAll]
    rfl
  simp only [hline]
  rw [← Remainder.flatMap_piece_of_gt hn, List.map_flatMap]

end Validation

namespace Scan

open TokenSource Validation

variable {κ : Type} [TokenSink κ] {scan : Scan} {tokens : List Token} {stop : Position}

theorem trailingContent_not_mem_events_pull (scan : Scan) (t : Token) :
    .streamRejected .trailingContent t ∉ (TokenSource.pull scan).events := by
  intro hmem
  rcases mem_events_pull hmem with ⟨u, hu⟩ | ⟨stop, hstop⟩
  · cases hu
  · cases hstop

/-- While content is recorded, only the sink can tell of trailing content. -/
theorem trailingContent_of_mem_contentEvents {sink : κ} {content : List Token} {t : Token}
    (h : .streamRejected .trailingContent t ∈ contentEvents scan sink content) :
    ∃ (kept : κ) (u : Token),
      .streamRejected .trailingContent t ∈ (TokenSink.record kept u).events := by
  rcases mem_contentEvents h with ⟨n, hn⟩ | ⟨u, hu⟩ | ⟨u, hu⟩ | hrecord
  · exact absurd hn (trailingContent_not_mem_events_pull _ t)
  · cases hu
  · cases hu
  · exact hrecord

/-- Behind the tokens of a scan stands the end, and behind an error nothing is looked at, so no scan
is decided with trailing content. -/
theorem trailingContent_not_mem_endingEvents (h : HandsOut scan tokens stop) {n : Nat}
    (hborder : ∀ t ∈ tokens[n]?, t.isError = true) (listing : Listing) (t : Token) :
    .streamRejected .trailingContent t ∉ endingEvents (stateAfter n scan) listing := by
  intro hmem
  have hfirst := h n
  rcases trailingContent_of_mem_endingEvents hmem with ⟨m, hm⟩ | ⟨u, hu, herror, ht, heof⟩
  · exact absurd hm (trailingContent_not_mem_events_pull _ t)
  · rw [show answerAt n scan = .ok u from hu] at hfirst
    cases hat : tokens[n]? with
    | some error =>
        rw [hat, Option.getD_some] at hfirst
        cases hfirst
        rw [hborder _ hat] at herror
        cases herror
    | none =>
        have hbehind := h (n + 1)
        rw [List.getElem?_eq_none (Nat.le_succ_of_le (List.getElem?_eq_none_iff.1 hat)),
          ← answerAt_stateAfter] at hbehind
        cases ht.symm.trans hbehind
        cases heof

/-- Validating a scan never tells of content behind the end, unless a sink does so by itself. -/
theorem trailingContent_of_mem_events (h : HandsOut scan tokens stop)
    (htokens : ∀ t ∈ tokens, t.isEof = false) {sink : κ} {t : Token}
    (hevent : .streamRejected .trailingContent t ∈ (run scan sink).events) :
    ∃ (kept : κ) (u : Token),
      .streamRejected .trailingContent t ∈ (TokenSink.record kept u).events := by
  rcases content_or_error htokens with hall | ⟨content, error, rest, rfl, hall, herror⟩
  · have hborder : ∀ t ∈ tokens[tokens.length]?, t.isError = true := by simp
    rw [events_run_of_delivers h.delivers hall (ending_of_content h _), List.mem_append] at hevent
    rcases hevent with hcontent | hending
    · exact trailingContent_of_mem_contentEvents hcontent
    · exact absurd hending (trailingContent_not_mem_endingEvents h hborder _ t)
  · have hborder : ∀ t ∈ (content ++ error :: rest)[content.length]?, t.isError = true := by
      simpa using herror
    rw [events_run_of_delivers h.delivers.of_append hall (ending_of_error h herror _),
      List.mem_append] at hevent
    rcases hevent with hcontent | hending
    · exact trailingContent_of_mem_contentEvents hcontent
    · exact absurd hending (trailingContent_not_mem_endingEvents h hborder _ t)

/-- A validation of a scan comes to a verdict, and to a rejection if an error is left. -/
theorem result_run_of_handsOut (h : HandsOut scan tokens stop)
    (htokens : ∀ t ∈ tokens, t.isEof = false) (sink : κ) :
    (∃ verdict, (run scan sink).value.result = .ok verdict) ∧
      ((run scan sink).value.result = .ok .rejected ↔ ∃ t ∈ tokens, t.isError = true) := by
  obtain ⟨left, rfl⟩ := Remainder.exists_tokens_eq htokens
  have hresult := (keepsTo_run h sink).1.result_eq
  have herrors : 0 < left.stretches.length ↔ ∃ t ∈ left.tokens, t.isError = true := by
    rw [← left.countP_tokens, List.countP_pos_iff]
  by_cases hsome : 0 < left.stretches.length
  · rw [if_pos hsome] at hresult
    exact ⟨⟨_, hresult⟩, fun _ => herrors.1 hsome, fun _ => hresult⟩
  · rw [if_neg hsome] at hresult
    refine ⟨⟨_, hresult⟩, fun hrejected => ?_, fun hexists => absurd (herrors.2 hexists) hsome⟩
    rw [hrejected] at hresult
    cases hresult

/-- A scan that has been pulled and closed in any way still holds some remainder before the end of
its text.  Validating it again and again rejects once for every error left, each time with the
content in front of that error recorded, then accepts the content behind the last error, and then
accepts nothing for ever; the traces together are the lines of all tokens left that are no errors.
No validation ends in a fault or in a rejection for trailing content: it rejects exactly if an error
is left. -/
theorem series_resumes_behind_errors (text : List Char) (calls : List Call) (sinks : Nat → κ)
    (sink : κ) :
    let scan := afterCalls (ofText text) calls
    ∃ left : Remainder,
      scan.tokens.value = left.tokens ++ [.eof (Position.start.after text)] ∧
      left.stretches.length = left.tokens.countP Token.isError ∧
      Resumes scan sinks left ∧
      (∀ n, left.stretches.length < n →
        (List.range n).flatMap
            (fun i => (series scan (fun _ => ({} : TraceLines)) i).sink.lines.toList) =
          (left.tokens.filter fun t => !t.isError).map Token.render) ∧
      (∃ verdict, (run scan sink).value.result = .ok verdict) ∧
      ((run scan sink).value.result = .ok .rejected ↔ ∃ t ∈ left.tokens, t.isError = true) ∧
      ∀ t, .streamRejected .trailingContent t ∈ (run scan sink).events →
        ∃ (kept : κ) (u : Token),
          .streamRejected .trailingContent t ∈ (TokenSink.record kept u).events := by
  intro scan
  obtain ⟨tokens, htokens, h⟩ := (standsIn_afterCalls text calls).exists_handsOut
  obtain ⟨left, rfl⟩ := Remainder.exists_tokens_eq htokens
  obtain ⟨hverdict, hrejected⟩ := result_run_of_handsOut h htokens sink
  exact ⟨left, value_tokens_of_handsOut h htokens, left.countP_tokens.symm,
    resumes_of_handsOut h sinks, fun n hn => lines_series h hn, hverdict, hrejected,
    fun t ht => trailingContent_of_mem_events h htokens ht⟩

end Scan

end TokenAudit
