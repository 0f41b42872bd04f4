import TokenAudit.Proofs.ScriptAccounting
import TokenAudit.Proofs.Watching

/-!
# The outcome of a validation

A validation is fixed by the first answer of its source that is not content and, if that is the end
of the stream, by the answer behind it.  They fix the result, the number of pulls, the state in
which the source is left and what the sink has received.

For a script this can be read off its tokens and the pull that faults: `Script.forecast`.
-/

namespace TokenAudit

namespace Validation

open TokenSource

/-- A validation of a source from an empty listing is decided with every limit above so many turns
and with no smaller one.  It leaves this result and this sink behind, and has done nothing to the
source but pull so many times. -/
structure Ends {σ κ : Type} [TokenSource σ] [TokenSink κ] (s : σ) (sink : κ) (turns : Nat)
    (result : Except Fault Verdict) (pulls : Nat) (recorded : κ) : Prop where
  run : ∀ limit, (runWithin limit ⟨s, sink, .empty⟩).map Logged.value =
    if turns < limit then some ⟨result, stateAfter pulls s, recorded⟩ else none
  count : ∀ limit, (runWithin limit ⟨(⟨s, 0⟩ : Counted σ), sink, .empty⟩).map Logged.value =
    if turns < limit then some ⟨result, ⟨stateAfter pulls s, pulls⟩, recorded⟩ else none

/-- Counting the pulls of a source does not change how its stream is decided. -/
theorem Ending.counted {σ : Type} [TokenSource σ] {s : σ} {listing : Listing}
    {result : Except Fault Verdict} {pulls : Nat} (h : Ending s listing result pulls) (n : Nat) :
    Ending (⟨s, n⟩ : Counted σ) listing result pulls :=
  h.of_alike fun k => .of_eq (Counted.answerAt_eq k (⟨s, n⟩ : Counted σ)).symm

/-- A source that delivers content and then ends is validated to that ending. -/
theorem ends_of_delivers {σ κ : Type} [TokenSource σ] [TokenSink κ] {s : σ} (sink : κ)
    {tokens : List Token} (hdelivers : Delivers s tokens)
    (hcontent : ∀ t ∈ tokens, t.isContent = true) {result : Except Fault Verdict} {pulls : Nat}
    (hending : Ending (stateAfter tokens.length s) (.ofList (tokens.map Token.text)) result pulls) :
    Ends s sink tokens.length result (tokens.length + pulls)
      (TokenSink.recordAll sink tokens).value := by
  rw [← listAll_empty] at hending
  refine ⟨runWithin_of_delivers hdelivers hcontent hending, fun limit => ?_⟩
  -- A counted source answers as the source does, so the same run counts the pulls.
  have hcounted : Delivers (⟨s, 0⟩ : Counted σ) tokens := fun i hi => by
    rw [Counted.answerAt_eq]
    exact hdelivers i hi
  have hend : Ending (stateAfter tokens.length (⟨s, 0⟩ : Counted σ)) (listAll .empty tokens)
      result pulls := by
    rw [Counted.stateAfter_eq]
    exact hending.counted _
  rw [runWithin_of_delivers hcounted hcontent hend, Counted.stateAfter_eq, Nat.zero_add]

end Validation

namespace Script

/-- The content that a script begins with. -/
def contentOf (tokens : List Token) : List Token := tokens.takeWhile Token.isContent

/-- What a validation of a script comes to. -/
structure Forecast where
  result : Except Fault Verdict
  pulls : Nat
  /-- The number of tokens left in the script. -/
  remaining : Nat
  recorded : List Token

/-- What a validation of a fresh script comes to, read off the script: a fault before or at the
first token that is not content, an error there, a fault on the pull behind the end of the stream,
or what stands behind that end.  The end of the script counts as the end of the stream. -/
def forecast (tokens : List Token) (fault? : Option (Nat × String)) : Forecast :=
  let content := contentOf tokens
  let border := content.length
  match fault?.filter fun fault => fault.1 ≤ border with
  | some (pull, message) =>
    ⟨.error (.injected message), pull + 1, tokens.length - pull, tokens.take pull⟩
  | none =>
    if (tokens[border]?).any Token.isError then
      ⟨.ok .rejected, border + 1, tokens.length - (border + 1), content⟩
    else match fault?.filter fun fault => fault.1 = border + 1 with
      | some (_, message) =>
        ⟨.error (.injected message), border + 2, tokens.length - (border + 1), content⟩
      | none =>
        ⟨.ok (if (tokens[border + 1]?).all Token.isEof then
            .accepted (.ofList (content.map Token.text))
          else .rejected), border + 2, tokens.length - (border + 2), content⟩

variable {κ : Type} [TokenSink κ] {tokens : List Token} {fault? : Option (Nat × String)}

/-- The validation of a fresh script, which it leaves open, keeps to a forecast. -/
def Meets (tokens : List Token) (fault? : Option (Nat × String)) (sink : κ)
    (foreseen : Forecast) : Prop :=
  ∃ source : Script, (Validation.run (ofTokens tokens fault?) sink).value =
      ⟨foreseen.result, source, (TokenSink.recordAll sink foreseen.recorded).value⟩ ∧
    source.pulls = foreseen.pulls ∧ source.tokens.length = foreseen.remaining ∧
    source.closed = false

/-- A validation of a script that reads some content and then ends, with the accounts of the
script. -/
theorem meets_of_ending (sink : κ) {read : List Token} {result : Except Fault Verdict}
    {pulls : Nat} (hdelivers : TokenSource.Delivers (ofTokens tokens fault?) read)
    (hcontent : ∀ t ∈ read, t.isContent = true)
    (hending : Validation.Ending (TokenSource.stateAfter read.length (ofTokens tokens fault?))
      (.ofList (read.map Token.text)) result pulls) :
    Meets tokens fault? sink ⟨result, read.length + pulls, tokens.length -
      (read.length + pulls - (ofTokens tokens fault?).faultsWithin (read.length + pulls)), read⟩ := by
  obtain ⟨hpulls, -, hclosed⟩ :=
    stateAfter_fields (read.length + pulls) (ofTokens tokens fault?)
  refine ⟨TokenSource.stateAfter (read.length + pulls) (ofTokens tokens fault?),
    Validation.value_run_of_delivers hdelivers hcontent hending, ?_, ?_, hclosed⟩
  · rw [hpulls]
    exact Nat.zero_add _
  · rw [tokens_stateAfter, List.length_drop]
    rfl

/-- A validation that keeps to a forecast has done nothing but the pulls of the forecast. -/
theorem Meets.value_run {sink : κ} {foreseen : Forecast} (h : Meets tokens fault? sink foreseen) :
    (Validation.run (ofTokens tokens fault?) sink).value =
      ⟨foreseen.result, TokenSource.stateAfter foreseen.pulls (ofTokens tokens fault?),
        (TokenSink.recordAll sink foreseen.recorded).value⟩ := by
  obtain ⟨source, hvalue, hpulls, -⟩ := h
  obtain ⟨result, pulls, recorded, hrun, -⟩ := Validation.exists_run_of_alike
    (fun n => Alike.same (TokenSource.answerAt n (ofTokens tokens fault?))) sink
  have hsource : source = TokenSource.stateAfter pulls (ofTokens tokens fault?) := by
    rw [hvalue] at hrun
    exact congrArg Validation.Finished.source hrun
  have hcount : foreseen.pulls = pulls := by
    rw [← hpulls, hsource, (stateAfter_fields pulls _).1]
    exact Nat.zero_add _
  rw [hvalue, hsource, hcount]

theorem isContent_of_mem_contentOf {t : Token} (h : t ∈ contentOf tokens) : t.isContent = true :=
  List.mem_takeWhile_imp h

theorem take_length_contentOf (tokens : List Token) :
    tokens.take (contentOf tokens).length = contentOf tokens :=
  (List.prefix_iff_eq_take.1 (List.takeWhile_prefix _)).symm

theorem isContent_of_mem_take {n : Nat} (h : n ≤ (contentOf tokens).length) :
    ∀ t ∈ tokens.take n, t.isContent = true := by
  intro t ht
  have hmem := List.take_subset_take_left tokens h ht
  rw [take_length_contentOf] at hmem
  exact isContent_of_mem_contentOf hmem

theorem isContent_of_border {t : Token} (h : tokens[(contentOf tokens).length]? = some t) :
    t.isContent = false := by
  have hindex (a b : List Token) : (a ++ b)[a.length]? = b.head? := by
    rw [List.getElem?_append_right (Nat.le_refl _), Nat.sub_self, List.head?_eq_getElem?]
  have hborder := hindex (contentOf tokens) (tokens.dropWhile Token.isContent)
  rw [contentOf, List.takeWhile_append_dropWhile] at hborder
  have hhead := List.head?_dropWhile_not Token.isContent tokens
  rwa [← hborder, ← contentOf, h] at hhead

/-- A fault while content is read, or in place of what ends it, ends the validation. -/
theorem meets_early_fault (sink : κ) {pull : Nat} (message : String)
    (h : pull ≤ (contentOf tokens).length) :
    Meets tokens (some (pull, message)) sink
      ⟨.error (.injected message), pull + 1, tokens.length - pull, tokens.take pull⟩ := by
  have hborder : (contentOf tokens).length ≤ tokens.length := (List.takeWhile_prefix _).length_le
  have hlength : (tokens.take pull).length = pull := by
    rw [List.length_take]
    omega
  have hdelivers : TokenSource.Delivers (ofTokens tokens (some (pull, message)))
      (tokens.take pull) := delivers_take tokens fun p m h => by
    cases h
    exact Nat.le_refl _
  have hfault : TokenSource.answerAt 0 (TokenSource.stateAfter (tokens.take pull).length
      (ofTokens tokens (some (pull, message)))) = .error (.injected message) := by
    rw [hlength]
    exact answerAt_of_fault tokens rfl
  have hmeets := meets_of_ending sink hdelivers (isContent_of_mem_take h) (.fault hfault)
  rwa [hlength, faultsWithin_of_fault tokens rfl (Nat.lt_succ_self pull)] at hmeets

theorem delivers_contentOf
    (h : ∀ pull message, fault? = some (pull, message) → (contentOf tokens).length < pull) :
    TokenSource.Delivers (ofTokens tokens fault?) (contentOf tokens) := by
  rw [← take_length_contentOf]
  exact delivers_take tokens fun pull message hp => by
    have := h pull message hp
    omega

/-- An error behind the content rejects the script. -/
theorem meets_error (sink : κ)
    (h : ∀ pull message, fault? = some (pull, message) → (contentOf tokens).length < pull)
    {t : Token} (ht : tokens[(contentOf tokens).length]? = some t) (herror : t.isError = true) :
    Meets tokens fault? sink ⟨.ok .rejected, (contentOf tokens).length + 1,
      tokens.length - ((contentOf tokens).length + 1), contentOf tokens⟩ := by
  obtain ⟨position, hanswer⟩ := answerAt_of_no_fault tokens h
  rw [ht, Option.getD_some] at hanswer
  have hmeets := meets_of_ending sink (delivers_contentOf h)
    (fun _ => isContent_of_mem_contentOf) (.lexicalError hanswer herror)
  rwa [faultsWithin_ofTokens tokens h] at hmeets

/-- The end of the stream behind the content leaves the verdict to the pull behind it. -/
theorem meets_end (sink : κ)
    (h : ∀ pull message, fault? = some (pull, message) → (contentOf tokens).length < pull)
    (hend : ∀ t, tokens[(contentOf tokens).length]? = some t → t.isError = false) :
    Meets tokens fault? sink
      ⟨Validation.resultBehindEnd (.ofList ((contentOf tokens).map Token.text))
          (TokenSource.answerAt ((contentOf tokens).length + 1) (ofTokens tokens fault?)),
        (contentOf tokens).length + 2,
        tokens.length - ((contentOf tokens).length + 2 -
          (ofTokens tokens fault?).faultsWithin ((contentOf tokens).length + 2)),
        contentOf tokens⟩ := by
  obtain ⟨position, hanswer⟩ := answerAt_of_no_fault tokens h
  have heof : (tokens[(contentOf tokens).length]?.getD (.eof position)).isEof = true := by
    cases ht : tokens[(contentOf tokens).length]? with
    | none => rfl
    | some t => exact Validation.isEof_of_not_isContent (isContent_of_border ht) (hend t ht)
  have hmeets := meets_of_ending sink (delivers_contentOf h)
    (fun _ => isContent_of_mem_contentOf) (.behindEnd hanswer heof)
  rwa [TokenSource.answerAt_stateAfter] at hmeets

/-- A validation of a script keeps to its forecast. -/
theorem meets_forecast (tokens : List Token) (fault? : Option (Nat × String)) (sink : κ) :
    Meets tokens fault? sink (forecast tokens fault?) := by
  unfold forecast
  dsimp only
  -- The cases are those of the forecast, from the earliest stop to the latest.
  split
  · rename_i pull message hearly
    obtain ⟨rfl, hpull⟩ := Option.filter_eq_some_iff.1 hearly
    exact meets_early_fault sink message (of_decide_eq_true hpull)
  · rename_i hearly
    have hlate : ∀ pull message, fault? = some (pull, message) →
        (contentOf tokens).length < pull := fun pull message hp => by
      by_contra hless
      rw [hp, Option.filter_some, if_pos (by simpa using hless)] at hearly
      cases hearly
    split
    · rename_i herror
      obtain ⟨t, ht, herror⟩ := (Option.any_eq_true _ _).1 herror
      exact meets_error sink hlate ht herror
    · rename_i herror
      have hmeets := meets_end sink hlate fun t ht => by
        simpa [ht] using herror
      split
      · rename_i pull message hfault
        obtain ⟨rfl, hpull⟩ := Option.filter_eq_some_iff.1 hfault
        obtain rfl : pull = (contentOf tokens).length + 1 := of_decide_eq_true hpull
        rwa [answerAt_of_fault tokens rfl,
          faultsWithin_of_fault tokens rfl (Nat.lt_succ_self _)] at hmeets
      · rename_i hfault
        -- The fault, if there is one, comes after the two pulls that decide.
        have hbehind : ∀ pull message, fault? = some (pull, message) →
            (contentOf tokens).length + 1 < pull := fun pull message hp => by
          have := hlate pull message hp
          by_contra hless
          rw [hp, Option.filter_some, if_pos (decide_eq_true (by omega))] at hfault
          cases hfault
        obtain ⟨position, hanswer⟩ := answerAt_of_no_fault tokens hbehind
        rw [hanswer, faultsWithin_ofTokens tokens hbehind] at hmeets
        cases ht : tokens[(contentOf tokens).length + 1]? with
        | none =>
            have heof : (Token.eof position).isEof = true := rfl
            simpa [ht, Validation.resultBehindEnd, heof] using hmeets
        | some t => simpa [ht, Validation.resultBehindEnd] using hmeets

end Script

/-- Recording tokens adds their diagnostic lines. -/
theorem lines_recordAll (trace : TraceLines) (tokens : List Token) :
    (TokenSink.recordAll trace tokens).value.lines.toList =
      trace.lines.toList ++ tokens.map Token.render := by
  induction tokens generalizing trace with
  | nil => exact (List.append_nil _).symm
  | cons t tokens ih =>
      show (TokenSink.recordAll (TokenSink.record trace t).value tokens).value.lines.toList = _
      have hrecord : (TokenSink.record trace t).value.lines.toList =
          trace.lines.toList ++ [t.render] := Array.toList_push
      rw [ih, hrecord, List.append_assoc, List.singleton_append, List.map_cons]

namespace Validation

open TokenSource

/-- The first answer that is not content, and the answer behind it if that one is the end, fix the
result of a validation, its number of pulls, the state of the source and what the sink received.
For a script they are forecast by its tokens and the pull that faults. -/
theorem decided_by_first_stop :
    (∀ (σ κ : Type) [TokenSource σ] [TokenSink κ] (s : σ) (sink : κ) (tokens : List Token),
      Delivers s tokens → (∀ t ∈ tokens, t.isContent = true) →
      (∀ fault, answerAt tokens.length s = .error fault →
        Ends s sink tokens.length (.error fault) (tokens.length + 1)
          (TokenSink.recordAll sink tokens).value) ∧
      (∀ t, answerAt tokens.length s = .ok t → t.isError = true →
        Ends s sink tokens.length (.ok .rejected) (tokens.length + 1)
          (TokenSink.recordAll sink tokens).value) ∧
      (∀ t, answerAt tokens.length s = .ok t → t.isEof = true →
        (∀ fault, answerAt (tokens.length + 1) s = .error fault →
          Ends s sink tokens.length (.error fault) (tokens.length + 2)
            (TokenSink.recordAll sink tokens).value) ∧
        (∀ u, answerAt (tokens.length + 1) s = .ok u → u.isEof = true →
          Ends s sink tokens.length (.ok (.accepted (.ofList (tokens.map Token.text))))
            (tokens.length + 2) (TokenSink.recordAll sink tokens).value) ∧
        (∀ u, answerAt (tokens.length + 1) s = .ok u → u.isEof = false →
          Ends s sink tokens.length (.ok .rejected) (tokens.length + 2)
            (TokenSink.recordAll sink tokens).value))) ∧
    (∀ (tokens : List Token) (fault? : Option (Nat × String)) (trace : TraceLines),
      let finished := (run (Script.ofTokens tokens fault?) trace).value
      let foreseen := Script.forecast tokens fault?
      finished.result = foreseen.result ∧ finished.source.pulls = foreseen.pulls ∧
        finished.source.tokens.length = foreseen.remaining ∧ finished.source.closed = false ∧
        finished.sink.lines.toList = trace.lines.toList ++ foreseen.recorded.map Token.render) := by
  refine ⟨fun σ κ _ _ s sink tokens hdelivers hcontent => ⟨?_, ?_, ?_⟩, ?_⟩
  · intro fault hfault
    refine ends_of_delivers sink hdelivers hcontent (.fault ?_)
    rwa [answerAt_stateAfter]
  · intro t hanswer herror
    refine ends_of_delivers sink hdelivers hcontent (.lexicalError ?_ herror)
    rwa [answerAt_stateAfter]
  · intro t hanswer heof
    have hends := ends_of_delivers sink hdelivers hcontent
      (.behindEnd (by rwa [answerAt_stateAfter]) heof)
    rw [answerAt_stateAfter] at hends
    refine ⟨fun fault hfault => ?_, fun u hu hagain => ?_, fun u hu hother => ?_⟩
    · rwa [hfault] at hends
    · simpa only [hu, resultBehindEnd, hagain, if_true] using hends
    · simpa only [hu, resultBehindEnd, hother, Bool.false_eq_true, if_false] using hends
  · intro tokens fault? trace
    obtain ⟨source, hrun, hpulls, hleft, hclosed⟩ :=
      Script.meets_forecast tokens fault? trace
    dsimp only
    rw [hrun]
    exact ⟨rfl, hpulls, hleft, hclosed, lines_recordAll _ _⟩

/-- A word behind the end of the stream rejects it with the third pull, after `+` was recorded. -/
theorem decided_by_trailing_word :
    let plus : Token := .fixed .plus .start
    let script : Script := .ofTokens [plus, .eof .start, ⟨.identifier, "y", .start⟩] none
    Delivers script [plus] ∧ (∀ t ∈ [plus], t.isContent = true) ∧
      answerAt 1 script = .ok (.eof .start) ∧
      answerAt 2 script = .ok ⟨.identifier, "y", .start⟩ ∧
      Ends script (⟨#[]⟩ : TraceLines) 1 (.ok .rejected) 3 ⟨#["[1,1]:+"]⟩ := by
  intro plus script
  have hdelivers : Delivers script [plus] := delivers_cons_iff.2 ⟨rfl, delivers_nil _⟩
  have hcontent : ∀ t ∈ [plus], t.isContent = true := by decide
  have hbehind := (decided_by_first_stop.1 Script TraceLines script ⟨#[]⟩ [plus]
    hdelivers hcontent).2.2 (.eof .start) rfl rfl
  have hrecorded : (TokenSink.recordAll (⟨#[]⟩ : TraceLines) [plus]).value = ⟨#["[1,1]:+"]⟩ := by
    decide
  rw [hrecorded] at hbehind
  exact ⟨hdelivers, hcontent, rfl, rfl, hbehind.2.2 ⟨.identifier, "y", .start⟩ rfl rfl⟩

end Validation

end TokenAudit
