import TokenAudit.Proofs.ValidationRun

/-!
# What a validation tells

The events of a validation are those of its turns: for every content token the pull, the record and
the events of the source and the sink, and at the ending what decided the stream.
`events_run_of_delivers` puts them together for a stream of content that ends.
-/

namespace TokenAudit.Validation

open TokenSource

section

variable {σ κ : Type} [TokenSource σ]

/-- What is told of the answer behind the end of a stream. -/
def eventsBehindEnd (listing : Listing) : Except Fault Token → List Log.Event
  | .error _ => []
  | .ok t => [if t.isEof then .streamAccepted listing.size else .streamRejected .trailingContent t]

/-- What is told when a stream is decided, given the texts listed before. -/
def endingEvents (s : σ) (listing : Listing) : List Log.Event :=
  (pull s).events ++
    match answer s with
    | .error _ => []
    | .ok t =>
      .pulled t ::
        if t.isError then [.streamRejected .lexicalError t]
        else (pull (next s)).events ++ eventsBehindEnd listing (answer (next s))

theorem events_conclude (pending : Pending σ κ) :
    (conclude pending).events =
      (pull pending.source).events ++ eventsBehindEnd pending.listing (answer pending.source) := by
  unfold conclude answer
  cases hanswer : (pull pending.source).value.1 with
  | error fault => simp [hanswer, eventsBehindEnd]
  | ok t =>
      by_cases heof : t.isEof = true
      · simp [hanswer, eventsBehindEnd, heof]
      · simp [hanswer, eventsBehindEnd, heof, reject]

/-- A stream that is decided tells of trailing content only where an answer that is no error is
followed by one that is not the end, unless the source itself told so. -/
theorem trailingContent_of_mem_endingEvents {s : σ} {listing : Listing} {t : Token}
    (h : .streamRejected .trailingContent t ∈ endingEvents s listing) :
    (∃ n, .streamRejected .trailingContent t ∈ (pull (stateAfter n s)).events) ∨
      ∃ u, answer s = .ok u ∧ u.isError = false ∧ answer (next s) = .ok t ∧ t.isEof = false := by
  rcases List.mem_append.1 h with hpull | hdecided
  · exact .inl ⟨0, hpull⟩
  · cases hanswer : answer s with
    | error fault => simp [hanswer] at hdecided
    | ok u =>
        cases herror : u.isError with
        | true => simp [hanswer, herror] at hdecided
        | false =>
            have hbehind : .streamRejected .trailingContent t ∈
                (pull (next s)).events ++ eventsBehindEnd listing (answer (next s)) := by
              simpa [hanswer, herror] using hdecided
            rcases List.mem_append.1 hbehind with hpull | hend
            · exact .inl ⟨1, hpull⟩
            · cases hlast : answer (next s) with
              | error fault => simp [hlast, eventsBehindEnd] at hend
              | ok v =>
                  cases heof : v.isEof with
                  | true => simp [hlast, eventsBehindEnd, heof] at hend
                  | false =>
                      obtain rfl : t = v := by simpa [hlast, eventsBehindEnd, heof] using hend
                      exact .inr ⟨u, rfl, herror, rfl, heof⟩

variable [TokenSink κ]

/-- What is told while content is pulled and recorded. -/
def contentEvents (s : σ) (sink : κ) : List Token → List Log.Event
  | [] => []
  | t :: tokens =>
    (pull s).events ++ .pulled t :: .tokenAccepted t :: (TokenSink.record sink t).events ++
      contentEvents (next s) (TokenSink.record sink t).value tokens

theorem events_turn_of_content {pending : Pending σ κ} {t : Token}
    (h : answer pending.source = .ok t) (hcontent : t.isContent = true) :
    (turn pending).events = (pull pending.source).events ++
      .pulled t :: .tokenAccepted t :: (TokenSink.record pending.sink t).events := by
  obtain ⟨herror, heof⟩ := isContent_iff.1 hcontent
  have hanswer : (pull pending.source).value.1 = .ok t := h
  simp [turn, hanswer, herror, heof, accept]

/-- The turn at an ending tells what decided the stream. -/
theorem events_turn_of_ending {s : σ} {sink : κ} {listing : Listing}
    {result : Except Fault Verdict} {pulls : Nat} (h : Ending s listing result pulls) :
    (turn ⟨s, sink, listing⟩).events = endingEvents s listing := by
  cases h with
  | fault hfirst =>
      have hanswer : (pull s).value.1 = .error _ := hfirst
      simp [turn, endingEvents, answer, hanswer]
  | lexicalError hfirst herror =>
      have hanswer : (pull s).value.1 = .ok _ := hfirst
      simp [turn, endingEvents, answer, hanswer, herror, reject]
  | @behindEnd t hfirst heof =>
      have hanswer : (pull s).value.1 = .ok t := hfirst
      have hconclude : (conclude ⟨(pull s).value.2, sink, listing⟩).events =
          (pull (next s)).events ++ eventsBehindEnd listing (answer (next s)) := events_conclude _
      have herror : t.isError = false := isError_of_isEof heof
      have hfirst' : answer s = .ok t := hfirst
      simp [turn, endingEvents, hfirst', hanswer, herror, heof, hconclude]

/-- What a validation of content that ends tells, with every limit that is high enough. -/
theorem events_runWithin_of_delivers {s : σ} {sink : κ} {listing : Listing} {tokens : List Token}
    (hdelivers : Delivers s tokens) (hcontent : ∀ t ∈ tokens, t.isContent = true)
    {result : Except Fault Verdict} {pulls : Nat}
    (hending : Ending (stateAfter tokens.length s) (listAll listing tokens) result pulls)
    {limit : Nat} (hlimit : tokens.length < limit) :
    (runWithin limit ⟨s, sink, listing⟩).map Logged.events = some (contentEvents s sink tokens ++
      endingEvents (stateAfter tokens.length s) (listAll listing tokens)) := by
  induction tokens generalizing s sink listing limit with
  | nil =>
      obtain ⟨limit, rfl⟩ := Nat.exists_eq_add_of_lt hlimit
      have hturn : (turn ⟨s, sink, listing⟩).value = .decided ⟨result, stateAfter pulls s, sink⟩ :=
        value_turn_of_ending hending
      have hevents : (turn ⟨s, sink, listing⟩).events = endingEvents s listing :=
        events_turn_of_ending hending
      rw [List.length_nil, Nat.zero_add, runWithin]
      simp only [hturn, hevents]
      rfl
  | cons t tokens ih =>
      obtain ⟨hfirst, hrest⟩ := delivers_cons_iff.1 hdelivers
      obtain ⟨limit, rfl⟩ := Nat.exists_eq_add_of_lt hlimit
      have htoken := hcontent t (List.mem_cons_self ..)
      have hturn : (turn ⟨s, sink, listing⟩).value = .undecided
          ⟨next s, (TokenSink.record sink t).value, listing.push t.text⟩ :=
        value_turn_of_content hfirst htoken
      have hevents : (turn ⟨s, sink, listing⟩).events = (pull s).events ++
          .pulled t :: .tokenAccepted t :: (TokenSink.record sink t).events :=
        events_turn_of_content hfirst htoken
      have hless : tokens.length < (t :: tokens).length + limit := by
        rw [List.length_cons]
        omega
      have hothers : (runWithin ((t :: tokens).length + limit)
          ⟨next s, (TokenSink.record sink t).value, listing.push t.text⟩).map Logged.events = _ :=
        ih hrest (fun u hu => hcontent u (List.mem_cons_of_mem _ hu)) hending hless
      obtain ⟨last, hlast, hlastEvents⟩ := Option.map_eq_some_iff.1 hothers
      rw [runWithin]
      simp only [hturn, hevents, hlast, Option.map_some, hlastEvents]
      simp only [contentEvents, List.append_assoc, List.cons_append]
      rfl

/-- Every event told while content is pulled and recorded comes from the source, from the sink, or
tells of a token that was pulled and accepted. -/
theorem mem_contentEvents {s : σ} {sink : κ} {tokens : List Token} {event : Log.Event}
    (h : event ∈ contentEvents s sink tokens) :
    (∃ n, event ∈ (pull (stateAfter n s)).events) ∨ (∃ t, event = .pulled t) ∨
      (∃ t, event = .tokenAccepted t) ∨ ∃ (kept : κ) (t : Token),
        event ∈ (TokenSink.record kept t).events := by
  induction tokens generalizing s sink with
  | nil => cases h
  | cons t tokens ih =>
      rw [contentEvents, List.mem_append, List.mem_append, List.mem_cons, List.mem_cons] at h
      rcases h with (hpull | hpulled | haccepted | hrecord) | hrest
      · exact .inl ⟨0, hpull⟩
      · exact .inr (.inl ⟨t, hpulled⟩)
      · exact .inr (.inr (.inl ⟨t, haccepted⟩))
      · exact .inr (.inr (.inr ⟨sink, t, hrecord⟩))
      · rcases ih hrest with ⟨n, hpull⟩ | hother
        · exact .inl ⟨n + 1, hpull⟩
        · exact .inr hother

end

/-- What the validation of a finite source that delivers content and then ends tells. -/
theorem events_run_of_delivers {σ κ : Type} [FiniteSource σ] [TokenSink κ] {s : σ} {sink : κ}
    {tokens : List Token} (hdelivers : Delivers s tokens)
    (hcontent : ∀ t ∈ tokens, t.isContent = true) {result : Except Fault Verdict} {pulls : Nat}
    (hending : Ending (stateAfter tokens.length s) (.ofList (tokens.map Token.text)) result pulls) :
    (run s sink).events = contentEvents s sink tokens ++
      endingEvents (stateAfter tokens.length s) (.ofList (tokens.map Token.text)) := by
  rw [← listAll_empty] at hending ⊢
  have hlimit := Nat.lt_succ_of_le (length_le_remaining hdelivers hcontent)
  have hrun := congrArg (Option.map Logged.events) (runWithin_remaining s sink)
  rw [events_runWithin_of_delivers hdelivers hcontent hending hlimit] at hrun
  exact (Option.some.inj hrun).symm

end TokenAudit.Validation
