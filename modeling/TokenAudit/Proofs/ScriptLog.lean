import TokenAudit.Proofs.Decisions
import TokenAudit.Proofs.RunOutcome
import TokenAudit.Proofs.TraceWriting
import TokenAudit.Proofs.ValidationLog

/-!
# The log of a validation

A validation tells of every content token that it pulls and records, and then of its decision.  What
its source and its sink tell comes in between, but not in the name of the validation.  Without that
the log can be read off the answers of the source (`StopsBehind.ownEntries_run`), and it is the only
place where the two causes of a rejection are told apart.

A level leaves out the entries that are not severe enough and touches nothing else.
-/

namespace TokenAudit

namespace Log

/-- The entries that a validation makes by itself. -/
def ownEntries (events : List Event) : List Entry :=
  (events.filter fun event => event.component? == some .validation).map Event.entry

/-- Events of which no validation tells. -/
def Foreign (events : List Event) : Prop := ∀ event ∈ events, event.component? ≠ some .validation

@[simp] theorem ownEntries_nil : ownEntries [] = [] := rfl

@[simp] theorem ownEntries_append (events others : List Event) :
    ownEntries (events ++ others) = ownEntries events ++ ownEntries others := by
  rw [ownEntries, List.filter_append, List.map_append, ownEntries, ownEntries]

@[simp] theorem ownEntries_of_foreign {events : List Event} (h : Foreign events) :
    ownEntries events = [] := by
  rw [ownEntries, List.map_eq_nil_iff, List.filter_eq_nil_iff]
  exact fun event hevent => by simpa using h event hevent

@[simp] theorem ownEntries_pulled (t : Token) (events : List Event) :
    ownEntries (.pulled t :: events) = .pulled t :: ownEntries events := rfl

@[simp] theorem ownEntries_tokenAccepted (t : Token) (events : List Event) :
    ownEntries (.tokenAccepted t :: events) = .accepted t :: ownEntries events := rfl

@[simp] theorem ownEntries_streamAccepted (count : Nat) (events : List Event) :
    ownEntries (.streamAccepted count :: events) = .streamAccepted count :: ownEntries events := rfl

@[simp] theorem ownEntries_streamRejected (cause : Rejection) (t : Token) (events : List Event) :
    ownEntries (.streamRejected cause t :: events) =
      .streamRejected cause.message t :: ownEntries events := rfl

/-- A level lets an entry through. -/
def Level.shows (level : Level) (entry : Entry) : Bool := entry.severity.rank ≤ level.rank

/-- A level lets the same through of events and of their entries. -/
theorem Level.ownEntries_select (level : Level) (events : List Event) :
    ownEntries (level.select events) = (ownEntries events).filter level.shows := by
  rw [Level.select, ownEntries, ownEntries, List.filter_map, List.filter_comm]
  rfl

/-- A trace writer tells of nothing but its failure. -/
theorem foreign_record_traceWriter (sink : TraceWriter) (t : Token) :
    Foreign (TokenSink.record sink t).events := by
  intro event hevent
  rw [TraceWriter.record_eq_put, TraceWriter.put] at hevent
  split at hevent
  · cases hevent
  · split at hevent
    · cases hevent
    · rw [List.mem_singleton.1 hevent]
      simp [Event.component?]

end Log

/-- What comes of a logged computation when a level is configured: the value, and the events that
the level lets through. -/
def Logged.under {α : Type} (level : Log.Level) (x : Logged α) : α × List Log.Event :=
  (x.value, level.select x.events)

namespace Validation

open TokenSource Log

section

variable {σ κ : Type} [TokenSource σ] [TokenSink κ]

/-- While content is read, a validation tells twice of every token. -/
theorem ownEntries_contentEvents (hsource : ∀ s : σ, Foreign (pull s).events)
    (hsink : ∀ (sink : κ) (t : Token), Foreign (TokenSink.record sink t).events) (s : σ) (sink : κ)
    (content : List Token) :
    ownEntries (contentEvents s sink content) =
      content.flatMap fun t => [.pulled t, .accepted t] := by
  induction content generalizing s sink with
  | nil => rfl
  | cons t content ih => simp [contentEvents, hsource, hsink, ih]

/-- Behind the content, a validation tells of its decision. -/
theorem ownEntries_endingEvents (hsource : ∀ s : σ, Foreign (pull s).events) (s : σ)
    (texts : List String) :
    ownEntries (endingEvents s (.ofList texts)) =
      (Decision.on texts (answerAt 0 s) (answerAt 1 s)).entries := by
  show _ = (Decision.on texts (answer s) (answer (next s))).entries
  unfold endingEvents
  -- The cases are those of the table, from the first answer to the one behind it.
  cases hfirst : answer s with
  | error fault => simp [hsource, Decision.on]
  | ok t =>
      cases herror : t.isError with
      | true => simp [hsource, herror, Decision.on, Rejection.message]
      | false =>
          cases hbehind : answer (next s) with
          | error fault => simp [hsource, herror, eventsBehindEnd, Decision.on]
          | ok u =>
              cases heof : u.isEof with
              | true =>
                  simp [hsource, herror, heof, eventsBehindEnd, Decision.on, Listing.size,
                    Listing.ofList]
              | false =>
                  simp [hsource, herror, heof, eventsBehindEnd, Decision.on, Rejection.message]

end

/-- The entries of a validation are those of the content that it reads and of its decision. -/
theorem StopsBehind.ownEntries_run {σ κ : Type} [FiniteSource σ] [TokenSink κ] {s : σ}
    {content : List Token} (h : StopsBehind s content)
    (hsource : ∀ s : σ, Foreign (pull s).events)
    (hsink : ∀ (sink : κ) (t : Token), Foreign (TokenSink.record sink t).events) (sink : κ) :
    ownEntries (run s sink).events =
      (content.flatMap fun t => [.pulled t, .accepted t]) ++ (decision s content).entries := by
  rw [events_run_of_delivers h.delivers h.isContent_of_mem h.ending, ownEntries_append,
    ownEntries_contentEvents hsource hsink, ownEntries_endingEvents hsource, answerAt_stateAfter,
    answerAt_stateAfter]
  rfl

/-- A verdict is told in one entry that a level of `info` shows, and a fault in none. -/
theorem countP_info_decision {σ : Type} [TokenSource σ] (s : σ) (content : List Token) :
    (decision s content).entries.countP (fun entry => entry.severity == .info) =
      match (decision s content).result with
      | .ok _ => 1
      | .error _ => 0 := by
  unfold decision
  fun_cases Decision.on (content.map Token.text) (answerAt content.length s)
    (answerAt (content.length + 1) s) <;> rfl

/-- The log of the validation of a script tells of every content token that it was pulled and, with
the line that goes to the sink, that it was accepted.  Then it tells how the stream was decided:
which token stopped the content, and by one entry which verdict was reached and why, unless a fault
decided it.  A level shows the entries that are severe enough, and does not change what the
validation comes to. -/
theorem log_tells_the_decision {κ : Type} [TokenSink κ]
    (hsink : ∀ (sink : κ) (t : Token), Foreign (TokenSink.record sink t).events)
    (script : Script) (sink : κ) :
    ∃ content, StopsBehind script content ∧
      let decided := decision script content
      let finished := run script sink
      let entries := (content.flatMap fun t => [.pulled t, .accepted t]) ++ decided.entries
      ownEntries finished.events = entries ∧
      entries.countP (fun entry => entry.severity == .info) =
        (match decided.result with
        | .ok _ => 1
        | .error _ => 0) ∧
      (run script ({} : TraceLines)).value.sink.lines.toList = content.map Token.render ∧
      ∀ level, (finished.under level).1 = ⟨decided.result,
          stateAfter (content.length + decided.pulls) script,
          (TokenSink.recordAll sink content).value⟩ ∧
        ownEntries (finished.under level).2 =
          entries.filter fun entry => entry.severity.rank ≤ level.rank := by
  obtain ⟨content, hstops⟩ := exists_stopsBehind script
  have hsource (script : Script) : Foreign (pull script).events := by
    intro event hevent
    cases hevent
  have hentries := hstops.ownEntries_run hsource hsink sink
  refine ⟨content, hstops, hentries, ?_, ?_, fun level => ⟨hstops.value_run sink, ?_⟩⟩
  · have hcontent : (content.flatMap fun t => [Entry.pulled t, Entry.accepted t]).countP
        (fun entry => entry.severity == .info) = 0 := by
      rw [List.countP_eq_zero]
      intro entry hentry
      obtain ⟨t, -, ht⟩ := List.mem_flatMap.1 hentry
      rcases List.mem_pair.1 ht with rfl | rfl
      · exact Bool.false_ne_true
      · exact Bool.false_ne_true
    rw [List.countP_append, hcontent, Nat.zero_add, countP_info_decision]
  · rw [hstops.value_run, lines_recordAll]
    rfl
  · show ownEntries (level.select (run script sink).events) = _
    rw [level.ownEntries_select, hentries]
    rfl

/-- An error behind the end of the stream is told as trailing content, also by a validation whose
trace writer fails at the line before. -/
theorem log_tells_trailing_error :
    let word : Token := ⟨.identifier, "x", ⟨1, 1⟩⟩
    let script := Script.ofTokens [word, .eof ⟨1, 2⟩, .error "@" ⟨1, 3⟩] none
    let sink : TraceWriter := { writer := { room := some 3 } }
    (∀ (sink : TraceWriter) (t : Token), Foreign (TokenSink.record sink t).events) ∧
      (run script sink).events =
        [.pulled word, .tokenAccepted word, .traceDisabled ByteWriter.fullMessage,
          .pulled (.eof ⟨1, 2⟩), .streamRejected .trailingContent (.error "@" ⟨1, 3⟩)] ∧
      ownEntries ((run script sink).under .debug).2 = [⟨.debug, "accepted [1,1]:x", []⟩,
        ⟨.info, "token stream rejected: content after end of stream",
          [("kind", .text "ERROR"), ("line", .number 1), ("column", .number 3)]⟩] := by
  intro word script sink
  refine ⟨foreign_record_traceWriter, by decide, ?_⟩
  obtain ⟨content, hstops, -, -, -, hlevel⟩ :=
    log_tells_the_decision foreign_record_traceWriter script sink
  have hword : StopsBehind script [word] :=
    ⟨delivers_cons_iff.2 ⟨rfl, delivers_nil _⟩, by decide, rfl⟩
  obtain rfl := hstops.unique hword
  exact (hlevel .debug).2.trans (by decide)

end Validation

end TokenAudit
