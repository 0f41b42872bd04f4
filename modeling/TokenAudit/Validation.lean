import TokenAudit.TokenSource
import TokenAudit.Trace

/-!
# Validation

A validation pulls tokens until the stream is decided.  A fault ends it at once.  An error token
rejects the stream.  At the end of the stream one more pull must answer the end again, otherwise the
stream is rejected too.  Every other token is recorded in the sink and listed.

`runWithin` gives up after so many pulls and so works for any source.  For a finite source the bound
on its content is always enough, and `run` needs no limit.
-/

namespace TokenAudit.Validation

variable {σ κ : Type} [TokenSource σ] [TokenSink κ]

/-- What a validation leaves behind: its result, the source, not closed, and the sink. -/
structure Finished (σ κ : Type) where
  result : Except Fault Verdict
  source : σ
  sink : κ

/-- A validation under way. -/
structure Pending (σ κ : Type) where
  source : σ
  sink : κ
  listing : Listing := .empty

/-- One turn of a validation either decides the stream or goes on. -/
inductive Turn (σ κ : Type) where
  | decided (finished : Finished σ κ)
  | undecided (pending : Pending σ κ)

/-- Rejects the stream at a token. -/
def reject (cause : Log.Rejection) (token : Token) (source : σ) (sink : κ) :
    Logged (Finished σ κ) := do
  Logged.tell (.streamRejected cause token)
  return ⟨.ok .rejected, source, sink⟩

/-- Decides a stream whose end was pulled: nothing else may follow. -/
def conclude (pending : Pending σ κ) : Logged (Finished σ κ) := do
  let (answer, source) ← TokenSource.pull pending.source
  match answer with
  | .error fault => return ⟨.error fault, source, pending.sink⟩
  | .ok token =>
    if token.isEof then
      Logged.tell (.streamAccepted pending.listing.size)
      return ⟨.ok (.accepted pending.listing), source, pending.sink⟩
    else
      reject .trailingContent token source pending.sink

/-- Records and lists a content token that was pulled. -/
def accept (pending : Pending σ κ) (token : Token) (source : σ) : Logged (Pending σ κ) := do
  Logged.tell (.tokenAccepted token)
  let sink ← TokenSink.record pending.sink token
  return ⟨source, sink, pending.listing.push token.text⟩

/-- Pulls one token and does what it asks for. -/
def turn (pending : Pending σ κ) : Logged (Turn σ κ) := do
  let (answer, source) ← TokenSource.pull pending.source
  match answer with
  | .error fault => return .decided ⟨.error fault, source, pending.sink⟩
  | .ok token =>
    Logged.tell (.pulled token)
    if token.isError then
      return .decided (← reject .lexicalError token source pending.sink)
    else if token.isEof then
      return .decided (← conclude { pending with source })
    else
      return .undecided (← accept pending token source)

/-- Takes turns until the stream is decided, but only so many. -/
def runWithin : Nat → Pending σ κ → Option (Logged (Finished σ κ))
  | 0, _ => none
  | n + 1, pending =>
    let taken := turn pending
    match taken.value with
    | .decided finished => some ⟨finished, taken.events⟩
    | .undecided rest =>
      (runWithin n rest).map fun last => ⟨last.value, taken.events ++ last.events⟩

/-- A turn that does not decide the stream has taken one content token from the source. -/
theorem source_of_turn_undecided {pending rest : Pending σ κ}
    (h : (turn pending).value = .undecided rest) :
    isContentAnswer (TokenSource.answer pending.source) = true ∧
      rest.source = TokenSource.next pending.source := by
  revert h
  simp only [turn, Logged.value_bind]
  cases hanswer : (TokenSource.pull pending.source).value.1 with
  | error fault => intro h; simp at h
  | ok token =>
    by_cases herror : token.isError = true
    · intro h; simp [herror] at h
    · by_cases heof : token.isEof = true
      · intro h; simp [herror, heof] at h
      · intro h
        simp only [herror, heof, Bool.false_eq_true, if_false, Logged.value_bind,
          Logged.value_pure, Turn.undecided.injEq] at h
        refine ⟨?_, ?_⟩
        · simp only [Token.isError, Bool.not_eq_true] at herror
          simp only [Token.isEof, Bool.not_eq_true] at heof
          simp [TokenSource.answer, hanswer, isContentAnswer, Token.isContent, Kind.isContent,
            herror, heof]
        · rw [← h]
          rfl

/-- A finite source is decided within the bound on its content. -/
theorem isSome_runWithin {σ κ : Type} [FiniteSource σ] [TokenSink κ] {n : Nat}
    {pending : Pending σ κ} (h : FiniteSource.remaining pending.source < n) :
    (runWithin n pending).isSome = true := by
  induction n generalizing pending with
  | zero => omega
  | succ n ih =>
    rw [runWithin]
    split
    · rfl
    · rename_i rest hturn
      obtain ⟨hcontent, hsource⟩ := source_of_turn_undecided hturn
      have hless := FiniteSource.remaining_next pending.source
        (isLastAnswer_of_isContentAnswer hcontent)
      rw [Option.isSome_map]
      apply ih
      rw [hsource]
      omega

/-- Validates a finite source. -/
def run {σ κ : Type} [FiniteSource σ] [TokenSink κ] (source : σ) (sink : κ) :
    Logged (Finished σ κ) :=
  (runWithin (FiniteSource.remaining source + 1) ⟨source, sink, .empty⟩).get
    (isSome_runWithin (Nat.lt_succ_self _))

/-- Validates a finite source and closes it, whatever the result. -/
def consume {σ κ : Type} [FiniteSource σ] [TokenSink κ] (source : σ) (sink : κ) :
    Logged (Finished σ κ) := do
  let finished ← run source sink
  return { finished with source := TokenSource.close finished.source }

/-- Validates sources one after the other with one sink. -/
def runAll {σ κ : Type} [FiniteSource σ] [TokenSink κ] (sink : κ) :
    List σ → Logged (List (Finished σ κ))
  | [] => return []
  | source :: sources => do
    let finished ← run source sink
    let rest ← runAll finished.sink sources
    return finished :: rest

end TokenAudit.Validation
