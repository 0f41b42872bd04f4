import TokenAudit.Proofs.FileReplacement
import TokenAudit.Proofs.ValidationRun

/-!
# The trace has no say

Two validations of one source that record in different sinks go through the same states of the
source, list the same texts and come to the same result, whatever the sinks do with what they are
given.  So an audit does not depend on its trace, nor on the settings, which only choose the trace.

* `agrees_turn`: one turn with either sink, from the same source and listing.
* `stream_runWithin`: a whole validation, by induction on the limit.
-/

namespace TokenAudit

namespace Validation

open TokenSource

section

variable {σ κ κ' : Type}

/-- What a validation makes of its source: the result, and the source after it. -/
def Finished.stream (finished : Finished σ κ) : Except Fault Verdict × σ :=
  (finished.result, finished.source)

/-- Turns that differ in the sink only. -/
inductive Turn.Agrees : Turn σ κ → Turn σ κ' → Prop
  | decided {finished : Finished σ κ} {other : Finished σ κ'} : finished.stream = other.stream →
      Agrees (.decided finished) (.decided other)
  | undecided {s : σ} {listing : Listing} {sink : κ} {other : κ'} :
      Agrees (.undecided ⟨s, sink, listing⟩) (.undecided ⟨s, other, listing⟩)

variable [TokenSource σ]

/-- A validation with the source closed behind it. -/
def Finished.closed (finished : Finished σ κ) : Finished σ κ :=
  { finished with source := TokenSource.close finished.source }

theorem Finished.stream_closed (finished : Finished σ κ) :
    finished.closed.stream = (finished.stream.1, TokenSource.close finished.stream.2) := rfl

variable [TokenSink κ] [TokenSink κ']

/-- One turn does the same to the stream with either sink. -/
theorem agrees_turn (s : σ) (listing : Listing) (sink : κ) (other : κ') :
    Turn.Agrees (turn ⟨s, sink, listing⟩).value (turn ⟨s, other, listing⟩).value := by
  rcases content_or_ending s listing with ⟨t, hanswer, hcontent⟩ | ⟨result, pulls, hending⟩
  · rw [value_turn_of_content hanswer hcontent, value_turn_of_content hanswer hcontent]
    exact .undecided
  · rw [value_turn_of_ending hending, value_turn_of_ending hending]
    exact .decided rfl

/-- A validation does the same to the stream with either sink, within every limit. -/
theorem stream_runWithin (limit : Nat) (s : σ) (listing : Listing) (sink : κ) (other : κ') :
    (runWithin limit ⟨s, sink, listing⟩).map (fun run => run.value.stream) =
      (runWithin limit ⟨s, other, listing⟩).map fun run => run.value.stream := by
  -- The sinks drift apart from turn to turn, so the induction is for all of them.
  induction limit generalizing s listing sink other with
  | zero => rfl
  | succ limit ih =>
      have hturn := agrees_turn s listing sink other
      rw [runWithin, runWithin]
      generalize (turn ⟨s, sink, listing⟩).value = taken at hturn ⊢
      generalize (turn ⟨s, other, listing⟩).value = taken' at hturn ⊢
      cases hturn with
      | decided hstream => exact congrArg some hstream
      | @undecided next listing sink other =>
          simp only [Option.map_map]
          exact ih next listing sink other

theorem stream_closed_runWithin (limit : Nat) (s : σ) (listing : Listing) (sink : κ) (other : κ') :
    (runWithin limit ⟨s, sink, listing⟩).map (fun run => run.value.closed.stream) =
      (runWithin limit ⟨s, other, listing⟩).map fun run => run.value.closed.stream := by
  have hclosed := congrArg (Option.map fun stream => (stream.1, TokenSource.close stream.2))
    (stream_runWithin limit s listing sink other)
  rwa [Option.map_map, Option.map_map] at hclosed

end

variable {σ κ κ' : Type} [FiniteSource σ] [TokenSink κ] [TokenSink κ']

theorem stream_run (s : σ) (sink : κ) (other : κ') :
    (run s sink).value.stream = (run s other).value.stream := by
  have hruns := stream_runWithin (FiniteSource.remaining s + 1) s .empty sink other
  rw [runWithin_remaining, runWithin_remaining] at hruns
  exact Option.some.inj hruns

/-- To consume a source is to validate it and close it. -/
theorem value_consume (s : σ) (sink : κ) : (consume s sink).value = (run s sink).value.closed := rfl

theorem stream_consume (s : σ) (sink : κ) (other : κ') :
    (consume s sink).value.stream = (consume s other).value.stream := by
  rw [value_consume, value_consume, Finished.stream_closed, Finished.stream_closed,
    stream_run s sink other]

end Validation

namespace Audit

variable {κ κ' : Type} [TokenSink κ] [TokenSink κ']

/-- An input is judged alike with either sink. -/
theorem judged_eq (fs : FileSystem) (input : String) (sink : κ) (other : κ') :
    judged fs input sink = judged fs input other := by
  unfold judged
  cases (Source.load fs input).value with
  | error fault => rfl
  | ok source =>
      have hconsumed := Validation.stream_consume (Scan.ofText source.text.toList) sink other
      exact congrArg Prod.fst hconsumed

/-- What a validation, a consumption or an audit comes to, and what it leaves of the source or in
the file system, does not depend on the sink.  An audit does not depend on its settings. -/
theorem outcome_independent_of_trace (sink : κ) (other : κ') :
    (∀ (σ : Type) [TokenSource σ] (s : σ) (limit : Nat),
      (Validation.runWithin limit ⟨s, sink, .empty⟩).map (fun run => run.value.stream) =
        (Validation.runWithin limit ⟨s, other, .empty⟩).map (fun run => run.value.stream) ∧
      (Validation.runWithin limit ⟨s, sink, .empty⟩).map (fun run => run.value.closed.stream) =
        (Validation.runWithin limit ⟨s, other, .empty⟩).map fun run => run.value.closed.stream) ∧
    (∀ (σ : Type) [FiniteSource σ] (s : σ),
      (Validation.run s sink).value.stream = (Validation.run s other).value.stream ∧
      (Validation.consume s sink).value.stream = (Validation.consume s other).value.stream) ∧
    (∀ (fs : FileSystem) (input output : String),
      (runWithSink fs input output sink).value.result =
        (runWithSink fs input output other).value.result ∧
      (runWithSink fs input output sink).value.files =
        (runWithSink fs input output other).value.files) ∧
    (∀ (settings others : Settings) (fs : FileSystem) (input output : String),
      (run settings fs input output).value.result = (run others fs input output).value.result ∧
      (run settings fs input output).value.files = (run others fs input output).value.files) := by
  have haudit (kind kind' : Type) [TokenSink kind] [TokenSink kind'] (kept : kind) (kept' : kind')
      (fs : FileSystem) (input output : String) :
      (runWithSink fs input output kept).value.result =
        (runWithSink fs input output kept').value.result ∧
      (runWithSink fs input output kept).value.files =
        (runWithSink fs input output kept').value.files := by
    rw [result_runWithSink, result_runWithSink, files_runWithSink, files_runWithSink,
      judged_eq fs input kept kept']
    exact ⟨rfl, rfl⟩
  refine ⟨fun σ _ s limit => ⟨Validation.stream_runWithin limit s .empty sink other,
      Validation.stream_closed_runWithin limit s .empty sink other⟩,
    fun σ _ s => ⟨Validation.stream_run s sink other, Validation.stream_consume s sink other⟩,
    fun fs input output => haudit κ κ' sink other fs input output,
    fun settings others fs input output => ?_⟩
  exact haudit _ _ (traceFor settings) (traceFor others) fs input output

end Audit

end TokenAudit
