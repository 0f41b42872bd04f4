import TokenAudit.Proofs.Decisions
import TokenAudit.Proofs.RunOutcome
import TokenAudit.Proofs.TraceIndependence
import TokenAudit.Stream

/-!
# Validations one after the other

Validations that share a sink of lines have nothing else in common.  Each of them adds the lines of
the content that it reads, whatever it comes to (`Validation.lines_run`), and does not look at what
stands in the sink.  So every result and every source left behind is that of a fresh validation, and
the sink grows by the lines of fresh validations in order (`Validation.getElem?_runAll`).

A stream is validated as the source in it (`Stream.value_run`), so the main result is about scans
and scripts.
-/

namespace TokenAudit

open TokenSource

namespace Validation

section

variable {σ : Type} [FiniteSource σ]

/-- A validation adds the same lines to every sink of lines. -/
theorem lines_run (s : σ) (trace : TraceLines) :
    (run s trace).value.sink.lines.toList =
      trace.lines.toList ++ (run s ({} : TraceLines)).value.sink.lines.toList := by
  obtain ⟨content, hstops⟩ := exists_stopsBehind s
  rw [hstops.value_run, hstops.value_run, lines_recordAll, lines_recordAll]
  rfl

variable {κ : Type} [TokenSink κ]

theorem value_runAll_cons (sink : κ) (s : σ) (sources : List σ) :
    (runAll sink (s :: sources)).value =
      (run s sink).value :: (runAll (run s sink).value.sink sources).value := rfl

theorem length_runAll (sink : κ) (sources : List σ) :
    (runAll sink sources).value.length = sources.length := by
  induction sources generalizing sink with
  | nil => rfl
  | cons s sources ih => rw [value_runAll_cons, List.length_cons, List.length_cons, ih]

/-- Every validation in a row does to its source what a fresh one does, and leaves behind the sink
with the lines of fresh validations of all sources up to its own. -/
theorem getElem?_runAll (trace : TraceLines) (earlier : List σ) (s : σ) (later : List σ) :
    ∃ finished, (runAll trace (earlier ++ s :: later)).value[earlier.length]? = some finished ∧
      finished.stream = (run s ({} : TraceLines)).value.stream ∧
      finished.sink.lines.toList = trace.lines.toList ++ (earlier ++ [s]).flatMap
        fun s => (run s ({} : TraceLines)).value.sink.lines.toList := by
  -- The induction is on the validations before, each of which hands on a longer sink.
  induction earlier generalizing trace with
  | nil =>
      refine ⟨(run s trace).value, rfl, stream_run s trace _, ?_⟩
      rw [lines_run, List.nil_append, List.flatMap_singleton]
  | cons first earlier ih =>
      obtain ⟨finished, hfinished, hstream, hlines⟩ := ih (run first trace).value.sink
      refine ⟨finished, ?_, hstream, ?_⟩
      · rw [List.cons_append, value_runAll_cons, List.length_cons, List.getElem?_cons_succ,
          hfinished]
      · rw [hlines, lines_run, List.cons_append, List.flatMap_cons, List.append_assoc]

end

/-! ### A source in another -/

/-- What a validation leaves behind, with the source put into another. -/
def Finished.inside {σ τ κ : Type} (f : σ → τ) (finished : Finished σ κ) : Finished τ κ :=
  ⟨finished.result, f finished.source, finished.sink⟩

variable {σ τ κ : Type} [FiniteSource σ] [FiniteSource τ] [TokenSink κ] {f : σ → τ}

theorem stateAfter_inside (hnext : ∀ s, next (f s) = f (next s)) (n : Nat) (s : σ) :
    stateAfter n (f s) = f (stateAfter n s) := by
  induction n generalizing s with
  | zero => rfl
  | succ n ih => rw [stateAfter_succ, hnext, ih, stateAfter_succ]

/-- A source that is pulled through another is validated as by itself. -/
theorem value_run_inside (hanswer : ∀ s, answer (f s) = answer s)
    (hnext : ∀ s, next (f s) = f (next s)) (s : σ) (sink : κ) :
    (run (f s) sink).value = (run s sink).value.inside f := by
  have halike (n : Nat) : Alike (answerAt n (f s)) (answerAt n s) := by
    apply Alike.of_eq
    rw [answerAt, stateAfter_inside hnext, hanswer, answerAt]
  obtain ⟨result, pulls, recorded, houter, hinner⟩ := exists_run_of_alike halike sink
  rw [houter, hinner, stateAfter_inside hnext]
  rfl

end Validation

namespace Stream

open Validation

/-- What a fresh validation makes of the scan or the script in a stream. -/
def validated : Stream → Finished Stream TraceLines
  | scan inner => (run inner ({} : TraceLines)).value.inside scan
  | script inner => (run inner ({} : TraceLines)).value.inside script

/-- A stream is validated as the source in it. -/
theorem value_run (stream : Stream) : (run stream ({} : TraceLines)).value = stream.validated := by
  cases stream with
  | scan inner => exact value_run_inside (f := scan) (fun _ => rfl) (fun _ => rfl) inner _
  | script inner => exact value_run_inside (f := script) (fun _ => rfl) (fun _ => rfl) inner _

end Stream

namespace Validation

/-- Validations of scans and scripts one after the other, with one sink of lines, come to what fresh
validations come to and leave the same sources behind.  The sink grows by the lines of the fresh
validations in order.  These are the lines of the content that each of them reads, also where it
ends in a rejection or a fault, and only the texts of that content are listed. -/
theorem successive_runs_are_independent (trace : TraceLines) (streams : List Stream) :
    (runAll trace streams).value.length = streams.length ∧
    ∀ earlier stream later, streams = earlier ++ stream :: later →
      ∃ finished content, (runAll trace streams).value[earlier.length]? = some finished ∧
        finished.result = stream.validated.result ∧
        finished.source = stream.validated.source ∧
        finished.sink.lines.toList = trace.lines.toList ++
          (earlier ++ [stream]).flatMap (fun stream => stream.validated.sink.lines.toList) ∧
        StopsBehind stream content ∧
        stream.validated.sink.lines.toList = content.map Token.render ∧
        ∀ listing, finished.result = .ok (.accepted listing) →
          listing.toList = content.map Token.text := by
  refine ⟨length_runAll trace streams, ?_⟩
  rintro earlier stream later rfl
  obtain ⟨finished, hfinished, hstream, hlines⟩ := getElem?_runAll trace earlier stream later
  obtain ⟨content, hstops⟩ := exists_stopsBehind stream
  simp only [Stream.value_run] at hstream hlines
  have hresult : finished.result = stream.validated.result := congrArg Prod.fst hstream
  have hfresh := hstops.value_run ({} : TraceLines)
  rw [Stream.value_run] at hfresh
  refine ⟨finished, content, hfinished, hresult, congrArg Prod.snd hstream, hlines, hstops, ?_,
    fun listing haccepted => ?_⟩
  · rw [hfresh, lines_recordAll]
    rfl
  · rw [hresult, hfresh] at haccepted
    exact Decision.toList_of_accepted haccepted

end Validation

end TokenAudit
