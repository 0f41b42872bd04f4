import TokenAudit.Proofs.Watching

/-!
# How streams are decided

A stream is decided by the first answer of its source that is no content and, if that is the end, by
the answer behind it.  `Decision.on` is the whole table: which result they give, after how many
pulls, and what the log tells of them.

Every finite source delivers some content and then answers something else
(`Validation.exists_stopsBehind`), and its validation comes to the decision on those two answers
(`Validation.StopsBehind.value_run`).
-/

namespace TokenAudit

namespace Log

/-- What the log shows of an event, apart from the component that tells it. -/
structure Entry where
  severity : Severity
  message : String
  fields : List (String × Value) := []
  deriving DecidableEq, Repr

/-- The entry of an event. -/
def Event.entry (event : Event) : Entry := ⟨event.severity, event.message, event.fields⟩

namespace Entry

/-- A token was pulled in order to be judged. -/
def pulled (t : Token) : Entry :=
  ⟨.trace, "pulled", [("kind", .text t.kind.name), ("line", .number t.position.line),
    ("column", .number t.position.column)]⟩

/-- Content was recorded. -/
def accepted (t : Token) : Entry := ⟨.debug, "accepted " ++ t.render, []⟩

/-- The stream was accepted with so many texts. -/
def streamAccepted (count : Nat) : Entry :=
  ⟨.info, "token stream accepted", [("tokens", .number count)]⟩

/-- The stream was rejected at a token. -/
def streamRejected (why : String) (t : Token) : Entry :=
  ⟨.info, "token stream rejected: " ++ why, [("kind", .text t.kind.name),
    ("line", .number t.position.line), ("column", .number t.position.column)]⟩

end Entry

end Log

namespace Validation

open TokenSource

/-- How a stream is decided: the result, the number of pulls that it takes, and the entries that
tell of it. -/
structure Decision where
  result : Except Fault Verdict
  pulls : Nat
  entries : List Log.Entry

/-- The decision on a stream with these texts listed, given the first answer that is no content and
the answer behind it.  Behind a fault or an error nothing is looked at. -/
def Decision.on (texts : List String) (first behind : Except Fault Token) : Decision :=
  match first with
  | .error fault => ⟨.error fault, 1, []⟩
  | .ok t =>
    if t.isError then
      ⟨.ok .rejected, 1, [.pulled t, .streamRejected "lexical error" t]⟩
    else match behind with
      | .error fault => ⟨.error fault, 2, [.pulled t]⟩
      | .ok u =>
        if u.isEof then
          ⟨.ok (.accepted (.ofList texts)), 2, [.pulled t, .streamAccepted texts.length]⟩
        else
          ⟨.ok .rejected, 2, [.pulled t, .streamRejected "content after end of stream" u]⟩

/-- A stream is accepted with the texts listed, all of them and no others. -/
theorem Decision.toList_of_accepted {texts : List String} {first behind : Except Fault Token}
    {listing : Listing} (h : (on texts first behind).result = .ok (.accepted listing)) :
    listing.toList = texts := by
  revert h
  fun_cases on texts first behind with
  | case4 t herror u heof =>
      intro h
      rw [← Verdict.accepted.inj (Except.ok.inj h), Listing.toList_ofList]
  | case1 | case2 | case3 | case5 => intro h; cases h

/-- No ending takes more than two pulls. -/
theorem Ending.pulls_le {σ : Type} [TokenSource σ] {s : σ} {listing : Listing}
    {result : Except Fault Verdict} {pulls : Nat} (h : Ending s listing result pulls) :
    pulls ≤ 2 := by
  cases h with
  | fault | lexicalError => exact Nat.le_succ 1
  | behindEnd => exact Nat.le_refl 2

/-- A stream whose next answer is no content ends with the decision on it and the answer behind
it. -/
theorem ending_of_decision {σ : Type} [TokenSource σ] {s : σ}
    (h : isContentAnswer (answerAt 0 s) = false) (texts : List String) :
    Ending s (.ofList texts) (Decision.on texts (answerAt 0 s) (answerAt 1 s)).result
      (Decision.on texts (answerAt 0 s) (answerAt 1 s)).pulls := by
  cases hfirst : answerAt 0 s with
  | error fault => exact .fault hfirst
  | ok t =>
      rw [hfirst] at h
      cases herror : t.isError with
      | true =>
          simp only [Decision.on, herror, if_true]
          exact .lexicalError hfirst herror
      | false =>
          have hending : Ending s (.ofList texts) _ 2 :=
            .behindEnd hfirst (isEof_of_not_isContent h herror)
          cases hbehind : answerAt 1 s with
          | error fault => simpa [Decision.on, herror, hbehind, resultBehindEnd] using hending
          | ok u =>
              cases heof : u.isEof with
              | true => simpa [Decision.on, herror, hbehind, heof, resultBehindEnd] using hending
              | false => simpa [Decision.on, herror, hbehind, heof, resultBehindEnd] using hending

/-! ### The content that is read -/

/-- A source delivers some content and then answers something else. -/
structure StopsBehind {σ : Type} [TokenSource σ] (s : σ) (content : List Token) : Prop where
  delivers : Delivers s content
  isContent_of_mem : ∀ t ∈ content, t.isContent = true
  stop : isContentAnswer (answerAt content.length s) = false

/-- The decision on a source behind some content. -/
def decision {σ : Type} [TokenSource σ] (s : σ) (content : List Token) : Decision :=
  .on (content.map Token.text) (answerAt content.length s) (answerAt (content.length + 1) s)

theorem StopsBehind.ending {σ : Type} [TokenSource σ] {s : σ} {content : List Token}
    (h : StopsBehind s content) :
    Ending (stateAfter content.length s) (.ofList (content.map Token.text))
      (decision s content).result (decision s content).pulls := by
  have hending := ending_of_decision (s := stateAfter content.length s)
    (by rw [answerAt_stateAfter]; exact h.stop) (content.map Token.text)
  rwa [answerAt_stateAfter, answerAt_stateAfter] at hending

/-- The content that a source stops behind is unique. -/
theorem StopsBehind.unique {σ : Type} [TokenSource σ] {s : σ} {content others : List Token}
    (h : StopsBehind s content) (hothers : StopsBehind s others) : content = others := by
  -- The shorter one would be followed by content of the longer one.
  have hlonger {a b : List Token} (ha : StopsBehind s a) (hb : StopsBehind s b) :
      ¬ a.length < b.length := by
    intro hless
    have hstop := ha.stop
    have hcontent := hb.isContent_of_mem _ (List.getElem_mem hless)
    rw [hb.delivers _ hless, isContentAnswer, hcontent] at hstop
    cases hstop
  have hlength : content.length = others.length :=
    Nat.le_antisymm (Nat.le_of_not_lt (hlonger hothers h)) (Nat.le_of_not_lt (hlonger h hothers))
  refine List.ext_getElem hlength fun i hi hi' => ?_
  have hsame := (h.delivers i hi).symm.trans (hothers.delivers i hi')
  exact Except.ok.inj hsame

variable {σ κ : Type} [FiniteSource σ] [TokenSink κ] {s : σ} {content : List Token}

theorem exists_stopsBehind (s : σ) : ∃ content, StopsBehind s content := by
  obtain ⟨content, result, pulls, hdelivers, hcontent, hending⟩ := exists_ending s .empty
  refine ⟨content, hdelivers, hcontent, ?_⟩
  rw [← Nat.add_zero content.length, ← answerAt_stateAfter]
  cases hending with
  | fault hfirst => rw [hfirst, isContentAnswer]
  | lexicalError hfirst herror =>
      rw [hfirst, isContentAnswer, ← Bool.not_eq_true, isContent_iff, herror]
      simp
  | behindEnd hfirst heof =>
      rw [hfirst, isContentAnswer, ← Bool.not_eq_true, isContent_iff, heof]
      simp

/-- The validation of a source that stops behind some content records that content and comes to the
decision on what stands behind it. -/
theorem StopsBehind.value_run (h : StopsBehind s content) (sink : κ) :
    (run s sink).value = ⟨(decision s content).result,
      stateAfter (content.length + (decision s content).pulls) s,
      (TokenSink.recordAll sink content).value⟩ :=
  value_run_of_delivers h.delivers h.isContent_of_mem h.ending

end Validation

end TokenAudit
