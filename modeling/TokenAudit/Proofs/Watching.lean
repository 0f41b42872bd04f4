import TokenAudit.Proofs.ValidationRun

/-!
# Sources that are watched

A validation looks at nothing of its source but the answers, and of an end of the stream not even at
its position.  So two sources that answer alike are validated alike, with as many pulls
(`Validation.exists_run_of_alike`).

A watched source answers as the source in it does and keeps every answer.  It shows which pulls are
made in a session, also those inside of validations.
-/

namespace TokenAudit

open TokenSource

/-- Answers between which no validation sees a difference: the same answer, or two ends of the
stream. -/
inductive Alike : Except Fault Token → Except Fault Token → Prop
  | same (answer : Except Fault Token) : Alike answer answer
  | ends {t u : Token} : t.isEof = true → u.isEof = true → Alike (.ok t) (.ok u)

theorem Alike.of_eq {answer other : Except Fault Token} (h : answer = other) :
    Alike answer other := h ▸ .same answer

theorem Alike.eq_of_isContent {t : Token} {answer : Except Fault Token} (h : Alike (.ok t) answer)
    (hcontent : t.isContent = true) : answer = .ok t := by
  cases h with
  | same => rfl
  | ends heof _ =>
      rw [(Validation.isContent_iff.1 hcontent).2] at heof
      cases heof

namespace Validation

section

variable {σ τ : Type} [TokenSource σ] [TokenSource τ] {s : σ} {s' : τ}

theorem resultBehindEnd_of_alike {answer other : Except Fault Token} (h : Alike answer other)
    (listing : Listing) : resultBehindEnd listing answer = resultBehindEnd listing other := by
  cases h with
  | same => rfl
  | ends heof heof' => simp only [resultBehindEnd, heof, heof']

/-- An ending is one of every source that answers alike. -/
theorem Ending.of_alike {listing : Listing} {result : Except Fault Verdict} {pulls : Nat}
    (h : Ending s listing result pulls) (halike : ∀ n, Alike (answerAt n s) (answerAt n s')) :
    Ending s' listing result pulls := by
  have hfirst' := halike 0
  cases h with
  | fault hfirst =>
      rw [hfirst] at hfirst'
      cases hanswer : answerAt 0 s' with
      | error fault =>
          rw [hanswer] at hfirst'
          cases hfirst'
          exact .fault hanswer
      | ok t =>
          rw [hanswer] at hfirst'
          cases hfirst'
  | lexicalError hfirst herror =>
      rw [hfirst] at hfirst'
      generalize hanswer : answerAt 0 s' = answer at hfirst'
      cases hfirst' with
      | same => exact .lexicalError hanswer herror
      | ends heof _ =>
          rw [isError_of_isEof heof] at herror
          cases herror
  | behindEnd hfirst heof =>
      rw [resultBehindEnd_of_alike (halike 1)]
      rw [hfirst] at hfirst'
      generalize hanswer : answerAt 0 s' = answer at hfirst'
      cases hfirst' with
      | same => exact .behindEnd hanswer heof
      | ends _ heof' => exact .behindEnd hanswer heof'

end

section

variable {σ : Type} [FiniteSource σ]

/-- A finite source delivers some content and then comes to an ending. -/
theorem exists_ending (s : σ) (listing : Listing) :
    ∃ tokens result pulls, Delivers s tokens ∧ (∀ t ∈ tokens, t.isContent = true) ∧
      Ending (stateAfter tokens.length s) (listAll listing tokens) result pulls := by
  -- Every content token lowers what is still to come.
  induction hremaining : FiniteSource.remaining s using Nat.strong_induction_on
    generalizing s listing with
  | _ n ih =>
      rcases content_or_ending s listing with ⟨t, hanswer, hcontent⟩ | ⟨result, pulls, hending⟩
      · have hgoes : isLastAnswer (answer s) = false := by
          rw [hanswer]
          exact (isContent_iff.1 hcontent).2
        have hless := FiniteSource.remaining_next s hgoes
        obtain ⟨tokens, result, pulls, hdelivers, hall, hending⟩ :=
          ih _ (hremaining ▸ hless) (next s) (listing.push t.text) rfl
        exact ⟨t :: tokens, result, pulls, delivers_cons_iff.2 ⟨hanswer, hdelivers⟩,
          List.forall_mem_cons.2 ⟨hcontent, hall⟩, hending⟩
      · exact ⟨[], result, pulls, delivers_nil s, List.forall_mem_nil _, hending⟩

variable {τ κ : Type} [FiniteSource τ] [TokenSink κ]

/-- Sources that answer alike are validated to the same result and the same record, with the same
number of pulls and nothing else done to either of them. -/
theorem exists_run_of_alike {s : σ} {s' : τ}
    (h : ∀ n, Alike (answerAt n s) (answerAt n s')) (sink : κ) :
    ∃ result pulls recorded, (run s sink).value = ⟨result, stateAfter pulls s, recorded⟩ ∧
      (run s' sink).value = ⟨result, stateAfter pulls s', recorded⟩ := by
  obtain ⟨tokens, result, pulls, hdelivers, hcontent, hending⟩ := exists_ending s .empty
  have hdelivers' : Delivers s' tokens := by
    intro i hi
    have halike := h i
    rw [hdelivers i hi] at halike
    exact halike.eq_of_isContent (hcontent _ (List.getElem_mem hi))
  rw [listAll_empty] at hending
  have hending' : Ending (stateAfter tokens.length s') (.ofList (tokens.map Token.text)) result
      pulls := by
    refine hending.of_alike fun n => ?_
    rw [answerAt_stateAfter, answerAt_stateAfter]
    exact h _
  exact ⟨_, _, _, value_run_of_delivers hdelivers hcontent hending,
    value_run_of_delivers hdelivers' hcontent hending'⟩

end

end Validation

/-- A source with all answers that it has given. -/
structure Watched (σ : Type) where
  source : σ
  answers : List (Except Fault Token) := []

namespace Watched

/-- A watched source answers as the source does. -/
instance {σ : Type} [TokenSource σ] : TokenSource (Watched σ) where
  pull watched := do
    let (answer, source) ← TokenSource.pull watched.source
    return (answer, ⟨source, watched.answers ++ [answer]⟩)
  close watched := { watched with source := TokenSource.close watched.source }
  position watched := TokenSource.position watched.source

instance {σ : Type} [FiniteSource σ] : FiniteSource (Watched σ) where
  remaining watched := FiniteSource.remaining watched.source
  remaining_next watched h := FiniteSource.remaining_next watched.source h

variable {σ : Type} [TokenSource σ]

theorem next_eq (watched : Watched σ) :
    next watched = ⟨next watched.source, watched.answers ++ [answer watched.source]⟩ := rfl

theorem source_stateAfter (n : Nat) (watched : Watched σ) :
    (stateAfter n watched).source = stateAfter n watched.source := by
  induction n generalizing watched with
  | zero => rfl
  | succ n ih => exact ih (next watched)

theorem answerAt_eq (n : Nat) (watched : Watched σ) :
    answerAt n watched = answerAt n watched.source := by
  show answer (stateAfter n watched).source = _
  rw [source_stateAfter]
  rfl

end Watched

/-! ### Sessions with validations -/

/-- What can be done with a source that comes to its end.  Every validation gets a sink. -/
inductive Use (κ : Type) where
  | pull
  | close
  | validate (sink : κ)
  | consume (sink : κ)

namespace Use

variable {κ : Type}

/-- Whether a source is closed in the end. -/
def closes : Use κ → Bool
  | pull | validate _ => false
  | close | consume _ => true

variable {σ : Type} [FiniteSource σ] [TokenSink κ]

/-- The source after one use. -/
def after (s : σ) : Use κ → σ
  | pull => next s
  | close => TokenSource.close s
  | validate sink => (Validation.run s sink).value.source
  | consume sink => (Validation.consume s sink).value.source

/-- The source after some uses in order. -/
def afterAll (s : σ) (uses : List (Use κ)) : σ := uses.foldl after s

/-- A use is some pulls, and a close behind them if it closes the source. -/
theorem exists_pulls (s : σ) (use : Use κ) :
    ∃ n, use.after s =
      if use.closes then TokenSource.close (stateAfter n s) else stateAfter n s := by
  have hrun (sink : κ) : ∃ n, (Validation.run s sink).value.source = stateAfter n s := by
    obtain ⟨result, pulls, recorded, hvalue, -⟩ :=
      Validation.exists_run_of_alike (fun n => Alike.same (answerAt n s)) sink
    exact ⟨pulls, by rw [hvalue]⟩
  cases use with
  | pull => exact ⟨1, rfl⟩
  | close => exact ⟨0, rfl⟩
  | validate sink => exact hrun sink
  | consume sink =>
      obtain ⟨n, hn⟩ := hrun sink
      exact ⟨n, congrArg TokenSource.close hn⟩

/-- What pulls and closes keep is kept by every session. -/
theorem afterAll_invariant {motive : σ → Prop} (hnext : ∀ s, motive s → motive (next s))
    (hclose : ∀ s, motive s → motive (TokenSource.close s)) {s : σ} (h : motive s)
    (uses : List (Use κ)) : motive (afterAll s uses) := by
  have hpulls (n : Nat) : ∀ s, motive s → motive (stateAfter n s) := by
    induction n with
    | zero => exact fun s h => h
    | succ n ih => exact fun s h => ih _ (hnext s h)
  induction uses generalizing s with
  | nil => exact h
  | cons use uses ih =>
      refine ih ?_
      obtain ⟨n, hn⟩ := exists_pulls s use
      rw [hn]
      split
      · exact hclose _ (hpulls n s h)
      · exact hpulls n s h

/-- Watching a source does not change what is done to it. -/
theorem source_afterAll (watched : Watched σ) (uses : List (Use κ)) :
    (afterAll watched uses).source = afterAll watched.source uses := by
  have hone (watched : Watched σ) (use : Use κ) :
      (use.after watched).source = use.after watched.source := by
    have hrun (sink : κ) : (Validation.run watched sink).value.source.source =
        (Validation.run watched.source sink).value.source := by
      obtain ⟨result, pulls, recorded, hwatched, hsource⟩ := Validation.exists_run_of_alike
        (fun n => Alike.of_eq (Watched.answerAt_eq n watched)) sink
      rw [hwatched, hsource]
      exact Watched.source_stateAfter pulls watched
    cases use with
    | pull => rfl
    | close => rfl
    | validate sink => exact hrun sink
    | consume sink => exact congrArg TokenSource.close (hrun sink)
  induction uses generalizing watched with
  | nil => rfl
  | cons use uses ih =>
      show (afterAll (use.after watched) uses).source = afterAll (use.after watched.source) uses
      rw [ih, hone]

end Use

end TokenAudit
