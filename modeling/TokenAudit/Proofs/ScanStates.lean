import TokenAudit.Proofs.TokenSequence

/-!
# The states of a scan

However often a scan is pulled and whenever it is closed, one part of its text is read and the rest
is ahead, or nothing is left to scan.  `Scan.StandsIn` is that invariant.  It holds of a new scan and
is kept by both calls, and in every state that has it the scan hands out some tokens and then the end
of its text for ever.
-/

namespace TokenAudit

namespace TokenSource

variable {σ : Type} [TokenSource σ]

/-- What can be done with a source. -/
inductive Call where
  | pull
  | close
  deriving DecidableEq, Repr

/-- The source after one call. -/
def afterCall (s : σ) : Call → σ
  | .pull => next s
  | .close => close s

/-- The source after calls in order. -/
def afterCalls (s : σ) (calls : List Call) : σ := calls.foldl afterCall s

end TokenSource

namespace Scan

/-- Where a scan of a text stands: it reads the text, or it is exhausted. -/
inductive StandsIn (text : List Char) (scan : Scan) : Prop
  | reading {before ahead : List Char} : scan.Reads before ahead → scan.text = text →
      StandsIn text scan
  | exhausted : scan.cursor? = none → scan.stop = Position.start.after text → StandsIn text scan

variable {text : List Char} {scan : Scan}

theorem standsIn_ofText (text : List Char) : (ofText text).StandsIn text :=
  .reading (reads_ofText text) rfl

theorem StandsIn.stop_eq (h : scan.StandsIn text) : scan.stop = Position.start.after text := by
  cases h with
  | reading hreads htext => rw [hreads.stop_eq, htext]
  | exhausted _ hstop => exact hstop

theorem StandsIn.close (h : scan.StandsIn text) : scan.close.StandsIn text :=
  .exhausted rfl h.stop_eq

theorem StandsIn.next (h : scan.StandsIn text) : (TokenSource.next scan).StandsIn text := by
  have hstop := h.stop_eq
  cases h with
  | exhausted hcursor _ =>
      have hnext : TokenSource.next scan = scan.atEnd :=
        congrArg Prod.snd (value_pull_of_exhausted hcursor)
      rw [hnext]
      exact .exhausted rfl hstop
  | @reading before ahead hreads htext =>
      cases hcut : Cut.first? ahead with
      | none =>
          have hnext : TokenSource.next scan = scan.atEnd :=
            congrArg Prod.snd (hreads.value_pull_of_none hcut)
          rw [hnext]
          exact .exhausted rfl hstop
      | some cut =>
          obtain ⟨next, hpull, hafter, -⟩ := hreads.value_pull_of_some hcut
          have hnext : TokenSource.next scan = next := congrArg Prod.snd hpull
          -- What was ahead is the gap, the lexeme and the rest, so the text is the same.
          have hsame : next.text = text := by
            rw [hafter.text_eq, ← htext, hreads.text_eq, ← Cut.append_of_first? hcut]
            simp only [List.append_assoc]
          rw [hnext]
          exact .reading hafter hsame

theorem standsIn_afterCalls (text : List Char) (calls : List TokenSource.Call) :
    (TokenSource.afterCalls (ofText text) calls).StandsIn text := by
  have hkept : ∀ scan : Scan, scan.StandsIn text →
      (TokenSource.afterCalls scan calls).StandsIn text := by
    induction calls with
    | nil => exact fun scan h => h
    | cons call calls ih =>
        intro scan h
        cases call with
        | pull => exact ih _ h.next
        | close => exact ih _ h.close
  exact hkept _ (standsIn_ofText text)

/-- In every state, a scan hands out tokens before the end and then the end of its text. -/
theorem StandsIn.exists_handsOut (h : scan.StandsIn text) :
    ∃ tokens, (∀ t ∈ tokens, t.isEof = false) ∧
      TokenSource.HandsOut scan tokens (Position.start.after text) := by
  have hstop := h.stop_eq
  cases h with
  | exhausted hcursor _ =>
      have hands := handsOut_of_exhausted hcursor
      rw [hstop] at hands
      exact ⟨[], by simp, hands⟩
  | reading hreads _ =>
      have hands := hreads.handsOut
      rw [hstop] at hands
      exact ⟨_, fun _ ht => isEof_of_mem_tokensFrom ht, hands⟩

/-- What a pull of a scan tells is that it found a token or came to the end. -/
theorem mem_events_pull {event : Log.Event} (h : event ∈ scan.pull.events) :
    (∃ t, event = .scanned t) ∨ ∃ stop, event = .scanEnded stop := by
  unfold pull at h
  split at h
  · simp at h
  · split at h
    · exact .inr ⟨scan.stop, by simpa using h⟩
    · exact .inl ⟨_, by simpa using h⟩

end Scan

end TokenAudit
