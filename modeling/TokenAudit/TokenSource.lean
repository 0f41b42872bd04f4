import TokenAudit.Log.Logged

/-!
# Token sources

A token source answers every pull with a token or a fault and can be closed.  It is given by its
states: `pull` returns the answer together with the state after it, and `stateAfter` and `answerAt`
follow the source through any number of pulls.

A source is finite when it can hand out only so many tokens before the end of the stream: a bound on
what is still to come falls with every one of them.
-/

namespace TokenAudit

/-- A source of tokens with states in `σ`. -/
class TokenSource (σ : Type) where
  /-- One pull: the answer and the source after it. -/
  pull : σ → Logged (Except Fault Token × σ)
  /-- Gives up the rest of the input. -/
  close : σ → σ
  /-- The position of the token pulled last. -/
  position : σ → Position

namespace TokenSource

variable {σ : Type} [TokenSource σ]

/-- What a pull answers. -/
def answer (s : σ) : Except Fault Token := (pull s).value.1

/-- The source after a pull. -/
def next (s : σ) : σ := (pull s).value.2

/-- The source after some pulls. -/
def stateAfter : Nat → σ → σ
  | 0, s => s
  | n + 1, s => stateAfter n (next s)

/-- The answer of a pull, counted from zero. -/
def answerAt (n : Nat) (s : σ) : Except Fault Token := answer (stateAfter n s)

end TokenSource

/-- An answer that lets a validation go on: neither a fault nor the end nor an error. -/
def isContentAnswer : Except Fault Token → Bool
  | .ok token => token.isContent
  | .error _ => false

/-- An answer after which a source has nothing to hand out: a fault or the end of the stream. -/
def isLastAnswer : Except Fault Token → Bool
  | .ok token => token.isEof
  | .error _ => true

/-- Content is not the last answer. -/
theorem isLastAnswer_of_isContentAnswer {answer : Except Fault Token}
    (h : isContentAnswer answer = true) : isLastAnswer answer = false := by
  cases answer with
  | error fault => simp [isContentAnswer] at h
  | ok token =>
    simp only [isContentAnswer, Token.isContent, Kind.isContent, Bool.and_eq_true,
      Bool.not_eq_true'] at h
    exact h.1

/-- A source that comes to its end: every token but the end of the stream lowers a bound on what is
still to come. -/
class FiniteSource (σ : Type) extends TokenSource σ where
  /-- A bound on the tokens still to come. -/
  remaining : σ → Nat
  remaining_next : ∀ s : σ, isLastAnswer (TokenSource.answer s) = false →
    remaining (TokenSource.next s) < remaining s

namespace FiniteSource

/-- Pulls through the first fault or end of the stream, and gives all answers. -/
def pullAll {σ : Type} [FiniteSource σ] (s : σ) : Logged (List (Except Fault Token)) :=
  let pulled := TokenSource.pull s
  if _h : isLastAnswer pulled.value.1 = true then ⟨[pulled.value.1], pulled.events⟩
  else
    let rest := pullAll pulled.value.2
    ⟨pulled.value.1 :: rest.value, pulled.events ++ rest.events⟩
termination_by remaining s
decreasing_by exact remaining_next s (Bool.not_eq_true _ ▸ _h)

end FiniteSource

end TokenAudit
