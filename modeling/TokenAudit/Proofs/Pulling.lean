import Mathlib.Data.List.Basic
import TokenAudit.TokenSource

/-!
# Pulling from a token source

What a source answers from a state on, pull by pull.  `Delivers` says that a source hands out given
tokens with its next pulls; `Counted` is a source that counts its pulls, whatever it is made of.
-/

namespace TokenAudit

namespace TokenSource

variable {σ : Type} [TokenSource σ]

@[simp] theorem stateAfter_zero (s : σ) : stateAfter 0 s = s := rfl

theorem stateAfter_succ (n : Nat) (s : σ) : stateAfter (n + 1) s = stateAfter n (next s) := rfl

theorem stateAfter_add (m n : Nat) (s : σ) :
    stateAfter (m + n) s = stateAfter n (stateAfter m s) := by
  induction m generalizing s with
  | zero => rw [Nat.zero_add, stateAfter_zero]
  | succ m ih => rw [Nat.succ_add, stateAfter_succ, ih, stateAfter_succ]

theorem answerAt_succ (n : Nat) (s : σ) : answerAt (n + 1) s = answerAt n (next s) := rfl

theorem answerAt_stateAfter (m n : Nat) (s : σ) :
    answerAt m (stateAfter n s) = answerAt (n + m) s := by
  rw [answerAt, answerAt, stateAfter_add]

/-- The next pulls of a source hand out these tokens, one a pull. -/
def Delivers (s : σ) (tokens : List Token) : Prop :=
  ∀ i, (h : i < tokens.length) → answerAt i s = .ok tokens[i]

theorem delivers_nil (s : σ) : Delivers s [] := fun _ h => absurd h (Nat.not_lt_zero _)

/-- A source delivers the first token now and the others from the next state on. -/
theorem delivers_cons_iff {s : σ} {t : Token} {tokens : List Token} :
    Delivers s (t :: tokens) ↔ answer s = .ok t ∧ Delivers (next s) tokens := by
  constructor
  · intro h
    refine ⟨h 0 (Nat.zero_lt_succ _), fun i hi => ?_⟩
    exact h (i + 1) (Nat.succ_lt_succ hi)
  · rintro ⟨hfirst, hrest⟩ i hi
    cases i with
    | zero => exact hfirst
    | succ i => exact hrest i (Nat.lt_of_succ_lt_succ hi)

theorem Delivers.of_append {s : σ} {tokens rest : List Token} (h : Delivers s (tokens ++ rest)) :
    Delivers s tokens := by
  intro i hi
  have hlength : i < (tokens ++ rest).length := by
    rw [List.length_append]
    omega
  rw [h i hlength, List.getElem_append_left hi]

/-- The next pulls of a source hand out these tokens, one a pull, and every pull behind them answers
the end of the stream at a position. -/
def HandsOut (s : σ) (tokens : List Token) (stop : Position) : Prop :=
  ∀ n, answerAt n s = .ok (tokens[n]?.getD (.eof stop))

variable {s : σ} {tokens : List Token} {stop : Position}

theorem HandsOut.delivers (h : HandsOut s tokens stop) : Delivers s tokens := by
  intro i hi
  rw [h, List.getElem?_eq_getElem hi]
  rfl

/-- Some pulls later, a source hands out what is left then. -/
theorem HandsOut.stateAfter (h : HandsOut s tokens stop) (n : Nat) :
    HandsOut (stateAfter n s) (tokens.drop n) stop := by
  intro m
  rw [answerAt_stateAfter, h, List.getElem?_drop]

end TokenSource

namespace FiniteSource

open TokenSource

variable {σ : Type} [FiniteSource σ]

theorem value_pullAll_of_last {s : σ} (h : isLastAnswer (answer s) = true) :
    (pullAll s).value = [answer s] := by
  rw [pullAll]
  exact congrArg Logged.value (dif_pos h)

theorem value_pullAll_of_not_last {s : σ} (h : isLastAnswer (answer s) = false) :
    (pullAll s).value = answer s :: (pullAll (next s)).value := by
  rw [pullAll]
  exact congrArg Logged.value (dif_neg (by rw [show (pull s).value.1 = answer s from rfl, h]; simp))

/-- Tokens before the end use up the bound of a source. -/
theorem length_add_remaining_le {s : σ} {tokens : List Token} (h : Delivers s tokens)
    (htokens : ∀ t ∈ tokens, t.isEof = false) :
    tokens.length + remaining (stateAfter tokens.length s) ≤ remaining s := by
  induction tokens generalizing s with
  | nil => simp
  | cons t tokens ih =>
      obtain ⟨hfirst, hrest⟩ := delivers_cons_iff.1 h
      rw [List.forall_mem_cons] at htokens
      have hgoes : isLastAnswer (answer s) = false := by
        rw [hfirst]
        exact htokens.1
      have hless := remaining_next s hgoes
      have hlater := ih hrest htokens.2
      rw [List.length_cons, stateAfter_succ]
      omega

/-- The answers of a source that hands out tokens and then gives its last answer. -/
theorem value_pullAll_of_delivers {s : σ} {tokens : List Token} (h : Delivers s tokens)
    (htokens : ∀ t ∈ tokens, t.isEof = false)
    (hlast : isLastAnswer (answerAt tokens.length s) = true) :
    (pullAll s).value = tokens.map .ok ++ [answerAt tokens.length s] := by
  induction tokens generalizing s with
  | nil => exact value_pullAll_of_last hlast
  | cons t tokens ih =>
      obtain ⟨hfirst, hrest⟩ := delivers_cons_iff.1 h
      have hgoes : isLastAnswer (answer s) = false := by
        rw [hfirst]
        exact htokens t (List.mem_cons_self ..)
      rw [value_pullAll_of_not_last hgoes, hfirst,
        ih hrest (fun u hu => htokens u (List.mem_cons_of_mem _ hu)) hlast]
      rfl

theorem value_pullAll_of_handsOut {s : σ} {tokens : List Token} {stop : Position}
    (h : HandsOut s tokens stop) (htokens : ∀ t ∈ tokens, t.isEof = false) :
    (pullAll s).value = (tokens ++ [Token.eof stop]).map .ok := by
  have hlast : answerAt tokens.length s = .ok (.eof stop) := by
    rw [h, List.getElem?_eq_none (Nat.le_refl _)]
    rfl
  rw [value_pullAll_of_delivers h.delivers htokens (by rw [hlast]; rfl), hlast, List.map_append]
  rfl

end FiniteSource

/-- A source with the number of pulls made so far. -/
structure Counted (σ : Type) where
  source : σ
  pulls : Nat := 0

namespace Counted

open TokenSource

variable {σ : Type} [TokenSource σ]

/-- A counted source answers as the source does. -/
instance : TokenSource (Counted σ) where
  pull counted := do
    let (answer, source) ← TokenSource.pull counted.source
    return (answer, ⟨source, counted.pulls + 1⟩)
  close counted := { counted with source := TokenSource.close counted.source }
  position counted := TokenSource.position counted.source

@[simp] theorem answer_eq (counted : Counted σ) : answer counted = answer counted.source := rfl

@[simp] theorem next_eq (counted : Counted σ) :
    next counted = ⟨next counted.source, counted.pulls + 1⟩ := rfl

/-- Every pull counts once. -/
theorem stateAfter_eq (n : Nat) (counted : Counted σ) :
    stateAfter n counted = ⟨stateAfter n counted.source, counted.pulls + n⟩ := by
  induction n generalizing counted with
  | zero => rfl
  | succ n ih =>
      rw [stateAfter_succ, ih, next_eq, stateAfter_succ]
      simp only [Nat.add_assoc, Nat.add_comm 1 n]

@[simp] theorem answerAt_eq (n : Nat) (counted : Counted σ) :
    answerAt n counted = answerAt n counted.source := by
  rw [answerAt, answerAt, stateAfter_eq, answer_eq]

end Counted

end TokenAudit
