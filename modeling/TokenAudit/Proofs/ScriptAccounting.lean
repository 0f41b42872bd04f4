import Mathlib.Data.List.TakeWhile
import TokenAudit.Proofs.Pulling
import TokenAudit.Script

/-!
# The accounts of a script

A script counts its pulls and loses one token a pull, except that the pull that faults takes no
token.  `tokens_stateAfter` and `answerAt_eq` give the tokens left and the answer after any number
of pulls from the script, the count and the pull that faults.
-/

namespace TokenAudit.Script

open TokenSource

/-- The number of faults, one or none, that so many next pulls meet. -/
def faultsWithin (script : Script) (n : Nat) : Nat :=
  match script.fault? with
  | some (pull, _) => if script.pulls ≤ pull ∧ pull < script.pulls + n then 1 else 0
  | none => 0

theorem faultsWithin_le (script : Script) (n : Nat) : script.faultsWithin n ≤ n := by
  unfold faultsWithin
  split
  · split <;> omega
  · omega

/-- A pull that meets the fault takes no token. -/
theorem pull_of_pendingFault? {script : Script} {message : String}
    (h : script.pendingFault? = some message) :
    script.pull = (.error (.injected message), { script with pulls := script.pulls + 1 }) := by
  simp [pull, h]

/-- Any other pull hands out the next token, or the end at the last position. -/
theorem pull_of_no_fault {script : Script} (h : script.pendingFault? = none) :
    script.pull =
      (.ok (script.tokens.head?.getD (.eof script.position)),
        { script with
          tokens := script.tokens.tail
          pulls := script.pulls + 1
          position := (script.tokens.head?.map Token.position).getD script.position }) := by
  cases htokens : script.tokens <;> simp [pull, h, deliver, htokens]

theorem answer_eq (script : Script) : answer script = script.pull.1 := rfl

theorem next_eq (script : Script) : next script = script.pull.2 := rfl

theorem pendingFault?_eq_some_iff {script : Script} {message : String} :
    script.pendingFault? = some message ↔ script.fault? = some (script.pulls, message) := by
  unfold pendingFault?
  cases hfault : script.fault? with
  | none => simp
  | some fault =>
      obtain ⟨pull, text⟩ := fault
      by_cases hpull : pull = script.pulls
      · simp [hpull]
      · simp [hpull]

/-- A pull adds to the count and changes neither the fault nor whether the script is closed. -/
theorem next_fields (script : Script) :
    (next script).pulls = script.pulls + 1 ∧ (next script).fault? = script.fault? ∧
      (next script).closed = script.closed := by
  rw [next_eq]
  cases h : script.pendingFault? with
  | some message => simp [pull_of_pendingFault? h]
  | none => simp [pull_of_no_fault h]

/-- Every pull counts, and no pull closes the script. -/
theorem stateAfter_fields (n : Nat) (script : Script) :
    (stateAfter n script).pulls = script.pulls + n ∧
      (stateAfter n script).fault? = script.fault? ∧
      (stateAfter n script).closed = script.closed := by
  induction n generalizing script with
  | zero => exact ⟨rfl, rfl, rfl⟩
  | succ n ih =>
      obtain ⟨hpulls, hfault, hclosed⟩ := ih (next script)
      obtain ⟨hpulls', hfault', hclosed'⟩ := next_fields script
      rw [stateAfter_succ]
      exact ⟨by omega, hfault.trans hfault', hclosed.trans hclosed'⟩

/-- The faults of several pulls are that of the first one and those of the others. -/
theorem faultsWithin_succ (script : Script) (n : Nat) :
    script.faultsWithin (n + 1) =
      (if script.pendingFault?.isSome then 1 else 0) + (next script).faultsWithin n := by
  obtain ⟨hpulls, hfault, -⟩ := next_fields script
  unfold faultsWithin pendingFault?
  rw [hpulls, hfault]
  cases script.fault? with
  | none => rfl
  | some fault =>
      obtain ⟨pull, message⟩ := fault
      -- The next pull meets the fault, or the fault is as far ahead for the others.
      by_cases hpull : pull = script.pulls
      · have hlater : ¬(script.pulls + 1 ≤ pull ∧ pull < script.pulls + 1 + n) := by omega
        have hnow : script.pulls ≤ pull ∧ pull < script.pulls + (n + 1) := by omega
        simp only [if_pos hpull, if_neg hlater, if_pos hnow]
        rfl
      · simp only [hpull, if_false, Option.isSome_none, Bool.false_eq_true, Nat.zero_add]
        split <;> split <;> omega

theorem tokens_next (script : Script) :
    (next script).tokens =
      script.tokens.drop (if script.pendingFault?.isSome then 0 else 1) := by
  rw [next_eq]
  cases h : script.pendingFault? with
  | some message => simp [pull_of_pendingFault? h]
  | none => simp [pull_of_no_fault h]

/-- Pulls take one token each, except for the one that faults. -/
theorem tokens_stateAfter (n : Nat) (script : Script) :
    (stateAfter n script).tokens = script.tokens.drop (n - script.faultsWithin n) := by
  induction n generalizing script with
  | zero => rw [Nat.zero_sub, List.drop_zero, stateAfter_zero]
  | succ n ih =>
      have hle := faultsWithin_le (next script) n
      rw [stateAfter_succ, ih, faultsWithin_succ, tokens_next, List.drop_drop]
      congr 1
      split <;> omega

theorem answer_of_script (script : Script) :
    answer script =
      match script.pendingFault? with
      | some message => .error (.injected message)
      | none => .ok (script.tokens.head?.getD (.eof script.position)) := by
  rw [answer_eq]
  cases h : script.pendingFault? with
  | some message => rw [pull_of_pendingFault? h]
  | none => rw [pull_of_no_fault h]

theorem faultsWithin_eq_zero {script : Script} {n : Nat}
    (h : ∀ pull message, script.fault? = some (pull, message) →
      pull < script.pulls ∨ script.pulls + n ≤ pull) : script.faultsWithin n = 0 := by
  unfold faultsWithin
  cases hfault : script.fault? with
  | none => rfl
  | some fault =>
      have houtside := h fault.1 fault.2 hfault
      exact if_neg (by omega)

/-- Where no pull up to this one meets the fault, the pull answers the token of its number, or the
end. -/
theorem answerAt_of_no_fault_ahead {script : Script} {n : Nat}
    (h : ∀ pull message, script.fault? = some (pull, message) →
      pull < script.pulls ∨ script.pulls + n < pull) :
    ∃ position, answerAt n script = .ok (script.tokens[n]?.getD (.eof position)) := by
  obtain ⟨hpulls, hfault, -⟩ := stateAfter_fields n script
  have hpending : (stateAfter n script).pendingFault? = none := by
    by_contra hsome
    obtain ⟨message, hmessage⟩ := Option.ne_none_iff_exists'.1 hsome
    rw [pendingFault?_eq_some_iff, hpulls, hfault] at hmessage
    have := h _ _ hmessage
    omega
  have htokens : (stateAfter n script).tokens = script.tokens.drop n := by
    rw [tokens_stateAfter, faultsWithin_eq_zero fun pull message hp => by
      have := h pull message hp
      omega]
    rfl
  refine ⟨(stateAfter n script).position, ?_⟩
  rw [answerAt, answer_of_script, hpending, htokens, List.head?_drop]

section Fresh

variable {fault? : Option (Nat × String)} (tokens : List Token)

theorem faultsWithin_ofTokens {n : Nat}
    (h : ∀ pull message, fault? = some (pull, message) → n ≤ pull) :
    (ofTokens tokens fault?).faultsWithin n = 0 :=
  faultsWithin_eq_zero fun pull message hp =>
    .inr ((Nat.zero_add n).trans_le (h pull message hp))

theorem faultsWithin_of_fault {pull n : Nat} {message : String}
    (h : fault? = some (pull, message)) (hn : pull < n) :
    (ofTokens tokens fault?).faultsWithin n = 1 := by
  subst h
  have hmet : 0 ≤ pull ∧ pull < 0 + n := by omega
  exact if_pos hmet

theorem answerAt_of_fault {pull : Nat} {message : String} (h : fault? = some (pull, message)) :
    answerAt pull (ofTokens tokens fault?) = .error (.injected message) := by
  obtain ⟨hpulls, hfault, -⟩ := stateAfter_fields pull (ofTokens tokens fault?)
  have hpending : (stateAfter pull (ofTokens tokens fault?)).pendingFault? = some message := by
    rw [pendingFault?_eq_some_iff, hpulls, hfault, show (ofTokens tokens fault?).pulls = 0 from rfl,
      Nat.zero_add]
    exact h
  rw [answerAt, answer_of_script, hpending]

/-- A pull before the fault answers the token of its number, or the end. -/
theorem answerAt_of_no_fault {n : Nat}
    (h : ∀ pull message, fault? = some (pull, message) → n < pull) :
    ∃ position, answerAt n (ofTokens tokens fault?) = .ok (tokens[n]?.getD (.eof position)) :=
  answerAt_of_no_fault_ahead fun pull message hp =>
    .inr ((Nat.zero_add n).trans_lt (h pull message hp))

/-- Up to the fault, a fresh script delivers its tokens. -/
theorem delivers_take {n : Nat} (h : ∀ pull message, fault? = some (pull, message) → n ≤ pull) :
    Delivers (ofTokens tokens fault?) (tokens.take n) := by
  intro i hi
  rw [List.length_take] at hi
  obtain ⟨position, hanswer⟩ := answerAt_of_no_fault tokens
    fun pull message hp => Nat.lt_of_lt_of_le (show i < n by omega) (h pull message hp)
  rw [hanswer, List.getElem?_eq_getElem (by omega), List.getElem_take]
  rfl

end Fresh

end TokenAudit.Script
