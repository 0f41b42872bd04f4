import TokenAudit.Proofs.LexemeSequence
import TokenAudit.Proofs.ScanStates

/-!
# Sessions of a scan

A session pulls a scan and closes it, in any order and any number of times.  `TokenSource.answers`
collects what its pulls answer.  What a single pull does is the same in every state of a scan
(`Scan.exists_answer`), and along a session it adds up to when the scan is exhausted and which
position it gives (`Scan.exists_pulled`).  Which tokens are handed out is a matter of what the calls
made so far have left of the tokens of the text (`TokenSource.leftAfter`).
-/

namespace TokenAudit

namespace TokenSource

variable {σ : Type} [TokenSource σ]

/-- What the pulls among some calls answer, in order. -/
def answers (s : σ) : List Call → List (Except Fault Token)
  | [] => []
  | .pull :: calls => answer s :: answers (next s) calls
  | .close :: calls => answers (close s) calls

/-- What some calls leave of the tokens that a source had to hand out. -/
def leftAfter (tokens : List Token) (calls : List Call) : List Token :=
  if .close ∈ calls then [] else tokens.drop (calls.count .pull)

theorem afterCalls_append (s : σ) (calls later : List Call) :
    afterCalls s (calls ++ later) = afterCalls (afterCalls s calls) later :=
  List.foldl_append

theorem answers_append (s : σ) (calls later : List Call) :
    answers s (calls ++ later) = answers s calls ++ answers (afterCalls s calls) later := by
  induction calls generalizing s with
  | nil => rfl
  | cons call calls ih =>
      cases call with
      | pull => exact congrArg (answer s :: ·) (ih (next s))
      | close => exact ih (close s)

/-- Every pull is answered once. -/
theorem length_answers (s : σ) (calls : List Call) :
    (answers s calls).length = calls.count .pull := by
  induction calls generalizing s with
  | nil => rfl
  | cons call calls ih =>
      cases call with
      | pull => rw [answers, List.length_cons, ih, List.count_cons_self]
      | close => rw [answers, ih, List.count_cons_of_ne (by decide)]

/-- The answer to a pull stands behind those to the pulls before it. -/
theorem getElem?_answers (s : σ) (earlier later : List Call) :
    (answers s (earlier ++ .pull :: later))[earlier.count .pull]? =
      some (answer (afterCalls s earlier)) := by
  rw [answers_append, List.getElem?_append_right (Nat.le_of_eq (length_answers s earlier)),
    length_answers, Nat.sub_self]
  rfl

end TokenSource

namespace Scan

open TokenSource

/-- The token of a lexeme that was found is not the end, and stands where the lexeme does. -/
theorem token_of_next? {cursor after : Cursor} {placed : PlacedLexeme}
    (h : cursor.next? = some (placed, after)) (p : Position) :
    (placed.lexeme.token p).isEof = false ∧ (placed.lexeme.token p).position = p := by
  obtain ⟨cut, hcut, heq⟩ := Option.map_eq_some_iff.1 h
  obtain ⟨c, tail, -, hfront⟩ := Cut.split_of_first?_eq_some hcut
  have hlexeme : (Lexeme.ofFront c tail).1 = placed.lexeme := by
    rw [hfront, ← (Prod.mk.inj heq).1]
  rw [← hlexeme]
  exact ⟨Lexeme.isEof_token_ofFront c tail p, by rw [Lexeme.token_ofFront]⟩

/-- In every state, a pull answers a token and takes over its position.  It leaves the scan
exhausted exactly if the token is the end, which an exhausted scan always answers. -/
theorem exists_answer (scan : Scan) :
    ∃ t, answer scan = .ok t ∧ TokenSource.position (next scan) = t.position ∧
      (next scan).isExhausted = t.isEof ∧ (scan.isExhausted = true → t.isEof = true) := by
  cases hcursor : scan.cursor? with
  | none =>
      have hpull := value_pull_of_exhausted hcursor
      have hnext : next scan = scan.atEnd := congrArg Prod.snd hpull
      rw [hnext]
      exact ⟨.eof scan.stop, congrArg Prod.fst hpull, rfl, rfl, fun _ => rfl⟩
  | some cursor =>
      have hopen : scan.isExhausted = false := by rw [isExhausted, hcursor]; rfl
      rw [hopen]
      cases hfound : cursor.next? with
      | none =>
          have hpull := value_pull_of_ended hcursor hfound
          have hnext : next scan = scan.atEnd := congrArg Prod.snd hpull
          rw [hnext]
          exact ⟨.eof scan.stop, congrArg Prod.fst hpull, rfl, rfl, fun _ => rfl⟩
      | some found =>
          obtain ⟨placed, after⟩ := found
          have hpull := value_pull_of_found hcursor hfound
          obtain ⟨heof, hposition⟩ := token_of_next? hfound (scan.positionOf placed)
          have hnext : next scan =
              { scan with cursor? := some after, position := scan.positionOf placed } :=
            congrArg Prod.snd hpull
          rw [hnext]
          refine ⟨_, congrArg Prod.fst hpull, hposition.symm, heof.symm, ?_⟩
          exact fun h => absurd h Bool.false_ne_true

/-- The pulls of a session answer tokens.  At its end the scan is exhausted if it was before, if it
was closed or if a pull answered the end, and it gives the position of the token pulled last. -/
theorem exists_pulled (scan : Scan) (calls : List Call) :
    ∃ pulled : List Token, answers scan calls = pulled.map .ok ∧
      ((afterCalls scan calls).isExhausted = true ↔
        scan.isExhausted = true ∨ .close ∈ calls ∨ ∃ t ∈ pulled, t.isEof = true) ∧
      TokenSource.position (afterCalls scan calls) =
        (pulled.getLast?.map Token.position).getD (TokenSource.position scan) := by
  induction calls generalizing scan with
  | nil => exact ⟨[], rfl, by simp [afterCalls], rfl⟩
  | cons call calls ih =>
      cases call with
      | pull =>
          obtain ⟨t, hanswer, hposition, hexhausted, hkept⟩ := exists_answer scan
          obtain ⟨pulled, hpulled, hexhaustedAfter, hpositionAfter⟩ := ih (next scan)
          refine ⟨t :: pulled, by rw [answers, hanswer, hpulled, List.map_cons], ?_, ?_⟩
          · show (afterCalls (next scan) calls).isExhausted = true ↔ _
            rw [hexhaustedAfter, hexhausted]
            simp only [List.mem_cons, reduceCtorEq, false_or, exists_eq_or_imp]
            constructor
            · rintro (heof | hclosed | hlater)
              · exact .inr (.inr (.inl heof))
              · exact .inr (.inl hclosed)
              · exact .inr (.inr (.inr hlater))
            · rintro (hbefore | hclosed | heof | hlater)
              · exact .inl (hkept hbefore)
              · exact .inr (.inl hclosed)
              · exact .inl heof
              · exact .inr (.inr hlater)
          · show TokenSource.position (afterCalls (next scan) calls) = _
            rw [hpositionAfter, hposition, List.getLast?_cons]
            cases pulled.getLast? <;> rfl
      | close =>
          obtain ⟨pulled, hpulled, hexhaustedAfter, hpositionAfter⟩ := ih (TokenSource.close scan)
          refine ⟨pulled, hpulled, ?_, hpositionAfter⟩
          show (afterCalls (TokenSource.close scan) calls).isExhausted = true ↔ _
          have hclosed : (TokenSource.close scan).isExhausted = true := rfl
          rw [hexhaustedAfter, hclosed]
          simp

/-- After any calls, a scan hands out what they have left of the tokens of its text. -/
theorem handsOut_afterCalls (text : List Char) (calls : List Call) :
    HandsOut (afterCalls (ofText text) calls) (leftAfter (tokensFrom .start text) calls)
      (Position.start.after text) := by
  -- The induction is on the last call, which acts on what the calls before it have left.
  induction calls using List.reverseRecOn with
  | nil => exact handsOut_ofText text
  | append_singleton calls call ih =>
      rw [afterCalls_append]
      cases call with
      | pull =>
          have hnext := ih.stateAfter 1
          have hleft : leftAfter (tokensFrom .start text) (calls ++ [.pull]) =
              (leftAfter (tokensFrom .start text) calls).drop 1 := by
            by_cases hclosed : Call.close ∈ calls
            · simp [leftAfter, hclosed]
            · simp [leftAfter, hclosed, List.count_append]
          rwa [hleft]
      | close =>
          let closed : Scan := (afterCalls (ofText text) calls).close
          have hstop : closed.stop = Position.start.after text :=
            (standsIn_afterCalls text calls).close.stop_eq
          have hands : HandsOut closed [] closed.stop := handsOut_of_exhausted rfl
          rw [hstop] at hands
          rw [leftAfter, if_pos (List.mem_append_right _ (List.mem_singleton_self _))]
          exact hands

/-- What the next pull answers after any calls: the token with the number of pulls made, unless the
scan was closed or has no token with that number, and then the end. -/
theorem answer_afterCalls (text : List Char) (calls : List Call) :
    answer (afterCalls (ofText text) calls) =
      .ok (if .close ∈ calls then .eof (Position.start.after text)
        else (tokensFrom .start text)[calls.count .pull]?.getD
          (.eof (Position.start.after text))) := by
  have hanswer := handsOut_afterCalls text calls 0
  rw [leftAfter] at hanswer
  split_ifs at hanswer ⊢ with hclosed
  · exact hanswer
  · rwa [List.getElem?_drop, Nat.add_zero] at hanswer

/-- Along every session of pulls and closes of a scan, no pull is a fault.  The pulls hand out the
tokens of the text one by one, until the scan is closed or they are used up, and then the end of
the text.  The scan is exhausted exactly when it was closed or a pull has answered the end, and
stays so.  Its position is that of the token pulled last, or the start before the first pull, and a
close does not change it. -/
theorem session_follows_tokens (text : List Char) (calls : List Call) :
    let scan := afterCalls (ofText text) calls
    let stop := Position.start.after text
    ∃ front pulled : List Token, (ofText text).tokens.value = front ++ [.eof stop] ∧
      (∀ t ∈ front, t.isEof = false) ∧
      answers (ofText text) calls = pulled.map .ok ∧
      (∀ earlier later, calls = earlier ++ .pull :: later →
        pulled[earlier.count .pull]? = some (if .close ∈ earlier then .eof stop
          else front[earlier.count .pull]?.getD (.eof stop))) ∧
      (scan.isExhausted = true ↔ .close ∈ calls ∨ ∃ t ∈ pulled, t.isEof = true) ∧
      (scan.isExhausted = true → ∀ more, (afterCalls scan more).isExhausted = true) ∧
      TokenSource.position scan = (pulled.getLast?.map Token.position).getD .start ∧
      TokenSource.position (TokenSource.close scan) = TokenSource.position scan := by
  intro scan stop
  obtain ⟨pulled, hpulled, hexhausted, hposition⟩ := exists_pulled (ofText text) calls
  refine ⟨tokensFrom .start text, pulled, tokens_ofText text,
    fun t ht => isEof_of_mem_tokensFrom ht, hpulled, ?_, ?_, ?_, hposition, rfl⟩
  · rintro earlier later rfl
    have hanswer := getElem?_answers (ofText text) earlier later
    rw [hpulled, List.getElem?_map, answer_afterCalls] at hanswer
    obtain ⟨t, ht, heq⟩ := Option.map_eq_some_iff.1 hanswer
    rw [ht, Except.ok.inj heq]
  · rw [hexhausted]
    have hopen : (ofText text).isExhausted = false := rfl
    simp [hopen]
  · intro h more
    obtain ⟨later, -, hstays, -⟩ := exists_pulled scan more
    exact hstays.2 (.inl h)

end Scan

end TokenAudit
