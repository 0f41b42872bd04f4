import TokenAudit.Proofs.RunOutcome

/-!
# Sessions of a script

A session pulls a script, closes it and validates it, in any order.  `Accounts` relates the answers
that the script has given to the tokens and the fault it was made of.  A pull keeps the accounts and
so does a close, hence every session keeps them.

A validation that the fault cuts short takes no token for it.  The next validation of the script
goes on where the first one was stopped.
-/

namespace TokenAudit.Script

open TokenSource

/-- The tokens among some answers. -/
def delivered (answers : List (Except Fault Token)) : List Token :=
  answers.filterMap Except.toOption

/-- The position of the last one of some tokens. -/
def endOf (tokens : List Token) : Position := (tokens.getLast?.map Token.position).getD .start

theorem delivered_append (answers more : List (Except Fault Token)) :
    delivered (answers ++ more) = delivered answers ++ delivered more := List.filterMap_append

theorem endOf_concat (tokens : List Token) (t : Token) : endOf (tokens ++ [t]) = t.position := by
  simp [endOf]

/-- Ends of the stream behind some tokens do not move the last position. -/
theorem endOf_append_ends (tokens : List Token) (n : Nat) :
    endOf (tokens ++ List.replicate n (.eof (endOf tokens))) = endOf tokens := by
  cases n with
  | zero => rw [List.replicate_zero, List.append_nil]
  | succ n => rw [List.replicate_succ', ← List.append_assoc, endOf_concat, Token.eof]

/-- The accounts of a script that was made of these tokens and this fault, and that has given these
answers since. -/
structure Accounts (tokens : List Token) (fault? : Option (Nat × String))
    (answers : List (Except Fault Token)) (script : Script) : Prop where
  pulls_eq : script.pulls = answers.length
  fault_eq : script.fault? = fault?
  /-- The pull of the fault answers it, and no other pull answers a fault. -/
  fault_iff : ∀ n fault, answers[n]? = some (.error fault) ↔
    n < script.pulls ∧ ∃ message, fault? = some (n, message) ∧ fault = .injected message
  /-- All other pulls answer the tokens in order, and then the end at the last position. -/
  delivered_eq : delivered answers ++ script.tokens = tokens ++
    List.replicate ((delivered answers).length - tokens.length) (.eof (endOf tokens))
  length_delivered : (delivered answers).length =
    script.pulls - (ofTokens tokens fault?).faultsWithin script.pulls
  position_eq : script.position = endOf (delivered answers)

/-- The fault ahead of a fresh script counts from the pull that meets it. -/
theorem faultsWithin_pulls_succ (tokens : List Token) (script : Script) :
    (ofTokens tokens script.fault?).faultsWithin (script.pulls + 1) =
      (ofTokens tokens script.fault?).faultsWithin script.pulls +
        if script.pendingFault?.isSome then 1 else 0 := by
  unfold faultsWithin pendingFault? ofTokens
  cases script.fault? with
  | none => rfl
  | some fault =>
      obtain ⟨pull, message⟩ := fault
      by_cases hpull : pull = script.pulls
      · simp [hpull]
      · simp only [hpull, if_false, Option.isSome_none, Bool.false_eq_true, Nat.add_zero]
        split <;> split <;> omega

theorem answer_eq_error_iff {script : Script} {fault : Fault} :
    answer script = .error fault ↔
      ∃ message, script.fault? = some (script.pulls, message) ∧ fault = .injected message := by
  rw [answer_of_script]
  cases hpending : script.pendingFault? with
  | none =>
      refine iff_of_false (by simp) ?_
      rintro ⟨message, hfault, -⟩
      rw [← pendingFault?_eq_some_iff, hpending] at hfault
      cases hfault
  | some message =>
      have hfault := pendingFault?_eq_some_iff.1 hpending
      simp [hfault, eq_comm]

namespace Accounts

variable {tokens : List Token} {fault? : Option (Nat × String)}
  {answers : List (Except Fault Token)} {script : Script}

theorem fresh (tokens : List Token) (fault? : Option (Nat × String)) :
    Accounts tokens fault? [] (ofTokens tokens fault?) where
  pulls_eq := rfl
  fault_eq := rfl
  fault_iff n fault := by simp [ofTokens]
  delivered_eq := by simp [delivered, ofTokens]
  length_delivered := by simp [delivered, ofTokens]
  position_eq := rfl

/-- What is left of the tokens. -/
theorem length_tokens (h : Accounts tokens fault? answers script) :
    script.tokens.length =
      tokens.length - (script.pulls - (ofTokens tokens fault?).faultsWithin script.pulls) := by
  have hlength := congrArg List.length h.delivered_eq
  simp only [List.length_append, List.length_replicate] at hlength
  have := h.length_delivered
  omega

/-- One more answer is the fault if the pull is that of the fault. -/
theorem fault_iff_next (h : Accounts tokens fault? answers script) (n : Nat) (fault : Fault) :
    (answers ++ [answer script])[n]? = some (.error fault) ↔
      n < script.pulls + 1 ∧ ∃ message, fault? = some (n, message) ∧ fault = .injected message := by
  have hpulls := h.pulls_eq
  rcases Nat.lt_trichotomy n answers.length with hless | rfl | hmore
  · rw [List.getElem?_append_left hless, h.fault_iff]
    refine and_congr_left fun _ => ?_
    omega
  · rw [List.getElem?_concat_length, Option.some.injEq, answer_eq_error_iff, h.fault_eq, hpulls]
    exact (and_iff_right (Nat.lt_succ_self _)).symm
  · rw [List.getElem?_eq_none (by rw [List.length_append, List.length_singleton]; exact hmore)]
    exact iff_of_false (by simp) fun hbound => by omega

/-- A pull that meets the fault delivers nothing. -/
theorem next_of_pending (h : Accounts tokens fault? answers script) {message : String}
    (hpending : script.pendingFault? = some message) :
    Accounts tokens fault? (answers ++ [answer script]) (next script) := by
  have hdelivered : delivered (answers ++ [answer script]) = delivered answers := by
    rw [delivered_append, answer_of_script, hpending]
    exact List.append_nil _
  have hcount := faultsWithin_pulls_succ tokens script
  rw [h.fault_eq, hpending, Option.isSome_some, if_pos rfl] at hcount
  have hnext : next script = { script with pulls := script.pulls + 1 } := by
    rw [next_eq, pull_of_pendingFault? hpending]
  have hlength := h.length_delivered
  rw [hnext]
  refine ⟨?_, h.fault_eq, h.fault_iff_next, ?_, ?_, ?_⟩
  · rw [List.length_append, ← h.pulls_eq, List.length_singleton]
  · rw [hdelivered]
    exact h.delivered_eq
  · rw [hdelivered]
    dsimp only
    omega
  · rw [hdelivered]
    exact h.position_eq

/-- The tokens stay in order with one more delivered, and so do the ends behind them. -/
theorem delivered_eq_next (h : Accounts tokens fault? answers script) :
    delivered answers ++ [script.tokens.head?.getD (.eof script.position)] ++ script.tokens.tail =
      tokens ++
        List.replicate ((delivered answers).length + 1 - tokens.length) (.eof (endOf tokens)) := by
  have hordered := h.delivered_eq
  have hlength := congrArg List.length hordered
  simp only [List.length_append, List.length_replicate] at hlength
  cases htokens : script.tokens with
  | nil =>
      rw [htokens, List.length_nil] at hlength
      rw [htokens, List.append_nil] at hordered
      -- Every token was delivered, so the last position is that of the last token.
      have hposition : script.position = endOf tokens := by
        rw [h.position_eq, hordered, endOf_append_ends]
      have hends : (delivered answers).length + 1 - tokens.length =
          (delivered answers).length - tokens.length + 1 := by
        omega
      rw [List.head?_nil, Option.getD_none, List.tail_nil, List.append_nil, hposition, hends,
        List.replicate_succ', ← List.append_assoc, ← hordered]
  | cons t left =>
      rw [htokens, List.length_cons] at hlength
      have hnone : (delivered answers).length + 1 - tokens.length =
          (delivered answers).length - tokens.length := by
        omega
      rw [List.head?_cons, Option.getD_some, List.tail_cons, List.append_assoc,
        List.singleton_append, hnone, ← htokens, hordered]

/-- Any other pull delivers the next token, or the end at the last position. -/
theorem next_of_no_fault (h : Accounts tokens fault? answers script)
    (hpending : script.pendingFault? = none) :
    Accounts tokens fault? (answers ++ [answer script]) (next script) := by
  have hdelivered : delivered (answers ++ [answer script]) =
      delivered answers ++ [script.tokens.head?.getD (.eof script.position)] := by
    rw [delivered_append, answer_of_script, hpending]
    rfl
  have hcount := faultsWithin_pulls_succ tokens script
  rw [h.fault_eq, hpending, Option.isSome_none, if_neg Bool.false_ne_true] at hcount
  have hlength := h.length_delivered
  have hbound := faultsWithin_le (ofTokens tokens fault?) script.pulls
  have hmore :
      (delivered (answers ++ [answer script])).length = (delivered answers).length + 1 := by
    rw [hdelivered, List.length_append, List.length_singleton]
  rw [next_eq, pull_of_no_fault hpending]
  refine ⟨?_, h.fault_eq, h.fault_iff_next, ?_, ?_, ?_⟩
  · rw [List.length_append, ← h.pulls_eq, List.length_singleton]
  · rw [hmore, hdelivered]
    exact h.delivered_eq_next
  · rw [hmore]
    dsimp only
    omega
  · rw [hdelivered, endOf_concat]
    cases script.tokens <;> rfl

theorem next (h : Accounts tokens fault? answers script) :
    Accounts tokens fault? (answers ++ [answer script]) (next script) := by
  cases hpending : script.pendingFault? with
  | none => exact h.next_of_no_fault hpending
  | some message => exact h.next_of_pending hpending

theorem close (h : Accounts tokens fault? answers script) :
    Accounts tokens fault? answers script.close :=
  ⟨h.pulls_eq, h.fault_eq, h.fault_iff, h.delivered_eq, h.length_delivered, h.position_eq⟩

/-- A script keeps its accounts in every session. -/
theorem afterAll {κ : Type} [TokenSink κ] (watched : Watched Script)
    (h : Accounts tokens fault? watched.answers watched.source) (uses : List (Use κ)) :
    Accounts tokens fault? (Use.afterAll watched uses).answers
      (Use.afterAll watched uses).source :=
  Use.afterAll_invariant
    (motive := fun watched : Watched Script =>
      Accounts tokens fault? watched.answers watched.source)
    (fun _ h => h.next) (fun _ h => h.close) h uses

end Accounts

/-- A script is closed in a session by its closes and by nothing else. -/
theorem closed_afterAll {κ : Type} [TokenSink κ] (script : Script) (uses : List (Use κ)) :
    (Use.afterAll script uses).closed = (script.closed || uses.any Use.closes) := by
  have hone (script : Script) (use : Use κ) :
      (use.after script).closed = (script.closed || use.closes) := by
    obtain ⟨n, hn⟩ := use.exists_pulls script
    rw [hn]
    cases use.closes with
    | true => exact (Bool.or_true _).symm
    | false => exact (stateAfter_fields n script).2.2.trans (Bool.or_false _).symm
  induction uses generalizing script with
  | nil => exact (Bool.or_false _).symm
  | cons use uses ih =>
      show (Use.afterAll (use.after script) uses).closed = _
      rw [ih, hone, List.any_cons, Bool.or_assoc]

/-! ### Resuming a validation -/

section

variable {tokens : List Token} {fault? : Option (Nat × String)} {κ : Type} [TokenSink κ]

/-- A verdict on the rest of a stream with the texts listed before. -/
def resumedVerdict (texts : List String) : Verdict → Verdict
  | .accepted listing => .accepted (.ofList (texts ++ listing.toList))
  | .rejected => .rejected

theorem contentOf_eq_append {n : Nat} (h : n ≤ (contentOf tokens).length) :
    contentOf tokens = tokens.take n ++ contentOf (tokens.drop n) := by
  have hsplit : contentOf (tokens.take n ++ tokens.drop n) =
      tokens.take n ++ contentOf (tokens.drop n) :=
    List.takeWhile_append_of_pos (isContent_of_mem_take h)
  rwa [List.take_append_drop] at hsplit

/-- Without a fault, the rest of a script behind some content is judged as the whole script is. -/
theorem result_forecast_drop {n : Nat} (h : n ≤ (contentOf tokens).length) :
    (forecast tokens none).result =
      (forecast (tokens.drop n) none).result.map
        (resumedVerdict ((tokens.take n).map Token.text)) := by
  have hborder : (contentOf tokens).length = n + (contentOf (tokens.drop n)).length := by
    have hle : (contentOf tokens).length ≤ tokens.length := (List.takeWhile_prefix _).length_le
    rw [contentOf_eq_append h, List.length_append, List.length_take]
    omega
  have htexts : (contentOf tokens).map Token.text = (tokens.take n).map Token.text ++
      (contentOf (tokens.drop n)).map Token.text := by
    rw [← List.map_append, ← contentOf_eq_append h]
  -- What stands at the border and behind it is the same in both scripts.
  simp only [forecast, Option.filter_none, List.getElem?_drop, ← Nat.add_assoc, ← hborder]
  split
  · rfl
  · simp only [Except.map]
    split
    · rw [htexts]
      rfl
    · rfl

theorem recorded_forecast (tokens : List Token) :
    (forecast tokens none).recorded = contentOf tokens := by
  simp only [forecast, Option.filter_none]
  split <;> rfl

/-- Behind the pull of the fault, a script answers as a fresh one of its other tokens does. -/
theorem alike_behind_fault (tokens : List Token) (pull : Nat) (message : String) (n : Nat) :
    Alike (answerAt n (stateAfter (pull + 1) (ofTokens tokens (some (pull, message)))))
      (answerAt n (ofTokens (tokens.drop pull) none)) := by
  generalize hbehind : stateAfter (pull + 1) (ofTokens tokens (some (pull, message))) = behind
  obtain ⟨hpulls, hfault, -⟩ :=
    stateAfter_fields (pull + 1) (ofTokens tokens (some (pull, message)))
  rw [hbehind] at hpulls hfault
  have htokens : behind.tokens = tokens.drop pull := by
    rw [← hbehind, tokens_stateAfter, faultsWithin_of_fault tokens rfl (Nat.lt_succ_self pull)]
    rfl
  have hpast : ∀ p m, behind.fault? = some (p, m) → p < behind.pulls ∨ behind.pulls + n < p := by
    intro p m hp
    rw [hfault] at hp
    cases hp
    omega
  have hnone : ∀ p m, (none : Option (Nat × String)) = some (p, m) → n < p := by
    intro p m hp
    cases hp
  obtain ⟨position, hanswer⟩ := answerAt_of_no_fault_ahead hpast
  obtain ⟨position', hfresh⟩ := answerAt_of_no_fault (tokens.drop pull) hnone
  rw [hanswer, hfresh, htokens]
  cases (tokens.drop pull)[n]? with
  | none => exact .ends rfl rfl
  | some t => exact .same _

/-- The validation that the fault cuts short and the one behind it, which goes on with the tokens
that the first one left. -/
theorem run_resumed {pull : Nat} (h : pull ≤ (contentOf tokens).length) (message : String)
    (sink sink' : κ) :
    ∃ behind left : Script,
      (Validation.run (ofTokens tokens (some (pull, message))) sink).value =
        ⟨.error (.injected message), behind, (TokenSink.recordAll sink (tokens.take pull)).value⟩ ∧
      (Validation.run behind sink').value = ⟨(forecast (tokens.drop pull) none).result, left,
        (TokenSink.recordAll sink' (contentOf (tokens.drop pull))).value⟩ := by
  obtain ⟨result, pulls, recorded, hbehind, hfresh⟩ :=
    Validation.exists_run_of_alike (alike_behind_fault tokens pull message) sink'
  rw [(meets_forecast (tokens.drop pull) none sink').value_run, recorded_forecast] at hfresh
  obtain rfl : _ = result := congrArg Validation.Finished.result hfresh
  obtain rfl : _ = recorded := congrArg Validation.Finished.sink hfresh
  exact ⟨_, _, (meets_early_fault sink message h).value_run, hbehind⟩

end

/-- In every session a script keeps the accounts of its tokens and its fault, and is closed by
nothing but a close.  A validation that the fault cuts short before the content ends is resumed by
the next one: their traces make up that of the script without the fault, and the second result is
that of a fresh script of the tokens that the first one left. -/
theorem sessions_keep_accounts :
    (∀ (κ : Type) [TokenSink κ] (tokens : List Token) (fault? : Option (Nat × String))
        (uses : List (Use κ)),
      let watched := Use.afterAll (⟨ofTokens tokens fault?, []⟩ : Watched Script) uses
      let script := Use.afterAll (ofTokens tokens fault?) uses
      watched.source = script ∧ Accounts tokens fault? watched.answers script ∧
        script.tokens.length =
          tokens.length - (script.pulls - (ofTokens tokens fault?).faultsWithin script.pulls) ∧
        script.closed = uses.any Use.closes) ∧
    (∀ script : Script, TokenSource.close script = { script with closed := true } ∧
      ∀ fault, answer script = .error fault →
        next script = { script with pulls := script.pulls + 1 }) ∧
    ∀ (tokens : List Token) (pull : Nat) (message : String), pull ≤ (contentOf tokens).length →
      let first := (Validation.run (ofTokens tokens (some (pull, message))) ({} : TraceLines)).value
      let second := (Validation.run first.source ({} : TraceLines)).value
      let whole := (Validation.run (ofTokens tokens none) ({} : TraceLines)).value
      let rest := (Validation.run (ofTokens (tokens.drop pull) none) ({} : TraceLines)).value
      first.result = .error (.injected message) ∧
        first.sink.lines.toList ++ second.sink.lines.toList = whole.sink.lines.toList ∧
        second.result = rest.result ∧
        whole.result =
          second.result.map (resumedVerdict ((tokens.take pull).map Token.text)) := by
  refine ⟨fun κ _ tokens fault? uses => ?_, fun script => ⟨rfl, fun fault hfault => ?_⟩,
    fun tokens pull message hpull => ?_⟩
  · have hsource := Use.source_afterAll (⟨ofTokens tokens fault?, []⟩ : Watched Script) uses
    have haccounts := Accounts.afterAll ⟨ofTokens tokens fault?, []⟩ (.fresh tokens fault?) uses
    rw [hsource] at haccounts
    exact ⟨hsource, haccounts, haccounts.length_tokens, closed_afterAll _ uses⟩
  · obtain ⟨message, hpending, -⟩ := answer_eq_error_iff.1 hfault
    rw [next_eq, pull_of_pendingFault? (pendingFault?_eq_some_iff.2 hpending)]
  · obtain ⟨behind, left, hfirst, hsecond⟩ := run_resumed hpull message {} ({} : TraceLines)
    have hwhole := (meets_forecast tokens none ({} : TraceLines)).value_run
    have hrest := (meets_forecast (tokens.drop pull) none ({} : TraceLines)).value_run
    rw [recorded_forecast] at hwhole
    dsimp only
    rw [hfirst, hsecond, hwhole, hrest]
    refine ⟨rfl, ?_, rfl, result_forecast_drop hpull⟩
    rw [lines_recordAll, lines_recordAll, lines_recordAll, contentOf_eq_append hpull,
      List.map_append]
    rfl

/-- A fault between `+` and `x` splits the trace into their two lines, and the second validation
lists `x` alone. -/
theorem resumed_between_plus_and_word :
    let tokens : List Token := [.fixed .plus .start, ⟨.identifier, "x", ⟨1, 2⟩⟩]
    let first := (Validation.run (ofTokens tokens (some (1, "boom"))) ({} : TraceLines)).value
    let second := (Validation.run first.source ({} : TraceLines)).value
    let whole := (Validation.run (ofTokens tokens none) ({} : TraceLines)).value
    1 ≤ (contentOf tokens).length ∧ first.result = .error (.injected "boom") ∧
      first.sink.lines.toList = ["[1,1]:+"] ∧
      first.sink.lines.toList ++ second.sink.lines.toList = ["[1,1]:+", "[1,2]:x"] ∧
      second.result = .ok (.accepted (.ofList ["x"])) ∧
      whole.result = .ok (.accepted (.ofList ["+", "x"])) := by
  intro tokens first second whole
  have hpull : 1 ≤ (contentOf tokens).length := by decide
  obtain ⟨hfault, htrace, hrest, hwhole⟩ := sessions_keep_accounts.2.2 tokens 1 "boom" hpull
  have hsecond : second.result = .ok (.accepted (.ofList ["x"])) := hrest.trans (by decide)
  refine ⟨hpull, hfault, by decide, htrace.trans (by decide), hsecond, ?_⟩
  exact hwhole.trans (by rw [hsecond]; decide)

end TokenAudit.Script
