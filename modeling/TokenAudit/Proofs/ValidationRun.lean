import Mathlib.Data.List.TakeWhile
import TokenAudit.Proofs.Pulling
import TokenAudit.Validation

/-!
# How a validation runs

A validation takes one turn for every content token and one more turn that decides the stream.
`value_turn_of_content` says what a turn on content does, and `Ending` lists the ways in which the
stream is decided.  Together they give `runWithin_of_delivers`: a source that delivers content and
then ends is validated to that ending, with the content recorded and listed, whatever the limit on
the turns is, as long as it is high enough.
-/

namespace TokenAudit.Validation

open TokenSource

variable {σ κ : Type} [TokenSource σ]

theorem isContent_iff {t : Token} :
    t.isContent = true ↔ t.isError = false ∧ t.isEof = false := by
  simp [Token.isContent, Token.isError, Token.isEof, Kind.isContent, and_comm]

theorem isEof_of_not_isContent {t : Token} (hcontent : t.isContent = false)
    (herror : t.isError = false) : t.isEof = true := by
  by_contra hother
  rw [Bool.not_eq_true] at hother
  rw [isContent_iff.2 ⟨herror, hother⟩] at hcontent
  cases hcontent

theorem isError_of_isEof {t : Token} (h : t.isEof = true) : t.isError = false := by
  have hkind : t.kind = .eof := by simpa [Token.isEof, Kind.isEof] using h
  simp [Token.isError, Kind.isError, hkind]

/-- What the pull behind the end of a stream makes of it, given the texts listed before. -/
def resultBehindEnd (listing : Listing) : Except Fault Token → Except Fault Verdict
  | .error fault => .error fault
  | .ok token => .ok (if token.isEof then .accepted listing else .rejected)

/-- Concluding a stream takes one pull, and its answer decides. -/
theorem value_conclude (pending : Pending σ κ) :
    (conclude pending).value =
      ⟨resultBehindEnd pending.listing (answer pending.source), next pending.source,
        pending.sink⟩ := by
  unfold conclude answer next
  cases hanswer : (pull pending.source).value.1 with
  | error fault => simp [hanswer, resultBehindEnd]
  | ok t =>
      by_cases heof : t.isEof = true
      · simp [hanswer, resultBehindEnd, heof]
      · simp [hanswer, resultBehindEnd, heof, reject]

/-! ### One turn -/

variable [TokenSink κ]

/-- A turn on content records and lists it. -/
theorem value_turn_of_content {pending : Pending σ κ} {t : Token}
    (h : answer pending.source = .ok t) (hcontent : t.isContent = true) :
    (turn pending).value = .undecided ⟨next pending.source,
      (TokenSink.record pending.sink t).value, pending.listing.push t.text⟩ := by
  obtain ⟨herror, heof⟩ := isContent_iff.1 hcontent
  have hanswer : (pull pending.source).value.1 = .ok t := h
  simp [turn, hanswer, herror, heof, accept, next]

theorem value_turn_of_isEof {pending : Pending σ κ} {t : Token}
    (h : answer pending.source = .ok t) (heof : t.isEof = true) :
    (turn pending).value =
      .decided (conclude { pending with source := next pending.source }).value := by
  have hanswer : (pull pending.source).value.1 = .ok t := h
  simp [turn, hanswer, isError_of_isEof heof, heof, next]

/-- The ways in which a stream is decided, each with the result and the number of pulls it takes.
The texts listed before are given. -/
inductive Ending (s : σ) (listing : Listing) : Except Fault Verdict → Nat → Prop
  | fault {fault : Fault} : answerAt 0 s = .error fault → Ending s listing (.error fault) 1
  | lexicalError {t : Token} : answerAt 0 s = .ok t → t.isError = true →
      Ending s listing (.ok .rejected) 1
  | behindEnd {t : Token} : answerAt 0 s = .ok t → t.isEof = true →
      Ending s listing (resultBehindEnd listing (answerAt 1 s)) 2

/-- The next answer of a source is content or decides its stream. -/
theorem content_or_ending (s : σ) (listing : Listing) :
    (∃ t, answer s = .ok t ∧ t.isContent = true) ∨
      ∃ result pulls, Ending s listing result pulls := by
  cases hanswer : answer s with
  | error fault => exact .inr ⟨_, _, .fault hanswer⟩
  | ok t =>
      by_cases hcontent : t.isContent = true
      · exact .inl ⟨t, rfl, hcontent⟩
      · by_cases herror : t.isError = true
        · exact .inr ⟨_, _, .lexicalError hanswer herror⟩
        · have heof : t.isEof = true :=
            isEof_of_not_isContent (Bool.not_eq_true _ ▸ hcontent) (Bool.not_eq_true _ ▸ herror)
          exact .inr ⟨_, _, .behindEnd hanswer heof⟩

/-- The turn at an ending decides the stream and leaves the sink alone. -/
theorem value_turn_of_ending {s : σ} {sink : κ} {listing : Listing}
    {result : Except Fault Verdict} {pulls : Nat} (h : Ending s listing result pulls) :
    (turn ⟨s, sink, listing⟩).value = .decided ⟨result, stateAfter pulls s, sink⟩ := by
  cases h with
  | fault hfirst =>
      have hanswer : (pull s).value.1 = .error _ := hfirst
      simp [turn, hanswer, stateAfter, next]
  | lexicalError hfirst herror =>
      have hanswer : (pull s).value.1 = .ok _ := hfirst
      simp [turn, hanswer, herror, reject, stateAfter, next]
  | behindEnd hfirst heof =>
      have hturn : (turn ⟨s, sink, listing⟩).value =
          .decided (conclude ⟨next s, sink, listing⟩).value := value_turn_of_isEof hfirst heof
      rw [hturn, value_conclude]
      rfl

/-! ### The whole run -/

/-- A listing with more texts at its end. -/
def listAll (listing : Listing) (tokens : List Token) : Listing :=
  tokens.foldl (fun listing t => listing.push t.text) listing

theorem toList_listAll (listing : Listing) (tokens : List Token) :
    (listAll listing tokens).toList = listing.toList ++ tokens.map Token.text := by
  induction tokens generalizing listing with
  | nil => simp [listAll]
  | cons t tokens ih =>
      show (listAll (listing.push t.text) tokens).toList = _
      rw [ih, Listing.toList_push, List.map_cons, List.append_assoc, List.singleton_append]

theorem listAll_empty (tokens : List Token) :
    listAll .empty tokens = .ofList (tokens.map Token.text) := by
  apply Listing.ext_toList
  rw [toList_listAll, Listing.toList_empty, List.nil_append, Listing.toList_ofList]

theorem runWithin_of_decided {pending : Pending σ κ} {finished : Finished σ κ}
    (h : (turn pending).value = .decided finished) (limit : Nat) :
    (runWithin (limit + 1) pending).map Logged.value = some finished := by
  simp [runWithin, h]

theorem runWithin_of_undecided {pending rest : Pending σ κ}
    (h : (turn pending).value = .undecided rest) (limit : Nat) :
    (runWithin (limit + 1) pending).map Logged.value =
      (runWithin limit rest).map Logged.value := by
  rw [runWithin]
  simp only [h]
  cases runWithin limit rest <;> rfl

/-- A validation of content that ends is decided with every limit above the number of content
tokens, and with no other. -/
theorem runWithin_of_delivers {s : σ} {sink : κ} {listing : Listing} {tokens : List Token}
    (hdelivers : Delivers s tokens) (hcontent : ∀ t ∈ tokens, t.isContent = true)
    {result : Except Fault Verdict} {pulls : Nat}
    (hending : Ending (stateAfter tokens.length s) (listAll listing tokens) result pulls)
    (limit : Nat) :
    (runWithin limit ⟨s, sink, listing⟩).map Logged.value =
      if tokens.length < limit then
        some ⟨result, stateAfter (tokens.length + pulls) s, (TokenSink.recordAll sink tokens).value⟩
      else none := by
  -- Every content token takes one turn off the limit, and the ending takes one more.
  induction tokens generalizing s sink listing limit with
  | nil =>
      cases limit with
      | zero => rfl
      | succ limit =>
          have hturn : (turn ⟨s, sink, listing⟩).value = .decided ⟨result, stateAfter pulls s, sink⟩ :=
            value_turn_of_ending hending
          rw [runWithin_of_decided hturn, List.length_nil, if_pos (Nat.zero_lt_succ _),
            Nat.zero_add]
          rfl
  | cons t tokens ih =>
      obtain ⟨hfirst, hrest⟩ := delivers_cons_iff.1 hdelivers
      cases limit with
      | zero => rfl
      | succ limit =>
          have hturn : (turn ⟨s, sink, listing⟩).value = .undecided
              ⟨next s, (TokenSink.record sink t).value, listing.push t.text⟩ :=
            value_turn_of_content hfirst (hcontent t (List.mem_cons_self ..))
          rw [runWithin_of_undecided hturn, ih hrest
            (fun u hu => hcontent u (List.mem_cons_of_mem _ hu)) hending limit,
            List.length_cons, Nat.add_right_comm, stateAfter_succ]
          simp only [Nat.succ_lt_succ_iff]
          rfl

section

variable {σ : Type} [FiniteSource σ] {s : σ} {tokens : List Token}

/-- A finite source delivers no more content than its bound allows. -/
theorem length_le_remaining (hdelivers : Delivers s tokens)
    (hcontent : ∀ t ∈ tokens, t.isContent = true) : tokens.length ≤ FiniteSource.remaining s :=
  (Nat.le_add_right _ _).trans
    (FiniteSource.length_add_remaining_le hdelivers fun t ht => (isContent_iff.1 (hcontent t ht)).2)

/-- A validation of a finite source is one with a limit above its bound. -/
theorem runWithin_remaining (s : σ) (sink : κ) :
    runWithin (FiniteSource.remaining s + 1) ⟨s, sink, .empty⟩ = some (run s sink) :=
  (Option.some_get _).symm

/-- The validation of a finite source that delivers content and then ends. -/
theorem value_run_of_delivers {sink : κ} (hdelivers : Delivers s tokens)
    (hcontent : ∀ t ∈ tokens, t.isContent = true) {result : Except Fault Verdict} {pulls : Nat}
    (hending : Ending (stateAfter tokens.length s) (.ofList (tokens.map Token.text)) result pulls) :
    (run s sink).value =
      ⟨result, stateAfter (tokens.length + pulls) s, (TokenSink.recordAll sink tokens).value⟩ := by
  rw [← listAll_empty] at hending
  have hlimit := Nat.lt_succ_of_le (length_le_remaining hdelivers hcontent)
  have hrun := congrArg (Option.map Logged.value) (runWithin_remaining s sink)
  rw [runWithin_of_delivers hdelivers hcontent hending, if_pos hlimit] at hrun
  exact (Option.some.inj hrun).symm

end

/-! ### Streams that come to an end -/

section

variable {s : σ} {tokens content rest : List Token} {error : Token} {stop : Position}

/-- Tokens before the end of a stream are all content, or have a first error. -/
theorem content_or_error (h : ∀ t ∈ tokens, t.isEof = false) :
    (∀ t ∈ tokens, t.isContent = true) ∨ ∃ content error rest, tokens = content ++ error :: rest ∧
      (∀ t ∈ content, t.isContent = true) ∧ error.isError = true := by
  have hsplit := List.takeWhile_append_dropWhile (p := Token.isContent) (l := tokens)
  have hcontent : ∀ t ∈ tokens.takeWhile Token.isContent, t.isContent = true :=
    fun t ht => List.mem_takeWhile_imp ht
  cases hrest : tokens.dropWhile Token.isContent with
  | nil =>
      rw [hrest, List.append_nil] at hsplit
      rw [hsplit] at hcontent
      exact .inl hcontent
  | cons error rest =>
      rw [hrest] at hsplit
      refine .inr ⟨_, error, rest, hsplit.symm, hcontent, ?_⟩
      have hother : error.isContent = false := by
        have hhead := List.head?_dropWhile_not Token.isContent tokens
        rwa [hrest] at hhead
      have hmem : error ∈ tokens := by
        rw [← hsplit]
        exact List.mem_append_right _ (List.mem_cons_self ..)
      -- The token is not the end, so it is an error.
      by_contra herror
      have heof := isEof_of_not_isContent hother (Bool.not_eq_true _ ▸ herror)
      rw [h error hmem] at heof
      cases heof

theorem ending_of_content (h : HandsOut s tokens stop) (listing : Listing) :
    Ending (stateAfter tokens.length s) listing (.ok (.accepted listing)) 2 := by
  have hend := h.stateAfter tokens.length
  rw [List.drop_length] at hend
  have hbehind : resultBehindEnd listing (answerAt 1 (stateAfter tokens.length s)) =
      .ok (.accepted listing) := by
    rw [hend]
    rfl
  rw [← hbehind]
  exact .behindEnd (hend 0) rfl

theorem ending_of_error (h : HandsOut s (content ++ error :: rest) stop)
    (herror : error.isError = true) (listing : Listing) :
    Ending (stateAfter content.length s) listing (.ok .rejected) 1 := by
  have hstop := h.stateAfter content.length
  rw [List.drop_left] at hstop
  exact .lexicalError (hstop 0) herror

end

section

variable {σ κ : Type} [FiniteSource σ] [TokenSink κ] {s : σ} {tokens content rest : List Token}
  {error : Token} {stop : Position}

/-- A stream of content is accepted with all its texts. -/
theorem value_run_of_content (h : HandsOut s tokens stop)
    (hcontent : ∀ t ∈ tokens, t.isContent = true) (sink : κ) :
    (run s sink).value = ⟨.ok (.accepted (.ofList (tokens.map Token.text))),
      stateAfter (tokens.length + 2) s, (TokenSink.recordAll sink tokens).value⟩ :=
  value_run_of_delivers h.delivers hcontent (ending_of_content h _)

/-- The first error rejects a stream, and the source stands behind it. -/
theorem value_run_of_error (h : HandsOut s (content ++ error :: rest) stop)
    (hcontent : ∀ t ∈ content, t.isContent = true) (herror : error.isError = true) (sink : κ) :
    (run s sink).value = ⟨.ok .rejected, stateAfter (content.length + 1) s,
      (TokenSink.recordAll sink content).value⟩ :=
  value_run_of_delivers h.delivers.of_append hcontent (ending_of_error h herror _)

end

end TokenAudit.Validation
