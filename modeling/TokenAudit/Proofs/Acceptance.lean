import TokenAudit.Proofs.GrammarLaws
import TokenAudit.Proofs.TokenSequence
import TokenAudit.Proofs.ValidationRun

/-!
# Accepted texts

A scan that is validated is accepted if all tokens of its text are content, and rejected otherwise:
`Scan.result_run_ofText`.  The tokens are content exactly when the grammar cuts the text, and then
they are the lexemes of the cut.
-/

namespace TokenAudit

namespace Scan

/-- What a validation makes of a text. -/
def verdict (text : List Char) : Verdict :=
  if (tokensFrom .start text).all Token.isContent then
    .accepted (.ofList ((tokensFrom .start text).map Token.text))
  else .rejected

theorem verdict_of_content {text : List Char}
    (h : ∀ t ∈ tokensFrom .start text, t.isContent = true) :
    verdict text = .accepted (.ofList ((tokensFrom .start text).map Token.text)) := by
  rw [verdict, if_pos (List.all_eq_true.2 h)]

theorem verdict_of_not_content {text : List Char}
    (h : ¬ ∀ t ∈ tokensFrom .start text, t.isContent = true) : verdict text = .rejected := by
  rw [verdict, if_neg (mt List.all_eq_true.1 h)]

/-- A text is accepted if all its tokens are content, with the listing of their texts. -/
theorem verdict_eq_accepted_iff {text : List Char} {listing : Listing} :
    verdict text = .accepted listing ↔
      (∀ t ∈ tokensFrom .start text, t.isContent = true) ∧
        listing.toList = (tokensFrom .start text).map Token.text := by
  by_cases hcontent : ∀ t ∈ tokensFrom .start text, t.isContent = true
  · rw [verdict_of_content hcontent, Verdict.accepted.injEq]
    constructor
    · rintro rfl
      exact ⟨hcontent, rfl⟩
    · rintro ⟨-, htexts⟩
      exact Listing.ext_toList htexts.symm
  · rw [verdict_of_not_content hcontent]
    simp [hcontent]

/-- A text is rejected if one of its tokens is an error. -/
theorem verdict_eq_rejected_iff {text : List Char} :
    verdict text = .rejected ↔ ∃ t ∈ tokensFrom .start text, t.isError = true := by
  constructor
  · intro h
    have hcontent : ¬ ∀ t ∈ tokensFrom .start text, t.isContent = true := fun hall => by
      rw [verdict_of_content hall] at h
      cases h
    simp only [not_forall] at hcontent
    obtain ⟨t, ht, hother⟩ := hcontent
    refine ⟨t, ht, ?_⟩
    -- No token of a text is the end, so one that is not content is an error.
    by_contra herror
    exact hother (Validation.isContent_iff.2 ⟨Bool.not_eq_true _ ▸ herror, isEof_of_mem_tokensFrom ht⟩)
  · rintro ⟨t, ht, herror⟩
    refine verdict_of_not_content fun hall => ?_
    rw [(Validation.isContent_iff.1 (hall t ht)).1] at herror
    cases herror

variable {κ : Type} [TokenSink κ]

/-- The validation of a scan comes to the verdict on its text. -/
theorem result_run_ofText (text : List Char) (sink : κ) :
    (Validation.run (ofText text) sink).value.result = .ok (verdict text) := by
  have hands := handsOut_ofText text
  have hopen : ∀ t ∈ tokensFrom .start text, t.isEof = false :=
    fun t ht => isEof_of_mem_tokensFrom ht
  rcases Validation.content_or_error hopen with
    hcontent | ⟨content, error, rest, htokens, hcontent, herror⟩
  · rw [Validation.value_run_of_content hands hcontent, verdict_of_content hcontent]
  · have hrejected : verdict text = .rejected := by
      rw [verdict_eq_rejected_iff, htokens]
      exact ⟨error, List.mem_append_right _ (List.mem_cons_self ..), herror⟩
    rw [htokens] at hands
    rw [Validation.value_run_of_error hands hcontent herror, hrejected]

end Scan

namespace Grammar

/-- The kind and the text that a lexeme is reported with. -/
def reported (lexeme : Kind × List Char) : Kind × String := (lexeme.1, String.ofList lexeme.2)

/-- The token at the front of a text is content if the lexeme there has a kind and is no error. -/
theorem isContent_token_ofFront_iff (c : Char) (rest : List Char) (p : Position) :
    ((Lexeme.ofFront c rest).1.token p).isContent = true ↔
      ∃ kind, (Lexeme.ofFront c rest).1.kind? = some kind ∧ kind ≠ .error := by
  have hne := Lexeme.kind?_ofFront_ne_eof c rest
  rw [Lexeme.token_ofFront, Validation.isContent_iff]
  cases hkind : (Lexeme.ofFront c rest).1.kind? with
  | none => simp [Token.isError, Kind.isError]
  | some kind =>
      rw [hkind] at hne
      have heof : kind ≠ .eof := fun h => hne (by rw [h])
      simp [Token.isError, Token.isEof, Kind.isError, Kind.isEof, heof]

/-- The tokens of a text that is cut are the lexemes of the cut. -/
theorem map_tokensFrom_of_cuts {text : List Char} {pieces : List Piece} (h : Cuts text pieces)
    (p : Position) :
    (tokensFrom p text).map (fun t => (t.kind, t.text)) = (lexemesOf pieces).map reported := by
  induction h generalizing p with
  | nil =>
      rw [tokensFrom_nil]
      rfl
  | trivia htrivia _ ih =>
      rw [tokensFrom_of_item? (isTrivia_iff.1 htrivia), ih]
      rfl
  | lexeme hlexeme hmay _ ih =>
      obtain ⟨c, tail, rfl, hnone, hfront⟩ := front_of_isLexeme hlexeme hmay
      have hstep := tokensFrom_of_front (p := p) hnone
      rw [Lexeme.token_ofFront, hfront] at hstep
      rw [List.cons_append, hstep, List.map_cons, ih]
      rfl

theorem texts_of_cuts {text : List Char} {pieces : List Piece} (h : Cuts text pieces) :
    (tokensFrom .start text).map Token.text =
      (lexemesOf pieces).map fun lexeme => String.ofList lexeme.2 := by
  have hreported := congrArg (List.map Prod.snd) (map_tokensFrom_of_cuts h .start)
  rwa [List.map_map, List.map_map] at hreported

/-- A text can be cut exactly when all its tokens are content. -/
theorem exists_cuts_iff (p : Position) (text : List Char) :
    (∃ pieces, Cuts text pieces) ↔ ∀ t ∈ tokensFrom p text, t.isContent = true := by
  -- The text is read from the front: a piece of trivia, nothing, or a lexeme.
  fun_induction tokensFrom p text with
  | case1 p text item rest hitem ih =>
      rw [← ih]
      constructor
      · rintro ⟨pieces, hcuts⟩
        obtain ⟨later, -, hlater⟩ := (cuts_iff_of_item? hitem).1 hcuts
        exact ⟨later, hlater⟩
      · rintro ⟨later, hlater⟩
        exact ⟨_, (cuts_iff_of_item? hitem).2 ⟨later, rfl, hlater⟩⟩
  | case2 p hitem => simpa using ⟨[], Cuts.nil⟩
  | case3 p c rest hitem ih =>
      rw [List.forall_mem_cons, isContent_token_ofFront_iff, ← ih]
      constructor
      · rintro ⟨pieces, hcuts⟩
        obtain ⟨kind, later, hkind, herror, -, hlater⟩ := (cuts_iff_of_front hitem).1 hcuts
        exact ⟨⟨kind, hkind, herror⟩, later, hlater⟩
      · rintro ⟨⟨kind, hkind, herror⟩, later, hlater⟩
        exact ⟨_, (cuts_iff_of_front hitem).2 ⟨kind, later, hkind, herror, rfl, hlater⟩⟩

/-- The validation of a scan accepts exactly the texts that can be cut, and rejects all others.  A
cut is the only one of its text, and its lexemes are the tokens of the scan and the listing. -/
theorem run_accepts_exactly_cut_texts {κ : Type} [TokenSink κ] (text : List Char) (sink : κ) :
    (∀ listing,
      (Validation.run (Scan.ofText text) sink).value.result = .ok (.accepted listing) ↔
        ∃ pieces, Cuts text pieces ∧
          listing.toList = (lexemesOf pieces).map fun lexeme => String.ofList lexeme.2) ∧
    ((¬ ∃ pieces, Cuts text pieces) →
      (Validation.run (Scan.ofText text) sink).value.result = .ok .rejected) ∧
    (∀ pieces, Cuts text pieces → (∀ others, Cuts text others → others = pieces) ∧
      ∃ front stop, (Scan.ofText text).tokens.value = front ++ [.eof stop] ∧
        front.map (fun t => (t.kind, t.text)) = (lexemesOf pieces).map reported) := by
  refine ⟨fun listing => ?_, fun hnone => ?_, fun pieces hcuts => ⟨?_, ?_⟩⟩
  · rw [Scan.result_run_ofText, Except.ok.injEq, Scan.verdict_eq_accepted_iff,
      ← exists_cuts_iff]
    constructor
    · rintro ⟨⟨pieces, hcuts⟩, hlisting⟩
      exact ⟨pieces, hcuts, by rw [hlisting, texts_of_cuts hcuts]⟩
    · rintro ⟨pieces, hcuts, hlisting⟩
      exact ⟨⟨pieces, hcuts⟩, by rw [hlisting, texts_of_cuts hcuts]⟩
  · rw [exists_cuts_iff .start] at hnone
    rw [Scan.result_run_ofText, Scan.verdict_of_not_content hnone]
  · exact fun others hothers => cuts_unique hothers hcuts
  · exact ⟨_, _, Scan.tokens_ofText text, map_tokensFrom_of_cuts hcuts .start⟩

/-- A comment may stand between a keyword and an identifier. -/
theorem run_accepts_words_around_comment :
    let text := ['i', 'f', '/', '*', '*', '/', 'x', '1']
    let pieces : List Piece := [.lexeme .ifWord ['i', 'f'], .trivia ['/', '*', '*', '/'],
      .lexeme .identifier ['x', '1']]
    Cuts text pieces ∧
      (Validation.run (Scan.ofText text) NoTrace.mk).value.result =
        .ok (.accepted (.ofList ["if", "x1"])) := by
  intro text pieces
  have hkeyword : IsLexeme .ifWord ['i', 'f'] := .fixed rfl
  have hbefore : MayPrecede .ifWord ['/', '*', '*', '/', 'x', '1'] := by
    rw [mayPrecede_word (.inr (by decide))]
    intro c hc
    cases hc
    rfl
  have hcomment : IsTrivia ['/', '*', '*', '/'] ['x', '1'] := by
    have hbody : ¬ ['*', '/'] <:+: ([] : List Char) := by decide
    exact .blockComment hbody
  have hidentifier : IsLexeme .identifier ['x', '1'] := by
    have htail : ['1'].all Lexeme.isWordPart = true := rfl
    have hkind : (Lexeme.ofWord ['x', '1']).kind? = some .identifier := rfl
    exact (isLexeme_of_word rfl (List.all_eq_true.1 htail) hkind).1
  have hbehind : MayPrecede .identifier [] := by
    rw [mayPrecede_word (.inl rfl)]
    intro c hc
    cases hc
  have hcuts : Cuts text pieces :=
    .lexeme hkeyword hbefore (.trivia hcomment (.lexeme hidentifier hbehind .nil))
  exact ⟨hcuts, ((run_accepts_exactly_cut_texts text NoTrace.mk).1 _).2 ⟨pieces, hcuts, rfl⟩⟩

end Grammar

end TokenAudit
