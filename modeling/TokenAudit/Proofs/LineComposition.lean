import TokenAudit.Proofs.Acceptance
import TokenAudit.Proofs.LineChanges

/-!
# Texts that are joined by a line feed

Nothing that a scan takes from the front of a text reaches over a line feed, except a block comment.
A closed block comment ends where it ends whatever follows, so only a comment that is never closed
can see what stands behind the text.  Without one, the tokens of two texts joined by a line feed are
the tokens of the first text and then those of the second, further down.
-/

namespace TokenAudit

/-- The same token so many lines further down. -/
def Token.down (lines : Nat) (t : Token) : Token := { t with position := t.position.down lines }

/-- The error over a comment that is never closed. -/
def Token.isOpenComment (t : Token) : Bool := t.isError && ['/', '*'].isPrefixOf t.text.toList

@[simp] theorem Token.isContent_down (lines : Nat) (t : Token) :
    (t.down lines).isContent = t.isContent := rfl

/-! ### What a line feed cannot change -/

/-- More text behind a line feed changes the end of the last line. -/
theorem changesLineEnds_append_lineFeed (later : List Char) :
    ChangesLineEnds fun text => text ++ '\n' :: later where
  cons _ _ := rfl
  isBlank_nil c hc := by
    obtain rfl : '\n' = c := Option.some.inj hc
    rfl
  isBlank_lineFeed text c hc := by
    obtain rfl : '\n' = c := Option.some.inj hc
    rfl

/-- The trivia in front is not changed by what stands behind the line feed. -/
theorem Trivia.item?_append_lineFeed {text item rest : List Char}
    (h : item? text = some (item, rest)) (later : List Char) :
    item? (text ++ '\n' :: later) = some (item, rest ++ '\n' :: later) := by
  obtain rfl := append_of_item? h
  rw [List.append_assoc, ← Grammar.isTrivia_iff]
  cases Grammar.isTrivia_iff.2 h with
  | blank hc => exact .blank hc
  | lineComment hbody hend =>
      refine .lineComment hbody (.inr ?_)
      rcases hend with rfl | hfeed
      · rfl
      · rw [List.head?_append, hfeed]
        rfl
  | blockComment hbody => exact .blockComment hbody

theorem Lexeme.isOpenComment_token_ofFront {c : Char} {rest : List Char} (hc : c = '/')
    (hrest : rest.head? = some '*') (p : Position) :
    ((ofFront c rest).1.token p).isOpenComment = true := by
  obtain ⟨body, rfl⟩ := List.head?_eq_some_iff.1 hrest
  subst hc
  rw [ofFront_openComment]
  simp [Lexeme.token, Token.isOpenComment, Token.error, Token.isError, Kind.isError]

/-! ### The tokens of both texts -/

/-- From further down, the same tokens are read further down. -/
theorem tokensFrom_down (p : Position) (lines : Nat) (text : List Char) :
    tokensFrom (p.down lines) text = (tokensFrom p text).map (Token.down lines) := by
  fun_induction tokensFrom p text with
  | case1 p text item rest hitem ih =>
      rw [tokensFrom_of_item? hitem, Position.after_down, ih]
  | case2 p hitem => rw [tokensFrom_nil, List.map_nil]
  | case3 p c rest hitem ih =>
      rw [tokensFrom_of_front hitem, Position.after_down, ih, List.map_cons,
        Lexeme.token_ofFront, Lexeme.token_ofFront]
      rfl

/-- The tokens of two texts joined by a line feed, if no comment is left open in the first. -/
theorem tokensFrom_append_lineFeed {p : Position} {text : List Char} (later : List Char)
    (h : ∀ t ∈ tokensFrom p text, t.isOpenComment = false) :
    tokensFrom p (text ++ '\n' :: later) =
      tokensFrom p text ++ tokensFrom (p.after (text ++ ['\n'])) later := by
  -- The induction is on what is taken from the first text, a piece of trivia or a lexeme.
  fun_induction tokensFrom p text with
  | case1 p text item rest hitem ih =>
      have htext := Trivia.append_of_item? hitem
      rw [tokensFrom_of_item? (Trivia.item?_append_lineFeed hitem later), ih h, ← htext,
        List.append_assoc, Position.after_append p item]
  | case2 p hitem =>
      rw [List.nil_append, tokensFrom_of_item? (Trivia.item?_of_isBlank rfl later)]
      rfl
  | case3 p c rest hitem ih =>
      rw [List.forall_mem_cons] at h
      have hcomment : c = '/' → rest.head? ≠ some '*' := by
        intro hc hhead
        have hopen := Lexeme.isOpenComment_token_ofFront hc hhead p
        rw [h.1] at hopen
        cases hopen
      have hchange := changesLineEnds_append_lineFeed later
      have hnone := hchange.item?_eq_none hitem hcomment
      have hparts := Lexeme.letters_append_ofFront c rest
      have hafter : p.after (c :: rest ++ ['\n']) =
          (p.after (Lexeme.ofFront c rest).1.letters).after
            ((Lexeme.ofFront c rest).2 ++ ['\n']) := by
        rw [← hparts, List.append_assoc, Position.after_append]
      rw [List.cons_append, tokensFrom_of_front hnone,
        hchange.ofFront_eq hcomment, ih h.2, hafter]
      rfl

/-- Behind a line feed, a text stands at the start of a line further down. -/
theorem Position.start_after_lineFeed (text : List Char) :
    Position.start.after (text ++ ['\n']) = Position.start.down (1 + text.count '\n') := by
  have hline := line_after .start text
  rw [after_append, after_cons, after_nil, afterChar_lineFeed, hline]
  simp only [down, start, Position.mk.injEq, and_true]
  omega

namespace Scan

theorem tokensFrom_joined {first : List Char} (second : List Char)
    (h : ∀ t ∈ tokensFrom .start first, t.isOpenComment = false) :
    tokensFrom .start (first ++ '\n' :: second) = tokensFrom .start first ++
      (tokensFrom .start second).map (Token.down (1 + first.count '\n')) := by
  rw [tokensFrom_append_lineFeed second h, Position.start_after_lineFeed, tokensFrom_down]

/-- Two texts joined by a line feed are accepted when both are, with both listings. -/
theorem verdict_joined_eq_accepted_iff {first : List Char} (second : List Char)
    (h : ∀ t ∈ tokensFrom .start first, t.isOpenComment = false) (listing : Listing) :
    verdict (first ++ '\n' :: second) = .accepted listing ↔
      ∃ front back, verdict first = .accepted front ∧ verdict second = .accepted back ∧
        listing.toList = front.toList ++ back.toList := by
  have htexts : (tokensFrom .start (first ++ '\n' :: second)).map Token.text =
      (tokensFrom .start first).map Token.text ++ (tokensFrom .start second).map Token.text := by
    rw [tokensFrom_joined second h, List.map_append, List.map_map]
    rfl
  have hcontent : (∀ t ∈ tokensFrom .start (first ++ '\n' :: second), t.isContent = true) ↔
      (∀ t ∈ tokensFrom .start first, t.isContent = true) ∧
        ∀ t ∈ tokensFrom .start second, t.isContent = true := by
    rw [tokensFrom_joined second h]
    simp only [List.forall_mem_append, List.forall_mem_map, Token.isContent_down]
  rw [verdict_eq_accepted_iff, htexts, hcontent]
  constructor
  · rintro ⟨⟨hfirst, hsecond⟩, hlisting⟩
    exact ⟨_, _, verdict_of_content hfirst, verdict_of_content hsecond, hlisting⟩
  · rintro ⟨front, back, hfront, hback, hlisting⟩
    rw [verdict_eq_accepted_iff] at hfront hback
    exact ⟨⟨hfront.1, hback.1⟩, by rw [hlisting, hfront.2, hback.2]⟩

/-- If no comment is left open in a text, the tokens behind it and a line feed are those of the
second text, further down.  The joined text is accepted when both texts are, with both listings. -/
theorem tokens_joined_by_lineFeed {κ : Type} [TokenSink κ] (first second : List Char) (sink : κ)
    (h : ∀ t ∈ (ofText first).tokens.value, t.isOpenComment = false) :
    (∃ front stop, (ofText first).tokens.value = front ++ [.eof stop] ∧
      (∀ t ∈ front, t.isEof = false) ∧
      (ofText (first ++ '\n' :: second)).tokens.value =
        front ++ (ofText second).tokens.value.map (Token.down (1 + first.count '\n'))) ∧
    (∀ listing, (Validation.run (ofText (first ++ '\n' :: second)) sink).value.result =
        .ok (.accepted listing) ↔
      ∃ front back,
        (Validation.run (ofText first) sink).value.result = .ok (.accepted front) ∧
        (Validation.run (ofText second) sink).value.result = .ok (.accepted back) ∧
        listing.toList = front.toList ++ back.toList) := by
  rw [tokens_ofText, List.forall_mem_append] at h
  refine ⟨⟨_, _, tokens_ofText first, fun t ht => isEof_of_mem_tokensFrom ht, ?_⟩, ?_⟩
  · have hstop : Position.start.after (first ++ '\n' :: second) =
        (Position.start.after second).down (1 + first.count '\n') := by
      rw [← List.singleton_append, ← List.append_assoc, Position.after_append,
        Position.start_after_lineFeed, Position.after_down]
    rw [tokens_ofText, tokens_ofText, tokensFrom_joined second h.1, hstop, List.map_append,
      List.append_assoc]
    rfl
  · intro listing
    simp only [result_run_ofText, Except.ok.injEq]
    exact verdict_joined_eq_accepted_iff second h.1 listing

/-- A string that is broken by the line feed and a word behind it. -/
theorem tokens_joined_behind_broken_string :
    let broken : Token := .error "\"a" .start
    (∀ t ∈ (ofText ['"', 'a']).tokens.value, t.isOpenComment = false) ∧
      (ofText ['"', 'a', '\n', 'x']).tokens.value =
        [broken, ⟨.identifier, "x", ⟨2, 1⟩⟩, .eof ⟨2, 2⟩] := by
  intro broken
  have hstring : Lexeme.ofFront '"' ['a'] = (⟨none, ['"', 'a']⟩, []) := by decide
  have hword : Lexeme.ofFront 'x' [] = (⟨some .identifier, ['x']⟩, []) := by decide
  have hfirst : (ofText ['"', 'a']).tokens.value = [broken] ++ [.eof ⟨1, 3⟩] := by
    rw [tokens_ofText, tokensFrom_of_front rfl, hstring, tokensFrom_nil]
    rfl
  have hsecond : (ofText ['x']).tokens.value = [⟨.identifier, "x", .start⟩, .eof ⟨1, 2⟩] := by
    rw [tokens_ofText, tokensFrom_of_front rfl, hword, tokensFrom_nil]
    rfl
  have hclosed : ∀ t ∈ (ofText ['"', 'a']).tokens.value, t.isOpenComment = false := by
    rw [hfirst]
    decide
  refine ⟨hclosed, ?_⟩
  obtain ⟨⟨front, stop, hfront, -, hjoined⟩, -⟩ :=
    tokens_joined_by_lineFeed ['"', 'a'] ['x'] NoTrace.mk hclosed
  have hbroken : front = [broken] := by
    rw [hfirst] at hfront
    exact (List.append_inj' hfront rfl).1.symm
  rw [hbroken, hsecond] at hjoined
  exact hjoined

end Scan

end TokenAudit
