import TokenAudit.Proofs.Judgement

/-!
# Artifacts as inputs

The artifact of a text is made of lexemes, one a line: those of the text if it is accepted, and
otherwise the one word that marks a failure.  A line feed may follow every lexeme and no lexeme
holds one, so the artifact is cut into the same lexemes again.  It is accepted, and its own artifact
is the same.
-/

namespace TokenAudit

namespace Grammar

/-- Every lexeme may end a line. -/
theorem mayPrecede_of_line_end {rest : List Char} (h : ∀ c, rest.head? = some c → c = '\n')
    (kind : Kind) : MayPrecede kind rest := by
  unfold MayPrecede
  split_ifs
  · intro c hc
    rw [h c hc]
    decide
  · intro c hc
    rw [h c hc]
    decide
  · refine ⟨fun hline => ?_, fun hblock => ?_⟩
    · cases h _ hline
    · cases h _ hblock

/-- No lexeme holds a line feed. -/
theorem lineFeed_not_mem_of_isLexeme {kind : Kind} {letters : List Char}
    (h : IsLexeme kind letters) : '\n' ∉ letters := by
  intro hmem
  cases h with
  | fixed hletters => cases kind <;> cases hletters <;> revert hmem <;> decide
  | zero => revert hmem; decide
  | integer hne hall hzero hvalue => cases hall _ hmem
  | stringLit hall =>
      simp only [List.mem_cons, List.mem_append, List.not_mem_nil, or_false] at hmem
      rcases hmem with hquote | hletter | hquote
      · cases hquote
      · cases hall _ hletter
      · cases hquote
  | identifier hc htail hfree =>
      rcases List.mem_cons.1 hmem with rfl | htailmem
      · cases hc
      · cases htail _ htailmem

theorem isContent_of_isLexeme {kind : Kind} {letters : List Char} (h : IsLexeme kind letters) :
    kind.isContent = true := by
  cases h with
  | fixed hletters => cases kind <;> first | rfl | cases hletters
  | zero => rfl
  | integer => rfl
  | stringLit => rfl
  | identifier => rfl

theorem isLexeme_of_mem_lexemesOf {text : List Char} {pieces : List Piece} (h : Cuts text pieces)
    {lexeme : Kind × List Char} (hmem : lexeme ∈ lexemesOf pieces) :
    IsLexeme lexeme.1 lexeme.2 := by
  induction h with
  | nil => cases hmem
  | trivia _ _ ih => exact ih hmem
  | lexeme hlexeme _ _ ih =>
      rcases List.mem_cons.1 hmem with rfl | hmem
      · exact hlexeme
      · exact ih hmem

/-! ### One lexeme a line -/

/-- Lexemes written one a line. -/
def rendered (lexemes : List (Kind × List Char)) : List Char :=
  ['\n'].intercalate (lexemes.map Prod.snd)

theorem rendered_singleton (lexeme : Kind × List Char) : rendered [lexeme] = lexeme.2 := by
  simp [rendered]

theorem rendered_cons_cons (lexeme second : Kind × List Char) (others : List (Kind × List Char)) :
    rendered (lexeme :: second :: others) = lexeme.2 ++ '\n' :: rendered (second :: others) := by
  simp [rendered, List.intercalate_cons_cons]

/-- A lexeme at the end of a line is taken as it is. -/
theorem tokensFrom_of_isLexeme {kind : Kind} {letters rest : List Char} (h : IsLexeme kind letters)
    (hrest : ∀ c, rest.head? = some c → c = '\n') (line : Nat) :
    tokensFrom ⟨line, 1⟩ (letters ++ rest) = ⟨kind, String.ofList letters, ⟨line, 1⟩⟩ ::
      tokensFrom ⟨line, 1 + letters.length⟩ rest := by
  have hfree := lineFeed_not_mem_of_isLexeme h
  have hafter : Position.after ⟨line, 1⟩ letters = ⟨line, 1 + letters.length⟩ :=
    Position.after_of_lineFeed_not_mem hfree
  obtain ⟨c, tail, hletters, hnone, hfront⟩ :=
    front_of_isLexeme h (mayPrecede_of_line_end hrest kind)
  have htokens := tokensFrom_of_front (p := ⟨line, 1⟩) hnone
  rw [Lexeme.token_ofFront, hfront, hafter] at htokens
  rw [hletters] at htokens ⊢
  exact htokens

/-- Lexemes written one a line are read back, each at the start of its line. -/
theorem tokensFrom_rendered {lexemes : List (Kind × List Char)}
    (h : ∀ lexeme ∈ lexemes, IsLexeme lexeme.1 lexeme.2) (line : Nat) :
    tokensFrom ⟨line, 1⟩ (rendered lexemes) = lexemes.mapIdx fun k lexeme =>
      ⟨lexeme.1, String.ofList lexeme.2, ⟨line + k, 1⟩⟩ := by
  induction lexemes generalizing line with
  | nil => exact tokensFrom_nil _
  | cons lexeme lexemes ih =>
      rw [List.forall_mem_cons] at h
      obtain ⟨hlexeme, hothers⟩ := h
      rw [List.mapIdx_cons]
      cases lexemes with
      | nil =>
          have hend : ∀ c, ([] : List Char).head? = some c → c = '\n' := fun c hc => by cases hc
          have htokens := tokensFrom_of_isLexeme hlexeme hend line
          rw [List.append_nil, tokensFrom_nil] at htokens
          rw [rendered_singleton, htokens]
          rfl
      | cons second others =>
          have hfeed : ∀ c, ('\n' :: rendered (second :: others)).head? = some c → c = '\n' :=
            fun c hc => (Option.some.inj hc).symm
          -- The line feed is skipped, and the other lexemes start on the next line.
          have hnext : Position.after ⟨line, 1 + lexeme.2.length⟩ ['\n'] = ⟨line + 1, 1⟩ := rfl
          rw [rendered_cons_cons, tokensFrom_of_isLexeme hlexeme hfeed,
            tokensFrom_of_item? (Trivia.item?_of_isBlank rfl _), hnext, ih hothers]
          simp only [Nat.add_zero, Nat.add_assoc, Nat.add_comm 1]

/-- Lexemes written one a line are accepted, with the same listing. -/
theorem verdict_rendered {lexemes : List (Kind × List Char)}
    (h : ∀ lexeme ∈ lexemes, IsLexeme lexeme.1 lexeme.2) :
    Scan.verdict (rendered lexemes) =
      .accepted (.ofList (lexemes.map fun lexeme => String.ofList lexeme.2)) := by
  have htokens := tokensFrom_rendered h 1
  rw [Scan.verdict_eq_accepted_iff]
  show (∀ t ∈ tokensFrom ⟨1, 1⟩ (rendered lexemes), t.isContent = true) ∧
    _ = (tokensFrom ⟨1, 1⟩ (rendered lexemes)).map Token.text
  rw [htokens]
  constructor
  · intro t ht
    obtain ⟨k, hk, rfl⟩ := List.mem_mapIdx.1 ht
    exact isContent_of_isLexeme (h _ (List.getElem_mem hk))
  · rw [Listing.toList_ofList]
    apply List.ext_getElem
    · simp
    · intro k hk hk'
      simp

/-- The tokens of lexemes written one a line are tokens that report the same, moved to the starts of
the lines. -/
theorem mapIdx_eq_of_reported {tokens : List Token} {lexemes : List (Kind × List Char)}
    (h : tokens.map (fun t => (t.kind, t.text)) = lexemes.map reported) :
    (lexemes.mapIdx fun k lexeme => ⟨lexeme.1, String.ofList lexeme.2, ⟨1 + k, 1⟩⟩) =
      tokens.mapIdx fun k t => { t with position := ⟨k + 1, 1⟩ } := by
  apply List.ext_getElem?
  intro k
  have hk : (tokens.map fun t => (t.kind, t.text))[k]? = (lexemes.map reported)[k]? := by rw [h]
  rw [List.getElem?_map, List.getElem?_map] at hk
  rw [List.getElem?_mapIdx, List.getElem?_mapIdx, Nat.add_comm]
  cases htoken : tokens[k]? with
  | none =>
      rw [htoken, Option.map_none] at hk
      rw [Option.map_eq_none_iff.1 hk.symm]
      rfl
  | some t =>
      rw [htoken, Option.map_some] at hk
      obtain ⟨lexeme, hlexeme, heq⟩ := Option.map_eq_some_iff.1 hk.symm
      rw [reported, Prod.mk.injEq] at heq
      rw [hlexeme, Option.map_some, Option.map_some, heq.1, heq.2]

/-- The artifact of lexemes is their text, one a line. -/
theorem contents_listing (lexemes : List (Kind × List Char)) :
    (Artifact.listing (.ofList (lexemes.map fun lexeme => String.ofList lexeme.2))).contents =
      String.ofList (rendered lexemes) := by
  apply String.toList_injective
  show (String.intercalate "\n" (lexemes.map fun lexeme => String.ofList lexeme.2)).toList = _
  have hletters : lexemes.map (String.toList ∘ fun lexeme => String.ofList lexeme.2) =
      lexemes.map Prod.snd := List.map_congr_left fun lexeme _ => String.toList_ofList
  rw [String.toList_intercalate, List.map_map, hletters, String.toList_ofList,
    String.toList_ofList, rendered]

/-- The tokens of an accepted text are lexemes of the grammar, and its artifact holds them one a
line. -/
theorem exists_lexemes_of_accepted {text : List Char} {listing : Listing}
    (h : Scan.verdict text = .accepted listing) :
    ∃ lexemes : List (Kind × List Char), (∀ lexeme ∈ lexemes, IsLexeme lexeme.1 lexeme.2) ∧
      (tokensFrom .start text).map (fun t => (t.kind, t.text)) = lexemes.map reported ∧
      listing = .ofList (lexemes.map fun lexeme => String.ofList lexeme.2) ∧
      (Artifact.listing listing).contents = String.ofList (rendered lexemes) := by
  obtain ⟨hcontent, hlisting⟩ := Scan.verdict_eq_accepted_iff.1 h
  obtain ⟨pieces, hcuts⟩ := (exists_cuts_iff .start text).2 hcontent
  have htexts : listing =
      .ofList ((lexemesOf pieces).map fun lexeme => String.ofList lexeme.2) := by
    apply Listing.ext_toList
    rw [hlisting, texts_of_cuts hcuts, Listing.toList_ofList]
  exact ⟨lexemesOf pieces, fun lexeme hmem => isLexeme_of_mem_lexemesOf hcuts hmem,
    map_tokensFrom_of_cuts hcuts .start, htexts, by rw [htexts, contents_listing]⟩

/-- The word that marks a failure is an identifier. -/
theorem isLexeme_failureMarker : IsLexeme .identifier ['E', 'R', 'R', 'O', 'R'] := by
  have htail : ['R', 'R', 'O', 'R'].all Lexeme.isWordPart = true := rfl
  have hkind : (Lexeme.ofWord ['E', 'R', 'R', 'O', 'R']).kind? = some .identifier := rfl
  exact (isLexeme_of_word rfl (List.all_eq_true.1 htail) hkind).1

/-- Every artifact of a validation is made of lexemes, one a line. -/
theorem exists_rendered (result : Except Fault Verdict)
    (h : ∀ verdict, result = .ok verdict → ∃ text, verdict = Scan.verdict text) :
    ∃ lexemes : List (Kind × List Char), (∀ lexeme ∈ lexemes, IsLexeme lexeme.1 lexeme.2) ∧
      (Audit.artifactOf result).contents = String.ofList (rendered lexemes) := by
  -- A fault and a rejection leave the one word that marks a failure.
  have hmarker : ∃ lexemes : List (Kind × List Char),
      (∀ lexeme ∈ lexemes, IsLexeme lexeme.1 lexeme.2) ∧
        Artifact.failure.contents = String.ofList (rendered lexemes) := by
    refine ⟨[(.identifier, ['E', 'R', 'R', 'O', 'R'])], ?_, ?_⟩
    · rw [List.forall_mem_singleton]
      exact isLexeme_failureMarker
    · rw [rendered_singleton]
      rfl
  cases result with
  | error fault => exact hmarker
  | ok verdict =>
      obtain ⟨text, rfl⟩ := h verdict rfl
      cases hverdict : Scan.verdict text with
      | accepted listing =>
          obtain ⟨lexemes, hlexemes, -, -, hcontents⟩ := exists_lexemes_of_accepted hverdict
          exact ⟨lexemes, hlexemes, hcontents⟩
      | rejected => exact hmarker

end Grammar

namespace Audit

variable {κ : Type} [TokenSink κ]

/-- The artifact that validating a text leaves. -/
def artifactText (sink : κ) (text : String) : String :=
  (artifactOf (Validation.run (Scan.ofText text.toList) sink).value.result).contents

theorem artifactText_eq (sink : κ) (text : String) :
    artifactText sink text = (artifactOf (.ok (Scan.verdict text.toList))).contents := by
  rw [artifactText, Scan.result_run_ofText]

/-- The artifact of an accepted text holds its tokens, which are lexemes of the grammar, one a
line. -/
theorem exists_lexemes_of_artifactText {text : String} {listing : Listing}
    (h : Scan.verdict text.toList = .accepted listing) (sink : κ) :
    ∃ lexemes : List (Kind × List Char),
      (∀ lexeme ∈ lexemes, Grammar.IsLexeme lexeme.1 lexeme.2) ∧
      (tokensFrom .start text.toList).map (fun t => (t.kind, t.text)) =
        lexemes.map Grammar.reported ∧
      listing = .ofList (lexemes.map fun lexeme => String.ofList lexeme.2) ∧
      artifactText sink text = String.ofList (Grammar.rendered lexemes) := by
  rw [artifactText_eq, h]
  exact Grammar.exists_lexemes_of_accepted h

/-- Lexemes written one a line are their own artifact. -/
theorem artifactOf_rendered {lexemes : List (Kind × List Char)}
    (h : ∀ lexeme ∈ lexemes, Grammar.IsLexeme lexeme.1 lexeme.2) :
    (artifactOf (.ok (Scan.verdict (Grammar.rendered lexemes)))).contents =
      String.ofList (Grammar.rendered lexemes) := by
  rw [Grammar.verdict_rendered h, ← Grammar.contents_listing]
  rfl

/-- An audit of what an audit wrote writes the same again. -/
theorem contents_of_second_audit {κ' : Type} [TokenSink κ'] {fs files : FileSystem}
    {input output : String} {sink : κ} {other : κ'}
    (h : files.read output = .ok (artifactOf (judged fs input sink)).contents.toUTF8) :
    (artifactOf (judged files output other)).contents =
      (artifactOf (judged fs input sink)).contents := by
  obtain ⟨lexemes, hlexemes, hcontents⟩ :=
    Grammar.exists_rendered (judged fs input sink) fun _ => exists_text_of_judged
  rw [judged_of_read h, hcontents, String.toList_ofList, artifactOf_rendered hlexemes]

/-- The tokens of the artifact of an accepted text are those of the text, each at the start of a
line. -/
theorem tokens_of_artifactText {text : String} {listing : Listing}
    (h : Scan.verdict text.toList = .accepted listing) (sink : κ) :
    tokensFrom .start (artifactText sink text).toList =
      (tokensFrom .start text.toList).mapIdx fun k t => { t with position := ⟨k + 1, 1⟩ } := by
  obtain ⟨lexemes, hlexemes, htokens, -, hartifact⟩ := exists_lexemes_of_artifactText h sink
  rw [hartifact, String.toList_ofList, ← Grammar.mapIdx_eq_of_reported htokens]
  exact Grammar.tokensFrom_rendered hlexemes 1

/-- Every artifact is accepted as a text and is its own artifact.  The artifact of an accepted text
holds its tokens, one a line.  An audit of what another audit wrote leaves the same bytes in both
files. -/
theorem artifact_is_fixed_point {κ' : Type} [TokenSink κ'] (sink : κ) (other : κ') :
    (∀ text : String,
      (∃ listing,
        (Validation.run (Scan.ofText (artifactText sink text).toList) sink).value.result =
          .ok (.accepted listing)) ∧
      artifactText sink (artifactText sink text) = artifactText sink text ∧
      ∀ listing,
        (Validation.run (Scan.ofText text.toList) sink).value.result = .ok (.accepted listing) →
        ∃ front stop stop', (Scan.ofText text.toList).tokens.value = front ++ [.eof stop] ∧
          (∀ t ∈ front, t.isEof = false) ∧ front.length = listing.size ∧
          (Scan.ofText (artifactText sink text).toList).tokens.value =
            (front.mapIdx fun k t => { t with position := ⟨k + 1, 1⟩ }) ++ [.eof stop']) ∧
    (∀ (fs : FileSystem) (input first second : String),
      let once := (runWithSink fs input first sink).value
      let twice := (runWithSink once.files first second other).value
      (∀ error, once.result ≠ .error (.write error)) →
      (∀ error, twice.result ≠ .error (.write error)) →
      ∃ bytes, once.files.read first = .ok bytes ∧ twice.files.read first = .ok bytes ∧
        twice.files.read second = .ok bytes) := by
  constructor
  · intro text
    obtain ⟨lexemes, hlexemes, hcontents⟩ := Grammar.exists_rendered
      (.ok (Scan.verdict text.toList)) fun verdict h => ⟨_, (Except.ok.inj h).symm⟩
    refine ⟨?_, ?_, ?_⟩
    · rw [Scan.result_run_ofText, artifactText_eq, hcontents, String.toList_ofList,
        Grammar.verdict_rendered hlexemes]
      exact ⟨_, rfl⟩
    · rw [artifactText_eq, artifactText_eq, hcontents, String.toList_ofList,
        artifactOf_rendered hlexemes]
    · intro listing haccepted
      rw [Scan.result_run_ofText, Except.ok.injEq] at haccepted
      have hlisting := congrArg List.length (Scan.verdict_eq_accepted_iff.1 haccepted).2
      rw [List.length_map] at hlisting
      have htokens := Scan.tokens_ofText (artifactText sink text).toList
      rw [tokens_of_artifactText haccepted] at htokens
      exact ⟨_, _, _, Scan.tokens_ofText text.toList, fun t ht => isEof_of_mem_tokensFrom ht,
        hlisting.symm, htokens⟩
  · intro fs input first second once twice honce htwice
    -- Both audits put the same bytes in place, so the second one cannot spoil the first output.
    obtain ⟨_, hfirst⟩ := exists_replaced_of_written honce
    obtain ⟨_, hsecond⟩ := exists_replaced_of_written htwice
    rw [contents_of_second_audit hfirst.read_eq] at hsecond
    exact ⟨_, hfirst.read_eq, hsecond.read_of_read hfirst.read_eq, hsecond.read_eq⟩

/-- An input that is missing leaves the failure marker at a path from the top, and an audit of it the
marker again, above the working directory. -/
theorem artifact_is_fixed_point_of_missing_input :
    let fs : FileSystem := { workingDirectory := "/work" }
    let once := (runWithSink fs "in" "/work/a" NoTrace.mk).value
    let twice := (runWithSink once.files "/work/a" "../b" NoTrace.mk).value
    (∀ error, once.result ≠ .error (.write error)) ∧
      (∀ error, twice.result ≠ .error (.write error)) ∧
      twice.files.read "/work/a" = .ok "ERROR".toUTF8 ∧
      twice.files.read "../b" = .ok "ERROR".toUTF8 := by
  dsimp only
  generalize hfs : ({ workingDirectory := "/work" } : FileSystem) = fs
  generalize honceEq : (runWithSink fs "in" "/work/a" NoTrace.mk).value = once
  generalize htwiceEq : (runWithSink once.files "/work/a" "../b" NoTrace.mk).value = twice
  have hfixed := (artifact_is_fixed_point NoTrace.mk NoTrace.mk).2 fs "in" "/work/a" "../b"
  simp only [honceEq, htwiceEq] at hfixed
  have honce : (once.result matches .error (.write _)) = false := by
    rw [← honceEq, ← hfs]
    decide +kernel
  have htwice : (twice.result matches .error (.write _)) = false := by
    rw [← htwiceEq, ← honceEq, ← hfs]
    decide +kernel
  have hread : once.files.read "/work/a" = .ok "ERROR".toUTF8 := by
    rw [← honceEq, ← hfs]
    decide +kernel
  have hwritten {result : Except AuditError Outcome}
      (h : (result matches .error (.write _)) = false) (error : ArtifactError) :
      result ≠ .error (.write error) := by
    rintro rfl
    cases h
  obtain ⟨bytes, hbytes, hfirst, hsecond⟩ := hfixed (hwritten honce) (hwritten htwice)
  obtain rfl := Except.ok.inj (hread.symm.trans hbytes)
  exact ⟨hwritten honce, hwritten htwice, hfirst, hsecond⟩

end Audit

end TokenAudit
