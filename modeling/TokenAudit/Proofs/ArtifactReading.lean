import TokenAudit.Proofs.FixedPoint

/-!
# What an artifact tells

The artifact of an accepted text holds the lexemes of the text, one a line.  It can be read back, so
it determines the lexemes (`Grammar.rendered_inj`), and with them the kinds and texts of all tokens.
Its lines are the listing, because no lexeme holds a line feed.

The failure marker is itself a text of one lexeme.  So a listing reads like the marker exactly if it
lists the one identifier that is spelled that way.
-/

namespace TokenAudit

namespace Grammar

/-- Lexemes written one a line determine the lexemes, for they can be read back. -/
theorem rendered_inj {lexemes others : List (Kind × List Char)}
    (h : ∀ lexeme ∈ lexemes, IsLexeme lexeme.1 lexeme.2)
    (hothers : ∀ lexeme ∈ others, IsLexeme lexeme.1 lexeme.2) :
    rendered lexemes = rendered others ↔ lexemes = others := by
  constructor
  · intro heq
    have hread {known : List (Kind × List Char)}
        (hknown : ∀ lexeme ∈ known, IsLexeme lexeme.1 lexeme.2) :
        (tokensFrom .start (rendered known)).map (fun t => (t.kind, t.text.toList)) = known := by
      have htokens : tokensFrom .start (rendered known) = _ := tokensFrom_rendered hknown 1
      rw [htokens]
      apply List.ext_getElem
      · simp
      · intro k hk hk'
        simp
    rw [← hread h, heq, hread hothers]
  · exact congrArg rendered

theorem reported_injective : Function.Injective reported := by
  intro lexeme other h
  rw [reported, reported, Prod.mk.injEq] at h
  exact Prod.ext h.1 (String.ofList_injective h.2)

/-- The lines of lexemes written one a line are the lexemes. -/
theorem splitOn_rendered {lexemes : List (Kind × List Char)} (hne : lexemes ≠ [])
    (h : ∀ lexeme ∈ lexemes, IsLexeme lexeme.1 lexeme.2) :
    (rendered lexemes).splitOn '\n' = lexemes.map Prod.snd := by
  refine List.splitOn_intercalate '\n' ?_ (by simpa using hne)
  intro letters hletters
  obtain ⟨lexeme, hmem, rfl⟩ := List.mem_map.1 hletters
  exact lineFeed_not_mem_of_isLexeme (h lexeme hmem)

/-- A line feed stands between any two lexemes that are written one a line. -/
theorem count_lineFeed_rendered {lexemes : List (Kind × List Char)} (hne : lexemes ≠ [])
    (h : ∀ lexeme ∈ lexemes, IsLexeme lexeme.1 lexeme.2) :
    (rendered lexemes).count '\n' + 1 = lexemes.length := by
  induction lexemes with
  | nil => exact absurd rfl hne
  | cons lexeme lexemes ih =>
      rw [List.forall_mem_cons] at h
      have hfirst := List.count_eq_zero.2 (lineFeed_not_mem_of_isLexeme h.1)
      cases lexemes with
      | nil => rw [rendered_singleton, hfirst, List.length_singleton]
      | cons second others =>
          have hothers := ih (List.cons_ne_nil _ _) h.2
          rw [rendered_cons_cons, List.count_append, hfirst, Nat.zero_add, List.count_cons_self,
            hothers, List.length_cons (a := lexeme)]

end Grammar

namespace Audit

variable {κ : Type} [TokenSink κ]

/-- The kinds and texts of tokens, without their positions. -/
def words (tokens : List Token) : List (Kind × String) := tokens.map fun t => (t.kind, t.text)

/-- An accepted text is one of given lexemes exactly if these stand in its artifact. -/
theorem artifactText_eq_rendered_iff {text : String} {listing : Listing}
    (h : Scan.verdict text.toList = .accepted listing) {lexemes : List (Kind × List Char)}
    (hlexemes : ∀ lexeme ∈ lexemes, Grammar.IsLexeme lexeme.1 lexeme.2) (sink : κ) :
    artifactText sink text = String.ofList (Grammar.rendered lexemes) ↔
      words (tokensFrom .start text.toList) = lexemes.map Grammar.reported := by
  obtain ⟨own, hown, htokens, -, hartifact⟩ := exists_lexemes_of_artifactText h sink
  rw [hartifact, String.ofList_inj, Grammar.rendered_inj hown hlexemes, words, htokens,
    Grammar.reported_injective.list_map.eq_iff]

/-- Two accepted texts leave the same artifact exactly if their tokens have the same kinds and
texts. -/
theorem artifactText_eq_iff {κ' : Type} [TokenSink κ'] {text other : String}
    {listing listing' : Listing} (h : Scan.verdict text.toList = .accepted listing)
    (h' : Scan.verdict other.toList = .accepted listing') (sink : κ) (sink' : κ') :
    artifactText sink text = artifactText sink' other ↔
      words (tokensFrom .start text.toList) = words (tokensFrom .start other.toList) := by
  obtain ⟨lexemes, hlexemes, htokens, -, hartifact⟩ := exists_lexemes_of_artifactText h' sink'
  rw [hartifact, artifactText_eq_rendered_iff h hlexemes, ← htokens]
  exact Iff.rfl

/-- An accepted text leaves nothing exactly if it has no token. -/
theorem artifactText_eq_empty_iff {text : String} {listing : Listing}
    (h : Scan.verdict text.toList = .accepted listing) (sink : κ) :
    artifactText sink text = "" ↔ tokensFrom .start text.toList = [] := by
  have hnone : ∀ lexeme ∈ ([] : List (Kind × List Char)),
      Grammar.IsLexeme lexeme.1 lexeme.2 := fun _ hmem => absurd hmem List.not_mem_nil
  have hiff := artifactText_eq_rendered_iff h hnone sink
  rwa [List.map_nil, words, List.map_eq_nil_iff] at hiff

/-- An accepted text leaves the failure marker exactly if its one token is spelled like it. -/
theorem artifactText_eq_marker_iff {text : String} {listing : Listing}
    (h : Scan.verdict text.toList = .accepted listing) (sink : κ) :
    artifactText sink text = Artifact.failure.contents ↔
      ∃ p, tokensFrom .start text.toList = [⟨.identifier, "ERROR", p⟩] := by
  have hmarker : ∀ lexeme ∈ [(Kind.identifier, ['E', 'R', 'R', 'O', 'R'])],
      Grammar.IsLexeme lexeme.1 lexeme.2 :=
    List.forall_mem_singleton.2 Grammar.isLexeme_failureMarker
  have hiff := artifactText_eq_rendered_iff h hmarker sink
  rw [Grammar.rendered_singleton] at hiff
  refine hiff.trans ⟨fun hwords => ?_, fun ⟨p, htokens⟩ => by rw [htokens]; rfl⟩
  obtain ⟨⟨kind, written, p⟩, htokens, ht⟩ := List.map_eq_singleton_iff.1 hwords
  obtain ⟨rfl, rfl⟩ := Prod.mk.inj ht
  exact ⟨p, htokens⟩

/-- The artifact of an accepted text determines the kinds and texts of its tokens.  Its lines are
the listing, and it is empty only where there is no token.  It reads like the failure marker, and so
like the artifact of a rejected text, exactly if the one token is an identifier of that spelling. -/
theorem artifact_determines_tokens {κ' : Type} [TokenSink κ'] (sink : κ) (sink' : κ')
    (text : String) (listing : Listing)
    (h : (Validation.run (Scan.ofText text.toList) sink).value.result = .ok (.accepted listing)) :
    ∃ front stop, (Scan.ofText text.toList).tokens.value = front ++ [.eof stop] ∧
      (∀ t ∈ front, t.isEof = false) ∧ front.length = listing.size ∧
      (∀ other others,
        (Validation.run (Scan.ofText other.toList) sink').value.result = .ok (.accepted others) →
        (artifactText sink text = artifactText sink' other ↔
          words (Scan.ofText text.toList).tokens.value =
            words (Scan.ofText other.toList).tokens.value)) ∧
      (front ≠ [] →
        ((artifactText sink text).toList.splitOn '\n').map String.ofList = listing.toList ∧
        (artifactText sink text).toList.count '\n' = front.length - 1) ∧
      (artifactText sink text = "" ↔ front = []) ∧
      (artifactText sink text = Artifact.failure.contents ↔
        ∃ p, front = [⟨.identifier, "ERROR", p⟩]) ∧
      (∀ other, (Validation.run (Scan.ofText other.toList) sink').value.result = .ok .rejected →
        ((artifactText sink text).toUTF8 = (artifactText sink' other).toUTF8 ↔
          ∃ p, front = [⟨.identifier, "ERROR", p⟩])) := by
  rw [Scan.result_run_ofText, Except.ok.injEq] at h
  obtain ⟨lexemes, hlexemes, htokens, hlisting, hartifact⟩ := exists_lexemes_of_artifactText h sink
  have hlength : (tokensFrom .start text.toList).length = lexemes.length := by
    rw [← List.length_map, htokens, List.length_map]
  have hwords (tokens : List Token) (stop : Position) :
      words (tokens ++ [.eof stop]) = words tokens ++ [(.eof, "")] := List.map_append
  refine ⟨_, _, Scan.tokens_ofText text.toList, fun t ht => isEof_of_mem_tokensFrom ht,
    ?_, ?_, ?_, artifactText_eq_empty_iff h sink, artifactText_eq_marker_iff h sink, ?_⟩
  · rw [hlength, hlisting, ← Listing.length_toList, Listing.toList_ofList, List.length_map]
  · intro other others hother
    rw [Scan.result_run_ofText, Except.ok.injEq] at hother
    rw [artifactText_eq_iff h hother, Scan.tokens_ofText, Scan.tokens_ofText, hwords, hwords,
      List.append_left_inj]
  · intro hne
    have hsome : lexemes ≠ [] := by
      rw [← List.length_pos_iff, ← hlength]
      exact List.length_pos_iff.2 hne
    have hcount := Grammar.count_lineFeed_rendered hsome hlexemes
    rw [hartifact, String.toList_ofList, Grammar.splitOn_rendered hsome hlexemes, hlisting,
      List.map_map, hlength, ← hcount]
    exact ⟨rfl, rfl⟩
  · intro other hother
    rw [Scan.result_run_ofText, Except.ok.injEq] at hother
    have hmarker : artifactText sink' other = Artifact.failure.contents := by
      rw [artifactText_eq, hother]
      rfl
    rw [hmarker, ← artifactText_eq_marker_iff h sink]
    exact String.toByteArray_inj

/-- The word that marks a failure, behind a blank, leaves the same bytes as a text that is
rejected. -/
theorem artifact_of_blank_and_marker :
    (Validation.run (Scan.ofText " ERROR".toList) NoTrace.mk).value.result =
        .ok (.accepted (.ofList ["ERROR"])) ∧
      (Validation.run (Scan.ofText "#".toList) NoTrace.mk).value.result = .ok .rejected ∧
      (artifactText NoTrace.mk " ERROR").toUTF8 = (artifactText NoTrace.mk "#").toUTF8 := by
  have hword : Lexeme.ofFront 'E' ['R', 'R', 'O', 'R'] =
      (⟨some .identifier, ['E', 'R', 'R', 'O', 'R']⟩, []) := by decide
  have hspaced : tokensFrom .start " ERROR".toList = [⟨.identifier, "ERROR", ⟨1, 2⟩⟩] := by
    have hblank : Trivia.item? " ERROR".toList = some ([' '], ['E', 'R', 'R', 'O', 'R']) := rfl
    rw [tokensFrom_of_item? hblank, tokensFrom_of_front rfl, hword, tokensFrom_nil]
    rfl
  have hhash : tokensFrom .start "#".toList = [.error "#" .start] := by
    have hsingle : Lexeme.ofFront '#' [] = (⟨none, ['#']⟩, []) := by decide
    show tokensFrom .start ['#'] = _
    rw [tokensFrom_of_front rfl, hsingle, tokensFrom_nil]
    rfl
  have haccepted : (Validation.run (Scan.ofText " ERROR".toList) NoTrace.mk).value.result =
      .ok (.accepted (.ofList ["ERROR"])) := by
    rw [Scan.result_run_ofText, Scan.verdict_of_content (by rw [hspaced]; decide), hspaced]
    rfl
  have hrejected : (Validation.run (Scan.ofText "#".toList) NoTrace.mk).value.result =
      .ok .rejected := by
    rw [Scan.result_run_ofText, Scan.verdict_of_not_content (by rw [hhash]; decide)]
  obtain ⟨front, stop, htokens, -, -, -, -, -, -, hbytes⟩ :=
    artifact_determines_tokens NoTrace.mk NoTrace.mk " ERROR" _ haccepted
  have hfront : front = [⟨.identifier, "ERROR", ⟨1, 2⟩⟩] := by
    rw [Scan.tokens_ofText, hspaced] at htokens
    exact (List.append_inj' htokens rfl).1.symm
  exact ⟨haccepted, hrejected, (hbytes "#" hrejected).2 ⟨_, hfront⟩⟩

end Audit

end TokenAudit
