import TokenAudit.Proofs.FixedPoint
import TokenAudit.Proofs.LineComposition

/-!
# Line endings

`Text.crlf` ends the lines of a text with a carriage return and a line feed.  Both texts are read
alike: a carriage return in front of a line feed is blank, or the last character of a line comment,
or stands in a block comment, and it moves no position that the line feed behind it does not reset.
So the tokens stay where they are, and only a comment that is never closed shows the line endings in
its text.
-/

namespace TokenAudit

namespace Text

/-- A text with a carriage return in front of every line feed. -/
def crlf : List Char → List Char
  | [] => []
  | c :: text => if c = '\n' then '\r' :: '\n' :: crlf text else c :: crlf text

@[simp] theorem crlf_nil : crlf [] = [] := rfl

@[simp] theorem crlf_lineFeed (text : List Char) :
    crlf ('\n' :: text) = '\r' :: '\n' :: crlf text := rfl

theorem crlf_cons {c : Char} (hc : c ≠ '\n') (text : List Char) :
    crlf (c :: text) = c :: crlf text := by
  rw [crlf, if_neg hc]

theorem crlf_append (a b : List Char) : crlf (a ++ b) = crlf a ++ crlf b := by
  induction a with
  | nil => rfl
  | cons c a ih =>
      by_cases hc : c = '\n'
      · subst hc
        rw [List.cons_append, crlf_lineFeed, crlf_lineFeed, ih, List.cons_append, List.cons_append]
      · rw [List.cons_append, crlf_cons hc, crlf_cons hc, ih, List.cons_append]

/-- A text without line feeds has no line endings to change. -/
theorem crlf_of_lineFeed_not_mem {text : List Char} (h : '\n' ∉ text) : crlf text = text := by
  induction text with
  | nil => rfl
  | cons c text ih =>
      rw [List.mem_cons, not_or] at h
      rw [crlf_cons (fun hc => h.1 hc.symm), ih h.2]

/-- Other line endings change the ends of lines only. -/
theorem changesLineEnds_crlf : ChangesLineEnds crlf where
  cons := crlf_cons
  isBlank_nil c hc := by cases hc
  isBlank_lineFeed text c hc := by
    obtain rfl : '\r' = c := Option.some.inj hc
    rfl

end Text

open Text

/-- The positions behind a text do not depend on its line endings. -/
theorem Position.after_crlf (p : Position) (text : List Char) : p.after (crlf text) = p.after text := by
  induction text generalizing p with
  | nil => rfl
  | cons c text ih =>
      by_cases hc : c = '\n'
      · subst hc
        exact ih _
      · rw [crlf_cons hc, after_cons, after_cons, ih]

/-- The token with the other line endings in its text, if it is a comment that is never closed. -/
def Token.crlf (t : Token) : Token :=
  if t.isOpenComment then { t with text := String.ofList (Text.crlf t.text.toList) } else t

theorem Token.crlf_of_closed {t : Token} (h : t.isOpenComment = false) : t.crlf = t := by
  rw [crlf, h]
  rfl

@[simp] theorem Token.isError_crlf (t : Token) : t.crlf.isError = t.isError := by
  unfold crlf
  split <;> rfl

/-- Content is no comment that is never closed. -/
theorem Token.crlf_of_isContent {t : Token} (h : t.isContent = true) : t.crlf = t := by
  apply crlf_of_closed
  rw [isOpenComment, (Validation.isContent_iff.1 h).1, Bool.false_and]

theorem Token.map_crlf_of_content {content : List Token} (h : ∀ t ∈ content, t.isContent = true) :
    content.map Token.crlf = content :=
  (List.map_congr_left fun t ht => crlf_of_isContent (h t ht)).trans (List.map_id _)

/-! ### Trivia in front -/

namespace Trivia

/-- A comment closes at the same place. -/
theorem splitAfterClose?_crlf (text : List Char) :
    splitAfterClose? (Text.crlf text) =
      (splitAfterClose? text).map (Prod.map Text.crlf Text.crlf) := by
  fun_induction splitAfterClose? text with
  | case1 => rfl
  | case2 rest => rfl
  | case3 c rest hnot ih =>
      have hopen : c = '*' → rest.head? ≠ some '/' := by
        rintro rfl hhead
        obtain ⟨tail, rfl⟩ := List.head?_eq_some_iff.1 hhead
        exact hnot tail rfl rfl
      by_cases hc : c = '\n'
      · subst hc
        rw [crlf_lineFeed, splitAfterClose?_cons (by simp), splitAfterClose?_cons (by simp), ih]
        cases splitAfterClose? rest <;> rfl
      · have hstill : c = '*' → (Text.crlf rest).head? ≠ some '/' := fun hstar =>
          changesLineEnds_crlf.head?_ne (by decide) (hopen hstar)
        rw [crlf_cons hc, splitAfterClose?_cons hstill, ih]
        cases splitAfterClose? rest with
        | none => rfl
        | some found => simp [crlf_cons hc]

/-- A block comment is closed with both line endings or with none. -/
theorem item?_blockComment_crlf (tail : List Char) :
    item? (Text.crlf ('/' :: '*' :: tail)) =
      (item? ('/' :: '*' :: tail)).map (Prod.map Text.crlf Text.crlf) := by
  rw [crlf_cons (by decide), crlf_cons (by decide), item?_blockComment, item?_blockComment,
    splitAfterClose?_crlf]
  cases splitAfterClose? tail <;> rfl

/-- Where no trivia stands in front, none does with the other line endings. -/
theorem item?_crlf_of_none {c : Char} {rest : List Char} (h : item? (c :: rest) = none) :
    item? (c :: Text.crlf rest) = none := by
  by_cases hcomment : c = '/' → rest.head? ≠ some '*'
  · exact changesLineEnds_crlf.item?_eq_none h hcomment
  · rw [Classical.not_imp, not_not] at hcomment
    obtain ⟨rfl, hhead⟩ := hcomment
    obtain ⟨body, rfl⟩ := List.head?_eq_some_iff.1 hhead
    exact (item?_blockComment_crlf body).trans (congrArg (Option.map _) h)

end Trivia

/-- Trivia in front only moves the position, whatever the line endings.  A line comment takes the
carriage return at its end with it. -/
theorem tokensFrom_crlf_of_item? {p : Position} {text item rest : List Char}
    (h : Trivia.item? text = some (item, rest)) :
    tokensFrom p (crlf text) = tokensFrom (p.after item) (crlf rest) := by
  obtain rfl := Trivia.append_of_item? h
  have htrivia := Grammar.isTrivia_iff.2 h
  cases htrivia with
  | @blank c _ hc =>
      by_cases hfeed : c = '\n'
      · subst hfeed
        have hreturn : Trivia.item? ('\r' :: '\n' :: crlf rest) = some (['\r'], '\n' :: crlf rest) :=
          Trivia.item?_of_isBlank rfl _
        have hblank : Trivia.item? ('\n' :: crlf rest) = some (['\n'], crlf rest) :=
          Trivia.item?_of_isBlank rfl _
        exact (tokensFrom_of_item? hreturn).trans (tokensFrom_of_item? hblank)
      · rw [List.singleton_append, crlf_cons hfeed]
        exact tokensFrom_of_item? (Trivia.item?_of_isBlank hc _)
  | @lineComment body _ hbody hend =>
      have hfree : '\n' ∉ '/' :: '/' :: body := by simpa using hbody
      rw [crlf_append, crlf_of_lineFeed_not_mem hfree]
      rcases hend with rfl | hfeed
      · exact tokensFrom_of_item? h
      · obtain ⟨later, rfl⟩ := List.head?_eq_some_iff.1 hfeed
        have hreturn : Grammar.IsTrivia ('/' :: '/' :: (body ++ ['\r'])) ('\n' :: crlf later) :=
          .lineComment (by simpa using hbody) (.inr rfl)
        have hcomment := Grammar.isTrivia_iff.1 hreturn
        have hblank : Trivia.item? ('\r' :: '\n' :: crlf later) = some (['\r'], '\n' :: crlf later) :=
          Trivia.item?_of_isBlank rfl _
        rw [crlf_lineFeed, tokensFrom_of_item? hblank, ← Position.after_append]
        simpa using tokensFrom_of_item? (p := p) hcomment
  | @blockComment body _ hbody =>
      have hclosed := (Trivia.item?_blockComment_crlf _).trans (congrArg (Option.map _) h)
      exact (tokensFrom_of_item? hclosed).trans (by rw [Position.after_crlf])

/-! ### Lexemes in front -/

/-- Only the front of an open comment gives the error over one. -/
theorem Lexeme.not_isOpenComment_token_ofFront {c : Char} {rest : List Char}
    (hcomment : c = '/' → rest.head? ≠ some '*') (p : Position) :
    ((ofFront c rest).1.token p).isOpenComment = false := by
  rw [← Bool.not_eq_true, Token.isOpenComment, Bool.and_eq_true, List.isPrefixOf_iff_prefix,
    token_ofFront, String.toList_ofList]
  rintro ⟨-, letters, hletters⟩
  have htext := letters_append_ofFront c rest
  rw [← hletters] at htext
  obtain ⟨hc, hrest⟩ := List.cons.inj htext
  refine hcomment hc.symm ?_
  rw [← hrest]
  rfl

/-- A comment that is never closed takes the line endings over. -/
theorem Lexeme.crlf_token_openComment (body : List Char) (p : Position) :
    ((ofFront '/' ('*' :: body)).1.token p).crlf =
      (ofFront '/' ('*' :: Text.crlf body)).1.token p := by
  have hopen : ((ofFront '/' ('*' :: body)).1.token p).isOpenComment = true :=
    isOpenComment_token_ofFront rfl rfl p
  have htext : ((ofFront '/' ('*' :: body)).1.token p).text.toList = '/' :: '*' :: body :=
    String.toList_ofList
  rw [Token.crlf, if_pos hopen, htext, crlf_cons (by decide), crlf_cons (by decide)]
  rfl

/-- The tokens of a text with the other line endings. -/
theorem tokensFrom_crlf (p : Position) (text : List Char) :
    tokensFrom p (crlf text) = (tokensFrom p text).map Token.crlf := by
  -- The induction is on what is taken from the text, a piece of trivia or a lexeme.
  fun_induction tokensFrom p text with
  | case1 p text item rest hitem ih => rw [tokensFrom_crlf_of_item? hitem, ih]
  | case2 p hitem => rw [crlf_nil, tokensFrom_nil, List.map_nil]
  | case3 p c rest hitem ih =>
      have hfeed : c ≠ '\n' := by
        rintro rfl
        rw [Trivia.item?_of_isBlank rfl] at hitem
        cases hitem
      have hnone := Trivia.item?_crlf_of_none hitem
      rw [crlf_cons hfeed, tokensFrom_of_front hnone, List.map_cons]
      by_cases hcomment : c = '/' → rest.head? ≠ some '*'
      · rw [changesLineEnds_crlf.ofFront_eq hcomment, ih,
          Token.crlf_of_closed (Lexeme.not_isOpenComment_token_ofFront hcomment p)]
      · -- A comment that is never closed is the last token.
        rw [Classical.not_imp, not_not] at hcomment
        obtain ⟨rfl, hhead⟩ := hcomment
        obtain ⟨body, rfl⟩ := List.head?_eq_some_iff.1 hhead
        rw [Lexeme.crlf_token_openComment, crlf_cons (by decide), Lexeme.ofFront_openComment,
          Lexeme.ofFront_openComment, tokensFrom_nil, tokensFrom_nil]
        rfl

namespace Scan

open Validation

variable {κ : Type} [TokenSink κ]

/-- A scan of a text with the other line endings. -/
theorem handsOut_ofText_crlf (text : List Char) :
    TokenSource.HandsOut (ofText (Text.crlf text)) ((tokensFrom .start text).map Token.crlf)
      (Position.start.after text) := by
  have h := handsOut_ofText (Text.crlf text)
  rwa [tokensFrom_crlf, Position.after_crlf] at h

/-- Line endings have no say in a validation: the same content is recorded and the same verdict
reached. -/
theorem run_ofText_crlf (text : List Char) (sink : κ) :
    (run (ofText (Text.crlf text)) sink).value.result = (run (ofText text) sink).value.result ∧
      (run (ofText (Text.crlf text)) sink).value.sink = (run (ofText text) sink).value.sink := by
  have hands := handsOut_ofText text
  have hcrlf := handsOut_ofText_crlf text
  have hopen : ∀ t ∈ tokensFrom .start text, t.isEof = false :=
    fun t ht => isEof_of_mem_tokensFrom ht
  rcases content_or_error hopen with
    hcontent | ⟨content, error, rest, htokens, hcontent, herror⟩
  · rw [Token.map_crlf_of_content hcontent] at hcrlf
    rw [value_run_of_content hands hcontent, value_run_of_content hcrlf hcontent]
    exact ⟨rfl, rfl⟩
  · rw [htokens] at hands hcrlf
    rw [List.map_append, List.map_cons, Token.map_crlf_of_content hcontent] at hcrlf
    have herror' : error.crlf.isError = true := by rwa [Token.isError_crlf]
    rw [value_run_of_error hands hcontent herror, value_run_of_error hcrlf hcontent herror']
    exact ⟨rfl, rfl⟩

/-- With the other line endings a text has the same tokens at the same places, through the end of
the stream, and only the text of a comment that is never closed takes them over.  Both texts are
validated to the same result with the same trace, and their artifacts are the same. -/
theorem crlf_changes_only_open_comment (text : List Char) (path : String) (sink : κ) :
    (ofText (Text.crlf text)).tokens.value = (ofText text).tokens.value.map Token.crlf ∧
      (run (ofText (Text.crlf text)) sink).value.result = (run (ofText text) sink).value.result ∧
      (run (ofText (Text.crlf text)) sink).value.sink = (run (ofText text) sink).value.sink ∧
      (Audit.validate ⟨String.ofList (Text.crlf text), path⟩ sink).value =
        (Audit.validate ⟨String.ofList text, path⟩ sink).value ∧
      Audit.artifactText sink (String.ofList (Text.crlf text)) =
        Audit.artifactText sink (String.ofList text) := by
  obtain ⟨hresult, hsink⟩ := run_ofText_crlf text sink
  refine ⟨?_, hresult, hsink, ?_, ?_⟩
  · have hend : (Token.eof (Position.start.after text)).crlf = .eof (Position.start.after text) := rfl
    rw [tokens_ofText, tokens_ofText, tokensFrom_crlf, Position.after_crlf, List.map_append,
      List.map_singleton, hend]
  · have hvalidate : ∀ text : List Char, (Audit.validate ⟨String.ofList text, path⟩ sink).value =
        ((run (ofText text) sink).value.result, (run (ofText text) sink).value.sink) := by
      intro text
      conv_rhs => rw [← String.toList_ofList (l := text)]
      rfl
    rw [hvalidate, hvalidate, hresult, hsink]
  · rw [Audit.artifactText, Audit.artifactText, String.toList_ofList, String.toList_ofList, hresult]

end Scan

end TokenAudit
