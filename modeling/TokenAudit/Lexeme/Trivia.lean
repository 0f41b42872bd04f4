/-!
# Trivia

Trivia is what may stand between lexemes: blank characters, line comments and closed block
comments.  A line comment runs up to the next line feed, which is not part of it.  A block comment
runs through the first `*/` after its opening; without one it is no trivia.

`item?` takes one piece of trivia from the front of a text and `split` takes all of it.
-/

namespace TokenAudit.Trivia

/-- Space, tab, carriage return, line feed and form feed. -/
def isBlank (c : Char) : Bool :=
  c == ' ' || c == '\t' || c == '\r' || c == '\n' || c == '\x0c'

/-- Splits a text just after its first `*/`. -/
def splitAfterClose? : List Char → Option (List Char × List Char)
  | [] => none
  | '*' :: '/' :: rest => some (['*', '/'], rest)
  | c :: rest => (splitAfterClose? rest).map fun (body, after) => (c :: body, after)

/-- Takes one blank character or one comment from the front of a text. -/
def item? : List Char → Option (List Char × List Char)
  | [] => none
  | '/' :: '/' :: rest =>
    some ('/' :: '/' :: rest.takeWhile (· != '\n'), rest.dropWhile (· != '\n'))
  | '/' :: '*' :: rest =>
    (splitAfterClose? rest).map fun (body, after) => ('/' :: '*' :: body, after)
  | c :: rest => if isBlank c then some ([c], rest) else none

/-- A split after the close of a comment loses nothing. -/
theorem append_of_splitAfterClose? {text body after : List Char}
    (h : splitAfterClose? text = some (body, after)) : body ++ after = text := by
  fun_induction splitAfterClose? text generalizing body with
  | case1 => simp at h
  | case2 rest =>
    simp only [Option.some.injEq, Prod.mk.injEq] at h
    obtain ⟨rfl, rfl⟩ := h
    rfl
  | case3 c rest _ ih =>
    obtain ⟨⟨inner, tail⟩, hsplit, heq⟩ := Option.map_eq_some_iff.1 h
    simp only [Prod.mk.injEq] at heq
    obtain ⟨rfl, rfl⟩ := heq
    simp [ih hsplit]

/-- A piece of trivia and the rest make up the text. -/
theorem append_of_item? {text item rest : List Char} (h : item? text = some (item, rest)) :
    item ++ rest = text := by
  fun_cases item? text with
  | case1 => simp [item?] at h
  | case2 tail =>
    simp only [item?, Option.some.injEq, Prod.mk.injEq] at h
    obtain ⟨rfl, rfl⟩ := h
    simp
  | case3 tail =>
    simp only [item?] at h
    obtain ⟨⟨body, after⟩, hsplit, heq⟩ := Option.map_eq_some_iff.1 h
    simp only [Prod.mk.injEq] at heq
    obtain ⟨rfl, rfl⟩ := heq
    simp [append_of_splitAfterClose? hsplit]
  | case4 c tail hline hblock hblank =>
    simp only [item?, hblank, if_true, Option.some.injEq, Prod.mk.injEq] at h
    obtain ⟨rfl, rfl⟩ := h
    rfl
  | case5 c tail hline hblock hblank => simp [item?, hblank] at h

/-- A piece of trivia is not empty. -/
theorem item_ne_nil {text item rest : List Char} (h : item? text = some (item, rest)) :
    item ≠ [] := by
  fun_cases item? text with
  | case1 => simp [item?] at h
  | case2 tail =>
    simp only [item?, Option.some.injEq, Prod.mk.injEq] at h
    simp [← h.1]
  | case3 tail =>
    simp only [item?] at h
    obtain ⟨⟨body, after⟩, _, heq⟩ := Option.map_eq_some_iff.1 h
    simp only [Prod.mk.injEq] at heq
    simp [← heq.1]
  | case4 c tail hline hblock hblank =>
    simp only [item?, hblank, if_true, Option.some.injEq, Prod.mk.injEq] at h
    simp [← h.1]
  | case5 c tail hline hblock hblank => simp [item?, hblank] at h

/-- Taking a piece of trivia shortens the text. -/
theorem length_lt_of_item? {text item rest : List Char} (h : item? text = some (item, rest)) :
    rest.length < text.length := by
  rw [← append_of_item? h, List.length_append]
  have := List.length_pos_iff.2 (item_ne_nil h)
  omega

/-- Splits a text into the trivia in front and what follows it. -/
def split (text : List Char) : List Char × List Char :=
  match _h : item? text with
  | none => ([], text)
  | some (item, rest) =>
    let tail := split rest
    (item ++ tail.1, tail.2)
termination_by text.length
decreasing_by exact length_lt_of_item? _h

/-- The trivia in front and the rest make up the text. -/
theorem split_append (text : List Char) : (split text).1 ++ (split text).2 = text := by
  fun_induction split text with
  | case1 text h => rfl
  | case2 text item rest h tail ih => rw [List.append_assoc, ih, append_of_item? h]

/-- No trivia is left in front. -/
theorem item?_split (text : List Char) : item? (split text).2 = none := by
  fun_induction split text with
  | case1 text h => exact h
  | case2 text item rest h tail ih => exact ih

end TokenAudit.Trivia
