/-!
# Similarity of words

The similarity of two words counts the characters they share at nearly the same places and how many
of these are out of order.  With `m` shared characters, `t` of them out of order in pairs, words of
lengths `a` and `b` are similar to the degree `(m / a + m / b + (m - t / 2) / m) / 3`, from 0 for
words with nothing in common to 1 for equal words.
-/

namespace TokenAudit.Text

/-- A fraction of natural numbers. -/
structure Degree where
  numerator : Nat
  denominator : Nat
  deriving DecidableEq, Repr

/-- One degree is strictly less than another. -/
def Degree.isLess (x y : Degree) : Bool :=
  x.numerator * y.denominator < y.numerator * x.denominator

/-- Pairs the characters of a word, from a given index on, with equal ones of another word that are
at most so far away.  Each character of the other word is used once. -/
def sharedIndices (other : List Char) (reach : Nat) :
    Nat → List Char → List Nat → List (Nat × Nat)
  | _, [], _ => []
  | i, c :: rest, used =>
    let free := (List.range (min other.length (i + reach + 1))).find? fun j =>
      i - reach ≤ j && other[j]? == some c && !used.contains j
    match free with
    | some j => (i, j) :: sharedIndices other reach (i + 1) rest (j :: used)
    | none => sharedIndices other reach (i + 1) rest used

/-- The degree to which two words are similar. -/
def similarity (first second : String) : Degree :=
  let a := first.toList
  let b := second.toList
  let shared := sharedIndices b (max a.length b.length / 2 - 1) 0 a []
  let inFirst := shared.map fun pair => a[pair.1]?
  let inSecond := ((shared.map (·.2)).mergeSort fun x y => x ≤ y).map fun j => b[j]?
  let moved := (List.zip inFirst inSecond).countP fun pair => pair.1 != pair.2
  let m := shared.length
  if m = 0 then ⟨0, 1⟩
  else
    ⟨m * m * b.length + m * m * a.length + (m - moved / 2) * a.length * b.length,
      3 * m * a.length * b.length⟩

/-- The candidate most similar to a word among those similar to a higher degree than a given one.
Of equally similar candidates the last counts. -/
def mostSimilar? (least : Degree) (word : String) (candidates : List String) : Option String :=
  let better (best : Option String) (candidate : String) : Option String :=
    let degree := similarity word candidate
    if !least.isLess degree then best
    else match best with
      | none => some candidate
      | some other => if degree.isLess (similarity word other) then best else some candidate
  candidates.foldl better none

end TokenAudit.Text
