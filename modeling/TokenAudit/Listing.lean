/-!
# Listings, verdicts and outcomes

A listing holds the texts of the accepted tokens in order.  A verdict on a token stream is its
listing or a rejection, and an outcome is what a completed run reports about the verdict.
-/

namespace TokenAudit

/-- The texts of accepted tokens, in the order of the stream. -/
structure Listing where
  entries : Array String := #[]
  deriving DecidableEq, Repr, Inhabited

namespace Listing

/-- The listing of no token. -/
def empty : Listing := {}

/-- A listing of the given texts. -/
def ofList (texts : List String) : Listing := ⟨texts.toArray⟩

/-- The texts of a listing. -/
def toList (l : Listing) : List String := l.entries.toList

/-- Adds a text at the end. -/
def push (l : Listing) (text : String) : Listing := ⟨l.entries.push text⟩

/-- The number of texts. -/
def size (l : Listing) : Nat := l.entries.size

/-- Whether there is no text. -/
def isEmpty (l : Listing) : Bool := l.entries.isEmpty

/-- The texts in one, with a separator between any two neighbours. -/
def joined (l : Listing) (separator : String) : String := separator.intercalate l.toList

/-- The separator of the canonical form. -/
def separator : String := "\n"

/-- The canonical form, one text a line and no line feed at the end. -/
def render (l : Listing) : String := l.joined separator

@[simp] theorem toList_empty : empty.toList = [] := rfl

@[simp] theorem toList_ofList (texts : List String) : (ofList texts).toList = texts := rfl

@[simp] theorem toList_push (l : Listing) (text : String) :
    (l.push text).toList = l.toList ++ [text] := by
  simp [push, toList]

@[simp] theorem length_toList (l : Listing) : l.toList.length = l.size := rfl

/-- The texts determine a listing. -/
theorem ext_toList {a b : Listing} (h : a.toList = b.toList) : a = b := by
  cases a
  cases b
  simpa [toList] using h

end Listing

/-- The judgement on a token stream. -/
inductive Verdict where
  /-- Every token was content, and the stream ended for good. -/
  | accepted (listing : Listing)
  /-- The stream held a lexical error or went on after its end. -/
  | rejected
  deriving DecidableEq, Repr

/-- Whether a stream was accepted. -/
def Verdict.isAccepted : Verdict → Bool
  | accepted _ => true
  | rejected => false

/-- What a run that left its artifact reports. -/
inductive Outcome where
  | accepted (tokens : Nat)
  | rejected
  deriving DecidableEq, Repr

namespace Outcome

/-- The exit status of a run. -/
def exitCode : Outcome → Nat
  | accepted _ => 0
  | rejected => 1

/-- An outcome as the log shows it. -/
def render : Outcome → String
  | accepted tokens => "Accepted \x7b tokens: " ++ tokens.repr ++ " \x7d"
  | rejected => "Rejected"

end Outcome

/-- The outcome of a verdict keeps only the number of texts. -/
def Verdict.outcome : Verdict → Outcome
  | accepted listing => .accepted listing.size
  | rejected => .rejected

end TokenAudit
