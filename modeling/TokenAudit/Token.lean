import TokenAudit.Kind
import TokenAudit.Position

/-!
# Tokens

A token is a kind, the text it stands for and the position where it starts.
-/

namespace TokenAudit

/-- A token of a stream. -/
structure Token where
  kind : Kind
  text : String
  position : Position := {}
  deriving DecidableEq, Repr, Inhabited

namespace Token

/-- The token of a kind with its fixed spelling, which is empty for a kind without one. -/
def fixed (kind : Kind) (position : Position) : Token :=
  ⟨kind, kind.spelling?.getD "", position⟩

/-- The end-of-stream token. -/
def eof (position : Position) : Token := ⟨.eof, "", position⟩

/-- A lexical error over the offending text. -/
def error (text : String) (position : Position) : Token := ⟨.error, text, position⟩

/-- A token whose empty text stands for the fixed spelling of its kind. -/
def spelled (kind : Kind) (text : String) (position : Position) : Token :=
  if text = "" then fixed kind position else ⟨kind, text, position⟩

/-- The end of the stream. -/
def isEof (t : Token) : Bool := t.kind.isEof

/-- A lexical error. -/
def isError (t : Token) : Bool := t.kind.isError

/-- A token that is recorded and listed. -/
def isContent (t : Token) : Bool := t.kind.isContent

/-- The diagnostic line of a token, `[line,column]:text`. -/
def render (t : Token) : String :=
  "[" ++ t.position.line.repr ++ "," ++ t.position.column.repr ++ "]:" ++ t.text

end Token

end TokenAudit
