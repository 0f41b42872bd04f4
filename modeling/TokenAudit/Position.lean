/-!
# Positions in a text

A position is a line and a column, both counted from one.  Positions are ordered by line and then
by column.
-/

namespace TokenAudit

/-- A place in a text.  The start of a text is line 1, column 1. -/
structure Position where
  line : Nat := 1
  column : Nat := 1
  deriving DecidableEq, Repr, Inhabited

namespace Position

/-- The first character of a text. -/
def start : Position := {}

/-- One position comes strictly before another, by line and then by column. -/
def Before (a b : Position) : Prop :=
  a.line < b.line ∨ a.line = b.line ∧ a.column < b.column

instance : LT Position := ⟨Before⟩

instance : LE Position := ⟨fun a b => a < b ∨ a = b⟩

instance (a b : Position) : Decidable (a < b) :=
  inferInstanceAs (Decidable (a.line < b.line ∨ a.line = b.line ∧ a.column < b.column))

instance (a b : Position) : Decidable (a ≤ b) :=
  inferInstanceAs (Decidable (a < b ∨ a = b))

/-- The comparison that belongs to the order. -/
def compare (a b : Position) : Ordering :=
  if a < b then .lt else if a = b then .eq else .gt

instance : Ord Position := ⟨compare⟩

/-- A position as `line:column`. -/
def render (p : Position) : String :=
  p.line.repr ++ ":" ++ p.column.repr

end Position

end TokenAudit
