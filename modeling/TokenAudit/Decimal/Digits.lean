/-!
# Decimal digits

The ten ASCII digits, and the number that a run of them denotes.
-/

namespace TokenAudit.Decimal

/-- An ASCII digit. -/
def isDigit (c : Char) : Bool := '0' ≤ c && c ≤ '9'

/-- The number that a run of digits denotes.  No digit denotes zero. -/
def value (digits : List Char) : Nat :=
  digits.foldl (fun value c => value * 10 + (c.toNat - '0'.toNat)) 0

end TokenAudit.Decimal
