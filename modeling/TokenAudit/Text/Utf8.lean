/-!
# Texts as UTF-8

A text is a list of characters.  Its places are byte offsets into its UTF-8 form, so this module
measures texts in bytes, cuts them at byte offsets, and reads bytes back as text when they may be
cut off or damaged.
-/

namespace TokenAudit.Text

/-- The number of bytes of a text. -/
def byteLength : List Char → Nat
  | [] => 0
  | c :: rest => c.utf8Size + byteLength rest

@[simp] theorem byteLength_nil : byteLength [] = 0 := rfl

@[simp] theorem byteLength_cons (c : Char) (rest : List Char) :
    byteLength (c :: rest) = c.utf8Size + byteLength rest := rfl

@[simp] theorem byteLength_append (a b : List Char) :
    byteLength (a ++ b) = byteLength a + byteLength b := by
  induction a with
  | nil => simp
  | cons c a ih => simp [ih, Nat.add_assoc]

/-- The text from a byte offset on.  There is none when the offset is past the end or inside a
character. -/
def dropBytes? : List Char → Nat → Option (List Char)
  | text, 0 => some text
  | [], _ + 1 => none
  | c :: rest, n + 1 =>
    if c.utf8Size ≤ n + 1 then dropBytes? rest (n + 1 - c.utf8Size) else none

/-- The text before a byte offset.  There is none when the offset is past the end or inside a
character. -/
def takeBytes? : List Char → Nat → Option (List Char)
  | _, 0 => some []
  | [], _ + 1 => none
  | c :: rest, n + 1 =>
    if c.utf8Size ≤ n + 1 then (takeBytes? rest (n + 1 - c.utf8Size)).map (c :: ·) else none

/-- The text between two byte offsets, if both are character boundaries in this order. -/
def slice? (text : List Char) (start stop : Nat) : Option (List Char) :=
  if start ≤ stop then (dropBytes? text start).bind (takeBytes? · (stop - start)) else none

/-- What stands for bytes that are no character. -/
def replacement : Char := '\uFFFD'

/-- The first byte of a multi-byte character fixes how many bytes follow it and between which
bounds the first of them lies. -/
def follow? (b : UInt8) : Option (Nat × UInt8 × UInt8) :=
  if 0xC2 ≤ b ∧ b ≤ 0xDF then some (1, 0x80, 0xBF)
  else if b = 0xE0 then some (2, 0xA0, 0xBF)
  else if b = 0xED then some (2, 0x80, 0x9F)
  else if 0xE1 ≤ b ∧ b ≤ 0xEF then some (2, 0x80, 0xBF)
  else if b = 0xF0 then some (3, 0x90, 0xBF)
  else if 0xF1 ≤ b ∧ b ≤ 0xF3 then some (3, 0x80, 0xBF)
  else if b = 0xF4 then some (3, 0x80, 0x8F)
  else none

/-- How many of the next bytes go on a character that still lacks `n` of them, the first within the
given bounds. -/
def followers : Nat → UInt8 → UInt8 → List UInt8 → Nat
  | 0, _, _, _ => 0
  | _, _, _, [] => 0
  | n + 1, low, high, b :: rest =>
    if low ≤ b ∧ b ≤ high then followers n 0x80 0xBF rest + 1 else 0

/-- The value of continuation bytes after the given leading bits. -/
def codePoint (lead : Nat) (bytes : List UInt8) : Nat :=
  bytes.foldl (fun value b => value * 64 + b.toNat % 64) lead

/-- Splits off the first character of a nonempty byte sequence.  A maximal beginning of a character
that is not continued to its end counts as one replacement character. -/
def firstChar (b : UInt8) (rest : List UInt8) : Char × List UInt8 :=
  if b < 0x80 then (Char.ofNat b.toNat, rest)
  else match follow? b with
    | none => (replacement, rest)
    | some (n, low, high) =>
      let present := followers n low high rest
      if present = n then
        (Char.ofNat (codePoint (b.toNat % Nat.pow 2 (6 - n)) (rest.take n)), rest.drop n)
      else (replacement, rest.drop present)

theorem length_firstChar_le (b : UInt8) (rest : List UInt8) :
    (firstChar b rest).2.length ≤ rest.length := by
  unfold firstChar
  split
  · exact Nat.le_refl _
  · split
    · exact Nat.le_refl _
    · dsimp only
      split <;> simp

/-- Bytes read as text, with a replacement character for every maximal damaged part. -/
def decodeLossy : List UInt8 → List Char
  | [] => []
  | b :: rest => (firstChar b rest).1 :: decodeLossy (firstChar b rest).2
termination_by bytes => bytes.length
decreasing_by
  exact Nat.lt_succ_of_le (length_firstChar_le b rest)

/-- Bytes read as a string, damaged parts replaced. -/
def readLossy (bytes : ByteArray) : String := String.ofList (decodeLossy bytes.toList)

end TokenAudit.Text
