/-!
# Texts

A text is stored in UTF-8. `decode?` reads bytes as a text and `encode` writes it;
`decode?_eq_some_iff` says that the bytes of a text are those that read as it. Blank characters are
those with the Unicode property White_Space. A text splits into its words, the maximal runs of other
characters, and can be trimmed of the blanks at both ends.
-/

namespace TileBench.Text

/-! ## Bytes -/

/-- The bytes of a text. -/
def encode (s : String) : List UInt8 :=
  s.toUTF8.data.toList

/-- The text whose bytes are given, if they are those of a text. -/
def decode? (bytes : List UInt8) : Option String :=
  String.fromUTF8? ⟨bytes.toArray⟩

/-- Bytes are read as a text exactly if they are the bytes of that text. -/
theorem decode?_eq_some_iff {bytes : List UInt8} {s : String} :
    decode? bytes = some s ↔ bytes = encode s := by
  unfold decode? String.fromUTF8? encode
  rw [String.toUTF8_eq_toByteArray]
  constructor
  · intro read
    split at read
    · cases read
      rfl
    · cases read
  · rintro rfl
    exact dif_pos s.isValidUTF8

/-- A text is read back from its bytes. -/
theorem decode?_encode (s : String) : decode? (encode s) = some s :=
  decode?_eq_some_iff.mpr rfl

/-! ## Words -/

/-- The ranges of code points with the Unicode property White_Space, in ascending order. -/
def blankRanges : List (Nat × Nat) :=
  [(0x9, 0xD), (0x20, 0x20), (0x85, 0x85), (0xA0, 0xA0), (0x1680, 0x1680), (0x2000, 0x200A),
   (0x2028, 0x2029), (0x202F, 0x202F), (0x205F, 0x205F), (0x3000, 0x3000)]

/-- Whether a character is white space. -/
def isBlank (c : Char) : Bool :=
  blankRanges.any fun (lo, hi) => decide (lo ≤ c.toNat) && decide (c.toNat ≤ hi)

/-- One step of cutting a text into words from its right end: the first word so far is still open
when the flag is set. -/
def addChar (c : Char) : Bool × List (List Char) → Bool × List (List Char)
  | (isOpen, ws) =>
    if isBlank c then (false, ws)
    else match isOpen, ws with
      | true, w :: ws => (true, (c :: w) :: ws)
      | _, ws => (true, [c] :: ws)

/-- The words of a text, from its front to its back. -/
def words (cs : List Char) : List (List Char) :=
  (cs.foldr addChar (false, [])).2

/-- The text without the blanks at both of its ends. -/
def trim (cs : List Char) : List Char :=
  ((cs.dropWhile isBlank).reverse.dropWhile isBlank).reverse

end TileBench.Text
