/-!
# Words as bytes

A 32-bit word is stored as four bytes, the least significant first. `words?` reads a byte string as
words and `ofWords` writes it; `words?_ofWords` says that reading gives back what was written.
-/

namespace TileBench.Bytes

/-- The word with the given bytes, the least significant first. -/
def toWord (a b c d : UInt8) : UInt32 :=
  UInt32.ofNat (a.toNat + 256 * b.toNat + 65536 * c.toNat + 16777216 * d.toNat)

/-- The byte of a word whose lowest bit counts `scale`. -/
def byteAt (w : UInt32) (scale : Nat) : UInt8 :=
  UInt8.ofNat (w.toNat / scale)

/-- The bytes of a word, the least significant first. -/
def ofWord (w : UInt32) : List UInt8 :=
  [byteAt w 1, byteAt w 256, byteAt w 65536, byteAt w 16777216]

/-- The bytes of words, one after another. -/
def ofWords (ws : List UInt32) : List UInt8 :=
  ws.flatMap ofWord

/-- The words of a byte string, where its length is a whole number of words. -/
def words? : List UInt8 → Option (List UInt32)
  | [] => some []
  | a :: b :: c :: d :: rest => (words? rest).map (toWord a b c d :: ·)
  | _ => none

/-- The byte string with `data` in place of the bytes from `offset` on; its length stays. -/
def overwrite (bytes : List UInt8) (offset : Nat) (data : List UInt8) : List UInt8 :=
  let room := bytes.length - offset
  bytes.take offset ++ data.take room ++ bytes.drop (offset + data.length)

/-- The bytes of a word make up the word. -/
theorem toWord_ofWord (w : UInt32) :
    toWord (byteAt w 1) (byteAt w 256) (byteAt w 65536) (byteAt w 16777216) = w := by
  apply UInt32.toNat_inj.1
  have hw := w.toNat_lt
  simp only [toWord, byteAt, UInt32.toNat_ofNat', UInt8.toNat_ofNat']
  omega

/-- Four bytes are those of the word that they make up. -/
theorem ofWord_toWord (a b c d : UInt8) : ofWord (toWord a b c d) = [a, b, c, d] := by
  have ha := a.toNat_lt
  have hb := b.toNat_lt
  have hc := c.toNat_lt
  have hd := d.toNat_lt
  simp only [ofWord, byteAt, toWord, UInt32.toNat_ofNat', List.cons.injEq, and_true]
  refine ⟨?_, ?_, ?_, ?_⟩ <;>
    (apply UInt8.toNat_inj.1; simp only [UInt8.toNat_ofNat']; omega)

/-- Words are read back from their bytes. -/
theorem words?_ofWords (ws : List UInt32) : words? (ofWords ws) = some ws := by
  induction ws with
  | nil => rfl
  | cons w ws ih =>
    simp only [ofWords, List.flatMap_cons, ofWord, List.cons_append, List.nil_append, words?,
      toWord_ofWord]
    rw [show ws.flatMap ofWord = ofWords ws from rfl, ih]
    rfl

end TileBench.Bytes
