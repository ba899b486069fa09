/-!
# Fields of fixed width

A text is fitted into a column by cutting it to a precision and filling it up to a width. Both count
characters.
-/

namespace TileBench.Text

/-- The side of a field on which its text stands. -/
inductive Align where
  | left
  | right
  | center
  deriving DecidableEq, Repr

/-- A column: how wide it is, what fills it, where the text stands and how much of it is shown. -/
structure Field where
  width : Nat := 0
  align : Align := .left
  fill : Char := ' '
  precision : Option Nat := none
  deriving DecidableEq, Repr

/-- The first `precision` characters of a text, or all of it. -/
def Field.cut (f : Field) (cs : List Char) : List Char :=
  match f.precision with
  | some p => cs.take p
  | none => cs

/-- The characters of a text in its field; of an odd number of filling characters around a centred
text the larger half stands on the right. -/
def Field.fit (f : Field) (cs : List Char) : List Char :=
  let shown := f.cut cs
  let room := f.width - shown.length
  match f.align with
  | .left => shown ++ List.replicate room f.fill
  | .right => List.replicate room f.fill ++ shown
  | .center => List.replicate (room / 2) f.fill ++ shown ++ List.replicate (room - room / 2) f.fill

def Field.render (f : Field) (s : String) : String :=
  String.ofList (f.fit s.toList)

/-- A text on the left of a column `width` characters wide. -/
def padRight (width : Nat) (s : String) : String :=
  Field.render { width } s

/-- A text on the right of a column `width` characters wide. -/
def padLeft (width : Nat) (s : String) : String :=
  Field.render { width, align := .right } s

end TileBench.Text
