/-!
# Shapes of texts

A shape says which kinds of characters a text has in which order. It decides which family of
written dates a text belongs to, before its fields are looked at.
-/

namespace CandyDrop.Calendar

/-- A regular set of texts. -/
inductive Shape where
  /-- Between `least` and `most` characters of a kind. -/
  | run (kind : Char → Bool) (least most : Nat)
  /-- One text. -/
  | word (w : List Char)
  | seq (a b : Shape)
  | either (a b : Shape)

namespace Shape

/-- A shape that may be left out. -/
def opt (a : Shape) : Shape := either a (word [])

/-- Shapes one after another. -/
def all : List Shape → Shape
  | [] => word []
  | [a] => a
  | a :: as => seq a (all as)

/-- What is left of a text after a run, the longest run first. -/
def runRests (kind : Char → Bool) : (least most : Nat) → List Char → List (List Char)
  | 0, 0, cs => [cs]
  | _ + 1, 0, _ => []
  | 0, _ + 1, [] => [[]]
  | _ + 1, _ + 1, [] => []
  | least, most + 1, c :: cs =>
    let here := if least = 0 then [c :: cs] else []
    if kind c then runRests kind (least - 1) most cs ++ here else here

/-- What is left of a text after each of its beginnings of a shape, the preferred one first. -/
def rests : Shape → List Char → List (List Char)
  | run kind least most, cs => runRests kind least most cs
  | word w, cs => if w.isPrefixOf cs then [cs.drop w.length] else []
  | seq a b, cs => (a.rests cs).flatMap b.rests
  | either a b, cs => a.rests cs ++ b.rests cs

/-- Whether a text begins with the shape. -/
def begins (s : Shape) (cs : List Char) : Bool := !(s.rests cs).isEmpty

/-- Whether the whole text has the shape. -/
def fits (s : Shape) (cs : List Char) : Bool := (s.rests cs).any List.isEmpty

/-- Whether some part of the text has the shape. -/
def occurs (s : Shape) : List Char → Bool
  | [] => s.begins []
  | c :: cs => s.begins (c :: cs) || s.occurs cs

/-- What is left of a text after `a`, if it has the shape `b`. -/
def split? (a b : Shape) (cs : List Char) : Option (List Char) := (a.rests cs).find? b.fits

end Shape

end CandyDrop.Calendar
