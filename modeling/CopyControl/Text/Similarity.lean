/-!
How alike two short texts are, for names that somebody may have meant.

Two characters pair off if they are equal and stand at about the same place. The likeness of two
texts grows with the share of each that pairs off, and with how many of the pairs are in order.
-/

namespace CopyControl.Text

/-- The characters of `a` that pair off, and the places in `b` of their partners. Each character
takes the first partner that is free and at most `reach` places away. -/
def pairOff (reach : Nat) (a b : List Char) : List Char × List Nat :=
  a.zipIdx.foldl
    (fun (taken, places) (c, i) =>
      match b.zipIdx.find? fun (d, j) =>
        c = d && i ≤ j + reach && j ≤ i + reach && !places.contains j with
      | some (_, j) => (taken ++ [c], places ++ [j])
      | none => (taken, places))
    ([], [])

/-- How many places differ in two lists of one length. -/
def mismatches (a b : List Char) : Nat :=
  ((a.zip b).filter fun (c, d) => c != d).length

/-- The likeness of two texts, from 0 to 1. -/
def likeness (a b : List Char) : Float :=
  let (taken, places) := pairOff (max a.length b.length / 2 - 1) a b
  let partners := (b.zipIdx.filter fun (_, j) => places.contains j).map (·.1)
  let pairs := taken.length
  if pairs = 0 then 0
  else
    let inOrder := pairs - mismatches taken partners / 2
    (pairs.toFloat / a.length.toFloat + pairs.toFloat / b.length.toFloat
      + inOrder.toFloat / pairs.toFloat) / 3

/-- The names that are like a text, the most alike last. -/
def similar (text : String) (names : List String) : List String :=
  let scored := names.map fun name => (likeness text.toList name.toList, name)
  ((scored.filter (0.7 < ·.1)).mergeSort fun x y => x.1 ≤ y.1).map (·.2)

end CopyControl.Text
