/-!
# Sets of numbers up to a tolerance

Two numbers count as the same element when they are closer than `1e-9`. That relation is not
transitive, so the operations are on lists: elements are taken in order, and one is kept when none
that was kept before counts as the same.
-/

set_option autoImplicit false

namespace Calculator.ToleranceSet

/-- Elements closer than this count as the same. -/
def tolerance : Float := 1e-9

/-- Whether two numbers count as the same element. -/
def same (x y : Float) : Bool := (x - y).abs < tolerance

/-- Whether a list has an element that counts as `x`. -/
def contains (elements : List Float) (x : Float) : Bool := elements.any fun y => same y x

/-- A list with one more element, unless it has one that counts as the same. -/
def insert (kept : List Float) (x : Float) : List Float :=
  if contains kept x then kept else kept ++ [x]

/-- The elements of a list, each kept once. -/
def distinct (elements : List Float) : List Float := elements.foldl insert []

/-- The elements of either list, each kept once, those of the first list first. -/
def union (a b : List Float) : List Float := distinct (a ++ b)

/-- The elements of the first list that the second has too, each kept once. -/
def intersection (a b : List Float) : List Float := distinct (a.filter (contains b))

/-- The elements of the first list that the second has not, each kept once. -/
def difference (a b : List Float) : List Float := distinct (a.filter fun x => !contains b x)

end Calculator.ToleranceSet
