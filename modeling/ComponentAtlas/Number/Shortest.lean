import ComponentAtlas.Number.Numeral

/-!
# Shortest numerals

A double is written with the fewest digits that read back as the same double;
of the numerals with so many digits, with the nearest. Seventeen digits always
suffice. For each number of digits only two numerals have to be tried, the
neighbours of the value on the grid of numerals with so many digits: when any
point of the grid reads back, one of these two does.

The main statement is `Double.units_shortest`: the numeral reads back.
-/

namespace ComponentAtlas.Double

/-- Ten to this power times any positive double has at least eighteen digits before the point. -/
def scale : Nat := 341

/-- The neighbours of a value on the grid of numerals with `count` digits. -/
structure Neighbours where
  below : Numeral
  above : Numeral
  /-- The one below is the nearer, or is even while both are equally near. -/
  lower : Bool

/-- The neighbours of a magnitude that has `length` digits before the point once it is scaled. -/
def neighbours (units length count : Nat) : Neighbours :=
  let num := units * tenTo scale
  let den := one * tenTo (length - count)
  let digits := num / den
  let twice := 2 * (num % den)
  let exponent : Int := (length : Int) - count - scale
  { below := ⟨digits, exponent⟩
    above := ⟨digits + 1, exponent⟩
    lower := twice < den || (twice == den && digits % 2 == 0) }

/-- The nearest of the neighbours that reads back as the magnitude, if one does. -/
def Neighbours.pick? (ns : Neighbours) (units : Nat) : Option Numeral :=
  (if ns.lower then [ns.below, ns.above] else [ns.above, ns.below]).find? fun n =>
    n.units == units

def fiveTo (n : Nat) : Nat := Nat.pow 5 n

/-- All digits of a magnitude. -/
def expansion (units : Nat) : Numeral := ⟨units * fiveTo 1074, -1074⟩

/-- The shortest numeral of a magnitude. -/
def shortest (units : Nat) : Numeral :=
  let length := (Nat.toDigits 10 (units * tenTo scale / one)).length
  let picked := (List.range 17).findSome? fun i => (neighbours units length (i + 1)).pick? units
  (picked.getD (expansion units)).reduced

theorem units_of_pick? {ns : Neighbours} {units : Nat} {n : Numeral} (h : ns.pick? units = some n) :
    n.units = units := by
  simpa using List.find?_some h

theorem tenTo_eq (n : Nat) : tenTo n = fiveTo n * twoTo n := Nat.mul_pow 5 2 n

theorem fiveTo_pos (n : Nat) : 0 < fiveTo n := Nat.pow_pos (by decide)

/-- Moving the binary point is moving the decimal point and adding digits. -/
theorem rounded_fiveTo (units n : Nat) :
    rounded (units * fiveTo n * twoTo n) (tenTo n) = rounded units 1 := by
  have hscale := rounded_mul_right units 1 (Nat.mul_pos (fiveTo_pos n) (twoTo_pos n))
  rw [Nat.one_mul, ← tenTo_eq, tenTo_eq, ← Nat.mul_assoc, ← tenTo_eq] at hscale
  exact hscale

theorem units_expansion {units : Nat} (exact : rounded units 1 = units) :
    (expansion units).units = units := by
  have he : (expansion units).exponent < 0 := Int.negSucc_lt_zero 1073
  rw [Numeral.units_of_neg he]
  exact (rounded_fiveTo units 1074).trans exact

/-- The shortest numeral reads back. -/
theorem units_shortest (d : Double) : (shortest d.units).units = d.units := by
  simp only [shortest, Numeral.units_reduced]
  cases h : (List.range 17).findSome? fun i => (neighbours d.units
      (Nat.toDigits 10 (d.units * tenTo scale / one)).length (i + 1)).pick? d.units with
  | none => exact units_expansion d.exact
  | some n =>
    obtain ⟨i, _, hi⟩ := List.exists_of_findSome?_eq_some h
    exact units_of_pick? hi

/-- The text of a double: the sign and the shortest numeral. -/
def write (style : Numeral.Style) (d : Double) : List Char :=
  let magnitude := (shortest d.units).write style
  if d.negative then '-' :: magnitude else magnitude

end ComponentAtlas.Double
