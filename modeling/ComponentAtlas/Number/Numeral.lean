import ComponentAtlas.Number.Double

/-!
# Decimal numerals

A numeral is a whole number of tens, hundreds, tenths and so on: digits and the
exponent of ten that they are multiplied by. It is read as the nearest double,
and written either positionally or with an exponent; a `Style` says which.
-/

namespace ComponentAtlas

/-- `digits` times ten to the power `exponent`. -/
structure Numeral where
  digits : Nat
  exponent : Int
deriving DecidableEq, Repr

namespace Numeral

/-- The nearest double, with a sign. -/
def toDouble (negative : Bool) (n : Numeral) : Double :=
  if 0 ≤ n.exponent then
    .ofQuotient negative (n.digits * tenTo n.exponent.toNat * Double.one) 1
  else .ofQuotient negative (n.digits * Double.one) (tenTo (-n.exponent).toNat)

/-- The magnitude of the nearest double. -/
def units (n : Numeral) : Nat := (n.toDouble false).units

theorem units_toDouble (negative : Bool) (n : Numeral) :
    (n.toDouble negative).units = n.units := by
  simp only [units, toDouble]
  split <;> rfl

/-- The same number without zeros at the end of its digits; zero has the exponent zero. -/
def reduced (n : Numeral) : Numeral :=
  if n.digits = 0 then ⟨0, 0⟩ else go (Nat.toDigits 10 n.digits).length n
where
  /-- Drops at most `count` zeros. -/
  go : (count : Nat) → Numeral → Numeral
    | 0, n => n
    | count + 1, n =>
      if n.digits % 10 = 0 then go count ⟨n.digits / 10, n.exponent + 1⟩ else n

theorem tenTo_pos (n : Nat) : 0 < tenTo n := Nat.pow_pos (by decide)

theorem tenTo_succ (n : Nat) : tenTo (n + 1) = tenTo n * 10 := rfl

theorem units_of_nonneg {n : Numeral} (h : 0 ≤ n.exponent) :
    n.units = Double.rounded (n.digits * tenTo n.exponent.toNat * Double.one) 1 := by
  simp only [units, toDouble, if_pos h, Double.ofQuotient]

theorem units_of_neg {n : Numeral} (h : n.exponent < 0) :
    n.units = Double.rounded (n.digits * Double.one) (tenTo (-n.exponent).toNat) := by
  simp only [units, toDouble, if_neg (Int.not_le.2 h), Double.ofQuotient]

theorem units_zero (exponent : Int) : (⟨0, exponent⟩ : Numeral).units = 0 := by
  rcases Int.lt_or_le exponent 0 with h | h
  · rw [units_of_neg h]
    simp only [Nat.zero_mul]
    exact Double.rounded_zero (tenTo_pos _)
  · rw [units_of_nonneg h]
    simp only [Nat.zero_mul]
    exact Double.rounded_zero (by decide)

/-- A zero at the end of the digits can go into the exponent. -/
theorem units_mul_ten (digits : Nat) (exponent : Int) :
    (⟨digits * 10, exponent⟩ : Numeral).units = (⟨digits, exponent + 1⟩ : Numeral).units := by
  rcases Int.lt_or_le exponent 0 with h | h
  · rw [units_of_neg h]
    obtain ⟨k, hk⟩ : ∃ k : Nat, exponent = -(k + 1 : Int) := ⟨(-exponent).toNat - 1, by omega⟩
    subst hk
    have hu : (-(-(k + 1 : Int))).toNat = k + 1 := by omega
    simp only [hu, tenTo_succ, Nat.mul_right_comm digits 10]
    rw [Double.rounded_mul_right _ _ (by decide)]
    cases k with
    | zero =>
      rw [units_of_nonneg (by simp)]
      simp [tenTo]
    | succ k =>
      have hv : (-(-((k + 1 : Nat) + 1 : Int) + 1)).toNat = k + 1 := by omega
      rw [units_of_neg (by simp only; omega)]
      simp only [hv]
  · rw [units_of_nonneg h, units_of_nonneg (by simp only; omega)]
    have hu : (exponent + 1).toNat = exponent.toNat + 1 := by omega
    simp only [hu, tenTo_succ]
    congr 2
    rw [Nat.mul_assoc, Nat.mul_comm 10]

theorem units_reducedWithin (count : Nat) (n : Numeral) : (reduced.go count n).units = n.units := by
  induction count generalizing n with
  | zero => rfl
  | succ count ih =>
    obtain ⟨digits, exponent⟩ := n
    simp only [reduced.go]
    split
    · next h =>
      rw [ih, ← units_mul_ten]
      rw [Nat.div_mul_cancel (Nat.dvd_of_mod_eq_zero h)]
    · rfl

theorem units_reduced (n : Numeral) : n.reduced.units = n.units := by
  simp only [reduced]
  split
  · next h =>
    obtain ⟨digits, exponent⟩ := n
    simp only at h
    rw [h, units_zero, units_zero]
  · exact units_reducedWithin _ n

/-! ### Writing -/

/-- How a numeral is written. -/
structure Style where
  /-- The least exponent of the first digit that is written positionally. -/
  least : Int
  /-- The greatest such exponent. -/
  greatest : Int
  /-- The least number of digits of an exponent. -/
  width : Nat

def zeros (n : Nat) : List Char := List.replicate n '0'

/-- Positional text, with at least one digit on either side of the point. -/
def positional (digits : List Char) (exponent : Int) : List Char :=
  if 0 ≤ exponent then digits ++ zeros exponent.toNat ++ ['.', '0']
  else
    let places := (-exponent).toNat
    if places < digits.length then
      digits.take (digits.length - places) ++ '.' :: digits.drop (digits.length - places)
    else '0' :: '.' :: (zeros (places - digits.length) ++ digits)

/-- The exponent of the first digit, written with its sign. -/
def exponentText (width : Nat) (exponent : Int) : List Char :=
  let magnitude := Nat.toDigits 10 exponent.natAbs
  (if exponent < 0 then '-' else '+') :: (zeros (width - magnitude.length) ++ magnitude)

/-- Text with one digit before the point, and no point when no digit follows. -/
def scientific (width : Nat) (digits : List Char) (exponent : Int) : List Char :=
  match digits with
  | [] => []
  | [first] => first :: 'e' :: exponentText width exponent
  | first :: rest => first :: '.' :: (rest ++ 'e' :: exponentText width exponent)

def write (style : Style) (n : Numeral) : List Char :=
  let digits := Nat.toDigits 10 n.digits
  let leading := n.exponent + digits.length - 1
  if style.least ≤ leading && leading ≤ style.greatest then positional digits n.exponent
  else scientific style.width digits leading

end Numeral

end ComponentAtlas
