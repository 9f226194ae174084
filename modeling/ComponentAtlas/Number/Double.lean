/-!
# Doubles

Fractions are kept as binary numbers of double precision: a sign and a
magnitude. A magnitude is a whole number of units, where a unit is the smallest
positive double, `2` to the power `-1074`. Not every number of units is a
double; `Double.rounded` gives the nearest one that is, and a `Double` carries
the proof that it is one. Values beyond the largest finite double do not occur
and are not treated apart.

The main statement is `Double.rounded_rounded`: rounding gives doubles.
-/

namespace ComponentAtlas

def twoTo (n : Nat) : Nat := Nat.pow 2 n

def tenTo (n : Nat) : Nat := Nat.pow 10 n

namespace Double

/-- The number of units in one. -/
def one : Nat := twoTo 1074

/-- The whole number nearest to a quotient; of two that are equally near, the even one. -/
def nearest (num den : Nat) : Nat :=
  let whole := num / den
  let twice := 2 * (num % den)
  if twice < den || (twice == den && whole % 2 == 0) then whole else whole + 1

/-- How far apart doubles lie about a quotient of units: they have 53 binary digits. -/
def spacing (num den : Nat) : Nat := twoTo ((num / den).log2 - 52)

/-- The units of the double nearest to a quotient of units, with ties to the even one. -/
def rounded (num den : Nat) : Nat :=
  nearest num (den * spacing num den) * spacing num den

/-! ### Rounding -/

theorem twoTo_pos (n : Nat) : 0 < twoTo n := Nat.pow_pos (by decide)

theorem twoTo_add (m n : Nat) : twoTo (m + n) = twoTo m * twoTo n := Nat.pow_add 2 m n

theorem twoTo_le {m n : Nat} (h : m ≤ n) : twoTo m ≤ twoTo n :=
  Nat.pow_le_pow_right (by decide) h

theorem twoTo_dvd {m n : Nat} (h : m ≤ n) : twoTo m ∣ twoTo n := Nat.pow_dvd_pow 2 h

theorem lt_twoTo_log2 (n : Nat) : n < twoTo (n.log2 + 1) := Nat.lt_log2_self

theorem twoTo_log2_le {n : Nat} (h : n ≠ 0) : twoTo n.log2 ≤ n := Nat.log2_self_le h

theorem nearest_le (num den : Nat) : nearest num den ≤ num / den + 1 := by
  simp only [nearest]
  split <;> omega

theorem nearest_of_dvd {num den : Nat} (hd : 0 < den) (h : den ∣ num) :
    nearest num den = num / den := by
  have hr : num % den = 0 := Nat.mod_eq_zero_of_dvd h
  simp [nearest, hr, hd]

/-- A number that is a multiple of the spacing about it is its own rounding. -/
theorem rounded_of_dvd {n : Nat} (h : spacing n 1 ∣ n) : rounded n 1 = n := by
  have hp : 0 < spacing n 1 := twoTo_pos _
  simp only [rounded, Nat.one_mul]
  rw [nearest_of_dvd hp h, Nat.div_mul_cancel h]

/-- A whole number of at most 53 binary digits, shifted, is a multiple of the spacing about it. -/
theorem spacing_dvd {m k : Nat} (h : m ≤ twoTo 53) : spacing (m * twoTo k) 1 ∣ m * twoTo k := by
  simp only [spacing, Nat.div_one]
  by_cases hz : m * twoTo k = 0
  · rw [hz]; exact Nat.dvd_zero _
  have hlow := twoTo_log2_le hz
  rcases Nat.lt_or_ge m (twoTo 53) with hm | hm
  · have hlt : m * twoTo k < twoTo (53 + k) := by
      rw [twoTo_add]; exact Nat.mul_lt_mul_of_pos_right hm (twoTo_pos k)
    have hk : (m * twoTo k).log2 - 52 ≤ k := by
      rcases Nat.lt_or_ge (m * twoTo k).log2 (53 + k) with hl | hl
      · omega
      · have := twoTo_le hl; omega
    exact Nat.dvd_trans (twoTo_dvd hk) (Nat.dvd_mul_left _ _)
  · have he : m = twoTo 53 := Nat.le_antisymm h hm
    subst he
    rw [← twoTo_add] at hlow ⊢
    have hk : (twoTo (53 + k)).log2 ≤ 53 + k := by
      rcases Nat.lt_or_ge (53 + k) (twoTo (53 + k)).log2 with hl | hl
      · have h1 : twoTo (53 + k + 1) ≤ twoTo (53 + k) := Nat.le_trans (twoTo_le hl) hlow
        have h2 : twoTo (53 + k + 1) = twoTo (53 + k) * 2 := twoTo_add (53 + k) 1
        have h3 := twoTo_pos (53 + k)
        omega
      · exact hl
    exact twoTo_dvd (by omega)

theorem nearest_spacing_le (num den : Nat) :
    nearest num (den * spacing num den) ≤ twoTo 53 := by
  have hq : num / (den * spacing num den) < twoTo 53 := by
    rw [← Nat.div_div_eq_div_mul]
    apply Nat.div_lt_of_lt_mul
    have hlt := lt_twoTo_log2 (num / den)
    simp only [spacing]
    rw [← twoTo_add]
    exact Nat.lt_of_lt_of_le hlt (twoTo_le (by omega))
  exact Nat.le_trans (nearest_le _ _) hq

/-- Rounding looks at the value of a quotient only. -/
theorem rounded_mul_right (num den : Nat) {k : Nat} (hk : 0 < k) :
    rounded (num * k) (den * k) = rounded num den := by
  have hs : spacing (num * k) (den * k) = spacing num den := by
    simp only [spacing, Nat.mul_div_mul_right _ _ hk]
  have hn (d : Nat) : nearest (num * k) (d * k) = nearest num d := by
    have hl : (2 * (num % d * k) < d * k) = (2 * (num % d) < d) := by
      rw [← Nat.mul_assoc, Nat.mul_lt_mul_right hk]
    have he : (2 * (num % d * k) == d * k) = (2 * (num % d) == d) := by
      rw [← Nat.mul_assoc, Bool.eq_iff_iff, beq_iff_eq, beq_iff_eq,
        Nat.mul_right_cancel_iff hk]
    simp only [nearest, Nat.mul_div_mul_right _ _ hk, Nat.mul_mod_mul_right, hl, he]
  simp only [rounded, hs]
  rw [Nat.mul_right_comm den k, hn]

theorem rounded_zero {den : Nat} (hd : 0 < den) : rounded 0 den = 0 := by
  have hs : 0 < den * spacing 0 den := Nat.mul_pos hd (twoTo_pos _)
  simp only [rounded]
  rw [nearest_of_dvd hs (Nat.dvd_zero _), Nat.zero_div, Nat.zero_mul]

theorem rounded_rounded (num den : Nat) : rounded (rounded num den) 1 = rounded num den :=
  rounded_of_dvd (spacing_dvd (nearest_spacing_le num den))

end Double

/-! ### The type -/

/-- A finite double. -/
structure Double where
  negative : Bool
  units : Nat
  /-- The magnitude is the nearest double to itself. -/
  exact : Double.rounded units 1 = units
deriving DecidableEq, Repr

namespace Double

/-- The double nearest to a quotient of units. -/
def ofQuotient (negative : Bool) (num den : Nat) : Double :=
  ⟨negative, rounded num den, rounded_rounded num den⟩

def isZero (d : Double) : Bool := d.units == 0

/-- The value in units, with its sign; zero has none. -/
def signed (d : Double) : Int := if d.negative then -(d.units : Int) else d.units

/-- The whole number that the double equals, if it is one. -/
def toInt? (d : Double) : Option Int :=
  if d.units % one = 0 then
    let magnitude : Int := (d.units / one : Nat)
    some (if d.negative then -magnitude else magnitude)
  else none

end Double

end ComponentAtlas
