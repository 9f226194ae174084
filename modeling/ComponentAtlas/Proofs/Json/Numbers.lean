import ComponentAtlas.Json.Printer
import ComponentAtlas.Json.Reader
import Mathlib.Data.List.Basic
import Mathlib.Data.List.TakeDrop

/-!
# Numbers read back

A number is read up to the first character that cannot belong to it. What is
written for a whole number is read as that number, and what is written for a
double, in either of the two forms, as a numeral that stands for the double.
-/

namespace ComponentAtlas

/-! ### Numerals for one double -/

namespace Numeral

theorem units_mul_tenTo (digits k : Nat) (exponent : Int) :
    (⟨digits * tenTo k, exponent⟩ : Numeral).units = (⟨digits, exponent + k⟩ : Numeral).units := by
  induction k generalizing exponent with
  | zero =>
    have hten : tenTo 0 = 1 := rfl
    have hexponent : exponent + (0 : Nat) = exponent := by omega
    rw [hten, Nat.mul_one, hexponent]
  | succ k ih =>
    have hdigits : digits * tenTo (k + 1) = digits * tenTo k * 10 := by
      rw [tenTo_succ, Nat.mul_assoc]
    have hexponent : exponent + 1 + (k : Nat) = exponent + (k + 1 : Nat) := by omega
    calc (⟨digits * tenTo (k + 1), exponent⟩ : Numeral).units
        = (⟨digits * tenTo k * 10, exponent⟩ : Numeral).units := by rw [hdigits]
      _ = (⟨digits * tenTo k, exponent + 1⟩ : Numeral).units := units_mul_ten _ _
      _ = (⟨digits, exponent + 1 + k⟩ : Numeral).units := ih _
      _ = (⟨digits, exponent + (k + 1 : Nat)⟩ : Numeral).units := by rw [hexponent]

theorem negative_toDouble (negative : Bool) (n : Numeral) :
    (n.toDouble negative).negative = negative := by
  unfold toDouble
  split
  · simp only [Double.ofQuotient]
  · simp only [Double.ofQuotient]

theorem toDouble_eq {n : Numeral} {d : Double} (h : n.units = d.units) :
    n.toDouble d.negative = d := by
  have hnegative := negative_toDouble d.negative n
  have hunits : (n.toDouble d.negative).units = d.units := (units_toDouble _ n).trans h
  cases d with
  | mk negative units exact =>
    cases hread : n.toDouble negative with
    | mk other magnitude _ =>
      rw [hread] at hnegative hunits
      subst hnegative
      subst hunits
      rfl

/-- Zero has the exponent zero. -/
def IsPlain (n : Numeral) : Prop := n.digits = 0 → n.exponent = 0

theorem digits_reducedWithin_ne_zero (count : Nat) {n : Numeral} (h : n.digits ≠ 0) :
    (reduced.go count n).digits ≠ 0 := by
  induction count generalizing n with
  | zero => exact h
  | succ count ih =>
    simp only [reduced.go]
    split
    · refine ih ?_
      simp only
      omega
    · exact h

theorem isPlain_reduced (n : Numeral) : n.reduced.IsPlain := by
  unfold reduced
  split
  · intro _
    rfl
  · rename_i h
    intro hzero
    exact absurd hzero (digits_reducedWithin_ne_zero _ h)

theorem isPlain_shortest (units : Nat) : (Double.shortest units).IsPlain := by
  unfold Double.shortest
  exact isPlain_reduced _

end Numeral

namespace Json

/-! ### Digits -/

/-- The digits that are read end here. -/
def EndsDigits (rest : List Char) : Prop := ∀ c ∈ rest.head?, c.isDigit = false

/-- A number that is read ends here: no digit, no point and no exponent follows. -/
def EndsNumber (rest : List Char) : Prop :=
  ∀ c ∈ rest.head?, c.isDigit = false ∧ c ≠ '.' ∧ c ≠ 'e' ∧ c ≠ 'E'

theorem EndsNumber.endsDigits {rest : List Char} (h : EndsNumber rest) : EndsDigits rest :=
  fun c hc => (h c hc).1

theorem endsDigits_cons {c : Char} (rest : List Char) (h : c.isDigit = false) :
    EndsDigits (c :: rest) := by
  intro d hd
  obtain rfl := Option.some.inj hd
  exact h

theorem endsDigits_point (rest : List Char) : EndsDigits ('.' :: rest) :=
  endsDigits_cons rest rfl

theorem endsDigits_exponent (rest : List Char) : EndsDigits ('e' :: rest) :=
  endsDigits_cons rest rfl

theorem takeDigits_append {digits rest : List Char} (hdigits : ∀ c ∈ digits, c.isDigit = true)
    (hrest : EndsDigits rest) : takeDigits (digits ++ rest) = (digits, rest) := by
  have htake : rest.takeWhile Char.isDigit = [] := by
    cases rest with
    | nil => rfl
    | cons c rest => exact List.takeWhile_cons_of_neg (by simp [hrest c rfl])
  have hdrop : rest.dropWhile Char.isDigit = rest := by
    cases rest with
    | nil => rfl
    | cons c rest => exact List.dropWhile_cons_of_neg (by simp [hrest c rfl])
  rw [takeDigits, List.span_eq_takeWhile_dropWhile, List.takeWhile_append_of_pos hdigits,
    List.dropWhile_append_of_pos hdigits, htake, hdrop, List.append_nil]

/-- The digits of a number in base ten. -/
abbrev digitsOf (n : Nat) : List Char := Nat.toDigits 10 n

theorem isDigit_digitsOf (n : Nat) : ∀ c ∈ digitsOf n, c.isDigit = true :=
  fun _ => Nat.isDigit_of_mem_toDigits (by decide) (by decide)

theorem isDigit_zeros (n : Nat) : ∀ c ∈ Numeral.zeros n, c.isDigit = true := by
  intro c hc
  rw [List.eq_of_mem_replicate hc]
  rfl

theorem numberOfDigits_digitsOf (n : Nat) : numberOfDigits (digitsOf n) = n :=
  Nat.ofDigitChars_ten_toDigits

theorem numberOfDigits_zeros_append (n : Nat) (digits : List Char) :
    numberOfDigits (Numeral.zeros n ++ digits) = numberOfDigits digits := by
  rw [numberOfDigits, Nat.ofDigitChars_append, Numeral.zeros, Nat.ofDigitChars_replicate_zero,
    Nat.mul_zero, numberOfDigits]

theorem numberOfDigits_append_zeros (digits : List Char) (n : Nat) :
    numberOfDigits (digits ++ Numeral.zeros n) = numberOfDigits digits * tenTo n := by
  rw [numberOfDigits, Nat.ofDigitChars_append, Numeral.zeros, Nat.ofDigitChars_replicate_zero,
    Nat.mul_comm]
  rfl

theorem digitsOf_ne_nil (n : Nat) : digitsOf n ≠ [] := Nat.toDigits_ne_nil

theorem head?_digitsOf {n : Nat} (h : n ≠ 0) : (digitsOf n).head? ≠ some '0' := by
  induction n using Nat.strongRecOn with
  | ind n ih =>
    rw [digitsOf, Nat.toDigits_eq_if (by decide)]
    split
    · intro hzero
      have hdigit : n.digitChar = '0' := Option.some.inj hzero
      exact h (Nat.digitChar_eq_zero.mp hdigit)
    · have hhead : (Nat.toDigits 10 (n / 10)).head? ≠ some '0' := ih (n / 10) (by omega) (by omega)
      intro hzero
      rw [List.head?_append] at hzero
      cases hdigits : (Nat.toDigits 10 (n / 10)).head? with
      | none => exact digitsOf_ne_nil _ (List.head?_eq_none_iff.mp hdigits)
      | some c =>
        rw [hdigits] at hzero hhead
        exact hhead hzero

/-- What begins with the first digit of a positive number is a whole number. -/
theorem isWhole_of_head? {n : Nat} {digits : List Char} (hn : n ≠ 0) (hdigits : digits ≠ [])
    (h : digits.head? = (digitsOf n).head?) : isWhole digits = true := by
  have hhead : digits.head? ≠ some '0' := h ▸ head?_digitsOf hn
  simp [isWhole, hdigits, hhead]

theorem isWhole_digitsOf (n : Nat) : isWhole (digitsOf n) = true := by
  by_cases hn : n = 0
  · subst hn
    rfl
  · exact isWhole_of_head? hn (digitsOf_ne_nil n) rfl

/-! ### Parts of a number -/

theorem readFraction_of_ends {rest : List Char} (h : EndsNumber rest) :
    readFraction rest = some (none, rest) := by
  unfold readFraction
  split
  · rename_i tail
    exact absurd rfl (h '.' rfl).2.1
  · rfl

theorem readFraction_append {digits rest : List Char} (hdigits : ∀ c ∈ digits, c.isDigit = true)
    (hne : digits ≠ []) (hrest : EndsDigits rest) :
    readFraction ('.' :: (digits ++ rest)) = some (some digits, rest) := by
  simp only [readFraction, takeDigits_append hdigits hrest]
  simp [hne]

theorem readExponent_of_ends {rest : List Char} (h : EndsNumber rest) :
    readExponent rest = some (none, rest) := by
  cases rest with
  | nil => rfl
  | cons c rest =>
    obtain ⟨-, -, he, hE⟩ := h c rfl
    simp [readExponent, he, hE]

theorem readExponent_append (width : Nat) (exponent : Int) {rest : List Char}
    (h : EndsNumber rest) :
    readExponent ('e' :: (Numeral.exponentText width exponent ++ rest)) =
      some (some exponent, rest) := by
  let magnitude := digitsOf exponent.natAbs
  let padded := Numeral.zeros (width - magnitude.length) ++ magnitude
  have hpadded : ∀ c ∈ padded, c.isDigit = true :=
    List.forall_mem_append.mpr ⟨isDigit_zeros _, isDigit_digitsOf _⟩
  have htake : takeDigits (padded ++ rest) = (padded, rest) := takeDigits_append hpadded h.endsDigits
  have hne : padded.isEmpty = false := by simp [padded, magnitude]
  obtain ⟨m, hm, hnumber⟩ : ∃ m, m = exponent.natAbs ∧ numberOfDigits padded = m :=
    ⟨_, rfl, by rw [numberOfDigits_zeros_append, numberOfDigits_digitsOf]⟩
  have htext : Numeral.exponentText width exponent =
      (if exponent < 0 then '-' else '+') :: padded := rfl
  by_cases hneg : exponent < 0
  · have hvalue : -(m : Int) = exponent := by omega
    simp [htext, hneg, readExponent, htake, hne, hnumber, hvalue]
  · have hvalue : (m : Int) = exponent := by omega
    simp [htext, hneg, readExponent, htake, hne, hnumber, hvalue]

section

variable (negative : Bool) {whole tail mid rest : List Char}

/-- Digits with nothing more are a whole number. -/
theorem readMagnitude_whole (hdigits : ∀ c ∈ whole, c.isDigit = true)
    (hwhole : isWhole whole = true) (hrest : EndsNumber rest) :
    readMagnitude negative (whole ++ rest) = some (.int (if negative then
      -(numberOfDigits whole : Int) else numberOfDigits whole), rest) := by
  simp [readMagnitude, takeDigits_append hdigits hrest.endsDigits, hwhole,
    readFraction_of_ends hrest, readExponent_of_ends hrest]

/-- Digits with a fraction or an exponent are a double. -/
theorem readMagnitude_real {fraction : Option (List Char)} {exponent : Option Int}
    (hdigits : ∀ c ∈ whole, c.isDigit = true) (hwhole : isWhole whole = true)
    (htail : EndsDigits tail) (hfraction : readFraction tail = some (fraction, mid))
    (hexponent : readExponent mid = some (exponent, rest))
    (hreal : fraction.isSome || exponent.isSome) :
    readMagnitude negative (whole ++ tail) =
      some (.real ((⟨numberOfDigits (whole ++ fraction.getD []),
        exponent.getD 0 - (fraction.getD []).length⟩ : Numeral).toDouble negative), rest) := by
  simp only [readMagnitude, takeDigits_append hdigits htail, hwhole, hfraction, hexponent,
    Option.bind_eq_bind, Option.bind_some, Bool.not_true, Bool.false_eq_true, if_false]
  cases fraction with
  | some digits => rfl
  | none =>
    cases exponent with
    | some e => rfl
    | none => cases hreal

end

/-! ### Numerals -/

/-- The text of a numeral is read as a numeral for the same double. -/
def ReadsAs (n : Numeral) (text : List Char) : Prop :=
  ∀ negative rest, EndsNumber rest → ∃ m : Numeral, m.units = n.units ∧
    readMagnitude negative (text ++ rest) = some (.real (m.toDouble negative), rest)

section

variable {n : Numeral} {whole fraction : List Char}

theorem readsAs_fraction (hdigits : ∀ c ∈ whole, c.isDigit = true) (hwhole : isWhole whole = true)
    (hplaces : ∀ c ∈ fraction, c.isDigit = true) (hne : fraction ≠ [])
    (hunits : (⟨numberOfDigits (whole ++ fraction), -fraction.length⟩ : Numeral).units = n.units) :
    ReadsAs n (whole ++ '.' :: fraction) := by
  intro negative rest hrest
  have htext : whole ++ '.' :: fraction ++ rest = whole ++ '.' :: (fraction ++ rest) := by simp
  have hread := readMagnitude_real negative hdigits hwhole (endsDigits_point _)
    (readFraction_append hplaces hne hrest.endsDigits) (readExponent_of_ends hrest) rfl
  have hexponent : (none : Option Int).getD 0 - (fraction.length : Int) = -fraction.length :=
    Int.zero_sub _
  rw [Option.getD_some, hexponent] at hread
  exact ⟨_, hunits, htext ▸ hread⟩

theorem readsAs_exponent (width : Nat) {exponent : Int} (hdigits : ∀ c ∈ whole, c.isDigit = true)
    (hwhole : isWhole whole = true)
    (hunits : (⟨numberOfDigits whole, exponent⟩ : Numeral).units = n.units) :
    ReadsAs n (whole ++ 'e' :: Numeral.exponentText width exponent) := by
  intro negative rest hrest
  have htext : whole ++ 'e' :: Numeral.exponentText width exponent ++ rest =
      whole ++ 'e' :: (Numeral.exponentText width exponent ++ rest) := by simp
  have hread := readMagnitude_real negative hdigits hwhole (endsDigits_exponent _) rfl
    (readExponent_append width exponent hrest) rfl
  have hexponent : exponent - (([] : List Char).length : Int) = exponent := Int.sub_zero _
  rw [Option.getD_none, Option.getD_some, List.append_nil, hexponent] at hread
  exact ⟨_, hunits, htext ▸ hread⟩

theorem readsAs_both (width : Nat) {exponent : Int} (hdigits : ∀ c ∈ whole, c.isDigit = true)
    (hwhole : isWhole whole = true) (hplaces : ∀ c ∈ fraction, c.isDigit = true)
    (hne : fraction ≠ [])
    (hunits : (⟨numberOfDigits (whole ++ fraction), exponent - fraction.length⟩ : Numeral).units =
      n.units) :
    ReadsAs n (whole ++ '.' :: (fraction ++ 'e' :: Numeral.exponentText width exponent)) := by
  intro negative rest hrest
  have htext : whole ++ '.' :: (fraction ++ 'e' :: Numeral.exponentText width exponent) ++ rest =
      whole ++ '.' :: (fraction ++ 'e' :: (Numeral.exponentText width exponent ++ rest)) := by simp
  have hread := readMagnitude_real negative hdigits hwhole (endsDigits_point _)
    (readFraction_append hplaces hne (endsDigits_exponent _))
    (readExponent_append width exponent hrest) rfl
  rw [Option.getD_some, Option.getD_some] at hread
  exact ⟨_, hunits, htext ▸ hread⟩

end

/-- Zeros stand for a positive exponent, and one more behind the point. -/
theorem readsAs_padded {n : Numeral} (hplain : n.IsPlain) (hexponent : 0 ≤ n.exponent) :
    ReadsAs n (digitsOf n.digits ++ Numeral.zeros n.exponent.toNat ++ ['.', '0']) := by
  refine readsAs_fraction ?digits ?whole (isDigit_zeros 1) (by decide) ?units
  case digits => exact List.forall_mem_append.mpr ⟨isDigit_digitsOf _, isDigit_zeros _⟩
  case whole =>
    by_cases hzero : n.digits = 0
    · rw [hplain hzero, hzero]
      rfl
    · refine isWhole_of_head? hzero (by simp) ?_
      exact List.head?_append_of_ne_nil _ (digitsOf_ne_nil _)
  case units =>
    have hexponents : -((Numeral.zeros 1).length : Int) + (1 : Nat) + (n.exponent.toNat : Nat) =
        n.exponent := by
      simp only [Numeral.zeros, List.length_replicate]
      omega
    have hnumber : numberOfDigits (digitsOf n.digits ++ Numeral.zeros n.exponent.toNat ++
        Numeral.zeros 1) = n.digits * tenTo n.exponent.toNat * tenTo 1 := by
      rw [numberOfDigits_append_zeros, numberOfDigits_append_zeros, numberOfDigits_digitsOf]
    rw [show ['0'] = Numeral.zeros 1 from rfl, hnumber]
    calc (⟨n.digits * tenTo n.exponent.toNat * tenTo 1, -(Numeral.zeros 1).length⟩ : Numeral).units
        = (⟨n.digits * tenTo n.exponent.toNat, -(Numeral.zeros 1).length + (1 : Nat)⟩ :
            Numeral).units := Numeral.units_mul_tenTo _ _ _
      _ = (⟨n.digits, -(Numeral.zeros 1).length + (1 : Nat) + (n.exponent.toNat : Nat)⟩ :
            Numeral).units := Numeral.units_mul_tenTo _ _ _
      _ = n.units := by rw [hexponents]

/-- The point stands among the digits. -/
theorem readsAs_split {n : Numeral} {places : Nat} (hplain : n.IsPlain)
    (hexponent : n.exponent = -places) (hpos : 0 < places) {digits : List Char}
    (hdigits : digits = digitsOf n.digits) (hplaces : places < digits.length) :
    ReadsAs n (digits.take (digits.length - places) ++
      '.' :: digits.drop (digits.length - places)) := by
  have hall : ∀ c ∈ digits, c.isDigit = true := hdigits ▸ isDigit_digitsOf n.digits
  have hzero : n.digits ≠ 0 := by
    intro hzero
    have hnone := hplain hzero
    omega
  have hlength : (digits.drop (digits.length - places)).length = places := by
    rw [List.length_drop]
    omega
  have htake : digits.take (digits.length - places) ≠ [] := by
    rw [← List.length_pos_iff, List.length_take]
    omega
  refine readsAs_fraction ?digits ?whole ?places ?ne ?units
  case digits =>
    intro c hc
    exact hall c (List.mem_of_mem_take hc)
  case whole =>
    refine isWhole_of_head? hzero htake ?_
    rw [← hdigits, ← List.head?_append_of_ne_nil _ htake, List.take_append_drop]
  case places =>
    intro c hc
    exact hall c (List.mem_of_mem_drop hc)
  case ne =>
    rw [← List.length_pos_iff, hlength]
    exact hpos
  case units =>
    rw [List.take_append_drop, hdigits, numberOfDigits_digitsOf, ← hdigits, hlength, ← hexponent]

/-- Zeros stand before the digits. -/
theorem readsAs_leading {n : Numeral} {places : Nat} (hexponent : n.exponent = -places)
    {digits : List Char} (hdigits : digits = digitsOf n.digits) (hplaces : digits.length ≤ places) :
    ReadsAs n ('0' :: '.' :: (Numeral.zeros (places - digits.length) ++ digits)) := by
  have hall : ∀ c ∈ digits, c.isDigit = true := hdigits ▸ isDigit_digitsOf n.digits
  have hlength : (Numeral.zeros (places - digits.length) ++ digits).length = places := by
    rw [Numeral.zeros, List.length_append, List.length_replicate]
    omega
  have hnumber : numberOfDigits (Numeral.zeros 1 ++
      (Numeral.zeros (places - digits.length) ++ digits)) = n.digits := by
    rw [numberOfDigits_zeros_append, numberOfDigits_zeros_append, hdigits, numberOfDigits_digitsOf]
  have hne : digits ≠ [] := hdigits ▸ digitsOf_ne_nil n.digits
  have hread : ReadsAs n (Numeral.zeros 1 ++
      '.' :: (Numeral.zeros (places - digits.length) ++ digits)) := by
    refine readsAs_fraction (isDigit_zeros 1) rfl ?places ?ne ?units
    case places => exact List.forall_mem_append.mpr ⟨isDigit_zeros _, hall⟩
    case ne => simp [hne]
    case units => rw [hnumber, hlength, ← hexponent]
  exact hread

theorem readsAs_positional {n : Numeral} (h : n.IsPlain) :
    ReadsAs n (Numeral.positional (digitsOf n.digits) n.exponent) := by
  unfold Numeral.positional
  split
  · rename_i hexponent
    exact readsAs_padded h hexponent
  · rename_i hexponent
    have hplaces : n.exponent = -((-n.exponent).toNat : Nat) := by omega
    dsimp only
    split
    · rename_i hless
      exact readsAs_split h hplaces (by omega) rfl hless
    · rename_i hless
      exact readsAs_leading hplaces rfl (by omega)

theorem isWhole_singleton (c : Char) : isWhole [c] = true := by simp [isWhole]

theorem readsAs_scientific (n : Numeral) (width : Nat) {digits : List Char}
    (hdigits : digits = digitsOf n.digits) :
    ReadsAs n (Numeral.scientific width digits (n.exponent + digits.length - 1)) := by
  have hall : ∀ c ∈ digits, c.isDigit = true := hdigits ▸ isDigit_digitsOf n.digits
  have hnumber : numberOfDigits digits = n.digits := by rw [hdigits, numberOfDigits_digitsOf]
  match digits with
  | [] => exact absurd hdigits.symm (digitsOf_ne_nil _)
  | [first] =>
    have hexponent : n.exponent + ([first].length : Int) - 1 = n.exponent := by
      simp only [List.length_singleton]
      omega
    have hunits : (⟨numberOfDigits [first], n.exponent + ([first].length : Int) - 1⟩ :
        Numeral).units = n.units := by rw [hnumber, hexponent]
    exact readsAs_exponent width hall (isWhole_singleton first) hunits
  | first :: second :: rest =>
    obtain ⟨hfirst, hrest⟩ := List.forall_mem_cons.mp hall
    have hexponent : n.exponent + ((first :: second :: rest).length : Int) - 1 -
        ((second :: rest).length : Int) = n.exponent := by
      simp only [List.length_cons]
      omega
    have hunits : (⟨numberOfDigits ([first] ++ second :: rest), n.exponent +
        ((first :: second :: rest).length : Int) - 1 - ((second :: rest).length : Int)⟩ :
        Numeral).units = n.units := by rw [List.singleton_append, hnumber, hexponent]
    exact readsAs_both width (List.forall_mem_singleton.mpr hfirst) (isWhole_singleton first) hrest
      (List.cons_ne_nil _ _) hunits

theorem readsAs_write {n : Numeral} (h : n.IsPlain) (style : Numeral.Style) :
    ReadsAs n (n.write style) := by
  unfold Numeral.write
  dsimp only
  split
  · exact readsAs_positional h
  · exact readsAs_scientific n style.width rfl

/-! ### Whole numbers and doubles -/

/-- A magnitude that can be read begins with a digit. -/
theorem isDigit_of_readMagnitude {negative : Bool} {cs : List Char} {read : Value × List Char}
    (h : readMagnitude negative cs = some read) : ∃ c rest, cs = c :: rest ∧ c.isDigit = true := by
  have hnone (hends : EndsDigits cs) : readMagnitude negative cs = none := by
    have htake : takeDigits ([] ++ cs) = ([], cs) := takeDigits_append nofun hends
    rw [List.nil_append] at htake
    simp [readMagnitude, htake, isWhole]
  cases cs with
  | nil => exact absurd (h.symm.trans (hnone (by simp [EndsDigits]))) (by simp)
  | cons c rest =>
    cases hc : c.isDigit with
    | true => exact ⟨c, rest, rfl, hc⟩
    | false => exact absurd (h.symm.trans (hnone (endsDigits_cons rest hc))) (by simp)

/-- The text of a number begins with a digit or a minus. -/
def BeginsNumber (cs : List Char) : Prop := ∃ c rest, cs = c :: rest ∧ (c.isDigit = true ∨ c = '-')

theorem readNumber_of_readMagnitude {cs : List Char} {read : Value × List Char}
    (h : readMagnitude false cs = some read) : readNumber cs = some read ∧ BeginsNumber cs := by
  obtain ⟨c, rest, rfl, hc⟩ := isDigit_of_readMagnitude h
  refine ⟨?_, c, rest, rfl, .inl hc⟩
  unfold readNumber
  split
  · rename_i heq
    obtain ⟨rfl, -⟩ := List.cons.inj heq
    simp at hc
  · exact h

/-- A minus in front of a magnitude makes the number negative. -/
theorem readNumber_signed {negative : Bool} {text rest : List Char} {read : Value × List Char}
    (h : readMagnitude negative (text ++ rest) = some read) :
    readNumber ((if negative then '-' :: text else text) ++ rest) = some read ∧
      BeginsNumber ((if negative then '-' :: text else text) ++ rest) := by
  cases negative with
  | true => exact ⟨h, '-', text ++ rest, rfl, .inr rfl⟩
  | false => exact readNumber_of_readMagnitude h

theorem readNumber_writeInt (n : Int) {rest : List Char} (hrest : EndsNumber rest) :
    readNumber (writeInt n ++ rest) = some (.int n, rest) ∧ BeginsNumber (writeInt n ++ rest) := by
  have hread := readMagnitude_whole (decide (n < 0)) (isDigit_digitsOf n.natAbs)
    (isWhole_digitsOf n.natAbs) hrest
  have hvalue : (if decide (n < 0) then -(n.natAbs : Int) else n.natAbs) = n := by
    simp only [decide_eq_true_eq]
    omega
  rw [numberOfDigits_digitsOf, hvalue] at hread
  have hsigned := readNumber_signed hread
  simp only [decide_eq_true_eq] at hsigned
  exact hsigned

theorem readNumber_write (style : Numeral.Style) (d : Double) {rest : List Char}
    (hrest : EndsNumber rest) : readNumber (d.write style ++ rest) = some (.real d, rest) ∧
      BeginsNumber (d.write style ++ rest) := by
  obtain ⟨m, hunits, hread⟩ :=
    readsAs_write (Numeral.isPlain_shortest d.units) style d.negative rest hrest
  rw [Numeral.toDouble_eq (hunits.trans (Double.units_shortest d))] at hread
  have htext : d.write style = if d.negative then '-' :: (Double.shortest d.units).write style
      else (Double.shortest d.units).write style := by rw [Double.write]
  rw [htext]
  exact readNumber_signed hread

end Json

end ComponentAtlas
