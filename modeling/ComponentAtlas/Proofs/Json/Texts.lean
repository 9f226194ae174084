import ComponentAtlas.Json.Printer
import ComponentAtlas.Json.Reader
import Mathlib.Tactic.SplitIfs

/-!
# Strings read back

Each character of a string is read back from its escape before the rest of the
string is looked at, so that a string is read up to its closing quote.
-/

namespace ComponentAtlas.Json

/-- A code unit that stands for a character alone is read without what follows. -/
theorem readText_unit {a b c d : Char} {unit : Nat} {ch : Char} (tail : List Char)
    (hunit : hexUnit? a b c d = some unit) (hch : charOfUnit? unit = some ch) :
    readText ('\\' :: 'u' :: a :: b :: c :: d :: tail) = prepend ch (readText tail) := by
  rw [readText.eq_def]
  split
  · rename_i heq
    cases heq
  · rename_i heq
    cases heq
  · rename_i heq
    cases heq
    simp only [hunit, hch]
  · rename_i heq
    cases heq
    simp only [hunit, hch, Option.bind_some]
  · rename_i hno heq
    cases heq
    exact absurd rfl (hno _ _ _ _ _ rfl)
  · rename_i hno heq
    cases heq
    exact absurd rfl (hno _ _ rfl)

theorem readText_short {e ch : Char} (tail : List Char) (hne : e ≠ 'u')
    (h : shortEscape? e = some ch) :
    readText ('\\' :: e :: tail) = prepend ch (readText tail) := by
  rw [readText.eq_def]
  split
  · rename_i heq
    cases heq
  · rename_i heq
    cases heq
  · rename_i heq
    cases heq
    exact absurd rfl hne
  · rename_i heq
    cases heq
    exact absurd rfl hne
  · rename_i heq
    cases heq
    simp only [h]
  · rename_i hno heq
    cases heq
    exact absurd rfl (hno _ _ rfl)

theorem readText_plain {c : Char} (tail : List Char) (hquote : c ≠ '"') (hescape : c ≠ '\\')
    (hcontrol : ¬ c.toNat < 32) : readText (c :: tail) = prepend c (readText tail) := by
  rw [readText.eq_def]
  split
  · rename_i heq
    cases heq
  · rename_i heq
    cases heq
    exact absurd rfl hquote
  · rename_i heq
    cases heq
    exact absurd rfl hescape
  · rename_i heq
    cases heq
    exact absurd rfl hescape
  · rename_i heq
    cases heq
    exact absurd rfl hescape
  · rename_i heq
    cases heq
    rw [if_neg hcontrol]

/-- The four hexadecimal digits of a control character give its number back. -/
theorem exists_hexUnit? {n : Nat} (h : n < 32) :
    ∃ a b c d, Text.hexDigits 4 n = [a, b, c, d] ∧ hexUnit? a b c d = some n := by
  refine ⟨_, _, _, _, rfl, ?_⟩
  revert n
  decide

theorem charOfUnit?_toNat {c : Char} (h : c.toNat < 32) : charOfUnit? c.toNat = some c := by
  have hsurrogate : ¬ (0xD800 ≤ c.toNat ∧ c.toNat < 0xE000) := by omega
  simp only [charOfUnit?, Bool.and_eq_true, decide_eq_true_eq, hsurrogate, if_false,
    Char.ofNat_toNat]

/-- A character is written by a short escape, by its number, or as it is. -/
theorem escapeChar_cases (c : Char) :
    (∃ e, escapeChar c = ['\\', e] ∧ e ≠ 'u' ∧ shortEscape? e = some c) ∨
      (escapeChar c = '\\' :: 'u' :: Text.hexDigits 4 c.toNat ∧ c.toNat < 32) ∨
      (escapeChar c = [c] ∧ c ≠ '"' ∧ c ≠ '\\' ∧ ¬ c.toNat < 32) := by
  unfold escapeChar
  split_ifs with h₁ h₂ h₃ h₄ h₅ h₆ h₇ h₈
  · exact .inl ⟨'"', rfl, by decide, by rw [h₁]; rfl⟩
  · exact .inl ⟨'\\', rfl, by decide, by rw [h₂]; rfl⟩
  · exact .inl ⟨'b', rfl, by decide, by rw [h₃]; rfl⟩
  · exact .inl ⟨'f', rfl, by decide, by rw [h₄]; rfl⟩
  · exact .inl ⟨'n', rfl, by decide, by rw [h₅]; rfl⟩
  · exact .inl ⟨'r', rfl, by decide, by rw [h₆]; rfl⟩
  · exact .inl ⟨'t', rfl, by decide, by rw [h₇]; rfl⟩
  · exact .inr (.inl ⟨rfl, h₈⟩)
  · exact .inr (.inr ⟨rfl, h₁, h₂, h₈⟩)

theorem readText_escapeChar (c : Char) (tail : List Char) :
    readText (escapeChar c ++ tail) = prepend c (readText tail) := by
  rcases escapeChar_cases c with ⟨e, htext, hne, hshort⟩ | ⟨htext, hcontrol⟩ |
    ⟨htext, hquote, hescape, hcontrol⟩
  · rw [htext]
    exact readText_short tail hne hshort
  · obtain ⟨a, b, d, e, hdigits, hunit⟩ := exists_hexUnit? hcontrol
    rw [htext, hdigits]
    exact readText_unit tail hunit (charOfUnit?_toNat hcontrol)
  · rw [htext]
    exact readText_plain tail hquote hescape hcontrol

theorem readText_writeText (cs rest : List Char) :
    readText (cs.flatMap escapeChar ++ '"' :: rest) = some (cs, rest) := by
  induction cs with
  | nil => rfl
  | cons c cs ih =>
    rw [List.flatMap_cons, List.append_assoc, readText_escapeChar, ih]
    rfl

end ComponentAtlas.Json
