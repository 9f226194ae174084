import ComponentAtlas.Number.Double

/-!
# Keys

What may stand as a key: null, truth values, numbers and texts. Two keys name
the same entry when they are equal in value, so that `1`, `1.0` and `true` are
one key while `"1"` is another.
-/

namespace ComponentAtlas

inductive Key where
  | null
  | bool (b : Bool)
  | int (n : Int)
  | real (d : Double)
  | text (s : String)
deriving DecidableEq, Repr

namespace Key

/-- What a key names: nothing, an amount in the units of doubles, or a text. -/
inductive Referent where
  | nothing
  | amount (units : Int)
  | text (s : String)
deriving DecidableEq

def referent : Key → Referent
  | .null => .nothing
  | .bool b => .amount ((if b then 1 else 0) * Double.one)
  | .int n => .amount (n * Double.one)
  | .real d => .amount d.signed
  | .text s => .text s

instance : BEq Key := ⟨fun a b => a.referent = b.referent⟩

theorem beq_iff (a b : Key) : (a == b) = true ↔ a.referent = b.referent :=
  decide_eq_true_iff

instance : EquivBEq Key where
  rfl := (beq_iff _ _).2 rfl
  symm h := (beq_iff _ _).2 ((beq_iff _ _).1 h).symm
  trans h₁ h₂ := (beq_iff _ _).2 (((beq_iff _ _).1 h₁).trans ((beq_iff _ _).1 h₂))

/-- Texts name different entries unless they are equal. -/
theorem text_beq_text (s t : String) : (Key.text s == Key.text t) = decide (s = t) := by
  rw [Bool.eq_iff_iff, beq_iff, decide_eq_true_iff]
  simp [referent]

def asText? : Key → Option String
  | .text s => some s
  | _ => none

end Key

end ComponentAtlas
