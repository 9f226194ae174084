import ComponentAtlas.Failure
import ComponentAtlas.Record.Basic

/-!
# Copies of records

A record is copied before it is shown or published, so that nothing that happens
to it later shows in the copy. Its free-form data are copied level by level, and
only so many levels of them.
-/

namespace ComponentAtlas.Record

/-- The number of levels to which free-form data are copied. -/
def deepestCopied : Nat := 494

/-- Nothing stands in the way of copying the free-form data. -/
def requireCopyable (extra : Keyed Key Value) : Except Failure Unit :=
  if Value.heightOfItems (extra.map Prod.snd) ≤ deepestCopied then .ok ()
  else .error (.misuse .uncopyable)

theorem requireCopyable_eq_ok (extra : Keyed Key Value) :
    requireCopyable extra = .ok () ↔ ∀ v ∈ extra.map Prod.snd, v.height ≤ deepestCopied := by
  rw [← Value.heightOfItems_le, requireCopyable]
  split
  · simp [*]
  · simp [*]

end ComponentAtlas.Record
