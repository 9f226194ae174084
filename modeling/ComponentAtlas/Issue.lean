import ComponentAtlas.Data.Value

/-!
# Issues with shaped data

Data that should have a fixed shape are checked part by part. An issue names
the part, by the names and indices that lead to it, and what is wrong there.
-/

namespace ComponentAtlas

/-- One step of the way to a part: a named field, or an item by its number. -/
inductive Segment where
  | name (s : String)
  | index (i : Int)
deriving DecidableEq, Repr

inductive IssueKind where
  | notText
  | notMapping
  | notSequence
  | notList
  | notRecord
  | notTruth
  | unreadableTruth
  | notAChoice
  | missing
  | unknownField
  | unknownAttribute
  | readOnly
deriving DecidableEq, Repr

structure Issue where
  location : List Segment
  kind : IssueKind
deriving DecidableEq, Repr

/--
The result of checking a part: what it is read as, and what is wrong with it. A
part with issues is read as some stand-in, so that the parts after it can be
checked as well; the stand-in is not shown to anyone.
-/
structure Checked (α : Type) where
  value : α
  issues : List Issue

namespace Checked

variable {α β : Type}

/-- Parts are checked in order and their issues are listed in that order. -/
instance : Monad Checked where
  pure value := ⟨value, []⟩
  bind c f := ⟨(f c.value).value, c.issues ++ (f c.value).issues⟩

/-- One issue with the part itself. -/
def bad (standIn : α) (kind : IssueKind) : Checked α := ⟨standIn, [⟨[], kind⟩]⟩

/-- The same issues, seen from the whole that holds the part under `segment`. -/
def under (segment : Segment) (c : Checked α) : Checked α :=
  ⟨c.value, c.issues.map fun i => ⟨segment :: i.location, i.kind⟩⟩

/-- The value, if nothing is wrong. -/
def toExcept (c : Checked α) : Except (List Issue) α :=
  if c.issues.isEmpty then .ok c.value else .error c.issues

theorem toExcept_pure (value : α) : (pure value : Checked α).toExcept = .ok value := rfl

theorem under_pure (segment : Segment) (value : α) :
    (pure value : Checked α).under segment = pure value := rfl

end Checked

end ComponentAtlas
