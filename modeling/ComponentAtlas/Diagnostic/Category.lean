/-!
# Categories of reports

Reports form a tree of categories. The lineage of a category leads from itself
to the general one at the root.
-/

namespace ComponentAtlas.Diagnostic

inductive Category where
  | general
  | validation
  | missingParameter
  | invalidParameter
  | invalidType
  | configuration
  | invalidConfiguration
  | parsing
  | unsupportedDialect
  | resolution
  | missingDefinition
  | multipleDefinitions
deriving DecidableEq, Repr

namespace Category

def parent? : Category → Option Category
  | .general => none
  | .validation | .configuration | .parsing | .resolution => some .general
  | .missingParameter | .invalidParameter | .invalidType => some .validation
  | .invalidConfiguration => some .configuration
  | .unsupportedDialect => some .parsing
  | .missingDefinition | .multipleDefinitions => some .resolution

/-- The first `depth` categories from `c` towards the root. -/
def lineageWithin : (depth : Nat) → Category → List Category
  | 0, _ => []
  | depth + 1, c =>
    c :: match c.parent? with
      | some parent => lineageWithin depth parent
      | none => []

/-- No category lies more than two steps below the root. -/
def lineage (c : Category) : List Category := lineageWithin 3 c

theorem lineage_getLast (c : Category) : c.lineage.getLast? = some .general := by
  cases c <;> rfl

end Category

end ComponentAtlas.Diagnostic
