import ComponentAtlas.Diagnostic.Basic

/-!
# Validation of arguments

Checks on the arguments of the entry points, so that misuse is reported early
and in words. A check passes or gives the report.
-/

namespace ComponentAtlas.Validation

abbrev Verdict := Except Diagnostic Unit

/-- The argument has one of the shapes; an argument that is not given passes. -/
def requireShape (d : Datum) (shapes : List Shape) (parameter : Datum) : Verdict :=
  match d with
  | .null => .ok ()
  | d =>
    if shapes.any d.kind.within then .ok ()
    else .error (.invalidType parameter d (", ".intercalate (shapes.map Shape.word)))

def requireGiven (d parameter : Datum) : Verdict :=
  match d with
  | .null => .error (.missingParameter parameter)
  | _ => .ok ()

def requireCallable (d parameter : Datum) : Verdict := do
  requireGiven d parameter
  if d.isCallable then pure () else throw (.invalidType parameter d "callable")

/-- Items are callable, those from number `i` on; the first that is not is reported. -/
def requireItemsCallable (parameter : Datum) : (i : Nat) → List Datum → Verdict
  | _, [] => .ok ()
  | i, d :: rest =>
    if d.isCallable then requireItemsCallable parameter (i + 1) rest
    else .error (.invalidParameter (parameter.plain ++ "[" ++ toString i ++ "]") d "callable")

def requireCallables (d parameter : Datum) : Verdict := do
  requireGiven d parameter
  match d with
  | .list items | .tuple items => requireItemsCallable parameter 0 items
  | d => throw (.invalidType parameter d "sequence of callables")

end ComponentAtlas.Validation
