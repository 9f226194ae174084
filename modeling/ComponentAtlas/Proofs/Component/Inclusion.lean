import ComponentAtlas.Proofs.Component.Exposure

/-!
# Exports among all components

What a module exports is behind exposed places, and the survey of its program
passes over none of them. So whatever is answered for the exports is found again
among all components. But the survey tests places that no export leads to, and
there it may come upon a path that has no end, where it fails.
-/

namespace ComponentAtlas.Component

open SourceTree

section

variable {root : Node}

theorem mem_all_of_mem_allExported (hprogram : root.kind = "program") (hnumbered : root.IsNumbered)
    (hroot : ∀ p, Cursor.Within root p → IsRegular p) {d : Cursor}
    (hd : d ∈ allExported (Cursor.ofRoot root)) : d ∈ all (Cursor.ofRoot root) := by
  obtain ⟨value, hvalue, hd⟩ := List.mem_filterMap.mp (Distinct.mem_of_mem_eraseDupsBy hd)
  obtain ⟨q, rfl, hd⟩ := Option.bind_eq_some_iff.mp hd
  obtain ⟨e, he, hd⟩ := (exposed_of_exported hroot hprogram hvalue).definition hroot hd
  exact he.mem_all hnumbered hroot hd

theorem exported_subset_of_read (hprogram : root.kind = "program") (hnumbered : root.IsNumbered)
    (hroot : ∀ p, Cursor.Within root p → IsRegular p) {exported found : List Cursor}
    (hexported : Reading.allExported (Cursor.ofRoot root) = .ok exported)
    (hfound : Reading.all (Cursor.ofRoot root) = .ok found) : exported ⊆ found := by
  obtain ⟨-, rfl⟩ := (Reading.checked_eq_ok _ _ _).mp hexported
  obtain ⟨-, rfl⟩ := (Reading.checked_eq_ok _ _ _).mp hfound
  intro d hd
  exact mem_all_of_mem_allExported hprogram hnumbered hroot hd

/--
Where exports are answered, each is among the components of the program or these are not answered:
a text that is looked at cannot be read, or the path of a tested expression has no end. They are
answered wherever texts can be read and the recursion for tested paths ends.
-/
theorem exported_mem_all (hprogram : root.kind = "program") (hnumbered : root.IsNumbered)
    (hroot : ∀ p, Cursor.Within root p → IsRegular p) {exported : List Cursor}
    (hexported : Reading.allExported (Cursor.ofRoot root) = .ok exported) :
    ((∃ found, Reading.all (Cursor.ofRoot root) = .ok found ∧ exported ⊆ found) ∨
      ∃ failure, Reading.all (Cursor.ofRoot root) = .error failure ∧
        Reading.FailsFor (Reading.inAll (Cursor.ofRoot root)) (IsTested root) failure) ∧
    (TestsEnd root →
      (∀ place, .text place ∈ Reading.inAll (Cursor.ofRoot root) → place.isReadable = true) →
      ∃ found, Reading.all (Cursor.ofRoot root) = .ok found ∧ exported ⊆ found) := by
  have hfound {found : List Cursor} (hread : Reading.all (Cursor.ofRoot root) = .ok found) :
      ∃ found, Reading.all (Cursor.ofRoot root) = .ok found ∧ exported ⊆ found :=
    ⟨found, hread, exported_subset_of_read hprogram hnumbered hroot hexported hread⟩
  refine ⟨?_, fun hends hreadable => hfound (all_of_testsEnd hends .refl hreadable)⟩
  rcases all_cases .refl with hread | hfails
  · exact .inl (hfound hread)
  · exact .inr hfails

end

/-- The rows of a program that exports a variable by a wrapping call. -/
def wrappedRows : List Row :=
  let row (parent : Nat) (kind : String) (start stop : Nat) (field : Option String) : Row :=
    ⟨some parent, kind, start, stop, field, true, false⟩
  [⟨none, "program", 0, 39, none, true, false⟩, row 0 "export_statement" 0 20 none,
    row 1 "call_expression" 15 19 (some "value"), row 2 "identifier" 15 16 (some "function"),
    row 2 "arguments" 16 19 (some "arguments"), row 4 "identifier" 17 18 none,
    row 0 "variable_declaration" 21 39 none, row 6 "variable_declarator" 25 39 none,
    row 7 "identifier" 25 26 (some "name"), row 7 "arrow_function" 29 39 (some "value"),
    row 9 "formal_parameters" 29 31 (some "parameters"),
    row 9 "jsx_self_closing_element" 35 39 (some "body")]

def wrapped : Node := (Node.ofRows? "export default m(A); var A = () => <a/>" wrappedRows).get rfl

/-- The function that a program wraps and exports is one of its components. -/
theorem exported_mem_all_wrapped :
    wrapped.kind = "program" ∧ wrapped.IsNumbered ∧
      (∀ p, Cursor.Within wrapped p → IsRegular p) ∧ TestsEnd wrapped ∧
      ∃ d found, Reading.allExported (Cursor.ofRoot wrapped) = .ok [d] ∧
        Reading.all (Cursor.ofRoot wrapped) = .ok found ∧ d ∈ found := by
  have hnumbered : wrapped.IsNumbered := Node.isNumbered_of_ofRows? (Option.some_get _).symm
  have hregular : ∀ p ∈ Cursor.placesFrom [] wrapped,
      IsRegular p ∧ ∀ d ∈ Path.parts Path.byScope p, d.node.size < p.node.size := by
    decide +kernel
  have hroot : ∀ p, Cursor.Within wrapped p → IsRegular p := fun p hp =>
    (hregular p hp.mem_places).1
  have hends : TestsEnd wrapped := testsEnd_of_size fun c hc => (hregular c hc).2
  have hfaultless : ∀ look ∈ Reading.inAll (Cursor.ofRoot wrapped), look.fault? = none := by
    decide +kernel
  obtain ⟨d, hd⟩ : ∃ d, Reading.allExported (Cursor.ofRoot wrapped) = .ok [d] := ⟨_, rfl⟩
  obtain ⟨found, hfound, hsubset⟩ := (exported_mem_all rfl hnumbered hroot hd).2 hends
    (Reading.isReadable_of_faultless hfaultless)
  exact ⟨rfl, hnumbered, hroot, hends, d, found, hd, hfound, hsubset (List.mem_singleton.mpr rfl)⟩

/-- The rows of a program that calls by a key whose value holds itself, and exports a function. -/
def turningRows : List Row :=
  let row (parent : Nat) (kind : String) (start stop : Nat) (field : Option String) : Row :=
    ⟨some parent, kind, start, stop, field, true, false⟩
  [⟨none, "program", 0, 67, none, true, false⟩, row 0 "variable_declaration" 0 13 none,
    row 1 "variable_declarator" 4 12 none, row 2 "identifier" 4 5 (some "name"),
    row 2 "subscript_expression" 8 12 (some "value"), row 4 "identifier" 8 9 (some "object"),
    row 4 "identifier" 10 11 (some "index"), row 0 "expression_statement" 14 21 none,
    row 7 "call_expression" 14 20 none, row 8 "subscript_expression" 14 18 (some "function"),
    row 9 "identifier" 14 15 (some "object"), row 9 "identifier" 16 17 (some "index"),
    row 8 "arguments" 18 20 (some "arguments"), row 0 "export_statement" 22 67 none,
    row 13 "function_declaration" 37 67 (some "declaration"),
    row 14 "identifier" 46 47 (some "name"),
    row 14 "formal_parameters" 47 49 (some "parameters"),
    row 14 "statement_block" 50 67 (some "body"), row 17 "return_statement" 52 65 none,
    row 18 "jsx_self_closing_element" 59 64 none, row 19 "identifier" 60 61 (some "name")]

def turningSource : String :=
  "var a = b[a];\nq[a]();\nexport default function F() \x7b return <a />; \x7d"

def turning : Node := (Node.ofRows? turningSource turningRows).get rfl

example : (Reading.allExported (.ofRoot turning)).map (List.map Cursor.start) = .ok [37] ∧
    Reading.all (.ofRoot turning) = .error (.misuse .endless) :=
  ⟨rfl, (Reading.checked_eq_error _ _ _).mpr (by decide +kernel)⟩

end ComponentAtlas.Component
