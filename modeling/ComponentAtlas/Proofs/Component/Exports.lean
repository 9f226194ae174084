import ComponentAtlas.Proofs.SourceTree.Places
import ComponentAtlas.Component.Export

/-!
# What exports and calls lead to

A statement exports a value in one of five ways: by its value, by a declared
variable, by its declaration, by a name in a clause, or by an assignment to the
exports of the module. From a value on, wrapping calls lead to the place where
its definition is met.
-/

namespace ComponentAtlas.Component

open SourceTree

/-- The statement exports the value. -/
inductive Exports (statement : Cursor) : Cursor → Prop
  | value {q : Cursor} : statement.kind = "export_statement" →
      statement.child? "value" = some q → Exports statement q
  | declared {declaration d q : Cursor} : statement.kind = "export_statement" →
      statement.child? "value" = none → statement.child? "declaration" = some declaration →
      declaration.kind ∈ Scope.variableKinds → d ∈ declaration.contents →
      d.kind = "variable_declarator" → d.child? "value" = some q → Exports statement q
  | declaration {q : Cursor} : statement.kind = "export_statement" →
      statement.child? "value" = none → statement.child? "declaration" = some q →
      q.kind ∉ Scope.variableKinds → Exports statement q
  | name {clause specifier q : Cursor} : statement.kind = "export_statement" →
      statement.child? "value" = none → statement.child? "declaration" = none →
      statement.child? "source" = none → clause ∈ statement.contents →
      clause.kind = "export_clause" → specifier ∈ clause.contents →
      specifier.child? "name" = some q → Exports statement q
  | assignment {expression q : Cursor} : statement.kind = "expression_statement" →
      statement.content? = some expression → expression.kind = "assignment_expression" →
      isExportTarget (expression.child? "left") = true → expression.child? "right" = some q →
      Exports statement q

variable {statement program q : Cursor}

theorem mem_declaredValues {declaration : Cursor} :
    some q ∈ declaredValues declaration ↔ ∃ d ∈ declaration.contents,
      d.kind = "variable_declarator" ∧ d.child? "value" = some q := by
  simp only [declaredValues, List.mem_map, List.mem_filter, beq_iff_eq, and_assoc]

theorem mem_clauseNames :
    some q ∈ clauseNames statement ↔ ∃ clause ∈ statement.contents, clause.kind = "export_clause" ∧
      ∃ specifier ∈ clause.contents, specifier.child? "name" = some q := by
  simp only [clauseNames, List.mem_flatMap, List.mem_map, List.mem_filter, beq_iff_eq, and_assoc]

theorem mem_exportedBy (hk : statement.kind = "export_statement") :
    some q ∈ exportedBy statement ↔ Exports statement q := by
  constructor
  · intro h
    unfold exportedBy at h
    split at h
    · rename_i value hvalue
      obtain rfl := Option.some.inj (List.mem_singleton.mp h)
      exact .value hk hvalue
    · rename_i declaration hvalue hdeclaration
      split at h
      · rename_i hvariable
        obtain ⟨d, hd, hdk, hq⟩ := mem_declaredValues.mp h
        exact .declared hk hvalue hdeclaration (List.contains_iff_mem.mp hvariable) hd hdk hq
      · rename_i hvariable
        obtain rfl := Option.some.inj (List.mem_singleton.mp h)
        exact .declaration hk hvalue hdeclaration (mt List.contains_iff_mem.mpr hvariable)
    · rename_i hvalue hdeclaration
      split at h
      · rename_i hsource
        obtain ⟨clause, hclause, hck, specifier, hspecifier, hq⟩ := mem_clauseNames.mp h
        exact .name hk hvalue hdeclaration (Option.isNone_iff_eq_none.mp hsource) hclause hck
          hspecifier hq
      · cases h
  · intro h
    unfold exportedBy
    cases h with
    | value _ hvalue =>
      rw [hvalue]
      exact List.mem_singleton_self _
    | declared _ hvalue hdeclaration hvariable hd hdk hq =>
      rw [hvalue, hdeclaration]
      simp only [List.contains_iff_mem.mpr hvariable, if_true]
      exact mem_declaredValues.mpr ⟨_, hd, hdk, hq⟩
    | declaration _ hvalue hdeclaration hvariable =>
      rw [hvalue, hdeclaration]
      simp only [mt List.contains_iff_mem.mp hvariable]
      exact List.mem_singleton_self _
    | name _ hvalue hdeclaration hsource hclause hck hspecifier hq =>
      rw [hvalue, hdeclaration]
      simp only [hsource, Option.isNone_none, if_true]
      exact mem_clauseNames.mpr ⟨_, hclause, hck, _, hspecifier, hq⟩
    | assignment hk' _ _ _ _ =>
      rw [hk] at hk'
      exact absurd hk' (by decide)

theorem mem_assignedExport (hk : statement.kind = "expression_statement") :
    some q ∈ assignedExport statement ↔ Exports statement q := by
  constructor
  · intro h
    unfold assignedExport at h
    split at h
    · rename_i expression hexpression
      split at h
      · rename_i hassignment
        obtain ⟨hek, htarget⟩ := Bool.and_eq_true_iff.mp hassignment
        exact .assignment hk hexpression (of_decide_eq_true hek) htarget
          (List.mem_singleton.mp h).symm
      · cases h
    · cases h
  · intro h
    have hother : statement.kind ≠ "export_statement" := by
      rw [hk]
      decide
    cases h with
    | assignment _ hexpression hek htarget hq =>
      rw [assignedExport, hexpression]
      simp only [hek, htarget, decide_true, Bool.and_self, if_true, hq]
      exact List.mem_singleton_self _
    | value hk' => exact absurd hk' hother
    | declared hk' => exact absurd hk' hother
    | declaration hk' => exact absurd hk' hother
    | name hk' => exact absurd hk' hother

/-- The exported values that are not lost are those that some statement of the program exports. -/
theorem mem_exportedValues :
    some q ∈ exportedValues program ↔ ∃ statement ∈ program.contents, Exports statement q := by
  rw [exportedValues, List.mem_flatMap]
  refine exists_congr fun statement => and_congr_right fun _ => ?_
  unfold exportsOf
  split
  · rename_i hk
    exact mem_exportedBy hk
  split
  · rename_i hk
    exact mem_assignedExport hk
  · rename_i hexport hassign
    refine iff_of_false List.not_mem_nil fun h => ?_
    cases h with
    | assignment hk => exact hassign hk
    | value hk => exact hexport hk
    | declared hk => exact hexport hk
    | declaration hk => exact hexport hk
    | name hk => exact hexport hk

theorem within_of_exports {root : Node} (hs : Cursor.Within root statement)
    (h : Exports statement q) : Cursor.Within root q := by
  have hchild {c d : Cursor} {name : String} (hc : Cursor.Within root c)
      (hd : c.child? name = some d) : Cursor.Within root d := hc.child (Cursor.isChild_of_child? hd)
  have hcontent {c d : Cursor} (hc : Cursor.Within root c) (hd : d ∈ c.contents) :
      Cursor.Within root d := hc.child (Cursor.isChild_of_mem_contents hd)
  cases h with
  | value _ hq => exact hchild hs hq
  | declared _ _ hdeclaration _ hd _ hq => exact hchild (hcontent (hchild hs hdeclaration) hd) hq
  | declaration _ _ hq _ => exact hchild hs hq
  | name _ _ _ _ hclause _ hspecifier hq =>
    exact hchild (hcontent (hcontent hs hclause) hspecifier) hq
  | assignment _ hexpression _ _ hq =>
    exact hchild (hcontent hs (Cursor.mem_contents_of_content? hexpression)) hq

theorem within_of_mem_exportedValues {root : Node}
    (h : some q ∈ exportedValues (Cursor.ofRoot root)) : Cursor.Within root q := by
  obtain ⟨statement, hs, hq⟩ := mem_exportedValues.mp h
  have hroot : Cursor.Within root (Cursor.ofRoot root) := .refl
  exact within_of_exports (hroot.child (Cursor.isChild_of_mem_contents hs)) hq

/-! ### Wrapping calls -/

/-- What passes from wrapping calls to the values they wrap comes to where a definition is met. -/
theorem unwrap_preserves {P : Cursor → Prop}
    (hwrapped : ∀ c v, isCall c = true → definitionAt c = none →
      (firstArgument c).bind Scope.resolve = some v → P c → P v)
    {fuel : Nat} {c d : Cursor} (hc : P c) (h : unwrap fuel c = some d) :
    ∃ e, P e ∧ definitionAt e = some d := by
  induction fuel generalizing c with
  | zero => cases h
  | succ fuel ih =>
    rw [unwrap] at h
    split at h
    · rename_i hcomponent
      obtain rfl := Option.some.inj h
      exact ⟨c, hc, by rw [definitionAt, if_pos hcomponent]⟩
    rename_i hcomponent
    split at h
    · cases h
    rename_i hcall
    split at h
    · rename_i hfactory
      exact ⟨c, hc, by rw [definitionAt, if_neg hcomponent, if_pos hfactory, h]⟩
    · rename_i hfactory
      have hnone : definitionAt c = none := by
        rw [definitionAt, if_neg hcomponent, if_neg hfactory]
      obtain ⟨v, hv, hd⟩ := Option.bind_eq_some_iff.mp h
      exact ih (hwrapped c v (by simpa using hcall) hnone hv hc) hd

end ComponentAtlas.Component
