import ComponentAtlas.Proofs.Component.Comments
import ComponentAtlas.Proofs.SourceTree.CommentRows

/-!
# Answers without comments

The survey of a program passes over remarks, and no export is one. So a program
has the same components when the comments are left out of its table; and so has
every answer about one of its nodes its counterpart, at the same node under the
number of its new row.
-/

namespace ComponentAtlas

open SourceTree

variable (number : Nat → Nat)

namespace Component

/-! ### Surveys -/

theorem definitionAt_of_isRemark {c : Cursor} (h : c.node.isRemark = true) :
    definitionAt c = none := by
  have hkind : c.kind = "comment" := ((Node.isRemark_iff _).mp h).1
  exact definitionAt_eq_none (by rw [hkind]; decide)

theorem survey_filter_remarks (covered : Nat) (places : List Cursor) :
    survey covered (places.filter fun c => !c.node.isRemark) = survey covered places := by
  induction places generalizing covered with
  | nil => rfl
  | cons c rest ih =>
    cases h : c.node.isRemark with
    | true =>
      have hpassed : survey covered (c :: rest) = survey covered rest := by
        rw [survey, definitionAt_of_isRemark h]
        exact ite_self _
      rw [hpassed, List.filter_cons, h, Bool.not_true, if_neg Bool.false_ne_true, ih]
    | false =>
      rw [List.filter_cons, h, Bool.not_false, if_pos rfl, survey, survey]
      simp only [ih]

section

variable {root : Node} {c d : Cursor}

theorem kept_of_definitionAt (hc : Cursor.Kept root c) (h : definitionAt c = some d) :
    Cursor.Kept root d := by
  unfold definitionAt at h
  split at h
  · exact Option.some.inj h ▸ hc
  split at h
  · exact kept_of_specification hc.within h
  · cases h

theorem kept_of_definition (hc : Cursor.Kept root c) (h : definition c = some d) :
    Cursor.Kept root d := by
  obtain ⟨v, hv, hd⟩ := Option.bind_eq_some_iff.mp h
  obtain ⟨e, he, hd⟩ := unwrap_preserves (P := Cursor.Kept root)
    (fun _ _ _ _ hv hk => kept_of_argumentValue hk.within hv) (Scope.kept_of_resolve hc hv) hd
  exact kept_of_definitionAt he hd

theorem distinct_uncommented {places : List Cursor} (hroot : root.IsNumbered)
    (hplain : (root.uncommented number).IsNumbered) (hplaces : ∀ p ∈ places, Cursor.Kept root p) :
    distinct (places.map (Cursor.uncommented number)) =
      (distinct places).map (Cursor.uncommented number) := by
  refine Distinct.eraseDupsBy_map fun a ha b hb => ?_
  have ha := hplaces a ha
  have hb := hplaces b hb
  rw [Bool.eq_iff_iff, beq_iff_eq, beq_iff_eq]
  constructor
  · exact fun h => congrArg Cursor.id (ha.eq_of_id_eq number hplain hb h)
  · intro h
    rw [Cursor.eq_of_id_eq hroot ha.within hb.within h]

variable (hfinite : Path.HasFinitePaths Path.byScope root)

include hfinite

theorem survey_uncommented (covered : Nat) {places : List Cursor}
    (hplaces : ∀ p ∈ places, Cursor.Within root p) :
    survey covered (places.map (Cursor.uncommented number)) =
      (survey covered places).map (Cursor.uncommented number) := by
  induction places generalizing covered with
  | nil => rfl
  | cons c rest ih =>
    have hc := hplaces c (List.mem_cons_self ..)
    have hrest : ∀ p ∈ rest, Cursor.Within root p := fun p hp =>
      hplaces p (List.mem_cons_of_mem _ hp)
    rw [List.map_cons, survey, survey, definitionAt_uncommented number hfinite hc,
      Cursor.start_uncommented, Cursor.stop_uncommented]
    split
    · exact ih covered hrest
    · cases definitionAt c with
      | none => exact ih covered hrest
      | some found => exact congrArg (_ :: ·) (ih c.stop hrest)

theorem all_uncommented (hroot : root.IsNumbered) (hplain : (root.uncommented number).IsNumbered)
    (hc : Cursor.Kept root c) :
    all (c.uncommented number) = (all c).map (Cursor.uncommented number) := by
  have hwalk : ∀ p ∈ (c.descendants none).filter fun c => !c.node.isRemark,
      Cursor.Kept root p := by
    intro p hp
    obtain ⟨hp, hstays⟩ := List.mem_filter.mp hp
    have hcp : c.Contains p := (Cursor.mem_descendants.mp hp).1.contains
    exact ⟨hc.within.trans hcp, by simpa using hstays⟩
  have hkept : ∀ p ∈ survey 0 (c.descendants none), Cursor.Kept root p := by
    intro p hp
    -- The walk comes to remarks too, but what is defined is defined elsewhere.
    rw [← survey_filter_remarks] at hp
    obtain ⟨e, he, hdefined⟩ := definition_of_mem_survey hp
    exact kept_of_definitionAt (hwalk e he) hdefined
  rw [all, Cursor.descendants_uncommented number none hc.stays,
    survey_uncommented number hfinite 0 fun p hp => (hwalk p hp).within, survey_filter_remarks,
    distinct_uncommented number hroot hplain hkept, all]

end

/-! ### Exports -/

theorem declaredValues_uncommented (declaration : Cursor) :
    declaredValues (declaration.uncommented number) =
      (declaredValues declaration).map (Option.map (Cursor.uncommented number)) := by
  simp only [declaredValues, Cursor.contents_uncommented, List.filter_map, Function.comp_def,
    Cursor.kind_uncommented, List.map_map, Cursor.child?_uncommented]

theorem clauseNames_uncommented (statement : Cursor) :
    clauseNames (statement.uncommented number) =
      (clauseNames statement).map (Option.map (Cursor.uncommented number)) := by
  simp only [clauseNames, Cursor.contents_uncommented, List.filter_map, Function.comp_def,
    Cursor.kind_uncommented, List.flatMap_map, List.map_map, Cursor.child?_uncommented,
    List.map_flatMap]

theorem exportedBy_uncommented (statement : Cursor) :
    exportedBy (statement.uncommented number) =
      (exportedBy statement).map (Option.map (Cursor.uncommented number)) := by
  simp only [exportedBy, Cursor.child?_uncommented, clauseNames_uncommented, Option.isNone_map]
  cases statement.child? "value" with
  | some value => rfl
  | none =>
    cases statement.child? "declaration" with
    | some declaration =>
      simp only [Option.map_none, Option.map_some, Cursor.kind_uncommented,
        declaredValues_uncommented]
      split <;> rfl
    | none =>
      simp only [Option.map_none]
      split <;> rfl

section

variable {root : Node} {c q : Cursor}

theorem kept_of_exports (hc : Cursor.Within root c) (h : Exports c q) : Cursor.Kept root q := by
  cases h with
  | value _ hq => exact Cursor.kept_of_child? hc hq
  | declared _ _ hdeclaration _ hd _ hq =>
    have hd := Cursor.kept_of_mem_contents (Cursor.kept_of_child? hc hdeclaration).within hd
    exact Cursor.kept_of_child? hd.within hq
  | declaration _ _ hq _ => exact Cursor.kept_of_child? hc hq
  | name _ _ _ _ hclause _ hspecifier hq =>
    have hspecifier :=
      Cursor.kept_of_mem_contents (Cursor.kept_of_mem_contents hc hclause).within hspecifier
    exact Cursor.kept_of_child? hspecifier.within hq
  | assignment _ hexpression _ _ hq =>
    exact Cursor.kept_of_child? (Cursor.kept_of_content? hc hexpression).within hq

theorem kept_of_mem_exportedValues (hc : Cursor.Within root c) (h : some q ∈ exportedValues c) :
    Cursor.Kept root q := by
  obtain ⟨statement, hstatement, h⟩ := mem_exportedValues.mp h
  exact kept_of_exports (Cursor.kept_of_mem_contents hc hstatement).within h

variable (hfinite : Path.HasFinitePaths Path.byScope root)

include hfinite

theorem assignedExport_uncommented (hc : Cursor.Within root c) :
    assignedExport (c.uncommented number) =
      (assignedExport c).map (Option.map (Cursor.uncommented number)) := by
  rw [assignedExport, Cursor.content?_uncommented, assignedExport]
  cases hexpression : c.content? with
  | none => rfl
  | some expression =>
    have hin := (Cursor.kept_of_content? hc hexpression).within
    have htarget : isExportTarget ((expression.child? "left").map (Cursor.uncommented number)) =
        isExportTarget (expression.child? "left") := by
      rw [isExportTarget, Path.segments_uncommented number hfinite fun _ h =>
        Cursor.kept_of_child? hin h, isExportTarget]
    simp only [Option.map_some, Cursor.kind_uncommented, Cursor.child?_uncommented, htarget]
    split <;> rfl

theorem exportsOf_uncommented (hc : Cursor.Within root c) :
    exportsOf (c.uncommented number) =
      (exportsOf c).map (Option.map (Cursor.uncommented number)) := by
  rw [exportsOf, Cursor.kind_uncommented, exportedBy_uncommented,
    assignedExport_uncommented number hfinite hc, exportsOf]
  split
  · rfl
  · split <;> rfl

theorem exportedValues_uncommented (hc : Cursor.Within root c) :
    exportedValues (c.uncommented number) =
      (exportedValues c).map (Option.map (Cursor.uncommented number)) := by
  rw [exportedValues, Cursor.contents_uncommented, List.flatMap_map, exportedValues,
    List.map_flatMap]
  refine List.flatMap_congr fun statement hstatement => ?_
  exact exportsOf_uncommented number hfinite (Cursor.kept_of_mem_contents hc hstatement).within

theorem allExported_uncommented (hroot : root.IsNumbered)
    (hplain : (root.uncommented number).IsNumbered) (hc : Cursor.Within root c) :
    allExported (c.uncommented number) = (allExported c).map (Cursor.uncommented number) := by
  have hdefinitions : (exportedValues c).filterMap
      ((fun value => value.bind definition) ∘ Option.map (Cursor.uncommented number)) =
        ((exportedValues c).filterMap fun value => value.bind definition).map
          (Cursor.uncommented number) := by
    rw [List.map_filterMap]
    refine List.filterMap_congr fun value hvalue => ?_
    cases value with
    | none => rfl
    | some q =>
      have hin := (kept_of_mem_exportedValues hc hvalue).within
      exact definition_uncommented number hfinite hin
  rw [allExported, exportedValues_uncommented number hfinite hc, List.filterMap_map, hdefinitions,
    distinct_uncommented number hroot hplain, allExported]
  intro d hd
  obtain ⟨value, hvalue, hd⟩ := List.mem_filterMap.mp hd
  obtain ⟨q, rfl, hd⟩ := Option.bind_eq_some_iff.mp hd
  exact kept_of_definition (kept_of_mem_exportedValues hc hvalue) hd

theorem exported_uncommented (hroot : root.IsNumbered)
    (hplain : (root.uncommented number).IsNumbered) (hc : Cursor.Within root c) :
    exported (c.uncommented number) =
      (exported c).map (Option.map (Cursor.uncommented number)) := by
  rw [exported, allExported_uncommented number hfinite hroot hplain hc, exported]
  rcases allExported c with _ | ⟨d, _ | ⟨e, rest⟩⟩
  · rfl
  · rfl
  · simp only [List.map_cons, List.length_cons, List.length_map]
    rfl

end

end Component

/-! ### Texts that are looked at -/

namespace Reading

theorem inDefinitionAt_of_isRemark {c : Cursor} (h : c.node.isRemark = true) :
    inDefinitionAt c = [] := by
  have hkind : c.kind = "comment" := ((Node.isRemark_iff _).mp h).1
  exact Component.inDefinitionAt_eq_nil (by rw [hkind]; decide)

theorem inSurvey_filter_remarks (covered : Nat) (places : List Cursor) :
    inSurvey covered (places.filter fun c => !c.node.isRemark) = inSurvey covered places := by
  induction places generalizing covered with
  | nil => rfl
  | cons c rest ih =>
    cases h : c.node.isRemark with
    | true =>
      have hpassed : inSurvey covered (c :: rest) = inSurvey covered rest := by
        rw [inSurvey, inDefinitionAt_of_isRemark h, Component.definitionAt_of_isRemark h]
        exact ite_self _
      rw [hpassed, List.filter_cons, h, Bool.not_true, if_neg Bool.false_ne_true, ih]
    | false =>
      rw [List.filter_cons, h, Bool.not_false, if_pos rfl, inSurvey, inSurvey]
      simp only [ih]

section

variable {root : Node} {c : Cursor} (hfinite : Path.HasFinitePaths Path.byScope root)

include hfinite

theorem inSurvey_uncommented (covered : Nat) {places : List Cursor}
    (hplaces : ∀ p ∈ places, Cursor.Within root p) :
    inSurvey covered (places.map (Cursor.uncommented number)) =
      (inSurvey covered places).map (Look.uncommented number) := by
  induction places generalizing covered with
  | nil => rfl
  | cons c rest ih =>
    have hc := hplaces c (List.mem_cons_self ..)
    have hrest : ∀ p ∈ rest, Cursor.Within root p := fun p hp =>
      hplaces p (List.mem_cons_of_mem _ hp)
    rw [List.map_cons, inSurvey, inSurvey, inDefinitionAt_uncommented number hfinite hc,
      Component.definitionAt_uncommented number hfinite hc, Option.isSome_map,
      Cursor.start_uncommented, Cursor.stop_uncommented]
    split
    · exact ih covered hrest
    · rw [List.map_append, ih _ hrest]

theorem inAll_uncommented (hc : Cursor.Kept root c) :
    inAll (c.uncommented number) = (inAll c).map (Look.uncommented number) := by
  have hwalk : ∀ p ∈ (c.descendants none).filter fun c => !c.node.isRemark,
      Cursor.Within root p := by
    intro p hp
    have hcp : c.Contains p := (Cursor.mem_descendants.mp (List.mem_filter.mp hp).1).1.contains
    exact hc.within.trans hcp
  rw [inAll, Cursor.descendants_uncommented number none hc.stays,
    inSurvey_uncommented number hfinite 0 hwalk, inSurvey_filter_remarks, inAll]

theorem inAssignment_uncommented (hc : Cursor.Within root c) :
    inAssignment (c.uncommented number) = (inAssignment c).map (Look.uncommented number) := by
  rw [inAssignment, Cursor.kind_uncommented, Cursor.content?_uncommented, toList_map_uncommented,
    inAssignment]
  split
  · cases hexpression : c.content? with
    | none => rfl
    | some expression =>
      have hin := (Cursor.kept_of_content? hc hexpression).within
      have hleft := inPath_uncommented number (x := expression.child? "left") hfinite fun _ h =>
        Cursor.kept_of_child? hin h
      cases hkind : expression.kind == "assignment_expression" with
      | true => simpa [hkind] using hleft
      | false => simp [hkind]
  · rfl

theorem inExport_uncommented {program : Cursor} (hprogram : Cursor.Within root program)
    (hc : c ∈ program.contents) :
    inExport (c.uncommented number) = (inExport c).map (Look.uncommented number) := by
  have hin := (Cursor.kept_of_mem_contents hprogram hc).within
  rw [inExport, inAssignment_uncommented number hfinite hin,
    Component.exportsOf_uncommented number hfinite hin, List.flatMap_map, inExport,
    List.map_append, List.map_flatMap]
  congr 1
  refine List.flatMap_congr fun value hvalue => ?_
  cases value with
  | none => rfl
  | some q =>
    have hexported : some q ∈ Component.exportedValues program :=
      List.mem_flatMap.mpr ⟨c, hc, hvalue⟩
    have hq := (Component.kept_of_mem_exportedValues hprogram hexported).within
    simpa using inDefinition_uncommented number hfinite hq

theorem inExports_uncommented (hc : Cursor.Within root c) :
    inExports (c.uncommented number) = (inExports c).map (Look.uncommented number) := by
  rw [inExports, Cursor.contents_uncommented, List.flatMap_map, inExports, List.map_flatMap]
  exact List.flatMap_congr fun statement hs => inExport_uncommented number hfinite hc hs

theorem all_uncommented (hroot : root.IsNumbered) (hplain : (root.uncommented number).IsNumbered)
    (hc : Cursor.Kept root c) :
    all (c.uncommented number) = (all c).map (List.map (Cursor.uncommented number)) := by
  rw [all, inAll_uncommented number hfinite hc, checked_uncommented,
    Component.all_uncommented number hfinite hroot hplain hc, checked_map, all]

theorem allExported_uncommented (hroot : root.IsNumbered)
    (hplain : (root.uncommented number).IsNumbered) (hc : Cursor.Within root c) :
    allExported (c.uncommented number) =
      (allExported c).map (List.map (Cursor.uncommented number)) := by
  rw [allExported, inExports_uncommented number hfinite hc, checked_uncommented,
    Component.allExported_uncommented number hfinite hroot hplain hc, checked_map, allExported]

theorem exported_uncommented (hroot : root.IsNumbered)
    (hplain : (root.uncommented number).IsNumbered) (hc : Cursor.Within root c) :
    exported (c.uncommented number) =
      (exported c).map (Option.map (Cursor.uncommented number)) := by
  rw [exported, inExports_uncommented number hfinite hc, checked_uncommented,
    Component.exported_uncommented number hfinite hroot hplain hc, exported]
  cases checked (inExports c) () <;> rfl

end

end Reading

/-! ### Answers about nodes -/

/--
What is answered at the second place is what is answered at the first, with each place in an
answer carried over.
-/
structure AnswersAlike (carry : Cursor → Cursor) (c d : Cursor) : Prop where
  segments : Reading.segments (some d) = Reading.segments (some c)
  dotted : Reading.dotted (some d) = Reading.dotted (some c)
  lookup : Reading.lookup d = (Reading.lookup c).map (Option.map carry)
  resolve : Reading.resolve d = (Reading.resolve c).map (Option.map carry)
  superclass : Component.superclass d = (Component.superclass c).map carry
  isClassComponent : Reading.isClassComponent d = Reading.isClassComponent c
  isFunctionComponent : Component.isFunctionComponent d = Component.isFunctionComponent c
  isFactoryCall : Reading.isFactoryCall d = Reading.isFactoryCall c
  definition : Reading.definition d = (Reading.definition c).map (Option.map carry)
  all : Reading.all d = (Reading.all c).map (List.map carry)
  allExported : Reading.allExported d = (Reading.allExported c).map (List.map carry)
  exported : Reading.exported d = (Reading.exported c).map (Option.map carry)

theorem answersAlike_uncommented {root : Node} {c : Cursor}
    (hfinite : Path.HasFinitePaths Path.byScope root) (hroot : root.IsNumbered)
    (hplain : (root.uncommented number).IsNumbered) (hc : Cursor.Kept root c) :
    AnswersAlike (Cursor.uncommented number) c (c.uncommented number) where
  segments := Reading.segments_uncommented number hfinite fun _ h => Option.mem_some_iff.mp h ▸ hc
  dotted := Reading.dotted_uncommented number hfinite fun _ h => Option.mem_some_iff.mp h ▸ hc
  lookup := Reading.lookup_uncommented number c
  resolve := Reading.resolve_uncommented number c
  superclass := Component.superclass_uncommented number c
  isClassComponent := Reading.isClassComponent_uncommented number hfinite hc.within
  isFunctionComponent := Component.isFunctionComponent_uncommented number c
  isFactoryCall := Reading.isFactoryCall_uncommented number hfinite hc.within
  definition := Reading.definition_uncommented number hfinite hc.within
  all := Reading.all_uncommented number hfinite hroot hplain hc
  allExported := Reading.allExported_uncommented number hfinite hroot hplain hc.within
  exported := Reading.exported_uncommented number hfinite hroot hplain hc.within

/-- Leaving the comments out of a table changes no answer about a node that is no comment. -/
theorem answers_without_comments {source : String} {rows : List Row} {root : Node}
    (hrows : Node.ofRows? source rows = some root) (hplain : HasPlainComments rows)
    (hfinite : Path.HasFinitePaths Path.byScope root) {c : Cursor} (hc : Cursor.Within root c)
    (hkind : c.kind ≠ "comment") :
    ∃ plain, Node.ofRows? source (withoutComments rows) = some plain ∧
      Cursor.Within plain (c.uncommented (numberAmong rows)) ∧
      (c.uncommented (numberAmong rows)).id = numberAmong rows c.id ∧
      AnswersAlike (Cursor.uncommented (numberAmong rows)) c
        (c.uncommented (numberAmong rows)) := by
  have hkept := Cursor.Kept.of_kind hc hkind
  have hleft := hplain.ofRows?_withoutComments source hrows hkept.root
  exact ⟨_, hleft, hkept.uncommented _, Cursor.id_uncommented _ c,
    answersAlike_uncommented _ hfinite (Node.isNumbered_of_ofRows? hrows)
      (Node.isNumbered_of_ofRows? hleft) hkept⟩

def commentedSource : String := "const k = \"b\"; f[/**/ k]; export default m(/**/ () => <a/>);"

/-- The rows of a program with comments before a key and before the argument of a wrapping call. -/
def commentedRows : List Row :=
  let row (parent : Nat) (kind : String) (start stop : Nat) (field : Option String) : Row :=
    ⟨some parent, kind, start, stop, field, true, false⟩
  [⟨none, "program", 0, 60, none, true, false⟩, row 0 "lexical_declaration" 0 14 none,
    ⟨some 1, "const", 0, 5, some "kind", false, false⟩, row 1 "variable_declarator" 6 13 none,
    row 3 "identifier" 6 7 (some "name"), row 3 "string" 10 13 (some "value"),
    row 0 "expression_statement" 15 25 none, row 6 "subscript_expression" 15 24 none,
    row 7 "identifier" 15 16 (some "object"), row 7 "comment" 17 21 none,
    row 7 "identifier" 22 23 (some "index"), row 0 "export_statement" 26 60 none,
    row 11 "call_expression" 41 59 (some "value"), row 12 "identifier" 41 42 (some "function"),
    row 12 "arguments" 42 59 (some "arguments"), row 14 "comment" 43 47 none,
    row 14 "arrow_function" 48 58 none, row 16 "formal_parameters" 48 50 (some "parameters"),
    row 16 "jsx_self_closing_element" 54 58 (some "body"),
    row 18 "identifier" 55 56 (some "name")]

def commented : Node := (Node.ofRows? commentedSource commentedRows).get rfl

def commentedSubscript : Cursor := (Cursor.ofRoot commented).preorder.get ⟨6, by decide⟩

def commentedFunction : Cursor := (Cursor.ofRoot commented).preorder.get ⟨15, by decide⟩

/-- Without its comments the program has the same path and exports the same function, now row 14. -/
theorem answers_without_comments_commented :
    HasPlainComments commentedRows ∧ Path.HasFinitePaths Path.byScope commented ∧
      commentedSubscript.kind = "subscript_expression" ∧
      ∃ plain, Node.ofRows? commentedSource (withoutComments commentedRows) = some plain ∧
        (∃ d, Cursor.Within plain d ∧ d.id = 7 ∧
          Reading.segments (some d) = .ok ["f", "\"b\""]) ∧
        ∃ d e, Cursor.Within plain d ∧ d.id = 0 ∧ e.id = 14 ∧
          Reading.exported d = .ok (some e) := by
  have hrows : Node.ofRows? commentedSource commentedRows = some commented :=
    (Option.some_get _).symm
  have hplain : HasPlainComments commentedRows := by decide
  have hfinite : Path.HasFinitePaths Path.byScope commented :=
    Path.hasFinitePaths_of_size (by decide +kernel)
  have hsubscript : Cursor.Within commented commentedSubscript :=
    (Cursor.mem_preorder.mp (List.get_mem _ _)).contains
  obtain ⟨plain, hleft, hin, hid, halike⟩ :=
    answers_without_comments hrows hplain hfinite hsubscript (by decide)
  obtain ⟨plain', hleft', hin', hid', halike'⟩ :=
    answers_without_comments hrows hplain hfinite (c := Cursor.ofRoot commented) .refl (by decide)
  obtain rfl := Option.some.inj (hleft.symm.trans hleft')
  have hsegments : Reading.segments (some commentedSubscript) = .ok ["f", "\"b\""] := rfl
  have hexported : Reading.exported (Cursor.ofRoot commented) = .ok (some commentedFunction) := rfl
  refine ⟨hplain, hfinite, rfl, plain, hleft,
    ⟨_, hin, hid.trans rfl, halike.segments.trans hsegments⟩,
    _, commentedFunction.uncommented (numberAmong commentedRows), hin', hid'.trans rfl, rfl, ?_⟩
  rw [halike'.exported, hexported]
  rfl

end ComponentAtlas
