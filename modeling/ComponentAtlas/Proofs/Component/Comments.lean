import ComponentAtlas.Proofs.Component.Exposure
import ComponentAtlas.Proofs.Path.Comments

/-!
# Definitions in uncommented trees

What tells a component is found in the uncommented tree where it is found in the
tree: the results of functions, the heritage and the methods of classes, the
callee and the first argument of calls. So the way from an expression to the
definition behind it is the same.
-/

namespace ComponentAtlas

open SourceTree

variable (number : Nat → Nat)

namespace Component

/-! ### Functions -/

mutual

theorem yieldsMarkup_uncommented : ∀ n : Node,
    yieldsMarkup (n.uncommented number) = yieldsMarkup n
  | .mk label children => by
    simp only [Node.uncommented, yieldsMarkup, contentYieldsMarkup_uncommented children,
      fieldYieldsMarkup_uncommented _ children]

theorem contentYieldsMarkup_uncommented : ∀ ns : List Node,
    contentYieldsMarkup (Node.uncommentedAll number ns) = contentYieldsMarkup ns
  | [] => rfl
  | n :: rest => by
    rw [Node.uncommentedAll, contentYieldsMarkup]
    cases h : n.isRemark with
    | true =>
      rw [if_pos rfl, Node.not_isContent_of_isRemark h, if_neg Bool.false_ne_true,
        contentYieldsMarkup_uncommented rest]
    | false =>
      rw [if_neg Bool.false_ne_true, contentYieldsMarkup, Node.isContent_uncommented,
        yieldsMarkup_uncommented n, contentYieldsMarkup_uncommented rest]

theorem fieldYieldsMarkup_uncommented (field : String) : ∀ ns : List Node,
    fieldYieldsMarkup field (Node.uncommentedAll number ns) = fieldYieldsMarkup field ns
  | [] => rfl
  | n :: rest => by
    rw [Node.uncommentedAll, fieldYieldsMarkup]
    cases h : n.isRemark with
    | true =>
      have hfield : n.field = none := ((Node.isRemark_iff n).mp h).2.1
      rw [if_pos rfl, hfield, if_neg nofun, fieldYieldsMarkup_uncommented field rest]
    | false =>
      rw [if_neg Bool.false_ne_true, fieldYieldsMarkup, Node.field_uncommented,
        yieldsMarkup_uncommented n, fieldYieldsMarkup_uncommented field rest]

end

mutual

theorem returnsOf_uncommented : ∀ n : Node,
    returnsOf (n.uncommented number) = (returnsOf n).map (Node.uncommented number)
  | .mk label children => by
    simp only [Node.uncommented, returnsOf, returnsAmong_uncommented children]
    split
    · rfl
    · split <;> rfl

theorem returnsAmong_uncommented : ∀ ns : List Node,
    returnsAmong (Node.uncommentedAll number ns) = (returnsAmong ns).map (Node.uncommented number)
  | [] => rfl
  | n :: rest => by
    rw [Node.uncommentedAll, returnsAmong]
    cases h : n.isRemark with
    | true =>
      rw [if_pos rfl, Node.not_isContent_of_isRemark h, if_neg Bool.false_ne_true,
        returnsAmong_uncommented rest]
    | false =>
      rw [if_neg Bool.false_ne_true, returnsAmong, Node.isContent_uncommented,
        returnsOf_uncommented n, returnsAmong_uncommented rest]
      split
      · exact List.map_append.symm
      · rfl

end

theorem bodyYieldsMarkup_uncommented (body : Node) :
    bodyYieldsMarkup (body.uncommented number) = bodyYieldsMarkup body := by
  obtain ⟨label, children⟩ := body
  have hreturns : returnsAmong ((Node.mk label children).uncommented number).children =
      (returnsAmong children).map (Node.uncommented number) :=
    returnsAmong_uncommented number children
  simp only [bodyYieldsMarkup, Node.kind_uncommented, hreturns, List.any_map, Function.comp_def,
    Node.content?_uncommented, Option.any_map, yieldsMarkup_uncommented]
  rfl

theorem isFunctionComponent_uncommented (c : Cursor) :
    isFunctionComponent (c.uncommented number) = isFunctionComponent c := by
  have hbody : (c.uncommented number).node.child? "body" =
      (c.node.child? "body").map (Node.uncommented number) := Node.child?_uncommented number _ _
  simp only [isFunctionComponent, Cursor.kind_uncommented, hbody, Option.any_map,
    bodyYieldsMarkup_uncommented]

/-! ### Classes -/

theorem superclass_uncommented (c : Cursor) :
    superclass (c.uncommented number) = (superclass c).map (Cursor.uncommented number) := by
  simp only [superclass, Cursor.contents_uncommented, List.find?_map, Function.comp_def,
    Cursor.kind_uncommented]
  refine Cursor.bind_map_uncommented number (fun heritage => ?_) _
  simp only [Cursor.contents_uncommented, List.find?_map, Function.comp_def,
    Cursor.kind_uncommented, Cursor.content?_uncommented]
  cases heritage.contents.find? fun clause => clause.kind == "extends_clause" with
  | none => rfl
  | some clause =>
    simp only [Option.map_some, Cursor.child?_uncommented, Cursor.content?_uncommented]
    cases clause.child? "value" <;> rfl

theorem isRenderMethod_uncommented (member : Cursor) :
    isRenderMethod (member.uncommented number) = isRenderMethod member := by
  simp only [isRenderMethod, Cursor.kind_uncommented, Cursor.child?_uncommented,
    Path.textOf_uncommented]

theorem hasRender_uncommented (c : Cursor) :
    hasRender (c.uncommented number) = hasRender c := by
  simp only [hasRender, Cursor.child?_uncommented, Option.any_map, Cursor.contents_uncommented,
    List.any_map, Function.comp_def, isRenderMethod_uncommented]

/-! ### Calls -/

theorem isCall_uncommented (c : Cursor) : isCall (c.uncommented number) = isCall c := by
  simp only [isCall, Cursor.kind_uncommented]

theorem firstArgument_uncommented (call : Cursor) :
    firstArgument (call.uncommented number) =
      (firstArgument call).map (Cursor.uncommented number) := by
  rw [firstArgument, Cursor.child?_uncommented]
  exact Cursor.bind_map_uncommented number (Cursor.content?_uncommented number) _

theorem argumentValue_uncommented (call : Cursor) :
    (firstArgument (call.uncommented number)).bind Scope.resolve =
      ((firstArgument call).bind Scope.resolve).map (Cursor.uncommented number) := by
  rw [firstArgument_uncommented]
  exact Cursor.bind_map_uncommented number (Scope.resolve_uncommented number) _

theorem specification_uncommented (call : Cursor) :
    specification (call.uncommented number) =
      (specification call).map (Cursor.uncommented number) := by
  rw [specification, argumentValue_uncommented, Option.filter_map, specification]
  simp only [Function.comp_def, Cursor.kind_uncommented]

/-! ### Places that stay -/

section

variable {root : Node} {c d : Cursor}

theorem kept_of_superclass (hc : Cursor.Within root c) (h : superclass c = some d) :
    Cursor.Kept root d := by
  obtain ⟨heritage, hheritage, hd⟩ := Option.bind_eq_some_iff.mp h
  have hin := Cursor.kept_of_mem_contents hc (List.mem_of_find?_eq_some hheritage)
  split at hd
  · rename_i clause hclause
    have hclause := Cursor.kept_of_mem_contents hin.within (List.mem_of_find?_eq_some hclause)
    rcases Option.or_eq_some_iff.mp hd with hvalue | ⟨-, hcontent⟩
    · exact Cursor.kept_of_child? hclause.within hvalue
    · exact Cursor.kept_of_content? hclause.within hcontent
  · exact Cursor.kept_of_content? hin.within hd

theorem kept_of_firstArgument (hc : Cursor.Within root c) (h : firstArgument c = some d) :
    Cursor.Kept root d := by
  obtain ⟨arguments, harguments, hd⟩ := Option.bind_eq_some_iff.mp h
  exact Cursor.kept_of_content? (Cursor.kept_of_child? hc harguments).within hd

theorem kept_of_argumentValue (hc : Cursor.Within root c)
    (h : (firstArgument c).bind Scope.resolve = some d) : Cursor.Kept root d := by
  obtain ⟨argument, hargument, hd⟩ := Option.bind_eq_some_iff.mp h
  exact Scope.kept_of_resolve (kept_of_firstArgument hc hargument) hd

theorem kept_of_specification (hc : Cursor.Within root c) (h : specification c = some d) :
    Cursor.Kept root d :=
  kept_of_argumentValue hc (Option.filter_eq_some_iff.mp h).1

/-! ### Definitions -/

variable (hfinite : Path.HasFinitePaths Path.byScope root)

include hfinite

theorem namesBase_uncommented (hc : Cursor.Kept root c) :
    namesBase (c.uncommented number) = namesBase c := by
  have hsegments : Path.segments (some (c.uncommented number)) = Path.segments (some c) :=
    Path.segments_uncommented number hfinite fun _ h => Option.mem_some_iff.mp h ▸ hc
  rw [namesBase, hsegments, namesBase]

theorem superclass_any_uncommented (hc : Cursor.Within root c) :
    (superclass (c.uncommented number)).any namesBase = (superclass c).any namesBase := by
  rw [superclass_uncommented]
  cases h : superclass c with
  | none => rfl
  | some e => exact namesBase_uncommented number hfinite (kept_of_superclass hc h)

theorem isClassComponent_uncommented (hc : Cursor.Within root c) :
    isClassComponent (c.uncommented number) = isClassComponent c := by
  rw [isClassComponent, Cursor.kind_uncommented, superclass_any_uncommented number hfinite hc,
    hasRender_uncommented, isClassComponent]

theorem isComponent_uncommented (hc : Cursor.Within root c) :
    isComponent (c.uncommented number) = isComponent c := by
  rw [isComponent, isClassComponent_uncommented number hfinite hc, isFunctionComponent_uncommented,
    isComponent]

theorem isFactoryCall_uncommented (hc : Cursor.Within root c) :
    isFactoryCall (c.uncommented number) = isFactoryCall c := by
  rw [isFactoryCall, isCall_uncommented, Cursor.child?_uncommented,
    Path.dotted_uncommented number hfinite fun d hd => Cursor.kept_of_child? hc hd, isFactoryCall]

theorem definitionAt_uncommented (hc : Cursor.Within root c) :
    definitionAt (c.uncommented number) = (definitionAt c).map (Cursor.uncommented number) := by
  rw [definitionAt, isComponent_uncommented number hfinite hc,
    isFactoryCall_uncommented number hfinite hc, specification_uncommented, definitionAt]
  split
  · rfl
  · split <;> rfl

theorem unwrap_uncommented (fuel : Nat) (hc : Cursor.Within root c) :
    unwrap fuel (c.uncommented number) = (unwrap fuel c).map (Cursor.uncommented number) := by
  induction fuel generalizing c with
  | zero => rfl
  | succ fuel ih =>
    rw [unwrap, unwrap, isComponent_uncommented number hfinite hc, isCall_uncommented,
      isFactoryCall_uncommented number hfinite hc, specification_uncommented,
      argumentValue_uncommented]
    split
    · rfl
    split
    · rfl
    split
    · rfl
    · cases h : (firstArgument c).bind Scope.resolve with
      | none => rfl
      | some v => exact ih (kept_of_argumentValue hc h).within

theorem definition_uncommented (hc : Cursor.Within root c) :
    definition (c.uncommented number) = (definition c).map (Cursor.uncommented number) := by
  rw [definition, Scope.resolve_uncommented, Cursor.root_uncommented,
    Node.count_uncommented number _ (by decide), definition]
  cases h : Scope.resolve c with
  | none => rfl
  | some v => exact unwrap_uncommented number hfinite _ (Scope.within_of_resolve hc h)

end

end Component

/-! ### Texts that are looked at -/

namespace Reading

theorem inRenderMethod_uncommented (member : Cursor) :
    inRenderMethod (member.uncommented number) =
      (inRenderMethod member).map (Cursor.uncommented number) := by
  simp only [inRenderMethod, Cursor.kind_uncommented, Cursor.child?_uncommented,
    toList_map_uncommented]
  split <;> rfl

theorem inRender_uncommented (c : Cursor) :
    inRender (c.uncommented number) = (inRender c).map (Cursor.uncommented number) := by
  rw [inRender, Cursor.child?_uncommented, toList_map_uncommented]
  refine flatMap_map_uncommented number (fun body => ?_) _
  rw [Cursor.contents_uncommented,
    upTo_map_uncommented number (Component.isRenderMethod_uncommented number)]
  exact flatMap_map_uncommented number (inRenderMethod_uncommented number) _

theorem inSpecification_uncommented (call : Cursor) :
    inSpecification (call.uncommented number) =
      (inSpecification call).map (Cursor.uncommented number) := by
  rw [inSpecification, Component.firstArgument_uncommented, toList_map_uncommented]
  exact flatMap_map_uncommented number (inResolve_uncommented number) _

section

variable {root : Node} {c : Cursor} (hfinite : Path.HasFinitePaths Path.byScope root)

include hfinite

theorem inClass_uncommented (hc : Cursor.Within root c) :
    inClass (c.uncommented number) = (inClass c).map (Look.uncommented number) := by
  have hsuperclass := inPath_uncommented number (x := Component.superclass c) hfinite
    fun d hd => Component.kept_of_superclass hc hd
  rw [inClass, Component.superclass_any_uncommented number hfinite hc,
    Component.superclass_uncommented, hsuperclass, inRender_uncommented, texts_uncommented,
    Cursor.kind_uncommented, inClass]
  split
  · split
    · rw [List.append_nil, List.append_nil]
    · exact List.map_append.symm
  · rfl

theorem inFactory_uncommented (hc : Cursor.Within root c) :
    inFactory (c.uncommented number) = (inFactory c).map (Look.uncommented number) := by
  rw [inFactory, Component.isCall_uncommented, Cursor.child?_uncommented,
    inPath_uncommented number hfinite fun d hd => Cursor.kept_of_child? hc hd, inFactory]
  split <;> rfl

theorem inDefinitionAt_uncommented (hc : Cursor.Within root c) :
    inDefinitionAt (c.uncommented number) =
      (inDefinitionAt c).map (Look.uncommented number) := by
  rw [inDefinitionAt, inClass_uncommented number hfinite hc,
    Component.isComponent_uncommented number hfinite hc, inFactory_uncommented number hfinite hc,
    Component.isFactoryCall_uncommented number hfinite hc, inSpecification_uncommented,
    texts_uncommented, inDefinitionAt, List.map_append]
  congr 1
  split
  · rfl
  · rw [List.map_append]
    split <;> rfl

theorem inUnwrap_uncommented (fuel : Nat) (hc : Cursor.Within root c) :
    inUnwrap fuel (c.uncommented number) = (inUnwrap fuel c).map (Look.uncommented number) := by
  induction fuel generalizing c with
  | zero => rfl
  | succ fuel ih =>
    have hvalue : ((Component.firstArgument (c.uncommented number)).bind
        Scope.resolve).toList.flatMap (inUnwrap fuel) =
          (((Component.firstArgument c).bind Scope.resolve).toList.flatMap (inUnwrap fuel)).map
            (Look.uncommented number) := by
      rw [Component.argumentValue_uncommented]
      cases h : (Component.firstArgument c).bind Scope.resolve with
      | none => rfl
      | some v =>
        have hv := ih (Component.kept_of_argumentValue hc h).within
        simpa using hv
    rw [inUnwrap, inUnwrap, inClass_uncommented number hfinite hc,
      Component.isComponent_uncommented number hfinite hc, Component.isCall_uncommented,
      inFactory_uncommented number hfinite hc, inSpecification_uncommented, texts_uncommented,
      Component.isFactoryCall_uncommented number hfinite hc, hvalue, List.map_append]
    congr 1
    split
    · rfl
    split
    · rfl
    split
    · simp only [List.map_append, List.append_nil]
    · simp only [List.map_append]

theorem inDefinition_uncommented (hc : Cursor.Within root c) :
    inDefinition (c.uncommented number) = (inDefinition c).map (Look.uncommented number) := by
  rw [inDefinition, inResolve_uncommented, texts_uncommented, Scope.resolve_uncommented,
    Cursor.root_uncommented, Node.count_uncommented number _ (by decide), inDefinition,
    List.map_append]
  congr 1
  cases h : Scope.resolve c with
  | none => rfl
  | some v =>
    have hv := inUnwrap_uncommented number hfinite (c.root.count "call_expression" + 1)
      (Scope.within_of_resolve hc h)
    simpa using hv

/-! ### Answers -/

theorem isClassComponent_uncommented (hc : Cursor.Within root c) :
    isClassComponent (c.uncommented number) = isClassComponent c := by
  rw [isClassComponent, inClass_uncommented number hfinite hc, checked_uncommented,
    Component.isClassComponent_uncommented number hfinite hc, isClassComponent]

theorem isFactoryCall_uncommented (hc : Cursor.Within root c) :
    isFactoryCall (c.uncommented number) = isFactoryCall c := by
  rw [isFactoryCall, inFactory_uncommented number hfinite hc, checked_uncommented,
    Component.isFactoryCall_uncommented number hfinite hc, isFactoryCall]

theorem definition_uncommented (hc : Cursor.Within root c) :
    definition (c.uncommented number) =
      (definition c).map (Option.map (Cursor.uncommented number)) := by
  rw [definition, inDefinition_uncommented number hfinite hc, checked_uncommented,
    Component.definition_uncommented number hfinite hc, checked_map, definition]

end

end Reading

end ComponentAtlas
