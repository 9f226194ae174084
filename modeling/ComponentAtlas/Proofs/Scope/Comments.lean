import ComponentAtlas.Proofs.Scope.Orbit
import ComponentAtlas.Proofs.SourceTree.Comments

/-!
# Names in uncommented trees

No search for the meaning of a name stops at a remark or takes one for what it
seeks. In the uncommented tree a name is bound by the same scopes to the same
values, its chase ends at the same value, and the same texts are looked at.
-/

namespace ComponentAtlas

open SourceTree

variable (number : Nat → Nat)

namespace Scope

/-- What a scope of the uncommented tree says when the scope says this. -/
def Binding.uncommented : Binding → Binding
  | .shadowed => .shadowed
  | .declared value => .declared (value.map (Cursor.uncommented number))

theorem value?_uncommented (b : Binding) :
    (b.uncommented number).value? = b.value?.map (Cursor.uncommented number) := by
  cases b <;> rfl

@[simp]
theorem isIdentifier_uncommented (c : Cursor) :
    isIdentifier (c.uncommented number) = isIdentifier c := by
  simp [isIdentifier]

@[simp]
theorem isNamed_uncommented (name : String) (c : Cursor) :
    isNamed name (c.uncommented number) = isNamed name c := by
  simp [isNamed]

/-! ### Scopes -/

@[simp]
theorem boundSide_uncommented (pattern : Cursor) :
    boundSide (pattern.uncommented number) =
      (boundSide pattern).map (Cursor.uncommented number) := by
  by_cases h : pattern.kind = "assignment_pattern" <;> simp [boundSide, h]

theorem patternNames_uncommented (side : Cursor) :
    (side.uncommented number).descendants (some patternNameKinds) =
      (side.descendants (some patternNameKinds)).map (Cursor.uncommented number) :=
  Cursor.descendants_some_uncommented number (by decide) side

@[simp]
theorem patternBinds_uncommented (name : String) (pattern : Cursor) :
    patternBinds name (pattern.uncommented number) = patternBinds name pattern := by
  rw [patternBinds, boundSide_uncommented, patternBinds]
  cases boundSide pattern with
  | none => rfl
  | some side => simp [patternNames_uncommented, List.any_map, Function.comp_def]

@[simp]
theorem parameterName?_uncommented (parameter : Cursor) :
    parameterName? (parameter.uncommented number) =
      (parameterName? parameter).map (Cursor.uncommented number) := by
  rw [parameterName?, Cursor.child?_uncommented, parameterName?]
  cases parameter.child? "pattern" <;> simp

@[simp]
theorem parametersBind_uncommented (name : String) (function : Cursor) :
    parametersBind name (function.uncommented number) = parametersBind name function := by
  simp only [parametersBind, Cursor.child?_uncommented]
  cases function.child? "parameter" with
  | some single => simp
  | none =>
    cases function.child? "parameters" with
    | none => rfl
    | some parameters => simp [Function.comp_def, Option.any_map]

@[simp]
theorem shadows_uncommented (name : String) (scope : Cursor) :
    shadows name (scope.uncommented number) = shadows name scope := by
  simp [shadows, Option.any_map]

@[simp]
theorem declaratorValue?_uncommented (name : String) (declarator : Cursor) :
    declaratorValue? name (declarator.uncommented number) =
      (declaratorValue? name declarator).map (Option.map (Cursor.uncommented number)) := by
  simp only [declaratorValue?, Cursor.kind_uncommented, Cursor.child?_uncommented, Option.any_map,
    isNamed_uncommented]
  split <;> rfl

@[simp]
theorem exportedDeclaration_uncommented (statement : Cursor) :
    exportedDeclaration (statement.uncommented number) =
      (exportedDeclaration statement).uncommented number := by
  simp only [exportedDeclaration, Cursor.kind_uncommented, Cursor.child?_uncommented]
  split
  · cases statement.child? "declaration" <;> rfl
  · rfl

@[simp]
theorem statementValue?_uncommented (name : String) (statement : Cursor) :
    statementValue? name (statement.uncommented number) =
      (statementValue? name statement).map (Option.map (Cursor.uncommented number)) := by
  simp only [statementValue?, exportedDeclaration_uncommented, Cursor.kind_uncommented,
    Cursor.contents_uncommented, Cursor.child?_uncommented, Option.any_map, Cursor.text_uncommented,
    Cursor.findSome?_map_uncommented number (declaratorValue?_uncommented number name)]
  split
  · rfl
  · split <;> rfl

theorem binding?_uncommented (name : String) (scope : Cursor) :
    binding? name (scope.uncommented number) =
      (binding? name scope).map (Binding.uncommented number) := by
  simp only [binding?, shadows_uncommented, Cursor.contents_uncommented,
    Cursor.findSome?_map_uncommented number (statementValue?_uncommented number name)]
  split
  · rfl
  · rw [Option.map_map, Option.map_map]
    rfl

/-! ### Names -/

theorem lookup_uncommented (c : Cursor) :
    lookup (c.uncommented number) = (lookup c).map (Cursor.uncommented number) := by
  rw [lookup, Cursor.text_uncommented, Cursor.ancestors_uncommented,
    Cursor.findSome?_map_uncommented number (binding?_uncommented number c.text), Option.bind_map,
    lookup, Option.map_bind]
  exact congrArg _ (funext (value?_uncommented number))

theorem step_uncommented (c : Cursor) :
    step (c.uncommented number) = (step c).map (Cursor.uncommented number) := by
  rw [step, lookup_uncommented]
  exact Cursor.bind_map_uncommented number (Cursor.bare_uncommented number) _

theorem chase_uncommented (fuel : Nat) (c : Cursor) :
    chase fuel (c.uncommented number) = (chase fuel c).map (Cursor.uncommented number) := by
  induction fuel generalizing c with
  | zero =>
    rw [chase, chase, isIdentifier_uncommented]
    split <;> rfl
  | succ fuel ih =>
    rw [chase, chase, isIdentifier_uncommented, step_uncommented]
    split
    · exact Cursor.bind_map_uncommented number ih _
    · rfl

theorem resolve_uncommented (c : Cursor) :
    resolve (c.uncommented number) = (resolve c).map (Cursor.uncommented number) := by
  rw [resolve, Cursor.bare_uncommented, Cursor.root_uncommented,
    Node.count_uncommented number _ (by decide)]
  exact Cursor.bind_map_uncommented number (chase_uncommented number _) _

theorem kept_of_lookup {root : Node} {c v : Cursor} (hc : Cursor.Within root c)
    (h : lookup c = some v) : Cursor.Kept root v := by
  obtain ⟨a, ha, statement, hs, hgives⟩ := gives_of_lookup h
  refine hgives.preserves (P := Cursor.Kept root) ?_ ?_ ?_
    (Cursor.kept_of_mem_contents (hc.ancestor ha) hs)
  · exact fun _ _ _ hd hp => Cursor.kept_of_child? hp.within hd
  · exact fun _ _ _ hd hp => Cursor.kept_of_mem_contents hp.within hd
  · exact fun _ _ _ hw hp => Cursor.kept_of_child? hp.within hw

theorem kept_of_resolve {root : Node} {c v : Cursor} (hc : Cursor.Kept root c)
    (h : resolve c = some v) : Cursor.Kept root v :=
  resolve_preserves (fun _ _ hv hk => kept_of_lookup hk.within hv) (fun _ _ hv hk => hk.bare hv)
    hc h

end Scope

/-! ### Texts that are looked at -/

namespace Reading

theorem upTo_map_uncommented {p q : Cursor → Bool} (h : ∀ c, q (c.uncommented number) = p c)
    (places : List Cursor) :
    upTo q (places.map (Cursor.uncommented number)) =
      (upTo p places).map (Cursor.uncommented number) := by
  induction places with
  | nil => rfl
  | cons c rest ih =>
    rw [List.map_cons, upTo, upTo, h c, ih]
    split <;> rfl

theorem upTo_isSome_map_uncommented {α β : Type} {p : Cursor → Option α} {q : Cursor → Option β}
    {f : α → β} (h : ∀ c, q (c.uncommented number) = (p c).map f) (places : List Cursor) :
    upTo (fun c => (q c).isSome) (places.map (Cursor.uncommented number)) =
      (upTo (fun c => (p c).isSome) places).map (Cursor.uncommented number) :=
  upTo_map_uncommented number (fun c => by rw [h c, Option.isSome_map]) places

theorem flatMap_map_uncommented {α : Type} {f g : Cursor → List α} {carry : α → α}
    (h : ∀ c, g (c.uncommented number) = (f c).map carry) (places : List Cursor) :
    (places.map (Cursor.uncommented number)).flatMap g = (places.flatMap f).map carry := by
  rw [List.flatMap_map, List.map_flatMap]
  exact congrArg (places.flatMap ·) (funext h)

theorem toList_map_uncommented (place : Option Cursor) :
    (place.map (Cursor.uncommented number)).toList =
      place.toList.map (Cursor.uncommented number) := by
  cases place <;> rfl

def Look.uncommented : Look → Look
  | .text place => .text (place.uncommented number)
  | .endless => .endless

theorem texts_uncommented (places : List Cursor) :
    texts (places.map (Cursor.uncommented number)) =
      (texts places).map (Look.uncommented number) := by
  simp only [texts, List.map_map]
  rfl

theorem fault?_uncommented (look : Look) : (look.uncommented number).fault? = look.fault? := by
  cases look with
  | text place => rw [Look.uncommented, Look.fault?, Cursor.isReadable_uncommented, Look.fault?]
  | endless => rfl

theorem checked_uncommented {α : Type} (looks : List Look) (answer : α) :
    checked (looks.map (Look.uncommented number)) answer = checked looks answer := by
  simp only [checked, List.findSome?_map, Function.comp_def, fault?_uncommented]

theorem inName_uncommented (c : Option Cursor) :
    inName (c.map (Cursor.uncommented number)) = (inName c).map (Cursor.uncommented number) := by
  have hsame : Scope.isIdentifier ∘ Cursor.uncommented number = Scope.isIdentifier :=
    funext (Scope.isIdentifier_uncommented number)
  rw [inName, toList_map_uncommented, List.filter_map, hsame, inName]

theorem inPattern_uncommented (name : String) (pattern : Cursor) :
    inPattern name (pattern.uncommented number) =
      (inPattern name pattern).map (Cursor.uncommented number) := by
  rw [inPattern, Scope.boundSide_uncommented, inPattern]
  cases Scope.boundSide pattern with
  | none => rfl
  | some side =>
    simp only [Option.map_some, Scope.patternNames_uncommented]
    exact upTo_map_uncommented number (fun c => by rw [Cursor.text_uncommented]) _

theorem inParameters_uncommented (name : String) (function : Cursor) :
    inParameters name (function.uncommented number) =
      (inParameters name function).map (Cursor.uncommented number) := by
  rw [inParameters, Cursor.child?_uncommented, Cursor.child?_uncommented, inParameters]
  cases function.child? "parameter" with
  | some single => exact inName_uncommented number (some single)
  | none =>
    cases function.child? "parameters" with
    | none => rfl
    | some parameters =>
      simp only [Option.map_none, Option.map_some, Cursor.contents_uncommented]
      rw [upTo_map_uncommented number (p := fun parameter =>
        (Scope.parameterName? parameter).any (Scope.isNamed name))]
      · refine flatMap_map_uncommented number (fun parameter => ?_) _
        rw [Scope.parameterName?_uncommented, inName_uncommented]
      · intro parameter
        simp [Option.any_map]

theorem inShadows_uncommented (name : String) (scope : Cursor) :
    inShadows name (scope.uncommented number) =
      (inShadows name scope).map (Cursor.uncommented number) := by
  simp only [inShadows, Cursor.kind_uncommented, Cursor.child?_uncommented, toList_map_uncommented,
    flatMap_map_uncommented number (inPattern_uncommented number name), inParameters_uncommented]
  split
  · rfl
  · split
    · rfl
    · split <;> rfl

theorem inDeclarator_uncommented (declarator : Cursor) :
    inDeclarator (declarator.uncommented number) =
      (inDeclarator declarator).map (Cursor.uncommented number) := by
  simp only [inDeclarator, Cursor.kind_uncommented, Cursor.child?_uncommented, inName_uncommented]
  split <;> rfl

theorem inStatement_uncommented (name : String) (statement : Cursor) :
    inStatement name (statement.uncommented number) =
      (inStatement name statement).map (Cursor.uncommented number) := by
  simp only [inStatement, Scope.exportedDeclaration_uncommented, Cursor.kind_uncommented,
    Cursor.contents_uncommented, Cursor.child?_uncommented, toList_map_uncommented,
    upTo_isSome_map_uncommented number (Scope.declaratorValue?_uncommented number name),
    flatMap_map_uncommented number (inDeclarator_uncommented number)]
  split
  · rfl
  · split <;> rfl

theorem inBinding_uncommented (name : String) (scope : Cursor) :
    inBinding name (scope.uncommented number) =
      (inBinding name scope).map (Cursor.uncommented number) := by
  simp only [inBinding, inShadows_uncommented, Scope.shadows_uncommented,
    Cursor.contents_uncommented,
    upTo_isSome_map_uncommented number (Scope.statementValue?_uncommented number name),
    flatMap_map_uncommented number (inStatement_uncommented number name), List.map_append]
  split <;> rfl

theorem inLookup_uncommented (c : Cursor) :
    inLookup (c.uncommented number) = (inLookup c).map (Cursor.uncommented number) := by
  rw [inLookup, Cursor.text_uncommented, Cursor.ancestors_uncommented,
    upTo_isSome_map_uncommented number (Scope.binding?_uncommented number c.text),
    flatMap_map_uncommented number (inBinding_uncommented number c.text), inLookup, List.map_cons]

theorem inChase_uncommented (fuel : Nat) (c : Cursor) :
    inChase fuel (c.uncommented number) = (inChase fuel c).map (Cursor.uncommented number) := by
  induction fuel generalizing c with
  | zero => rfl
  | succ fuel ih =>
    simp only [inChase, Scope.isIdentifier_uncommented, inLookup_uncommented,
      Scope.step_uncommented, toList_map_uncommented, flatMap_map_uncommented number ih]
    split
    · rw [List.map_append]
    · rfl

theorem inResolve_uncommented (c : Cursor) :
    inResolve (c.uncommented number) = (inResolve c).map (Cursor.uncommented number) := by
  rw [inResolve, Cursor.bare_uncommented, Cursor.root_uncommented,
    Node.count_uncommented number _ (by decide), toList_map_uncommented]
  exact flatMap_map_uncommented number (inChase_uncommented number _) _

theorem lookup_uncommented (c : Cursor) :
    lookup (c.uncommented number) =
      (lookup c).map (Option.map (Cursor.uncommented number)) := by
  rw [lookup, inLookup_uncommented, Scope.lookup_uncommented, texts_uncommented,
    checked_uncommented, checked_map, lookup]

theorem resolve_uncommented (c : Cursor) :
    resolve (c.uncommented number) =
      (resolve c).map (Option.map (Cursor.uncommented number)) := by
  rw [resolve, inResolve_uncommented, Scope.resolve_uncommented, texts_uncommented,
    checked_uncommented, checked_map, resolve]

end Reading

end ComponentAtlas
