import ComponentAtlas.Proofs.SourceTree.Places
import ComponentAtlas.Reading.Names

/-!
# What introduces a name

A scope introduces a name in one of three ways: a loop or a catch clause by its
pattern, a function by a parameter, and any scope by one of its statements. The
first two shadow the name without a value that can be known. The meaning of a
name is decided by the nearest scope around it that introduces it, and by none
farther out.
-/

namespace ComponentAtlas.Scope

open SourceTree

/-! ### Shadowing -/

def Names (name : String) (c : Cursor) : Prop := c.kind = "identifier" ∧ c.text = name

/-- A pattern binds as a whole, but only on its left side when it has a default. -/
inductive BindsBy : Cursor → Cursor → Prop
  | whole {pattern : Cursor} : pattern.kind ≠ "assignment_pattern" → BindsBy pattern pattern
  | left {pattern side : Cursor} : pattern.kind = "assignment_pattern" →
      pattern.child? "left" = some side → BindsBy pattern side

/-- Some name in the pattern, at any depth, is the given one. -/
def PatternIntroduces (name : String) (pattern : Cursor) : Prop :=
  ∃ side target, BindsBy pattern side ∧ side.Reaches target ∧
    (target.kind = "identifier" ∨ target.kind = "shorthand_property_identifier_pattern") ∧
    target.text = name

/-- The parameter is the name: plain, with a default, or held as the pattern of a typed one. -/
inductive ParameterIntroduces (name : String) (parameter : Cursor) : Prop
  | plain {side : Cursor} : parameter.child? "pattern" = none → BindsBy parameter side →
      Names name side → ParameterIntroduces name parameter
  | typed {pattern side : Cursor} : parameter.child? "pattern" = some pattern →
      BindsBy pattern side → Names name side → ParameterIntroduces name parameter

/-- The scope introduces the name without a value that can be known. -/
inductive Shadows (name : String) (scope : Cursor) : Prop
  | loop {left : Cursor} : scope.kind = "for_in_statement" → scope.child? "left" = some left →
      PatternIntroduces name left → Shadows name scope
  | caught {parameter : Cursor} : scope.kind = "catch_clause" →
      scope.child? "parameter" = some parameter → PatternIntroduces name parameter →
      Shadows name scope
  | alone {single : Cursor} : scope.kind ∈ functionKinds →
      scope.child? "parameter" = some single → Names name single → Shadows name scope
  | listed {parameters parameter : Cursor} : scope.kind ∈ functionKinds →
      scope.child? "parameter" = none → scope.child? "parameters" = some parameters →
      parameter ∈ parameters.contents → ParameterIntroduces name parameter → Shadows name scope

/-! ### Declarations -/

/-- What a statement declares: an exported declaration counts as the statement itself. -/
inductive Declaration : Cursor → Cursor → Prop
  | own {statement : Cursor} :
      statement.kind ≠ "export_statement" ∨ statement.child? "declaration" = none →
      Declaration statement statement
  | exported {statement declaration : Cursor} : statement.kind = "export_statement" →
      statement.child? "declaration" = some declaration → Declaration statement declaration

/-- A declarator whose name is the given one and no pattern. -/
def Declarator (name : String) (d : Cursor) : Prop :=
  d.kind = "variable_declarator" ∧ ∃ target, d.child? "name" = some target ∧ Names name target

/-- The statement gives the name this value, which is absent where there is no initializer. -/
inductive Gives (name : String) (statement : Cursor) : Option Cursor → Prop
  | declarator {declaration d : Cursor} {before after : List Cursor} :
      Declaration statement declaration →
      declaration.kind = "lexical_declaration" ∨ declaration.kind = "variable_declaration" →
      declaration.contents = before ++ d :: after → (∀ e ∈ before, ¬ Declarator name e) →
      Declarator name d → Gives name statement (d.child? "value")
  | definition {declaration target : Cursor} : Declaration statement declaration →
      declaration.kind ∈ definitionKinds → declaration.child? "name" = some target →
      target.text = name → Gives name statement (some declaration)

/-- The first statement of the scope that gives the name a value gives it this one. -/
def Declares (name : String) (scope : Cursor) (value : Option Cursor) : Prop :=
  ∃ before statement after, scope.contents = before ++ statement :: after ∧
    (∀ s ∈ before, ∀ v, ¬ Gives name s v) ∧ Gives name statement value

def Introduces (name : String) (scope : Cursor) : Prop :=
  Shadows name scope ∨ ∃ statement ∈ scope.contents, ∃ value, Gives name statement value

/-- What the text of a node means there, by the nearest scope that introduces it. -/
inductive Meaning (c : Cursor) : Option Cursor → Prop
  | unbound : (∀ a ∈ c.ancestors, ¬ Introduces c.text a) → Meaning c none
  | shadowed {inner outer : List Cursor} {a : Cursor} : c.ancestors = inner ++ a :: outer →
      (∀ b ∈ inner, ¬ Introduces c.text b) → Shadows c.text a → Meaning c none
  | declared {inner outer : List Cursor} {a : Cursor} {value : Option Cursor} :
      c.ancestors = inner ++ a :: outer → (∀ b ∈ inner, ¬ Introduces c.text b) →
      ¬ Shadows c.text a → Declares c.text a value → Meaning c value

/-! ### The searches find what the definitions say -/

theorem isNamed_iff (name : String) (c : Cursor) : isNamed name c = true ↔ Names name c := by
  simp only [isNamed, isIdentifier, Bool.and_eq_true, beq_iff_eq, Names]

theorem boundSide_eq_some (pattern side : Cursor) :
    boundSide pattern = some side ↔ BindsBy pattern side := by
  unfold boundSide
  split
  · rename_i hk
    rw [beq_iff_eq] at hk
    constructor
    · exact .left hk
    · intro h
      cases h with
      | whole hne => exact absurd hk hne
      | left _ h => exact h
  · rename_i hk
    rw [beq_iff_eq] at hk
    constructor
    · intro h
      cases h
      exact .whole hk
    · intro h
      cases h with
      | whole _ => rfl
      | left hk' _ => exact absurd hk' hk

theorem patternBinds_iff (name : String) (pattern : Cursor) :
    patternBinds name pattern = true ↔ PatternIntroduces name pattern := by
  have hkeeps (c : Cursor) : KindFilter.keeps (some patternNameKinds) c.kind = true ↔
      c.kind = "identifier" ∨ c.kind = "shorthand_property_identifier_pattern" := by
    simp [KindFilter.keeps, patternNameKinds]
  unfold patternBinds PatternIntroduces
  cases hb : boundSide pattern with
  | none =>
    simp only [Bool.false_eq_true, false_iff, not_exists, not_and]
    intro side target hs
    rw [(boundSide_eq_some _ _).mpr hs] at hb
    cases hb
  | some side =>
    simp only [List.any_eq_true, Cursor.mem_descendants, hkeeps, beq_iff_eq]
    constructor
    · rintro ⟨target, ⟨hr, hk⟩, ht⟩
      exact ⟨side, target, (boundSide_eq_some _ _).mp hb, hr, hk, ht⟩
    · rintro ⟨side', target, hs, hr, hk, ht⟩
      obtain rfl := Option.some.inj (hb.symm.trans ((boundSide_eq_some _ _).mpr hs))
      exact ⟨target, ⟨hr, hk⟩, ht⟩

theorem parameterName?_iff (name : String) (parameter : Cursor) :
    (parameterName? parameter).any (isNamed name) = true ↔ ParameterIntroduces name parameter := by
  simp only [parameterName?, Option.any_eq_true, boundSide_eq_some, isNamed_iff]
  cases hp : parameter.child? "pattern" with
  | none =>
    constructor
    · rintro ⟨side, hs, hn⟩
      exact .plain hp hs hn
    · rintro (⟨_, hs, hn⟩ | ⟨h, _, _⟩)
      · exact ⟨_, hs, hn⟩
      · rw [hp] at h; cases h
  | some pattern =>
    constructor
    · rintro ⟨side, hs, hn⟩
      exact .typed hp hs hn
    · rintro (⟨h, _, _⟩ | ⟨h, hs, hn⟩)
      · rw [hp] at h; cases h
      · rw [hp] at h
        cases h
        exact ⟨_, hs, hn⟩

theorem shadows_iff (name : String) (scope : Cursor) :
    shadows name scope = true ↔ Shadows name scope := by
  have hloop : "for_in_statement" ∉ functionKinds := by decide
  have hcatch : "catch_clause" ∉ functionKinds := by decide
  unfold shadows
  split
  · rename_i hk
    rw [beq_iff_eq] at hk
    simp only [Option.any_eq_true, patternBinds_iff]
    constructor
    · rintro ⟨left, hl, hp⟩
      exact .loop hk hl hp
    · rintro (⟨_, hl, hp⟩ | ⟨hk', _, _⟩ | ⟨hf, _, _⟩ | ⟨hf, _, _, _, _⟩)
      · exact ⟨_, hl, hp⟩
      · exact absurd (hk.symm.trans hk') (by decide)
      · exact absurd (hk ▸ hf) hloop
      · exact absurd (hk ▸ hf) hloop
  · rename_i hl
    rw [beq_iff_eq] at hl
    split
    · rename_i hk
      rw [beq_iff_eq] at hk
      simp only [Option.any_eq_true, patternBinds_iff]
      constructor
      · rintro ⟨parameter, hp, hi⟩
        exact .caught hk hp hi
      · rintro (⟨hk', _, _⟩ | ⟨_, hp, hi⟩ | ⟨hf, _, _⟩ | ⟨hf, _, _, _, _⟩)
        · exact absurd hk' hl
        · exact ⟨_, hp, hi⟩
        · exact absurd (hk ▸ hf) hcatch
        · exact absurd (hk ▸ hf) hcatch
    · rename_i hc
      rw [beq_iff_eq] at hc
      simp only [Bool.and_eq_true, List.contains_iff_mem, parametersBind]
      constructor
      · rintro ⟨hf, hp⟩
        split at hp
        · rename_i single hs
          exact .alone hf hs ((isNamed_iff _ _).mp hp)
        · rename_i hs
          split at hp
          · rename_i parameters hps
            obtain ⟨parameter, hm, hi⟩ := List.any_eq_true.mp hp
            exact .listed hf hs hps hm ((parameterName?_iff _ _).mp hi)
          · cases hp
      · rintro (⟨hk, _, _⟩ | ⟨hk, _, _⟩ | ⟨hf, hs, hn⟩ | ⟨hf, hs, hps, hm, hi⟩)
        · exact absurd hk hl
        · exact absurd hk hc
        · exact ⟨hf, by simp only [hs]; exact (isNamed_iff _ _).mpr hn⟩
        · refine ⟨hf, ?_⟩
          simp only [hs, hps, List.any_eq_true]
          exact ⟨_, hm, (parameterName?_iff _ _).mpr hi⟩

theorem exportedDeclaration_eq_iff (statement declaration : Cursor) :
    exportedDeclaration statement = declaration ↔ Declaration statement declaration := by
  unfold exportedDeclaration
  split
  · rename_i hk
    rw [beq_iff_eq] at hk
    cases hd : statement.child? "declaration" with
    | none =>
      constructor
      · rintro rfl
        exact .own (.inr hd)
      · rintro (_ | ⟨_, h⟩)
        · rfl
        · rw [hd] at h; cases h
    | some declared =>
      constructor
      · rintro rfl
        exact .exported hk hd
      · rintro (⟨hne | hn⟩ | ⟨_, h⟩)
        · exact absurd hk hne
        · rw [hd] at hn; cases hn
        · exact Option.some.inj (hd.symm.trans h)
  · rename_i hk
    rw [beq_iff_eq] at hk
    constructor
    · rintro rfl
      exact .own (.inl hk)
    · rintro (_ | ⟨h, _⟩)
      · rfl
      · exact absurd h hk

theorem declaratorValue?_eq_some_iff (name : String) (d : Cursor) (value : Option Cursor) :
    declaratorValue? name d = some value ↔ Declarator name d ∧ d.child? "value" = value := by
  simp only [declaratorValue?, Declarator, Option.ite_none_right_eq_some, Bool.and_eq_true,
    beq_iff_eq, Option.any_eq_true, isNamed_iff, Option.some.injEq]

theorem declaratorValue?_eq_none_iff (name : String) (d : Cursor) :
    declaratorValue? name d = none ↔ ¬ Declarator name d := by
  simp only [Option.eq_none_iff_forall_ne_some, ne_eq, declaratorValue?_eq_some_iff, not_and]
  exact ⟨fun h hd => h _ hd rfl, fun h _ hd => absurd hd h⟩

theorem statementValue?_eq_some_iff (name : String) (statement : Cursor) (value : Option Cursor) :
    statementValue? name statement = some value ↔ Gives name statement value := by
  have hdisjoint : ∀ kind ∈ definitionKinds, kind ∉ variableKinds := by decide
  have hmem (kind : String) : kind ∈ variableKinds ↔
      kind = "lexical_declaration" ∨ kind = "variable_declaration" := by
    simp [variableKinds]
  obtain ⟨declaration, hd⟩ : ∃ declaration, Declaration statement declaration :=
    ⟨_, (exportedDeclaration_eq_iff _ _).mp rfl⟩
  have he := (exportedDeclaration_eq_iff _ _).mpr hd
  -- What the statement declares is determined, so that all cases speak of one declaration.
  have hunique : ∀ other, Declaration statement other → other = declaration := fun other h =>
    ((exportedDeclaration_eq_iff _ _).mpr h).symm.trans he
  simp only [statementValue?, he, List.contains_iff_mem]
  split
  · rename_i hk
    rw [List.findSome?_eq_some_iff]
    constructor
    · rintro ⟨before, d, after, hsplit, hv, hbefore⟩
      obtain ⟨hdeclares, rfl⟩ := (declaratorValue?_eq_some_iff _ _ _).mp hv
      exact .declarator hd ((hmem _).mp hk) hsplit
        (fun e hm => (declaratorValue?_eq_none_iff _ _).mp (hbefore e hm)) hdeclares
    · intro h
      cases h with
      | declarator hd' _ hsplit hbefore hdeclares =>
        obtain rfl := hunique _ hd'
        exact ⟨_, _, _, hsplit, (declaratorValue?_eq_some_iff _ _ _).mpr ⟨hdeclares, rfl⟩,
          fun e hm => (declaratorValue?_eq_none_iff _ _).mpr (hbefore e hm)⟩
      | definition hd' hdef _ _ =>
        obtain rfl := hunique _ hd'
        exact absurd hk (hdisjoint _ hdef)
  · rename_i hk
    simp only [Option.ite_none_right_eq_some, Bool.and_eq_true, List.contains_iff_mem,
      Option.any_eq_true, beq_iff_eq, Option.some.injEq]
    constructor
    · rintro ⟨⟨hdef, target, ht, htext⟩, rfl⟩
      exact .definition hd hdef ht htext
    · intro h
      cases h with
      | declarator hd' hvar _ _ _ =>
        obtain rfl := hunique _ hd'
        exact absurd ((hmem _).mpr hvar) hk
      | definition hd' hdef ht htext =>
        obtain rfl := hunique _ hd'
        exact ⟨⟨hdef, _, ht, htext⟩, rfl⟩

theorem statementValue?_eq_none_iff (name : String) (statement : Cursor) :
    statementValue? name statement = none ↔ ∀ value, ¬ Gives name statement value := by
  rw [Option.eq_none_iff_forall_ne_some]
  simp only [ne_eq, statementValue?_eq_some_iff]

theorem declares_iff (name : String) (scope : Cursor) (value : Option Cursor) :
    scope.contents.findSome? (statementValue? name) = some value ↔ Declares name scope value := by
  rw [List.findSome?_eq_some_iff]
  simp only [statementValue?_eq_some_iff, statementValue?_eq_none_iff, Declares]
  constructor
  · rintro ⟨before, statement, after, hsplit, hgives, hbefore⟩
    exact ⟨before, statement, after, hsplit, hbefore, hgives⟩
  · rintro ⟨before, statement, after, hsplit, hbefore, hgives⟩
    exact ⟨before, statement, after, hsplit, hgives, hbefore⟩

/-! ### The nearest scope decides -/

theorem binding?_eq_shadowed_iff (name : String) (scope : Cursor) :
    binding? name scope = some .shadowed ↔ Shadows name scope := by
  rw [← shadows_iff, binding?]
  cases shadows name scope with
  | true => simp only [if_true]
  | false => simp only [Bool.false_eq_true, if_false, Option.map_eq_some_iff, reduceCtorEq,
      and_false, exists_false]

theorem binding?_eq_declared_iff (name : String) (scope : Cursor) (value : Option Cursor) :
    binding? name scope = some (.declared value) ↔
      ¬ Shadows name scope ∧ Declares name scope value := by
  rw [← shadows_iff, ← declares_iff, binding?]
  cases shadows name scope with
  | true => simp only [if_true, Option.some.injEq, reduceCtorEq, not_true, false_and]
  | false => simp only [Bool.false_eq_true, if_false, Option.map_eq_some_iff,
      Binding.declared.injEq, exists_eq_right, not_false_eq_true, true_and]

theorem binding?_eq_none_iff (name : String) (scope : Cursor) :
    binding? name scope = none ↔ ¬ Introduces name scope := by
  rw [Introduces, ← shadows_iff, binding?]
  split
  · simp [*]
  · simp [*, List.findSome?_eq_none_iff, statementValue?_eq_none_iff]

theorem lookup_eq_iff_meaning (c : Cursor) (value : Option Cursor) :
    lookup c = value ↔ Meaning c value := by
  have hnone (bs : List Cursor) : (∀ b ∈ bs, binding? c.text b = none) ↔
      ∀ b ∈ bs, ¬ Introduces c.text b := by
    simp only [binding?_eq_none_iff]
  constructor
  · rintro rfl
    rw [lookup]
    cases hb : c.ancestors.findSome? (binding? c.text) with
    | none => exact .unbound ((hnone _).mp (List.findSome?_eq_none_iff.mp hb))
    | some binding =>
      obtain ⟨inner, a, outer, hsplit, ha, hinner⟩ := List.findSome?_eq_some_iff.mp hb
      rw [hnone] at hinner
      cases binding with
      | shadowed => exact .shadowed hsplit hinner ((binding?_eq_shadowed_iff _ _).mp ha)
      | declared value =>
        obtain ⟨hs, hd⟩ := (binding?_eq_declared_iff _ _ _).mp ha
        exact .declared hsplit hinner hs hd
  · intro h
    rw [lookup]
    cases h with
    | unbound h =>
      rw [List.findSome?_eq_none_iff.mpr ((hnone _).mpr h)]
      rfl
    | shadowed hsplit hinner hs =>
      rw [List.findSome?_eq_some_iff.mpr ⟨_, _, _, hsplit, (binding?_eq_shadowed_iff _ _).mpr hs,
        (hnone _).mpr hinner⟩]
      rfl
    | declared hsplit hinner hs hd =>
      rw [List.findSome?_eq_some_iff.mpr ⟨_, _, _, hsplit,
        (binding?_eq_declared_iff _ _ _).mpr ⟨hs, hd⟩, (hnone _).mpr hinner⟩]
      rfl

/-- What passes along exports, declarations and initializers passes from statements to values. -/
theorem Gives.preserves {P : Cursor → Prop} {name : String} {statement v : Cursor}
    (hexported : ∀ s d, s.kind = "export_statement" → s.child? "declaration" = some d → P s → P d)
    (hdeclared : ∀ s d, s.kind ∈ variableKinds → d ∈ s.contents → P s → P d)
    (hinitial : ∀ d w, d.kind = "variable_declarator" → d.child? "value" = some w → P d → P w)
    (hs : P statement) (h : Gives name statement (some v)) : P v := by
  have hdeclaration {d : Cursor} (hd : Declaration statement d) : P d := by
    cases hd with
    | own _ => exact hs
    | exported hk hd => exact hexported _ _ hk hd hs
  generalize hgiven : some v = given at h
  cases h with
  | @declarator declaration d _ _ hd hk hsplit _ hdeclarator =>
    have hkind : declaration.kind ∈ variableKinds := by
      rcases hk with hk | hk <;> rw [hk] <;> decide
    have hmem : d ∈ declaration.contents := by simp [hsplit]
    have hp := hdeclared _ _ hkind hmem (hdeclaration hd)
    exact hinitial d v hdeclarator.1 hgiven.symm hp
  | definition hd _ _ _ =>
    obtain rfl := Option.some.inj hgiven
    exact hdeclaration hd

theorem gives_of_lookup {c v : Cursor} (h : lookup c = some v) :
    ∃ a ∈ c.ancestors, ∃ statement ∈ a.contents, Gives c.text statement (some v) := by
  cases (lookup_eq_iff_meaning _ _).mp h with
  | @declared _ _ a _ hsplit _ _ hd =>
    obtain ⟨before, statement, after, hs, -, hgives⟩ := hd
    exact ⟨a, by simp [hsplit], statement, by simp [hs], hgives⟩

/-- What passes from names to what they are bound to, and to contents of parentheses, is kept. -/
theorem chase_preserves {P : Cursor → Prop} (hlookup : ∀ c v, lookup c = some v → P c → P v)
    (hbare : ∀ c v, c.bare = some v → P c → P v) {fuel : Nat} {c v : Cursor} (hc : P c)
    (h : chase fuel c = some v) : P v := by
  induction fuel generalizing c with
  | zero =>
    simp only [chase, Option.ite_none_left_eq_some, Option.some.injEq] at h
    exact h.2 ▸ hc
  | succ fuel ih =>
    rw [chase] at h
    split at h
    · obtain ⟨next, hstep, hv⟩ := Option.bind_eq_some_iff.mp h
      obtain ⟨value, hvalue, hnext⟩ := Option.bind_eq_some_iff.mp hstep
      exact ih (hbare _ _ hnext (hlookup _ _ hvalue hc)) hv
    · obtain rfl := Option.some.inj h
      exact hc

theorem resolve_preserves {P : Cursor → Prop} (hlookup : ∀ c v, lookup c = some v → P c → P v)
    (hbare : ∀ c v, c.bare = some v → P c → P v) {c v : Cursor} (hc : P c)
    (h : resolve c = some v) : P v := by
  obtain ⟨start, hstart, hv⟩ := Option.bind_eq_some_iff.mp h
  exact chase_preserves hlookup hbare (hbare _ _ hstart hc) hv

/-- The nearest scope that introduces a name decides, also for an answer that needs all texts. -/
theorem lookup_decided_by_nearest_scope (c : Cursor) (value : Option Cursor) :
    (lookup c = value ↔ Meaning c value) ∧
      (Reading.lookup c = .ok value ↔
        (∀ place ∈ Reading.inLookup c, place.isReadable = true) ∧ Meaning c value) := by
  have hlookup := lookup_eq_iff_meaning c value
  refine ⟨hlookup, ?_⟩
  rw [Reading.lookup, Reading.checked_texts_eq_ok, hlookup]

end ComponentAtlas.Scope
