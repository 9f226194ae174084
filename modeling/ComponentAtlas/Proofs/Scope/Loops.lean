import ComponentAtlas.Proofs.Scope.Hiding

/-!
# Names of loops

A loop over the members of a value holds its name as a pattern and hides outer
meanings of the name, whatever the form of the pattern. A loop with three parts
holds its name as a declaration among its contents, which counts as any other
declaration: the name has the initial value all along the loop, and a name that
is declared by a pattern means what it means outside.
-/

namespace ComponentAtlas.Scope

open SourceTree

/-! ### What the nearest scopes decide -/

section

variable {name : String} {a : Cursor} {outer : List Cursor}

theorem valueAmong_of_shadows (h : Shadows name a) : valueAmong name (a :: outer) = none := by
  rw [valueAmong, List.findSome?_cons, (binding?_eq_shadowed_iff _ _).mpr h]
  rfl

theorem valueAmong_of_declares {value : Option Cursor} (hs : ¬ Shadows name a)
    (h : Declares name a value) : valueAmong name (a :: outer) = value := by
  rw [valueAmong, List.findSome?_cons, (binding?_eq_declared_iff _ _ _).mpr ⟨hs, h⟩]
  rfl

theorem valueAmong_of_not_introduces (h : ¬ Introduces name a) :
    valueAmong name (a :: outer) = valueAmong name outer := by
  rw [valueAmong, List.findSome?_cons, (binding?_eq_none_iff _ _).mpr h, valueAmong]

/-- A scope that hides nothing gives the values that it declares, or those from outside. -/
theorem valueAmong_eq_iff_of_not_shadows (hs : ¬ Shadows name a) (value : Option Cursor) :
    valueAmong name (a :: outer) = value ↔
      Declares name a value ∨ ¬ Introduces name a ∧ valueAmong name outer = value := by
  cases hb : binding? name a with
  | none =>
    have hpasses := (binding?_eq_none_iff _ _).mp hb
    rw [valueAmong_of_not_introduces hpasses]
    constructor
    · exact fun h => .inr ⟨hpasses, h⟩
    · rintro (hdeclares | ⟨-, h⟩)
      · exact absurd hdeclares.introduces hpasses
      · exact h
  | some binding =>
    cases binding with
    | shadowed => exact absurd ((binding?_eq_shadowed_iff _ _).mp hb) hs
    | declared given =>
      obtain ⟨-, hgiven⟩ := (binding?_eq_declared_iff _ _ _).mp hb
      rw [valueAmong_of_declares hs hgiven]
      constructor
      · rintro rfl
        exact .inl hgiven
      · rintro (hdeclares | ⟨hpasses, -⟩)
        · have hfirst : valueAmong name [a] = given := valueAmong_of_declares hs hgiven
          have hsecond : valueAmong name [a] = value := valueAmong_of_declares hs hdeclares
          exact hfirst.symm.trans hsecond
        · exact absurd hgiven.introduces hpasses

end

/-- A name that no scope below `a` introduces has its value from `a` or the scopes outside. -/
theorem lookup_eq_from {a c : Cursor} (ha : a ∈ c.ancestors)
    (h : ∀ b ∈ c.ancestors, a ∈ b.ancestors → ¬ Introduces c.text b) :
    lookup c = valueAmong c.text (a :: a.ancestors) := by
  obtain ⟨inner, hsplit, hinner⟩ := Cursor.ancestors_split ha
  refine lookup_eq_valueAmong hsplit fun b hb => ?_
  obtain ⟨hb, hbelow⟩ := (hinner b).mp hb
  exact h b hb hbelow

/-- The first statement of a scope gives its names their values. -/
theorem Gives.declares {name : String} {scope statement : Cursor} {value : Option Cursor}
    (hfirst : scope.content? = some statement) (h : Gives name statement value) :
    Declares name scope value := by
  rw [← Cursor.contents_head?] at hfirst
  obtain ⟨rest, hrest⟩ := List.head?_eq_some_iff.mp hfirst
  exact ⟨[], statement, rest, hrest, fun s hs => (nomatch hs), h⟩

/-! ### Loops -/

/--
The header of the loop introduces the name: by the pattern that takes each member of a value, or
by a declaration that comes before all rounds.
-/
inductive LoopIntroduces (name : String) (loop : Cursor) : Prop
  | members {left : Cursor} : loop.kind = "for_in_statement" → loop.child? "left" = some left →
      PatternIntroduces name left → LoopIntroduces name loop
  | rounds {header d pattern : Cursor} : loop.kind = "for_statement" →
      loop.child? "initializer" = some header →
      header.kind = "lexical_declaration" ∨ header.kind = "variable_declaration" →
      d ∈ header.contents → d.kind = "variable_declarator" → d.child? "name" = some pattern →
      PatternIntroduces name pattern → LoopIntroduces name loop

theorem not_shadows_of_rounds {loop : Cursor} (hk : loop.kind = "for_statement") (name : String) :
    ¬ Shadows name loop := by
  rintro (⟨h, _, _⟩ | ⟨h, _, _⟩ | ⟨hf, _, _⟩ | ⟨hf, _, _, _, _⟩)
  · exact absurd (hk.symm.trans h) (by decide)
  · exact absurd (hk.symm.trans h) (by decide)
  · exact absurd (hk ▸ hf) (by decide)
  · exact absurd (hk ▸ hf) (by decide)

/--
A name of a loop that no scope in its body introduces has no value there if the loop is one over
members. In a loop with three parts it has none only if the loop declares it without a value, or
does not declare it plainly and the scopes outside give it none; what the header gives at first,
or else what these scopes give, is its value.
-/
theorem loop_name_unresolved_iff {loop body c : Cursor} (hloop : LoopIntroduces c.text loop)
    (hbody : loop.child? "body" = some body) (hc : body.Contains c)
    (hfree : ∀ a ∈ c.ancestors, loop ∈ a.ancestors → ¬ Introduces c.text a) :
    (lookup c = none ↔
      loop.kind = "for_in_statement" ∨ Declares c.text loop none ∨
        ¬ Introduces c.text loop ∧ valueAmong c.text loop.ancestors = none) ∧
    (loop.kind = "for_statement" →
      (∀ header value, loop.child? "initializer" = some header → loop.content? = some header →
        Gives c.text header value → lookup c = value) ∧
      ((∀ s ∈ loop.contents, ∀ value, ¬ Gives c.text s value) →
        lookup c = valueAmong c.text loop.ancestors)) := by
  have habove := Cursor.mem_ancestors_of_contains (Cursor.isChild_of_child? hbody) hc
  rw [lookup_eq_from habove hfree]
  cases hloop with
  | members hk hleft hpattern =>
    have hshadows : Shadows c.text loop := .loop hk hleft hpattern
    refine ⟨?_, fun hrounds => absurd (hk.symm.trans hrounds) (by decide)⟩
    exact iff_of_true (valueAmong_of_shadows hshadows) (.inl hk)
  | rounds hk hheader _ _ _ _ _ =>
    have hs := not_shadows_of_rounds hk c.text
    refine ⟨?_, fun _ => ⟨fun header value _ hfirst hgives => ?_, fun hnone => ?_⟩⟩
    · rw [valueAmong_eq_iff_of_not_shadows hs]
      constructor
      · exact .inr
      · rintro (hmembers | h)
        · exact absurd (hk.symm.trans hmembers) (by decide)
        · exact h
    · exact valueAmong_of_declares hs (hgives.declares hfirst)
    · refine valueAmong_of_not_introduces ?_
      rintro (hshadows | ⟨s, hmem, value, hgives⟩)
      · exact hs hshadows
      · exact hnone s hmem value hgives

/-- The rows of a program with a loop that starts to count from nought. -/
def roundsRows : List Row :=
  let row (parent : Nat) (kind : String) (start stop : Nat) (field : Option String) : Row :=
    ⟨some parent, kind, start, stop, field, true, false⟩
  [⟨none, "program", 0, 20, none, true, false⟩, row 0 "for_statement" 0 20 none,
    row 1 "lexical_declaration" 5 15 (some "initializer"),
    ⟨some 2, "let", 5, 8, some "kind", false, false⟩, row 2 "variable_declarator" 9 14 none,
    row 4 "identifier" 9 10 (some "name"), row 4 "number" 13 14 (some "value"),
    row 1 "empty_statement" 15 16 (some "condition"),
    row 1 "expression_statement" 18 20 (some "body"), row 8 "identifier" 18 19 none]

def rounds : Node := (Node.ofRows? "for (let k = 0;;) k;" roundsRows).get rfl

def roundsPlace (i : Fin 9) : Cursor := (Cursor.ofRoot rounds).preorder.get (i.cast rfl)

/-- The name of a loop with three parts has its initial value in the body. -/
theorem loop_name_unresolved_iff_rounds :
    LoopIntroduces (roundsPlace 8).text (roundsPlace 1) ∧
      (roundsPlace 1).child? "body" = some (roundsPlace 7) ∧
      (roundsPlace 7).Contains (roundsPlace 8) ∧
      (∀ a ∈ (roundsPlace 8).ancestors, roundsPlace 1 ∈ a.ancestors →
        ¬ Introduces (roundsPlace 8).text a) ∧
      lookup (roundsPlace 8) = some (roundsPlace 5) := by
  have hpattern : PatternIntroduces (roundsPlace 8).text (roundsPlace 4) :=
    ⟨_, _, .whole (by decide), .refl, .inl rfl, rfl⟩
  have hdeclarator : roundsPlace 3 ∈ (roundsPlace 2).contents := List.mem_singleton.mpr rfl
  have hloop : LoopIntroduces (roundsPlace 8).text (roundsPlace 1) :=
    .rounds rfl rfl (.inl rfl) hdeclarator rfl rfl hpattern
  have hin : roundsPlace 8 ∈ (roundsPlace 7).children := List.mem_cons_self ..
  have hc : (roundsPlace 7).Contains (roundsPlace 8) := .single hin
  have hancestors : (roundsPlace 8).ancestors = [roundsPlace 7, roundsPlace 1, roundsPlace 0] := rfl
  have hfree : ∀ a ∈ (roundsPlace 8).ancestors, roundsPlace 1 ∈ a.ancestors →
      ¬ Introduces (roundsPlace 8).text a := by
    intro a ha hbelow
    rw [hancestors] at ha
    rcases List.mem_cons.mp ha with rfl | ha
    · exact (binding?_eq_none_iff _ _).mp rfl
    rcases List.mem_cons.mp ha with rfl | ha
    · exact absurd hbelow (Cursor.not_mem_ancestors_self _)
    · obtain rfl := List.mem_singleton.mp ha
      cases hbelow
  have hgives : Gives (roundsPlace 8).text (roundsPlace 2) (some (roundsPlace 5)) :=
    (statementValue?_eq_some_iff _ _ _).mp rfl
  refine ⟨hloop, rfl, hc, hfree, ?_⟩
  obtain ⟨hinitial, -⟩ := (loop_name_unresolved_iff hloop rfl hc hfree).2 rfl
  exact hinitial _ _ rfl rfl hgives

end ComponentAtlas.Scope
