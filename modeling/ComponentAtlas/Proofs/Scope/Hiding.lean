import ComponentAtlas.Proofs.Scope.Introduction
import ComponentAtlas.SourceTree.Table

/-!
# Names bound by patterns

A pattern may bind a name at any depth. A parameter hides outer meanings of the
name only when it is the plain name, with or without a default; a declaration
hides them only when its declarator is the plain name. The meaning of any other
name that a pattern binds is sought farther out, as if the pattern were not there.
-/

namespace ComponentAtlas.Scope

open SourceTree

/-! ### Where a value comes from -/

/-- The value that the nearest of several scopes gives to a name. -/
def valueAmong (name : String) (scopes : List Cursor) : Option Cursor :=
  (scopes.findSome? (binding? name)).bind Binding.value?

/-- The scope `a` declares the value for the name at `c`, and no nearer scope introduces it. -/
def ComesFrom (c a v : Cursor) : Prop :=
  ∃ inner outer, c.ancestors = inner ++ a :: outer ∧ (∀ b ∈ inner, ¬ Introduces c.text b) ∧
    Declares c.text a (some v)

/-- If the name at `c` has a value, a scope below `a` declares it. -/
def StaysBelow (a c : Cursor) : Prop :=
  ∀ v, lookup c = some v → ∃ b, ComesFrom c b v ∧ a ∈ b.ancestors

/-- If the name at `c` has a value, `a` or a scope below `a` declares it. -/
def StaysWithin (a c : Cursor) : Prop :=
  ∀ v, lookup c = some v → ∃ b, ComesFrom c b v ∧ (b = a ∨ a ∈ b.ancestors)

theorem exists_comesFrom {c v : Cursor} (h : lookup c = some v) : ∃ a, ComesFrom c a v := by
  cases (lookup_eq_iff_meaning _ _).mp h with
  | @declared inner outer a _ hsplit hinner _ hdeclares =>
    exact ⟨a, inner, outer, hsplit, hinner, hdeclares⟩

theorem Declares.introduces {name : String} {scope : Cursor} {value : Option Cursor}
    (h : Declares name scope value) : Introduces name scope := by
  obtain ⟨before, statement, after, hsplit, -, hgives⟩ := h
  exact .inr ⟨statement, by simp [hsplit], value, hgives⟩

section

variable {c : Cursor} {near far : List Cursor} (hsplit : c.ancestors = near ++ far)

include hsplit

theorem lookup_eq_valueAmong (hnear : ∀ b ∈ near, ¬ Introduces c.text b) :
    lookup c = valueAmong c.text far := by
  have hnone : near.findSome? (binding? c.text) = none :=
    List.findSome?_eq_none_iff.mpr fun b hb => (binding?_eq_none_iff _ _).mpr (hnear b hb)
  rw [lookup, hsplit, List.findSome?_append, hnone, Option.none_or, valueAmong]

theorem ComesFrom.mem_near {a v : Cursor} (h : ComesFrom c a v)
    (hnear : ∃ b ∈ near, Introduces c.text b) : a ∈ near := by
  obtain ⟨inner, outer, hinner, hnone, -⟩ := h
  obtain ⟨b, hb, hintroduces⟩ := hnear
  rcases List.append_eq_append_iff.mp (hinner.symm.trans hsplit) with
    ⟨rest, hnear, hrest⟩ | ⟨rest, hinner, -⟩
  · cases rest with
    | nil =>
      rw [hnear, List.append_nil] at hb
      exact absurd hintroduces (hnone b hb)
    | cons d rest =>
      obtain ⟨rfl, -⟩ := List.cons.inj hrest
      rw [hnear]
      exact List.mem_append_right _ (List.mem_cons_self ..)
  · have hb' : b ∈ inner := hinner ▸ List.mem_append_left _ hb
    exact absurd hintroduces (hnone b hb')

/-- Values come from near scopes when one of these introduces the name or the far ones give none. -/
theorem comesFrom_iff {P : Cursor → Prop} (hP : ∀ b, b ∈ near ↔ b ∈ c.ancestors ∧ P b) :
    (∀ v, lookup c = some v → ∃ b, ComesFrom c b v ∧ P b) ↔
      (∃ b ∈ c.ancestors, P b ∧ Introduces c.text b) ∨ valueAmong c.text far = none := by
  by_cases hnear : ∃ b ∈ near, Introduces c.text b
  · have hsome : ∃ b ∈ c.ancestors, P b ∧ Introduces c.text b := by
      obtain ⟨b, hb, hi⟩ := hnear
      obtain ⟨hb, hPb⟩ := (hP b).mp hb
      exact ⟨b, hb, hPb, hi⟩
    refine iff_of_true (fun v hv => ?_) (.inl hsome)
    obtain ⟨a, ha⟩ := exists_comesFrom hv
    exact ⟨a, ha, ((hP a).mp (ha.mem_near hsplit hnear)).2⟩
  · have hnone : ∀ b ∈ near, ¬ Introduces c.text b := fun b hb hi => hnear ⟨b, hb, hi⟩
    rw [lookup_eq_valueAmong hsplit hnone]
    constructor
    · intro h
      refine .inr (Option.eq_none_iff_forall_ne_some.mpr fun v hv => ?_)
      obtain ⟨a, ⟨inner, outer, ha, -, hdeclares⟩, hPa⟩ := h v hv
      exact hnone a ((hP a).mpr ⟨by simp [ha], hPa⟩) hdeclares.introduces
    · rintro (⟨b, hb, hPb, hi⟩ | h) v hv
      · exact absurd hi (hnone b ((hP b).mpr ⟨hb, hPb⟩))
      · rw [h] at hv
        cases hv

end

theorem staysBelow_iff {a c : Cursor} (ha : a ∈ c.ancestors) :
    StaysBelow a c ↔ (∃ b ∈ c.ancestors, a ∈ b.ancestors ∧ Introduces c.text b) ∨
      valueAmong c.text (a :: a.ancestors) = none := by
  obtain ⟨inner, hsplit, hinner⟩ := Cursor.ancestors_split ha
  exact comesFrom_iff hsplit hinner

theorem ancestors_split_within {a c : Cursor} (ha : a ∈ c.ancestors) :
    ∃ near, c.ancestors = near ++ a.ancestors ∧
      ∀ b, b ∈ near ↔ b ∈ c.ancestors ∧ (b = a ∨ a ∈ b.ancestors) := by
  obtain ⟨inner, hsplit, hinner⟩ := Cursor.ancestors_split ha
  refine ⟨inner ++ [a], by simp [hsplit], fun b => ?_⟩
  rw [List.mem_append, List.mem_singleton, hinner]
  constructor
  · rintro (⟨hb, hab⟩ | rfl)
    · exact ⟨hb, .inr hab⟩
    · exact ⟨ha, .inl rfl⟩
  · rintro ⟨hb, rfl | hab⟩
    · exact .inr rfl
    · exact .inl ⟨hb, hab⟩

theorem staysWithin_iff {a c : Cursor} (ha : a ∈ c.ancestors) :
    StaysWithin a c ↔ (∃ b ∈ c.ancestors, (b = a ∨ a ∈ b.ancestors) ∧ Introduces c.text b) ∨
      valueAmong c.text a.ancestors = none := by
  obtain ⟨near, hsplit, hnear⟩ := ancestors_split_within ha
  exact comesFrom_iff hsplit hnear

/-- A name that no scope up to `a` introduces has the value that the scopes outside give it. -/
theorem lookup_eq_outside {a c : Cursor} (ha : a ∈ c.ancestors)
    (h : ∀ b ∈ c.ancestors, b = a ∨ a ∈ b.ancestors → ¬ Introduces c.text b) :
    lookup c = valueAmong c.text a.ancestors := by
  obtain ⟨near, hsplit, hnear⟩ := ancestors_split_within ha
  refine lookup_eq_valueAmong hsplit fun b hb => ?_
  obtain ⟨hb, hin⟩ := (hnear b).mp hb
  exact h b hb hin

/-! ### Patterns -/

/-- The pattern binds the name: it is the name, or one of the patterns that it holds binds it. -/
inductive Binds (name : String) : Cursor → Prop
  | word {pattern : Cursor} : pattern.kind ∈ patternNameKinds → pattern.text = name →
      Binds name pattern
  | part {pattern inner : Cursor} :
      pattern.kind ∈ ["object_pattern", "array_pattern", "rest_pattern"] →
      inner ∈ pattern.contents → Binds name inner → Binds name pattern
  | value {pattern inner : Cursor} : pattern.kind = "pair_pattern" →
      pattern.child? "value" = some inner → Binds name inner → Binds name pattern
  | left {pattern inner : Cursor} :
      pattern.kind ∈ ["assignment_pattern", "object_assignment_pattern"] →
      pattern.child? "left" = some inner → Binds name inner → Binds name pattern

theorem Binds.names {name : String} {pattern : Cursor} (h : Binds name pattern)
    (hk : pattern.kind = "identifier") : Names name pattern := by
  cases h with
  | word _ ht => exact ⟨hk, ht⟩
  | part hkind _ _ => exact absurd (hk ▸ hkind) (by decide)
  | value hkind _ _ => exact absurd (hk ▸ hkind) (by decide)
  | left hkind _ _ => exact absurd (hk ▸ hkind) (by decide)

theorem Names.binds {name : String} {pattern : Cursor} (h : Names name pattern) :
    Binds name pattern :=
  .word (by rw [h.1]; decide) h.2

/-! ### Parameters -/

/-- The function takes a parameter by this pattern; the default of a parameter is left out. -/
inductive Takes (function : Cursor) : Cursor → Prop
  | alone {single : Cursor} : function.child? "parameter" = some single → Takes function single
  | listed {parameters parameter pattern : Cursor} : function.child? "parameter" = none →
      function.child? "parameters" = some parameters → parameter ∈ parameters.contents →
      BindsBy ((parameter.child? "pattern").getD parameter) pattern → Takes function pattern

theorem shadows_function_iff {function : Cursor} (hf : function.kind ∈ functionKinds)
    (name : String) :
    Shadows name function ↔ ∃ pattern, Takes function pattern ∧ Names name pattern := by
  constructor
  · rintro (⟨hk, _, _⟩ | ⟨hk, _, _⟩ | ⟨_, hs, hn⟩ | ⟨_, hs, hps, hm, hi⟩)
    · exact absurd (hk ▸ hf) (by decide)
    · exact absurd (hk ▸ hf) (by decide)
    · exact ⟨_, .alone hs, hn⟩
    · rcases hi with ⟨hp, hb, hn⟩ | ⟨hp, hb, hn⟩
      · exact ⟨_, .listed hs hps hm (by rwa [hp]), hn⟩
      · exact ⟨_, .listed hs hps hm (by rwa [hp]), hn⟩
  · rintro ⟨pattern, hs | ⟨hs, hps, hm, hb⟩, hn⟩
    · exact .alone hf hs hn
    · refine .listed hf hs hps hm ?_
      rename_i parameters parameter
      cases hp : parameter.child? "pattern" with
      | none => exact .plain hp (by rwa [hp] at hb) hn
      | some inner => exact .typed hp (by rwa [hp] at hb) hn

/--
A plain parameter hides outer meanings in the body. A name that is bound by other patterns only
means what it means outside, unless a scope in the body introduces it.
-/
theorem parameter_hides_if_plain {function body pattern c : Cursor}
    (hf : function.kind ∈ functionKinds) (hbody : function.child? "body" = some body)
    (hc : body.Contains c) (htakes : Takes function pattern) (hbinds : Binds c.text pattern) :
    (pattern.kind = "identifier" → StaysBelow function c) ∧
      ((∀ p, Takes function p → Binds c.text p → p.kind ≠ "identifier") →
        (∀ s ∈ function.contents, ∀ v, ¬ Gives c.text s v) →
        (StaysBelow function c ↔
          (∃ a ∈ c.ancestors, function ∈ a.ancestors ∧ Introduces c.text a) ∨
            valueAmong c.text function.ancestors = none) ∧
        ((∀ a ∈ c.ancestors, function ∈ a.ancestors → ¬ Introduces c.text a) →
          lookup c = valueAmong c.text function.ancestors)) := by
  have habove := Cursor.mem_ancestors_of_contains (Cursor.isChild_of_child? hbody) hc
  refine ⟨fun hplain => ?_, fun hother hdirect => ?_⟩
  · have hshadows : Shadows c.text function :=
      (shadows_function_iff hf _).mpr ⟨pattern, htakes, hbinds.names hplain⟩
    refine (staysBelow_iff habove).mpr (.inr ?_)
    rw [valueAmong, List.findSome?_cons, (binding?_eq_shadowed_iff _ _).mpr hshadows]
    rfl
  · have hpasses : ¬ Introduces c.text function := by
      rintro (hshadows | ⟨s, hs, v, hgives⟩)
      · obtain ⟨p, hp, hn⟩ := (shadows_function_iff hf _).mp hshadows
        exact hother p hp hn.binds hn.1
      · exact hdirect s hs v hgives
    refine ⟨?_, fun hbelow => lookup_eq_outside habove fun a ha hin => ?_⟩
    · rw [staysBelow_iff habove, valueAmong, List.findSome?_cons,
        (binding?_eq_none_iff _ _).mpr hpasses, valueAmong]
    · rcases hin with rfl | hin
      · exact hpasses
      · exact hbelow a ha hin

/-- The rows of a program with a function that takes its arguments under the name of a constant. -/
def variadicRows : List Row :=
  let row (parent : Nat) (kind : String) (start stop : Nat) (field : Option String) : Row :=
    ⟨some parent, kind, start, stop, field, true, false⟩
  [⟨none, "program", 0, 25, none, true, false⟩, row 0 "lexical_declaration" 0 12 none,
    ⟨some 1, "const", 0, 5, some "kind", false, false⟩, row 1 "variable_declarator" 6 11 none,
    row 3 "identifier" 6 7 (some "name"), row 3 "number" 10 11 (some "value"),
    row 0 "expression_statement" 13 25 none, row 6 "arrow_function" 13 24 none,
    row 7 "formal_parameters" 13 19 (some "parameters"), row 8 "rest_pattern" 14 18 none,
    row 9 "identifier" 17 18 none, row 7 "identifier" 23 24 (some "body")]

def variadic : Node := (Node.ofRows? "const k = 1;\n(...k) => k;" variadicRows).get rfl

def variadicPlace (i : Fin 11) : Cursor := (Cursor.ofRoot variadic).preorder.get (i.cast rfl)

/-- The arguments that a function takes as a list do not hide a constant of the same name. -/
theorem parameter_hides_if_plain_variadic :
    (variadicPlace 6).kind ∈ functionKinds ∧
      (variadicPlace 6).child? "body" = some (variadicPlace 10) ∧
      Takes (variadicPlace 6) (variadicPlace 8) ∧ Binds (variadicPlace 10).text (variadicPlace 8) ∧
      lookup (variadicPlace 10) = some (variadicPlace 4) ∧
      ¬ StaysBelow (variadicPlace 6) (variadicPlace 10) := by
  have hkind : (variadicPlace 6).kind ∈ functionKinds := by decide
  have hbody : (variadicPlace 6).child? "body" = some (variadicPlace 10) := rfl
  have htakes : Takes (variadicPlace 6) (variadicPlace 8) := by
    refine .listed rfl rfl (List.mem_singleton.mpr rfl) (.whole ?_)
    decide
  have hbinds : Binds (variadicPlace 10).text (variadicPlace 8) :=
    .part (by decide) (List.mem_singleton.mpr rfl) (.word (by decide) rfl)
  refine ⟨hkind, hbody, htakes, hbinds, rfl, ?_⟩
  have hother : ∀ p, Takes (variadicPlace 6) p → Binds (variadicPlace 10).text p →
      p.kind ≠ "identifier" := by
    rintro p (h | ⟨-, hparameters, hparameter, hside⟩) -
    · cases h
    · cases hparameters
      obtain rfl := List.mem_singleton.mp hparameter
      cases hside with
      | whole _ => decide
      | left hk _ => exact absurd hk (by decide)
  have hdirect : ∀ s ∈ (variadicPlace 6).contents,
      (statementValue? (variadicPlace 10).text s).isNone := by
    decide
  obtain ⟨hiff, -⟩ := (parameter_hides_if_plain hkind hbody .refl htakes hbinds).2 hother
    fun s hs => (statementValue?_eq_none_iff _ _).mp (Option.isNone_iff_eq_none.mp (hdirect s hs))
  rw [hiff]
  rintro (⟨a, ha, hbelow, -⟩ | houter)
  · -- The name is the body itself, and so no scope lies between it and the function.
    have ha : a ∈ variadicPlace 6 :: (variadicPlace 6).ancestors := ha
    rcases List.mem_cons.mp ha with rfl | ha
    · exact Cursor.not_mem_ancestors_self _ hbelow
    · exact Cursor.not_mem_ancestors_self _ (Cursor.ancestors_subset ha hbelow)
  · cases houter

/-! ### Declarations -/

/-- The declarator stands in a direct statement of the scope and binds the name by a pattern. -/
inductive Destructures (name : String) (scope : Cursor) : Cursor → Prop
  | declarator {statement declaration d pattern : Cursor} : statement ∈ scope.contents →
      Declaration statement declaration →
      declaration.kind = "lexical_declaration" ∨ declaration.kind = "variable_declaration" →
      d ∈ declaration.contents → d.kind = "variable_declarator" →
      d.child? "name" = some pattern → pattern.kind ∈ ["object_pattern", "array_pattern"] →
      Binds name pattern → Destructures name scope d

/--
A destructuring declarator gives a name no value and does not hide its outer meanings: a value
comes from the scope or one below it when one of these introduces the name in another way, or
else when the scopes outside give it none, and otherwise it is the value that these give.
-/
theorem destructured_staysWithin_iff {scope d c : Cursor} (hd : Destructures c.text scope d)
    (hc : scope ∈ c.ancestors) :
    declaratorValue? c.text d = none ∧
      (StaysWithin scope c ↔
        (∃ a ∈ c.ancestors, (a = scope ∨ scope ∈ a.ancestors) ∧ Introduces c.text a) ∨
          valueAmong c.text scope.ancestors = none) ∧
      ((∀ a ∈ c.ancestors, a = scope ∨ scope ∈ a.ancestors → ¬ Introduces c.text a) →
        lookup c = valueAmong c.text scope.ancestors) := by
  refine ⟨?_, staysWithin_iff hc, lookup_eq_outside hc⟩
  cases hd with
  | declarator _ _ _ _ _ hname hpattern _ =>
    rw [declaratorValue?_eq_none_iff]
    rintro ⟨-, target, htarget, hnames⟩
    obtain rfl := Option.some.inj (hname.symm.trans htarget)
    exact absurd (hnames.1 ▸ hpattern) (by decide)

/-- The rows of a program with a block that takes a constant of the program apart under its name. -/
def blockRows : List Row :=
  let row (parent : Nat) (kind : String) (start stop : Nat) (field : Option String) : Row :=
    ⟨some parent, kind, start, stop, field, true, false⟩
  [⟨none, "program", 0, 34, none, true, false⟩, row 0 "lexical_declaration" 0 12 none,
    ⟨some 1, "const", 0, 5, some "kind", false, false⟩, row 1 "variable_declarator" 6 11 none,
    row 3 "identifier" 6 7 (some "name"), row 3 "number" 10 11 (some "value"),
    row 0 "statement_block" 13 34 none, row 6 "lexical_declaration" 15 29 none,
    ⟨some 7, "const", 15, 20, some "kind", false, false⟩, row 7 "variable_declarator" 21 28 none,
    row 9 "object_pattern" 21 24 (some "name"),
    row 10 "shorthand_property_identifier_pattern" 22 23 none,
    row 9 "identifier" 27 28 (some "value"), row 6 "expression_statement" 30 32 none,
    row 13 "identifier" 30 31 none]

def block : Node :=
  (Node.ofRows? "const k = 1;\n\x7b const \x7bk\x7d = o; k; \x7d" blockRows).get rfl

def blockPlace (i : Fin 13) : Cursor := (Cursor.ofRoot block).preorder.get (i.cast rfl)

/-- A destructured name does not hide a constant of the same name outside its block. -/
theorem destructured_staysWithin_iff_block :
    Destructures (blockPlace 12).text (blockPlace 5) (blockPlace 7) ∧
      blockPlace 5 ∈ (blockPlace 12).ancestors ∧
      lookup (blockPlace 12) = some (blockPlace 4) ∧
      ¬ StaysWithin (blockPlace 5) (blockPlace 12) := by
  have hstatement : blockPlace 6 ∈ (blockPlace 5).contents := List.mem_cons_self ..
  have hdeclarator : blockPlace 7 ∈ (blockPlace 6).contents := List.mem_singleton.mpr rfl
  have hbinds : Binds (blockPlace 12).text (blockPlace 8) :=
    .part (by decide) (List.mem_singleton.mpr rfl) (.word (by decide) rfl)
  have hd : Destructures (blockPlace 12).text (blockPlace 5) (blockPlace 7) :=
    .declarator hstatement (.own (.inl (by decide))) (.inl rfl) hdeclarator rfl rfl (by decide)
      hbinds
  have hancestors : (blockPlace 12).ancestors = [blockPlace 11, blockPlace 5, blockPlace 0] := rfl
  have habove : blockPlace 5 ∈ (blockPlace 12).ancestors := by simp [hancestors]
  have hbelow : ¬ Introduces (blockPlace 12).text (blockPlace 11) :=
    (binding?_eq_none_iff _ _).mp rfl
  have hscope : ¬ Introduces (blockPlace 12).text (blockPlace 5) :=
    (binding?_eq_none_iff _ _).mp rfl
  refine ⟨hd, habove, rfl, ?_⟩
  rw [(destructured_staysWithin_iff hd habove).2.1]
  rintro (⟨a, ha, hin, hintroduces⟩ | houter)
  · rw [hancestors] at ha
    rcases List.mem_cons.mp ha with rfl | ha
    · exact hbelow hintroduces
    rcases List.mem_cons.mp ha with rfl | ha
    · exact hscope hintroduces
    · obtain rfl := List.mem_singleton.mp ha
      rcases hin with h | h
      · exact absurd (congrArg Cursor.id h) (by decide)
      · cases h
  · cases houter

end ComponentAtlas.Scope
