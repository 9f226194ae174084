import ComponentAtlas.Proofs.Path.Nesting
import ComponentAtlas.Reading.Components

/-!
# Transparent parentheses

Parentheses are taken off in several ways: by the loop of a path, which goes on to
what they enclose; before a name is chased, and again before each value it is
bound to; and by the test for markup at every branch. All of them come to the same
answer for an expression and for what is left of it without outer parentheses.
-/

namespace ComponentAtlas

open SourceTree

/-- The first content takes the place of parentheses as often as there are any; this is left. -/
inductive Leaves : Option Cursor → Option Cursor → Prop
  | lost : Leaves none none
  | inner {c : Cursor} {u : Option Cursor} : c.kind = "parenthesized_expression" →
      Leaves c.content? u → Leaves (some c) u
  | other {c : Cursor} : c.kind ≠ "parenthesized_expression" → Leaves (some c) (some c)

theorem isParentheses_iff {kind : String} :
    isParentheses kind = true ↔ kind = "parenthesized_expression" :=
  beq_iff_eq

theorem leaves_bare (c : Cursor) : Leaves (some c) c.bare := by
  induction hn : c.node.size using Nat.strongRecOn generalizing c with
  | _ n ih =>
    by_cases hp : isParentheses c.kind = true
    · rw [Cursor.bare_of_parentheses c hp]
      refine .inner (isParentheses_iff.mp hp) ?_
      cases hd : c.content? with
      | none => exact .lost
      | some d =>
        exact ih _ (hn ▸ Cursor.size_lt_of_isChild (Cursor.isChild_of_content? hd)) d rfl
    · rw [Cursor.bare_of_not_parentheses c (Bool.eq_false_iff.mpr hp)]
      exact .other (mt isParentheses_iff.mpr hp)

theorem Leaves.unique {x u v : Option Cursor} (h : Leaves x u) (h' : Leaves x v) : v = u := by
  induction h with
  | lost => cases h'; rfl
  | inner hp _ ih =>
    cases h' with
    | inner _ h' => exact ih h'
    | other hp' => exact absurd hp hp'
  | other hp =>
    cases h' with
    | inner hp' _ => exact absurd hp' hp
    | other _ => rfl

/-! ### Answers that pass through parentheses -/

/-- The answer for parentheses is that for their first content, and `lost` where they have none. -/
def Passes {α : Type} (lost : α) (f : Cursor → α) : Prop :=
  ∀ c, isParentheses c.kind = true → f c = c.content?.elim lost f

theorem Passes.elim_eq {α : Type} {lost : α} {f : Cursor → α} (hf : Passes lost f)
    {x u : Option Cursor} (h : Leaves x u) : x.elim lost f = u.elim lost f := by
  induction h with
  | lost => rfl
  | inner hp _ ih => exact (hf _ (isParentheses_iff.mpr hp)).trans ih
  | other _ => rfl

/-- Nothing is looked at for parentheses themselves. -/
theorem Passes.checked {α : Type} {lost : α} {f : Cursor → α} {looks : Cursor → List Reading.Look}
    (hf : Passes lost f) (hlooks : Passes [] looks) :
    Passes (.ok lost) fun c => Reading.checked (looks c) (f c) := by
  intro c hp
  simp only [hf c hp, hlooks c hp]
  cases c.content? with
  | none => rfl
  | some d => rfl

theorem Passes.texts {places : Cursor → List Cursor} (h : Passes [] places) :
    Passes [] fun c => Reading.texts (places c) := by
  intro c hp
  simp only [h c hp]
  cases c.content? with
  | none => rfl
  | some d => rfl

theorem passes_of_bare {α : Type} {lost : α} {f : Cursor → α} (g : Node → Cursor → α)
    (h : ∀ c, f c = c.bare.elim lost (g c.root)) : Passes lost f := by
  intro c hp
  rw [h c, Cursor.bare_of_parentheses c hp]
  cases hd : c.content? with
  | none => rfl
  | some d =>
    have hroot := Cursor.root_of_isChild (Cursor.isChild_of_content? hd)
    rw [Option.bind_some, Option.elim_some, h d, hroot]

section

variable (reader : Reading.KeyReader)

theorem passes_loop (inner : Option Cursor → Path.Attempt (List String)) (met : List String) :
    Passes (Path.loop reader inner [none] met) fun c => Path.loop reader inner [some c] met := by
  intro c hp
  have hform : Path.Form.ofKind c.kind = .parentheses :=
    Path.Form.ofKind_of_mem .parentheses (List.mem_singleton.mpr (isParentheses_iff.mp hp))
  -- Parentheses add no segment, and the loop goes on to their first content.
  have hgoes : Path.loop reader inner [some c] met = Path.loop reader inner [c.content?] met := by
    rw [Path.loop_some]
    unfold Path.segmentsAt Path.onward
    simp only [hform]
    rw [pure_bind, List.append_nil]
  simp only [hgoes]
  cases c.content? with
  | none => rfl
  | some d => rfl

theorem Leaves.callWithin_eq {x u : Option Cursor} (h : Leaves x u) (depth : Nat) :
    Path.callWithin reader depth x = Path.callWithin reader depth u := by
  cases depth with
  | zero => rfl
  | succ depth =>
    have hloop := (passes_loop reader (Path.callWithin reader depth) []).elim_eq h
    cases x <;> cases u <;> exact hloop

end

theorem passes_resolve : Passes none Scope.resolve := by
  refine passes_of_bare (fun root => Scope.chase (root.count "identifier")) fun c => ?_
  unfold Scope.resolve
  cases c.bare <;> rfl

theorem passes_inResolve : Passes [] Reading.inResolve := by
  refine passes_of_bare (fun root => Reading.inChase (root.count "identifier")) fun c => ?_
  unfold Reading.inResolve
  cases c.bare with
  | none => rfl
  | some v => exact List.append_nil _

theorem passes_definition : Passes none Component.definition := by
  refine passes_of_bare (fun root v => (Scope.chase (root.count "identifier") v).bind
    (Component.unwrap (root.count "call_expression" + 1))) fun c => ?_
  unfold Component.definition Scope.resolve
  cases c.bare <;> rfl

theorem passes_inDefinition : Passes [] Reading.inDefinition := by
  refine passes_of_bare (fun root v =>
    Reading.texts (Reading.inChase (root.count "identifier") v) ++
      (Scope.chase (root.count "identifier") v).toList.flatMap
        (Reading.inUnwrap (root.count "call_expression" + 1))) fun c => ?_
  unfold Reading.inDefinition Reading.inResolve Scope.resolve
  cases c.bare with
  | none => rfl
  | some v => exact congrArg (Reading.texts · ++ _) (List.append_nil _)

theorem passes_yieldsMarkup : Passes false fun c => Component.yieldsMarkup c.node := by
  intro c hp
  obtain ⟨⟨label, children⟩, above⟩ := c
  have hlabel : isParentheses label.kind = true := hp
  simp only [Component.yieldsMarkup, hlabel, if_true, Component.contentYieldsMarkup_eq,
    Cursor.content?_eq, Node.content?, Node.children]
  cases children.find? Node.isContent with
  | none => rfl
  | some d => rfl

/-! ### One answer for both -/

section

variable {root : Node} {n : Cursor} {u : Option Cursor}

theorem Leaves.eq_bare (h : Leaves (some n) u) : u = n.bare :=
  (leaves_bare n).unique h

theorem Leaves.segmentsBy_eq (h : Leaves (some n) u) (hn : Cursor.Within root n)
    {reader : Reading.KeyReader} (hstays : Path.StaysIn reader.resolve root)
    (hfinite : Path.HasFinitePaths reader.resolve root) :
    Reading.segmentsBy reader (some n) = Reading.segmentsBy reader u := by
  have hu : ∀ v ∈ u, Cursor.Within root v := fun v hv => hn.bare (h.eq_bare ▸ hv)
  have hends := Path.callsEnd_of_finite hstays hfinite (x := some n)
    fun c hc => Option.some.inj hc ▸ hn
  have hsame : Path.Attempt.of (Reading.segmentsBy reader (some n)) =
      Path.Attempt.of (Reading.segmentsBy reader u) := by
    rw [← (hends _ (Nat.lt_succ_self _)).1, h.callWithin_eq,
      (Path.callsEnd_of_finite hstays hfinite hu _ (Nat.lt_succ_self _)).1]
  exact Option.some.inj hsame

theorem isFunctionComponent_of_body {f : Cursor} (hbody : f.child? "body" = some n)
    (hblock : n.kind ≠ "statement_block") :
    Component.isFunctionComponent f =
      (Component.functionKinds.contains f.kind && Component.yieldsMarkup n.node) := by
  rw [Cursor.child?_eq] at hbody
  obtain ⟨body, hnode, rfl⟩ := Option.map_eq_some_iff.mp hbody
  have hkind : body.kind ≠ "statement_block" := hblock
  simp only [Component.isFunctionComponent, hnode, Option.any_some, Component.bodyYieldsMarkup,
    if_neg hkind]
  rfl

/-- Wherever its value is read, the expression is read as the other, or as none. -/
structure ReadsAs (n : Cursor) (u : Option Cursor) : Prop where
  calls : ∀ reader depth, Path.callWithin reader depth (some n) = Path.callWithin reader depth u ∧
    Path.dottedWithin reader depth (some n) = Path.dottedWithin reader depth u
  paths : ∀ root reader, Cursor.Within root n → Path.StaysIn reader.resolve root →
    Path.HasFinitePaths reader.resolve root →
      Reading.segmentsBy reader (some n) = Reading.segmentsBy reader u ∧
        Reading.dottedBy reader (some n) = Reading.dottedBy reader u
  value : Scope.resolve n = u.bind Scope.resolve
  valueRead : Reading.resolve n = u.elim (.ok none) Reading.resolve
  definition : Component.definition n = u.bind Component.definition
  definitionRead : Reading.definition n = u.elim (.ok none) Reading.definition
  markup : Component.yieldsMarkup n.node = u.any fun v => Component.yieldsMarkup v.node
  /-- A block in parentheses is no function body of statements. -/
  body : ∀ f : Cursor, f.child? "body" = some n → n.kind ≠ "statement_block" →
    Component.isFunctionComponent f = (Component.functionKinds.contains f.kind &&
      u.any fun v => Component.yieldsMarkup v.node)

theorem Leaves.readsAs (h : Leaves (some n) u) : ReadsAs n u := by
  have hmarkup : Component.yieldsMarkup n.node = u.any fun v => Component.yieldsMarkup v.node := by
    have hpasses := passes_yieldsMarkup.elim_eq h
    cases u <;> exact hpasses
  constructor
  case calls =>
    intro reader depth
    have hcall := h.callWithin_eq reader depth
    exact ⟨hcall, congrArg (Path.joinDots <$> ·) hcall⟩
  case paths =>
    intro root reader hn hstays hfinite
    have hsegments := h.segmentsBy_eq hn hstays hfinite
    exact ⟨hsegments, congrArg (Path.joinDots <$> ·) hsegments⟩
  case value =>
    have hpasses := passes_resolve.elim_eq h
    cases u <;> exact hpasses
  case valueRead => exact (passes_resolve.checked passes_inResolve.texts).elim_eq h
  case definition =>
    have hpasses := passes_definition.elim_eq h
    cases u <;> exact hpasses
  case definitionRead => exact (passes_definition.checked passes_inDefinition).elim_eq h
  case markup => exact hmarkup
  case body =>
    intro f hbody hblock
    rw [isFunctionComponent_of_body hbody hblock, hmarkup]

end

/-- Whatever reads the value of an expression reads that of what is left without parentheses. -/
theorem parentheses_transparent (n : Cursor) :
    (∃! u, Leaves (some n) u) ∧ ∀ u, Leaves (some n) u → ReadsAs n u := by
  constructor
  · exact ⟨n.bare, leaves_bare n, fun _ h => h.eq_bare⟩
  · exact fun _ h => h.readsAs

/-- The rows of a function whose body stands in parentheses twice, with a comment before it. -/
def wrappedRows : List Row :=
  let row (parent : Nat) (kind : String) (start stop : Nat) (field : Option String) : Row :=
    ⟨some parent, kind, start, stop, field, true, false⟩
  [⟨none, "program", 0, 18, none, true, false⟩, row 0 "expression_statement" 0 18 none,
    row 1 "arrow_function" 0 17 none, row 2 "formal_parameters" 0 2 (some "parameters"),
    row 2 "parenthesized_expression" 6 17 (some "body"),
    row 4 "parenthesized_expression" 7 16 none, row 5 "comment" 8 12 none,
    row 5 "member_expression" 12 15 none, row 7 "identifier" 12 13 (some "object"),
    row 7 "property_identifier" 14 15 (some "property")]

def wrapped : Node := (Node.ofRows? "() => ((/**/a.b));" wrappedRows).get rfl

def wrappedPlace (i : Fin 10) : Cursor := (Cursor.ofRoot wrapped).preorder.get (i.cast rfl)

/-- The body of the function is read as the member, and so is no markup. -/
theorem parentheses_transparent_wrapped :
    Leaves (some (wrappedPlace 4)) (some (wrappedPlace 7)) ∧
      Cursor.Within wrapped (wrappedPlace 4) ∧ Path.HasFinitePaths Path.byScope wrapped ∧
      Reading.segmentsBy .byScope (some (wrappedPlace 4)) = .ok ["a", "b"] ∧
      Component.isFunctionComponent (wrappedPlace 2) = false := by
  have hleaves : Leaves (some (wrappedPlace 4)) (some (wrappedPlace 7)) :=
    leaves_bare (wrappedPlace 4)
  have hin : Cursor.Within wrapped (wrappedPlace 4) :=
    Cursor.contains_of_mem_preorder (List.get_mem _ _)
  have hfinite : Path.HasFinitePaths Path.byScope wrapped :=
    Path.hasFinitePaths_of_size (by decide +kernel)
  have hreads := (parentheses_transparent (wrappedPlace 4)).2 _ hleaves
  refine ⟨hleaves, hin, hfinite, ?_, ?_⟩
  · rw [(hreads.paths wrapped .byScope hin Path.staysIn_byScope hfinite).1]
    rfl
  · rw [hreads.body (wrappedPlace 2) rfl (by decide)]
    decide +kernel

end ComponentAtlas
