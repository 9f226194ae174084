import ComponentAtlas.Proofs.Component.Tests
import ComponentAtlas.Proofs.Data.Distinct
import ComponentAtlas.Proofs.Scope.Orbit
import ComponentAtlas.Proofs.SourceTree.Ranges
import ComponentAtlas.Reading.Components

/-!
# What the survey of a program meets

A place is exposed when walks come to it and nothing above it is or makes a
definition. Exports, bindings and wrapping calls lead from exposed places to
exposed places only, and the survey of a program passes over none of them.
-/

namespace ComponentAtlas.Component

open SourceTree

/-! ### Regular trees -/

def leadingFields : List String := ["value", "declaration", "name", "right", "arguments"]

/-- The children of the place are what a parser puts there. -/
structure IsRegular (c : Cursor) : Prop where
  ordered : c.IsOrdered
  named : ∀ d ∈ c.children, d.node.field ∈ leadingFields.map some → d.named = true
  arguments : c.kind = "call_expression" → ∀ d ∈ c.children, d.node.field = some "arguments" →
    d.kind ∈ ["arguments", "template_string"]
  specifiers : c.kind = "export_clause" → ∀ d ∈ c.contents, d.kind = "export_specifier"

instance (c : Cursor) : Decidable (IsRegular c) :=
  decidable_of_iff
    (c.IsOrdered ∧ (∀ d ∈ c.children, d.node.field ∈ leadingFields.map some → d.named = true) ∧
      (c.kind = "call_expression" → ∀ d ∈ c.children, d.node.field = some "arguments" →
        d.kind ∈ ["arguments", "template_string"]) ∧
      (c.kind = "export_clause" → ∀ d ∈ c.contents, d.kind = "export_specifier"))
    ⟨fun h => ⟨h.1, h.2.1, h.2.2.1, h.2.2.2⟩,
      fun h => ⟨h.ordered, h.named, h.arguments, h.specifiers⟩⟩

/-! ### Definitions and exposed places -/

def definingKinds : List String := classKinds ++ functionKinds ++ ["call_expression"]

theorem definitionAt_eq_none {c : Cursor} (h : c.kind ∉ definingKinds) : definitionAt c = none := by
  simp only [definingKinds, List.mem_append, List.mem_singleton, not_or] at h
  obtain ⟨⟨hclass, hfunction⟩, hcall⟩ := h
  simp [definitionAt, isComponent, isClassComponent, isFunctionComponent, isFactoryCall, isCall,
    hclass, hfunction, hcall]

theorem inDefinitionAt_eq_nil {c : Cursor} (h : c.kind ∉ definingKinds) :
    Reading.inDefinitionAt c = [] := by
  simp only [definingKinds, List.mem_append, List.mem_singleton, not_or] at h
  obtain ⟨⟨hclass, -⟩, hcall⟩ := h
  simp [Reading.inDefinitionAt, Reading.inClass, Reading.inFactory, isFactoryCall, isCall, hclass,
    hcall]

theorem not_defining_of_variable {kind : String} (h : kind ∈ Scope.variableKinds) :
    kind ∉ definingKinds := by
  revert kind
  decide

/-- Walks come to the place, and they meet no definition on the way. -/
structure Exposed (root : Node) (p : Cursor) : Prop where
  reached : (Cursor.ofRoot root).Reaches p
  above : ∀ a ∈ p.ancestors, definitionAt a = none

section

variable {root : Node} {p q : Cursor}

theorem Exposed.within (hp : Exposed root p) : Cursor.Within root p := hp.reached.contains

theorem Exposed.child (hp : Exposed root p) (hnone : definitionAt p = none)
    (hq : Cursor.IsNamedChild p q) : Exposed root q where
  reached := .tail hp.reached hq
  above a ha := by
    rw [Cursor.ancestors_of_isChild (Cursor.isNamedChild_iff.mp hq).1] at ha
    rcases List.mem_cons.mp ha with rfl | ha
    · exact hnone
    · exact hp.above a ha

theorem Exposed.content (hp : Exposed root p) (hkind : p.kind ∉ definingKinds)
    (hq : q ∈ p.contents) : Exposed root q :=
  hp.child (definitionAt_eq_none hkind) (Cursor.isNamedChild_of_mem_contents hq)

theorem Exposed.ancestor (hp : Exposed root p) (ha : q ∈ p.ancestors) : Exposed root q where
  reached := hp.reached.ancestor ha
  above a h := hp.above a (Cursor.ancestors_subset ha h)

theorem Exposed.bare (hp : Exposed root p) (h : p.bare = some q) : Exposed root q := by
  refine (Cursor.bare_induction (fun c d hc hd hexposed => ?_) hp h).1
  have hk : c.kind = "parenthesized_expression" := beq_iff_eq.mp hc
  exact hexposed.content (by rw [hk]; decide) hd

variable (hroot : ∀ p, Cursor.Within root p → IsRegular p)

include hroot

theorem Exposed.field (hp : Exposed root p) (hnone : definitionAt p = none) {name : String}
    (hname : name ∈ leadingFields) (hq : p.child? name = some q) : Exposed root q := by
  have hchild := Cursor.isChild_of_child? hq
  have hfield := Cursor.field_of_child? hq
  have hnamed := (hroot p hp.within).named q hchild (hfield ▸ List.mem_map_of_mem hname)
  exact hp.child hnone (Cursor.isNamedChild_iff.mpr ⟨hchild, hnamed⟩)

/-! ### Bindings -/

theorem Exposed.lookup (hp : Exposed root p) (h : Scope.lookup p = some q) : Exposed root q := by
  obtain ⟨a, ha, statement, hs, hgives⟩ := Scope.gives_of_lookup h
  -- The scope is above the name, so that it is no definition and neither is any node above it.
  have hstatement : Exposed root statement :=
    (hp.ancestor ha).child (hp.above a ha) (Cursor.isNamedChild_of_mem_contents hs)
  refine hgives.preserves ?_ ?_ ?_ hstatement
  · intro s d hk hd hexposed
    exact hexposed.field hroot (definitionAt_eq_none (by rw [hk]; decide)) (by decide) hd
  · intro s d hk hd hexposed
    exact hexposed.content (not_defining_of_variable hk) hd
  · intro d w hk hw hexposed
    exact hexposed.field hroot (definitionAt_eq_none (by rw [hk]; decide)) (by decide) hw

theorem Exposed.resolve (hp : Exposed root p) (h : Scope.resolve p = some q) : Exposed root q :=
  Scope.resolve_preserves (fun _ _ hv hc => hc.lookup hroot hv) (fun _ _ hv hc => hc.bare hv) hp h

/-! ### Calls -/

theorem Exposed.firstArgument (hp : Exposed root p) (hcall : isCall p = true)
    (hnone : definitionAt p = none) (h : firstArgument p = some q) : Exposed root q := by
  obtain ⟨arguments, harguments, hq⟩ := Option.bind_eq_some_iff.mp h
  have hexposed := hp.field hroot hnone (by decide) harguments
  have hkind := (hroot p hp.within).arguments (beq_iff_eq.mp hcall) arguments
    (Cursor.isChild_of_child? harguments) (Cursor.field_of_child? harguments)
  have hdefining : arguments.kind ∉ definingKinds := by
    generalize arguments.kind = kind at hkind
    revert kind
    decide
  exact hexposed.content hdefining (Cursor.mem_contents_of_content? hq)

theorem Exposed.unwrap {fuel : Nat} (hp : Exposed root p) (h : unwrap fuel p = some q) :
    ∃ e, Exposed root e ∧ definitionAt e = some q := by
  refine unwrap_preserves (fun c v hcall hnone hv hc => ?_) hp h
  obtain ⟨argument, hargument, hv⟩ := Option.bind_eq_some_iff.mp hv
  exact (hc.firstArgument hroot hcall hnone hargument).resolve hroot hv

theorem Exposed.definition (hp : Exposed root p) (h : definition p = some q) :
    ∃ e, Exposed root e ∧ definitionAt e = some q := by
  obtain ⟨v, hv, hq⟩ := Option.bind_eq_some_iff.mp h
  exact (hp.resolve hroot hv).unwrap hroot hq

/-! ### Exports -/

theorem Exposed.exports (hp : Exposed root p) (h : Exports p q) : Exposed root q := by
  have hexport (hk : p.kind = "export_statement") : p.kind ∉ definingKinds := by
    rw [hk]
    decide
  cases h with
  | value hk hq => exact hp.field hroot (definitionAt_eq_none (hexport hk)) (by decide) hq
  | declared hk _ hdeclaration hvariable hd hdk hq =>
    have hdeclaration :=
      hp.field hroot (definitionAt_eq_none (hexport hk)) (by decide) hdeclaration
    have hd := hdeclaration.content (not_defining_of_variable hvariable) hd
    exact hd.field hroot (definitionAt_eq_none (by rw [hdk]; decide)) (by decide) hq
  | declaration hk _ hq _ =>
    exact hp.field hroot (definitionAt_eq_none (hexport hk)) (by decide) hq
  | name hk _ _ _ hclause hck hspecifier hq =>
    have hclause := hp.content (hexport hk) hclause
    have hsk := (hroot _ hclause.within).specifiers hck _ hspecifier
    have hspecifier := hclause.content (by rw [hck]; decide) hspecifier
    exact hspecifier.field hroot (definitionAt_eq_none (by rw [hsk]; decide)) (by decide) hq
  | assignment hk hexpression hek _ hq =>
    have hexpression :=
      hp.content (by rw [hk]; decide) (Cursor.mem_contents_of_content? hexpression)
    exact hexpression.field hroot (definitionAt_eq_none (by rw [hek]; decide)) (by decide) hq

theorem exposed_of_exported (hprogram : root.kind = "program")
    (h : some q ∈ exportedValues (Cursor.ofRoot root)) : Exposed root q := by
  have hstart : Exposed root (Cursor.ofRoot root) := ⟨.refl, fun _ ha => nomatch ha⟩
  have hkind : (Cursor.ofRoot root).kind = "program" := hprogram
  obtain ⟨statement, hs, h⟩ := mem_exportedValues.mp h
  exact (hstart.content (by rw [hkind]; decide) hs).exports hroot h

end

/-! ### The survey -/

theorem mem_survey {e d : Cursor} (hd : definitionAt e = some d) (before after : List Cursor)
    {covered : Nat} (hcovered : covered ≤ e.start)
    (hbefore : ∀ m ∈ before, definitionAt m = none ∨ m.stop ≤ e.start) :
    d ∈ survey covered (before ++ e :: after) := by
  -- What covers more than before is a definition that has ended by then.
  induction before generalizing covered with
  | nil =>
    rw [List.nil_append, survey, if_neg (by omega), hd]
    exact List.mem_cons_self ..
  | cons m rest ih =>
    have hrest : ∀ m ∈ rest, definitionAt m = none ∨ m.stop ≤ e.start := fun m hm =>
      hbefore m (List.mem_cons_of_mem _ hm)
    rw [List.cons_append, survey]
    split
    · exact ih hcovered hrest
    cases hm : definitionAt m with
    | none => exact ih hcovered hrest
    | some found =>
      have hstop : m.stop ≤ e.start := by
        rcases hbefore m (List.mem_cons_self ..) with hnone | hstop
        · rw [hm] at hnone
          cases hnone
        · exact hstop
      exact List.mem_cons_of_mem _ (ih hstop hrest)

theorem definition_of_mem_survey {d : Cursor} {covered : Nat} {places : List Cursor}
    (h : d ∈ survey covered places) : ∃ e ∈ places, definitionAt e = some d := by
  induction places generalizing covered with
  | nil => cases h
  | cons c rest ih =>
    have hlater {covered : Nat} (h : d ∈ survey covered rest) :
        ∃ e ∈ c :: rest, definitionAt e = some d := by
      obtain ⟨e, he, hd⟩ := ih h
      exact ⟨e, List.mem_cons_of_mem _ he, hd⟩
    rw [survey] at h
    split at h
    · exact hlater h
    cases hc : definitionAt c with
    | none =>
      rw [hc] at h
      exact hlater h
    | some found =>
      rw [hc] at h
      rcases List.mem_cons.mp h with rfl | h
      · exact ⟨c, List.mem_cons_self .., hc⟩
      · exact hlater h

theorem definitionAt_cases {c d : Cursor} (h : definitionAt c = some d) :
    d = c ∧ isComponent c = true ∨ isFactoryCall c = true ∧ specification c = some d := by
  unfold definitionAt at h
  split at h
  · rename_i hcomponent
    exact .inl ⟨(Option.some.inj h).symm, hcomponent⟩
  split at h
  · rename_i hfactory
    exact .inr ⟨hfactory, h⟩
  · cases h

theorem within_of_definitionAt {root : Node} {c d : Cursor} (hc : Cursor.Within root c)
    (h : definitionAt c = some d) : Cursor.Within root d := by
  rcases definitionAt_cases h with ⟨rfl, -⟩ | ⟨-, hspecification⟩
  · exact hc
  · exact within_of_wrapped hc (Option.filter_eq_some_iff.mp hspecification).1

/-- The definition behind an expression is met at some place of its tree. -/
theorem exists_definitionAt {root : Node} {c d : Cursor} (hc : Cursor.Within root c)
    (h : definition c = some d) : ∃ e, Cursor.Within root e ∧ definitionAt e = some d := by
  obtain ⟨v, hv, hd⟩ := Option.bind_eq_some_iff.mp h
  apply unwrap_preserves _ (Scope.within_of_resolve hc hv) hd
  intro call value _ _ hvalue hcall
  exact within_of_wrapped hcall hvalue

/-- In a numbered tree the survey lists what is defined at exposed places. -/
theorem Exposed.mem_all {root : Node} (hnumbered : root.IsNumbered)
    (hroot : ∀ p, Cursor.Within root p → IsRegular p) {e d : Cursor} (he : Exposed root e)
    (hd : definitionAt e = some d) : d ∈ all (Cursor.ofRoot root) := by
  obtain ⟨before, after, hsplit, hbefore⟩ :=
    Cursor.Reaches.preorder_split (fun p hp => (hroot p hp).ordered) .refl he.reached
  have hmem : d ∈ survey 0 ((Cursor.ofRoot root).descendants none) := by
    rw [Cursor.descendants_none, hsplit]
    refine mem_survey hd before after (Nat.zero_le _) fun m hm => ?_
    rcases hbefore m hm with habove | hstop
    · exact .inl (he.above m habove)
    · exact .inr hstop
  obtain ⟨kept, hkept, hid⟩ := Distinct.exists_mem_eraseDupsBy (r := fun a b => a.id == b.id)
    (fun _ => beq_self_eq_true _) hmem
  obtain ⟨m, hm, hdm⟩ := definition_of_mem_survey (Distinct.mem_of_mem_eraseDupsBy hkept)
  have hin : Cursor.Within root m := (Cursor.mem_descendants.mp hm).1.contains
  obtain rfl := Cursor.eq_of_id_eq hnumbered (within_of_definitionAt he.within hd)
    (within_of_definitionAt hin hdm) (beq_iff_eq.mp hid)
  exact hkept

end ComponentAtlas.Component
