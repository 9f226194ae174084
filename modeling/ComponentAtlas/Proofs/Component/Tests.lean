import ComponentAtlas.Proofs.Component.Exports
import ComponentAtlas.Proofs.Path.Nesting
import ComponentAtlas.Reading.Components

/-!
# Paths that are followed for components

Classes and factory calls are told by paths, and so are the assignments by which
a module exports. Whoever asks for components gets an answer, unless a text that
is looked at cannot be read or such a path has no end; then no call for the path
ever answers.
-/

namespace ComponentAtlas.Component

open SourceTree

/-! ### What is followed -/

/-- A place of the tree is tested by the path of the expression, which may be lost. -/
inductive IsTested (root : Node) : Option Cursor → Prop
  | callee {c : Cursor} : Cursor.Within root c → isCall c = true →
      IsTested root (c.child? "function")
  | superclass {c : Cursor} : Cursor.Within root c → c.kind ∈ classKinds →
      IsTested root (superclass c)

/-- The exports of a program are told by the path of the expression, which may be lost. -/
inductive IsFollowed (root : Node) : Option Cursor → Prop
  | tested {x : Option Cursor} : IsTested root x → IsFollowed root x
  | target {statement expression : Cursor} : statement ∈ (Cursor.ofRoot root).contents →
      statement.content? = some expression → expression.kind = "assignment_expression" →
      IsFollowed root (expression.child? "left")

/-- The recursion for paths comes to an end at what is called and at what classes extend. -/
structure TestsEnd (root : Node) : Prop where
  callee : ∀ c f, Cursor.Within root c → isCall c = true → c.child? "function" = some f →
    Path.RecursionEnds Path.byScope f
  superclass : ∀ c s, Cursor.Within root c → c.kind ∈ classKinds → superclass c = some s →
    Path.RecursionEnds Path.byScope s

/-- The recursion for paths comes to an end wherever it is followed for what is exported. -/
def ExportsEnd (root : Node) : Prop :=
  ∀ x, IsFollowed root x → ∀ c ∈ x, Path.RecursionEnds Path.byScope c

/-- No call for the path of the expression answers, however deep calls may nest. -/
def NeverAnswers (x : Option Cursor) : Prop :=
  ∀ depth, Path.callWithin .byScope depth x = .tooDeep

section

variable {root : Node} {c : Cursor} {x : Option Cursor}

theorem within_of_firstArgument {root : Node} {call argument : Cursor}
    (hc : Cursor.Within root call) (h : firstArgument call = some argument) :
    Cursor.Within root argument := by
  obtain ⟨arguments, harguments, hcontent⟩ := Option.bind_eq_some_iff.mp h
  have hin := hc.child (Cursor.isChild_of_child? harguments)
  exact hin.child (Cursor.isChild_of_mem_contents (Cursor.mem_contents_of_content? hcontent))

theorem within_of_wrapped {root : Node} {call v : Cursor} (hc : Cursor.Within root call)
    (h : (firstArgument call).bind Scope.resolve = some v) : Cursor.Within root v := by
  obtain ⟨argument, hargument, hv⟩ := Option.bind_eq_some_iff.mp h
  exact Scope.within_of_resolve (within_of_firstArgument hc hargument) hv

theorem within_of_superclass {s : Cursor} (hc : Cursor.Within root c)
    (h : superclass c = some s) : Cursor.Within root s := by
  obtain ⟨heritage, hheritage, hs⟩ := Option.bind_eq_some_iff.mp h
  have hin := hc.child (Cursor.isChild_of_mem_contents (List.mem_of_find?_eq_some hheritage))
  have hfirst {d e : Cursor} (hd : Cursor.Within root d) (he : d.content? = some e) :
      Cursor.Within root e :=
    hd.child (Cursor.isChild_of_mem_contents (Cursor.mem_contents_of_content? he))
  split at hs
  · rename_i clause hclause
    have hclauseIn :=
      hin.child (Cursor.isChild_of_mem_contents (List.mem_of_find?_eq_some hclause))
    rcases Option.or_eq_some_iff.mp hs with hvalue | ⟨-, hcontent⟩
    · exact hclauseIn.child (Cursor.isChild_of_child? hvalue)
    · exact hfirst hclauseIn hcontent
  · exact hfirst hin hs

theorem IsTested.within (h : IsTested root x) : ∀ c ∈ x, Cursor.Within root c := by
  intro d hd
  cases h with
  | callee hc _ => exact hc.child (Cursor.isChild_of_child? hd)
  | superclass hc _ => exact within_of_superclass hc hd

theorem IsFollowed.within (h : IsFollowed root x) : ∀ c ∈ x, Cursor.Within root c := by
  intro d hd
  cases h with
  | tested h => exact h.within d hd
  | target hs hexpression _ =>
    have hroot : Cursor.Within root (Cursor.ofRoot root) := .refl
    have hin := (hroot.child (Cursor.isChild_of_mem_contents hs)).child
      (Cursor.isChild_of_content? hexpression)
    exact hin.child (Cursor.isChild_of_child? hd)

theorem TestsEnd.recursionEnds (hends : TestsEnd root) (h : IsTested root x) :
    ∀ c ∈ x, Path.RecursionEnds Path.byScope c := by
  intro d hd
  cases h with
  | callee hc hcall => exact hends.callee _ d hc hcall hd
  | superclass hc hkind => exact hends.superclass _ d hc hkind hd

/-- Where each part is smaller than what it is a part of, the recursion for any path ends. -/
theorem testsEnd_of_size (h : ∀ c ∈ Cursor.placesFrom [] root,
    ∀ d ∈ Path.parts Path.byScope c, d.node.size < c.node.size) : TestsEnd root where
  callee _ _ hc _ hf := Path.recursionEnds_of_size Path.staysIn_byScope h
    (hc.child (Cursor.isChild_of_child? hf))
  superclass _ _ hc _ hs := Path.recursionEnds_of_size Path.staysIn_byScope h
    (within_of_superclass hc hs)

theorem exportsEnd_of_size (h : ∀ c ∈ Cursor.placesFrom [] root,
    ∀ d ∈ Path.parts Path.byScope c, d.node.size < c.node.size) : ExportsEnd root :=
  fun _ hx c hc => Path.recursionEnds_of_size Path.staysIn_byScope h (hx.within c hc)

/-- What is looked at for a path ends just where some call for it answers. -/
theorem ends_inPath_iff (hx : ∀ c ∈ x, Cursor.Within root c) :
    Reading.Ends (Reading.inPath x) ↔ ¬ NeverAnswers x := by
  rw [NeverAnswers, Path.forall_tooDeep_iff Path.staysIn_byScope hx]
  exact Reading.checked_ne_endless_iff.symm

theorem not_neverAnswers_of_recursionEnds (hx : ∀ c ∈ x, Cursor.Within root c)
    (hends : ∀ c ∈ x, Path.RecursionEnds Path.byScope c) : ¬ NeverAnswers x :=
  (ends_inPath_iff hx).mp <|
    Reading.ends_of_not_mem (Reading.endless_not_mem_inPathBy Path.staysIn_byScope hx hends)

end

end ComponentAtlas.Component

namespace ComponentAtlas.Reading

open SourceTree

/-! ### What is looked at ends where paths end -/

section

variable {root : Node} {c : Cursor}
  (htests : ∀ x, Component.IsTested root x → Ends (inPath x))

include htests

theorem ends_inClass (hc : Cursor.Within root c) : Ends (inClass c) := by
  unfold inClass
  split
  · rename_i hkind
    refine (htests _ (.superclass hc (List.contains_iff_mem.mp hkind))).append ?_
    split
    · exact ends_texts []
    · exact ends_texts _
  · exact ends_texts []

theorem ends_inFactory (hc : Cursor.Within root c) : Ends (inFactory c) := by
  unfold inFactory
  split
  · rename_i hcall
    exact htests _ (.callee hc hcall)
  · exact ends_texts []

theorem ends_inDefinitionAt (hc : Cursor.Within root c) : Ends (inDefinitionAt c) := by
  refine (ends_inClass htests hc).append ?_
  split
  · exact ends_texts []
  refine (ends_inFactory htests hc).append ?_
  split
  · exact ends_texts _
  · exact ends_texts []

theorem ends_inSurvey (covered : Nat) {places : List Cursor}
    (hplaces : ∀ c ∈ places, Cursor.Within root c) : Ends (inSurvey covered places) := by
  induction places generalizing covered with
  | nil => exact ends_texts []
  | cons c rest ih =>
    have hrest : ∀ d ∈ rest, Cursor.Within root d := fun d hd =>
      hplaces d (List.mem_cons_of_mem _ hd)
    rw [inSurvey]
    split
    · exact ih covered hrest
    · exact (ends_inDefinitionAt htests (hplaces c (List.mem_cons_self ..))).append (ih _ hrest)

theorem ends_inAll {program : Cursor} (hprogram : Cursor.Within root program) :
    Ends (inAll program) :=
  ends_inSurvey htests 0 fun _ hc =>
    hprogram.trans (Cursor.mem_descendants.mp hc).1.contains

theorem ends_inUnwrap (fuel : Nat) (hc : Cursor.Within root c) : Ends (inUnwrap fuel c) := by
  induction fuel generalizing c with
  | zero => exact ends_texts []
  | succ fuel ih =>
    refine (ends_inClass htests hc).append ?_
    split
    · exact ends_texts []
    split
    · exact ends_texts []
    refine ((ends_inFactory htests hc).append (ends_texts _)).append ?_
    split
    · exact ends_texts []
    · refine Ends.flatMap fun value hvalue => ih ?_
      exact Component.within_of_wrapped hc (Option.mem_toList.mp hvalue)

theorem ends_inDefinition (hc : Cursor.Within root c) : Ends (inDefinition c) := by
  refine (ends_texts _).append (Ends.flatMap fun value hvalue => ?_)
  exact ends_inUnwrap htests _ (Scope.within_of_resolve hc (Option.mem_toList.mp hvalue))

end

theorem ends_inAssignment {root : Node} {statement : Cursor}
    (hfollowed : ∀ x, Component.IsFollowed root x → Ends (inPath x))
    (hs : statement ∈ (Cursor.ofRoot root).contents) : Ends (inAssignment statement) := by
  unfold inAssignment
  split
  · refine Ends.flatMap fun expression hexpression => ?_
    obtain ⟨hcontent, hkind⟩ := List.mem_filter.mp hexpression
    exact hfollowed _ (.target hs (Option.mem_toList.mp hcontent) (beq_iff_eq.mp hkind))
  · exact ends_texts []

theorem ends_inExports {root : Node}
    (hfollowed : ∀ x, Component.IsFollowed root x → Ends (inPath x)) :
    Ends (inExports (Cursor.ofRoot root)) := by
  refine Ends.flatMap fun statement hs => ?_
  refine (ends_inAssignment hfollowed hs).append (Ends.flatMap fun value hvalue => ?_)
  refine Ends.flatMap fun q hq => ?_
  obtain rfl := Option.mem_toList.mp hq
  have hexported : some q ∈ Component.exportedValues (Cursor.ofRoot root) :=
    List.mem_flatMap.mpr ⟨statement, hs, hvalue⟩
  exact ends_inDefinition (fun x hx => hfollowed x (.tested hx))
    (Component.within_of_mem_exportedValues hexported)

/-! ### Answers and failures -/

/-- A text that is looked at cannot be read, or one of the paths that are followed has no end. -/
inductive FailsFor (looks : List Look) (followed : Option Cursor → Prop) : Failure → Prop
  | broken {place : Cursor} : .text place ∈ looks → place.isReadable = false →
      FailsFor looks followed (.misuse .brokenText)
  | endless {x : Option Cursor} : followed x → Component.NeverAnswers x →
      FailsFor looks followed (.misuse .endless)

theorem not_failsFor {looks : List Look} {followed : Option Cursor → Prop}
    (hreadable : ∀ place, .text place ∈ looks → place.isReadable = true)
    (hanswers : ∀ x, followed x → ¬ Component.NeverAnswers x) (failure : Failure) :
    ¬ FailsFor looks followed failure := by
  intro hfails
  cases hfails with
  | broken hplace hbroken =>
    rw [hreadable _ hplace] at hbroken
    cases hbroken
  | endless hx hnever => exact hanswers _ hx hnever

theorem checked_cases {α : Type} {looks : List Look} {followed : Option Cursor → Prop}
    (hends : (∀ x, followed x → ¬ Component.NeverAnswers x) → Ends looks) (answer : α) :
    checked looks answer = .ok answer ∨
      ∃ failure, checked looks answer = .error failure ∧ FailsFor looks followed failure := by
  unfold checked
  cases hfault : looks.findSome? Look.fault? with
  | none => exact .inl rfl
  | some fault =>
    refine .inr ⟨_, rfl, ?_⟩
    obtain ⟨look, hlook, hlookFault⟩ := List.exists_of_findSome?_eq_some hfault
    cases look with
    | text place =>
      rw [Look.fault?] at hlookFault
      split at hlookFault
      · cases hlookFault
      · rename_i hbroken
        cases hlookFault
        exact .broken hlook (Bool.eq_false_iff.mpr hbroken)
    | endless =>
      cases hlookFault
      by_contra hnone
      refine hends (fun x hx hnever => hnone (.endless hx hnever)) hfault

end ComponentAtlas.Reading

namespace ComponentAtlas.Component

open SourceTree

section

variable {root : Node}

/-- The components of a program are answered, or there is a fault in what is looked at for them. -/
theorem all_cases {program : Cursor} (hprogram : Cursor.Within root program) :
    Reading.all program = .ok (all program) ∨
      ∃ failure, Reading.all program = .error failure ∧
        Reading.FailsFor (Reading.inAll program) (IsTested root) failure := by
  refine Reading.checked_cases (fun h => ?_) _
  exact Reading.ends_inAll (fun x hx => (ends_inPath_iff hx.within).mpr (h x hx)) hprogram

theorem allExported_cases :
    Reading.allExported (.ofRoot root) = .ok (allExported (.ofRoot root)) ∨
      ∃ failure, Reading.allExported (.ofRoot root) = .error failure ∧
        Reading.FailsFor (Reading.inExports (.ofRoot root)) (IsFollowed root) failure := by
  refine Reading.checked_cases (fun h => ?_) _
  exact Reading.ends_inExports fun x hx => (ends_inPath_iff hx.within).mpr (h x hx)

/-- Where the recursion for tested paths ends and texts can be read, components are answered. -/
theorem all_of_testsEnd (hends : TestsEnd root) {program : Cursor}
    (hprogram : Cursor.Within root program)
    (hreadable : ∀ place, .text place ∈ Reading.inAll program → place.isReadable = true) :
    Reading.all program = .ok (all program) := by
  rcases all_cases hprogram with hall | ⟨failure, -, hfails⟩
  · exact hall
  · refine absurd hfails (Reading.not_failsFor hreadable (fun x hx => ?_) failure)
    exact not_neverAnswers_of_recursionEnds hx.within (hends.recursionEnds hx)

theorem allExported_of_exportsEnd (hends : ExportsEnd root)
    (hreadable : ∀ place, .text place ∈ Reading.inExports (.ofRoot root) →
      place.isReadable = true) :
    Reading.allExported (.ofRoot root) = .ok (allExported (.ofRoot root)) := by
  rcases allExported_cases with hall | ⟨failure, -, hfails⟩
  · exact hall
  · refine absurd hfails (Reading.not_failsFor hreadable (fun x hx => ?_) failure)
    exact not_neverAnswers_of_recursionEnds hx.within (hends x hx)

end

end ComponentAtlas.Component
