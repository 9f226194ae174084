import ComponentAtlas.Proofs.SourceTree.Places

/-!
# Ranges of nodes

Where children lie in the range of the node above, one after the other, a walk
that comes to a place has before visited only places above it and places that
end before it begins.
-/

namespace ComponentAtlas.SourceTree

namespace Cursor

/-- The children lie in the range of the place, one after the other. -/
structure IsOrdered (c : Cursor) : Prop where
  inside : ∀ d ∈ c.children, c.start ≤ d.start ∧ d.stop ≤ c.stop
  apart : c.children.Pairwise fun d e => d.stop ≤ e.start

instance (c : Cursor) : Decidable c.IsOrdered :=
  decidable_of_iff
    ((∀ d ∈ c.children, c.start ≤ d.start ∧ d.stop ≤ c.stop) ∧
      c.children.Pairwise fun d e => d.stop ≤ e.start)
    ⟨fun h => ⟨h.1, h.2⟩, fun h => ⟨h.inside, h.apart⟩⟩

theorem IsOrdered.siblings_apart {c s t : Cursor} (hc : c.IsOrdered) (hs : IsChild c s)
    (ht : IsChild c t) : s = t ∨ s.stop ≤ t.start ∨ t.stop ≤ s.start := by
  obtain ⟨elder, younger, hsplit⟩ := List.append_of_mem (show s ∈ c.children from hs)
  have hapart := hc.apart
  rw [hsplit, List.pairwise_append, List.pairwise_cons] at hapart
  obtain ⟨-, ⟨hyounger, -⟩, helder⟩ := hapart
  rw [IsChild, hsplit, List.mem_append, List.mem_cons] at ht
  rcases ht with ht | rfl | ht
  · exact .inr (.inr (helder t ht s (List.mem_cons_self ..)))
  · exact .inl rfl
  · exact .inr (.inl (hyounger t ht))

variable {root : Node} (hroot : ∀ p, Within root p → p.IsOrdered)

include hroot in
theorem Contains.range_subset {c d : Cursor} (hc : Within root c) (h : c.Contains d) :
    c.start ≤ d.start ∧ d.stop ≤ c.stop := by
  induction h using Relation.ReflTransGen.head_induction_on with
  | refl => exact ⟨Nat.le_refl _, Nat.le_refl _⟩
  | head hchild _ ih =>
    obtain ⟨hstart, hstop⟩ := (hroot _ hc).inside _ hchild
    obtain ⟨hstart', hstop'⟩ := ih (hc.child hchild)
    exact ⟨Nat.le_trans hstart hstart', Nat.le_trans hstop' hstop⟩

include hroot in
/-- Two places lie one below the other, or one after the other. -/
theorem Within.nested_or_apart {c d : Cursor} (hc : Within root c) (hd : Within root d) :
    c.Contains d ∨ d.Contains c ∨ c.stop ≤ d.start ∨ d.stop ≤ c.start := by
  induction hc with
  | refl => exact .inl hd
  | @tail b c hsteps hchild ih =>
    have hb : Within root b := hsteps
    have hrange := (hroot b hb).inside c hchild
    rcases ih with hbd | hdb | happart | happart
    · rcases Relation.ReflTransGen.cases_head hbd with rfl | ⟨s, hs, hsd⟩
      · exact .inr (.inl (.single hchild))
      · have hrange' := Contains.range_subset hroot (hb.child hs) hsd
        rcases (hroot b hb).siblings_apart hchild hs with rfl | happart | happart
        · exact .inl hsd
        · exact .inr (.inr (.inl (Nat.le_trans happart hrange'.1)))
        · exact .inr (.inr (.inr (Nat.le_trans hrange'.2 happart)))
    · exact .inr (.inl (hdb.tail hchild))
    · exact .inr (.inr (.inl (Nat.le_trans hrange.2 happart)))
    · exact .inr (.inr (.inr (Nat.le_trans happart hrange.1)))

theorem Reaches.ancestors_subset {c d : Cursor} (h : c.Reaches d) :
    c.ancestors ⊆ d.ancestors := by
  induction h with
  | refl => exact fun _ ha => ha
  | tail _ hstep ih =>
    rw [ancestors_of_isChild (isNamedChild_iff.mp hstep).1]
    exact fun a ha => List.mem_cons_of_mem _ (ih ha)

include hroot in
/-- Before a place a walk visits places above it and places that end before it begins. -/
theorem Reaches.preorder_split {c d : Cursor} (hc : Within root c) (h : c.Reaches d) :
    ∃ before after, c.preorder = before ++ d :: after ∧
      ∀ m ∈ before, m ∈ d.ancestors ∨ m.stop ≤ d.start := by
  induction h using Relation.ReflTransGen.head_induction_on with
  | refl => exact ⟨[], _, preorder_eq _, fun _ hm => nomatch hm⟩
  | @head c e hstep hed ih =>
    have hchild := (isNamedChild_iff.mp hstep).1
    have he := hc.child hchild
    obtain ⟨before, after, hsplit, hbefore⟩ := ih he
    obtain ⟨elder, younger, hsiblings⟩ := List.append_of_mem (show e ∈ c.namedChildren from hstep)
    refine ⟨c :: (elder.flatMap preorder ++ before), after ++ younger.flatMap preorder, ?_, ?_⟩
    · rw [preorder_eq, hsiblings, List.flatMap_append, List.flatMap_cons, hsplit]
      simp only [List.cons_append, List.append_assoc]
    · intro m hm
      rcases List.mem_cons.mp hm with rfl | hm
      · refine .inl (Reaches.ancestors_subset hed ?_)
        rw [ancestors_of_isChild hchild]
        exact List.mem_cons_self ..
      -- What lies in an elder sibling of the way down ends with it, before the way goes on.
      rcases List.mem_append.mp hm with hm | hm
      · obtain ⟨s, hs, hsm⟩ := List.mem_flatMap.mp hm
        have hapart : c.namedChildren.Pairwise fun d e => d.stop ≤ e.start :=
          (hroot c hc).apart.filter _
        rw [hsiblings, List.pairwise_append] at hapart
        have hse : s.stop ≤ e.start := hapart.2.2 s hs e (List.mem_cons_self ..)
        have hstep' : IsNamedChild c s := by
          rw [IsNamedChild, hsiblings]
          exact List.mem_append_left _ hs
        have hms := (Contains.range_subset hroot (hc.child (isNamedChild_iff.mp hstep').1)
          (contains_of_mem_preorder hsm)).2
        have hed' := (Contains.range_subset hroot he (Reaches.contains hed)).1
        exact .inr (Nat.le_trans hms (Nat.le_trans hse hed'))
      · exact hbefore m hm

end Cursor

end ComponentAtlas.SourceTree
