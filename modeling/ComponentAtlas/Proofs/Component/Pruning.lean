import ComponentAtlas.Proofs.Component.Surveys

/-!
# The survey as a traversal

A survey looks at offsets only: it passes over what begins before the definition
that was met last has ended. Where children lie in the range of the node above,
one after the other, this leaves out exactly what lies inside such a node. So a
survey finds what a traversal of the tree finds that does not go down into the
nodes where definitions are met, and where one test has no answer both end there.
-/

namespace ComponentAtlas.Component

open SourceTree

mutual

/-- The definitions met from a node on, given the nodes above it; none is searched further. -/
def definitionsFrom (above : List Node) : Node → Except Failure (List Cursor)
  | .mk label children => do
    match ← readDefinition ⟨.mk label children, above⟩ with
    | some found => return [found]
    | none => definitionsAmong (.mk label children :: above) children

/-- The definitions met from the named ones among several nodes on, one node after the other. -/
def definitionsAmong (above : List Node) : List Node → Except Failure (List Cursor)
  | [] => return []
  | n :: rest =>
    if n.named then do
      let met ← definitionsFrom above n
      let others ← definitionsAmong above rest
      return met ++ others
    else definitionsAmong above rest

end

/-- The definitions met at a place and below it, in document order. -/
def definitionsWithin (c : Cursor) : Except Failure (List Cursor) :=
  definitionsFrom c.above c.node

/-- What is met from several places on, one after the other. -/
def metFrom : List Cursor → Except Failure (List Cursor)
  | [] => .ok []
  | c :: rest => (definitionsWithin c).bind fun met => (metFrom rest).map (met ++ ·)

theorem definitionsAmong_eq (above : List Node) (ns : List Node) :
    definitionsAmong above ns =
      metFrom ((ns.map fun n => (⟨n, above⟩ : Cursor)).filter Cursor.named) := by
  induction ns with
  | nil => rfl
  | cons n rest ih =>
    rw [definitionsAmong, List.map_cons, ih]
    by_cases h : n.named = true
    · have hc : Cursor.named ⟨n, above⟩ = true := h
      rw [if_pos h, List.filter_cons_of_pos hc]
      rfl
    · have hc : ¬ Cursor.named ⟨n, above⟩ = true := h
      rw [if_neg h, List.filter_cons_of_neg hc]

/-- How a traversal goes on below a place where this is found. -/
def goDown (c : Cursor) : Option Cursor → Except Failure (List Cursor)
  | some found => .ok [found]
  | none => metFrom c.namedChildren

theorem definitionsWithin_eq (c : Cursor) :
    definitionsWithin c = (readDefinition c).bind (goDown c) := by
  obtain ⟨⟨label, children⟩, above⟩ := c
  rw [definitionsWithin, definitionsFrom]
  refine congrArg (Except.bind _) (funext fun answer => ?_)
  cases answer with
  | some found => rfl
  | none => exact definitionsAmong_eq _ _

/-! ### Surveys of parts of a walk -/

/-- A survey that comes to the places with one offset finds `found` and leaves with the other. -/
def Surveys (covered : Nat) (places : List Cursor) (found : Except Failure (List Cursor))
    (left : Nat) : Prop :=
  ∀ rest, readSurvey covered (places ++ rest) =
    found.bind fun met => (readSurvey left rest).map (met ++ ·)

namespace Surveys

variable {covered middle left : Nat} {places others : List Cursor}

theorem nil : Surveys covered [] (.ok []) covered := fun rest => by
  cases h : readSurvey covered rest with
  | ok met => simp [Except.bind, Except.map, h]
  | error failure => simp [Except.bind, Except.map, h]

/-- A survey that ends behind the places finds what they are found to hold. -/
theorem alone {found : Except Failure (List Cursor)} (h : Surveys covered places found left) :
    readSurvey covered places = found := by
  have hread := h []
  rw [List.append_nil] at hread
  rw [hread]
  cases found with
  | error failure => rfl
  | ok met => exact congrArg Except.ok (List.append_nil met)

theorem of_failure {c : Cursor} {failure : Failure} (hstart : covered ≤ c.start)
    (h : readDefinition c = .error failure) :
    Surveys covered (c :: places) (.error failure) left := fun rest => by
  rw [List.cons_append, readSurvey_of_le hstart, h]
  rfl

theorem of_definition {c d : Cursor} (hstart : covered ≤ c.start)
    (h : readDefinition c = .ok (some d)) : Surveys covered [c] (.ok [d]) c.stop := fun rest => by
  rw [List.singleton_append, readSurvey_of_le hstart, h]
  rfl

/-- Where the first part ends with a failure, the offset it leaves with does not matter. -/
theorem append {first second : Except Failure (List Cursor)}
    (h : Surveys covered places first middle)
    (h' : ∀ met, first = .ok met → Surveys middle others second left) :
    Surveys covered (places ++ others)
      (first.bind fun met => second.map (met ++ ·)) left := fun rest => by
  rw [List.append_assoc, h]
  cases first with
  | error failure => rfl
  | ok met =>
    simp only [Except.bind]
    rw [h' met rfl]
    cases second with
    | error failure => rfl
    | ok more =>
      simp only [Except.bind, Except.map]
      cases readSurvey left rest with
      | error failure => rfl
      | ok later => simp only [List.append_assoc]

/-- Places that are covered, or at which no definition is met, are passed over. -/
theorem of_passed (h : ∀ p ∈ places, p.start < covered ∨ readDefinition p = .ok none) :
    Surveys covered places (.ok []) covered := by
  induction places with
  | nil => exact .nil
  | cons p others ih =>
    intro rest
    have hothers := ih (fun q hq => h q (List.mem_cons_of_mem _ hq)) rest
    rw [List.cons_append]
    rcases Nat.lt_or_ge p.start covered with hcovered | hle
    · rw [readSurvey_of_covered hcovered]
      exact hothers
    · have hnone := (h p (List.mem_cons_self ..)).resolve_left (Nat.not_lt.mpr hle)
      rw [readSurvey_of_le hle, hnone]
      exact hothers

end Surveys

section

variable {root : Node} (hordered : ∀ p, Cursor.Within root p → p.IsOrdered)

include hordered

/-- What the surveys of siblings find is put together, as none covers what the next ones meet. -/
theorem exists_surveys_siblings {siblings : List Cursor}
    (hsiblings : ∀ s ∈ siblings, Cursor.Within root s)
    (hapart : siblings.Pairwise fun s t => s.stop ≤ t.start)
    (heach : ∀ s ∈ siblings, ∀ covered, (∀ p ∈ s.preorder, covered ≤ p.start) →
      ∃ left, (left = covered ∨ left ≤ s.stop) ∧
        Surveys covered s.preorder (definitionsWithin s) left)
    {covered : Nat} (hcovered : ∀ s ∈ siblings, ∀ p ∈ s.preorder, covered ≤ p.start) :
    ∃ left, (left = covered ∨ ∃ s ∈ siblings, left ≤ s.stop) ∧
      Surveys covered (siblings.flatMap Cursor.preorder) (metFrom siblings) left := by
  induction siblings generalizing covered with
  | nil => exact ⟨covered, .inl rfl, .nil⟩
  | cons s younger ih =>
    obtain ⟨hfirst, hlater⟩ := List.pairwise_cons.mp hapart
    obtain ⟨middle, hmiddle, hs⟩ :=
      heach s (List.mem_cons_self ..) covered (hcovered s (List.mem_cons_self ..))
    have hmiddle' : ∀ t ∈ younger, ∀ p ∈ t.preorder, middle ≤ p.start := by
      intro t ht p hp
      rcases hmiddle with rfl | hmiddle
      · exact hcovered t (List.mem_cons_of_mem _ ht) p hp
      · have hrange := Cursor.Contains.range_subset hordered
          (hsiblings t (List.mem_cons_of_mem _ ht)) (Cursor.contains_of_mem_preorder hp)
        exact Nat.le_trans hmiddle (Nat.le_trans (hfirst t ht) hrange.1)
    obtain ⟨left, hleft, hyounger⟩ := ih (fun t ht => hsiblings t (List.mem_cons_of_mem _ ht))
      hlater (fun t ht => heach t (List.mem_cons_of_mem _ ht)) hmiddle'
    refine ⟨left, ?_, hs.append fun _ _ => hyounger⟩
    rcases hleft with rfl | ⟨t, ht, hleft⟩
    · exact hmiddle.imp_right fun h => ⟨s, List.mem_cons_self .., h⟩
    · exact .inr ⟨t, List.mem_cons_of_mem _ ht, hleft⟩

variable (hsolid : ∀ p, Cursor.Within root p → p.kind ∈ definingKinds → p.start < p.stop)

include hsolid

/-- What lies below a place and defines something begins before the place ends. -/
theorem covered_of_mem_preorder {c e p : Cursor} (hc : Cursor.Within root c)
    (he : Cursor.IsNamedChild c e) (hp : p ∈ e.preorder) :
    p.start < c.stop ∨ readDefinition p = .ok none := by
  have hchild := (Cursor.isNamedChild_iff.mp he).1
  have hcp : c.Contains p := .head hchild (Cursor.contains_of_mem_preorder hp)
  by_cases hkind : p.kind ∈ definingKinds
  · have hlong := hsolid p (hc.trans hcp) hkind
    exact .inl (Nat.lt_of_lt_of_le hlong (Cursor.Contains.range_subset hordered hc hcp).2)
  · exact .inr (readDefinition_eq_none hkind)

theorem exists_surveys_preorder {c : Cursor} (hc : Cursor.Within root c) (covered : Nat)
    (hcovered : ∀ p ∈ c.preorder, covered ≤ p.start) :
    ∃ left, (left = covered ∨ left ≤ c.stop) ∧
      Surveys covered c.preorder (definitionsWithin c) left := by
  induction hn : c.node.size using Nat.strongRecOn generalizing c covered with
  | _ n ih =>
    rw [Cursor.preorder_eq] at hcovered ⊢
    rw [definitionsWithin_eq]
    have hstart := hcovered c (List.mem_cons_self ..)
    cases hd : readDefinition c with
    | error failure => exact ⟨covered, .inl rfl, .of_failure hstart hd⟩
    | ok answer =>
    cases answer with
    | some d =>
      -- All that lies below is covered, or meets no definition.
      have hbelow : Surveys c.stop (c.namedChildren.flatMap Cursor.preorder) (.ok []) c.stop := by
        refine .of_passed fun p hp => ?_
        obtain ⟨e, he, hp⟩ := List.mem_flatMap.mp hp
        exact covered_of_mem_preorder hordered hsolid hc he hp
      have hboth := (Surveys.of_definition hstart hd).append fun _ _ => hbelow
      exact ⟨c.stop, .inr (Nat.le_refl _), hboth⟩
    | none =>
      have hin : ∀ e ∈ c.namedChildren, Cursor.Within root e := fun e he =>
        hc.child (Cursor.isNamedChild_iff.mp he).1
      have heach : ∀ e ∈ c.namedChildren, ∀ covered, (∀ p ∈ e.preorder, covered ≤ p.start) →
          ∃ left, (left = covered ∨ left ≤ e.stop) ∧
            Surveys covered e.preorder (definitionsWithin e) left := by
        intro e he covered hcovered
        have hlt := Cursor.size_lt_of_isChild (Cursor.isNamedChild_iff.mp he).1
        exact ih _ (by omega) (hin e he) covered hcovered rfl
      obtain ⟨left, hleft, hbelow⟩ := exists_surveys_siblings hordered hin
        ((hordered c hc).apart.filter _) heach fun e he p hp =>
          hcovered p (List.mem_cons_of_mem _ (List.mem_flatMap.mpr ⟨e, he, hp⟩))
      have hfirst : Surveys covered [c] (.ok []) covered := .of_passed fun p hp => by
        obtain rfl := List.mem_singleton.mp hp
        exact .inr hd
      have hboth := hfirst.append fun _ _ => hbelow
      refine ⟨left, hleft.imp_right fun h => ?_, ?_⟩
      · obtain ⟨e, he, hle⟩ := h
        exact Nat.le_trans hle ((hordered c hc).inside e (Cursor.isNamedChild_iff.mp he).1).2
      · have hsame : (metFrom c.namedChildren).map ([] ++ ·) = metFrom c.namedChildren := by
          cases metFrom c.namedChildren <;> rfl
        rwa [Except.bind, hsame] at hboth

end

/--
What is reported is what the traversal of the tree meets, each node listed once; where the one
fails the other fails alike. Neither fails where the recursion for tested paths ends and texts can
be read.
-/
theorem all_eq_distinct_definitionsWithin {root : Node}
    (hordered : ∀ p, Cursor.Within root p → p.IsOrdered)
    (hsolid : ∀ p, Cursor.Within root p → p.kind ∈ definingKinds → p.start < p.stop)
    {program : Cursor} (hprogram : Cursor.Within root program) :
    Reading.all program = (definitionsWithin program).map distinct ∧
      (TestsEnd root →
        (∀ place, .text place ∈ Reading.inAll program → place.isReadable = true) →
        ∃ met, definitionsWithin program = .ok met ∧ Reading.all program = .ok (distinct met)) := by
  have hall : Reading.all program = (definitionsWithin program).map distinct := by
    obtain ⟨left, -, h⟩ :=
      exists_surveys_preorder hordered hsolid hprogram 0 fun p _ => Nat.zero_le p.start
    rw [all_eq_readSurvey, Cursor.descendants_none, h.alone]
  refine ⟨hall, fun hends hreadable => ?_⟩
  have hok := all_of_testsEnd hends hprogram hreadable
  obtain ⟨met, hmet, hdistinct⟩ := map_eq_ok.mp (hall ▸ hok)
  exact ⟨met, hmet, by rw [hok, hdistinct]⟩

/-- The rows of a program with a component inside a specification and one after it. -/
def enclosedRows : List Row :=
  let row (parent : Nat) (kind : String) (start stop : Nat) (field : Option String) : Row :=
    ⟨some parent, kind, start, stop, field, true, false⟩
  [⟨none, "program", 0, 55, none, true, false⟩, row 0 "expression_statement" 0 32 none,
    row 1 "call_expression" 0 31 none, row 2 "identifier" 0 11 (some "function"),
    row 2 "arguments" 11 31 (some "arguments"), row 4 "object" 12 30 none, row 5 "pair" 14 28 none,
    row 6 "property_identifier" 14 15 (some "key"), row 6 "arrow_function" 17 28 (some "value"),
    row 8 "formal_parameters" 17 19 (some "parameters"),
    row 8 "jsx_self_closing_element" 23 28 (some "body"), row 0 "lexical_declaration" 33 55 none,
    row 11 "variable_declarator" 39 54 none, row 12 "identifier" 39 40 (some "name"),
    row 12 "arrow_function" 43 54 (some "value"),
    row 14 "formal_parameters" 43 45 (some "parameters"),
    row 14 "jsx_self_closing_element" 49 54 (some "body")]

def enclosed : Node :=
  (Node.ofRows? "createClass(\x7b f: () => <a /> \x7d);\nconst B = () => <b />;" enclosedRows).get
    rfl

/-- The component inside the specification is not met; the one after it is. -/
theorem all_eq_distinct_definitionsWithin_enclosed :
    (∀ p, Cursor.Within enclosed p → p.IsOrdered) ∧
      (∀ p, Cursor.Within enclosed p → p.kind ∈ definingKinds → p.start < p.stop) ∧
      TestsEnd enclosed ∧
      ∃ met, Reading.all (.ofRoot enclosed) = .ok (distinct met) ∧
        met.map (fun d => (d.kind, d.start)) = [("object", 12), ("arrow_function", 43)] := by
  have hregular : ∀ p ∈ Cursor.placesFrom [] enclosed,
      p.IsOrdered ∧ (p.kind ∈ definingKinds → p.start < p.stop) ∧
        ∀ d ∈ Path.parts Path.byScope p, d.node.size < p.node.size := by decide +kernel
  have hordered : ∀ p, Cursor.Within enclosed p → p.IsOrdered := fun p hp =>
    (hregular p hp.mem_places).1
  have hsolid : ∀ p, Cursor.Within enclosed p → p.kind ∈ definingKinds → p.start < p.stop :=
    fun p hp => (hregular p hp.mem_places).2.1
  have hends : TestsEnd enclosed := testsEnd_of_size fun c hc => (hregular c hc).2.2
  have hfaultless : ∀ look ∈ Reading.inAll (.ofRoot enclosed), look.fault? = none := by
    decide +kernel
  obtain ⟨met, hmet, hall⟩ :=
    (all_eq_distinct_definitionsWithin hordered hsolid .refl).2 hends
      (Reading.isReadable_of_faultless hfaultless)
  refine ⟨hordered, hsolid, hends, met, hall, ?_⟩
  rw [← Except.ok.inj hmet]
  rfl

end ComponentAtlas.Component
