import ComponentAtlas.Proofs.Component.Surveys

/-!
# The order of what a survey reports

A survey meets definitions one after the other, each after the last has ended.
What it reports for a class, a function or a specification in its call lies where
it is met. A specification that is taken by its name may lie anywhere: the report
is in source order exactly when each of these lies in the place that the report
gives it.
-/

namespace ComponentAtlas.Component

open SourceTree

/-- Each place begins after those before it, and none lies inside another. -/
def IsSourceOrdered (places : List Cursor) : Prop :=
  places.Pairwise fun d e => d.start < e.start ∧ ¬ d.Contains e ∧ ¬ e.Contains d

/-- The place is a specification that stands outside a factory call which takes it. -/
def IsTakenByName (root : Node) (d : Cursor) : Prop :=
  ∃ call, Cursor.Within root call ∧ Reading.isFactoryCall call = .ok true ∧
    Reading.specification call = .ok (some d) ∧ ¬ call.Contains d

/-- What is listed before the place ends before it, and what is listed after it begins after it. -/
structure LiesInPlace (places : List Cursor) (d : Cursor) : Prop where
  before : ∀ b, [b, d].Sublist places → b.stop ≤ d.start
  after : ∀ a, [d, a].Sublist places → d.stop ≤ a.start

/-- The kinds of nodes at which definitions are met, and of specifications. -/
def solidKinds : List String := definingKinds ++ ["object"]

theorem kind_of_specification {call d : Cursor} (h : specification call = some d) :
    d.kind = "object" :=
  beq_iff_eq.mp (Option.filter_eq_some_iff.mp h).2

theorem kind_of_definitionAt {c d : Cursor} (h : definitionAt c = some d) :
    c.kind ∈ solidKinds ∧ d.kind ∈ solidKinds := by
  have hc : c.kind ∈ solidKinds := by
    by_contra hkind
    rw [definitionAt_eq_none fun hk => hkind (List.mem_append_left _ hk)] at h
    cases h
  refine ⟨hc, ?_⟩
  rcases definitionAt_cases h with ⟨rfl, -⟩ | ⟨-, hspecification⟩
  · exact hc
  · rw [kind_of_specification hspecification]
    decide

theorem readDefinition_cases {c d : Cursor} (h : readDefinition c = .ok (some d)) :
    d = c ∨ Reading.isFactoryCall c = .ok true ∧ Reading.specification c = .ok (some d) := by
  obtain ⟨isClass, -, h⟩ := bind_eq_ok.mp h
  split at h
  · cases h
    exact .inl rfl
  obtain ⟨isFactory, hfactory, h⟩ := bind_eq_ok.mp h
  cases isFactory with
  | true => exact .inr ⟨hfactory, h⟩
  | false => cases h

/-- A definition lies where it is met, unless it is taken by its name. -/
theorem contains_of_readDefinition {root : Node} {c d : Cursor} (hc : Cursor.Within root c)
    (h : readDefinition c = .ok (some d)) : IsTakenByName root d ∨ c.Contains d := by
  rcases readDefinition_cases h with rfl | ⟨hfactory, hspecification⟩
  · exact .inr .refl
  · by_cases hin : c.Contains d
    · exact .inr hin
    · exact .inl ⟨c, hc, hfactory, hspecification, hin⟩

section

variable {root : Node} (hordered : ∀ p, Cursor.Within root p → p.IsOrdered)
  (hsolid : ∀ p, Cursor.Within root p → p.kind ∈ solidKinds → p.start < p.stop)

include hordered hsolid

theorem covered_le_of_mem_readSurvey {covered : Nat} {places found : List Cursor} {d : Cursor}
    (hplaces : ∀ c ∈ places, Cursor.Within root c) (hread : readSurvey covered places = .ok found)
    (h : d ∈ found) : IsTakenByName root d ∨ covered ≤ d.start := by
  induction places generalizing covered found with
  | nil =>
    cases hread
    cases h
  | cons c rest ih =>
    have hc := hplaces c (List.mem_cons_self ..)
    have hrest : ∀ c ∈ rest, Cursor.Within root c := fun c h => hplaces c (List.mem_cons_of_mem _ h)
    rcases readSurvey_cons_eq_ok hread with
      ⟨-, hpassed⟩ | ⟨-, -, hpassed⟩ | ⟨e, later, hcovered, he, hlater, rfl⟩
    · exact ih hrest hpassed h
    · exact ih hrest hpassed h
    · rcases List.mem_cons.mp h with rfl | h
      · refine (contains_of_readDefinition hc he).imp_right fun hin => ?_
        have hrange := Cursor.Contains.range_subset hordered hc hin
        omega
      · refine (ih hrest hlater h).imp_right fun hle => ?_
        have hlong := hsolid c hc (kind_of_definitionAt (definitionAt_of_read he)).1
        omega

theorem readSurvey_pairwise {covered : Nat} {places found : List Cursor}
    (hplaces : ∀ c ∈ places, Cursor.Within root c)
    (hread : readSurvey covered places = .ok found) :
    found.Pairwise fun d e => IsTakenByName root d ∨ IsTakenByName root e ∨ d.stop ≤ e.start := by
  induction places generalizing covered found with
  | nil =>
    cases hread
    exact .nil
  | cons c rest ih =>
    have hc := hplaces c (List.mem_cons_self ..)
    have hrest : ∀ c ∈ rest, Cursor.Within root c := fun c h => hplaces c (List.mem_cons_of_mem _ h)
    rcases readSurvey_cons_eq_ok hread with
      ⟨-, hpassed⟩ | ⟨-, -, hpassed⟩ | ⟨d, later, -, hd, hlater, rfl⟩
    · exact ih hrest hpassed
    · exact ih hrest hpassed
    · refine List.pairwise_cons.mpr ⟨fun e he => ?_, ih hrest hlater⟩
      -- The one lies where it is met, and the other begins after that has ended.
      refine (contains_of_readDefinition hc hd).imp_right fun hin => ?_
      have hbehind := covered_le_of_mem_readSurvey hordered hsolid hrest hlater he
      refine hbehind.imp_right fun hle => ?_
      exact Nat.le_trans (Cursor.Contains.range_subset hordered hc hin).2 hle

theorem all_pairwise {found : List Cursor}
    (hread : Reading.all (Cursor.ofRoot root) = .ok found) :
    found.Pairwise fun d e => IsTakenByName root d ∨ IsTakenByName root e ∨ d.stop ≤ e.start := by
  rw [all_eq_readSurvey] at hread
  obtain ⟨met, hmet, rfl⟩ := map_eq_ok.mp hread
  have hpairwise := readSurvey_pairwise hordered hsolid
    (fun c hc => (Cursor.mem_descendants.mp hc).1.contains) hmet
  exact hpairwise.sublist (Distinct.eraseDupsBy_sublist _)

omit hordered in
theorem solid_of_mem_all {d : Cursor} (h : d ∈ all (Cursor.ofRoot root)) :
    Cursor.Within root d ∧ d.start < d.stop := by
  obtain ⟨c, hc, hfound⟩ := definition_of_mem_survey (Distinct.mem_of_mem_eraseDupsBy h)
  have hin := within_of_definitionAt (Cursor.mem_descendants.mp hc).1.contains hfound
  exact ⟨hin, hsolid d hin (kind_of_definitionAt hfound).2⟩

omit hsolid in
/-- Places that are not empty are in source order when each ends before the next begins. -/
theorem isSourceOrdered_iff_pairwise {places : List Cursor}
    (hplaces : ∀ d ∈ places, Cursor.Within root d ∧ d.start < d.stop) :
    IsSourceOrdered places ↔ places.Pairwise fun d e => d.stop ≤ e.start := by
  refine List.Pairwise.iff_of_mem fun {d e} hd he => ?_
  obtain ⟨hd, hlongd⟩ := hplaces d hd
  obtain ⟨he, hlonge⟩ := hplaces e he
  constructor
  · rintro ⟨hstart, hout, hin⟩
    rcases hd.nested_or_apart hordered he with hc | hc | hc | hc
    · exact absurd hc hout
    · exact absurd hc hin
    · exact hc
    · omega
  · intro happart
    refine ⟨by omega, fun hc => ?_, fun hc => ?_⟩
    · have hrange := Cursor.Contains.range_subset hordered hd hc
      omega
    · have hrange := Cursor.Contains.range_subset hordered he hc
      omega

end

/--
What is reported is in source order exactly when what is taken by its name lies in place. There is
a report wherever the recursion for tested paths ends and texts can be read.
-/
theorem isSourceOrdered_all_iff {root : Node} (hordered : ∀ p, Cursor.Within root p → p.IsOrdered)
    (hsolid : ∀ p, Cursor.Within root p → p.kind ∈ solidKinds → p.start < p.stop) :
    (∀ found, Reading.all (Cursor.ofRoot root) = .ok found →
      (IsSourceOrdered found ↔ ∀ d, IsTakenByName root d → LiesInPlace found d)) ∧
    (TestsEnd root →
      (∀ place, .text place ∈ Reading.inAll (Cursor.ofRoot root) → place.isReadable = true) →
      ∃ found, Reading.all (Cursor.ofRoot root) = .ok found) := by
  refine ⟨fun found hfound => ?_, fun hends hreadable => ?_⟩
  · have hsame : all (Cursor.ofRoot root) = found := ((Reading.checked_eq_ok _ _ _).mp hfound).2
    have hplaces : ∀ d ∈ found, Cursor.Within root d ∧ d.start < d.stop := fun d hd =>
      solid_of_mem_all hsolid (hsame ▸ hd)
    rw [isSourceOrdered_iff_pairwise hordered hplaces, List.pairwise_iff_forall_sublist]
    constructor
    · exact fun h d _ => ⟨fun b hb => h hb, fun a ha => h ha⟩
    · intro h d e hde
      rcases (all_pairwise hordered hsolid hfound).forall_sublist hde with hname | hname | happart
      · exact (h d hname).after e hde
      · exact (h e hname).before d hde
      · exact happart
  · exact ⟨_, all_of_testsEnd hends .refl hreadable⟩

/-- The rows of a program that declares a specification with a component in it and then names it. -/
def referredRows : List Row :=
  let row (parent : Nat) (kind : String) (start stop : Nat) (field : Option String) : Row :=
    ⟨some parent, kind, start, stop, field, true, false⟩
  [⟨none, "program", 0, 41, none, true, false⟩, row 0 "variable_declaration" 0 25 none,
    row 1 "variable_declarator" 4 24 none, row 2 "identifier" 4 5 (some "name"),
    row 2 "object" 8 24 (some "value"), row 4 "pair" 9 23 none,
    row 5 "property_identifier" 9 10 (some "key"), row 5 "arrow_function" 12 23 (some "value"),
    row 7 "formal_parameters" 12 14 (some "parameters"),
    row 7 "jsx_self_closing_element" 18 23 (some "body"), row 9 "identifier" 19 20 (some "name"),
    row 0 "expression_statement" 26 41 none, row 11 "call_expression" 26 40 none,
    row 12 "identifier" 26 37 (some "function"), row 12 "arguments" 37 40 (some "arguments"),
    row 14 "identifier" 38 39 none]

def referred : Node :=
  (Node.ofRows? "var S = \x7bf: () => <a />\x7d;\ncreateClass(S);" referredRows).get rfl

/-- The component inside a specification is reported before it, and so the order is lost. -/
theorem isSourceOrdered_all_iff_referred :
    (∀ p, Cursor.Within referred p → p.IsOrdered) ∧
      (∀ p, Cursor.Within referred p → p.kind ∈ solidKinds → p.start < p.stop) ∧
      TestsEnd referred ∧
      ∃ inner specification, Reading.all (Cursor.ofRoot referred) = .ok [inner, specification] ∧
        IsTakenByName referred specification ∧ specification.start < inner.start ∧
        ¬ IsSourceOrdered [inner, specification] := by
  have hregular : ∀ p ∈ Cursor.placesFrom [] referred,
      p.IsOrdered ∧ (p.kind ∈ solidKinds → p.start < p.stop) ∧
        ∀ d ∈ Path.parts Path.byScope p, d.node.size < p.node.size := by decide +kernel
  have hordered : ∀ p, Cursor.Within referred p → p.IsOrdered := fun p hp =>
    (hregular p hp.mem_places).1
  have hsolid : ∀ p, Cursor.Within referred p → p.kind ∈ solidKinds → p.start < p.stop :=
    fun p hp => (hregular p hp.mem_places).2.1
  have hends : TestsEnd referred := testsEnd_of_size fun c hc => (hregular c hc).2.2
  have hfaultless : ∀ look ∈ Reading.inAll (.ofRoot referred), look.fault? = none := by
    decide +kernel
  obtain ⟨hiff, hfound⟩ := isSourceOrdered_all_iff hordered hsolid
  obtain ⟨found, hall⟩ := hfound hends (Reading.isReadable_of_faultless hfaultless)
  obtain rfl : [(Cursor.ofRoot referred).preorder.get ⟨7, by decide⟩,
      (Cursor.ofRoot referred).preorder.get ⟨4, by decide⟩] = found := Except.ok.inj hall
  have hcall : Cursor.Within referred ((Cursor.ofRoot referred).preorder.get ⟨12, by decide⟩) :=
    (Cursor.mem_preorder.mp (List.get_mem _ _)).contains
  have hname : IsTakenByName referred ((Cursor.ofRoot referred).preorder.get ⟨4, by decide⟩) := by
    refine ⟨_, hcall, rfl, rfl, fun hin => ?_⟩
    exact absurd (Cursor.Contains.range_subset hordered hcall hin).1 (by decide)
  refine ⟨hordered, hsolid, hends, _, _, hall, hname, by decide, fun h => ?_⟩
  have hplace := (hiff _ hall).mp h _ hname
  exact absurd (hplace.before _ (.refl _)) (by decide)

end ComponentAtlas.Component
