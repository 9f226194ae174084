import ComponentAtlas.Proofs.Component.Exposure

/-!
# Surveys as they are read

A survey tests place after place, and it ends at the first test that has no
answer. So far as it is read it finds at each place what the tests there say.
-/

namespace ComponentAtlas.Component

open SourceTree

/-- What a place is or makes, as far as its tests are answered. -/
def readDefinition (c : Cursor) : Except Failure (Option Cursor) := do
  if (← Reading.isClassComponent c) || isFunctionComponent c then
    return some c
  if ← Reading.isFactoryCall c then
    Reading.specification c
  else
    return none

theorem readDefinition_eq (c : Cursor) :
    readDefinition c = Reading.checked (Reading.inDefinitionAt c) (definitionAt c) := by
  refine Reading.bind_checked ?_
  unfold definitionAt isComponent
  split
  · rfl
  · refine Reading.bind_checked ?_
    split
    · rfl
    · rfl

theorem readDefinition_eq_none {c : Cursor} (h : c.kind ∉ definingKinds) :
    readDefinition c = .ok none := by
  rw [readDefinition_eq, inDefinitionAt_eq_nil h, definitionAt_eq_none h]
  rfl

/-- The survey, as far as the tests of the places are answered. -/
def readSurvey (covered : Nat) (places : List Cursor) : Except Failure (List Cursor) :=
  Reading.checked (Reading.inSurvey covered places) (survey covered places)

/-- How a survey goes on behind a place where this is found. -/
def goOn (covered : Nat) (c : Cursor) (rest : List Cursor) :
    Option Cursor → Except Failure (List Cursor)
  | some found => (readSurvey c.stop rest).map (found :: ·)
  | none => readSurvey covered rest

theorem readSurvey_of_covered {covered : Nat} {c : Cursor} (h : c.start < covered)
    (rest : List Cursor) : readSurvey covered (c :: rest) = readSurvey covered rest := by
  rw [readSurvey, Reading.inSurvey, survey, if_pos h, if_pos h, readSurvey]

theorem readSurvey_of_le {covered : Nat} {c : Cursor} (h : covered ≤ c.start)
    (rest : List Cursor) :
    readSurvey covered (c :: rest) = (readDefinition c).bind (goOn covered c rest) := by
  have hnot : ¬ c.start < covered := Nat.not_lt.mpr h
  rw [readDefinition_eq, readSurvey, Reading.inSurvey, survey, if_neg hnot, if_neg hnot]
  refine (Reading.bind_checked ?_).symm
  cases definitionAt c with
  | none => rfl
  | some found => exact (Reading.checked_map _ _ _).symm

/-- A place that is surveyed is covered, or it is tested and the survey goes on behind it. -/
theorem readSurvey_cons_eq_ok {covered : Nat} {c : Cursor} {rest found : List Cursor}
    (h : readSurvey covered (c :: rest) = .ok found) :
    (c.start < covered ∧ readSurvey covered rest = .ok found) ∨
      (covered ≤ c.start ∧ readDefinition c = .ok none ∧ readSurvey covered rest = .ok found) ∨
      ∃ d later, covered ≤ c.start ∧ readDefinition c = .ok (some d) ∧
        readSurvey c.stop rest = .ok later ∧ found = d :: later := by
  rcases Nat.lt_or_ge c.start covered with hcovered | hle
  · exact .inl ⟨hcovered, readSurvey_of_covered hcovered rest ▸ h⟩
  rw [readSurvey_of_le hle] at h
  obtain ⟨answer, hd, hrest⟩ := bind_eq_ok.mp h
  cases answer with
  | none => exact .inr (.inl ⟨hle, hd, hrest⟩)
  | some d =>
    obtain ⟨later, hlater, hfound⟩ := map_eq_ok.mp hrest
    exact .inr (.inr ⟨d, later, hle, hd, hlater, hfound.symm⟩)

theorem definitionAt_of_read {c : Cursor} {d : Option Cursor} (h : readDefinition c = .ok d) :
    definitionAt c = d := by
  rw [readDefinition_eq] at h
  exact ((Reading.checked_eq_ok _ _ _).mp h).2

theorem all_eq_readSurvey (program : Cursor) :
    Reading.all program = (readSurvey 0 (program.descendants none)).map distinct :=
  Reading.checked_map distinct _ (survey 0 (program.descendants none))

end ComponentAtlas.Component
