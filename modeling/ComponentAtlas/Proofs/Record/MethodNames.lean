import ComponentAtlas.Proofs.Document.NormalForm
import ComponentAtlas.Proofs.Record.History
import Mathlib.Data.List.Nodup

/-!
# Names of methods

A method is kept under the name that it was asked for, but it goes by a name of
its own, which can be assigned like the other attributes. So a record lists two
methods of one name as soon as the names that are given to two keys meet, and
its documents list both of them.
-/

namespace ComponentAtlas.Record

/-- The names by which the methods of a record go, in order. -/
def methodNames (r : Record Value) : List String := r.methods.map fun m => m.2.name

/-- The name that the step gives to the method under a key. -/
def Step.renames? (key : String) : Step Value → Option String
  | .method given (some (label, name)) =>
    if given = .text key ∧ label = .text "name" then name.asText? else none
  | _ => none

/-- The name by which the method under a key goes after the steps. -/
def nameGiven (steps : List (Step Value)) (key : String) : String :=
  (steps.filterMap (Step.renames? key)).getLast?.getD key

theorem methodAttribute?_eq_name (label : Value) :
    methodAttribute? label = some .name ↔ label = .text "name" := by
  constructor
  · intro h
    cases label with
    | text s => exact congrArg Value.text (MethodAttribute.label_of_ofLabel? h).symm
    | _ => cases h
  · rintro rfl
    decide

theorem assigned?_name (key : String) (s : Step Value) :
    s.assigned? (.method key .name) = (s.renames? key).map .text := by
  have hkept (v : Value) : MethodAttribute.kept? .name v = v.asText?.map .text := by
    cases v <;> rfl
  cases s with
  | method given assignment =>
    simp only [Step.assigned?, Step.given?]
    cases assignment with
    | none => split <;> rfl
    | some a =>
      obtain ⟨label, v⟩ := a
      simp only [valueFor?, Option.bind_some, methodAttribute?_eq_name, Step.renames?]
      by_cases hgiven : given = .text key
      · by_cases hlabel : label = .text "name"
        · rw [if_pos hgiven, if_pos hlabel, if_pos ⟨hgiven, hlabel⟩]
          exact hkept v
        · rw [if_pos hgiven, if_neg hlabel, if_neg fun h => hlabel h.2]
          rfl
      · rw [if_neg hgiven, if_neg fun h => hgiven h.1]
        rfl
  | _ => rfl

theorem methodOf_eq (r : Record Value) (key : String) : (r.methodOf key).1 = r.methodAt key := by
  unfold methodOf methodAt
  rw [Keyed.getOrAdd_eq]

theorem name_methodAt_runAll (steps : List (Step Value)) (key : String) :
    ((empty.runAll steps).methodAt key).name = nameGiven steps key := by
  -- Only lists grow, and the name of a method is none.
  have hgrows : ∀ s ∈ steps, ¬ s.Grows (.method key .name) := by
    intro s _ h
    cases s with
    | appendToMethod name list v =>
      rcases h.2.2 with hlist | hlist
      · cases hlist
      · cases hlist
    | _ => exact h
  have hassigned : (fun s => Step.assigned? (.method key .name) s) =
      fun s => (Step.renames? key s).map Value.text := funext (assigned?_name key)
  have hvalue : Value.text ((empty.runAll steps).methodAt key).name = _ := valueAt_runAll hgrows
  rw [hassigned, ← List.map_filterMap, List.getLast?_map] at hvalue
  unfold nameGiven
  cases hlast : (steps.filterMap (Step.renames? key)).getLast? with
  | none =>
    rw [hlast] at hvalue
    exact Value.text.inj hvalue
  | some name =>
    rw [hlast] at hvalue
    exact Value.text.inj hvalue

theorem nodup_keys_runAll (steps : List (Step Value)) :
    (empty.runAll steps).methods.keys.Nodup := by
  have hmerged := isMerged_eraseDups
    (keys_runAll (fun r => r.methods.keys) rfl keys_methods_run steps)
  apply hmerged.distinct.imp
  rintro a b hab rfl
  simp at hab

/-- The methods go by the names that were given to their keys. -/
theorem methodNames_runAll (steps : List (Step Value)) :
    (empty.runAll steps).methodNames = (empty.runAll steps).methods.keys.map (nameGiven steps) := by
  unfold methodNames Keyed.keys
  rw [List.map_map]
  apply List.map_congr_left
  intro m hm
  have hget := Keyed.get?_of_mem (nodup_keys_runAll steps) hm
  have hname := name_methodAt_runAll steps m.1
  rw [methodAt, hget] at hname
  exact hname

/-! ### Names in documents -/

theorem names_checkMethodsFrom {trim : Bool} {ms : List (MethodDescriptor Value)} (i : Nat)
    {found : List MethodEntry} (h : Draft.checkMethodsFrom .values trim i ms = pure found) :
    found.map (fun m => m.name) = ms.map fun m => m.name := by
  induction ms generalizing i found with
  | nil =>
    obtain rfl := (Checked.pure_eq_pure _ _).mp h
    rfl
  | cons m rest ih =>
    simp only [Draft.checkMethodsFrom, Checked.bind_eq_pure, Checked.pure_eq_pure,
      Checked.under_eq_pure] at h
    obtain ⟨first, hfirst, others, hothers, rfl⟩ := h
    obtain ⟨-, modifiers, params, -, -, hentry⟩ := (Draft.checkMethod_eq_pure _).mp hfirst
    rw [List.map_cons, List.map_cons, ih (i + 1) hothers, hentry]

/-- A document lists the names of the methods of its record. -/
theorem methodNames_ofRecord {trim : Bool} {r : Record Value} {d : Document}
    (h : Document.ofRecord trim r = .ok d) :
    (d.methods.getD []).map (fun m => m.name) = r.methodNames := by
  obtain ⟨clean, -, hcheck⟩ := (Draft.normalize_eq_ok _).mp h
  simp only [Draft.check, Checked.bind_eq_pure, Checked.pure_eq_pure, Checked.under_eq_pure]
    at hcheck
  obtain ⟨-, -, -, -, -, -, -, -, -, -, methods, hmethods, -, -, -, -, rfl⟩ := hcheck
  have hkept : (Draft.nonEmptyList methods).getD [] = methods := by
    cases methods <;> rfl
  rw [hkept, names_checkMethodsFrom 0 hmethods]
  simp only [Draft.ofRecord, List.map_map]
  rfl

/--
The method under a key goes by the name that it was given last, whatever the
names of the others are. The names differ exactly when no two keys have been
given the same one; and a document lists them as they are.
-/
theorem method_names_distinct_iff (steps : List (Step Value)) :
    (empty.runAll steps).methods.keys.Nodup ∧
      (∀ key, ((empty.runAll steps).methodOf key).1.name = nameGiven steps key) ∧
      ((empty.runAll steps).methodNames.Nodup ↔
        ∀ a ∈ (empty.runAll steps).methods.keys, ∀ b ∈ (empty.runAll steps).methods.keys,
          nameGiven steps a = nameGiven steps b → a = b) ∧
      ∀ trim d, Document.ofRecord trim (empty.runAll steps) = .ok d →
        (d.methods.getD []).map (fun m => m.name) =
          (empty.runAll steps).methods.keys.map (nameGiven steps) := by
  refine ⟨nodup_keys_runAll steps, ?name, ?distinct, ?document⟩
  case name =>
    intro key
    rw [methodOf_eq]
    exact name_methodAt_runAll steps key
  case distinct =>
    rw [methodNames_runAll]
    constructor
    · intro h a ha b hb hab
      exact List.inj_on_of_nodup_map h ha hb hab
    · intro h
      exact (nodup_keys_runAll steps).map_on h
  case document =>
    intro trim d h
    rw [methodNames_ofRecord h, methodNames_runAll]

/-- A method that has been given the name of another one, before the other is asked for. -/
theorem method_names_distinct_iff_renamed :
    let steps : List (Step Value) :=
      [.method (.text "a") (some (.text "name", .text "b")), .method (.text "b") none]
    let r := empty.runAll steps
    ¬ r.methodNames.Nodup ∧ (r.methodOf "a").1.name = "b" ∧
      ∃ d, Document.ofRecord true r = .ok d ∧
        (d.methods.getD []).map (fun m => m.name) = ["b", "b"] := by
  intro steps r
  obtain ⟨-, hname, hdistinct, hdocument⟩ := method_names_distinct_iff steps
  have hpublished : ∃ d, Document.ofRecord true r = .ok d := ⟨_, rfl⟩
  obtain ⟨d, hd⟩ := hpublished
  refine ⟨?_, hname "a", d, hd, hdocument true d hd⟩
  rw [hdistinct]
  intro hinjective
  have hsame : "a" = "b" := hinjective "a" (.head _) "b" (.tail _ (.head _)) rfl
  exact absurd hsame (by decide)

end ComponentAtlas.Record
