import ComponentAtlas.Proofs.Record.Effects
import Mathlib.Data.List.Induction

/-!
# Records as histories

What a record is after a run of steps can be told from the steps alone. A slot
lists the names that were asked for, each once, in the order in which they were
asked for first; and a place that is only ever assigned as a whole holds what
was kept of the last value that it accepted.
-/

namespace ComponentAtlas.Record

theorem runAll_concat (r : Record Value) (steps : List (Step Value)) (s : Step Value) :
    r.runAll (steps ++ [s]) = ((r.runAll steps).run s).1 := by
  simp only [runAll, List.foldl_append, List.foldl_cons, List.foldl_nil]

/-! ### Names -/

namespace Step

/-- The key whose entry in a slot the step asks for. -/
def entryKey? (slot : EntrySlot) : Step Value → Option Key
  | .entry kind name _ => if kind = slot then name.key? else none
  | _ => none

/-- The name whose method the step asks for. -/
def methodName? : Step Value → Option String
  | .method name _ | .appendToMethod name _ _ => name.asText?
  | _ => none

/-- The key under which the step sets data. -/
def extraKey? : Step Value → Option Key
  | .set key _ => key.key?
  | _ => none

end Step

section

variable (r : Record Value) (s : Step Value)

theorem part?_slot_ne {name v : Value} {part : Part} (hd : part ≠ .description)
    (hn : part ≠ .displayName) : (Step.slot name v).part? ≠ some part := by
  simp only [Step.part?]
  split
  · intro h
    exact hd (Option.some.inj h).symm
  · split
    · intro h
      exact hn (Option.some.inj h).symm
    · intro h
      cases h

theorem ChangesEntry.keys_eq {r changed : Record Value} {slot : EntrySlot} {key : Key}
    {a? : Option PropAttribute} (h : ChangesEntry r changed slot key a?) :
    (changed.entries slot).keys = Keyed.withKey (r.entries slot).keys (some key) := by
  obtain ⟨entries, rfl, hentries⟩ := h
  rw [entries_withEntries, if_pos rfl]
  exact hentries.keys_eq

theorem ChangesMethod.keys_eq {r changed : Record Value} {name : String}
    {a? : Option MethodAttribute} (h : ChangesMethod r changed name a?) :
    changed.methods.keys = Keyed.withKey r.methods.keys (some name) := by
  obtain ⟨methods, rfl, hmethods⟩ := h
  exact hmethods.keys_eq

theorem keys_entries_run (slot : EntrySlot) :
    ((r.run s).1.entries slot).keys = Keyed.withKey (r.entries slot).keys (s.entryKey? slot) := by
  have hsame (h : s.part? ≠ some (.entries slot)) :
      ((r.run s).1.entries slot).keys = (r.entries slot).keys :=
    congrArg Keyed.keys (sameIn_run r h)
  cases s with
  | entry kind name assignment =>
    by_cases hkind : kind = slot
    · subst hkind
      have heffect := effect_run r (.entry kind name assignment)
      simp only [Step.Effect] at heffect
      simp only [Step.entryKey?, if_true]
      split at heffect
      · next key hname =>
        rw [hname]
        exact heffect.keys_eq
      · next hname =>
        rw [heffect, hname]
        rfl
    · simp only [Step.entryKey?, if_neg hkind]
      apply hsame
      intro hpart
      exact hkind (Part.entries.inj (Option.some.inj hpart))
  | slot name v => exact hsame (part?_slot_ne (by simp) (by simp))
  | _ => exact hsame (by simp [Step.part?])

theorem keys_methods_run :
    (r.run s).1.methods.keys = Keyed.withKey r.methods.keys s.methodName? := by
  have hsame (h : s.part? ≠ some .methods) : (r.run s).1.methods.keys = r.methods.keys :=
    congrArg Keyed.keys (sameIn_run r h)
  have heffect := effect_run r s
  cases s with
  | method name assignment =>
    simp only [Step.Effect] at heffect
    split at heffect
    · next found hname =>
      rw [Step.methodName?, hname]
      exact heffect.keys_eq
    · next hname =>
      rw [heffect, Step.methodName?, hname]
      rfl
  | appendToMethod name list v =>
    simp only [Step.Effect] at heffect
    split at heffect
    · next found hname =>
      rw [Step.methodName?, hname]
      exact heffect.keys_eq
    · next hname =>
      rw [heffect, Step.methodName?, hname]
      rfl
  | slot name v => exact hsame (part?_slot_ne (by simp) (by simp))
  | _ => exact hsame (by simp [Step.part?])

theorem keys_extra_run : (r.run s).1.extra.keys = Keyed.withKey r.extra.keys s.extraKey? := by
  have hsame (h : s.part? ≠ some .extra) : (r.run s).1.extra.keys = r.extra.keys :=
    congrArg Keyed.keys (sameIn_run r h)
  cases s with
  | set key v =>
    rw [run_set]
    cases hkey : key.key? with
    | none =>
      rw [Step.extraKey?, hkey]
      rfl
    | some found =>
      rw [Step.extraKey?, hkey]
      exact Keyed.keys_put r.extra found v
  | appendToExtra key v =>
    have heffect := effect_run r (.appendToExtra key v)
    simp only [Step.Effect] at heffect
    split at heffect
    · obtain ⟨extra, hchanged, hkeys, -⟩ := heffect
      rw [hchanged]
      exact hkeys
    · rw [heffect]
      rfl
  | slot name v => exact hsame (part?_slot_ne (by simp) (by simp))
  | _ => exact hsame (by simp [Step.part?])

end

/-- Keys to which each step adds the one that it asks for are the keys asked for. -/
theorem keys_runAll {κ : Type} [BEq κ] [EquivBEq κ] (keysOf : Record Value → List κ)
    {key? : Step Value → Option κ} (hempty : keysOf empty = [])
    (hrun : ∀ r s, keysOf (r.run s).1 = Keyed.withKey (keysOf r) (key? s))
    (steps : List (Step Value)) :
    keysOf (empty.runAll steps) = (steps.filterMap key?).eraseDups := by
  -- By the last step: `withKey` adds its key to what the steps before it have asked for.
  induction steps using List.reverseRecOn with
  | nil => exact hempty
  | append_singleton steps s ih =>
    have hlast : [s].filterMap key? = (key? s).toList := by
      cases h : key? s <;> simp [h]
    rw [runAll_concat, hrun, ih, Keyed.withKey_eraseDups, List.filterMap_append, hlast]

/-! ### Places -/

/-- A place of a record that can be assigned as a whole. -/
inductive Place where
  | description
  | displayName
  | entry (slot : EntrySlot) (key : Key) (a : PropAttribute)
  | method (name : String) (a : MethodAttribute)
  | extra (key : Key)

/-- What is kept of a value that is assigned to the place, if it is accepted. -/
def Place.kept? : Place → Value → Option Value
  | .entry _ _ a => a.kept?
  | .method _ a => a.kept?
  | _ => some

/--
What a place holds. A descriptor that is not there has its defaults, and there is
null under a key that is not there.
-/
def valueAt (r : Record Value) : Place → Value
  | .description => r.description
  | .displayName => r.displayName
  | .entry slot key a => (r.entryAt slot key).get a
  | .method name a => (r.methodAt name).get a
  | .extra key => r.get key .null

/-- The value for an attribute, if it is this attribute that is assigned. -/
def valueFor? {ι : Type} [DecidableEq ι] (attribute? : Value → Option ι) (a : ι)
    (assignment : Option (Assignment Value)) : Option Value :=
  assignment.bind fun given => if attribute? given.1 = some a then some given.2 else none

namespace Step

/-- The value that the step would assign to a place. -/
def given? : Place → Step Value → Option Value
  | .description, .slot name v => if name = .text "description" then some v else none
  | .displayName, .slot name v => if name = .text "display_name" then some v else none
  | .entry kind key a, .entry given name assignment =>
    if given = kind ∧ name.key?.any (key == ·) then valueFor? propAttribute? a assignment else none
  | .method name a, .method given assignment =>
    if given = .text name then valueFor? methodAttribute? a assignment else none
  | .extra key, .set given v => if given.key?.any (key == ·) then some v else none
  | _, _ => none

/-- What a place is to hold after the step, if the step assigns something to it with success. -/
def assigned? (place : Place) (s : Step Value) : Option Value := (s.given? place).bind place.kept?

/-- The step appends to what the place holds. -/
def Grows : Place → Step Value → Prop
  | .method name a, .appendToMethod given list _ =>
    given = .text name ∧ methodAttribute? list = some a ∧ a.IsList
  | .extra key, .appendToExtra given _ => given.key?.any (key == ·) = true
  | _, _ => False

end Step

/-! ### Descriptors after a step -/

section

variable {β ι : Type} {get : β → ι → Value} {change : β → Except Failure β} {d : β} {a : ι}

theorem IsAssignment.get_settled {kept : Option Value}
    (h : IsAssignment get d a kept (change d)) :
    get (settled change d) a = kept.getD (get d a) := by
  cases hchange : change d with
  | ok changed =>
    rw [settled_of_ok hchange, h.shown changed hchange]
    rfl
  | error failure =>
    have hnone : kept = none := by
      rw [← Option.not_isSome_iff_eq_none, ← h.done, hchange]
      rintro ⟨changed, hchanged⟩
      cases hchanged
    rw [settled_of_error hchange, hnone]
    rfl

end

theorem IsAssigner.get_settled {β ι : Type} [DecidableEq ι] {get : β → ι → Value}
    {attribute? : Value → Option ι} {kept? : ι → Value → Option Value}
    {assign : β → Assignment Value → Except Failure β}
    (h : IsAssigner get attribute? kept? assign) (assignment : Option (Assignment Value)) (d : β)
    (a : ι) :
    get (settled (assigning assign assignment) d) a =
      ((valueFor? attribute? a assignment).bind (kept? a)).getD (get d a) := by
  have hagrees : AgreesBut get (assignment.bind fun n => attribute? n.1) d
      (settled (assigning assign assignment) d) := settled_agrees fun _ => h.agrees
  cases assignment with
  | none => exact hagrees a (Option.some_ne_none a).symm
  | some given =>
    by_cases hname : attribute? given.1 = some a
    · simp only [valueFor?, Option.bind_some, if_pos hname]
      exact (h.known d hname).get_settled
    · simp only [valueFor?, Option.bind_some, if_neg hname, Option.bind_none, Option.getD_none]
      exact hagrees a hname

section

variable (r : Record Value)

theorem entryAt_changeEntry (slot other : EntrySlot) (key asked : Key)
    (change : PropDescriptor Value → Except Failure (PropDescriptor Value)) :
    (r.changeEntry slot key change).1.entryAt other asked =
      if slot = other ∧ (asked == key) = true then settled change (r.entryAt other asked)
      else r.entryAt other asked := by
  rw [changeEntry_eq]
  unfold entryAt
  rw [entries_withEntries]
  by_cases hslot : slot = other
  · subst hslot
    rw [if_pos rfl, Keyed.get?_put]
    by_cases hkey : (asked == key) = true
    · rw [if_pos hkey, if_pos ⟨rfl, hkey⟩, Keyed.get?_congr _ hkey]
      rfl
    · rw [if_neg hkey, if_neg fun h => hkey h.2]
  · rw [if_neg fun h => hslot h.symm, if_neg fun h => hslot h.1]

theorem methodAt_changeMethod (name asked : String)
    (change : MethodDescriptor Value → Except Failure (MethodDescriptor Value)) :
    (r.changeMethod name change).1.methodAt asked =
      if name = asked then settled change (r.methodAt asked) else r.methodAt asked := by
  rw [changeMethod_eq]
  unfold methodAt
  rw [Keyed.get?_put]
  by_cases hname : name = asked
  · subst hname
    rw [if_pos BEq.rfl, if_pos rfl]
    rfl
  · rw [if_neg (by simpa using fun h => hname h.symm), if_neg hname]

end

/-! ### Places after a step -/

section

variable (r : Record Value) (s : Step Value)

theorem valueAt_entry_run (slot : EntrySlot) (key : Key) (a : PropAttribute) :
    (r.run s).1.valueAt (.entry slot key a) =
      (s.assigned? (.entry slot key a)).getD (r.valueAt (.entry slot key a)) := by
  have hsame (h : s.part? ≠ some (.entries slot)) :
      (r.run s).1.valueAt (.entry slot key a) = r.valueAt (.entry slot key a) := by
    have hentries : (r.run s).1.entries slot = r.entries slot := sameIn_run r h
    simp only [valueAt, entryAt, hentries]
  cases s with
  | entry kind name assignment =>
    simp only [valueAt, Step.assigned?, Step.given?, run_entry]
    cases name.key? with
    | none => simp
    | some written =>
      simp only [Option.any_some, entryAt_changeEntry]
      split
      · exact isAssigner_assignEntry.get_settled assignment _ a
      · rfl
  | slot name v => exact hsame (part?_slot_ne (by simp) (by simp))
  | _ => exact hsame (by simp [Step.part?])

theorem valueAt_method_run {name : String} {a : MethodAttribute} (h : ¬ s.Grows (.method name a)) :
    (r.run s).1.valueAt (.method name a) =
      (s.assigned? (.method name a)).getD (r.valueAt (.method name a)) := by
  have hsame (h : s.part? ≠ some .methods) :
      (r.run s).1.valueAt (.method name a) = r.valueAt (.method name a) := by
    have hmethods : (r.run s).1.methods = r.methods := sameIn_run r h
    simp only [valueAt, methodAt, hmethods]
  cases s with
  | method given assignment =>
    cases given with
    | text written =>
      simp only [valueAt, Step.assigned?, Step.given?, run_method, methodAt_changeMethod,
        Value.text.injEq]
      split
      · exact isAssigner_assignMethod.get_settled assignment _ a
      · rfl
    | _ => rfl
  | appendToMethod given list v =>
    cases given with
    | text written =>
      -- Appending assigns to no place, and it shows at none but the list that grows.
      show ((r.run (.appendToMethod (.text written) list v)).1.methodAt name).get a =
        (r.methodAt name).get a
      rw [run_appendToMethod, methodAt_changeMethod]
      split
      · next hname =>
        cases happend : appendToList .values (r.methodAt name) list v with
        | error failure => rw [settled_of_error happend]
        | ok changed =>
          obtain ⟨which, hlist, hwhich, hagrees⟩ := appendToList_agrees happend
          rw [settled_of_ok happend]
          apply hagrees
          intro heq
          apply h
          obtain rfl := Option.some.inj heq
          exact ⟨congrArg Value.text hname, hlist, hwhich⟩
      · rfl
    | _ => rfl
  | slot name v => exact hsame (part?_slot_ne (by simp) (by simp))
  | _ => exact hsame (by simp [Step.part?])

theorem valueAt_extra_run {key : Key} (h : ¬ s.Grows (.extra key)) :
    (r.run s).1.valueAt (.extra key) = (s.assigned? (.extra key)).getD (r.valueAt (.extra key)) := by
  have hsame (h : s.part? ≠ some .extra) :
      (r.run s).1.valueAt (.extra key) = r.valueAt (.extra key) := by
    have hextra : (r.run s).1.extra = r.extra := sameIn_run r h
    simp only [valueAt, get, hextra]
  cases s with
  | set given v =>
    simp only [valueAt, Step.assigned?, Step.given?, run_set, get]
    cases given.key? with
    | none => rfl
    | some written =>
      simp only [Option.any_some, Keyed.get?_put]
      split
      · rfl
      · rfl
  | appendToExtra given v =>
    rcases run_appendToExtra r given v with ⟨written, items, hwritten, -, hrun⟩ | ⟨failure, hrun⟩
    · simp only [Step.Grows, hwritten, Option.any_some] at h
      rw [hrun]
      simp only [valueAt, get, Keyed.get?_put, if_neg h]
      rfl
    · rw [hrun]
      rfl
  | slot name v => exact hsame (part?_slot_ne (by simp) (by simp))
  | _ => exact hsame (by simp [Step.part?])

/-- A place holds what the step assigns to it, and otherwise what it held before. -/
theorem valueAt_run {place : Place} (h : ¬ s.Grows place) :
    (r.run s).1.valueAt place = (s.assigned? place).getD (r.valueAt place) := by
  cases place with
  | entry slot key a => exact valueAt_entry_run r s slot key a
  | method name a => exact valueAt_method_run r s h
  | extra key => exact valueAt_extra_run r s h
  | description =>
    have hsame (h : s.part? ≠ some .description) : SameIn r (r.run s).1 .description := sameIn_run r h
    cases s with
    | slot name v =>
      simp only [valueAt, Step.assigned?, Step.given?, (run_slot r name v).1]
      split
      · rfl
      · split
        · rfl
        · rfl
    | _ => exact hsame (by simp [Step.part?])
  | displayName =>
    have hsame (h : s.part? ≠ some .displayName) : SameIn r (r.run s).1 .displayName := sameIn_run r h
    cases s with
    | slot name v =>
      simp only [valueAt, Step.assigned?, Step.given?, (run_slot r name v).1]
      split
      · next hdescription =>
        rw [if_neg (by rw [hdescription]; decide)]
        rfl
      · split
        · rfl
        · rfl
    | _ => exact hsame (by simp [Step.part?])

theorem valueFor?_eq_some {ι : Type} [DecidableEq ι] {attribute? : Value → Option ι} {a : ι}
    {assignment : Option (Assignment Value)} {v : Value}
    (h : valueFor? attribute? a assignment = some v) :
    ∃ name, assignment = some (name, v) ∧ attribute? name = some a := by
  obtain ⟨given, hgiven, hvalue⟩ := Option.bind_eq_some_iff.mp h
  split at hvalue
  · next hname =>
    obtain rfl := Option.some.inj hvalue
    exact ⟨given.1, hgiven, hname⟩
  · cases hvalue

theorem map_unit_eq_ok {α : Type} {x : Except Failure α} :
    (x.map fun _ => ()) = .ok () ↔ ∃ changed, x = .ok changed := by
  rw [map_eq_ok]
  simp only [and_true]

/-- A step that would assign a value succeeds exactly when something is kept of it. -/
theorem run_eq_ok_iff {place : Place} {v : Value} (h : s.given? place = some v) :
    (r.run s).2 = .ok () ↔ (place.kept? v).isSome = true := by
  cases place with
  | entry slot key a =>
    cases s with
    | entry kind name assignment =>
      simp only [Step.given?] at h
      split at h
      · next hasked =>
        obtain ⟨label, rfl, hlabel⟩ := valueFor?_eq_some h
        rw [run_entry]
        cases hname : name.key? with
        | none =>
          rw [hname] at hasked
          cases hasked.2
        | some written =>
          dsimp only
          rw [changeEntry_eq, map_unit_eq_ok]
          exact (isAssigner_assignEntry.known _ hlabel).done
      · cases h
    | _ => cases h
  | method name a =>
    cases s with
    | method given assignment =>
      simp only [Step.given?] at h
      split at h
      · next hgiven =>
        subst hgiven
        obtain ⟨label, rfl, hlabel⟩ := valueFor?_eq_some h
        rw [run_method, changeMethod_eq, map_unit_eq_ok]
        exact (isAssigner_assignMethod.known _ hlabel).done
      · cases h
    | _ => cases h
  | extra key =>
    cases s with
    | set given v =>
      simp only [Step.given?] at h
      rw [run_set]
      cases hgiven : given.key? with
      | none =>
        rw [hgiven] at h
        cases h
      | some written => exact iff_of_true rfl rfl
    | _ => cases h
  | description =>
    cases s with
    | slot name v =>
      simp only [Step.given?] at h
      rw [(run_slot r name v).2]
      split at h
      · next hname => exact iff_of_true (.inl hname) rfl
      · cases h
    | _ => cases h
  | displayName =>
    cases s with
    | slot name v =>
      simp only [Step.given?] at h
      rw [(run_slot r name v).2]
      split at h
      · next hname => exact iff_of_true (.inr hname) rfl
      · cases h
    | _ => cases h

end

/-- A place that is only assigned as a whole holds what it has accepted last. -/
theorem valueAt_runAll {r : Record Value} {place : Place} {steps : List (Step Value)}
    (h : ∀ s ∈ steps, ¬ s.Grows place) :
    (r.runAll steps).valueAt place =
      (steps.filterMap fun s => s.assigned? place).getLast?.getD (r.valueAt place) := by
  induction steps using List.reverseRecOn with
  | nil => rfl
  | append_singleton steps s ih =>
    have hsteps := ih fun t ht => h t (List.mem_append_left _ ht)
    have hs : ¬ s.Grows place := h s (List.mem_append_right _ (List.mem_singleton.mpr rfl))
    rw [runAll_concat, valueAt_run _ s hs, hsteps, List.filterMap_append, List.getLast?_append]
    cases hassigned : s.assigned? place with
    | none => simp [hassigned]
    | some v => simp [hassigned]

/-! ### Runs -/

/-- The names are those asked for, each once, in the order in which they were asked for first. -/
structure IsMerged {κ : Type} [BEq κ] (names asked : List κ) : Prop where
  order : names = asked.eraseDups
  distinct : names.Pairwise fun a b => (b == a) = false

theorem isMerged_eraseDups {κ : Type} [BEq κ] {names asked : List κ} (h : names = asked.eraseDups) :
    IsMerged names asked := by
  refine ⟨h, ?_⟩
  rw [h]
  exact Distinct.pairwise_eraseDupsBy asked

/--
Records merge by name. A step changes nothing but the one part in which it has
its effect, and a step that fails leaves a fresh descriptor behind at most; which
assignments fail is told by the values alone. So a record lists in each slot the
names in the order in which they were first asked for, and a place holds what it
has accepted last.
-/
theorem record_merges_by_name :
    (∀ (r : Record Value) (s : Step Value),
      s.Effect r (r.run s).1 ∧
      (∀ part, s.part? ≠ some part → SameIn r (r.run s).1 part) ∧
      (∀ failure, (r.run s).2 = .error failure → s.Residue r (r.run s).1) ∧
      ∀ place v, s.given? place = some v →
        ((r.run s).2 = .ok () ↔ (place.kept? v).isSome = true)) ∧
    ∀ steps : List (Step Value),
      (∀ slot, IsMerged ((empty.runAll steps).entries slot).keys
        (steps.filterMap (Step.entryKey? slot))) ∧
      IsMerged (empty.runAll steps).methods.keys (steps.filterMap Step.methodName?) ∧
      IsMerged (empty.runAll steps).extra.keys (steps.filterMap Step.extraKey?) ∧
      ∀ place, (∀ s ∈ steps, ¬ s.Grows place) →
        (empty.runAll steps).valueAt place =
          (steps.filterMap (Step.assigned? place)).getLast?.getD (empty.valueAt place) := by
  constructor
  · intro r s
    exact ⟨effect_run r s, fun _ => sameIn_run r, fun _ => residue_run r s,
      fun _ _ => run_eq_ok_iff r s⟩
  · intro steps
    refine ⟨?entries, ?methods, ?extra, ?places⟩
    case entries =>
      intro slot
      apply isMerged_eraseDups
      apply keys_runAll fun r => (r.entries slot).keys
      · cases slot <;> rfl
      · exact fun r s => keys_entries_run r s slot
    case methods =>
      apply isMerged_eraseDups
      exact keys_runAll (fun r => r.methods.keys) rfl keys_methods_run steps
    case extra =>
      apply isMerged_eraseDups
      exact keys_runAll (fun r => r.extra.keys) rfl keys_extra_run steps
    case places =>
      intro place h
      exact valueAt_runAll h

/-- A prop that is assigned twice, the second time in vain, and one that is only looked up. -/
theorem record_merges_by_name_props :
    let steps : List (Step Value) :=
      [.entry .props (.text "p") (some (.text "required", .int 1)),
        .entry .props (.text "q") none,
        .entry .props (.text "p") (some (.text "required", .int 7))]
    let failing : Step Value := .entry .props (.text "n") (some (.text "type", .bool true))
    let r := empty.runAll steps
    r.props.keys = [.text "p", .text "q"] ∧
      r.valueAt (.entry .props (.text "p") .required) = .bool true ∧
      failing.Residue r (r.run failing).1 ∧ (r.run failing).1.methods = r.methods ∧
      (r.run failing).2 ≠ .ok () := by
  intro steps failing r
  obtain ⟨hstep, hruns⟩ := record_merges_by_name
  obtain ⟨-, hsame, hresidue, hsuccess⟩ := hstep r failing
  obtain ⟨hentries, -, -, hplaces⟩ := hruns steps
  have hrequired : r.valueAt (.entry .props (.text "p") .required) = .bool true := by
    have hgrows : ∀ s ∈ steps, ¬ s.Grows (.entry .props (.text "p") .required) := by
      intro s _ h
      cases s <;> exact h
    rw [hplaces _ hgrows]
    rfl
  refine ⟨(hentries .props).order, hrequired, hresidue _ rfl, hsame .methods ?_, ?_⟩
  · simp [failing, Step.part?]
  · rw [ne_eq, hsuccess (.entry .props (.text "n") .type) (.bool true) rfl]
    decide

end ComponentAtlas.Record
