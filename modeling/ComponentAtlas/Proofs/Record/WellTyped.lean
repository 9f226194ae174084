import ComponentAtlas.Proofs.Data.Checked
import ComponentAtlas.Record.Step

/-!
# Well-typed records

Descriptors check what is assigned to them, but slots, composed sources and the
lists of a method take anything. A step is well-typed when it leaves there only
what belongs there. A record is well-typed when nothing else has got there, and
well-typed steps lead from well-typed records to well-typed records only.
-/

namespace ComponentAtlas

def Value.IsText (v : Value) : Prop := ∃ s, v = .text s

def Value.IsMapping (v : Value) : Prop := ∃ fields, v = .object fields

def Key.IsText (k : Key) : Prop := ∃ s, k = .text s

/-! ### Entries after writing -/

namespace Keyed

variable {κ α : Type} [BEq κ] {entries : Keyed κ α} {key : κ} {value : α}

theorem mem_put {e : κ × α} (h : e ∈ entries.put key value) :
    e ∈ entries ∨ (e.2 = value ∧ (e.1 = key ∨ e.1 ∈ entries.keys)) := by
  induction entries with
  | nil =>
    have he : e = (key, value) := List.mem_singleton.mp h
    exact .inr ⟨by rw [he], .inl (by rw [he])⟩
  | cons entry rest ih =>
    obtain ⟨other, current⟩ := entry
    unfold put at h
    split at h
    · rcases List.mem_cons.mp h with rfl | h
      · exact .inr ⟨rfl, .inr (List.mem_cons_self ..)⟩
      · exact .inl (List.mem_cons_of_mem _ h)
    · rcases List.mem_cons.mp h with rfl | h
      · exact .inl (List.mem_cons_self ..)
      · rcases ih h with hrest | ⟨hvalue, hkey⟩
        · exact .inl (List.mem_cons_of_mem _ hrest)
        · exact .inr ⟨hvalue, hkey.imp_right (List.mem_cons_of_mem _)⟩

theorem forall_key_put {P : κ → Prop} (hentries : ∀ e ∈ entries, P e.1) (hkey : P key) :
    ∀ e ∈ entries.put key value, P e.1 := by
  intro e he
  rcases mem_put he with hold | ⟨-, hnew | hold⟩
  · exact hentries e hold
  · exact hnew ▸ hkey
  · obtain ⟨f, hf, hkeyf⟩ := List.mem_map.mp hold
    exact hkeyf ▸ hentries f hf

theorem forall_value_put {P : α → Prop} (hentries : ∀ e ∈ entries, P e.2) (hvalue : P value) :
    ∀ e ∈ entries.put key value, P e.2 := by
  intro e he
  rcases mem_put he with hold | ⟨hnew, -⟩
  · exact hentries e hold
  · exact hnew ▸ hvalue

theorem mem_of_get? (h : entries.get? key = some value) : ∃ e ∈ entries, e.2 = value := by
  induction entries with
  | nil => cases h
  | cons entry rest ih =>
    obtain ⟨other, current⟩ := entry
    rw [get?_cons] at h
    split at h
    · exact ⟨_, List.mem_cons_self .., Option.some.inj h⟩
    · obtain ⟨e, he, hvalue⟩ := ih h
      exact ⟨e, List.mem_cons_of_mem _ he, hvalue⟩

theorem forall_getOrAdd {P : κ × α → Prop} {fresh : α} (hentries : ∀ e ∈ entries, P e)
    (hfresh : P (key, fresh)) : ∀ e ∈ (entries.getOrAdd key fresh).2, P e := by
  intro e he
  unfold getOrAdd at he
  split at he
  · exact hentries e he
  · rcases List.mem_append.mp he with hold | hnew
    · exact hentries e hold
    · exact List.mem_singleton.mp hnew ▸ hfresh

theorem getOrAdd_value {P : α → Prop} {fresh : α} (hentries : ∀ e ∈ entries, P e.2)
    (hfresh : P fresh) : P (entries.getOrAdd key fresh).1 := by
  unfold getOrAdd
  split
  · rename_i found hfound
    obtain ⟨e, he, rfl⟩ := mem_of_get? hfound
    exact hentries e he
  · exact hfresh

end Keyed

namespace Record

/-! ### Records -/

/-- The lists of the method hold texts and mappings. -/
structure MethodDescriptor.IsWellTyped (m : MethodDescriptor Value) : Prop where
  modifiers : ∀ v ∈ m.modifiers, v.IsText
  params : ∀ v ∈ m.params, v.IsMapping

structure IsWellTyped (r : Record Value) : Prop where
  description : r.description.IsText
  displayName : r.displayName = .null ∨ r.displayName.IsText
  props : ∀ e ∈ r.props, e.1.IsText
  context : ∀ e ∈ r.context, e.1.IsText
  childContext : ∀ e ∈ r.childContext, e.1.IsText
  methods : ∀ m ∈ r.methods, m.2.IsWellTyped
  composes : ∀ v ∈ r.composes, v.IsText

/-- What the step writes unchecked belongs where it is written. -/
def Step.IsWellTyped : Step Value → Prop
  | .slot name v =>
    (name = .text "description" → v.IsText) ∧
      (name = .text "display_name" → v = .null ∨ v.IsText)
  | .entry _ name _ => name.IsText
  | .appendToMethod _ list v =>
    (list = .text "modifiers" → v.IsText) ∧ (list = .text "params" → v.IsMapping)
  | .compose source => source.IsText
  | _ => True

theorem isWellTyped_empty : empty.IsWellTyped where
  description := ⟨"", rfl⟩
  displayName := .inl rfl
  props := by simp [empty, blank]
  context := by simp [empty, blank]
  childContext := by simp [empty, blank]
  methods := nofun
  composes := nofun

theorem isWellTyped_fresh (name : String) :
    ({ name := name } : MethodDescriptor Value).IsWellTyped := ⟨nofun, nofun⟩

section

variable {r : Record Value}

theorem IsWellTyped.after {attempt : Except Failure (Record Value)} (h : r.IsWellTyped)
    (hattempt : ∀ changed, attempt = .ok changed → changed.IsWellTyped) :
    (r.after attempt).1.IsWellTyped := by
  cases attempt with
  | ok changed => exact hattempt changed rfl
  | error failure => exact h

theorem IsWellTyped.entries (h : r.IsWellTyped) (slot : EntrySlot) :
    ∀ e ∈ r.entries slot, e.1.IsText := by
  cases slot with
  | props => exact h.props
  | context => exact h.context
  | childContext => exact h.childContext

theorem IsWellTyped.withEntries (h : r.IsWellTyped) {slot : EntrySlot}
    {entries : Keyed Key (PropDescriptor Value)} (hentries : ∀ e ∈ entries, e.1.IsText) :
    (r.withEntries slot entries).IsWellTyped := by
  cases slot with
  | props => exact { h with props := hentries }
  | context => exact { h with context := hentries }
  | childContext => exact { h with childContext := hentries }

theorem IsWellTyped.withMethods (h : r.IsWellTyped)
    {methods : Keyed String (MethodDescriptor Value)} (hmethods : ∀ m ∈ methods, m.2.IsWellTyped) :
    ({ r with methods := methods } : Record Value).IsWellTyped :=
  { h with methods := hmethods }

theorem IsWellTyped.withExtra (h : r.IsWellTyped) (extra : Keyed Key Value) :
    ({ r with extra := extra } : Record Value).IsWellTyped :=
  { h with }

theorem IsWellTyped.assignSlot (h : r.IsWellTyped) {name : String} {v : Value}
    (hv : (name = "description" → v.IsText) ∧ (name = "display_name" → v = .null ∨ v.IsText))
    {changed : Record Value} (hchanged : r.assignSlot name v = .ok changed) :
    changed.IsWellTyped := by
  unfold Record.assignSlot at hchanged
  split at hchanged
  · rename_i hname
    obtain rfl := Except.ok.inj hchanged
    exact { h with description := hv.1 hname }
  · split at hchanged
    · rename_i hname
      obtain rfl := Except.ok.inj hchanged
      exact { h with displayName := hv.2 hname }
    · cases hchanged

theorem IsWellTyped.changeEntry (h : r.IsWellTyped) {slot : EntrySlot} {key : Key}
    (hkey : key.IsText) (change : PropDescriptor Value → Except Failure (PropDescriptor Value)) :
    (r.changeEntry slot key change).1.IsWellTyped := by
  have hpresent : (r.entryOf slot key).2.IsWellTyped :=
    h.withEntries (Keyed.forall_getOrAdd (h.entries slot) hkey)
  refine hpresent.after ?_
  intro changed hchanged
  obtain ⟨descriptor, -, rfl⟩ := map_eq_ok.mp hchanged
  exact hpresent.withEntries (Keyed.forall_key_put (hpresent.entries slot) hkey)

theorem IsWellTyped.changeMethod (h : r.IsWellTyped) {name : String}
    {change : MethodDescriptor Value → Except Failure (MethodDescriptor Value)}
    (hchange : ∀ m changed, m.IsWellTyped → change m = .ok changed → changed.IsWellTyped) :
    (r.changeMethod name change).1.IsWellTyped := by
  have hpresent : (r.methodOf name).2.IsWellTyped :=
    h.withMethods (Keyed.forall_getOrAdd h.methods (isWellTyped_fresh name))
  have hfound : (r.methodOf name).1.IsWellTyped :=
    Keyed.getOrAdd_value h.methods (isWellTyped_fresh name)
  refine hpresent.after ?_
  intro changed hchanged
  obtain ⟨descriptor, hdescriptor, rfl⟩ := map_eq_ok.mp hchanged
  exact hpresent.withMethods (Keyed.forall_value_put hpresent.methods (hchange _ _ hfound hdescriptor))

end

/-! ### Methods after a change -/

section

variable {m changed : MethodDescriptor Value}

theorem forall_of_takeListOf {α : Type} {take : Value → Checked α} {P : Value → Prop} {v : Value}
    {items : List Value} (htake : ∀ item a, take item = pure a → P item)
    (h : Schema.takeListOf .values take v = pure items) : ∀ item ∈ items, P item := by
  unfold Schema.takeListOf at h
  split at h
  · obtain ⟨read, hread, rfl⟩ := (Checked.map_eq_pure _ _ _).mp h
    intro item hitem
    obtain ⟨a, ha⟩ := Schema.exists_readItems.mp ⟨read, hread⟩ item hitem
    exact htake item a ha
  · exact absurd h (Checked.bad_ne_pure _ _ _)

theorem isText_of_takeText {v : Value} {s : String} (h : Schema.takeText .values v = pure s) :
    v.IsText :=
  ⟨s, (Schema.readText_eq_pure _ _).mp h⟩

theorem isMapping_of_takeMapping {v : Value} {fields : Keyed String Value}
    (h : Schema.takeMapping .values v = pure fields) : v.IsMapping := by
  rw [Schema.takeMapping_values] at h
  cases v with
  | object given => exact ⟨given, rfl⟩
  | _ => exact absurd h (Checked.bad_ne_pure _ _ _)

/-- What is assigned is checked, so that nothing has to be known of it before. -/
theorem MethodDescriptor.IsWellTyped.assign (hm : m.IsWellTyped) {a : MethodAttribute} {v : Value}
    (h : m.assign .values a v = pure changed) : changed.IsWellTyped := by
  cases a with
  | modifiers =>
    obtain ⟨items, hitems, rfl⟩ := (Checked.map_eq_pure _ _ _).mp h
    exact ⟨forall_of_takeListOf (fun _ _ => isText_of_takeText) hitems, hm.params⟩
  | params =>
    obtain ⟨items, hitems, rfl⟩ := (Checked.map_eq_pure _ _ _).mp h
    exact ⟨hm.modifiers, forall_of_takeListOf (fun _ _ => isMapping_of_takeMapping) hitems⟩
  | _ =>
    obtain ⟨x, -, rfl⟩ := (Checked.map_eq_pure _ _ _).mp h
    exact ⟨hm.modifiers, hm.params⟩

theorem attributeName_eq_ok {v : Value} {name : String} (h : attributeName v = .ok name) :
    v = .text name := by
  cases v with
  | text s => exact congrArg Value.text (Except.ok.inj h)
  | _ => cases h

theorem MethodDescriptor.IsWellTyped.assignMethod (hm : m.IsWellTyped) {a : Assignment Value}
    (h : assignMethod .values m a = .ok changed) : changed.IsWellTyped := by
  obtain ⟨name, -, hassign⟩ := bind_eq_ok.mp h
  split at hassign
  · have hpure := (Checked.result_eq_ok _ _).mp hassign
    exact hm.assign ((Checked.under_eq_pure _ _ _).mp hpure)
  · split at hassign
    · exact Except.ok.inj hassign ▸ hm
    · cases hassign

theorem MethodAttribute.label_of_ofLabel? {label : String} {a : MethodAttribute}
    (h : ofLabel? label = some a) : a.label = label := by
  have hfound := List.find?_some h
  exact eq_of_beq hfound

theorem MethodDescriptor.IsWellTyped.appendToList (hm : m.IsWellTyped) {list v : Value}
    (hv : (list = .text "modifiers" → v.IsText) ∧ (list = .text "params" → v.IsMapping))
    (h : appendToList .values m list v = .ok changed) : changed.IsWellTyped := by
  obtain ⟨name, hname, happend⟩ := bind_eq_ok.mp h
  obtain rfl := attributeName_eq_ok hname
  split at happend
  · rename_i longer hlonger
    obtain ⟨which, hwhich, hlist⟩ := Option.bind_eq_some_iff.mp hlonger
    obtain rfl := MethodAttribute.label_of_ofLabel? hwhich
    obtain rfl := Except.ok.inj happend
    cases which with
    | modifiers =>
      obtain rfl := Option.some.inj hlist
      refine ⟨?_, hm.params⟩
      exact List.forall_mem_append.mpr ⟨hm.modifiers, List.forall_mem_singleton.mpr (hv.1 rfl)⟩
    | params =>
      obtain rfl := Option.some.inj hlist
      refine ⟨hm.modifiers, ?_⟩
      exact List.forall_mem_append.mpr ⟨hm.params, List.forall_mem_singleton.mpr (hv.2 rfl)⟩
    | _ => cases hlist
  · cases happend

end

/-! ### Steps and runs -/

theorem IsWellTyped.run {r : Record Value} (hr : r.IsWellTyped) {s : Step Value}
    (hs : s.IsWellTyped) : (r.run s).1.IsWellTyped := by
  unfold Record.run runWith
  cases s with
  | slot name v =>
    refine hr.after ?_
    intro changed hchanged
    obtain ⟨found, hfound, hassign⟩ := bind_eq_ok.mp hchanged
    obtain rfl := attributeName_eq_ok hfound
    exact hr.assignSlot ⟨fun h => hs.1 (h ▸ rfl), fun h => hs.2 (h ▸ rfl)⟩ hassign
  | entry slot name assignment =>
    obtain ⟨s, rfl⟩ := hs
    exact hr.changeEntry ⟨s, rfl⟩ _
  | method name assignment =>
    dsimp only
    split
    · refine hr.changeMethod ?_
      intro m changed hm hchanged
      cases assignment with
      | some a => exact hm.assignMethod hchanged
      | none => exact Except.ok.inj hchanged ▸ hm
    · exact hr
  | appendToMethod name list v =>
    dsimp only
    split
    · refine hr.changeMethod ?_
      intro m changed hm hchanged
      exact hm.appendToList hs hchanged
    · exact hr
  | compose source =>
    exact { hr with
      composes := List.forall_mem_append.mpr ⟨hr.composes, List.forall_mem_singleton.mpr hs⟩ }
  | set key v =>
    refine hr.after ?_
    intro changed hchanged
    obtain ⟨found, -, rfl⟩ := map_eq_ok.mp hchanged
    exact hr.withExtra _
  | get key default => exact hr
  | appendToExtra key v =>
    refine hr.after ?_
    intro changed hchanged
    obtain ⟨found, -, hgrown⟩ := bind_eq_ok.mp hchanged
    split at hgrown
    · exact Except.ok.inj hgrown ▸ hr.withExtra _
    · cases hgrown
  | names => exact hr
  | raise kind message => exact hr

theorem IsWellTyped.runAll {r : Record Value} (hr : r.IsWellTyped) {steps : List (Step Value)}
    (hsteps : ∀ s ∈ steps, s.IsWellTyped) : (r.runAll steps).IsWellTyped := by
  induction steps generalizing r with
  | nil => exact hr
  | cons s rest ih =>
    have hs : s.IsWellTyped := hsteps s (List.mem_cons_self ..)
    exact ih (hr.run hs) fun t ht => hsteps t (List.mem_cons_of_mem _ ht)

end Record

end ComponentAtlas
