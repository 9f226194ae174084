import ComponentAtlas.Proofs.Record.Changes

/-!
# The effects of steps

Each kind of step has one place in a record where it has its effect; all else
stays as it is. What a failing step leaves behind is a fresh descriptor at most.
-/

namespace ComponentAtlas.Record

/-! ### Effects -/

/-- The method of one name is changed in one attribute at most, and nothing else is. -/
def ChangesMethod (r changed : Record Value) (name : String) (a? : Option MethodAttribute) : Prop :=
  ∃ methods, changed = { r with methods := methods } ∧
    Keyed.ChangedAt name { name := name } (AgreesBut MethodDescriptor.get a?) r.methods methods

/-- The entry of one key in one slot is changed in one attribute at most, and nothing else is. -/
def ChangesEntry (r changed : Record Value) (slot : EntrySlot) (key : Key)
    (a? : Option PropAttribute) : Prop :=
  ∃ entries, changed = r.withEntries slot entries ∧
    Keyed.ChangedAt key {} (AgreesBut PropDescriptor.get a?) (r.entries slot) entries

/-- How a step may change a record, whether it succeeds or not. -/
def Step.Effect (r changed : Record Value) : Step Value → Prop
  | .slot name v =>
    changed =
      if name = .text "description" then { r with description := v }
      else if name = .text "display_name" then { r with displayName := v }
      else r
  | .entry kind name assignment =>
    match name.key? with
    | some key => ChangesEntry r changed kind key (assignment.bind fun a => propAttribute? a.1)
    | none => changed = r
  | .method name assignment =>
    match name.asText? with
    | some name => ChangesMethod r changed name (assignment.bind fun a => methodAttribute? a.1)
    | none => changed = r
  | .appendToMethod name list _ =>
    match name.asText? with
    | some name => ChangesMethod r changed name (methodAttribute? list)
    | none => changed = r
  | .compose source => changed = { r with composes := r.composes ++ [source] }
  | .set key v =>
    changed =
      match key.key? with
      | some key => { r with extra := r.extra.put key v }
      | none => r
  | .appendToExtra key _ =>
    match key.key? with
    | some key => ∃ extra, changed = { r with extra := extra } ∧ extra.keys = r.extra.keys ∧
        ∀ other, (other == key) = false → extra.get? other = r.extra.get? other
    | none => changed = r
  | .get .. | .names | .raise .. => changed = r

/-! ### Steps on descriptors -/

section

variable {β ι : Type} {get : β → ι → Value} {a? : Option ι} {change : β → Except Failure β} {d : β}

theorem settled_agrees (h : ∀ changed, change d = .ok changed → AgreesBut get a? d changed) :
    AgreesBut get a? d (settled change d) := by
  cases hchange : change d with
  | error failure =>
    rw [settled_of_error hchange]
    exact .refl get a? d
  | ok changed =>
    rw [settled_of_ok hchange]
    exact h changed hchange

end

/-- What becomes of a descriptor that a step asks for, to assign something to it or not. -/
def assigning {β : Type} (assign : β → Assignment Value → Except Failure β)
    (assignment : Option (Assignment Value)) (d : β) : Except Failure β :=
  match assignment with
  | some a => assign d a
  | none => .ok d

theorem IsAssigner.agrees {β ι : Type} {get : β → ι → Value} {attribute? : Value → Option ι}
    {kept? : ι → Value → Option Value} {assign : β → Assignment Value → Except Failure β}
    (h : IsAssigner get attribute? kept? assign) {assignment : Option (Assignment Value)}
    {d changed : β} (hassign : assigning assign assignment d = .ok changed) :
    AgreesBut get (assignment.bind fun a => attribute? a.1) d changed := by
  cases assignment with
  | none =>
    obtain rfl := Except.ok.inj hassign
    exact .refl get none d
  | some a =>
    rw [Option.bind_some]
    cases hname : attribute? a.1 with
    | some attr => exact (h.known d hname).agrees changed hassign
    | none =>
      rw [h.unknown hname hassign]
      exact .refl get none d

variable (r : Record Value)

theorem changesEntry_changeEntry (slot : EntrySlot) (key : Key) {a? : Option PropAttribute}
    {change : PropDescriptor Value → Except Failure (PropDescriptor Value)}
    (h : ∀ d changed, change d = .ok changed → AgreesBut PropDescriptor.get a? d changed) :
    ChangesEntry r (r.changeEntry slot key change).1 slot key a? := by
  rw [changeEntry_eq]
  refine ⟨_, rfl, ?_⟩
  apply Keyed.changedAt_put
  exact settled_agrees (h _)

theorem changesMethod_changeMethod (name : String) {a? : Option MethodAttribute}
    {change : MethodDescriptor Value → Except Failure (MethodDescriptor Value)}
    (h : ∀ m changed, change m = .ok changed → AgreesBut MethodDescriptor.get a? m changed) :
    ChangesMethod r (r.changeMethod name change).1 name a? := by
  rw [changeMethod_eq]
  refine ⟨_, rfl, ?_⟩
  apply Keyed.changedAt_put
  exact settled_agrees (h _)

theorem run_entry (slot : EntrySlot) (name : Value) (assignment : Option (Assignment Value)) :
    r.run (.entry slot name assignment) =
      match name.key? with
      | some key => r.changeEntry slot key (assigning (assignEntry .values) assignment)
      | none => (r, .error (.misuse .unsuitable)) := by
  simp only [Record.run, runWith, View.values, id, keyOf]
  cases name.key? with
  | none => rfl
  | some key => cases assignment <;> rfl

theorem run_method (name : String) (assignment : Option (Assignment Value)) :
    r.run (.method (.text name) assignment) =
      r.changeMethod name (assigning (assignMethod .values) assignment) := by
  cases assignment <;> rfl

theorem run_appendToMethod (name : String) (list v : Value) :
    r.run (.appendToMethod (.text name) list v) =
      r.changeMethod name fun m => appendToList .values m list v := rfl

/-- Two slots are assigned as they are; other names are refused. -/
theorem run_slot (name v : Value) :
    (r.run (.slot name v)).1 =
        (if name = .text "description" then { r with description := v }
        else if name = .text "display_name" then { r with displayName := v }
        else r) ∧
      ((r.run (.slot name v)).2 = .ok () ↔
        name = .text "description" ∨ name = .text "display_name") := by
  cases name with
  | text label =>
    simp only [Value.text.injEq]
    show (r.after (r.assignSlot label v)).1 = _ ∧ ((r.after (r.assignSlot label v)).2 = _ ↔ _)
    unfold assignSlot
    split
    · next h => exact ⟨rfl, iff_of_true rfl (.inl h)⟩
    · next hdescription =>
      split
      · next h => exact ⟨rfl, iff_of_true rfl (.inr h)⟩
      · next hname =>
        refine ⟨rfl, iff_of_false (fun h => nomatch h) ?_⟩
        rintro (h | h)
        · exact hdescription h
        · exact hname h
  | _ => exact ⟨rfl, iff_of_false (fun h => nomatch h) (by simp)⟩

theorem run_set (key v : Value) :
    r.run (.set key v) =
      match key.key? with
      | some key => ({ r with extra := r.extra.put key v }, .ok ())
      | none => (r, .error (.misuse .unsuitable)) := by
  show r.after ((keyOf key).map fun key => r.set key v) = _
  unfold keyOf
  cases key.key? <;> rfl

/-- A list grows where it stands; nothing else can be appended to. -/
theorem run_appendToExtra (key v : Value) :
    (∃ found items, key.key? = some found ∧ r.extra.get? found = some (.array items) ∧
      r.run (.appendToExtra key v) =
        ({ r with extra := r.extra.put found (.array (items ++ [v])) }, .ok ())) ∨
    ∃ failure, r.run (.appendToExtra key v) = (r, .error failure) := by
  simp only [Record.run, runWith, View.values, id, keyOf, bind, Except.bind]
  cases key.key? with
  | none => exact .inr ⟨_, rfl⟩
  | some found =>
    dsimp only
    cases hheld : r.extra.get? found with
    | none => exact .inr ⟨_, rfl⟩
    | some held =>
      cases held with
      | array items => exact .inl ⟨found, items, rfl, hheld, rfl⟩
      | _ => exact .inr ⟨_, rfl⟩

/-! ### Any step -/

/-- A step has its effect in its own place, and nowhere else. -/
theorem effect_run (s : Step Value) : s.Effect r (r.run s).1 := by
  cases s with
  | slot name v => exact (run_slot r name v).1
  | entry slot name assignment =>
    simp only [Step.Effect, run_entry]
    cases name.key? with
    | none => rfl
    | some key => exact changesEntry_changeEntry r slot key fun _ _ => isAssigner_assignEntry.agrees
  | method name assignment =>
    cases name with
    | text name =>
      simp only [Step.Effect, run_method]
      exact changesMethod_changeMethod r name fun _ _ => isAssigner_assignMethod.agrees
    | _ => rfl
  | appendToMethod name list v =>
    cases name with
    | text name =>
      simp only [Step.Effect, run_appendToMethod]
      apply changesMethod_changeMethod r name
      intro m changed hchanged
      obtain ⟨a, hname, -, hagrees⟩ := appendToList_agrees hchanged
      rw [hname]
      exact hagrees
    | _ => rfl
  | compose source => rfl
  | set key v =>
    simp only [Step.Effect, run_set]
    cases key.key? <;> rfl
  | get key default => rfl
  | appendToExtra key v =>
    simp only [Step.Effect]
    rcases run_appendToExtra r key v with ⟨found, items, hkey, hheld, hrun⟩ | ⟨failure, hrun⟩
    · rw [hkey, hrun]
      refine ⟨_, rfl, ?_, ?_⟩
      · exact Keyed.keys_put_of_get? hheld _
      · intro other hother
        rw [Keyed.get?_put, if_neg (by simp [hother])]
    · rw [hrun]
      cases key.key? with
      | none => rfl
      | some found => exact ⟨_, rfl, rfl, fun _ _ => rfl⟩
  | names => rfl
  | raise kind message => rfl

/-! ### Parts that stay as they are -/

/-- The parts of a record that steps are about. -/
inductive Part where
  | description
  | displayName
  | entries (slot : EntrySlot)
  | methods
  | composes
  | extra
deriving DecidableEq, Repr

def SameIn (r changed : Record Value) : Part → Prop
  | .description => changed.description = r.description
  | .displayName => changed.displayName = r.displayName
  | .entries slot => changed.entries slot = r.entries slot
  | .methods => changed.methods = r.methods
  | .composes => changed.composes = r.composes
  | .extra => changed.extra = r.extra

/-- The part in which a step has its effect. -/
def Step.part? : Step Value → Option Part
  | .slot name _ =>
    if name = .text "description" then some .description
    else if name = .text "display_name" then some .displayName
    else none
  | .entry kind _ _ => some (.entries kind)
  | .method .. | .appendToMethod .. => some .methods
  | .compose _ => some .composes
  | .set .. | .appendToExtra .. => some .extra
  | .get .. | .names | .raise .. => none

theorem SameIn.refl (r : Record Value) (part : Part) : SameIn r r part := by
  cases part <;> rfl

theorem sameIn_withEntries {slot : EntrySlot} {part : Part} (h : part ≠ .entries slot)
    (entries : Keyed Key (PropDescriptor Value)) : SameIn r (r.withEntries slot entries) part := by
  cases part with
  | entries other =>
    have hother : other ≠ slot := fun heq => h (congrArg Part.entries heq)
    show (r.withEntries slot entries).entries other = r.entries other
    rw [entries_withEntries, if_neg hother]
  | _ => cases slot <;> rfl

theorem sameIn_withMethods {part : Part} (h : part ≠ .methods)
    (methods : Keyed String (MethodDescriptor Value)) :
    SameIn r { r with methods := methods } part := by
  cases part with
  | methods => exact absurd rfl h
  | entries slot => cases slot <;> rfl
  | _ => rfl

theorem sameIn_withExtra {part : Part} (h : part ≠ .extra) (extra : Keyed Key Value) :
    SameIn r { r with extra := extra } part := by
  cases part with
  | extra => exact absurd rfl h
  | entries slot => cases slot <;> rfl
  | _ => rfl

theorem ChangesEntry.sameIn {r changed : Record Value} {slot : EntrySlot} {key : Key}
    {a? : Option PropAttribute} (h : ChangesEntry r changed slot key a?) {part : Part}
    (hpart : part ≠ .entries slot) : SameIn r changed part := by
  obtain ⟨entries, rfl, -⟩ := h
  exact sameIn_withEntries r hpart entries

theorem ChangesMethod.sameIn {r changed : Record Value} {name : String}
    {a? : Option MethodAttribute} (h : ChangesMethod r changed name a?) {part : Part}
    (hpart : part ≠ .methods) : SameIn r changed part := by
  obtain ⟨methods, rfl, -⟩ := h
  exact sameIn_withMethods r hpart methods

/-- A step changes no part but the one in which it has its effect. -/
theorem sameIn_run {s : Step Value} {part : Part} (h : s.part? ≠ some part) :
    SameIn r (r.run s).1 part := by
  have heffect := effect_run r s
  have hpart (own : Part) (hown : s.part? = some own) : part ≠ own := by
    rintro rfl
    exact h hown
  cases s with
  | slot name v =>
    rw [(run_slot r name v).1]
    simp only [Step.part?] at h
    split
    · next hname =>
      rw [if_pos hname] at h
      cases part with
      | description => exact absurd rfl h
      | entries slot => cases slot <;> rfl
      | _ => rfl
    · next hdescription =>
      rw [if_neg hdescription] at h
      split
      · next hname =>
        rw [if_pos hname] at h
        cases part with
        | displayName => exact absurd rfl h
        | entries slot => cases slot <;> rfl
        | _ => rfl
      · exact .refl r part
  | entry kind name assignment =>
    simp only [Step.Effect] at heffect
    split at heffect
    · exact heffect.sameIn (hpart _ rfl)
    · rw [heffect]
      exact .refl r part
  | method name assignment =>
    simp only [Step.Effect] at heffect
    split at heffect
    · exact heffect.sameIn (hpart _ rfl)
    · rw [heffect]
      exact .refl r part
  | appendToMethod name list v =>
    simp only [Step.Effect] at heffect
    split at heffect
    · exact heffect.sameIn (hpart _ rfl)
    · rw [heffect]
      exact .refl r part
  | compose source =>
    have hcomposes := hpart .composes rfl
    cases part with
    | composes => exact absurd rfl hcomposes
    | entries slot => cases slot <;> rfl
    | _ => rfl
  | set key v =>
    rw [run_set]
    cases key.key? with
    | none => exact .refl r part
    | some found => exact sameIn_withExtra r (hpart _ rfl) _
  | appendToExtra key v =>
    rcases run_appendToExtra r key v with ⟨found, items, -, -, hrun⟩ | ⟨failure, hrun⟩
    · rw [hrun]
      exact sameIn_withExtra r (hpart _ rfl) _
    · rw [hrun]
      exact .refl r part
  | get key default => exact .refl r part
  | names => exact .refl r part
  | raise kind message => exact .refl r part

/-! ### What failing steps leave -/

/--
What a step that fails may leave behind: nothing, or the descriptor that it asked
for, if there was none, with its defaults.
-/
inductive Step.Residue (r : Record Value) : Step Value → Record Value → Prop
  | nothing (s : Step Value) : Residue r s r
  | entry {slot : EntrySlot} {name : Value} {key : Key} {a : Assignment Value}
    (named : name.key? = some key) (absent : (r.entries slot).get? key = none) :
    Residue r (.entry slot name (some a))
      (r.withEntries slot (r.entries slot ++ [(key, ({} : PropDescriptor Value))]))
  | method {name : String} {a : Assignment Value} (absent : r.methods.get? name = none) :
    Residue r (.method (.text name) (some a))
      { r with methods := r.methods ++ [(name, { name := name })] }
  | append {name : String} {list v : Value} (absent : r.methods.get? name = none)
    (unlisted : ∀ a, methodAttribute? list = some a → ¬ a.IsList) :
    Residue r (.appendToMethod (.text name) list v)
      { r with methods := r.methods ++ [(name, { name := name })] }

theorem withEntries_entries (slot : EntrySlot) : r.withEntries slot (r.entries slot) = r := by
  cases slot <;> rfl

theorem residue_changeEntry {slot : EntrySlot} {key : Key}
    {change : PropDescriptor Value → Except Failure (PropDescriptor Value)} {failure : Failure}
    (h : (r.changeEntry slot key change).2 = .error failure) :
    (r.changeEntry slot key change).1 = r ∨ (r.entries slot).get? key = none ∧
      (r.changeEntry slot key change).1 =
        r.withEntries slot (r.entries slot ++ [(key, ({} : PropDescriptor Value))]) := by
  rw [changeEntry_eq] at h ⊢
  cases hchange : change (r.entryAt slot key) with
  | ok changed =>
    rw [hchange] at h
    cases h
  | error found =>
    rw [settled_of_error hchange]
    rcases Keyed.put_getD (r.entries slot) key {} with hsame | ⟨habsent, hfresh⟩
    · left
      rw [entryAt, hsame, withEntries_entries]
    · right
      rw [entryAt, hfresh]
      exact ⟨habsent, rfl⟩

theorem residue_changeMethod {name : String}
    {change : MethodDescriptor Value → Except Failure (MethodDescriptor Value)} {failure : Failure}
    (h : (r.changeMethod name change).2 = .error failure) :
    (r.changeMethod name change).1 = r ∨ r.methods.get? name = none ∧
      (r.changeMethod name change).1 =
        { r with methods := r.methods ++ [(name, { name := name })] } := by
  rw [changeMethod_eq] at h ⊢
  cases hchange : change (r.methodAt name) with
  | ok changed =>
    rw [hchange] at h
    cases h
  | error found =>
    rw [settled_of_error hchange]
    rcases Keyed.put_getD r.methods name { name := name } with hsame | ⟨habsent, hfresh⟩
    · left
      rw [methodAt, hsame]
    · right
      rw [methodAt, hfresh]
      exact ⟨habsent, rfl⟩

theorem residue_run (s : Step Value) {failure : Failure} (h : (r.run s).2 = .error failure) :
    s.Residue r (r.run s).1 := by
  cases s with
  | slot name v =>
    obtain ⟨hchanged, hok⟩ := run_slot r name v
    have hrefused : ¬ (name = .text "description" ∨ name = .text "display_name") := by
      rw [← hok, h]
      exact fun h => nomatch h
    rw [hchanged, if_neg fun hname => hrefused (.inl hname),
      if_neg fun hname => hrefused (.inr hname)]
    exact .nothing _
  | entry slot name assignment =>
    rw [run_entry] at h ⊢
    cases hkey : name.key? with
    | none => exact .nothing _
    | some key =>
      rw [hkey] at h
      cases assignment with
      | none =>
        -- Asking for an entry does not fail.
        dsimp only at h
        rw [changeEntry_eq] at h
        cases h
      | some a =>
        rcases residue_changeEntry r h with hsame | ⟨habsent, hfresh⟩
        · simp only [hsame]
          exact .nothing _
        · simp only [hfresh]
          exact .entry hkey habsent
  | method name assignment =>
    cases name with
    | text name =>
      rw [run_method] at h ⊢
      cases assignment with
      | none =>
        rw [changeMethod_eq] at h
        cases h
      | some a =>
        rcases residue_changeMethod r h with hsame | ⟨habsent, hfresh⟩
        · rw [hsame]
          exact .nothing _
        · rw [hfresh]
          exact .method habsent
    | _ => exact .nothing _
  | appendToMethod name list v =>
    cases name with
    | text name =>
      rw [run_appendToMethod] at h ⊢
      rcases residue_changeMethod r h with hsame | ⟨habsent, hfresh⟩
      · rw [hsame]
        exact .nothing _
      · rw [hfresh]
        apply Step.Residue.append habsent
        -- Appending is unchecked, so it can only fail for want of a list.
        intro a hlist ha
        rw [changeMethod_eq] at h
        obtain ⟨changed, hchanged⟩ := appendToList_ok (m := r.methodAt name) hlist ha v
        simp only [hchanged] at h
        cases h
    | _ => exact .nothing _
  | compose source => cases h
  | set key v =>
    rw [run_set] at h ⊢
    cases hkey : key.key? with
    | none => exact .nothing _
    | some found =>
      rw [hkey] at h
      cases h
  | get key default => exact .nothing _
  | appendToExtra key v =>
    rcases run_appendToExtra r key v with ⟨found, items, -, -, hrun⟩ | ⟨failure, hrun⟩
    · rw [hrun] at h
      cases h
    · rw [hrun]
      exact .nothing _
  | names => cases h
  | raise kind message => exact .nothing _

end ComponentAtlas.Record
