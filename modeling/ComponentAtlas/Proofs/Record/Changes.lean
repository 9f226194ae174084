import ComponentAtlas.Proofs.Data.Entries
import ComponentAtlas.Proofs.Record.WellTyped

/-!
# What a step changes

A step on a descriptor changes one entry of one slot, and of a descriptor that
is there at most the attribute that is assigned. A step that fails changes
nothing, but the descriptor which it asked for may be new. Whether an assignment
fails depends on the attribute and the value only.
-/

namespace ComponentAtlas.Record

/-! ### What is kept of a value -/

def keptText? : Value → Option Value
  | .text s => some (.text s)
  | _ => none

def keptMapping? : Value → Option Value
  | .object fields => some (.object fields)
  | _ => none

/-- Words and numbers that mean yes or no are kept as truth values. -/
def keptTruth? (v : Value) : Option Value := (Schema.readTruth v).result.toOption.map .bool

/-- Null stands for the absence of a value. -/
def keptOptional? (kept? : Value → Option Value) : Value → Option Value
  | .null => some .null
  | v => kept? v

def keptList? (kept? : Value → Option Value) : Value → Option Value
  | .array items => if items.all fun v => (kept? v).isSome then some (.array items) else none
  | _ => none

/-- What is kept of a value that is assigned to the attribute, if it is accepted. -/
def PropAttribute.kept? : PropAttribute → Value → Option Value
  | .type | .flowType | .tsType | .defaultValue => keptOptional? keptMapping?
  | .required => keptOptional? keptTruth?
  | .description => keptOptional? keptText?

/-- What is kept of a value that is assigned to the attribute, if it is accepted. -/
def MethodAttribute.kept? : MethodAttribute → Value → Option Value
  | .name => keptText?
  | .docblock | .description => keptOptional? keptText?
  | .modifiers => keptList? keptText?
  | .params => keptList? keptMapping?
  | .returns => keptOptional? keptMapping?

/-- A value is kept exactly when it can be read, and then as what it is read as. -/
def Keeps {α : Type} (read : Value → Checked α) (write : α → Value)
    (kept? : Value → Option Value) : Prop :=
  ∀ v w, kept? v = some w ↔ ∃ a, read v = pure a ∧ write a = w

theorem keeps_text : Keeps (Schema.takeText .values) .text keptText? := by
  intro v w
  show _ ↔ ∃ s, Schema.readText v = pure s ∧ Value.text s = w
  simp only [Schema.readText_eq_pure]
  cases v with
  | text s => simp [keptText?]
  | _ => simp [keptText?]

theorem keeps_mapping : Keeps (Schema.takeMapping .values) .object keptMapping? := by
  intro v w
  simp only [Schema.takeMapping_values]
  cases v with
  | object fields => simp [keptMapping?, Schema.readMapping, Checked.pure_eq_pure]
  | _ => simp [keptMapping?, Schema.readMapping, Checked.bad_ne_pure]

theorem keeps_truth : Keeps (Schema.takeTruth .values) .bool keptTruth? := by
  intro v w
  show _ ↔ ∃ b, Schema.readTruth v = pure b ∧ Value.bool b = w
  unfold keptTruth?
  simp only [Option.map_eq_some_iff, ← Checked.result_eq_ok]
  cases (Schema.readTruth v).result with
  | ok b => simp [Except.toOption]
  | error failure => simp [Except.toOption]

theorem Keeps.optional {α : Type} {take : Value → Checked α} {write : α → Value}
    {kept? : Value → Option Value} (h : Keeps take write kept?) :
    Keeps (Schema.takeOptional .values take) (optionValue write) (keptOptional? kept?) := by
  intro v w
  have hread : v ≠ .null → Schema.takeOptional .values take v = some <$> take v ∧
      keptOptional? kept? v = kept? v := by
    intro hv
    cases v with
    | null => exact absurd rfl hv
    | _ => exact ⟨rfl, rfl⟩
  by_cases hv : v = .null
  · subst hv
    show some Value.null = some w ↔ ∃ a, pure none = pure a ∧ optionValue write a = w
    simp [Checked.pure_eq_pure, optionValue]
  · rw [(hread hv).1, (hread hv).2, h v w]
    simp only [Checked.map_eq_pure]
    constructor
    · rintro ⟨a, ha, rfl⟩
      exact ⟨some a, ⟨a, ha, rfl⟩, rfl⟩
    · rintro ⟨-, ⟨a, ha, rfl⟩, rfl⟩
      exact ⟨a, ha, rfl⟩

theorem Keeps.isSome_iff {α : Type} {read : Value → Checked α} {write : α → Value}
    {kept? : Value → Option Value} (h : Keeps read write kept?) (v : Value) :
    (kept? v).isSome = true ↔ ∃ a, read v = pure a := by
  rw [Option.isSome_iff_exists]
  constructor
  · rintro ⟨w, hw⟩
    obtain ⟨a, ha, -⟩ := (h v w).mp hw
    exact ⟨a, ha⟩
  · rintro ⟨a, ha⟩
    exact ⟨write a, (h v _).mpr ⟨a, ha, rfl⟩⟩

theorem Keeps.list {α : Type} {take : Value → Checked α} {write : α → Value}
    {kept? : Value → Option Value} (h : Keeps take write kept?) :
    Keeps (Schema.takeListOf .values take) .array (keptList? kept?) := by
  intro v w
  cases v with
  | array items =>
    have hitems : (items.all fun v => (kept? v).isSome) = true ↔
        ∃ found, Schema.readItems take items = pure found := by
      rw [Schema.exists_readItems, List.all_eq_true]
      simp only [h.isSome_iff]
    show (if (items.all fun v => (kept? v).isSome) = true then some (Value.array items) else none) = _ ↔
      ∃ kept, (fun _ => items) <$> Schema.readItems take items = pure kept ∧ Value.array kept = w
    by_cases hall : (items.all fun v => (kept? v).isSome) = true
    · obtain ⟨found, hfound⟩ := hitems.mp hall
      rw [if_pos hall, hfound]
      constructor
      · intro hkept
        exact ⟨items, rfl, Option.some.inj hkept⟩
      · rintro ⟨kept, hkept, rfl⟩
        obtain rfl : items = kept := (Checked.pure_eq_pure items kept).mp hkept
        rfl
    · rw [if_neg hall]
      constructor
      · intro hkept
        cases hkept
      · rintro ⟨kept, hkept, -⟩
        obtain ⟨found, hfound, -⟩ := (Checked.map_eq_pure _ _ _).mp hkept
        exact absurd (hitems.mpr ⟨found, hfound⟩) hall
  | _ => simp [keptList?, Schema.takeListOf, View.values, Checked.bad_ne_pure]

/-! ### Assignments to descriptors -/

section

variable {β ι : Type} (get : β → ι → Value)

/-- The descriptors have the same attributes, but for the one that is given, if any. -/
def AgreesBut (a? : Option ι) (d changed : β) : Prop := ∀ b, a? ≠ some b → get changed b = get d b

theorem AgreesBut.refl (a? : Option ι) (d : β) : AgreesBut get a? d d := fun _ _ => rfl

/--
An assignment succeeds exactly when something is kept of the value, and then the
attribute shows what is kept and the others are as they were.
-/
structure IsAssignment (d : β) (a : ι) (kept : Option Value) (assigned : Except Failure β) :
    Prop where
  done : (∃ changed, assigned = .ok changed) ↔ kept.isSome = true
  shown : ∀ changed, assigned = .ok changed → kept = some (get changed a)
  agrees : ∀ changed, assigned = .ok changed → AgreesBut get (some a) d changed

variable {get}

theorem isAssignment_of_keeps {α : Type} {read : Value → Checked α} {write : α → Value}
    {kept? : Value → Option Value} (h : Keeps read write kept?) {d : β} {a : ι} {set : α → β}
    (hget : ∀ x, get (set x) a = write x) (hothers : ∀ x b, b ≠ a → get (set x) b = get d b)
    (segment : Segment) (v : Value) :
    IsAssignment get d a (kept? v) ((set <$> read v).under segment).result := by
  have hassigned (changed : β) : ((set <$> read v).under segment).result = .ok changed ↔
      ∃ x, read v = pure x ∧ set x = changed := by
    rw [Checked.result_eq_ok, Checked.under_eq_pure, Checked.map_eq_pure]
  refine ⟨?done, ?shown, ?agrees⟩
  case done =>
    rw [h.isSome_iff]
    simp only [hassigned]
    constructor
    · rintro ⟨-, x, hx, -⟩
      exact ⟨x, hx⟩
    · rintro ⟨x, hx⟩
      exact ⟨set x, x, hx, rfl⟩
  case shown =>
    intro changed hchanged
    obtain ⟨x, hx, rfl⟩ := (hassigned changed).mp hchanged
    apply (h v _).mpr
    exact ⟨x, hx, (hget x).symm⟩
  case agrees =>
    intro changed hchanged
    obtain ⟨x, -, rfl⟩ := (hassigned changed).mp hchanged
    intro b hb
    apply hothers
    intro heq
    exact hb (congrArg some heq.symm)

end

theorem PropDescriptor.isAssignment (d : PropDescriptor Value) (a : PropAttribute)
    (segment : Segment) (v : Value) :
    IsAssignment get d a (a.kept? v) ((d.assign .values a v).under segment).result := by
  cases a with
  | required =>
    apply isAssignment_of_keeps keeps_truth.optional (fun _ => rfl)
    intro x b hb
    cases b <;> first | rfl | exact absurd rfl hb
  | description =>
    apply isAssignment_of_keeps keeps_text.optional (fun _ => rfl)
    intro x b hb
    cases b <;> first | rfl | exact absurd rfl hb
  | _ =>
    apply isAssignment_of_keeps keeps_mapping.optional (fun _ => rfl)
    intro x b hb
    cases b <;> first | rfl | exact absurd rfl hb

theorem MethodDescriptor.isAssignment (m : MethodDescriptor Value) (a : MethodAttribute)
    (segment : Segment) (v : Value) :
    IsAssignment get m a (a.kept? v) ((m.assign .values a v).under segment).result := by
  cases a with
  | name =>
    apply isAssignment_of_keeps keeps_text (fun _ => rfl)
    intro x b hb
    cases b <;> first | rfl | exact absurd rfl hb
  | modifiers =>
    apply isAssignment_of_keeps keeps_text.list (fun _ => rfl)
    intro x b hb
    cases b <;> first | rfl | exact absurd rfl hb
  | params =>
    apply isAssignment_of_keeps keeps_mapping.list (fun _ => rfl)
    intro x b hb
    cases b <;> first | rfl | exact absurd rfl hb
  | returns =>
    apply isAssignment_of_keeps keeps_mapping.optional (fun _ => rfl)
    intro x b hb
    cases b <;> first | rfl | exact absurd rfl hb
  | _ =>
    apply isAssignment_of_keeps keeps_text.optional (fun _ => rfl)
    intro x b hb
    cases b <;> first | rfl | exact absurd rfl hb

/-! ### Assignments by name -/

/-- The attribute that a name stands for; other names are refused, or stand for nothing. -/
def propAttribute? (name : Value) : Option PropAttribute :=
  name.asText?.bind PropAttribute.ofName?

def methodAttribute? (name : Value) : Option MethodAttribute :=
  name.asText?.bind MethodAttribute.ofLabel?

/--
What assigning does by name: an attribute that the name stands for is assigned,
and a name that stands for nothing changes nothing, if it is accepted at all.
-/
structure IsAssigner {β ι : Type} (get : β → ι → Value) (attribute? : Value → Option ι)
    (kept? : ι → Value → Option Value) (assign : β → Assignment Value → Except Failure β) :
    Prop where
  known : ∀ d {a : Assignment Value} {attr : ι}, attribute? a.1 = some attr →
    IsAssignment get d attr (kept? attr a.2) (assign d a)
  unknown : ∀ {d changed : β} {a : Assignment Value}, attribute? a.1 = none →
    assign d a = .ok changed → changed = d

theorem isAssigner_assignEntry :
    IsAssigner PropDescriptor.get propAttribute? PropAttribute.kept? (assignEntry .values) := by
  refine ⟨?known, ?unknown⟩
  case known =>
    rintro d ⟨name, v⟩ attr h
    cases name with
    | text label =>
      have hattr : PropAttribute.ofName? label = some attr := h
      have hassign : assignEntry .values d (.text label, v) =
          ((d.assign .values attr v).under (.name label)).result := by
        simp only [assignEntry, View.values, id, attributeName, hattr, bind, Except.bind]
      rw [hassign]
      exact d.isAssignment attr _ v
    | _ => cases h
  case unknown =>
    intro d changed a hname h
    obtain ⟨label, hlabel, hassign⟩ := bind_eq_ok.mp h
    have hattr : PropAttribute.ofName? label = none := by
      rwa [show a.1 = .text label from attributeName_eq_ok hlabel] at hname
    simp only [hattr] at hassign
    split at hassign
    · exact (Except.ok.inj hassign).symm
    · cases hassign

theorem isAssigner_assignMethod :
    IsAssigner MethodDescriptor.get methodAttribute? MethodAttribute.kept?
      (assignMethod .values) := by
  refine ⟨?known, ?unknown⟩
  case known =>
    rintro m ⟨name, v⟩ attr h
    cases name with
    | text label =>
      have hattr : MethodAttribute.ofLabel? label = some attr := h
      have hassign : assignMethod .values m (.text label, v) =
          ((m.assign .values attr v).under (.name label)).result := by
        simp only [assignMethod, View.values, id, attributeName, hattr, bind, Except.bind]
      rw [hassign]
      exact m.isAssignment attr _ v
    | _ => cases h
  case unknown =>
    intro m changed a hname h
    obtain ⟨label, hlabel, hassign⟩ := bind_eq_ok.mp h
    have hattr : MethodAttribute.ofLabel? label = none := by
      rwa [show a.1 = .text label from attributeName_eq_ok hlabel] at hname
    simp only [hattr] at hassign
    split at hassign
    · exact (Except.ok.inj hassign).symm
    · cases hassign

/-- The two attributes that can be appended to. -/
def MethodAttribute.IsList (a : MethodAttribute) : Prop := a = .modifiers ∨ a = .params

theorem appendToList_ok {m : MethodDescriptor Value} {list : Value} {a : MethodAttribute}
    (hlist : methodAttribute? list = some a) (ha : a.IsList) (v : Value) :
    ∃ changed, appendToList .values m list v = .ok changed := by
  cases list with
  | text label =>
    have hattr : MethodAttribute.ofLabel? label = some a := hlist
    unfold appendToList
    simp only [View.values, id, attributeName, hattr, bind, Except.bind, Option.bind]
    rcases ha with rfl | rfl
    · exact ⟨_, rfl⟩
    · exact ⟨_, rfl⟩
  | _ => cases hlist

theorem appendToList_agrees {m changed : MethodDescriptor Value} {list v : Value}
    (h : appendToList .values m list v = .ok changed) :
    ∃ a, methodAttribute? list = some a ∧ a.IsList ∧
      AgreesBut MethodDescriptor.get (some a) m changed := by
  obtain ⟨label, hlabel, happend⟩ := bind_eq_ok.mp h
  split at happend
  · next longer hlonger =>
    obtain ⟨a, ha, hlist⟩ := Option.bind_eq_some_iff.mp hlonger
    have hname : methodAttribute? list = some a := by
      rwa [show list = .text label from attributeName_eq_ok hlabel]
    obtain rfl := Except.ok.inj happend
    refine ⟨a, hname, ?_⟩
    cases a with
    | modifiers =>
      obtain rfl := Option.some.inj hlist
      refine ⟨.inl rfl, ?_⟩
      intro b hb
      cases b <;> first | rfl | exact absurd rfl hb
    | params =>
      obtain rfl := Option.some.inj hlist
      refine ⟨.inr rfl, ?_⟩
      intro b hb
      cases b <;> first | rfl | exact absurd rfl hb
    | _ => cases hlist
  · cases happend

/-! ### Descriptors of a record -/

section

variable {α : Type}

/-- What an attempt to change something leaves: the change, or what was there. -/
def settled (change : α → Except Failure α) (a : α) : α := (change a).toOption.getD a

theorem settled_of_ok {change : α → Except Failure α} {a changed : α} (h : change a = .ok changed) :
    settled change a = changed := by
  rw [settled, h]
  rfl

theorem settled_of_error {change : α → Except Failure α} {a : α} {failure : Failure}
    (h : change a = .error failure) : settled change a = a := by
  rw [settled, h]
  rfl

end

variable (r : Record Value)

/-- The entry of a key; an entry that is not there yet has the default attributes. -/
def entryAt (slot : EntrySlot) (key : Key) : PropDescriptor Value :=
  ((r.entries slot).get? key).getD {}

def methodAt (name : String) : MethodDescriptor Value :=
  (r.methods.get? name).getD { name := name }

theorem withEntries_withEntries (slot : EntrySlot) (e f : Keyed Key (PropDescriptor Value)) :
    (r.withEntries slot e).withEntries slot f = r.withEntries slot f := by
  cases slot <;> rfl

/-- Changing the entry of a key is no more than writing what the change leaves. -/
theorem changeEntry_eq (slot : EntrySlot) (key : Key)
    (change : PropDescriptor Value → Except Failure (PropDescriptor Value)) :
    r.changeEntry slot key change =
      (r.withEntries slot ((r.entries slot).put key (settled change (r.entryAt slot key))),
        (change (r.entryAt slot key)).map fun _ => ()) := by
  have hentry : r.entryOf slot key =
      (r.entryAt slot key, r.withEntries slot ((r.entries slot).put key (r.entryAt slot key))) := by
    unfold entryOf
    rw [Keyed.getOrAdd_eq]
    rfl
  unfold changeEntry
  rw [hentry]
  cases h : change (r.entryAt slot key) with
  | error failure =>
    rw [settled_of_error h]
    simp only [h]
    rfl
  | ok changed =>
    rw [settled_of_ok h]
    simp only [h, Except.map, after, withEntries_withEntries, entries_withEntries, if_true,
      Keyed.put_put]

theorem changeMethod_eq (name : String)
    (change : MethodDescriptor Value → Except Failure (MethodDescriptor Value)) :
    r.changeMethod name change =
      ({ r with methods := r.methods.put name (settled change (r.methodAt name)) },
        (change (r.methodAt name)).map fun _ => ()) := by
  have hmethod : r.methodOf name =
      (r.methodAt name, { r with methods := r.methods.put name (r.methodAt name) }) := by
    unfold methodOf
    rw [Keyed.getOrAdd_eq]
    rfl
  unfold changeMethod
  rw [hmethod]
  cases h : change (r.methodAt name) with
  | error failure =>
    rw [settled_of_error h]
    simp only [h]
    rfl
  | ok changed =>
    rw [settled_of_ok h]
    simp only [h, Except.map, after, Keyed.put_put]

end ComponentAtlas.Record
