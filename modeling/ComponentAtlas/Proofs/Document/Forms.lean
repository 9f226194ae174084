import ComponentAtlas.Document.Mapping
import ComponentAtlas.Proofs.Document.Depth
import Mathlib.Data.Set.List

/-!
# Forms of a document

A document can be made from a record, from the mapping of the record and from
the mapping of a finished document. Reading a mapping gives back what was
written into it, so that the draft it leads to is the draft of the record.
-/

namespace ComponentAtlas

open Checked Record Schema

/-! ### Fields as they are given -/

namespace Schema

theorem readOptional_optionValue {α : Type} {read : Value → Checked α} {write : α → Value}
    (hread : ∀ a, readOptional read (write a) = pure (some a)) (o : Option α) :
    readOptional read (optionValue write o) = pure o := by
  cases o with
  | none => rfl
  | some a => exact hread a

theorem readOptional_readText_eq_pure {v : Value} {o : Option String} :
    readOptional readText v = pure o ↔ v = optionValue .text o := by
  cases v with
  | null =>
    cases o with
    | none => exact ⟨fun _ => rfl, fun _ => rfl⟩
    | some s => simp [readOptional, pure_eq_pure, optionValue]
  | _ =>
    simp only [readOptional, map_eq_pure, readText_eq_pure]
    cases o with
    | none => simp [optionValue]
    | some s => simp [optionValue]

theorem readItems_map {α β : Type} {read : Value → Checked α} (write : β → Value) {give : α → β}
    (hread : ∀ b a, read (write b) = pure a ↔ b = give a) {items : List β} {found : List α} :
    readItems read (items.map write) = pure found ↔ items = found.map give := by
  rw [readItems_eq_pure, List.forall₂_map_left_iff]
  simp only [hread]
  rw [← List.forall₂_map_right_iff, List.forall₂_eq_eq_eq]

theorem readItems_readText {values : List Value} {names : List String} :
    readItems readText values = pure names ↔ values = names.map .text := by
  have hmap : readItems readText (values.map id) = pure names ↔ values = names.map .text :=
    readItems_map id readText_eq_pure
  rwa [List.map_id] at hmap

theorem readMapping_eq_pure (v : Value) (fields : Keyed String Value) :
    readMapping v = pure fields ↔ v = .object fields := by
  cases v with
  | object given => simp [readMapping, pure_eq_pure]
  | _ => simp [readMapping, bad_ne_pure]

theorem readItems_readMapping {values : List Value} {items : List (Keyed String Value)} :
    readItems readMapping values = pure items ↔ values = items.map .object := by
  have hmap : readItems readMapping (values.map id) = pure items ↔ values = items.map .object :=
    readItems_map id readMapping_eq_pure
  rwa [List.map_id] at hmap

theorem readSequence_readText {kind : IssueKind} {values : List Value} {names : List String} :
    readSequence kind readText (.array values) = pure names ↔ values = names.map .text :=
  readItems_readText

theorem readSequence_readMapping {kind : IssueKind} {values : List Value}
    {items : List (Keyed String Value)} :
    readSequence kind readMapping (.array values) = pure items ↔ values = items.map .object :=
  readItems_readMapping

theorem readEntries_map {α : Type} {read : Value → Checked α} (write : α → Value)
    (hread : ∀ a, read (write a) = pure a) (entries : Keyed String α) :
    readEntries read (entries.map fun e => (e.1, write e.2)) = pure entries := by
  induction entries with
  | nil => rfl
  | cons e rest ih =>
    simp only [List.map_cons, readEntries, bind_eq_pure, under_eq_pure]
    exact ⟨e.2, hread e.2, rest, ih, rfl⟩

theorem readEntries_pure (entries : Keyed String Value) :
    readEntries pure entries = pure entries := by
  have hread : readEntries pure (entries.map fun e => (e.1, id e.2)) = pure entries :=
    readEntries_map id (fun _ => rfl) entries
  rwa [show (entries.map fun e => (e.1, id e.2)) = entries from List.map_id _] at hread

theorem exists_keyed {α : Type} {entries : Keyed Key α} (h : ∀ e ∈ entries, e.1.IsText) :
    ∃ found, entries = keyed found := by
  obtain ⟨found, hfound⟩ := exists_readKeys.mpr h
  exact ⟨found, (readKeys_eq_pure _ _).mp hfound⟩

/-- A field that is given under its public name, if at all. -/
theorem Field.given?_eq_map {α : Type} {field : Field} {fields : Keyed String Value}
    (write : α → Value) {o : Option α} (hpublic : fields.get? field.publicName = o.map write)
    (hown : field.ownName = field.publicName ∨ fields.get? field.ownName = none) :
    field.given? fields = o.map fun a => (field.publicName, write a) := by
  cases o with
  | none =>
    have hnone : fields.get? field.ownName = none := by
      rcases hown with hsame | hnone
      · rw [hsame, hpublic, Option.map_none]
      · exact hnone
    simp only [Field.given?, hpublic, hnone, Option.map_none]
  | some a => simp only [Field.given?, hpublic, Option.map_some]

theorem Field.read_of_given? {α : Type} {field : Field} {fields : Keyed String Value}
    {read : Value → Checked α} {write : α → Value} {o : Option α}
    (hgiven : field.given? fields = o.map fun a => (field.publicName, write a))
    (hread : ∀ a, readOptional read (write a) = pure (some a)) :
    field.read none (readOptional read) fields = pure o := by
  cases o with
  | none => simp only [Field.read, hgiven, Option.map_none]
  | some a => exact (Field.read_eq_pure field.publicName hgiven).mpr (hread a)

end Schema

namespace Document

@[simp] theorem get?_append (first second : Keyed String Value) (key : String) :
    Keyed.get? (first ++ second) key = (first.get? key).or (second.get? key) := List.lookup_append

@[simp] theorem get?_present {α : Type} (name : String) (write : α → Value) (o : Option α)
    (key : String) :
    (present name write o).get? key = if key = name then o.map write else none := by
  cases o with
  | none => simp [present, Keyed.get?]
  | some a =>
    have hnone : Keyed.get? ([] : Keyed String Value) key = none := rfl
    simp only [present, Keyed.get?_cons, hnone, beq_iff_eq, Option.map_some]

theorem keys_present {α : Type} (name : String) (write : α → Value) (o : Option α) :
    (present name write o).keys = (o.map fun _ => name).toList := by
  cases o with
  | none => rfl
  | some a => rfl

theorem keys_append (first second : Keyed String Value) :
    Keyed.keys (first ++ second) = first.keys ++ second.keys := List.map_append

/-! ### Entries -/

theorem readEntry_toValue (d : PropDescriptor Value) : readEntry d.toValue = pure d := by
  change readEntryFields (PropAttribute.all.map fun a => (a.name, d.get a)) = pure d
  simp only [readEntryFields, bind_eq_pure]
  refine ⟨d.type, ?_, d.flowType, ?_, d.tsType, ?_, d.required, ?_, d.description, ?_,
    d.defaultValue, ?_, rfl⟩
  · exact (Field.read_eq_pure _ rfl).mpr (readOptional_optionValue (fun _ => rfl) d.type)
  · exact (Field.read_eq_pure _ rfl).mpr (readOptional_optionValue (fun _ => rfl) d.flowType)
  · exact (Field.read_eq_pure _ rfl).mpr (readOptional_optionValue (fun _ => rfl) d.tsType)
  · exact (Field.read_eq_pure _ rfl).mpr (readOptional_optionValue (fun _ => rfl) d.required)
  · exact (Field.read_eq_pure _ rfl).mpr (readOptional_optionValue (fun _ => rfl) d.description)
  · exact (Field.read_eq_pure _ rfl).mpr (readOptional_optionValue (fun _ => rfl) d.defaultValue)

theorem readEntry_entryValue (d : PropDescriptor Value) : readEntry (entryValue d) = pure d := by
  simp only [entryValue, readEntry, readEntryFields, bind_eq_pure]
  refine ⟨d.type, ?_, d.flowType, ?_, d.tsType, ?_, d.required, ?_, d.description, ?_,
    d.defaultValue, ?_, rfl⟩
  · refine Field.read_of_given? (Field.given?_eq_map .object ?_ (.inl rfl)) fun _ => rfl
    simp [typeField]
  · refine Field.read_of_given? (Field.given?_eq_map .object ?_ (.inr ?_)) fun _ => rfl
    · simp [flowTypeField]
    · simp [flowTypeField]
  · refine Field.read_of_given? (Field.given?_eq_map .object ?_ (.inr ?_)) fun _ => rfl
    · simp [tsTypeField]
    · simp [tsTypeField]
  · refine Field.read_of_given? (Field.given?_eq_map .bool ?_ (.inl rfl)) fun _ => rfl
    simp [requiredField]
  · refine Field.read_of_given? (Field.given?_eq_map .text ?_ (.inl rfl)) fun _ => rfl
    simp [descriptionField]
  · refine Field.read_of_given? (Field.given?_eq_map .object ?_ (.inr ?_)) fun _ => rfl
    · simp [defaultValueField]
    · simp [defaultValueField]

/-! ### Methods -/

theorem readMethod_methodValue (m : MethodEntry) : readMethod (methodValue m) = pure m := by
  simp only [methodValue, readMethod, readMethodFields, bind_eq_pure]
  refine ⟨m.name, rfl, m.docblock, ?_, m.modifiers, ?_, m.params, ?_, m.returns, ?_,
    m.description, ?_, rfl⟩
  · refine Field.read_of_given? (Field.given?_eq_map .text ?_ (.inl rfl)) fun _ => rfl
    simp [docblockField, Keyed.get?_cons]
  · refine (Field.read_eq_pure "modifiers" ?_).mpr (readSequence_readText.mpr rfl)
    simp [Field.given?, modifiersField, Keyed.get?_cons]
  · refine (Field.read_eq_pure "params" ?_).mpr (readSequence_readMapping.mpr rfl)
    simp [Field.given?, paramsField, Keyed.get?_cons]
  · refine Field.read_of_given? (Field.given?_eq_map .object ?_ (.inl rfl)) fun _ => rfl
    simp [returnsField, Keyed.get?_cons]
  · refine Field.read_of_given? (Field.given?_eq_map .text ?_ (.inl rfl)) fun _ => rfl
    simp [descriptionField, Keyed.get?_cons]

/-- What is read of a method is the method, once its lists hold what belongs there. -/
theorem readMethod_toValue {m : MethodDescriptor Value} {entry : MethodEntry} :
    readMethod m.toValue = pure entry ↔ m = Draft.ofMethod entry := by
  let fields := MethodAttribute.all.map fun a => (a.label, m.get a)
  have hname : nameField.require "" readText fields = pure m.name := rfl
  have hdocblock : docblockField.read none (readOptional readText) fields = pure m.docblock :=
    (Field.read_eq_pure _ rfl).mpr (readOptional_optionValue (fun _ => rfl) _)
  have hmodifiers (names : List String) :
      modifiersField.read [] (readSequence .notSequence readText) fields = pure names ↔
        m.modifiers = names.map .text :=
    (Field.read_eq_pure _ rfl).trans readSequence_readText
  have hparams (items : List (Keyed String Value)) :
      paramsField.read [] (readSequence .notSequence readMapping) fields = pure items ↔
        m.params = items.map .object :=
    (Field.read_eq_pure _ rfl).trans readSequence_readMapping
  have hreturns : returnsField.read none (readOptional readMapping) fields = pure m.returns :=
    (Field.read_eq_pure _ rfl).mpr (readOptional_optionValue (fun _ => rfl) _)
  have hdescription : descriptionField.read none (readOptional readText) fields =
      pure m.description :=
    (Field.read_eq_pure _ rfl).mpr (readOptional_optionValue (fun _ => rfl) _)
  change readMethodFields fields = pure entry ↔ _
  simp only [readMethodFields, bind_eq_pure, pure_eq_pure, hname, hdocblock, hmodifiers, hparams,
    hreturns, hdescription]
  constructor
  · intro h
    obtain ⟨_, rfl, _, rfl, modifiers, hm, params, hp, _, rfl, _, rfl, rfl⟩ := h
    rw [Draft.ofMethod, ← hm, ← hp]
  · intro h
    subst h
    exact ⟨_, rfl, _, rfl, _, rfl, _, rfl, _, rfl, _, rfl, rfl⟩

/-! ### Documents -/

theorem readMethods_map (methods : List MethodEntry) :
    readSequence .notSequence readMethod (.array (methods.map methodValue)) = pure methods := by
  have hread (m e : MethodEntry) : readMethod (methodValue m) = pure e ↔ m = id e := by
    rw [readMethod_methodValue, pure_eq_pure, id_eq]
  exact (readItems_map methodValue hread).mpr (List.map_id _).symm

theorem readFields_toFields (d : Document) : readFields d.toFields = pure d := by
  have hdescription : descriptionField.given? d.toFields =
      d.description.map fun s => ("description", .text s) := by
    refine Field.given?_eq_map .text ?_ (.inl rfl)
    simp [toFields, descriptionField]
  have hdisplayName : displayNameField.given? d.toFields =
      d.displayName.map fun s => ("displayName", .text s) := by
    refine Field.given?_eq_map .text ?_ (.inr ?_)
    · simp [toFields, displayNameField]
    · simp [toFields, displayNameField]
  have hprops : propsField.given? d.toFields =
      d.props.map fun es => ("props", entriesValue es) := by
    refine Field.given?_eq_map entriesValue ?_ (.inl rfl)
    simp [toFields, propsField]
  have hcontext : contextField.given? d.toFields =
      d.context.map fun es => ("context", entriesValue es) := by
    refine Field.given?_eq_map entriesValue ?_ (.inl rfl)
    simp [toFields, contextField]
  have hchildContext : childContextField.given? d.toFields =
      d.childContext.map fun es => ("childContext", entriesValue es) := by
    refine Field.given?_eq_map entriesValue ?_ (.inr ?_)
    · simp [toFields, childContextField]
    · simp [toFields, childContextField]
  have hmethods : methodsField.given? d.toFields =
      d.methods.map fun ms => ("methods", .array (ms.map methodValue)) := by
    refine Field.given?_eq_map (fun ms : List MethodEntry => .array (ms.map methodValue)) ?_
      (.inl rfl)
    simp [toFields, methodsField]
  have hcomposes : composesField.given? d.toFields =
      d.composes.map fun names => ("composes", .array (names.map .text)) := by
    refine Field.given?_eq_map (fun names : List String => .array (names.map .text)) ?_ (.inl rfl)
    simp [toFields, composesField]
  have hextra : extraField.given? d.toFields = d.extra.map fun es => ("extra", .object es) := by
    refine Field.given?_eq_map .object ?_ (.inl rfl)
    simp [toFields, extraField]
  have hentries (es : Keyed String (PropDescriptor Value)) :
      readOptional readEntryMap (entriesValue es) = pure (some es) :=
    (map_eq_pure _ _ _).mpr ⟨es, readEntries_map entryValue readEntry_entryValue es, rfl⟩
  have hused : fields.filterMap (fun field => (field.given? d.toFields).map Prod.fst) =
      d.toFields.keys := by
    rw [List.filterMap_eq_flatMap_toList]
    simp only [fields, List.flatMap_cons, List.flatMap_nil, hdescription, hdisplayName, hprops,
      hcontext, hchildContext, hmethods, hcomposes, hextra, Option.map_map]
    simp [toFields, keys_append, keys_present, Function.comp_def]
  have hothers : refuseOthers fields d.toFields = pure () :=
    refuseOthers_eq_pure fun key hkey => hused ▸ hkey
  simp only [readFields, bind_eq_pure]
  refine ⟨d.description, Field.read_of_given? hdescription fun _ => rfl,
    d.displayName, Field.read_of_given? hdisplayName fun _ => rfl,
    d.props, Field.read_of_given? hprops hentries,
    d.context, Field.read_of_given? hcontext hentries,
    d.childContext, Field.read_of_given? hchildContext hentries,
    d.methods, Field.read_of_given? hmethods fun ms => ?_,
    d.composes, Field.read_of_given? hcomposes fun names => ?_,
    d.extra, Field.read_of_given? hextra fun _ => rfl, (), hothers, rfl⟩
  · exact (map_eq_pure _ _ _).mpr ⟨ms, readMethods_map ms, rfl⟩
  · exact (map_eq_pure _ _ _).mpr ⟨names, readSequence_readText.mpr rfl, rfl⟩

/-! ### Records -/

theorem readKeyed_dumped {α : Type} {read : Value → Checked α} {write : α → Value}
    (hread : ∀ a, read (write a) = pure a) {entries : Keyed Key α} {found : Keyed String α} :
    readKeyed read (dumped write entries) = pure found ↔ entries = keyed found := by
  induction entries generalizing found with
  | nil => cases found <;> simp [readKeyed, dumped, keyed, pure_eq_pure]
  | cons entry rest ih =>
    obtain ⟨key, value⟩ := entry
    have hrest (names : Keyed String α) :
        readKeyed read (rest.map fun e => (e.1, write e.2)) = pure names ↔ rest = keyed names := ih
    simp only [dumped, List.map_cons, readKeyed, bind_eq_pure, under_eq_pure, readKey_eq_pure,
      pure_eq_pure, hread, hrest]
    constructor
    · intro h
      obtain ⟨name, rfl, _, rfl, names, rfl, rfl⟩ := h
      rfl
    · intro h
      cases found with
      | nil => simp [keyed] at h
      | cons f fs =>
        simp only [keyed, List.map_cons, List.cons.injEq, Prod.mk.injEq] at h
        obtain ⟨⟨hkey, hvalue⟩, hentries⟩ := h
        exact ⟨f.1, hkey, value, rfl, fs, hentries, by rw [hvalue]⟩

theorem readEntriesOf_eq_pure {entries : Keyed Key (PropDescriptor Value)}
    {slot : Option (Keyed String (PropDescriptor Value))} :
    readEntriesOf entries = pure slot ↔ ∃ found, entries = keyed found ∧ some found = slot := by
  simp only [readEntriesOf, map_eq_pure, readKeyed_dumped readEntry_toValue]

theorem readExtra_eq_pure {extra : Keyed Key Value} {found : Keyed String Value} :
    readKeyed pure (dumped id extra) = pure found ↔ extra = keyed found :=
  readKeyed_dumped fun _ => rfl

theorem readMethods_eq_pure {methods : Keyed String (MethodDescriptor Value)}
    {entries : List MethodEntry} :
    readItems readMethod (methods.map fun m => m.2.toValue) = pure entries ↔
      methods.map Prod.snd = entries.map Draft.ofMethod := by
  have hmap : (methods.map fun m => m.2.toValue) =
      (methods.map Prod.snd).map MethodDescriptor.toValue := by
    rw [List.map_map]
    rfl
  rw [hmap]
  exact readItems_map _ fun _ _ => readMethod_toValue

/-- The mapping of a record is read as a document that leads to the draft of the record. -/
theorem ofDocument_of_readRecord {r : Record Value} {d : Document} (h : readRecord r = pure d) :
    Draft.ofDocument d = Draft.ofRecord r := by
  simp only [readRecord, bind_eq_pure, under_eq_pure, pure_eq_pure, readEntriesOf_eq_pure,
    readOptional_readText_eq_pure, readExtra_eq_pure, map_eq_pure, readMethods_eq_pure,
    readItems_readText] at h
  obtain ⟨description, hdescription, displayName, hdisplayName, _, ⟨props, hprops, rfl⟩, _,
    ⟨context, hcontext, rfl⟩, _, ⟨childContext, hchildContext, rfl⟩, _, ⟨methods, hmethods, rfl⟩,
    _, ⟨composes, hcomposes, rfl⟩, _, ⟨extra, hextra, rfl⟩, rfl⟩ := h
  simp only [Draft.ofDocument, Draft.ofRecord, Option.getD_some, hdescription, hdisplayName, hprops,
    hcontext, hchildContext, hmethods, hcomposes, hextra]

theorem readKeyed_keyed {α β : Type} {read : Value → Checked α} (write : β → Value)
    (fields : Keyed String β) :
    readKeyed read (dumped write (keyed fields)) =
      readEntries read (fields.map fun f => (f.1, write f.2)) := by
  induction fields with
  | nil => rfl
  | cons f rest ih =>
    change (do
      let entry ← (read (write f.2)).under (.name f.1)
      let entries ← readKeyed read (dumped write (keyed rest))
      pure ((f.1, entry) :: entries)) = _
    rw [ih]
    rfl

theorem labelled_keyed {α : Type} (write : α → Value) (fields : Keyed String α) :
    labelled write (keyed fields) = .object (fields.map fun f => (f.1, write f.2)) := by
  rw [labelled, keyed, List.map_map]
  rfl

/-- Where all keys are texts, the mapping of a record is read as any other mapping is. -/
theorem readFields_toMapping {r : Record Value} (hprops : ∀ e ∈ r.props, e.1.IsText)
    (hcontext : ∀ e ∈ r.context, e.1.IsText) (hchildContext : ∀ e ∈ r.childContext, e.1.IsText)
    (hextra : ∀ e ∈ r.extra, e.1.IsText) : readFields r.toMapping = readRecord r := by
  obtain ⟨props, hprops⟩ := exists_keyed hprops
  obtain ⟨context, hcontext⟩ := exists_keyed hcontext
  obtain ⟨childContext, hchildContext⟩ := exists_keyed hchildContext
  obtain ⟨extra, hextra⟩ := exists_keyed hextra
  simp only [toMapping, readRecord, readEntriesOf, hprops, hcontext, hchildContext, hextra,
    labelled_keyed, readKeyed_keyed, readEntries_pure, methodsValue]
  -- both sides read the same parts in the same order, and no other field is given
  rfl

end Document

/-! ### Records that are accepted -/

theorem Schema.exists_map_eq {α β : Type} {write : β → α} {values : List α}
    (h : ∀ v ∈ values, ∃ b, v = write b) : ∃ items : List β, values = items.map write := by
  have hrange : values ∈ Set.range (List.map write) := by
    rw [Set.range_list_map]
    intro v hv
    obtain ⟨b, hb⟩ := h v hv
    exact ⟨b, hb.symm⟩
  obtain ⟨items, hitems⟩ := hrange
  exact ⟨items, hitems.symm⟩

namespace Record

theorem MethodDescriptor.IsWellTyped.exists_entry {m : MethodDescriptor Value}
    (h : m.IsWellTyped) : ∃ entry, m = Draft.ofMethod entry := by
  obtain ⟨modifiers, hmodifiers⟩ := exists_map_eq h.modifiers
  obtain ⟨params, hparams⟩ := exists_map_eq h.params
  refine ⟨⟨m.name, m.docblock, modifiers, params, m.returns, m.description⟩, ?_⟩
  rw [Draft.ofMethod, ← hmodifiers, ← hparams]

theorem MethodDescriptor.isWellTyped_of_checkMethod {trim : Bool} {m : MethodDescriptor Value}
    {entry : MethodEntry} (h : Draft.checkMethod .values trim m = pure entry) : m.IsWellTyped := by
  obtain ⟨-, modifiers, params, hmodifiers, hparams, -⟩ := (Draft.checkMethod_eq_pure _).mp h
  constructor
  case modifiers =>
    intro v hv
    obtain ⟨s, hs⟩ := exists_readItems.mp ⟨modifiers, hmodifiers⟩ v hv
    exact isText_of_takeText hs
  case params =>
    intro v hv
    obtain ⟨fields, hfields⟩ := exists_readItems.mp ⟨params, hparams⟩ v hv
    exact isMapping_of_takeMapping hfields

/-- Only a text has the content of a text. -/
theorem isText_of_same {v : Value} {s : String} (h : v.same (.text s) = true) : v.IsText := by
  cases v with
  | text t => exact ⟨t, rfl⟩
  | array items => simp only [Value.same, Value.key?, Bool.false_eq_true] at h
  | object fields => simp only [Value.same, Value.key?, Bool.false_eq_true] at h
  | _ =>
    simp only [Value.same, Value.key?] at h
    have hreferent := (Key.beq_iff _ _).mp h
    cases hreferent

theorem isText_of_distinct {values : List Value}
    (h : ∀ v ∈ Draft.distinct values, v.IsText) : ∀ v ∈ values, v.IsText := by
  intro v hv
  rcases Distinct.mem_or_exists_mem_eraseDupsBy (r := Value.same) hv with hkept | ⟨w, hw, hsame⟩
  · exact h v hkept
  · obtain ⟨s, rfl⟩ := h w hw
    exact isText_of_same hsame

theorem forall_of_cleanEntries {trim : Bool} {entries : Keyed Key (PropDescriptor Value)}
    (h : ∀ e ∈ Draft.cleanEntries trim entries, e.1.IsText) : ∀ e ∈ entries, e.1.IsText := by
  intro e he
  exact h (e.1, Draft.cleanEntry trim e.2) (List.mem_map.mpr ⟨e, he, rfl⟩)

/-- A record that becomes a document has what belongs there wherever it is not checked before. -/
theorem isWellTyped_of_ofRecord {trim : Bool} {r : Record Value} {d : Document}
    (hdescription : r.description.IsText)
    (hdisplayName : r.displayName = .null ∨ r.displayName.IsText)
    (h : Document.ofRecord trim r = .ok d) : r.IsWellTyped := by
  obtain ⟨clean, -, hcheck⟩ := (Draft.normalize_eq_ok _).mp h
  simp only [Draft.check, bind_eq_pure, under_eq_pure] at hcheck
  obtain ⟨_, -, _, -, props, hprops, context, hcontext, childContext, hchildContext, methods,
    hmethods, composes, hcomposes, _, -, -⟩ := hcheck
  have hcomposed : ∀ v ∈ Draft.distinct r.composes, v.IsText := by
    intro v hv
    obtain ⟨s, hs⟩ := exists_readItems.mp ⟨composes, hcomposes⟩ v hv
    exact isText_of_takeText hs
  refine ⟨hdescription, hdisplayName,
    forall_of_cleanEntries (Draft.exists_checkKeys.mp ⟨props, hprops⟩),
    forall_of_cleanEntries (Draft.exists_checkKeys.mp ⟨context, hcontext⟩),
    forall_of_cleanEntries (Draft.exists_checkKeys.mp ⟨childContext, hchildContext⟩), ?_,
    isText_of_distinct hcomposed⟩
  intro m hm
  obtain ⟨entry, hentry⟩ := (Draft.exists_checkMethods 0).mp ⟨methods, hmethods⟩ m.2
    (List.mem_map.mpr ⟨m, hm, rfl⟩)
  exact MethodDescriptor.isWellTyped_of_checkMethod hentry

theorem IsWellTyped.exists_readRecord {r : Record Value} (h : r.IsWellTyped) :
    (∃ read, Document.readRecord r = pure read) ↔ ∀ e ∈ r.extra, e.1.IsText := by
  constructor
  · intro hread
    obtain ⟨read, hread⟩ := hread
    have hdraft := Document.ofDocument_of_readRecord hread
    have hextra : r.extra = keyed (read.extra.getD []) := (congrArg Draft.extra hdraft).symm
    intro e he
    rw [hextra] at he
    obtain ⟨field, -, rfl⟩ := List.mem_map.mp he
    exact ⟨field.1, rfl⟩
  · intro hkeys
    obtain ⟨description, hdescription⟩ := h.description
    have hdisplayName : ∃ o, readOptional readText r.displayName = pure o := by
      rcases h.displayName with hnull | ⟨s, hs⟩
      · exact ⟨none, by rw [hnull]; rfl⟩
      · exact ⟨some s, by rw [hs]; rfl⟩
    obtain ⟨displayName, hdisplayName⟩ := hdisplayName
    obtain ⟨props, hprops⟩ := exists_keyed h.props
    obtain ⟨context, hcontext⟩ := exists_keyed h.context
    obtain ⟨childContext, hchildContext⟩ := exists_keyed h.childContext
    obtain ⟨composes, hcomposes⟩ := exists_map_eq h.composes
    obtain ⟨extra, hextra⟩ := exists_keyed hkeys
    have hmethods : ∃ entries, readItems Document.readMethod (r.methods.map fun m => m.2.toValue) =
        pure entries := by
      rw [exists_readItems, List.forall_mem_map]
      intro m hm
      obtain ⟨entry, hentry⟩ := (h.methods m hm).exists_entry
      exact ⟨entry, Document.readMethod_toValue.mpr hentry⟩
    obtain ⟨methods, hmethods⟩ := hmethods
    simp only [Document.readRecord, bind_eq_pure, under_eq_pure]
    exact ⟨_, some description, readOptional_readText_eq_pure.mpr hdescription, displayName,
      hdisplayName, some props, Document.readEntriesOf_eq_pure.mpr ⟨props, hprops, rfl⟩,
      some context, Document.readEntriesOf_eq_pure.mpr ⟨context, hcontext, rfl⟩,
      some childContext, Document.readEntriesOf_eq_pure.mpr ⟨childContext, hchildContext, rfl⟩,
      some methods, (map_eq_pure _ _ _).mpr ⟨methods, hmethods, rfl⟩,
      some composes, (map_eq_pure _ _ _).mpr ⟨composes, readItems_readText.mpr hcomposes, rfl⟩,
      some extra, (map_eq_pure _ _ _).mpr ⟨extra, Document.readExtra_eq_pure.mpr hextra, rfl⟩, rfl⟩

end Record

/-! ### The forms agree -/

namespace Document

theorem ofMapping_eq_ok {trim : Bool} {r : Record Value} {d : Document} :
    ofMapping trim r = .ok d ↔ requireCopyable r.extra = .ok () ∧
      ∃ read, readRecord r = pure read ∧ read.renormalize trim = .ok d := by
  have hbind : ofMapping trim r = (requireCopyable r.extra).bind fun _ =>
      (readRecord r).result.bind (renormalize trim) := rfl
  simp only [hbind, bind_eq_ok, result_eq_ok]
  constructor
  · intro h
    obtain ⟨_, hcopy, hread⟩ := h
    exact ⟨hcopy, hread⟩
  · intro h
    exact ⟨(), h⟩

theorem ofValue_object {trim : Bool} {fields : Keyed String Value} {read : Document}
    (h : readFields fields = pure read) :
    ofValue trim (.object fields) = read.renormalize trim := by
  have hread : (readFields fields).result = .ok read := (result_eq_ok _ _).mpr h
  change (readFields fields).result.bind (renormalize trim) = read.renormalize trim
  rw [hread]
  rfl

theorem ofValue_toValue {trim : Bool} {d : Document} (h : d.IsNormal trim) :
    ofValue trim d.toValue = .ok d :=
  (ofValue_object (readFields_toFields d)).trans (renormalize_of_isNormal h)

end Document

/--
The mapping of a record leads to the document of the record, unless data are
kept under a key that is no text; without such keys it is read as any other
mapping is. The mapping of a document that can be written leads back to it.
-/
theorem Record.forms_agree {trim : Bool} {bench : Bench} {d : Document}
    (hdescription : bench.record.description.IsText)
    (hdisplayName : bench.record.displayName = .null ∨ bench.record.displayName.IsText)
    (h : bench.publication trim = .ok d) :
    (∀ read, Document.ofMapping trim bench.record = .ok read ↔
      read = d ∧ ∀ e ∈ bench.record.extra, e.1.IsText) ∧
    ((∀ e ∈ bench.record.extra, e.1.IsText) →
      Document.ofValue trim (.object bench.record.toMapping) = .ok d) ∧
    ∀ written, d.written = .ok written → Document.ofValue trim written.toValue = .ok d := by
  obtain ⟨hcopy, hrecord⟩ := publication_eq_ok.mp h
  have htyped := isWellTyped_of_ofRecord hdescription hdisplayName hrecord
  have hagree {read : Document} (hread : Document.readRecord bench.record = pure read) :
      read.renormalize trim = .ok d := by
    unfold Document.renormalize
    rw [Document.ofDocument_of_readRecord hread]
    exact hrecord
  refine ⟨?_, ?_, ?_⟩
  · intro found
    rw [Document.ofMapping_eq_ok, ← htyped.exists_readRecord]
    constructor
    · intro hfound
      obtain ⟨-, read, hread, hnormal⟩ := hfound
      exact ⟨Except.ok.inj (hnormal.symm.trans (hagree hread)), read, hread⟩
    · intro hfound
      obtain ⟨rfl, read, hread⟩ := hfound
      exact ⟨hcopy, read, hread, hagree hread⟩
  · intro hkeys
    obtain ⟨read, hread⟩ := htyped.exists_readRecord.mpr hkeys
    have hfields : Document.readFields bench.record.toMapping = pure read :=
      (Document.readFields_toMapping htyped.props htyped.context htyped.childContext hkeys).trans
        hread
    exact (Document.ofValue_object hfields).trans (hagree hread)
  · intro written hwritten
    obtain ⟨-, rfl⟩ := (Document.written_eq_ok _ _).mp hwritten
    exact Document.ofValue_toValue (Draft.isNormal_of_normalize _ hrecord)

namespace Record

/-- What the record that `focusSteps` lead to is published as. -/
def focusDocument : Document where
  methods := some [{ name := "focus", modifiers := ["static"] }]
  composes := some ["./Base"]
  extra := some [("tags", .array [.text "ui", .null])]

theorem forms_agree_focus :
    Bench.publication true ⟨empty.runAll focusSteps, none⟩ = .ok focusDocument ∧
      Document.ofMapping true (empty.runAll focusSteps) = .ok focusDocument ∧
        Document.ofValue true (.object (empty.runAll focusSteps).toMapping) = .ok focusDocument ∧
          Document.ofValue true focusDocument.toValue = .ok focusDocument := by
  have h : Bench.publication true ⟨empty.runAll focusSteps, none⟩ = .ok focusDocument := rfl
  have hforms := forms_agree ⟨"", rfl⟩ (.inl rfl) h
  have hkeys : ∀ e ∈ (empty.runAll focusSteps).extra, e.1.IsText := by
    intro e he
    obtain rfl := List.mem_singleton.mp he
    exact ⟨"tags", rfl⟩
  exact ⟨h, (hforms.1 _).mpr ⟨rfl, hkeys⟩, hforms.2.1 hkeys, hforms.2.2 focusDocument rfl⟩

/-- Keeps nothing under a key that is no text. -/
def numberedSteps : List (Step Value) := [.set (.int 5) .null]

/--
Without its two conditions the statement fails: a document can reach too deep
to be written, and a key that is no text is refused in the mapping only.
-/
theorem forms_differ :
    (Bench.publication true ⟨empty.runAll (nestedSteps 299), none⟩ =
        .ok (Document.ofNested 299) ∧
      (empty.runAll (nestedSteps 299)).description.IsText ∧
      (empty.runAll (nestedSteps 299)).displayName = .null ∧
      ∀ written, (Document.ofNested 299).written ≠ .ok written) ∧
    (Bench.publication true ⟨empty.runAll numberedSteps, none⟩ = .ok {} ∧
      (empty.runAll numberedSteps).description.IsText ∧
      (empty.runAll numberedSteps).displayName = .null ∧
      ∀ read, Document.ofMapping true (empty.runAll numberedSteps) ≠ .ok read) := by
  constructor
  · have hdeep : Document.deepestLevel < 299 + 2 := by decide
    exact ⟨publication_nested (by decide) true, ⟨"", rfl⟩, rfl, Document.not_written_ofNested hdeep⟩
  · refine ⟨rfl, ⟨"", rfl⟩, rfl, ?_⟩
    intro read h
    cases h

end Record

end ComponentAtlas
