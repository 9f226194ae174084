import ComponentAtlas.Proofs.Data.Checked
import ComponentAtlas.Proofs.Data.Distinct
import Mathlib.Data.List.DropRight
import Mathlib.Data.List.TakeWhile

/-!
# Documents in normal form

A document in normal form has nothing left that cleaning would take away. Two
facts tie the predicate to the normalization of drafts: what normalization makes
is in normal form, and a document in normal form is what normalization makes of
it. Idempotence follows from the two without another look at the slots.
-/

namespace ComponentAtlas

open Record (PropDescriptor MethodDescriptor)

/-! ### Texts -/

namespace Text

theorem trimChars_eq (cs : List Char) :
    trimChars cs = (cs.dropWhile isBlank).rdropWhile isBlank := rfl

theorem trimChars_trimChars (cs : List Char) : trimChars (trimChars cs) = trimChars cs := by
  have hp : trimChars cs <+: cs.dropWhile isBlank := List.rdropWhile_prefix isBlank _
  -- what is left begins as the text without leading blanks does, unless nothing is left
  have hd : (trimChars cs).dropWhile isBlank = trimChars cs := by
    rw [List.dropWhile_eq_self_iff]
    intro hl
    have hlen := hp.length_le
    have hhead := List.dropWhile_eq_self_iff.mp (List.dropWhile_idempotent isBlank cs) (by omega)
    rwa [hp.getElem hl]
  rw [trimChars_eq (trimChars cs), hd]
  exact List.rdropWhile_idempotent isBlank _

theorem trim_trim (s : String) : trim (trim s) = trim s := by
  simp only [trim, String.toList_ofList, trimChars_trimChars]

end Text

namespace Draft

theorem nonEmptyText_eq_some (s t : String) : nonEmptyText s = some t ↔ s = t ∧ t ≠ "" := by
  unfold nonEmptyText
  split
  · rename_i h
    simp only [reduceCtorEq, false_iff, not_and, not_not]
    rintro rfl
    exact h
  · rename_i h
    rw [Option.some.injEq]
    exact ⟨fun he => ⟨he, he ▸ h⟩, fun he => he.1⟩

theorem nonEmptyList_eq_some {α : Type} (l m : List α) :
    nonEmptyList l = some m ↔ l = m ∧ m ≠ [] := by
  cases l with
  | nil => simp [nonEmptyList, eq_comm]
  | cons a rest =>
    simp only [nonEmptyList, Option.some.injEq]
    exact ⟨fun he => ⟨he, he ▸ List.cons_ne_nil a rest⟩, fun he => he.1⟩

theorem nonEmptyList_eq_iff {α : Type} (items : List α) (found : Option (List α)) :
    nonEmptyList items = found ↔ found ≠ some [] ∧ found.getD [] = items := by
  constructor
  · rintro rfl
    cases items with
    | nil => exact ⟨nofun, rfl⟩
    | cons a rest => exact ⟨fun h => List.cons_ne_nil a rest (Option.some.inj h), rfl⟩
  · rintro ⟨hne, rfl⟩
    cases found with
    | none => rfl
    | some l => exact (nonEmptyList_eq_some _ _).mpr ⟨rfl, fun hnil => hne (congrArg some hnil)⟩

theorem exists_nonEmptyList {α : Type} {P : List α → Prop} {found : Option (List α)} :
    (∃ items, P items ∧ nonEmptyList items = found) ↔ found ≠ some [] ∧ P (found.getD []) := by
  simp only [nonEmptyList_eq_iff]
  constructor
  · rintro ⟨items, h, hne, rfl⟩
    exact ⟨hne, h⟩
  · rintro ⟨hne, h⟩
    exact ⟨_, h, hne, rfl⟩

theorem cleanText_ne_empty {trim : Bool} {s t : String} (h : cleanText trim s = some t) :
    t ≠ "" :=
  ((nonEmptyText_eq_some _ _).mp h).2

theorem cleanText_cleanText {trim : Bool} {s t : String} (h : cleanText trim s = some t) :
    cleanText trim t = some t := by
  obtain ⟨hs, ht⟩ := (nonEmptyText_eq_some _ _).mp h
  refine (nonEmptyText_eq_some _ _).mpr ⟨?_, ht⟩
  cases trim with
  | false => rfl
  | true =>
    simp only [if_true] at hs ⊢
    rw [← hs, Text.trim_trim]

theorem bind_cleanText (trim : Bool) (o : Option String) :
    (o.bind (cleanText trim)).bind (cleanText trim) = o.bind (cleanText trim) := by
  cases o with
  | none => rfl
  | some s =>
    cases h : cleanText trim s with
    | none => simp [h]
    | some t => simp [h, cleanText_cleanText h]

theorem bind_nonEmptyList {α : Type} (o : Option (List α)) :
    (o.bind nonEmptyList).bind nonEmptyList = o.bind nonEmptyList := by
  cases o with
  | none => rfl
  | some l => cases l <;> rfl

theorem cleanEntry_cleanEntry (trim : Bool) (d : PropDescriptor Value) :
    cleanEntry trim (cleanEntry trim d) = cleanEntry trim d := by
  simp only [cleanEntry, bind_nonEmptyList, bind_cleanText]
  split <;> rfl

end Draft

/-! ### The predicate -/

/-- Cleaning leaves the method as it is, and it has a name. -/
structure MethodEntry.IsNormal (trim : Bool) (m : MethodEntry) : Prop where
  name : m.name ≠ ""
  docblock : m.docblock.bind (Draft.cleanText trim) = m.docblock
  returns : m.returns.bind Draft.nonEmptyList = m.returns
  description : m.description.bind (Draft.cleanText trim) = m.description

namespace Document

/-- A slot that is present has entries, and cleaning leaves them as they are. -/
def EntriesNormal (trim : Bool) (slot : Option (Keyed String (PropDescriptor Value))) : Prop :=
  ∀ entries, slot = some entries →
    entries ≠ [] ∧ ∀ e ∈ entries, Draft.cleanEntry trim e.2 = e.2

structure IsNormal (trim : Bool) (d : Document) : Prop where
  description : d.description.bind (Draft.cleanText trim) = d.description
  displayName : ∀ s, d.displayName = some s → s ≠ ""
  props : EntriesNormal trim d.props
  context : EntriesNormal trim d.context
  childContext : EntriesNormal trim d.childContext
  methods : ∀ ms, d.methods = some ms → ms ≠ [] ∧ ∀ m ∈ ms, m.IsNormal trim
  composes : ∀ names, d.composes = some names → names ≠ [] ∧ names.Nodup
  extra : ∀ es, d.extra = some es → es ≠ [] ∧ ∀ e ∈ es, e.2.isEmpty = false

end Document

/-! ### Normalization ends in normal form -/

namespace Draft

open Checked Schema

theorem checkText_eq_pure {v : Value} {o : Option String} (h : checkText v = pure o) :
    (v.isEmpty = true ∧ o = none) ∨ ∃ s, s ≠ "" ∧ v = .text s ∧ o = some s := by
  unfold checkText at h
  split at h
  · rename_i he
    exact .inl ⟨he, ((pure_eq_pure _ _).mp h).symm⟩
  · rename_i he
    obtain ⟨s, hs, rfl⟩ := (map_eq_pure _ _ _).mp h
    obtain rfl := (readText_eq_pure _ _).mp hs
    refine .inr ⟨s, ?_, rfl, rfl⟩
    rintro rfl
    exact he rfl

theorem checkText_optionValue {o : Option String} (h : ∀ s, o = some s → s ≠ "") :
    checkText (Record.optionValue .text o) = pure o := by
  cases o with
  | none => rfl
  | some s =>
    have hs : (Value.text s).isEmpty = false := by simpa [Value.isEmpty] using h s rfl
    simp only [Record.optionValue, checkText, hs, Bool.false_eq_true, if_false]
    rfl

theorem cleanDescription_normal {trim : Bool} {given clean : Value} {o : Option String}
    (hc : cleanDescription trim given = .ok clean) (ho : checkText clean = pure o) :
    o.bind (cleanText trim) = o := by
  rcases checkText_eq_pure ho with ⟨-, rfl⟩ | ⟨s, -, rfl, rfl⟩
  · rfl
  · cases given with
    | text t =>
      simp only [cleanDescription, Except.ok.injEq] at hc
      cases ht : cleanText trim t with
      | none => rw [ht] at hc; cases hc
      | some u =>
        rw [ht, Record.optionValue, Value.text.injEq] at hc
        subst hc
        exact cleanText_cleanText ht
    | null => simp [cleanDescription] at hc
    | _ =>
      -- a value of another shape is no text after cleaning
      cases trim
      · simp only [cleanDescription, Bool.false_eq_true, if_false, Except.ok.injEq] at hc
        split at hc <;> cases hc
      · simp [cleanDescription] at hc

theorem checkKeys_eq_pure {α : Type} {entries : Keyed Key α} {o : Option (Keyed String α)}
    (h : checkKeys entries = pure o) : ∃ found, entries = keyed found ∧ o = nonEmptyList found := by
  obtain ⟨found, hf, rfl⟩ := (map_eq_pure _ _ _).mp h
  exact ⟨found, (readKeys_eq_pure _ _).mp hf, rfl⟩

theorem checkKeys_eq_iff {α : Type} {entries : Keyed Key α} {found : Option (Keyed String α)} :
    checkKeys entries = pure found ↔ found ≠ some [] ∧ entries = keyed (found.getD []) := by
  rw [checkKeys, map_eq_pure]
  simp only [readKeys_eq_pure]
  exact exists_nonEmptyList

theorem mem_keyed {α : Type} {fields : Keyed String α} {e : String × α} (h : e ∈ fields) :
    ((Key.text e.1, e.2) : Key × α) ∈ keyed fields :=
  List.mem_map.mpr ⟨e, h, rfl⟩

theorem entriesNormal_of_checkKeys {trim : Bool} {given : Keyed Key (PropDescriptor Value)}
    {slot : Option (Keyed String (PropDescriptor Value))}
    (h : checkKeys (cleanEntries trim given) = pure slot) : Document.EntriesNormal trim slot := by
  obtain ⟨found, hf, rfl⟩ := checkKeys_eq_pure h
  intro entries he
  obtain ⟨rfl, hne⟩ := (nonEmptyList_eq_some _ _).mp he
  refine ⟨hne, ?_⟩
  intro e hm
  have hk := mem_keyed hm
  rw [← hf, cleanEntries, List.mem_map] at hk
  obtain ⟨source, -, hs⟩ := hk
  simp only [Prod.mk.injEq] at hs
  rw [← hs.2, cleanEntry_cleanEntry]

theorem checkKeys_cleanEntries {trim : Bool} {slot : Option (Keyed String (PropDescriptor Value))}
    (h : Document.EntriesNormal trim slot) :
    checkKeys (cleanEntries trim (keyed (slot.getD []))) = pure slot := by
  have hc : cleanEntries trim (keyed (slot.getD [])) = keyed (slot.getD []) := by
    cases slot with
    | none => rfl
    | some entries =>
      simp only [cleanEntries, keyed, Option.getD_some, List.map_map]
      refine List.map_congr_left ?_
      intro e he
      simp only [Function.comp_apply, (h entries rfl).2 e he]
  rw [hc]
  exact checkKeys_eq_iff.mpr ⟨fun he => (h [] he).1 rfl, rfl⟩

section

variable {ν : Type} (view : View ν)

theorem checkMethod_eq_pure {trim : Bool} {m : MethodDescriptor ν} {entry : MethodEntry} :
    checkMethod view trim m = pure entry ↔ m.name ≠ "" ∧ ∃ modifiers params,
      readItems (takeText view) m.modifiers = pure modifiers ∧
      readItems (takeMapping view) m.params = pure params ∧
      entry =
        { name := m.name, modifiers
          params := params.map (Record.mapData view.value)
          docblock := m.docblock.bind (cleanText trim)
          returns := (m.returns.bind nonEmptyList).map (Record.mapData view.value)
          description := m.description.bind (cleanText trim) } := by
  unfold checkMethod
  cases hn : nonEmptyText m.name with
  | none =>
    have he : m.name = "" := by
      by_contra hne
      rw [(nonEmptyText_eq_some m.name m.name).mpr ⟨rfl, hne⟩] at hn
      cases hn
    simp only [bind_eq_pure, under_eq_pure, bad_ne_pure, false_and, exists_false, he, ne_eq,
      not_true_eq_false]
  | some name =>
    obtain ⟨hname, hne⟩ := (nonEmptyText_eq_some _ _).mp hn
    subst hname
    simp only [bind_eq_pure, under_eq_pure, pure_eq_pure, ne_eq, hne, not_false_eq_true, true_and]
    constructor
    · rintro ⟨_, rfl, modifiers, hmod, params, hpar, rfl⟩
      exact ⟨modifiers, params, hmod, hpar, rfl⟩
    · rintro ⟨modifiers, params, hmod, hpar, rfl⟩
      exact ⟨_, rfl, modifiers, hmod, params, hpar, rfl⟩

theorem isNormal_of_checkMethod {trim : Bool} {m : MethodDescriptor ν} {entry : MethodEntry}
    (h : checkMethod view trim m = pure entry) : entry.IsNormal trim := by
  obtain ⟨hname, modifiers, params, -, -, rfl⟩ := (checkMethod_eq_pure view).mp h
  refine ⟨hname, bind_cleanText trim _, ?_, bind_cleanText trim _⟩
  cases m.returns with
  | none => rfl
  | some fields =>
    cases fields with
    | nil => rfl
    | cons f rest => rfl

theorem isNormal_of_checkMethodsFrom {trim : Bool} (i : Nat) {ms : List (MethodDescriptor ν)}
    {entries : List MethodEntry} (h : checkMethodsFrom view trim i ms = pure entries) :
    ∀ m ∈ entries, m.IsNormal trim := by
  induction ms generalizing i entries with
  | nil =>
    obtain rfl := (pure_eq_pure _ _).mp h
    simp
  | cons m rest ih =>
    simp only [checkMethodsFrom, bind_eq_pure, pure_eq_pure, under_eq_pure] at h
    obtain ⟨entry, he, others, ho, rfl⟩ := h
    intro x hx
    rcases List.mem_cons.mp hx with rfl | hx
    · exact isNormal_of_checkMethod view he
    · exact ih (i + 1) ho x hx

theorem nodup_of_readItems_distinct {values : List Value} {names : List String}
    (h : readItems readText (distinct values) = pure names) : names.Nodup := by
  have hf := (readItems_eq_pure _ _ _).mp h
  have heq : distinct values = names.map .text := by
    refine List.forall₂_eq_eq_eq ▸ ?_
    rw [List.forall₂_map_right_iff]
    exact hf.imp fun v s hs => (readText_eq_pure v s).mp hs
  have hp := Distinct.pairwise_eraseDupsBy (r := Value.same) values
  have hp' : (names.map Value.text).Pairwise fun a b => Value.same b a = false := heq ▸ hp
  rw [List.pairwise_map] at hp'
  refine hp'.imp ?_
  rintro a b hab rfl
  simp [Value.same, Value.key?] at hab

theorem isNormal_of_check {trim : Bool} {draft : Draft ν} {given clean : Value} {d : Document}
    (hc : cleanDescription trim given = .ok clean) (h : check view trim clean draft = pure d) :
    d.IsNormal trim := by
  simp only [check, bind_eq_pure, pure_eq_pure, under_eq_pure] at h
  obtain ⟨description, hd, displayName, hn, props, hp, context, hx, childContext, hcc, methods, hm,
    composes, hs, extra, he, rfl⟩ := h
  constructor
  case description => exact cleanDescription_normal hc hd
  case displayName =>
    intro s hs
    rcases checkText_eq_pure hn with ⟨-, rfl⟩ | ⟨t, ht, -, rfl⟩
    · cases hs
    · exact Option.some.inj hs ▸ ht
  case props => exact entriesNormal_of_checkKeys hp
  case context => exact entriesNormal_of_checkKeys hx
  case childContext => exact entriesNormal_of_checkKeys hcc
  case methods =>
    intro ms hms
    obtain ⟨rfl, hne⟩ := (nonEmptyList_eq_some _ _).mp hms
    exact ⟨hne, isNormal_of_checkMethodsFrom view 0 hm⟩
  case composes =>
    intro names hnames
    obtain ⟨rfl, hne⟩ := (nonEmptyList_eq_some _ _).mp hnames
    exact ⟨hne, nodup_of_readItems_distinct hs⟩
  case extra =>
    obtain ⟨found, hf, rfl⟩ := checkKeys_eq_pure he
    intro es hes
    obtain ⟨rfl, hne⟩ := (nonEmptyList_eq_some _ _).mp hes
    refine ⟨hne, ?_⟩
    intro e hmem
    have hk := hf ▸ mem_keyed hmem
    simpa using List.of_mem_filter hk

theorem normalize_eq_ok {trim : Bool} {draft : Draft ν} {d : Document} :
    draft.normalize view trim = .ok d ↔ ∃ clean,
      cleanDescription trim draft.description = .ok clean ∧
        check view trim clean draft = pure d := by
  unfold normalize
  cases cleanDescription trim draft.description with
  | error failure => simp [bind, Except.bind]
  | ok clean => simp [bind, Except.bind, result_eq_ok]

theorem cleanExtra_of_normalize {trim : Bool} {draft : Draft ν} {d : Document}
    (h : draft.normalize view trim = .ok d) :
    cleanExtra draft.extra = keyed (d.extra.getD []) := by
  obtain ⟨clean, -, hcheck⟩ := (normalize_eq_ok view).mp h
  simp only [check, bind_eq_pure, under_eq_pure, pure_eq_pure] at hcheck
  obtain ⟨_, -, _, -, _, -, _, -, _, -, _, -, _, -, extra, hextra, rfl⟩ := hcheck
  exact (checkKeys_eq_iff.mp hextra).2

/-- Normalization ends in normal form, whatever the draft and the data in it are. -/
theorem isNormal_of_normalize {trim : Bool} {draft : Draft ν} {d : Document}
    (h : draft.normalize view trim = .ok d) : d.IsNormal trim := by
  obtain ⟨clean, hc, hd⟩ := (normalize_eq_ok view).mp h
  exact isNormal_of_check view hc hd

end

/-! ### Normal form is kept -/

theorem checkMethod_ofMethod {trim : Bool} {m : MethodEntry} (h : m.IsNormal trim) :
    checkMethod .values trim (ofMethod m) = pure m := by
  obtain ⟨hname, hdoc, hret, hdesc⟩ := h
  refine (checkMethod_eq_pure _).mpr ⟨hname, m.modifiers, m.params, ?_, ?_, ?_⟩
  · rw [readItems_eq_pure, ofMethod, List.forall₂_map_left_iff, List.forall₂_same]
    intro s _
    rfl
  · rw [readItems_eq_pure, ofMethod, List.forall₂_map_left_iff, List.forall₂_same]
    intro fields _
    rw [takeMapping_values]
    rfl
  · have hid : (Record.mapData (View.value .values) : Keyed String Value → _) = id := by
      funext fields
      exact Record.mapData_id fields
    simp only [ofMethod, hdoc, hret, hdesc, hid, List.map_id, Option.map_id, id_eq]

theorem checkMethodsFrom_ofMethod {trim : Bool} (i : Nat) {ms : List MethodEntry}
    (h : ∀ m ∈ ms, m.IsNormal trim) :
    checkMethodsFrom .values trim i (ms.map ofMethod) = pure ms := by
  induction ms generalizing i with
  | nil => rfl
  | cons m rest ih =>
    have hm := checkMethod_ofMethod (h m (List.mem_cons_self ..))
    have hrest := ih (i + 1) fun x hx => h x (List.mem_cons_of_mem _ hx)
    simp only [List.map_cons, checkMethodsFrom, bind_eq_pure, under_eq_pure, pure_eq_pure]
    exact ⟨m, hm, rest, hrest, rfl⟩

theorem distinct_texts {names : List String} (h : names.Nodup) :
    distinct (names.map .text) = names.map .text := by
  refine Distinct.eraseDupsBy_eq_self ?_
  rw [List.pairwise_map]
  refine h.imp ?_
  intro a b hab
  have hba : ¬ b = a := fun he => hab he.symm
  simp [Value.same, Value.key?, Key.text_beq_text, hba]

theorem readItems_texts (names : List String) :
    readItems readText (names.map .text) = pure names := by
  rw [readItems_eq_pure, List.forall₂_map_left_iff, List.forall₂_same]
  intro s _
  rfl

theorem cleanExtra_keyed {es : Keyed String Value} (h : ∀ e ∈ es, e.2.isEmpty = false) :
    cleanExtra (keyed es) = keyed es := by
  rw [cleanExtra, List.filter_eq_self]
  intro e he
  obtain ⟨f, hf, rfl⟩ := List.mem_map.mp he
  simp [h f hf]

theorem cleanDescription_optionValue {trim : Bool} {o : Option String}
    (h : o.bind (cleanText trim) = o) :
    cleanDescription trim (Record.optionValue .text o) = .ok (Record.optionValue .text o) := by
  cases o with
  | none => rfl
  | some s =>
    have hs : cleanText trim s = some s := h
    simp only [Record.optionValue, cleanDescription, hs]

end Draft

namespace Document

open Checked Draft Schema

theorem check_ofDocument {trim : Bool} {d : Document} (h : d.IsNormal trim) :
    check .values trim (Record.optionValue .text d.description) (Draft.ofDocument d) = pure d := by
  simp only [check, bind_eq_pure, under_eq_pure, pure_eq_pure, Draft.ofDocument]
  refine ⟨d.description, ?description, d.displayName, checkText_optionValue h.displayName,
    d.props, checkKeys_cleanEntries h.props, d.context, checkKeys_cleanEntries h.context,
    d.childContext, checkKeys_cleanEntries h.childContext, d.methods.getD [], ?methods,
    d.composes.getD [], ?composes, d.extra, ?extra, ?whole⟩
  case description =>
    refine checkText_optionValue ?_
    intro s hs
    have hb := h.description
    rw [hs] at hb
    exact cleanText_ne_empty hb
  case methods =>
    refine checkMethodsFrom_ofMethod 0 ?_
    cases hm : d.methods with
    | none => simp
    | some ms => exact (h.methods ms hm).2
  case composes =>
    cases hc : d.composes with
    | none => rfl
    | some names =>
      rw [Option.getD_some, distinct_texts (h.composes names hc).2]
      exact readItems_texts names
  case extra =>
    cases he : d.extra with
    | none => rfl
    | some es =>
      obtain ⟨hne, hes⟩ := h.extra es he
      rw [Option.getD_some, cleanExtra_keyed hes]
      exact checkKeys_eq_iff.mpr ⟨fun hs => hne (Option.some.inj hs), rfl⟩
  case whole =>
    have hm : nonEmptyList (d.methods.getD []) = d.methods := by
      cases hm : d.methods with
      | none => rfl
      | some ms => exact (nonEmptyList_eq_some _ _).mpr ⟨rfl, (h.methods ms hm).1⟩
    have hc : nonEmptyList (d.composes.getD []) = d.composes := by
      cases hc : d.composes with
      | none => rfl
      | some names => exact (nonEmptyList_eq_some _ _).mpr ⟨rfl, (h.composes names hc).1⟩
    rw [hm, hc]

/-- Normalization has nothing to do on a document in normal form. -/
theorem renormalize_of_isNormal {trim : Bool} {d : Document} (h : d.IsNormal trim) :
    d.renormalize trim = .ok d :=
  (normalize_eq_ok _).mpr
    ⟨_, cleanDescription_optionValue h.description, check_ofDocument h⟩

theorem isSettled_of_isNormal {trim : Bool} {d : Document} (h : d.IsNormal trim) :
    d.isSettled trim = true := by
  simp [isSettled, renormalize_of_isNormal h]

end Document

end ComponentAtlas
