import ComponentAtlas.Proofs.Document.NormalForm
import ComponentAtlas.Proofs.Record.WellTyped
import ComponentAtlas.Record.Bench

/-!
# Records that become documents

Normalization looks at each slot of a draft by itself, and a draft becomes a
document exactly when no slot is refused. A well-typed record is refused for
three reasons only: a method has lost its name, data that are not empty are kept
under a key that is no text, or they reach too deep to be copied.
-/

namespace ComponentAtlas

open Checked Record Schema

/-! ### Slot by slot -/

theorem Schema.exists_readKeys {α : Type} {entries : Keyed Key α} :
    (∃ found, readKeys entries = pure found) ↔ ∀ e ∈ entries, e.1.IsText := by
  constructor
  · intro h e he
    obtain ⟨found, hfound⟩ := h
    rw [(readKeys_eq_pure _ _).mp hfound] at he
    obtain ⟨field, -, rfl⟩ := List.mem_map.mp he
    exact ⟨field.1, rfl⟩
  · intro h
    induction entries with
    | nil => exact ⟨[], rfl⟩
    | cons entry rest ih =>
      obtain ⟨key, value⟩ := entry
      obtain ⟨⟨name, rfl⟩, hrest⟩ := List.forall_mem_cons.mp h
      obtain ⟨found, hfound⟩ := ih hrest
      refine ⟨(name, value) :: found, (readKeys_eq_pure _ _).mpr ?_⟩
      rw [(readKeys_eq_pure _ _).mp hfound]
      rfl

namespace Draft

variable {ν : Type} {view : View ν} {trim : Bool}

theorem exists_checkKeys {α : Type} {entries : Keyed Key α} :
    (∃ found, checkKeys entries = pure found) ↔ ∀ e ∈ entries, e.1.IsText := by
  rw [← exists_readKeys]
  constructor
  · intro h
    obtain ⟨o, ho⟩ := h
    obtain ⟨found, hfound, -⟩ := (map_eq_pure _ _ _).mp ho
    exact ⟨found, hfound⟩
  · intro h
    obtain ⟨found, hfound⟩ := h
    exact ⟨nonEmptyList found, (map_eq_pure _ _ _).mpr ⟨found, hfound, rfl⟩⟩

theorem forall_cleanEntries (trim : Bool) {entries : Keyed Key (PropDescriptor Value)}
    (h : ∀ e ∈ entries, e.1.IsText) : ∀ e ∈ cleanEntries trim entries, e.1.IsText := by
  intro e he
  obtain ⟨source, hsource, rfl⟩ := List.mem_map.mp he
  exact h source hsource

theorem exists_checkText {v : Value} (h : v = .null ∨ v.IsText) : ∃ o, checkText v = pure o := by
  unfold checkText
  split
  · exact ⟨none, rfl⟩
  · rename_i hempty
    rcases h with rfl | ⟨s, rfl⟩
    · exact absurd rfl hempty
    · exact ⟨some s, rfl⟩

theorem exists_checkComposes {values : List Value} (h : ∀ v ∈ values, v.IsText) :
    ∃ names, readItems readText (distinct values) = pure names := by
  refine exists_readItems.mpr ?_
  intro v hv
  obtain ⟨s, rfl⟩ := h v ((Distinct.eraseDupsBy_sublist values).subset hv)
  exact ⟨s, rfl⟩

theorem exists_checkMethod {m : MethodDescriptor Value} (h : m.IsWellTyped) :
    (∃ entry, checkMethod .values trim m = pure entry) ↔ m.name ≠ "" := by
  constructor
  · intro hentry
    obtain ⟨entry, hentry⟩ := hentry
    exact ((checkMethod_eq_pure _).mp hentry).1
  · intro hname
    have hmodifiers : ∃ found, readItems (takeText .values) m.modifiers = pure found := by
      refine exists_readItems.mpr ?_
      intro v hv
      obtain ⟨s, rfl⟩ := h.modifiers v hv
      exact ⟨s, rfl⟩
    have hparams : ∃ found, readItems (takeMapping .values) m.params = pure found := by
      refine exists_readItems.mpr ?_
      intro v hv
      obtain ⟨fields, rfl⟩ := h.params v hv
      exact ⟨fields, takeMapping_values _⟩
    obtain ⟨modifiers, hmodifiers⟩ := hmodifiers
    obtain ⟨params, hparams⟩ := hparams
    exact ⟨_, (checkMethod_eq_pure _).mpr ⟨hname, modifiers, params, hmodifiers, hparams, rfl⟩⟩

theorem exists_checkMethods (i : Nat) {ms : List (MethodDescriptor ν)} :
    (∃ entries, checkMethodsFrom view trim i ms = pure entries) ↔
      ∀ m ∈ ms, ∃ entry, checkMethod view trim m = pure entry := by
  induction ms generalizing i with
  | nil => simp [checkMethodsFrom, pure_eq_pure]
  | cons m rest ih =>
    rw [List.forall_mem_cons, ← ih (i + 1)]
    simp only [checkMethodsFrom, bind_eq_pure, under_eq_pure, pure_eq_pure]
    constructor
    · intro h
      obtain ⟨_, entry, hentry, entries, hentries, -⟩ := h
      exact ⟨⟨entry, hentry⟩, ⟨entries, hentries⟩⟩
    · intro h
      obtain ⟨⟨entry, hentry⟩, entries, hentries⟩ := h
      exact ⟨_, entry, hentry, entries, hentries, rfl⟩

end Draft

/-! ### Records as a whole -/

namespace Record

open Draft

theorem IsWellTyped.exists_cleanDescription {r : Record Value} (h : r.IsWellTyped) (trim : Bool) :
    ∃ clean, cleanDescription trim r.description = .ok clean ∧
      ∃ o, checkText clean = pure o := by
  obtain ⟨s, hs⟩ := h.description
  refine ⟨optionValue .text (cleanText trim s), by rw [hs]; rfl, exists_checkText ?_⟩
  cases cleanText trim s with
  | none => exact .inl rfl
  | some t => exact .inr ⟨t, rfl⟩

theorem IsWellTyped.exists_ofRecord {r : Record Value} (h : r.IsWellTyped) (trim : Bool) :
    (∃ d, Document.ofRecord trim r = .ok d) ↔
      (∀ m ∈ r.methods, m.2.name ≠ "") ∧
        ∀ e ∈ r.extra, e.2.isEmpty = false → e.1.IsText := by
  have hmethods : (∃ entries, checkMethodsFrom .values trim 0 (r.methods.map Prod.snd) =
      pure entries) ↔ ∀ m ∈ r.methods, m.2.name ≠ "" := by
    rw [exists_checkMethods, List.forall_mem_map]
    exact forall₂_congr fun m hm => exists_checkMethod (h.methods m hm)
  have hextra : (∃ found, checkKeys (cleanExtra r.extra) = pure found) ↔
      ∀ e ∈ r.extra, e.2.isEmpty = false → e.1.IsText := by
    simp only [exists_checkKeys, cleanExtra, List.mem_filter, Bool.not_eq_true', and_imp]
  rw [← hmethods, ← hextra]
  constructor
  · intro hd
    obtain ⟨d, hd⟩ := hd
    obtain ⟨clean, -, hcheck⟩ := (normalize_eq_ok _).mp hd
    simp only [check, bind_eq_pure, under_eq_pure] at hcheck
    obtain ⟨_, _, _, _, _, _, _, _, _, _, methods, hmethods, _, _, extra, hextra, -⟩ := hcheck
    exact ⟨⟨methods, hmethods⟩, ⟨extra, hextra⟩⟩
  · intro hparts
    obtain ⟨⟨methods, hmethods⟩, extra, hextra⟩ := hparts
    obtain ⟨clean, hclean, description, hdescription⟩ := h.exists_cleanDescription trim
    obtain ⟨displayName, hdisplayName⟩ := exists_checkText h.displayName
    obtain ⟨props, hprops⟩ := exists_checkKeys.mpr (forall_cleanEntries trim h.props)
    obtain ⟨context, hcontext⟩ := exists_checkKeys.mpr (forall_cleanEntries trim h.context)
    obtain ⟨childContext, hchildContext⟩ :=
      exists_checkKeys.mpr (forall_cleanEntries trim h.childContext)
    obtain ⟨composes, hcomposes⟩ := exists_checkComposes h.composes
    have hcheck : ∃ d, check .values trim clean (Draft.ofRecord r) = pure d := by
      simp only [check, bind_eq_pure, under_eq_pure]
      exact ⟨_, description, hdescription, displayName, hdisplayName, props, hprops, context,
        hcontext, childContext, hchildContext, methods, hmethods, composes, hcomposes, extra,
        hextra, rfl⟩
    obtain ⟨d, hd⟩ := hcheck
    exact ⟨d, (normalize_eq_ok _).mpr ⟨clean, hclean, hd⟩⟩

theorem publication_eq_ok {bench : Bench} {trim : Bool} {d : Document} :
    bench.publication trim = .ok d ↔
      requireCopyable bench.record.extra = .ok () ∧ Document.ofRecord trim bench.record = .ok d := by
  have hbind : bench.publication trim =
      (requireCopyable bench.record.extra).bind fun _ => Document.ofRecord trim bench.record := rfl
  rw [hbind, bind_eq_ok]
  constructor
  · intro h
    obtain ⟨_, hcopy, hrecord⟩ := h
    exact ⟨hcopy, hrecord⟩
  · intro h
    exact ⟨(), h⟩

/--
After well-typed steps a record can be published unless one of its methods has
the empty name, or free-form data stand in the way: data that are not empty,
under a key that is no text, or data that reach too deep to be copied.
-/
theorem exists_publication_iff {steps : List (Step Value)}
    (hsteps : ∀ s ∈ steps, s.IsWellTyped) (trim : Bool) (published : Option Document) :
    (∃ d, Bench.publication trim ⟨empty.runAll steps, published⟩ = .ok d) ↔
      (∀ m ∈ (empty.runAll steps).methods, m.2.name ≠ "") ∧
        (∀ e ∈ (empty.runAll steps).extra, e.2.isEmpty = false → e.1.IsText) ∧
          ∀ e ∈ (empty.runAll steps).extra, e.2.height ≤ deepestCopied := by
  have hrecord : (empty.runAll steps).IsWellTyped := isWellTyped_empty.runAll hsteps
  have haccepted := hrecord.exists_ofRecord trim
  simp only [publication_eq_ok, requireCopyable_eq_ok, List.forall_mem_map]
  constructor
  · intro h
    obtain ⟨d, hdepth, hd⟩ := h
    obtain ⟨hnames, hkeys⟩ := haccepted.mp ⟨d, hd⟩
    exact ⟨hnames, hkeys, hdepth⟩
  · intro h
    obtain ⟨hnames, hkeys, hdepth⟩ := h
    obtain ⟨d, hd⟩ := haccepted.mpr ⟨hnames, hkeys⟩
    exact ⟨d, hdepth, hd⟩

/-- A method that was asked for under the empty name. -/
def namelessSteps : List (Step Value) := [.method (.text "") none]

def focusSteps : List (Step Value) :=
  [.method (.text "focus") none,
    .appendToMethod (.text "focus") (.text "modifiers") (.text "static"),
    .compose (.text "./Base"), .set (.text "tags") (.array [.text "ui", .null])]

/-- A record with a nameless method is refused, and one whose method has a name is not. -/
theorem exists_publication_iff_nameless :
    (∀ s ∈ namelessSteps, s.IsWellTyped) ∧
      (¬ ∃ d, Bench.publication true ⟨empty.runAll namelessSteps, none⟩ = .ok d) ∧
      (∀ s ∈ focusSteps, s.IsWellTyped) ∧
      ∃ d, Bench.publication true ⟨empty.runAll focusSteps, none⟩ = .ok d := by
  have hnameless : ∀ s ∈ namelessSteps, s.IsWellTyped := by
    simp [namelessSteps, Step.IsWellTyped]
  have hfocus : ∀ s ∈ focusSteps, s.IsWellTyped := by
    simp [focusSteps, Step.IsWellTyped, Value.IsText]
  refine ⟨hnameless, ?_, hfocus, ?_⟩
  · rw [exists_publication_iff hnameless]
    intro h
    exact h.1 ("", { name := "" }) (by decide) rfl
  · rw [exists_publication_iff hfocus]
    have hmethods : (empty.runAll focusSteps).methods =
        [("focus", { name := "focus", modifiers := [.text "static"] })] := by decide
    have hextra : (empty.runAll focusSteps).extra =
        [(.text "tags", .array [.text "ui", .null])] := by decide
    rw [hmethods, hextra]
    simp [Key.IsText, Value.height, Value.heightOfItems, deepestCopied]

end Record

end ComponentAtlas
