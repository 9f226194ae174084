import ComponentAtlas.Options
import ComponentAtlas.Proofs.Data.Checked
import ComponentAtlas.Proofs.Settings.History

/-!
# Options after changes of the settings

What is given as options is taken as it is given. What is not given comes from
the settings as they stand after all changes, and only then are the settings
asked: a dialect that no grammar reads is refused when it is needed, and at no
other time.
-/

namespace ComponentAtlas

open Checked

theorem Diagnostic.category_addGiven (d : Diagnostic) (entries : Keyed String Datum) :
    (d.addGiven entries).category = d.category := by
  induction entries generalizing d with
  | nil => rfl
  | cons entry rest ih =>
    refine (ih _).trans ?_
    dsimp only
    split <;> rfl

namespace Options

theorem dialectOf?_code (d : Dialect) : dialectOf? (.text d.code) = some d :=
  Dialect.ofCode?_code d

theorem dialectOf?_eq_some_iff {v : Value} {d : Dialect} :
    dialectOf? v = some d ↔ v = .text d.code := by
  constructor
  · intro h
    obtain ⟨s, hs, hd⟩ := Option.bind_eq_some_iff.mp h
    cases v with
    | text t =>
      cases hs
      rw [Dialect.code_of_ofCode? hd]
    | _ => cases hs
  · intro h
    rw [h, dialectOf?_code]

/-- What a caller asks for: options that are there already, or some of their fields. -/
inductive Wish where
  | ready (options : Options)
  | fields (dialect? : Option Dialect) (strict? : Option Bool)

/-- A mapping of valid fields and of nothing else. -/
structure HoldsFields (fields : Keyed String Value) (dialect? : Option Dialect)
    (strict? : Option Bool) : Prop where
  others : ∀ key ∈ fields.keys, key = "dialect" ∨ key = "strict"
  dialect : fields.get? "dialect" = dialect?.map fun d => .text d.code
  strict : Option.Rel (fun v b => Schema.readTruth v = pure b) (fields.get? "strict") strict?

inductive Given.Says : Given → Wish → Prop
  | ready (options : Options) : Says (.ready options) (.ready options)
  | nothing : Says .nothing (.fields none none)
  | null : Says (.value .null) (.fields none none)
  | mapping {fields : Keyed String Value} {dialect? : Option Dialect} {strict? : Option Bool}
      (h : HoldsFields fields dialect? strict?) :
      Says (.value (.object fields)) (.fields dialect? strict?)

/-- What comes of a wish when the settings have these values for dialect and strictness. -/
inductive Wish.Outcome (dialect strict : Value) : Wish → Except Failure Options → Prop
  | ready (options : Options) : Outcome dialect strict (.ready options) (.ok options)
  | given (d : Dialect) (strict? : Option Bool) :
      Outcome dialect strict (.fields (some d) strict?) (.ok ⟨d, strict?.getD strict.isTruthy⟩)
  | configured (d : Dialect) (strict? : Option Bool) (h : dialect = .text d.code) :
      Outcome dialect strict (.fields none strict?) (.ok ⟨d, strict?.getD strict.isTruthy⟩)
  | unknown (strict? : Option Bool) (h : ∀ d : Dialect, dialect ≠ .text d.code) :
      Outcome dialect strict (.fields none strict?)
        (.error (.reported
          (.invalidConfiguration "parsing.dialect" dialect "no grammar for this dialect")))

/-! ### Reading what is given -/

section

variable {field : Schema.Field} {fields : Keyed String Value}

theorem given?_of_oneName (h : field.ownName = field.publicName)
    (fields : Keyed String Value) :
    field.given? fields = (fields.get? field.publicName).map (Prod.mk field.publicName) := by
  unfold Schema.Field.given?
  rw [h]
  cases fields.get? field.publicName <;> rfl

theorem read_of_oneName {α : Type} (h : field.ownName = field.publicName) {absent : α}
    {read : Value → Checked α} {a? : Option α}
    (hread : Option.Rel (fun v a => read v = pure a) (fields.get? field.publicName) a?) :
    field.read absent read fields = pure (a?.getD absent) := by
  have hgiven := given?_of_oneName h fields
  cases hv : fields.get? field.publicName with
  | none =>
    rw [hv] at hread hgiven
    cases hread
    simp only [Schema.Field.read, hgiven, Option.map_none, Option.getD_none]
  | some v =>
    rw [hv] at hread hgiven
    cases hread with
    | some ha => exact (Schema.Field.read_eq_pure field.publicName hgiven).mpr ha

end

variable {fields : Keyed String Value} {dialect? : Option Dialect} {strict? : Option Bool}

namespace HoldsFields

theorem nil : HoldsFields [] none none where
  others _ h := nomatch h
  dialect := rfl
  strict := .none

theorem refuseOthers (h : HoldsFields fields dialect? strict?) :
    Schema.refuseOthers [dialectField, strictField] fields = pure () := by
  apply Schema.refuseOthers_eq_pure
  intro key hkey
  have hsome : (fields.get? key).isSome := by
    rw [← Keyed.contains_keys]
    exact List.contains_iff_mem.mpr hkey
  obtain ⟨v, hv⟩ := Option.isSome_iff_exists.mp hsome
  have hfield {field : Schema.Field} (hnames : field.ownName = field.publicName)
      (hname : field.publicName = key) :
      (field.given? fields).map Prod.fst = some key := by
    rw [given?_of_oneName hnames, hname, hv]
    rfl
  rw [List.mem_filterMap]
  rcases h.others key hkey with hname | hname
  · exact ⟨dialectField, List.mem_cons_self, hfield rfl hname.symm⟩
  · exact ⟨strictField, List.mem_cons_of_mem _ List.mem_cons_self, hfield rfl hname.symm⟩

theorem readFields (h : HoldsFields fields dialect? strict?) (defaults : Options) :
    readFields defaults fields =
      pure ⟨dialect?.getD defaults.dialect, strict?.getD defaults.strict⟩ := by
  have hdialect :
      Option.Rel (fun v d => readDialect v = pure d) (fields.get? "dialect") dialect? := by
    rw [h.dialect]
    cases dialect? with
    | none => exact .none
    | some d =>
      refine .some ?_
      simp only [readDialect, dialectOf?_code]
  simp only [Options.readFields, bind_eq_pure, pure_eq_pure]
  exact ⟨_, read_of_oneName rfl hdialect, _, read_of_oneName rfl h.strict, (), h.refuseOthers, rfl⟩

end HoldsFields

/-! ### The dialect of the settings -/

theorem configuredDialect_eq_ok {settings : Settings} {d : Dialect}
    (h : settings.get (.text "parsing") (.text "dialect") (.text "javascript") = .text d.code) :
    configuredDialect settings = .ok d := by
  unfold configuredDialect
  rw [show Dialect.javascript.code = "javascript" from rfl, h]
  simp only [dialectOf?_code]

theorem configuredDialect_eq_error {settings : Settings} {v : Value}
    (hv : settings.get (.text "parsing") (.text "dialect") (.text "javascript") = v)
    (h : ∀ d : Dialect, v ≠ .text d.code) :
    configuredDialect settings =
      .error (.invalidConfiguration "parsing.dialect" v "no grammar for this dialect") := by
  have hnone : dialectOf? v = none :=
    Option.eq_none_iff_forall_ne_some.mpr fun d hd => h d (dialectOf?_eq_some_iff.mp hd)
  unfold configuredDialect
  rw [show Dialect.javascript.code = "javascript" from rfl, hv]
  simp only [hnone]

/-! ### Options -/

section

variable {settings : Settings} {dialect strict : Value}

theorem HoldsFields.outcome (h : HoldsFields fields dialect? strict?)
    (hdialect :
      settings.get (.text "parsing") (.text "dialect") (.text "javascript") = dialect)
    (hstrict : settings.get (.text "parsing") (.text "strict") (.bool false) = strict) :
    (Wish.fields dialect? strict?).Outcome dialect strict (ofFields settings fields) := by
  have hconfigured : configuredStrict settings = strict.isTruthy := by
    rw [configuredStrict, hstrict]
  have hgiven : dialectField.given? fields = dialect?.map fun d => ("dialect", .text d.code) := by
    rw [given?_of_oneName rfl, show dialectField.publicName = "dialect" from rfl, h.dialect,
      Option.map_map]
    rfl
  unfold ofFields
  rw [hgiven, hconfigured]
  cases dialect? with
  | some d =>
    have hread := (result_eq_ok _ _).mpr (h.readFields ⟨.javascript, strict.isTruthy⟩)
    simp only [Option.map_some, hread]
    exact .given d strict?
  | none =>
    by_cases hknown : ∃ d : Dialect, dialect = .text d.code
    · obtain ⟨d, hd⟩ := hknown
      have hread := (result_eq_ok _ _).mpr (h.readFields ⟨d, strict.isTruthy⟩)
      simp only [Option.map_none, configuredDialect_eq_ok (hdialect.trans hd), hread]
      exact .configured d strict? hd
    · have hunknown : ∀ d : Dialect, dialect ≠ .text d.code := not_exists.mp hknown
      simp only [Option.map_none, configuredDialect_eq_error hdialect hunknown]
      exact .unknown strict? hunknown

theorem Given.Says.outcome {given : Given} {wish : Wish} (h : given.Says wish)
    (hdialect :
      settings.get (.text "parsing") (.text "dialect") (.text "javascript") = dialect)
    (hstrict : settings.get (.text "parsing") (.text "strict") (.bool false) = strict) :
    wish.Outcome dialect strict (ofGiven settings given) := by
  cases h with
  | ready options => exact .ready options
  | nothing => exact HoldsFields.nil.outcome hdialect hstrict
  | null => exact HoldsFields.nil.outcome hdialect hstrict
  | mapping hfields => exact hfields.outcome hdialect hstrict

/-- No other settings are asked, whatever is given. -/
theorem ofGiven_congr {other : Settings}
    (hdialect : settings.get (.text "parsing") (.text "dialect") (.text "javascript") =
      other.get (.text "parsing") (.text "dialect") (.text "javascript"))
    (hstrict : settings.get (.text "parsing") (.text "strict") (.bool false) =
      other.get (.text "parsing") (.text "strict") (.bool false)) (given : Given) :
    ofGiven settings given = ofGiven other given := by
  have hconfigured : configuredDialect settings = configuredDialect other := by
    unfold configuredDialect
    rw [show Dialect.javascript.code = "javascript" from rfl, hdialect]
  have htruth : configuredStrict settings = configuredStrict other := by
    unfold configuredStrict
    rw [hstrict]
  have hfields (fields : Keyed String Value) :
      ofFields settings fields = ofFields other fields := by
    unfold ofFields
    rw [hconfigured, htruth]
  cases given with
  | nothing => exact hfields []
  | ready options => rfl
  | value v =>
    cases v with
    | null => exact hfields []
    | object fields => exact hfields fields
    | _ => rfl

end

/-- The outcome is a report that the settings are invalid. -/
def IsMisconfigured (outcome : Except Failure Options) : Prop :=
  ∃ report, outcome = .error (.reported report) ∧ report.category = .invalidConfiguration

theorem Wish.Outcome.isMisconfigured_iff {wish : Wish} {dialect strict : Value}
    {outcome : Except Failure Options} (h : wish.Outcome dialect strict outcome) :
    IsMisconfigured outcome ↔
      (∃ strict?, wish = .fields none strict?) ∧ ∀ d : Dialect, dialect ≠ .text d.code := by
  have hok (options : Options) : ¬ IsMisconfigured (.ok options) := fun h => nomatch h.choose_spec.1
  cases h with
  | ready options => exact iff_of_false (hok options) fun h => nomatch h.1.choose_spec
  | given d strict? => exact iff_of_false (hok _) fun h => nomatch h.1.choose_spec
  | configured d strict? hd => exact iff_of_false (hok _) fun h => h.2 d hd
  | unknown strict? hunknown =>
    exact iff_of_true ⟨_, rfl, Diagnostic.category_addGiven _ _⟩ ⟨⟨strict?, rfl⟩, hunknown⟩

def isNoticed (c : Settings.Change) : Bool :=
  c.touches "parsing" "dialect" || c.touches "parsing" "strict"

/-- Options that are asked for after changes, and the two values that stand then. -/
structure IsTaken (changes : List Settings.Change) (given : Given) (wish : Wish)
    (dialect strict : Value) : Prop where
  dialectStands : Settings.Stands "parsing" "dialect" (.text "javascript") changes dialect
  strictStands : Settings.Stands "parsing" "strict" (.bool false) changes strict
  outcome : wish.Outcome dialect strict (ofGiven (Settings.initial.changedAll changes) given)
  misconfigured : IsMisconfigured (ofGiven (Settings.initial.changedAll changes) given) ↔
    (∃ strict?, wish = .fields none strict?) ∧ ∀ d : Dialect, dialect ≠ .text d.code
  unnoticed : ofGiven (Settings.initial.changedAll (changes.filter isNoticed)) given =
    ofGiven (Settings.initial.changedAll changes) given

theorem taken_as_given_else_as_set_last {given : Given} {wish : Wish} (hgiven : given.Says wish)
    (changes : List Settings.Change) :
    ∃ dialect strict, IsTaken changes given wish dialect strict := by
  obtain ⟨dialect, hdialect⟩ :=
    Settings.exists_stands "parsing" "dialect" (.text "javascript") changes
  obtain ⟨strict, hstrict⟩ := Settings.exists_stands "parsing" "strict" (.bool false) changes
  have houtcome := hgiven.outcome (Settings.get_of_stands rfl hdialect)
    (Settings.get_of_stands rfl hstrict)
  -- what stands after the noticed changes is what stands after all of them
  have hdialect' := hdialect.filter isNoticed fun _ h => Bool.or_eq_true_iff.mpr (.inl h)
  have hstrict' := hstrict.filter isNoticed fun _ h => Bool.or_eq_true_iff.mpr (.inr h)
  refine ⟨dialect, strict, hdialect, hstrict, houtcome, houtcome.isMisconfigured_iff, ?_⟩
  apply ofGiven_congr
  · rw [Settings.get_of_stands rfl hdialect, Settings.get_of_stands rfl hdialect']
  · rw [Settings.get_of_stands rfl hstrict, Settings.get_of_stands rfl hstrict']

/-- A reset, a topic that was not there before, and a key that is refused. -/
def mixedChanges : List Settings.Change :=
  [.set (.text "parsing") (.text "dialect") (.text "tsx"), .reset,
    .set (.text "cache") (.text "dialect") (.text "coffee"),
    .set (.text "parsing") (.text "dialect") (.text "typescript"),
    .set (.text "parsing") (.array []) (.bool true)]

theorem taken_as_given_else_as_set_last_mixed :
    (Given.value (.object [("strict", .bool true)])).Says (.fields none (some true)) ∧
      ∃ dialect strict, IsTaken mixedChanges (.value (.object [("strict", .bool true)]))
        (.fields none (some true)) dialect strict := by
  have hfields : HoldsFields [("strict", .bool true)] none (some true) := by
    refine ⟨?_, rfl, .some rfl⟩
    intro key hkey
    exact .inr (List.mem_singleton.mp hkey)
  exact ⟨.mapping hfields, taken_as_given_else_as_set_last (.mapping hfields) mixedChanges⟩

example : ofGiven (Settings.initial.changedAll mixedChanges)
    (.value (.object [("strict", .bool true)])) = .ok ⟨.typescript, true⟩ := by rfl

end Options

end ComponentAtlas
