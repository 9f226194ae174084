import ComponentAtlas.Record.Bench

/-!
# Records and the documents made of them

A record and the document last made of it have nothing in common but the moment
of publishing. The record of a bench is what the steps on it make of it, whatever
was published, shown or tried to be changed between them; and the document is the
one made at the last publishing that succeeded, whatever was done since.
-/

namespace ComponentAtlas.Record.Bench

/-- The step on the record that an action is, if it is one. -/
def Action.step? : Action → Option (Step Value)
  | .step s => some s
  | _ => none

def Action.isStep (a : Action) : Bool := a.step?.isSome

/-- Publishing after the actions makes `d` of the record that the steps among them lead to. -/
def Publishes (trim : Bool) (actions : List Action) (d : Document) : Prop :=
  publication trim ⟨Record.empty.runAll (actions.filterMap Action.step?), none⟩ = .ok d

/-- The document `d` was made by a publishing among the actions, and none by a later one. -/
def IsLastPublished (trim : Bool) (actions : List Action) (d : Document) : Prop :=
  ∃ before since, actions = before ++ .publish :: since ∧ Publishes trim before d ∧
    ∀ b rest, since = b ++ .publish :: rest → ∀ e, ¬ Publishes trim (before ++ .publish :: b) e

variable {trim : Bool}

/-! ### The record -/

theorem record_act (bench : Bench) :
    ∀ a : Action, (bench.act trim a).1.record = bench.record.runAll a.step?.toList
  | .publish => by
    rw [act]
    cases bench.publication trim <;> rfl
  | .show => by
    rw [act]
    split <;> rfl
  | .step _ | .write _ | .setAttribute _ | .setItem _ | .setEntry _ _ _ => rfl

theorem actAll_append (bench : Bench) (before after : List Action) :
    bench.actAll trim (before ++ after) = (bench.actAll trim before).actAll trim after :=
  List.foldl_append

theorem record_actAll (bench : Bench) (actions : List Action) :
    (bench.actAll trim actions).record =
      bench.record.runAll (actions.filterMap Action.step?) := by
  induction actions generalizing bench with
  | nil => rfl
  | cons a rest ih =>
    have hrest : (bench.actAll trim (a :: rest)).record =
        (bench.record.runAll a.step?.toList).runAll (rest.filterMap Action.step?) := by
      rw [← record_act]
      exact ih _
    rw [hrest, List.filterMap_cons]
    cases a.step? <;> rfl

theorem filterMap_filter_isStep (actions : List Action) :
    (actions.filter Action.isStep).filterMap Action.step? = actions.filterMap Action.step? := by
  have hstep : (fun a => if Action.isStep a then Action.step? a else none) = Action.step? := by
    funext a
    cases a <;> rfl
  rw [List.filterMap_filter, hstep]

/-- Actions that are no steps leave no trace in the record. -/
theorem record_actAll_filter (bench : Bench) (actions : List Action) :
    (bench.actAll trim (actions.filter Action.isStep)).record =
      (bench.actAll trim actions).record := by
  rw [record_actAll, record_actAll, filterMap_filter_isStep]

/-! ### The document -/

theorem published_act_publish {bench : Bench} {d : Document}
    (h : bench.publication trim = .ok d) : (bench.act trim .publish).1.published = some d := by
  rw [act, h]

/-- The document stays the same until a publishing succeeds. -/
theorem published_act (bench : Bench) :
    ∀ a : Action, (a = .publish → ∀ d, bench.publication trim ≠ .ok d) →
      (bench.act trim a).1.published = bench.published
  | .publish => fun h => by
    rw [act]
    cases hmade : bench.publication trim with
    | ok d => exact absurd hmade (h rfl d)
    | error failure => rfl
  | .show => fun _ => by
    rw [act]
    split <;> rfl
  | .step _ | .write _ | .setAttribute _ | .setItem _ | .setEntry _ _ _ => fun _ => rfl

theorem published_actAll (bench : Bench) {actions : List Action}
    (h : ∀ b rest, actions = b ++ .publish :: rest →
      ∀ d, (bench.actAll trim b).publication trim ≠ .ok d) :
    (bench.actAll trim actions).published = bench.published := by
  induction actions generalizing bench with
  | nil => rfl
  | cons a rest ih =>
    have hfirst : (bench.act trim a).1.published = bench.published :=
      published_act bench a fun ha => h [] rest (ha ▸ rfl)
    have hrest : ((bench.act trim a).1.actAll trim rest).published =
        (bench.act trim a).1.published :=
      ih _ fun b later hb => h (a :: b) later (hb ▸ rfl)
    exact hrest.trans hfirst

theorem publication_actAll_empty (actions : List Action) (d : Document) :
    (empty.actAll trim actions).publication trim = .ok d ↔ Publishes trim actions d := by
  have hrecord : (empty.actAll trim actions).record =
      empty.record.runAll (actions.filterMap Action.step?) := record_actAll empty actions
  rw [Publishes, publication, publication, hrecord]
  rfl

theorem published_of_isLastPublished {actions : List Action} {d : Document}
    (h : IsLastPublished trim actions d) : (empty.actAll trim actions).published = some d := by
  obtain ⟨before, since, rfl, hmade, hsince⟩ := h
  have hpublish := published_act_publish ((publication_actAll_empty before d).mpr hmade)
  have hkept : (((empty.actAll trim before).act trim .publish).1.actAll trim since).published =
      ((empty.actAll trim before).act trim .publish).1.published := by
    refine published_actAll _ fun b rest hb e he => hsince b rest hb e ?_
    rw [← publication_actAll_empty, actAll_append]
    exact he
  rw [actAll_append]
  exact hkept.trans hpublish

theorem published_of_none {actions : List Action}
    (h : ∀ b rest, actions = b ++ .publish :: rest → ∀ d, ¬ Publishes trim b d) :
    (empty.actAll trim actions).published = none :=
  published_actAll empty fun b rest hb d hd => h b rest hb d ((publication_actAll_empty b d).mp hd)

/-! ### Answers -/

/-- The answer to an action in a run is the answer on the bench that those before it lead to. -/
theorem getElem?_answers (bench : Bench) (before : List Action) (a : Action)
    (after : List Action) :
    (bench.answers trim (before ++ a :: after))[before.length]? =
      let reached := bench.actAll trim before
      some ((reached.act trim a).1.sharedAnswer trim after a (reached.act trim a).2) := by
  induction before generalizing bench with
  | nil => rfl
  | cons b rest ih =>
    rw [List.cons_append, answers, List.length_cons, List.getElem?_cons_succ]
    exact ih (bench.act trim b).1

theorem keptUntilSet_filter {bench other : Bench} (hsame : bench.record = other.record)
    (key : Key) (actions : List Action) :
    bench.keptUntilSet trim key actions =
      other.keptUntilSet trim key (actions.filter Action.isStep) := by
  induction actions generalizing bench other with
  | nil => rw [List.filter_nil, keptUntilSet, keptUntilSet, hsame]
  | cons a rest ih =>
    cases a with
    | step s =>
      have hrest : (bench.act trim (.step s)).1.keptUntilSet trim key rest =
          (other.act trim (.step s)).1.keptUntilSet trim key (rest.filter Action.isStep) :=
        ih (by rw [record_act, record_act, hsame])
      rw [List.filter_cons_of_pos rfl]
      cases s with
      | set name v => simp only [keptUntilSet, hrest, hsame]
      | _ => simpa only [keptUntilSet] using hrest
    | _ =>
      rw [List.filter_cons_of_neg (by simp [Action.isStep, Action.step?])]
      simp only [keptUntilSet]
      exact ih (by rw [record_act, ← hsame]; rfl)

theorem sharedAnswer_filter {bench other : Bench} (hsame : bench.record = other.record)
    (rest : List Action) (a : Action) (answer : Except Failure Reply) :
    bench.sharedAnswer trim rest a answer =
      other.sharedAnswer trim (rest.filter Action.isStep) a answer := by
  unfold sharedAnswer
  simp only [keptUntilSet_filter hsame]

/-- What a step answers is told by the record alone. -/
theorem act_step_congr {bench other : Bench} (hsame : bench.record = other.record)
    (s : Step Value) : (bench.act trim (.step s)).2 = (other.act trim (.step s)).2 := by
  simp only [act, hsame]

/--
A look at the document last published shows what was made of the record at the last publishing
that succeeded; and a step on the record leaves and answers the same as if all that is no step
were left out of the run.
-/
theorem record_and_published_apart (trim : Bool) (actions : List Action) :
    (∀ before after, actions = before ++ .show :: after →
      (∀ d, IsLastPublished trim before d →
        (empty.answers trim actions)[before.length]? = some (.document <$> d.written)) ∧
      ((∀ b rest, before = b ++ .publish :: rest → ∀ d, ¬ Publishes trim b d) →
        (empty.answers trim actions)[before.length]? =
          some (.error (Document.notDocumentation .null)))) ∧
    (∀ before blanks after, actions = before ++ .write blanks :: after →
      ∀ d, IsLastPublished trim before d →
        (empty.answers trim actions)[before.length]? =
          some (do pure (.text (← d.write (← layoutOf blanks))))) ∧
    ∀ before s after, actions = before ++ .step s :: after →
      (empty.actAll trim (before ++ [.step s])).record =
        (empty.actAll trim (before.filter Action.isStep ++ [.step s])).record ∧
      (empty.answers trim actions)[before.length]? =
        (empty.answers trim (actions.filter Action.isStep))[(before.filter
          Action.isStep).length]? := by
  refine ⟨?shown, ?written, ?steps⟩
  case shown =>
    rintro before after rfl
    rw [getElem?_answers]
    constructor
    · intro d hd
      simp only [act, published_of_isLastPublished hd]
      rfl
    · intro hnone
      simp only [act, published_of_none hnone]
      rfl
  case written =>
    rintro before blanks after rfl d hd
    rw [getElem?_answers]
    simp only [act, withPublished, published_of_isLastPublished hd]
    rfl
  case steps =>
    rintro before s after rfl
    have hsame : (empty.actAll trim (before.filter Action.isStep)).record =
        (empty.actAll trim before).record := record_actAll_filter empty before
    have hafter : ((empty.actAll trim before).act trim (.step s)).1.record =
        ((empty.actAll trim (before.filter Action.isStep)).act trim (.step s)).1.record := by
      rw [record_act, record_act, hsame]
    constructor
    · rw [actAll_append, actAll_append]
      exact hafter
    · rw [List.filter_append, List.filter_cons_of_pos rfl, getElem?_answers, getElem?_answers]
      exact congrArg some (by rw [sharedAnswer_filter hafter, act_step_congr hsame.symm])

/-- The beginning of a run: a document is made, and the record is changed and refused later. -/
def refusedActions : List Action :=
  [.step (.slot (.text "description") (.text " A button ")),
    .step (.set (.text "tags") (.array [.text "ui"])), .publish,
    .step (.slot (.text "description") (.text "A link")), .step (.method (.text "") none),
    .publish, .setAttribute (.text "description"), .setItem (.text "extra")]

def buttonDocument : Document where
  description := some "A button"
  extra := some [("tags", .array [.text "ui"])]

/-- The first document is shown after a refused one, and a list that was asked for grows. -/
theorem record_and_published_apart_refused :
    let asked : Step Value := .get (.text "tags") none
    let later : List Action := [.publish, .step (.appendToExtra (.text "tags") (.text "new"))]
    let actions := refusedActions ++ .show :: .step asked :: later
    IsLastPublished true refusedActions buttonDocument ∧
      (empty.answers true actions)[8]? = some (.ok (.document buttonDocument)) ∧
      (empty.answers true actions)[9]? =
        (empty.answers true (actions.filter Action.isStep))[4]? := by
  intro asked later actions
  have hlast : IsLastPublished true refusedActions buttonDocument := by
    refine ⟨refusedActions.take 2, refusedActions.drop 3, rfl, rfl, fun b rest hb e he => ?_⟩
    -- The only later publishing is of a record with a nameless method.
    have hnameless : b = [.step (.slot (.text "description") (.text "A link")),
        .step (.method (.text "") none)] := by
      simp only [refusedActions, List.drop_succ_cons, List.drop_zero, List.cons_eq_append_iff,
        List.cons.injEq, reduceCtorEq, false_and, and_false, true_and, List.nil_eq,
        List.append_eq_nil_iff, exists_const, or_self, or_false, false_or] at hb
      obtain ⟨_, rfl, _, rfl, rfl, -⟩ := hb
      rfl
    subst hnameless
    cases he
  obtain ⟨hshown, -, hsteps⟩ := record_and_published_apart true actions
  refine ⟨hlast, (hshown refusedActions _ rfl).1 _ hlast, ?_⟩
  exact (hsteps (refusedActions ++ [.show]) asked later rfl).2

end ComponentAtlas.Record.Bench
