import ComponentAtlas.Proofs.Extraction.Calls
import ComponentAtlas.Script.Basic

/-!
# Shapes of replies and of results

A resolver answers with a sequence of definitions or with a single thing, which
is then the definition itself. Each sequence that is not empty comes to a list,
also one of a single definition, and each single thing that counts for something
comes to one page. Whatever is left is reported as a missing definition before
any handler is called.
-/

namespace ComponentAtlas

/-! ### Replies -/

/-- Values that do not count where a condition is wanted; arrays are left out. -/
inductive Value.IsFalsy : Value → Prop
  | null : IsFalsy .null
  | no : IsFalsy (.bool false)
  | zero : IsFalsy (.int 0)
  | realZero {d : Double} : d.units = 0 → IsFalsy (.real d)
  | text : IsFalsy (.text "")
  | object : IsFalsy (.object [])

theorem Value.isTruthy_eq_false_iff {v : Value} (h : ∀ items, v ≠ .array items) :
    v.isTruthy = false ↔ v.IsFalsy := by
  constructor
  · intro hfalse
    cases v with
    | null => exact .null
    | bool b =>
      obtain rfl : b = false := hfalse
      exact .no
    | int n =>
      obtain rfl : n = 0 := by simpa [isTruthy] using hfalse
      exact .zero
    | real d => exact .realZero (by simpa [isTruthy, Double.isZero] using hfalse)
    | text s =>
      obtain rfl : s = "" := by simpa [isTruthy] using hfalse
      exact .text
    | array items => exact absurd rfl (h items)
    | object fields =>
      obtain rfl : fields = [] := by simpa [isTruthy] using hfalse
      exact .object
  · intro hfalsy
    cases hfalsy with
    | realZero hd => simp [isTruthy, Double.isZero, hd]
    | _ => rfl

namespace Extraction

open SourceTree

/-- The reply is a sequence of these definitions. -/
inductive Reply.Lists : Reply → List Definition → Prop
  | sequence (kind : SequenceKind) (definitions : List Definition) :
      Lists (.sequence kind definitions) definitions
  | array (items : List Value) : Lists (.value (.array items)) (items.map .value)

/-- The reply is no sequence, and is the definition itself. -/
inductive Reply.Is : Reply → Definition → Prop
  | node (place : Cursor) : Is (.node place) (.node place)
  | value {v : Value} : (∀ items, v ≠ .array items) → Is (.value v) (.value v)

/-- The reply is an empty sequence or a single value that does not count. -/
inductive Reply.IsMissing (reply : Reply) : Prop
  | empty : reply.Lists [] → IsMissing reply
  | falsy {v : Value} : reply.Is (.value v) → v.IsFalsy → IsMissing reply

/-- Nodes count always. -/
def Definition.Counts (d : Definition) : Prop := ∀ v, d = .value v → ¬ v.IsFalsy

namespace Reply

variable {reply : Reply} {ds : List Definition} {d : Definition}

theorem select_of_value {v : Value} (h : ∀ items, v ≠ .array items) :
    (Reply.value v).select = if v.isTruthy then some (.one (.value v)) else none := by
  cases v with
  | array items => exact absurd rfl (h items)
  | _ => rfl

theorem select_of_lists (h : reply.Lists ds) (hne : ds ≠ []) : reply.select = some (.many ds) := by
  cases h with
  | sequence kind =>
    cases ds with
    | nil => exact absurd rfl hne
    | cons d rest => rfl
  | array items =>
    cases items with
    | nil => exact absurd rfl hne
    | cons item rest => rfl

theorem select_of_is (h : reply.Is d) (hcounts : d.Counts) : reply.select = some (.one d) := by
  cases h with
  | node place => rfl
  | @value v hsingle =>
    have htruthy : v.isTruthy = true := by
      rw [← Bool.not_eq_false]
      intro hfalse
      exact hcounts v rfl ((Value.isTruthy_eq_false_iff hsingle).mp hfalse)
    rw [select_of_value hsingle, htruthy]
    rfl

theorem select_of_isMissing (h : reply.IsMissing) : reply.select = none := by
  cases h with
  | empty hempty =>
    generalize hnone : ([] : List Definition) = ds at hempty
    cases hempty with
    | sequence kind =>
      subst hnone
      rfl
    | array items =>
      obtain rfl := List.map_eq_nil_iff.mp hnone.symm
      rfl
  | falsy his hfalsy =>
    cases his with
    | value hsingle =>
      rw [select_of_value hsingle, (Value.isTruthy_eq_false_iff hsingle).mpr hfalsy]
      rfl

theorem Lists.not_is (h : reply.Lists ds) (h' : reply.Is d) : False := by
  cases h with
  | sequence => cases h'
  | array items =>
    cases h' with
    | value hsingle => exact hsingle items rfl

/-- A reply says that there is nothing, or it stands for several definitions, or for one. -/
theorem isMissing_or_lists_or_is (reply : Reply) :
    reply.IsMissing ∨ (∃ ds, reply.Lists ds ∧ ds ≠ []) ∨ ∃ d, reply.Is d ∧ d.Counts := by
  have hlists {ds : List Definition} (h : reply.Lists ds) :
      reply.IsMissing ∨ ∃ ds, reply.Lists ds ∧ ds ≠ [] := by
    by_cases hempty : ds = []
    · exact .inl (.empty (hempty ▸ h))
    · exact .inr ⟨ds, h, hempty⟩
  cases reply with
  | node place => exact .inr (.inr ⟨.node place, .node place, nofun⟩)
  | sequence kind definitions => exact or_assoc.mp (.inl (hlists (.sequence kind definitions)))
  | value v =>
    by_cases harray : ∃ items, v = .array items
    · obtain ⟨items, rfl⟩ := harray
      exact or_assoc.mp (.inl (hlists (.array items)))
    · have hsingle : ∀ items, v ≠ .array items := fun items h => harray ⟨items, h⟩
      by_cases hfalsy : v.IsFalsy
      · exact .inl (.falsy (.value hsingle) hfalsy)
      · refine .inr (.inr ⟨.value v, .value hsingle, ?_⟩)
        intro w hw
        cases hw
        exact hfalsy

theorem select_eq_many_iff :
    reply.select = some (.many ds) ↔ reply.Lists ds ∧ ds ≠ [] := by
  constructor
  · intro h
    rcases isMissing_or_lists_or_is reply with hmissing | ⟨es, hes, hne⟩ | ⟨d, hd, hcounts⟩
    · cases h.symm.trans (select_of_isMissing hmissing)
    · cases h.symm.trans (select_of_lists hes hne)
      exact ⟨hes, hne⟩
    · cases h.symm.trans (select_of_is hd hcounts)
  · intro ⟨hlists, hne⟩
    exact select_of_lists hlists hne

theorem select_eq_one_iff : reply.select = some (.one d) ↔ reply.Is d ∧ d.Counts := by
  constructor
  · intro h
    rcases isMissing_or_lists_or_is reply with hmissing | ⟨ds, hds, hne⟩ | ⟨e, he, hcounts⟩
    · cases h.symm.trans (select_of_isMissing hmissing)
    · cases h.symm.trans (select_of_lists hds hne)
    · cases h.symm.trans (select_of_is he hcounts)
      exact ⟨he, hcounts⟩
  · intro ⟨his, hcounts⟩
    exact select_of_is his hcounts

theorem select_eq_none_iff : reply.select = none ↔ reply.IsMissing := by
  constructor
  · intro h
    rcases isMissing_or_lists_or_is reply with hmissing | ⟨ds, hds, hne⟩ | ⟨d, hd, hcounts⟩
    · exact hmissing
    · cases h.symm.trans (select_of_lists hds hne)
    · cases h.symm.trans (select_of_is hd hcounts)
  · exact select_of_isMissing

end Reply

/-! ### Crafts without reports -/

/--
Whatever keeps a page from being made, it is no report: issues are found with
the data, or the data are misused.
-/
def Craft.IsSilent {δ π : Type} (craft : Craft δ π) : Prop :=
  ∀ trim desk report, craft.page trim desk ≠ .error (.reported report)

theorem eq_error_of_bind {α β : Type} {x : Except Failure α} {next : α → Except Failure β}
    {failure : Failure} (h : x >>= next = .error failure) :
    x = .error failure ∨ ∃ a, x = .ok a ∧ next a = .error failure := by
  cases x with
  | error first =>
    obtain rfl : first = failure := Except.error.inj h
    exact .inl rfl
  | ok a => exact .inr ⟨a, rfl, h⟩

theorem normalize_ne_reported {ν : Type} (view : View ν) (trim : Bool) (d : Draft ν)
    (report : Diagnostic) : d.normalize view trim ≠ .error (.reported report) := by
  intro h
  rcases eq_error_of_bind h with hclean | ⟨description, -, hchecked⟩
  case inl =>
    -- A description is refused only when it can not be trimmed, which is a misuse.
    unfold Draft.cleanDescription at hclean
    split at hclean
    · cases hclean
    · cases hclean
    · split at hclean <;> cases hclean
  case inr =>
    unfold Checked.result at hchecked
    split at hchecked <;> cases hchecked

theorem isSilent_plain : Craft.plain.IsSilent := by
  intro trim record report
  apply normalize_ne_reported

theorem isSilent_scripts : Script.craft.IsSilent := by
  intro trim desk report h
  rcases eq_error_of_bind h with hcopy | ⟨-, -, hpage⟩
  case inl =>
    unfold Record.requireCopyable at hcopy
    split at hcopy <;> cases hcopy
  case inr =>
    rcases eq_error_of_bind hpage with hnormal | ⟨document, -, hmade⟩
    · exact normalize_ne_reported desk.view trim (Script.draft .published desk) report
        hnormal
    · cases hmade

/-! ### Stages and their pages -/

section

variable {δ π : Type} {craft : Craft δ π} {trim : Bool} {chain : List (Handler δ)}

theorem length_stages (ds : List Definition) (desk : δ) :
    (stages craft trim chain ds desk).length = ds.length := by
  induction ds generalizing desk with
  | nil => rfl
  | cons d rest ih => simp only [stages, List.length_cons, ih]

theorem exists_stageOf_of_mem {ds : List Definition} {desk : δ} {stage : Stage π}
    (h : stage ∈ stages craft trim chain ds desk) :
    ∃ d desk', stage = stageOf craft trim chain d desk' := by
  induction ds generalizing desk with
  | nil => cases h
  | cons d rest ih =>
    cases h with
    | head => exact ⟨d, desk, rfl⟩
    | tail _ hrest => exact ih hrest

theorem Stage.ComesTo.unique {stage : Stage π} {page other : π} (h : stage.ComesTo page)
    (h' : stage.ComesTo other) : page = other := by
  have hsame : Except.ok page = .ok other := h.2.symm.trans h'.2
  exact Except.ok.inj hsame

/-- Stages that all come to pages leave nothing else to come to. -/
theorem Course.outcome_eq {width count : Nat} {stages : List (Stage π)} {pages : List π}
    {outcome : Except Failure (List π)} (h : Course width stages outcome count)
    (all : List.Forall₂ Stage.ComesTo stages pages) : outcome = .ok pages := by
  -- The stage at which a course stops is one of those that come to a page.
  have hcomes {stage : Stage π} (hmem : stage ∈ stages) : ∃ page, stage.ComesTo page := by
    obtain ⟨i, hi, rfl⟩ := List.getElem_of_mem hmem
    exact ⟨_, all.get hi (all.length_eq ▸ hi)⟩
  cases h with
  | done others =>
    have hunique : Relator.RightUnique (Stage.ComesTo (π := π)) := fun _ _ _ => Stage.ComesTo.unique
    rw [hunique.forall₂ others all]
  | raised split first_done attempts before_done =>
    obtain ⟨page, hhandled, -⟩ := hcomes (split ▸ List.mem_append_cons_self)
    cases hhandled _ (attempts ▸ List.mem_append_cons_self)
  | refused split first_done handled page =>
    obtain ⟨made, -, hmade⟩ := hcomes (split ▸ List.mem_append_cons_self)
    rw [page] at hmade
    cases hmade

theorem handling_mem_take_schedule (d : Definition) (rest : List Definition) {width count : Nat}
    (hwidth : 0 < width) (hcount : 0 < count) :
    .handling 0 0 d ∈ (schedule width 0 (d :: rest)).take count := by
  obtain ⟨more, rfl⟩ := Nat.exists_eq_add_of_lt hwidth
  obtain ⟨others, rfl⟩ := Nat.exists_eq_add_of_lt hcount
  rw [schedule, calls_succ, List.cons_append, List.take_succ_cons]
  exact List.mem_cons_self

/-- A report that ends a course comes from a handler, so one has been called. -/
theorem Course.called_of_reported (hsilent : craft.IsSilent) {ds : List Definition} {desk : δ}
    {report : Diagnostic} {count : Nat}
    (h : Course chain.length (stages craft trim chain ds desk) (.error (.reported report)) count) :
    ∃ d, .handling 0 0 d ∈ (schedule chain.length 0 ds).take count := by
  cases h with
  | refused split first_done handled page =>
    obtain ⟨d, left, rfl⟩ := exists_stageOf_of_mem (split ▸ List.mem_append_cons_self)
    exact absurd page (hsilent trim _ report)
  | raised split first_done stops before_done =>
    obtain ⟨e, left, rfl⟩ := exists_stageOf_of_mem (split ▸ List.mem_append_cons_self)
    have hwidth : 0 < chain.length := by
      rw [← length_attempts e chain (craft.start e left)]
      apply List.length_pos_of_mem
      rw [show attempts e chain (craft.start e left) = _ from stops]
      exact List.mem_append_cons_self
    cases ds with
    | nil => cases List.append_ne_nil_of_right_ne_nil _ (List.cons_ne_nil _ _) split.symm
    | cons d rest => exact ⟨d, handling_mem_take_schedule d rest hwidth (by omega)⟩

end

/-! ### Tasks and their results -/

theorem Shows.unique {π : Type} {selection : Selection} {pages : List π} {result other : Result π}
    (h : Shows selection pages result) (h' : Shows selection pages other) : result = other := by
  cases h <;> cases h' <;> rfl

namespace Task

variable {δ π : Type} {craft : Craft δ π} {trim : Bool} {task : Task δ} {tree : SourceTree}
  {desk : δ} {reply : Reply} {outcome : Except Failure (Result π)} {events : List Event}

theorem Ends.of_nothing (h : task.Ends craft trim tree desk outcome events)
    (hanswer : task.answer tree = .ok reply) (hnone : reply.select = none) :
    outcome = .error (.reported .missingDefinition) ∧ events = task.opening tree := by
  cases h with
  | nothing answer selects => exact ⟨rfl, rfl⟩
  | raised answer => cases hanswer.symm.trans answer
  | failed answer selects course =>
    obtain rfl := Except.ok.inj (hanswer.symm.trans answer)
    cases hnone.symm.trans selects
  | done answer selects course shown =>
    obtain rfl := Except.ok.inj (hanswer.symm.trans answer)
    cases hnone.symm.trans selects

theorem Ends.of_selected {selection : Selection}
    (h : task.Ends craft trim tree desk outcome events) (hanswer : task.answer tree = .ok reply)
    (hselect : reply.select = some selection) :
    ∃ count, events = task.opening tree ++
        (schedule task.handlers.length 0 selection.definitions).take count ∧
      ((∃ failure, outcome = .error failure ∧ Course task.handlers.length
          (stages craft trim task.handlers selection.definitions desk) (.error failure) count) ∨
        ∃ pages result, outcome = .ok result ∧ Shows selection pages result ∧
          Course task.handlers.length
            (stages craft trim task.handlers selection.definitions desk) (.ok pages) count) := by
  cases h with
  | raised answer => cases hanswer.symm.trans answer
  | nothing answer selects =>
    obtain rfl := Except.ok.inj (hanswer.symm.trans answer)
    cases selects.symm.trans hselect
  | @failed _ _ failure count answer selects course =>
    obtain rfl := Except.ok.inj (hanswer.symm.trans answer)
    obtain rfl := Option.some.inj (selects.symm.trans hselect)
    exact ⟨count, rfl, .inl ⟨failure, rfl, course⟩⟩
  | @done _ _ pages result count answer selects course shown =>
    obtain rfl := Except.ok.inj (hanswer.symm.trans answer)
    obtain rfl := Option.some.inj (selects.symm.trans hselect)
    exact ⟨count, rfl, .inr ⟨pages, result, rfl, shown, course⟩⟩

theorem Ends.eq_ok_iff {result : Result π} (h : task.Ends craft trim tree desk outcome events)
    (hanswer : task.answer tree = .ok reply) :
    outcome = .ok result ↔
      ∃ selection pages, reply.select = some selection ∧ Shows selection pages result ∧
        List.Forall₂ Stage.ComesTo
          (stages craft trim task.handlers selection.definitions desk) pages := by
  constructor
  · intro hok
    subst hok
    cases h with
    | done answer selects course shown =>
      obtain rfl := Except.ok.inj (hanswer.symm.trans answer)
      cases course with
      | done all => exact ⟨_, _, selects, shown, all⟩
  · intro ⟨selection, pages, hselect, hshows, hpages⟩
    obtain ⟨count, -, hcourse⟩ := h.of_selected hanswer hselect
    rcases hcourse with ⟨failure, -, hcourse⟩ | ⟨others, made, rfl, hmade, hcourse⟩
    · cases hcourse.outcome_eq hpages
    · obtain rfl := Except.ok.inj (hcourse.outcome_eq hpages)
      rw [hmade.unique hshows]

theorem Ends.eq_many_iff (h : task.Ends craft trim tree desk outcome events)
    (hanswer : task.answer tree = .ok reply) (pages : List π) :
    outcome = .ok (.many pages) ↔
      ∃ ds, reply.Lists ds ∧ ds ≠ [] ∧ pages.length = ds.length ∧
        List.Forall₂ Stage.ComesTo (stages craft trim task.handlers ds desk) pages := by
  rw [h.eq_ok_iff hanswer]
  constructor
  · intro ⟨selection, others, hselect, hshows, hpages⟩
    cases hshows with
    | many ds =>
      obtain ⟨hlists, hne⟩ := Reply.select_eq_many_iff.mp hselect
      refine ⟨ds, hlists, hne, ?_, hpages⟩
      rw [← hpages.length_eq]
      exact length_stages ds desk
  · intro ⟨ds, hlists, hne, _, hpages⟩
    exact ⟨.many ds, pages, Reply.select_eq_many_iff.mpr ⟨hlists, hne⟩, .many ds pages, hpages⟩

theorem Ends.eq_one_iff (h : task.Ends craft trim tree desk outcome events)
    (hanswer : task.answer tree = .ok reply) (page : π) :
    outcome = .ok (.one page) ↔
      ∃ d, reply.Is d ∧ d.Counts ∧ (stageOf craft trim task.handlers d desk).ComesTo page := by
  rw [h.eq_ok_iff hanswer]
  constructor
  · intro ⟨selection, pages, hselect, hshows, hpages⟩
    cases hshows with
    | one d =>
      obtain ⟨his, hcounts⟩ := Reply.select_eq_one_iff.mp hselect
      exact ⟨d, his, hcounts, (List.forall₂_cons.mp hpages).1⟩
  · intro ⟨d, his, hcounts, hpage⟩
    exact ⟨.one d, [page], Reply.select_eq_one_iff.mpr ⟨his, hcounts⟩, .one d page,
      .cons hpage .nil⟩

theorem Ends.many_iff_lists {result : Result π} (h : task.Ends craft trim tree desk outcome events)
    (hanswer : task.answer tree = .ok reply) (hresult : outcome = .ok result) :
    (∃ pages, result = .many pages) ↔ ∃ ds, reply.Lists ds := by
  cases result with
  | many pages =>
    obtain ⟨ds, hlists, -⟩ := (h.eq_many_iff hanswer pages).mp hresult
    exact ⟨fun _ => ⟨ds, hlists⟩, fun _ => ⟨pages, rfl⟩⟩
  | one page =>
    obtain ⟨d, his, -⟩ := (h.eq_one_iff hanswer page).mp hresult
    refine ⟨nofun, ?_⟩
    intro ⟨ds, hlists⟩
    cases hlists.not_is his

/-- Where there is something to document, only handlers report. -/
theorem Ends.called_of_reported {selection : Selection} {report : Diagnostic}
    (hsilent : craft.IsSilent)
    (h : task.Ends craft trim tree desk (.error (.reported report)) events)
    (hanswer : task.answer tree = .ok reply) (hselect : reply.select = some selection) :
    ∃ d, .handling 0 0 d ∈ events := by
  obtain ⟨count, rfl, hcourse⟩ := h.of_selected hanswer hselect
  rcases hcourse with ⟨failure, hfailure, hcourse⟩ | ⟨pages, made, hmade, -⟩
  case inl =>
    obtain rfl := Except.error.inj hfailure
    obtain ⟨d, hd⟩ := hcourse.called_of_reported hsilent
    exact ⟨d, List.mem_append_right _ hd⟩
  case inr => cases hmade

theorem handling_notMem_opening (number index : Nat) (d : Definition) :
    .handling number index d ∉ task.opening tree := by
  unfold opening warnings
  split <;> simp

theorem Ends.reports_missing_iff (hsilent : craft.IsSilent)
    (h : task.Ends craft trim tree desk outcome events) (hanswer : task.answer tree = .ok reply) :
    (∃ report, outcome = .error (.reported report) ∧ report.category = .missingDefinition ∧
      ∀ number index d, .handling number index d ∉ events) ↔ reply.IsMissing := by
  rw [← Reply.select_eq_none_iff]
  constructor
  · intro ⟨report, hreport, _, hcalls⟩
    rw [hreport] at h
    cases hselect : reply.select with
    | none => rfl
    | some selection =>
      obtain ⟨d, hcall⟩ := h.called_of_reported hsilent hanswer hselect
      cases hcalls 0 0 d hcall
  · intro hnone
    obtain ⟨houtcome, hevents⟩ := h.of_nothing hanswer hnone
    refine ⟨_, houtcome, rfl, ?_⟩
    rw [hevents]
    exact handling_notMem_opening

end Task

/-! ### Shapes -/

section

variable {δ π : Type} {craft : Craft δ π} {workspace : Workspace}
  {parser : Dialect → String → SourceTree} {r : Request δ} {task : Task δ} {tree : SourceTree}
  {reply : Reply}

/--
The shape of the answer is the shape of the result. What is taken for no answer
is reported before any handler has been called, and nothing else is reported so.
-/
theorem extract_shape_iff (hsilent : craft.IsSilent)
    (horder : r.IsInOrder workspace parser task tree) (hanswer : task.answer tree = .ok reply)
    (desk : δ) :
    let trim := workspace.settings.trimsDescriptions
    let done := (extract craft workspace parser r desk).1
    (∀ pages, done.outcome = .ok (.many pages) ↔
      ∃ ds, reply.Lists ds ∧ ds ≠ [] ∧ pages.length = ds.length ∧
        List.Forall₂ Stage.ComesTo (stages craft trim task.handlers ds desk) pages) ∧
    (∀ page, done.outcome = .ok (.one page) ↔
      ∃ d, reply.Is d ∧ d.Counts ∧ (stageOf craft trim task.handlers d desk).ComesTo page) ∧
    (∀ result, done.outcome = .ok result →
      ((∃ pages, result = .many pages) ↔ ∃ ds, reply.Lists ds)) ∧
    ((∃ report, done.outcome = .error (.reported report) ∧
        report.category = .missingDefinition ∧
          ∀ number index d, .handling number index d ∉ done.events) ↔ reply.IsMissing) ∧
    (reply.IsMissing →
      done.outcome = .error (.reported
          ⟨.missingDefinition, .text Diagnostic.missingDefinitionMessage, []⟩) ∧
        done.events = task.opening tree) := by
  intro trim done
  have hends : task.Ends craft trim tree desk done.outcome done.events := by
    show task.Ends craft trim tree desk (extract craft workspace parser r desk).1.outcome
      (extract craft workspace parser r desk).1.events
    rw [extract_eq_of_inOrder craft horder]
    exact run_ends craft trim task horder.accepted desk
  refine ⟨hends.eq_many_iff hanswer, hends.eq_one_iff hanswer, ?shape, ?missing, ?report⟩
  case shape =>
    intro result hresult
    exact hends.many_iff_lists hanswer hresult
  case missing => exact hends.reports_missing_iff hsilent hanswer
  case report =>
    intro hmissing
    exact hends.of_nothing hanswer (Reply.select_eq_none_iff.mpr hmissing)

end

/-- A tuple of one text comes to a list, a mapping to its page, and no definitions to neither. -/
theorem extract_shape_iff_tuple :
    let steps : Script.Steps := [.set (.literal (.value (.text "k"))) .subject]
    let root : Node := .mk ⟨0, "program", ⟨0, 0, 0⟩, ⟨0, 0, 0⟩, none, true, false, some ""⟩ []
    let parser := fun _ _ => SourceTree.mk root false
    let r := fun reply : Reply => (⟨.text "", .callable fun _ _ => .ok reply,
      .items [.callable (Script.handler steps)], .ready ⟨.tsx, true⟩⟩ : Request Script.Desk)
    let outcome := fun reply => (extract Script.craft .fresh parser (r reply) .empty).1.outcome
    (∃ page, outcome (.sequence .tuple [.value (.text "a")]) = .ok (.many [page])) ∧
      (∃ page, outcome (.value (.object [("a", .int 1)])) = .ok (.one page)) ∧
      outcome (.sequence .generator []) = .error (.reported
        ⟨.missingDefinition, .text Diagnostic.missingDefinitionMessage, []⟩) := by
  intro steps root parser r outcome
  have horder (reply : Reply) : (r reply).IsInOrder .fresh parser
      ⟨"", fun _ _ => .ok reply, [Script.handler steps], ⟨.tsx, true⟩⟩ ⟨root, false⟩ :=
    ⟨rfl, rfl, rfl, rfl, rfl, nofun, nofun⟩
  have shape (reply : Reply) := extract_shape_iff isSilent_scripts (horder reply) rfl .empty
  refine ⟨?tuple, ?mapping, ?nothing⟩
  case tuple =>
    let found : Definition := .value (.text "a")
    obtain ⟨page, hpage⟩ : ∃ page,
        (stageOf Script.craft true [Script.handler steps] found .empty).ComesTo page :=
      ⟨_, List.forall_mem_singleton.mpr rfl, rfl⟩
    exact ⟨page, ((shape _).1 [page]).mpr
      ⟨[found], .sequence .tuple _, List.cons_ne_nil _ _, rfl, .cons hpage .nil⟩⟩
  case mapping =>
    let found : Definition := .value (.object [("a", .int 1)])
    obtain ⟨page, hpage⟩ : ∃ page,
        (stageOf Script.craft true [Script.handler steps] found .empty).ComesTo page :=
      ⟨_, List.forall_mem_singleton.mpr rfl, rfl⟩
    refine ⟨page, ((shape _).2.1 page).mpr ⟨found, .value nofun, ?_, hpage⟩⟩
    intro v hv hfalsy
    obtain rfl := Definition.value.inj hv
    cases hfalsy
  case nothing =>
    exact ((shape _).2.2.2.2 (.empty (.sequence .generator []))).1

end Extraction

end ComponentAtlas
