import ComponentAtlas.Proofs.Extraction.Complaints
import Mathlib.Data.List.Forall2

/-!
# Calls in order

A request about which there is no complaint has its resolver called once, and
then the handlers on each definition that was found, definition by definition.
The handlers of a definition are followed by the making of its page. All of
this has one order, and the first failure in that order ends it: the calls up
to there have been made, and no others.
-/

namespace ComponentAtlas.Extraction

open SourceTree

variable {δ π : Type}

/-! ### What would happen -/

/--
What handlers do on a definition one after another, each at the desk as the ones
before have left it, as if none of them ended the work.
-/
def attempts (definition : Definition) : List (Handler δ) → δ → List (Except Failure Unit)
  | [], _ => []
  | handler :: rest, desk =>
    (handler definition desk).2 :: attempts definition rest (handler definition desk).1

/-- The desk as handlers leave it. -/
def left (definition : Definition) (chain : List (Handler δ)) (desk : δ) : δ :=
  chain.foldl (fun desk handler => (handler definition desk).1) desk

/-- The attempts of all handlers on one definition, and the page made after them. -/
structure Stage (π : Type) where
  attempts : List (Except Failure Unit)
  page : Except Failure π

/-- All handlers of a stage succeed. -/
def Stage.IsHandled (stage : Stage π) : Prop := ∀ attempt ∈ stage.attempts, attempt = .ok ()

/-- A stage without a failure comes to its page. -/
def Stage.ComesTo (stage : Stage π) (page : π) : Prop := stage.IsHandled ∧ stage.page = .ok page

def stageOf (craft : Craft δ π) (trim : Bool) (chain : List (Handler δ)) (definition : Definition)
    (desk : δ) : Stage π where
  attempts := attempts definition chain (craft.start definition desk)
  page := craft.page trim (left definition chain (craft.start definition desk))

/-- The stages of definitions, each at the desk as the ones before have left it. -/
def stages (craft : Craft δ π) (trim : Bool) (chain : List (Handler δ)) :
    List Definition → δ → List (Stage π)
  | [], _ => []
  | d :: rest, desk =>
    stageOf craft trim chain d desk ::
      stages craft trim chain rest (left d chain (craft.start d desk))

/-! ### The order of the calls -/

/-- The calls of `width` handlers on a definition, from the handler of number `index` on. -/
def calls (number : Nat) (definition : Definition) (index width : Nat) : List Event :=
  (List.range' index width).map fun i => .handling number i definition

/-- All calls of `width` handlers on definitions, which are numbered from `number` on. -/
def schedule (width : Nat) : (number : Nat) → List Definition → List Event
  | _, [] => []
  | number, d :: rest => calls number d 0 width ++ schedule width (number + 1) rest

/--
What stages come to, with the number of handlers that have been called. After
stages that succeed, either there are no more, or a handler of the next one
fails, or all of them succeed and there is no page.
-/
inductive Course (width : Nat) (stages : List (Stage π)) : Except Failure (List π) → Nat → Prop
  | done {pages : List π} (all : List.Forall₂ Stage.ComesTo stages pages) :
    Course width stages (.ok pages) (width * stages.length)
  | raised {first others : List (Stage π)} {pages : List π} {stage : Stage π}
    {before after : List (Except Failure Unit)} {failure : Failure}
    (split : stages = first ++ stage :: others)
    (first_done : List.Forall₂ Stage.ComesTo first pages)
    (attempts : stage.attempts = before ++ .error failure :: after)
    (before_done : ∀ attempt ∈ before, attempt = .ok ()) :
    Course width stages (.error failure) (width * first.length + (before.length + 1))
  | refused {first others : List (Stage π)} {pages : List π} {stage : Stage π} {failure : Failure}
    (split : stages = first ++ stage :: others)
    (first_done : List.Forall₂ Stage.ComesTo first pages)
    (handled : stage.IsHandled) (page : stage.page = .error failure) :
    Course width stages (.error failure) (width * first.length + width)

/-! ### Handlers on a definition -/

theorem length_attempts (definition : Definition) (chain : List (Handler δ)) (desk : δ) :
    (attempts definition chain desk).length = chain.length := by
  induction chain generalizing desk with
  | nil => rfl
  | cons handler rest ih => simp only [attempts, List.length_cons, ih]

theorem all_ok_or_first_error (outcomes : List (Except Failure Unit)) :
    (∀ a ∈ outcomes, a = .ok ()) ∨
      ∃ before failure after, outcomes = before ++ .error failure :: after ∧
        ∀ a ∈ before, a = .ok () := by
  induction outcomes with
  | nil => exact .inl (fun _ h => nomatch h)
  | cons outcome rest ih =>
    cases outcome with
    | error failure => exact .inr ⟨[], failure, rest, rfl, fun _ h => nomatch h⟩
    | ok done =>
      rcases ih with hall | ⟨before, failure, after, rfl, hbefore⟩
      · exact .inl (List.forall_mem_cons.mpr ⟨rfl, hall⟩)
      · exact .inr ⟨.ok () :: before, failure, after, rfl, List.forall_mem_cons.mpr ⟨rfl, hbefore⟩⟩

theorem calls_succ (number : Nat) (definition : Definition) (index width : Nat) :
    calls number definition index (width + 1) =
      .handling number index definition :: calls number definition (index + 1) width := by
  simp only [calls, List.range'_succ, List.map_cons]

theorem length_calls (number : Nat) (definition : Definition) (index width : Nat) :
    (calls number definition index width).length = width := by
  simp only [calls, List.length_map, List.length_range']

theorem take_calls (number : Nat) (definition : Definition) (index : Nat) {count width : Nat}
    (h : count ≤ width) :
    (calls number definition index width).take count = calls number definition index count := by
  obtain ⟨more, rfl⟩ := Nat.exists_eq_add_of_le h
  unfold calls
  rw [← List.range'_append_1, List.map_append]
  apply List.take_left'
  rw [List.length_map, List.length_range']

theorem runHandlers_cons (number : Nat) (definition : Definition) (index : Nat)
    (handler : Handler δ) (rest : List (Handler δ)) (desk : δ) :
    runHandlers number definition index (handler :: rest) desk =
      match (handler definition desk).2 with
      | .error failure =>
        ⟨.error failure, [.handling number index definition], (handler definition desk).1⟩
      | .ok () =>
        let others := runHandlers number definition (index + 1) rest (handler definition desk).1
        ⟨others.outcome, .handling number index definition :: others.events, others.desk⟩ := by
  simp only [runHandlers, bind, Work.note, Work.change]
  cases (handler definition desk).2 <;> rfl

theorem runHandlers_of_handled (number : Nat) (definition : Definition) (index : Nat)
    {chain : List (Handler δ)} {desk : δ}
    (h : ∀ attempt ∈ attempts definition chain desk, attempt = .ok ()) :
    runHandlers number definition index chain desk =
      ⟨.ok (), calls number definition index chain.length, left definition chain desk⟩ := by
  induction chain generalizing index desk with
  | nil => rfl
  | cons handler rest ih =>
    obtain ⟨hfirst, hrest⟩ := List.forall_mem_cons.mp h
    rw [runHandlers_cons, hfirst, ih (index + 1) hrest, List.length_cons, calls_succ]
    rfl

theorem runHandlers_of_raised (number : Nat) (definition : Definition) (index : Nat)
    {chain : List (Handler δ)} {desk : δ} {before after : List (Except Failure Unit)}
    {failure : Failure} (h : attempts definition chain desk = before ++ .error failure :: after)
    (hbefore : ∀ attempt ∈ before, attempt = .ok ()) :
    (runHandlers number definition index chain desk).outcome = .error failure ∧
      (runHandlers number definition index chain desk).events =
        calls number definition index (before.length + 1) := by
  induction chain generalizing index desk before with
  | nil => cases before <;> cases h
  | cons handler rest ih =>
    rw [runHandlers_cons]
    -- Either this handler is the one that fails, or it has succeeded and is not it.
    cases before with
    | nil =>
      have hfirst : (handler definition desk).2 = .error failure := (List.cons.inj h).1
      rw [hfirst]
      exact ⟨rfl, rfl⟩
    | cons attempt others =>
      obtain ⟨rfl, hothers⟩ := List.forall_mem_cons.mp hbefore
      have hfirst : (handler definition desk).2 = .ok () := (List.cons.inj h).1
      obtain ⟨houtcome, hevents⟩ := ih (index + 1) (List.cons.inj h).2 hothers
      rw [hfirst]
      refine ⟨houtcome, ?_⟩
      rw [List.length_cons, calls_succ, ← hevents]

/-! ### One definition -/

section

variable (craft : Craft δ π) (trim : Bool) {chain : List (Handler δ)}

/-- When all handlers succeed the page is made; the calls and the desk are the same either way. -/
theorem document_of_handled (number : Nat) (definition : Definition) {desk : δ}
    (h : (stageOf craft trim chain definition desk).IsHandled) :
    document craft trim chain number definition desk =
      ⟨(stageOf craft trim chain definition desk).page,
        calls number definition 0 chain.length,
        left definition chain (craft.start definition desk)⟩ := by
  have hrun := runHandlers_of_handled number definition 0 h
  simp only [document, bind, Work.change, Work.look, hrun, List.nil_append, List.append_nil]
  rfl

theorem document_of_raised (number : Nat) (definition : Definition) {desk : δ}
    {before after : List (Except Failure Unit)} {failure : Failure}
    (h : (stageOf craft trim chain definition desk).attempts = before ++ .error failure :: after)
    (hbefore : ∀ attempt ∈ before, attempt = .ok ()) :
    (document craft trim chain number definition desk).outcome = .error failure ∧
      (document craft trim chain number definition desk).events =
        calls number definition 0 (before.length + 1) := by
  obtain ⟨houtcome, hevents⟩ := runHandlers_of_raised number definition 0 h hbefore
  simp only [document, bind, Work.change, houtcome, hevents, List.nil_append, and_self]

end

/-! ### Batches -/

theorem take_schedule_first (number : Nat) (definition : Definition) (rest : List Definition)
    {count width : Nat} (h : count ≤ width) :
    (schedule width number (definition :: rest)).take count = calls number definition 0 count := by
  rw [schedule, List.take_append_of_le_length, take_calls number definition 0 h]
  rw [length_calls]
  exact h

theorem take_schedule_rest (number : Nat) (definition : Definition) (rest : List Definition)
    (width count : Nat) :
    (schedule width number (definition :: rest)).take (width + count) =
      calls number definition 0 width ++ (schedule width (number + 1) rest).take count := by
  rw [schedule, List.take_append, length_calls, Nat.add_sub_cancel_left,
    List.take_of_length_le]
  rw [length_calls]
  omega

theorem Course.cons {width count : Nat} {stage : Stage π} {page : π} {stages : List (Stage π)}
    {outcome : Except Failure (List π)} (hstage : stage.ComesTo page)
    (h : Course width stages outcome count) :
    Course width (stage :: stages) (outcome.map (page :: ·)) (width + count) := by
  -- The calls of one more stage, which all of its handlers have had.
  have hcount (first : List (Stage π)) (more : Nat) :
      width + (width * first.length + more) = width * (stage :: first).length + more := by
    rw [List.length_cons, Nat.mul_add_one]
    omega
  cases h with
  | done all =>
    have hlength : width + width * stages.length = width * (stage :: stages).length := by
      rw [List.length_cons, Nat.mul_add_one, Nat.add_comm]
    rw [hlength]
    exact .done (.cons hstage all)
  | raised split first_done attempts before_done =>
    rw [hcount]
    exact .raised (by rw [split, List.cons_append]) (.cons hstage first_done) attempts before_done
  | refused split first_done handled page =>
    rw [hcount]
    exact .refused (by rw [split, List.cons_append]) (.cons hstage first_done) handled page

variable (craft : Craft δ π) (trim : Bool) (chain : List (Handler δ))

/-- Definitions are documented in one order, up to the first failure. -/
theorem documentAll_course (number : Nat) (definitions : List Definition) (desk : δ) :
    ∃ count,
      Course chain.length (stages craft trim chain definitions desk)
        (documentAll craft trim chain number definitions desk).outcome count ∧
      (documentAll craft trim chain number definitions desk).events =
        (schedule chain.length number definitions).take count := by
  induction definitions generalizing number desk with
  | nil => exact ⟨_, .done .nil, List.take_nil.symm⟩
  | cons d rest ih =>
    unfold documentAll
    -- The first stage ends the work in two of three cases; in the third one the rest takes its
    -- course from the desk that the handlers have left.
    rcases all_ok_or_first_error (stageOf craft trim chain d desk).attempts with
      hhandled | ⟨before, failure, after, hsplit, hbefore⟩
    case inl =>
      have hdocument := document_of_handled craft trim number d hhandled
      cases hpage : (stageOf craft trim chain d desk).page with
      | error failure =>
        rw [hpage] at hdocument
        rw [Work.bind_eq_of_error (congrArg Logged.outcome hdocument), hdocument]
        refine ⟨_, .refused (List.nil_append _).symm .nil hhandled hpage, ?_⟩
        rw [List.length_nil, Nat.mul_zero, Nat.zero_add,
          take_schedule_first number d rest (Nat.le_refl _)]
      | ok page =>
        rw [hpage] at hdocument
        obtain ⟨count, hcourse, hevents⟩ :=
          ih (number + 1) (left d chain (craft.start d desk))
        rw [Work.bind_eq_of_ok (congrArg Logged.outcome hdocument), hdocument, bind_pure_comp,
          Work.map_eq, hevents]
        refine ⟨_, hcourse.cons ⟨hhandled, hpage⟩, ?_⟩
        rw [take_schedule_rest]
    case inr =>
      obtain ⟨houtcome, hevents⟩ := document_of_raised craft trim number d hsplit hbefore
      -- The handler that fails is one of the chain, so its calls are a beginning of all calls.
      have hwidth : before.length + 1 ≤ chain.length := by
        have hlength := length_attempts d chain (craft.start d desk)
        rw [show attempts d chain (craft.start d desk) = _ from hsplit, List.length_append,
          List.length_cons] at hlength
        omega
      rw [Work.bind_eq_of_error houtcome, hevents]
      refine ⟨_, .raised (List.nil_append _).symm .nil hsplit hbefore, ?_⟩
      rw [List.length_nil, Nat.mul_zero, Nat.zero_add, take_schedule_first number d rest hwidth]

/-! ### Requests -/

/-- The definitions of a selection, in order. -/
def Selection.definitions : Selection → List Definition
  | .one definition => [definition]
  | .many definitions => definitions

/-- The result that shows pages: the page of a single definition, or the pages of a batch. -/
inductive Shows : Selection → List π → Result π → Prop
  | one (definition : Definition) (page : π) : Shows (.one definition) [page] (.one page)
  | many (definitions : List Definition) (pages : List π) :
    Shows (.many definitions) pages (.many pages)

namespace Task

/-- What the resolver answers when it is called with the program of a tree. -/
def answer (task : Task δ) (tree : SourceTree) : Except Failure Reply :=
  task.resolver (.ofRoot tree.root) task.options.dialect

/-- What happens before any handler is called. -/
def opening (task : Task δ) (tree : SourceTree) : List Event :=
  warnings task.options.dialect tree ++
    [.resolving (.ofRoot tree.root) task.options.dialect]

/--
How a task may end, and what has happened by then. The resolver is called once;
when it fails or finds nothing, no handler is called. Otherwise the stages of
the definitions take their course. There is a result only if all of them come to
their pages.
-/
inductive Ends (craft : Craft δ π) (trim : Bool) (task : Task δ) (tree : SourceTree) (desk : δ) :
    Except Failure (Result π) → List Event → Prop
  | raised {failure : Failure} (answer : task.answer tree = .error failure) :
    Ends craft trim task tree desk (.error failure) (task.opening tree)
  | nothing {reply : Reply} (answer : task.answer tree = .ok reply)
    (selects : reply.select = none) :
    Ends craft trim task tree desk (.error (.reported .missingDefinition)) (task.opening tree)
  | failed {reply : Reply} {selection : Selection} {failure : Failure} {count : Nat}
    (answer : task.answer tree = .ok reply) (selects : reply.select = some selection)
    (course : Course task.handlers.length
      (stages craft trim task.handlers selection.definitions desk) (.error failure) count) :
    Ends craft trim task tree desk (.error failure)
      (task.opening tree ++
        (schedule task.handlers.length 0 selection.definitions).take count)
  | done {reply : Reply} {selection : Selection} {pages : List π} {result : Result π}
    {count : Nat} (answer : task.answer tree = .ok reply)
    (selects : reply.select = some selection)
    (course : Course task.handlers.length
      (stages craft trim task.handlers selection.definitions desk) (.ok pages) count)
    (shows : Shows selection pages result) :
    Ends craft trim task tree desk (.ok result)
      (task.opening tree ++
        (schedule task.handlers.length 0 selection.definitions).take count)

end Task

section

variable (craft : Craft δ π) (trim : Bool) (task : Task δ)

/-- What the work that is left when the resolver has answered comes to. -/
def documentReply (reply : Reply) (desk : δ) : Logged δ (Result π) :=
  match reply.select with
  | some (.one definition) =>
    (Result.one <$> document craft trim task.handlers 0 definition) desk
  | some (.many definitions) =>
    (Result.many <$> documentAll craft trim task.handlers 0 definitions) desk
  | none => ⟨.error (.reported .missingDefinition), [], desk⟩

theorem run_eq {tree : SourceTree} (haccepted : IsAccepted task.options.strict tree) (desk : δ) :
    task.run craft trim tree desk =
      match task.answer tree with
      | .error failure => ⟨.error failure, task.opening tree, desk⟩
      | .ok reply =>
        let rest := documentReply craft trim task reply desk
        ⟨rest.outcome, task.opening tree ++ rest.events, rest.desk⟩ := by
  have hread := readProgram_eq_of_accepted task.options.dialect haccepted desk
  have hnote : ((Work.note (.resolving (.ofRoot tree.root) task.options.dialect) :
      Work δ Unit) desk).outcome = .ok () := rfl
  unfold Task.run
  rw [Work.bind_eq_of_ok (congrArg Logged.outcome hread), hread, Work.bind_eq_of_ok hnote]
  cases hanswer : task.answer tree with
  | error failure =>
    have hasked : ((Work.ofExcept (task.resolver (.ofRoot tree.root) task.options.dialect) :
        Work δ Reply) desk).outcome = .error failure := hanswer
    simp only [Work.note, Work.bind_eq_of_error hasked]
    rfl
  | ok reply =>
    have hasked : ((Work.ofExcept (task.resolver (.ofRoot tree.root) task.options.dialect) :
        Work δ Reply) desk).outcome = .ok reply := hanswer
    simp only [Work.note, Work.bind_eq_of_ok hasked]
    simp only [documentReply, Task.opening, List.append_assoc]
    cases reply.select with
    | none => rfl
    | some selection => cases selection <;> rfl

theorem documentAll_singleton (definition : Definition) :
    documentAll craft trim task.handlers 0 [definition] =
      (fun page => [page]) <$> document craft trim task.handlers 0 definition := by
  unfold documentAll documentAll
  simp only [bind_pure_comp, map_pure]

theorem documentReply_eq {reply : Reply} {selection : Selection}
    (h : reply.select = some selection) (desk : δ) :
    let all := documentAll craft trim task.handlers 0 selection.definitions desk
    (documentReply craft trim task reply desk).events = all.events ∧
      match all.outcome with
      | .error failure => (documentReply craft trim task reply desk).outcome = .error failure
      | .ok pages => ∃ result, (documentReply craft trim task reply desk).outcome = .ok result ∧
        Shows selection pages result := by
  unfold documentReply
  rw [h]
  cases selection with
  | one definition =>
    simp only [Selection.definitions, documentAll_singleton, Work.map_eq]
    cases (document craft trim task.handlers 0 definition desk).outcome with
    | error failure => exact ⟨trivial, rfl⟩
    | ok page => exact ⟨trivial, .one page, rfl, .one definition page⟩
  | many definitions =>
    simp only [Selection.definitions, Work.map_eq]
    cases (documentAll craft trim task.handlers 0 definitions desk).outcome with
    | error failure => exact ⟨trivial, rfl⟩
    | ok pages => exact ⟨trivial, .many pages, rfl, .many definitions pages⟩

theorem run_ends {tree : SourceTree} (haccepted : IsAccepted task.options.strict tree) (desk : δ) :
    task.Ends craft trim tree desk (task.run craft trim tree desk).outcome
      (task.run craft trim tree desk).events := by
  rw [run_eq craft trim task haccepted]
  cases hanswer : task.answer tree with
  | error failure => exact .raised hanswer
  | ok reply =>
    cases hselect : reply.select with
    | none =>
      simp only [documentReply, hselect, List.append_nil]
      exact .nothing hanswer hselect
    | some selection =>
      obtain ⟨count, hcourse, hevents⟩ :=
        documentAll_course craft trim task.handlers 0 selection.definitions desk
      obtain ⟨hsame, houtcome⟩ := documentReply_eq craft trim task hselect desk
      cases hall : (documentAll craft trim task.handlers 0 selection.definitions desk).outcome with
      | error failure =>
        rw [hall] at houtcome hcourse
        dsimp only at houtcome ⊢
        rw [houtcome, hsame, hevents]
        exact .failed hanswer hselect hcourse
      | ok pages =>
        rw [hall] at houtcome hcourse
        obtain ⟨result, hresult, hshows⟩ := houtcome
        dsimp only
        rw [hresult, hsame, hevents]
        exact .done hanswer hselect hcourse hshows

end

/--
The order of an extraction. A request about which there is a complaint is
refused with the first one, nothing has been called, and the desk is as it was.
Otherwise the resolver is called, then the handlers of one definition after
another, and the first failure ends the work.
-/
theorem extract_in_order (craft : Craft δ π) (workspace : Workspace)
    (parser : Dialect → String → SourceTree) (r : Request δ) (desk : δ) :
    match r.complaint? workspace parser with
    | some failure => (extract craft workspace parser r desk).1 = ⟨.error failure, [], desk⟩
    | none =>
      ∃ task tree, r.IsInOrder workspace parser task tree ∧
        task.Ends craft workspace.settings.trimsDescriptions tree desk
          (extract craft workspace parser r desk).1.outcome
          (extract craft workspace parser r desk).1.events := by
  cases hcomplaint : r.complaint? workspace parser with
  | some failure => exact extract_eq_of_complaint craft hcomplaint desk
  | none =>
    obtain ⟨task, tree, horder⟩ := complaint?_eq_none_iff.mp hcomplaint
    refine ⟨task, tree, horder, ?_⟩
    rw [extract_eq_of_inOrder craft horder]
    exact run_ends craft workspace.settings.trimsDescriptions task horder.accepted desk

/-- The second handler refuses the second of three definitions; the third is not looked at. -/
theorem extract_in_order_raised :
    let first : Handler (Record Value) := fun _ record => (record, .ok ())
    let second : Handler (Record Value) := fun definition record =>
      match definition with
      | .value (.text s) => (record.compose (.text s), .ok ())
      | _ => (record, .error (.raised .value "no text"))
    let root : Node := .mk ⟨0, "program", ⟨0, 0, 0⟩, ⟨0, 0, 0⟩, none, true, false, some ""⟩ []
    let found : List Definition := [.value (.text "a"), .value .null, .value (.text "b")]
    let r : Request (Record Value) :=
      ⟨.text "", .callable fun _ _ => .ok (.sequence .tuple found),
        .items [.callable first, .callable second], .ready ⟨.tsx, true⟩⟩
    let parser := fun _ _ => SourceTree.mk root false
    let failure := Failure.raised .value "no text"
    let events := [.resolving (.ofRoot root) .tsx, .handling 0 0 (.value (.text "a")),
      .handling 0 1 (.value (.text "a")), .handling 1 0 (.value .null),
      .handling 1 1 (.value .null)]
    (∃ task tree, r.IsInOrder .fresh parser task tree ∧
      task.Ends .plain true tree Record.empty (.error failure) events) ∧
    (extract .plain .fresh parser r Record.empty).1 = ⟨.error failure, events, Record.empty⟩ := by
  intro first second root found r parser failure events
  have hdone : (extract .plain .fresh parser r Record.empty).1 =
      ⟨.error failure, events, Record.empty⟩ := rfl
  have hends := extract_in_order .plain .fresh parser r Record.empty
  rw [hdone] at hends
  exact ⟨hends, hdone⟩

end ComponentAtlas.Extraction
