import ComponentAtlas.Proofs.Extraction.Tasks

/-!
# Complaints about requests

What can be wrong with a request before anything is called for it. Each
complaint is told by itself, whatever else is wrong; the list has them in the
order in which they are looked for, and a request is refused with the first.
-/

namespace ComponentAtlas.Extraction

open SourceTree

variable {α δ : Type}

/-- The handlers one by one; an array of values is a list as well. -/
def Plugs.items? : Plugs α → Option (List (Plug α))
  | .items plugs => some plugs
  | .value (.array values) => some (values.map .value)
  | .value _ => none

/-- The report on the first of the plugs, numbered from `i` on, that is no function. -/
def uncallable? (i : Nat) (plugs : List (Plug α)) : Option Diagnostic :=
  ((plugs.zipIdx i).find? fun p => p.1.function?.isNone).map fun p =>
    .invalidParameter ("handlers[" ++ toString p.2 ++ "]") p.1.datum "callable"

def reportIf (faulty : Prop) [Decidable faulty] (report : Diagnostic) : Option Diagnostic :=
  if faulty then some report else none

def sourceFaults (source : Value) : List (Option Diagnostic) :=
  [reportIf (source = .null) (.missingParameter (.text "source")),
    reportIf (source.asText? = none) (.invalidType (.text "source") (.ofValue source) "str")]

def resolverFaults (resolver : Plug α) : List (Option Diagnostic) :=
  [reportIf (resolver.datum.kind = .null) (.missingParameter (.text "resolver")),
    reportIf resolver.function?.isNone
      (.invalidType (.text "resolver") resolver.datum "callable")]

def handlersFaults (handlers : Plugs α) : List (Option Diagnostic) :=
  [reportIf (handlers.datum.kind = .null) (.missingParameter (.text "handlers")),
    reportIf handlers.items?.isNone
      (.invalidType (.text "handlers") handlers.datum "sequence of callables"),
    handlers.items?.bind (uncallable? 0)]

namespace Request

/-- What is wrong with the source, the resolver and the handlers. -/
def argumentFaults (r : Request δ) : List (Option Diagnostic) :=
  sourceFaults r.source ++ resolverFaults r.resolver ++ handlersFaults r.handlers

/-- The options of a request and the tree that its source is parsed to, where there are such. -/
def parsed? (workspace : Workspace) (parser : Dialect → String → SourceTree) (r : Request δ) :
    Option (Options × SourceTree) :=
  match r.source, Options.ofGiven workspace.settings r.options with
  | .text source, .ok options =>
    some (options, (workspace.cache.parse parser options.dialect source).parsed.tree)
  | _, _ => none

end Request

/--
The damage of the tree can not be quoted, since its bytes are no text. No part of
a source that is a text has such bytes, unless its tree cuts through characters.
-/
def unquotable? (tree : SourceTree) : Option Failure :=
  if (inSnippet tree).all Cursor.isReadable then none else some (.misuse .brokenText)

def syntaxFault? (options : Options) (tree : SourceTree) : Option Failure :=
  if options.strict && tree.damaged then
    some (syntaxFailure options.dialect (damageOf tree.root))
  else none

namespace Request

/-- What is wrong with the arguments, then the options, then the source. -/
def complaints (workspace : Workspace) (parser : Dialect → String → SourceTree) (r : Request δ) :
    List (Option Failure) :=
  r.argumentFaults.map (Option.map .reported) ++
    [match Options.ofGiven workspace.settings r.options with
      | .ok _ => none
      | .error failure => some failure,
    (r.parsed? workspace parser).bind fun p => unquotable? p.2,
    (r.parsed? workspace parser).bind fun p => syntaxFault? p.1 p.2]

def complaint? (workspace : Workspace) (parser : Dialect → String → SourceTree) (r : Request δ) :
    Option Failure :=
  (r.complaints workspace parser).findSome? id

end Request

/-! ### Arguments -/

/-- The verdict to which the first of some faults leads. -/
def firstFault (faults : List (Option Diagnostic)) : Validation.Verdict :=
  match faults.findSome? id with
  | some report => .error report
  | none => .ok ()

theorem firstFault_append (faults others : List (Option Diagnostic)) :
    firstFault (faults ++ others) = firstFault faults >>= fun _ => firstFault others := by
  induction faults with
  | nil => rfl
  | cons fault rest ih =>
    cases fault with
    | none => exact ih
    | some report => rfl

theorem requireItemsCallable_eq (i : Nat) (plugs : List (Plug α)) :
    Validation.requireItemsCallable (.text "handlers") i (plugs.map Plug.datum) =
      firstFault [uncallable? i plugs] := by
  induction plugs generalizing i with
  | nil => rfl
  | cons plug rest ih =>
    cases plug with
    | callable f => exact ih (i + 1)
    | value v => cases v <;> rfl

theorem ofItems_eq_map (values : List Value) :
    Datum.ofItems values = values.map Datum.ofValue := by
  induction values with
  | nil => rfl
  | cons v rest ih => simp only [Datum.ofItems, ih, List.map_cons]

theorem requireCallables_of_items {handlers : Plugs α} {plugs : List (Plug α)}
    (h : handlers.items? = some plugs) :
    handlers.datum.kind = .list ∧
      Validation.requireCallables handlers.datum (.text "handlers") =
        Validation.requireItemsCallable (.text "handlers") 0 (plugs.map Plug.datum) := by
  cases handlers with
  | items given =>
    obtain rfl := Option.some.inj h
    exact ⟨rfl, rfl⟩
  | value v =>
    cases v with
    | array values =>
      obtain rfl := Option.some.inj h
      have hdata : (values.map Plug.value).map (Plug.datum (α := α)) = Datum.ofItems values := by
        rw [ofItems_eq_map, List.map_map]
        rfl
      rw [hdata]
      exact ⟨rfl, rfl⟩
    | _ => cases h

theorem requireCallables_eq (handlers : Plugs α) :
    Validation.requireCallables handlers.datum (.text "handlers") =
      firstFault (handlersFaults handlers) := by
  unfold handlersFaults
  cases hitems : handlers.items? with
  | some plugs =>
    obtain ⟨hkind, hrequire⟩ := requireCallables_of_items hitems
    rw [hrequire, requireItemsCallable_eq, hkind]
    rfl
  | none =>
    cases handlers with
    | items given => cases hitems
    | value v =>
      cases v with
      | array values => cases hitems
      | _ => rfl

theorem requireCallable_eq (resolver : Plug α) :
    Validation.requireCallable resolver.datum (.text "resolver") =
      firstFault (resolverFaults resolver) := by
  cases resolver with
  | callable f => rfl
  | value v => cases v <;> rfl

theorem requireText_eq (source : Value) :
    (do
      Validation.requireGiven (.ofValue source) (.text "source")
      Validation.requireShape (.ofValue source) [.text] (.text "source")) =
      firstFault (sourceFaults source) := by
  cases source <;> rfl

theorem verdict_eq (r : Request δ) : r.verdict = firstFault r.argumentFaults := by
  rw [Request.argumentFaults, firstFault_append, firstFault_append, ← requireText_eq,
    ← requireCallable_eq, ← requireCallables_eq, bind_assoc, bind_assoc]
  rfl

theorem verdict_eq_ok_iff (r : Request δ) :
    r.verdict = .ok () ↔ r.argumentFaults.findSome? id = none := by
  rw [verdict_eq, firstFault]
  cases r.argumentFaults.findSome? id with
  | none => exact iff_of_true rfl rfl
  | some report => exact iff_of_false (fun h => nomatch h) (fun h => nomatch h)

theorem uncallable?_eq_none (i : Nat) (plugs : List (Plug α)) :
    uncallable? i plugs = none ↔ ∃ chain : List α, plugs = chain.map .callable := by
  induction plugs generalizing i with
  | nil => exact ⟨fun _ => ⟨[], rfl⟩, fun _ => rfl⟩
  | cons plug rest ih =>
    cases plug with
    | callable f =>
      constructor
      · intro h
        obtain ⟨chain, rfl⟩ := (ih (i + 1)).mp h
        exact ⟨f :: chain, rfl⟩
      · rintro ⟨chain, h⟩
        cases chain with
        | nil => cases h
        | cons g others =>
          apply (ih (i + 1)).mpr
          exact ⟨others, (List.cons.inj h).2⟩
    | value v =>
      constructor
      · intro h
        cases h
      · rintro ⟨chain, h⟩
        cases chain <;> cases h

/-! ### Requests in order -/

/-- Nothing is wrong with a request, which asks for the task, and its source has the tree. -/
structure Request.IsInOrder (workspace : Workspace) (parser : Dialect → String → SourceTree)
    (r : Request δ) (task : Task δ) (tree : SourceTree) : Prop where
  source : r.source = .text task.source
  resolver : r.resolver = .callable task.resolver
  handlers : r.handlers.items? = some (task.handlers.map .callable)
  options : Options.ofGiven workspace.settings r.options = .ok task.options
  parsed : (workspace.cache.parse parser task.options.dialect task.source).parsed.tree = tree
  accepted : IsAccepted task.options.strict tree

/-- Arguments without faults are a text, a function, and a list of functions. -/
theorem argumentFaults_eq_none_iff (r : Request δ) :
    r.argumentFaults.findSome? id = none ↔
      ∃ (source : String) (resolver : Resolver) (chain : List (Handler δ)),
        r.source = .text source ∧ r.resolver = .callable resolver ∧
          r.handlers.items? = some (chain.map .callable) := by
  constructor
  · intro h
    obtain ⟨⟨source, hsource⟩, resolver, hresolver⟩ :=
      r.forms_of_verdict ((verdict_eq_ok_iff r).mpr h)
    have hfaults (fault : Option Diagnostic) (hfault : fault ∈ handlersFaults r.handlers) :
        fault = none :=
      List.findSome?_eq_none_iff.mp h fault (List.mem_append_right _ hfault)
    have hunlisted := hfaults _ (.tail _ (.head _))
    have hcallable := hfaults _ (.tail _ (.tail _ (.head _)))
    cases hitems : r.handlers.items? with
    | none =>
      rw [hitems] at hunlisted
      cases hunlisted
    | some plugs =>
      rw [hitems] at hcallable
      obtain ⟨chain, rfl⟩ := (uncallable?_eq_none 0 plugs).mp hcallable
      exact ⟨source, resolver, chain, hsource, hresolver, rfl⟩
  · rintro ⟨source, resolver, chain, hsource, hresolver, hitems⟩
    have hcallable : uncallable? 0 (chain.map Plug.callable) = none :=
      (uncallable?_eq_none 0 _).mpr ⟨chain, rfl⟩
    unfold Request.argumentFaults handlersFaults
    rw [hsource, hresolver, hitems, (requireCallables_of_items hitems).1, Option.bind_some, hcallable]
    rfl

theorem functions_of_items {handlers : Plugs (Handler δ)} {chain : List (Handler δ)}
    (h : handlers.items? = some (chain.map .callable)) : handlers.functions = chain := by
  cases handlers with
  | items given =>
    obtain rfl := Option.some.inj h
    exact functions_callable chain
  | value v =>
    cases v with
    | array values =>
      have hvalues : values.map Plug.value = chain.map Plug.callable := Option.some.inj h
      -- Values are no functions, so an array in order is empty.
      cases chain with
      | nil => rfl
      | cons handler rest => cases values <;> cases hvalues
    | _ => cases h

theorem task_of_forms (settings : Settings) {r : Request δ} {source : String}
    {resolver : Resolver} {chain : List (Handler δ)} (hsource : r.source = .text source)
    (hresolver : r.resolver = .callable resolver)
    (hitems : r.handlers.items? = some (chain.map .callable)) :
    r.task settings =
      (Options.ofGiven settings r.options).map fun options => ⟨source, resolver, chain, options⟩ := by
  have hverdict : r.verdict = .ok () :=
    (verdict_eq_ok_iff r).mpr
      ((argumentFaults_eq_none_iff r).mpr ⟨source, resolver, chain, hsource, hresolver, hitems⟩)
  unfold Request.task
  rw [hverdict, functions_of_items hitems]
  simp only [hsource, hresolver]
  rfl

/-! ### Trees -/

/-- A tree is read, or it is refused for the first of its faults before anything is called. -/
theorem isAccepted_iff (options : Options) (tree : SourceTree) :
    IsAccepted options.strict tree ↔
      [unquotable? tree, syntaxFault? options tree].findSome? id = none := by
  have hquotable : unquotable? tree = none ↔ ∀ c ∈ inSnippet tree, c.isReadable = true := by
    unfold unquotable?
    rw [← List.all_eq_true]
    split
    · next h => exact iff_of_true rfl h
    · next h => exact iff_of_false (fun hnone => nomatch hnone) h
  have hlenient : syntaxFault? options tree = none ↔
      (tree.damaged = true → options.strict = false) := by
    unfold syntaxFault?
    cases options.strict <;> cases tree.damaged <;> simp
  simp only [List.findSome?_eq_none_iff, List.forall_mem_cons, id, hquotable, hlenient]
  constructor
  · intro h
    exact ⟨h.readable, h.lenient, fun _ hnone => nomatch hnone⟩
  · rintro ⟨hreadable, hstrict, -⟩
    exact ⟨hstrict, hreadable⟩

theorem readProgram_eq_of_fault {options : Options} {tree : SourceTree} {failure : Failure}
    (h : [unquotable? tree, syntaxFault? options tree].findSome? id = some failure) (desk : δ) :
    readProgram options.dialect options.strict tree desk = ⟨.error failure, [], desk⟩ := by
  by_cases hreadable : ∀ c ∈ inSnippet tree, c.isReadable = true
  · have hfault : syntaxFault? options tree = some failure := by
      rw [unquotable?, if_pos (List.all_eq_true.mpr hreadable)] at h
      simpa using h
    unfold syntaxFault? at hfault
    split at hfault
    · next hrefused =>
      obtain ⟨hstrict, hdamaged⟩ := Bool.and_eq_true_iff.mp hrefused
      obtain rfl := Option.some.inj hfault
      rw [hstrict, readProgram_eq_of_refused options.dialect hdamaged hreadable]
    · cases hfault
  · rw [unquotable?, if_neg (mt List.all_eq_true.mp hreadable)] at h
    obtain rfl := Option.some.inj h
    rw [readProgram_eq_of_unreadable options.dialect hreadable]

/-! ### Complaints -/

section

variable {workspace : Workspace} {parser : Dialect → String → SourceTree} {r : Request δ}

theorem complaint?_of_argument {report : Diagnostic}
    (h : r.argumentFaults.findSome? id = some report) :
    r.complaint? workspace parser = some (.reported report) := by
  have hmap (faults : List (Option Diagnostic)) :
      (faults.map (Option.map Failure.reported)).findSome? id =
        (faults.findSome? id).map Failure.reported := by
    induction faults with
    | nil => rfl
    | cons fault rest ih =>
      cases fault with
      | none => exact ih
      | some found => rfl
  unfold Request.complaint? Request.complaints
  rw [List.findSome?_append, hmap, h]
  rfl

theorem complaint?_of_forms (h : r.argumentFaults.findSome? id = none) {source : String}
    (hsource : r.source = .text source) :
    r.complaint? workspace parser =
      match Options.ofGiven workspace.settings r.options with
      | .error failure => some failure
      | .ok options =>
        let tree := (workspace.cache.parse parser options.dialect source).parsed.tree
        [unquotable? tree, syntaxFault? options tree].findSome? id := by
  have hnone : (r.argumentFaults.map (Option.map Failure.reported)).findSome? id = none := by
    simp only [List.findSome?_eq_none_iff, List.forall_mem_map, id, Option.map_eq_none_iff] at h ⊢
    exact h
  unfold Request.complaint? Request.complaints Request.parsed?
  rw [List.findSome?_append, hnone, hsource, Option.none_or]
  cases Options.ofGiven workspace.settings r.options with
  | error failure => rfl
  | ok options => rfl

theorem complaint?_eq_none_iff :
    r.complaint? workspace parser = none ↔
      ∃ task tree, r.IsInOrder workspace parser task tree := by
  constructor
  · intro h
    cases hfault : r.argumentFaults.findSome? id with
    | some report =>
      rw [complaint?_of_argument hfault] at h
      cases h
    | none =>
      obtain ⟨source, resolver, chain, hsource, hresolver, hitems⟩ :=
        (argumentFaults_eq_none_iff r).mp hfault
      rw [complaint?_of_forms hfault hsource] at h
      cases hoptions : Options.ofGiven workspace.settings r.options with
      | error failure =>
        rw [hoptions] at h
        cases h
      | ok options =>
        rw [hoptions] at h
        exact ⟨⟨source, resolver, chain, options⟩, _, hsource, hresolver, hitems, hoptions, rfl,
          (isAccepted_iff options _).mpr h⟩
  · rintro ⟨task, tree, h⟩
    have hfault : r.argumentFaults.findSome? id = none :=
      (argumentFaults_eq_none_iff r).mpr
        ⟨task.source, task.resolver, task.handlers, h.source, h.resolver, h.handlers⟩
    rw [complaint?_of_forms hfault h.source, h.options]
    apply (isAccepted_iff task.options _).mp
    rw [h.parsed]
    exact h.accepted

/-- A request about which there is a complaint is refused with it before anything is called. -/
theorem extract_eq_of_complaint {π : Type} (craft : Craft δ π) {failure : Failure}
    (h : r.complaint? workspace parser = some failure) (desk : δ) :
    (extract craft workspace parser r desk).1 = ⟨.error failure, [], desk⟩ := by
  unfold extract
  cases hfault : r.argumentFaults.findSome? id with
  | some report =>
    have htask : r.task workspace.settings = .error (.reported report) := by
      unfold Request.task
      rw [verdict_eq, firstFault, hfault]
    rw [complaint?_of_argument hfault] at h
    obtain rfl := Option.some.inj h
    rw [htask]
    rfl
  | none =>
    obtain ⟨source, resolver, chain, hsource, hresolver, hitems⟩ :=
      (argumentFaults_eq_none_iff r).mp hfault
    rw [complaint?_of_forms hfault hsource] at h
    rw [task_of_forms workspace.settings hsource hresolver hitems]
    cases hoptions : Options.ofGiven workspace.settings r.options with
    | error given =>
      rw [hoptions] at h
      obtain rfl := Option.some.inj h
      rfl
    | ok options =>
      rw [hoptions] at h
      have hread := readProgram_eq_of_fault h desk
      show Task.run craft workspace.settings.trimsDescriptions ⟨source, resolver, chain, options⟩
        (workspace.cache.parse parser options.dialect source).parsed.tree desk = _
      unfold Task.run
      rw [Work.bind_eq_of_error (congrArg Logged.outcome hread), hread]

end

theorem extract_eq_of_inOrder {π : Type} (craft : Craft δ π) {workspace : Workspace}
    {parser : Dialect → String → SourceTree} {r : Request δ} {task : Task δ} {tree : SourceTree}
    (h : r.IsInOrder workspace parser task tree) (desk : δ) :
    (extract craft workspace parser r desk).1 =
      task.run craft workspace.settings.trimsDescriptions tree desk := by
  obtain ⟨source, resolver, chain, options⟩ := task
  have htask : r.task workspace.settings = .ok ⟨source, resolver, chain, options⟩ := by
    rw [task_of_forms workspace.settings h.source h.resolver h.handlers, h.options]
    rfl
  unfold extract
  rw [htask, ← h.parsed]

end ComponentAtlas.Extraction
