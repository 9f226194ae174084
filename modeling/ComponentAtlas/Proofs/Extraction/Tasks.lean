import ComponentAtlas.Extraction.Basic

/-!
# Tasks step by step

Work comes to the outcome of its last step when the steps before it succeed. So
a request whose arguments are in order comes to the outcome of its task, a tree
that is accepted to its program, and a definition whose handlers succeed to the
page that the desk then shows.
-/

namespace ComponentAtlas.Extraction

open SourceTree

variable {δ π : Type}

/-! ### Work in steps -/

namespace Work

variable {α β : Type} {work : Work δ α} {next : α → Work δ β} {desk : δ}

theorem bind_of_ok (value : α) (h : (work desk).outcome = .ok value) :
    ((work >>= next) desk).outcome = (next value (work desk).desk).outcome := by
  simp only [bind, h]

theorem bind_of_error {failure : Failure} (h : (work desk).outcome = .error failure) :
    ((work >>= next) desk).outcome = .error failure := by
  simp only [bind, h]

theorem bind_eq_of_ok {value : α} (h : (work desk).outcome = .ok value) :
    (work >>= next) desk =
      ⟨(next value (work desk).desk).outcome,
        (work desk).events ++ (next value (work desk).desk).events,
        (next value (work desk).desk).desk⟩ := by
  simp only [bind, h]

theorem bind_eq_of_error {failure : Failure} (h : (work desk).outcome = .error failure) :
    (work >>= next) desk = ⟨.error failure, (work desk).events, (work desk).desk⟩ := by
  simp only [bind, h]

theorem map_eq (f : α → β) :
    (f <$> work) desk = ⟨f <$> (work desk).outcome, (work desk).events, (work desk).desk⟩ := by
  have hmap : (f <$> work) = work >>= fun a => pure (f a) := rfl
  rw [hmap]
  cases h : (work desk).outcome with
  | error failure => exact bind_eq_of_error h
  | ok value =>
    rw [bind_eq_of_ok h]
    simp only [pure, List.append_nil]
    rfl

theorem outcome_map (f : α → β) : ((f <$> work) desk).outcome = f <$> (work desk).outcome := by
  rw [map_eq]

theorem bind_pure (work : Work δ α) : work >>= pure = work := by
  funext desk
  have hdone : work desk = ⟨(work desk).outcome, (work desk).events, (work desk).desk⟩ := rfl
  cases h : (work desk).outcome with
  | ok value =>
    rw [bind_eq_of_ok h, hdone, h]
    simp only [pure, List.append_nil]
  | error failure => rw [bind_eq_of_error h, hdone, h]

theorem bind_assoc {γ : Type} (work : Work δ α) (next : α → Work δ β) (last : β → Work δ γ) :
    work >>= next >>= last = work >>= fun value => next value >>= last := by
  funext desk
  simp only [bind]
  cases (work desk).outcome with
  | error failure => rfl
  | ok value =>
    dsimp only
    cases (next value (work desk).desk).outcome with
    | error failure => rfl
    | ok second => simp only [List.append_assoc]

instance : LawfulMonad (Work δ) :=
  LawfulMonad.mk' (Work δ) bind_pure (fun _ _ => rfl) bind_assoc

end Work

/-! ### Requests in order -/

theorem requireItemsCallable_map (parameter : Datum) (i : Nat) (chain : List (Handler δ)) :
    Validation.requireItemsCallable parameter i
      ((chain.map fun handler => Plug.callable handler).map Plug.datum) = .ok () := by
  induction chain generalizing i with
  | nil => rfl
  | cons handler rest ih => exact ih (i + 1)

theorem functions_callable (chain : List (Handler δ)) :
    (Plugs.items (chain.map Plug.callable)).functions = chain := by
  induction chain with
  | nil => rfl
  | cons handler rest ih =>
    simp only [Plugs.functions] at ih
    simp only [Plugs.functions, List.map_cons, Plug.function?, List.filterMap_cons, ih]

/-- The task of a request with a text as source and with functions as resolver and handlers. -/
theorem task_of_callables (settings : Settings) (source : String) (resolver : Resolver)
    (chain : List (Handler δ)) (given : Options.Given) :
    Request.task settings
        ⟨.text source, .callable resolver, .items (chain.map .callable), given⟩ =
      (Options.ofGiven settings given).map fun options => ⟨source, resolver, chain, options⟩ := by
  have hverdict : Request.verdict (δ := δ)
      ⟨.text source, .callable resolver, .items (chain.map .callable), given⟩ = .ok () :=
    requireItemsCallable_map (.text "handlers") 0 chain
  simp only [Request.task, hverdict, functions_callable]
  rfl

/-! ### Running a task -/

/-- The tree can be read as a program: its damage, if any, is not refused and can be quoted. -/
structure IsAccepted (strict : Bool) (tree : SourceTree) : Prop where
  lenient : tree.damaged = true → strict = false
  readable : ∀ c ∈ inSnippet tree, c.isReadable = true

/-- The warning with which a damaged tree is read. -/
def warnings (dialect : Dialect) (tree : SourceTree) : List Event :=
  if tree.damaged then [.warned (syntaxWarning dialect (damageOf tree.root))] else []

section

variable (dialect : Dialect) {strict : Bool} {tree : SourceTree}

theorem readProgram_eq_of_readable (h : ∀ c ∈ inSnippet tree, c.isReadable = true) (desk : δ) :
    readProgram dialect strict tree desk = program dialect strict tree desk := by
  have hchecked : Reading.checked (Reading.texts (inSnippet tree)) () = .ok () :=
    (Reading.checked_texts_eq_ok _ _ _).mpr ⟨h, rfl⟩
  have hread :
      ((Work.ofExcept (Reading.checked (Reading.texts (inSnippet tree)) ()) : Work δ Unit)
        desk).outcome = .ok () := hchecked
  unfold readProgram
  rw [Work.bind_eq_of_ok hread]
  exact congrArg (Logged.mk _ · _) (List.nil_append _)

theorem readProgram_eq_of_unreadable (h : ¬ ∀ c ∈ inSnippet tree, c.isReadable = true)
    (desk : δ) :
    readProgram dialect strict tree desk = ⟨.error (.misuse .brokenText), [], desk⟩ := by
  have hbroken :
      ((Work.ofExcept (Reading.checked (Reading.texts (inSnippet tree)) ()) : Work δ Unit)
        desk).outcome = .error (.misuse .brokenText) :=
    (Reading.checked_texts _ _).trans (if_neg (mt List.all_eq_true.mp h))
  unfold readProgram
  rw [Work.bind_eq_of_error hbroken]
  rfl

theorem readProgram_eq_of_refused (hdamaged : tree.damaged = true)
    (h : ∀ c ∈ inSnippet tree, c.isReadable = true) (desk : δ) :
    readProgram dialect true tree desk =
      ⟨.error (syntaxFailure dialect (damageOf tree.root)), [], desk⟩ := by
  rw [readProgram_eq_of_readable dialect h, program, hdamaged]
  rfl

theorem readProgram_eq_of_accepted (h : IsAccepted strict tree) (desk : δ) :
    readProgram dialect strict tree desk =
      ⟨.ok (.ofRoot tree.root), warnings dialect tree, desk⟩ := by
  rw [readProgram_eq_of_readable dialect h.readable]
  unfold program warnings
  cases hd : tree.damaged with
  | false => rfl
  | true =>
    simp only [h.lenient hd]
    rfl

end

theorem readProgram_of_accepted (dialect : Dialect) {strict : Bool} {tree : SourceTree}
    (h : IsAccepted strict tree) (desk : δ) :
    (readProgram dialect strict tree desk).outcome = .ok (.ofRoot tree.root) ∧
      (readProgram dialect strict tree desk).desk = desk := by
  rw [readProgram_eq_of_accepted dialect h]
  exact ⟨rfl, rfl⟩

/-- The desk and the outcome after the handlers have been run on a definition. -/
def handled (craft : Craft δ π) (chain : List (Handler δ)) (definition : Definition) (desk : δ) :
    Logged δ Unit :=
  runHandlers 0 definition 0 chain (craft.start definition desk)

theorem outcome_document {craft : Craft δ π} {trim : Bool} {chain : List (Handler δ)}
    {definition : Definition} {desk : δ}
    (h : (handled craft chain definition desk).outcome = .ok ()) :
    (document craft trim chain 0 definition desk).outcome =
      craft.page trim (handled craft chain definition desk).desk := by
  unfold document
  rw [Work.bind_of_ok () rfl]
  exact Work.bind_of_ok _ h

end ComponentAtlas.Extraction
