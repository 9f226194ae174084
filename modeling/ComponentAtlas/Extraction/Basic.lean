import ComponentAtlas.Extraction.Batch
import ComponentAtlas.Extraction.Program
import ComponentAtlas.Extraction.Reply
import ComponentAtlas.Options
import ComponentAtlas.ParseCache
import ComponentAtlas.Reading.Components
import ComponentAtlas.Validation

/-!
# Extraction

From a source to the documentation of its components. The arguments are checked
first and the source is parsed; then the resolver is asked for definitions, and
the handlers are run on each of them.
-/

namespace ComponentAtlas.Extraction

open SourceTree

abbrev Resolver := Cursor → Dialect → Except Failure Reply

/-- An argument that should be callable. -/
inductive Plug (α : Type) where
  | callable (f : α)
  | value (v : Value)

namespace Plug

variable {α : Type}

def datum : Plug α → Datum
  | .callable _ => .callable
  | .value v => .ofValue v

def function? : Plug α → Option α
  | .callable f => some f
  | .value _ => none

end Plug

/-- An argument that should be a list of callables. -/
inductive Plugs (α : Type) where
  | items (plugs : List (Plug α))
  | value (v : Value)

namespace Plugs

variable {α : Type}

def datum : Plugs α → Datum
  | .items plugs => .list (plugs.map Plug.datum)
  | .value v => .ofValue v

def functions : Plugs α → List α
  | .items plugs => plugs.filterMap Plug.function?
  | .value _ => []

end Plugs

structure Request (δ : Type) where
  source : Value
  resolver : Plug Resolver
  handlers : Plugs (Handler δ)
  options : Options.Given

/-- A request whose arguments are in order. -/
structure Task (δ : Type) where
  source : String
  resolver : Resolver
  handlers : List (Handler δ)
  options : Options

/-- The checks on the arguments, in order. -/
def Request.verdict {δ : Type} (r : Request δ) : Validation.Verdict := do
  Validation.requireGiven (.ofValue r.source) (.text "source")
  Validation.requireShape (.ofValue r.source) [.text] (.text "source")
  Validation.requireCallable r.resolver.datum (.text "resolver")
  Validation.requireCallables r.handlers.datum (.text "handlers")

/-- The checks leave only requests with a text as source and a callable resolver. -/
theorem Request.forms_of_verdict {δ : Type} (r : Request δ) (h : r.verdict = .ok ()) :
    (∃ s, r.source = .text s) ∧ ∃ f, r.resolver = .callable f := by
  obtain ⟨source, resolver, handlers, options⟩ := r
  constructor
  · cases source with
    | text s => exact ⟨s, rfl⟩
    | _ => cases h
  · cases resolver with
    | callable f => exact ⟨f, rfl⟩
    | value v => cases source <;> cases v <;> cases h

/-- The task of a request that passes the checks; by `Request.forms_of_verdict` no case is lost. -/
def Request.task {δ : Type} (settings : Settings) (r : Request δ) : Except Failure (Task δ) :=
  match r.verdict with
  | .error report => .error (.reported report)
  | .ok () =>
    match r.source, r.resolver with
    | .text source, .callable resolver => do
      let options ← Options.ofGiven settings r.options
      pure ⟨source, resolver, r.handlers.functions, options⟩
    | _, _ => .error (.misuse .unsuitable)

/-- The page of one definition, or the pages of a batch of them. -/
inductive Result (π : Type) where
  | one (page : π)
  | many (pages : List π)

variable {δ π : Type}

def Task.run (craft : Craft δ π) (trim : Bool) (task : Task δ) (tree : SourceTree) :
    Work δ (Result π) := do
  let root ← readProgram task.options.dialect task.options.strict tree
  Work.note (.resolving root task.options.dialect)
  let reply ← Work.ofExcept (task.resolver root task.options.dialect)
  match reply.select with
  | some (.one definition) => Result.one <$> document craft trim task.handlers 0 definition
  | some (.many definitions) => Result.many <$> documentAll craft trim task.handlers 0 definitions
  | none => .fail (.reported .missingDefinition)

/-- What lasts from one extraction to the next. -/
structure Workspace where
  settings : Settings
  cache : ParseCache SourceTree

def Workspace.fresh : Workspace := ⟨Settings.initial, ParseCache.empty⟩

/-- An extraction that starts at the given desk. -/
def extract (craft : Craft δ π) (workspace : Workspace) (parser : Dialect → String → SourceTree)
    (r : Request δ) (desk : δ) : Logged δ (Result π) × Workspace :=
  match r.task workspace.settings with
  | .error failure => (Work.fail failure desk, workspace)
  | .ok task =>
    let fetched := workspace.cache.parse parser task.options.dialect task.source
    (task.run craft workspace.settings.trimsDescriptions fetched.parsed.tree desk,
      { workspace with cache := fetched.cache })

/-! ### The short entry point -/

def defaultResolver : Resolver := fun root _ =>
  (Reading.exported root).map fun found =>
    match found with
    | some place => .node place
    | none => .value .null

/-- The resolver to use: none given means the default one. -/
def resolverOr : Option (Plug Resolver) → Plug Resolver
  | none | some (.value .null) => .callable defaultResolver
  | some plug => plug

/-- The handlers as a list: what counts for nothing is empty, and other values are gone through. -/
def handlerList : Option (Plugs (Handler δ)) → Except Failure (Plugs (Handler δ))
  | none => .ok (.items [])
  | some (.items plugs) => .ok (.items plugs)
  | some (.value v) =>
    if !v.isTruthy then .ok (.items [])
    else
      match v.listed? with
      | some items => .ok (.items (items.map .value))
      | none => .error (.misuse .unsuitable)

def parse (craft : Craft δ π) (workspace : Workspace) (parser : Dialect → String → SourceTree)
    (source : Value) (resolver : Option (Plug Resolver)) (handlers : Option (Plugs (Handler δ)))
    (options : Options.Given) (desk : δ) : Logged δ (Result π) × Workspace :=
  match handlerList handlers with
  | .error failure => (Work.fail failure desk, workspace)
  | .ok handlers =>
    extract craft workspace parser ⟨source, resolverOr resolver, handlers, options⟩ desk

end ComponentAtlas.Extraction
