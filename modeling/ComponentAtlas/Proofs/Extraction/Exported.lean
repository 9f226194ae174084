import ComponentAtlas.Proofs.Component.Listing
import ComponentAtlas.Proofs.Extraction.Tasks

/-!
# Extraction by exports

When no resolver is given, the number of exported components decides what an
extraction answers: there is nothing to document, there is one component whose
page is the result, or there are several and they are refused.
-/

namespace ComponentAtlas.Extraction

open SourceTree Component

variable {δ π : Type}

theorem outcome_run_default (craft : Craft δ π) (trim : Bool) (source : String)
    (chain : List (Handler δ)) {options : Options} {tree : SourceTree}
    (haccepted : IsAccepted options.strict tree) (desk : δ) :
    (Task.run craft trim ⟨source, defaultResolver, chain, options⟩ tree desk).outcome =
      (Reading.exported (.ofRoot tree.root)).bind fun found =>
        found.elim (.error (.reported .missingDefinition)) fun d =>
          Result.one <$> (document craft trim chain 0 (.node d) desk).outcome := by
  obtain ⟨hread, hdesk⟩ := readProgram_of_accepted options.dialect haccepted desk
  unfold Task.run
  rw [Work.bind_of_ok _ hread, hdesk, Work.bind_of_ok () rfl]
  cases hexported : Reading.exported (.ofRoot tree.root) with
  | error failure =>
    refine Work.bind_of_error ?_
    simp only [defaultResolver, hexported]
    rfl
  | ok found =>
    cases found with
    | none =>
      have hreply : ((Work.ofExcept (defaultResolver (.ofRoot tree.root) options.dialect) :
          Work δ Reply) desk).outcome = .ok (.value .null) := by
        simp only [Work.ofExcept, defaultResolver, hexported]
        rfl
      exact Work.bind_of_ok _ hreply
    | some d =>
      have hreply : ((Work.ofExcept (defaultResolver (.ofRoot tree.root) options.dialect) :
          Work δ Reply) desk).outcome = .ok (.node d) := by
        simp only [Work.ofExcept, defaultResolver, hexported]
        rfl
      exact (Work.bind_of_ok _ hreply).trans (Work.outcome_map _)

/-! ### Answers by the number of exports -/

/-- The answer where there are no exported components, or only one; several are refused. -/
def decidedBy {α : Type} (nothing : Except Failure α) (only : Cursor → Except Failure α) :
    List Cursor → Except Failure α
  | [] => nothing
  | [d] => only d
  | several => .error (.reported (.multipleDefinitions several.length))

theorem readingExported_eq (program : Cursor) :
    Reading.exported program =
      (Reading.allExported program).bind (decidedBy (.ok none) fun d => .ok (some d)) := by
  have hexported :
      exported program = decidedBy (.ok none) (fun d => .ok (some d)) (allExported program) := by
    unfold exported
    match allExported program with
    | [] => rfl
    | [d] => rfl
    | d :: e :: rest => rfl
  unfold Reading.exported Reading.allExported Reading.checked
  split
  · exact hexported
  · rfl

theorem decidedBy_bind {α : Type} (nothing : Except Failure α) (only : Cursor → Except Failure α)
    (places : List Cursor) :
    ((decidedBy (.ok none) (fun d => .ok (some d)) places).bind fun found =>
      found.elim nothing only) = decidedBy nothing only places := by
  match places with
  | [] => rfl
  | [d] => rfl
  | d :: e :: rest => rfl

theorem decidedBy_congr {α : Type} {nothing : Except Failure α}
    {one other : Cursor → Except Failure α} {places : List Cursor}
    (h : ∀ d, places = [d] → one d = other d) :
    decidedBy nothing one places = decidedBy nothing other places := by
  match places with
  | [] => rfl
  | [d] => exact h d rfl
  | d :: e :: rest => rfl

/-! ### Calls without a resolver -/

/--
A call without a resolver that is in order: a text as source, handlers that are
functions, and options and a tree that are accepted.
-/
structure IsPlainCall (workspace : Workspace) (parser : Dialect → String → SourceTree)
    (source : Value) (resolver : Option (Plug Resolver)) (handlers : Option (Plugs (Handler δ)))
    (given : Options.Given) (chain : List (Handler δ)) (tree : SourceTree) : Prop where
  resolver : resolver = none ∨ resolver = some (.value .null)
  handlers : handlerList handlers = .ok (.items (chain.map .callable))
  accepted : ∃ text options, source = .text text ∧
    Options.ofGiven workspace.settings given = .ok options ∧
      (workspace.cache.parse parser options.dialect text).parsed.tree = tree ∧
        IsAccepted options.strict tree

section

variable {craft : Craft δ π} {workspace : Workspace} {parser : Dialect → String → SourceTree}
  {source : Value} {resolver : Option (Plug Resolver)} {handlers : Option (Plugs (Handler δ))}
  {given : Options.Given} {chain : List (Handler δ)} {tree : SourceTree}

theorem outcome_parse (h : IsPlainCall workspace parser source resolver handlers given chain tree)
    (desk : δ) :
    (parse craft workspace parser source resolver handlers given desk).1.outcome =
      (Reading.exported (.ofRoot tree.root)).bind fun found =>
        found.elim (.error (.reported .missingDefinition)) fun d =>
          Result.one <$>
            (document craft workspace.settings.trimsDescriptions chain 0 (.node d)
              desk).outcome := by
  obtain ⟨text, options, rfl, hoptions, htree, haccepted⟩ := h.accepted
  have hresolver : resolverOr resolver = .callable defaultResolver := by
    rcases h.resolver with rfl | rfl
    · rfl
    · rfl
  have hrun := outcome_run_default craft workspace.settings.trimsDescriptions text chain haccepted
    desk
  rw [← hrun, parse, h.handlers]
  simp only [extract, hresolver, task_of_callables, hoptions, Except.map, htree]

/-- What the number of the components decides, where they are answered. -/
theorem outcome_parse_eq
    (h : IsPlainCall workspace parser source resolver handlers given chain tree) {desk : δ}
    (hhandled : ∀ d, Reading.allExported (.ofRoot tree.root) = .ok [d] →
      (handled craft chain (.node d) desk).outcome = .ok ()) :
    (parse craft workspace parser source resolver handlers given desk).1.outcome =
      (Reading.allExported (.ofRoot tree.root)).bind
        (decidedBy (.error (.reported .missingDefinition)) fun d =>
          Result.one <$> craft.page workspace.settings.trimsDescriptions
            (handled craft chain (.node d) desk).desk) := by
  rw [outcome_parse h, readingExported_eq]
  cases hread : Reading.allExported (.ofRoot tree.root) with
  | error failure => rfl
  | ok found =>
    refine (decidedBy_bind _ _ found).trans (decidedBy_congr fun d hd => ?_)
    rw [outcome_document (hhandled d (hread.trans (congrArg Except.ok hd)))]

end

/--
The exported components are listed once each in the order of their first exports,
what leads to none or to an earlier one changing nothing. Their number decides
what asking for the only one answers, and what a call without a resolver answers
when the handlers succeed. Where they are not answered, a text that is looked at
cannot be read or a path that is followed has no end.
-/
theorem parse_decidedBy_exports {root : Node} (hnumbered : root.IsNumbered) :
    (∀ found, Reading.allExported (.ofRoot root) = .ok found →
      (∀ places, IsListing (exportedValues (.ofRoot root)) places ↔ places = found) ∧
      ∀ before value after, exportedValues (.ofRoot root) = before ++ value :: after →
        (value.bind definition = none ∨
          ∃ earlier ∈ before, earlier.bind definition = value.bind definition) →
        IsListing (before ++ after) found) ∧
    (∀ failure, Reading.allExported (.ofRoot root) = .error failure →
      Reading.FailsFor (Reading.inExports (.ofRoot root)) (IsFollowed root) failure) ∧
    (ExportsEnd root →
      (∀ place, .text place ∈ Reading.inExports (.ofRoot root) → place.isReadable = true) →
      ∃ found, Reading.allExported (.ofRoot root) = .ok found) ∧
    Reading.exported (.ofRoot root) =
      (Reading.allExported (.ofRoot root)).bind
        (decidedBy (.ok none) fun d => .ok (some d)) ∧
    ∀ {δ π : Type} (craft : Craft δ π) (workspace : Workspace)
      (parser : Dialect → String → SourceTree) (source : Value) (resolver : Option (Plug Resolver))
      (handlers : Option (Plugs (Handler δ))) (given : Options.Given) (chain : List (Handler δ))
      (tree : SourceTree) (desk : δ), tree.root = root →
      IsPlainCall workspace parser source resolver handlers given chain tree →
      (∀ d, Reading.allExported (.ofRoot root) = .ok [d] →
        (handled craft chain (.node d) desk).outcome = .ok ()) →
      (parse craft workspace parser source resolver handlers given desk).1.outcome =
        (Reading.allExported (.ofRoot root)).bind
          (decidedBy (.error (.reported .missingDefinition)) fun d =>
            Result.one <$> craft.page workspace.settings.trimsDescriptions
              (handled craft chain (.node d) desk).desk) := by
  refine ⟨fun found hfound => ?_, fun failure hfailure => ?_, fun hends hreadable => ?_,
    readingExported_eq _, ?_⟩
  · obtain ⟨-, rfl⟩ := (Reading.checked_eq_ok _ _ _).mp hfound
    exact ⟨fun _ => isListing_iff hnumbered, fun _ _ _ => isListing_without hnumbered⟩
  · rcases allExported_cases with hread | ⟨other, hother, hfails⟩
    · rw [hread] at hfailure
      cases hfailure
    · rw [hother] at hfailure
      exact Except.error.inj hfailure ▸ hfails
  · exact ⟨_, allExported_of_exportsEnd hends hreadable⟩
  · intro δ π craft workspace parser source resolver handlers given chain tree desk hroot hcall
      hhandled
    subst hroot
    exact outcome_parse_eq hcall hhandled

/-- The rows of a program that exports one component under two names, and a number. -/
def sharedRows : List Row :=
  let row (parent : Nat) (kind : String) (start stop : Nat) (field : Option String) : Row :=
    ⟨some parent, kind, start, stop, field, true, false⟩
  [⟨none, "program", 0, 67, none, true, false⟩, row 0 "export_statement" 0 28 none,
    row 1 "lexical_declaration" 7 28 (some "declaration"), row 2 "variable_declarator" 13 27 none,
    row 3 "identifier" 13 14 (some "name"), row 3 "arrow_function" 17 27 (some "value"),
    row 5 "formal_parameters" 17 19 (some "parameters"),
    row 5 "jsx_self_closing_element" 23 27 (some "body"), row 0 "export_statement" 29 47 none,
    row 8 "export_clause" 36 46 none, row 9 "export_specifier" 38 44 none,
    row 10 "identifier" 38 39 (some "name"), row 10 "identifier" 43 44 (some "alias"),
    row 0 "export_statement" 48 67 none, row 13 "lexical_declaration" 55 67 (some "declaration"),
    row 14 "variable_declarator" 61 66 none, row 15 "identifier" 61 62 (some "name"),
    row 15 "number" 65 66 (some "value")]

def sharedSource : String :=
  "export const A = () => <a/>;\nexport \x7b A as B \x7d;\nexport const n = 1;"

def shared : Node := (Node.ofRows? sharedSource sharedRows).get rfl

/-- A handler that describes a component by its kind. -/
def kindHandler : Handler (Record Value) := fun definition record =>
  match definition with
  | .node place => ({ record with description := .text place.kind }, .ok ())
  | .value _ => (record, .ok ())

/-- One component under two names is one export, and the answer is its document. -/
theorem parse_decidedBy_exports_shared :
    shared.IsNumbered ∧ (exportedValues (.ofRoot shared)).length = 3 ∧ ExportsEnd shared ∧
      (∃ d, Reading.allExported (.ofRoot shared) = .ok [d] ∧
        IsListing (exportedValues (.ofRoot shared)) [d]) ∧
      ∃ document, (parse .plain .fresh (fun _ _ => ⟨shared, false⟩) (.text sharedSource) none
        (some (.items [.callable kindHandler])) .nothing Record.empty).1.outcome =
          .ok (.one document) ∧ document.description = some "arrow_function" := by
  have hnumbered : shared.IsNumbered := Node.isNumbered_of_ofRows? (Option.some_get _).symm
  have hends : ExportsEnd shared := exportsEnd_of_size (by decide +kernel)
  have hcall : IsPlainCall .fresh (fun _ _ => ⟨shared, false⟩) (.text sharedSource) none
      (some (.items [.callable kindHandler])) .nothing [kindHandler] ⟨shared, false⟩ :=
    { resolver := .inl rfl
      handlers := rfl
      accepted := ⟨sharedSource, ⟨.javascript, false⟩, rfl, rfl, rfl, nofun, nofun⟩ }
  have hfaultless : ∀ look ∈ Reading.inExports (.ofRoot shared), look.fault? = none := by
    decide +kernel
  obtain ⟨hlisting, -, hanswered, -, hparse⟩ := parse_decidedBy_exports hnumbered
  obtain ⟨found, hfound⟩ := hanswered hends (Reading.isReadable_of_faultless hfaultless)
  obtain ⟨d, rfl⟩ : ∃ d, [d] = found := ⟨_, Except.ok.inj hfound⟩
  have hanswer := hparse .plain .fresh _ _ _ _ _ _ _ Record.empty rfl hcall fun _ _ => rfl
  refine ⟨hnumbered, rfl, hends, ⟨d, hfound, ((hlisting _ hfound).1 _).mpr rfl⟩, _, hanswer, ?_⟩
  rfl

end ComponentAtlas.Extraction
