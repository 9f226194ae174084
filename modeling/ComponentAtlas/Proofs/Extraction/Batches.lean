import ComponentAtlas.Proofs.Extraction.Tasks
import Mathlib.Data.List.Forall2

/-!
# Batches

A batch is documented definition by definition. In the plain craft every
definition finds a blank record, so that its page is the one that it would have
alone; a batch then comes to the pages of its definitions, or to the failure of
the first of them that has none.
-/

namespace ComponentAtlas.Extraction

variable {δ π : Type}

/-! ### Lists that are gone through with failures -/

theorem mapM_eq_ok_iff {α β : Type} (f : α → Except Failure β) (xs : List α) (ys : List β) :
    xs.mapM f = .ok ys ↔ List.Forall₂ (fun x y => f x = .ok y) xs ys := by
  induction xs generalizing ys with
  | nil =>
    rw [List.mapM_nil, List.forall₂_nil_left_iff, eq_comm]
    show Except.ok ys = Except.ok [] ↔ ys = []
    simp only [Except.ok.injEq]
  | cons x rest ih =>
    rw [List.mapM_cons, List.forall₂_cons_left_iff]
    constructor
    · intro h
      cases hx : f x with
      | error failure =>
        rw [hx] at h
        cases h
      | ok y =>
        cases hrest : rest.mapM f with
        | error failure =>
          rw [hx, hrest] at h
          cases h
        | ok others =>
          rw [hx, hrest] at h
          exact ⟨y, others, rfl, (ih others).mp hrest, (Except.ok.inj h).symm⟩
    · rintro ⟨y, others, hx, hrest, rfl⟩
      rw [hx, (ih others).mpr hrest]
      rfl

/-- Items keep their results when they are put into another order. -/
theorem mapM_of_perm {α β : Type} {f : α → Except Failure β} {xs : List α} {ys : List β}
    (h : xs.mapM f = .ok ys) {pairs : List (α × β)} (hpairs : (xs.zip ys).Perm pairs) :
    (pairs.map Prod.fst).mapM f = .ok (pairs.map Prod.snd) := by
  obtain ⟨-, hzip⟩ := List.forall₂_iff_zip.mp ((mapM_eq_ok_iff f xs ys).mp h)
  rw [mapM_eq_ok_iff, List.forall₂_map_left_iff, List.forall₂_map_right_iff, List.forall₂_same]
  intro pair hpair
  apply hzip
  exact hpairs.mem_iff.mpr hpair

/-! ### One batch after another -/

section

variable (craft : Craft δ π) (trim : Bool) (chain : List (Handler δ))

theorem documentAll_append (number : Nat) (xs ys : List Definition) :
    documentAll craft trim chain number (xs ++ ys) = (do
      let first ← documentAll craft trim chain number xs
      let others ← documentAll craft trim chain (number + xs.length) ys
      pure (first ++ others)) := by
  induction xs generalizing number with
  | nil => simp [documentAll]
  | cons d rest ih =>
    have hnumber : number + (rest.length + 1) = number + 1 + rest.length := by omega
    simp only [List.cons_append, documentAll, ih, bind_assoc, pure_bind, List.length_cons, hnumber]

variable {craft trim chain}

theorem documentAll_append_of_error {number : Nat} {xs : List Definition} {desk : δ}
    {failure : Failure}
    (h : (documentAll craft trim chain number xs desk).outcome = .error failure)
    (ys : List Definition) :
    documentAll craft trim chain number (xs ++ ys) desk =
      documentAll craft trim chain number xs desk := by
  rw [documentAll_append, Work.bind_eq_of_error h, ← h]

end

/-! ### Definitions by themselves -/

/-- The numbers of a definition and of its handlers are for the log only. -/
theorem runHandlers_renumber (chain : List (Handler δ)) (definition : Definition)
    (number other index start : Nat) (desk : δ) :
    (runHandlers number definition index chain desk).outcome =
        (runHandlers other definition start chain desk).outcome ∧
      (runHandlers number definition index chain desk).desk =
        (runHandlers other definition start chain desk).desk := by
  induction chain generalizing index start desk with
  | nil => exact ⟨rfl, rfl⟩
  | cons handler rest ih =>
    simp only [runHandlers, bind, Work.note, Work.change]
    cases (handler definition desk).2 with
    | error failure => exact ⟨rfl, rfl⟩
    | ok done => exact ih (index + 1) (start + 1) (handler definition desk).1

theorem outcome_document_eq (craft : Craft δ π) (trim : Bool) (chain : List (Handler δ))
    (number : Nat) (definition : Definition) (desk : δ) :
    (document craft trim chain number definition desk).outcome =
      (handled craft chain definition desk).outcome.bind fun _ =>
        craft.page trim (handled craft chain definition desk).desk := by
  obtain ⟨houtcome, hdesk⟩ :=
    runHandlers_renumber chain definition number 0 0 0 (craft.start definition desk)
  unfold document handled
  rw [Work.bind_of_ok () rfl, ← houtcome, ← hdesk]
  show ((runHandlers number definition 0 chain >>= fun _ => Work.look (craft.page trim))
    (craft.start definition desk)).outcome = _
  cases h : (runHandlers number definition 0 chain (craft.start definition desk)).outcome with
  | ok done => rw [Work.bind_of_ok done h]; rfl
  | error failure => rw [Work.bind_of_error h]; rfl

/-- What a definition comes to alone: its page, or the failure that keeps it from having one. -/
def pageAlone (trim : Bool) (chain : List (Handler (Record Value))) (definition : Definition) :
    Except Failure Document :=
  (handled .plain chain definition Record.empty).outcome.bind fun _ =>
    Craft.plain.page trim (handled .plain chain definition Record.empty).desk

theorem outcome_documentAll (trim : Bool) (chain : List (Handler (Record Value))) (number : Nat)
    (definitions : List Definition) (desk : Record Value) :
    (documentAll .plain trim chain number definitions desk).outcome =
      definitions.mapM (pageAlone trim chain) := by
  induction definitions generalizing number desk with
  | nil => rfl
  | cons d rest ih =>
    have hfirst : (document .plain trim chain number d desk).outcome = pageAlone trim chain d :=
      outcome_document_eq .plain trim chain number d desk
    rw [documentAll, List.mapM_cons]
    -- What the first definition leaves on the desk does not matter: `ih` holds at any desk.
    cases hd : pageAlone trim chain d with
    | error failure =>
      rw [Work.bind_of_error (hfirst.trans hd)]
      rfl
    | ok page =>
      rw [Work.bind_of_ok page (hfirst.trans hd), bind_pure_comp, Work.outcome_map, ih]
      rfl

theorem outcome_documentAll_singleton {trim : Bool} {chain : List (Handler (Record Value))}
    {definition : Definition} {page : Document} {desk : Record Value} :
    (documentAll .plain trim chain 0 [definition] desk).outcome = .ok [page] ↔
      pageAlone trim chain definition = .ok page := by
  rw [outcome_documentAll, mapM_eq_ok_iff, List.forall₂_cons]
  exact and_iff_left .nil

/--
Documenting a batch is documenting each of its definitions alone. The page of a
definition does not depend on the others, on their order, or on what they have
left behind; a failure is that of the first definition that fails, and no
handler is called after it.
-/
theorem documentAll_pointwise (trim : Bool) (chain : List (Handler (Record Value)))
    (desk : Record Value) :
    let batch := fun definitions => documentAll .plain trim chain 0 definitions desk
    (∀ xs ys, (batch (xs ++ ys)).outcome = (do
      let first ← (batch xs).outcome
      let others ← (batch ys).outcome
      pure (first ++ others))) ∧
    (∀ xs ys failure, (batch xs).outcome = .error failure →
      (batch (xs ++ ys)).outcome = .error failure ∧ (batch (xs ++ ys)).events = (batch xs).events) ∧
    (∀ xs pages, (batch xs).outcome = .ok pages ↔
      List.Forall₂ (fun d page => (batch [d]).outcome = .ok [page]) xs pages) ∧
    (∀ xs pages pairs, (batch xs).outcome = .ok pages → (xs.zip pages).Perm pairs →
      (batch (pairs.map Prod.fst)).outcome = .ok (pairs.map Prod.snd)) ∧
    ∀ xs other, (documentAll .plain trim chain 0 xs other).outcome = (batch xs).outcome := by
  intro batch
  have hbatch (xs : List Definition) : (batch xs).outcome = xs.mapM (pageAlone trim chain) :=
    outcome_documentAll trim chain 0 xs desk
  refine ⟨?append, ?fails, ?alone, ?reordered, ?desks⟩
  case append =>
    intro xs ys
    rw [hbatch, hbatch, hbatch, List.mapM_append]
  case fails =>
    intro xs ys failure h
    have hsame : batch (xs ++ ys) = batch xs := documentAll_append_of_error h ys
    exact ⟨by rw [hsame, h], by rw [hsame]⟩
  case alone =>
    intro xs pages
    rw [hbatch, mapM_eq_ok_iff]
    simp only [batch, outcome_documentAll_singleton]
  case reordered =>
    intro xs pages pairs h hpairs
    rw [hbatch] at h
    rw [hbatch]
    exact mapM_of_perm h hpairs
  case desks =>
    intro xs other
    rw [hbatch, outcome_documentAll]

/-- A handler that accepts texts only: two texts, in either order, and a value that is no text. -/
theorem documentAll_pointwise_texts :
    let chain : List (Handler (Record Value)) := [fun definition record =>
      match definition with
      | .value (.text s) => (record.compose (.text s), .ok ())
      | _ => (record, .error (.misuse .unsuitable))]
    let batch := fun definitions => documentAll .plain true chain 0 definitions Record.empty
    (batch [.value (.text "a"), .value (.text "b")]).outcome =
        .ok [{ composes := some ["a"] }, { composes := some ["b"] }] ∧
      (batch [.value (.text "b"), .value (.text "a")]).outcome =
        .ok [{ composes := some ["b"] }, { composes := some ["a"] }] ∧
      (batch [.value .null]).outcome = .error (.misuse .unsuitable) ∧
      (batch [.value .null, .value (.text "a")]).outcome = .error (.misuse .unsuitable) := by
  intro chain batch
  obtain ⟨-, fails, -, reordered, -⟩ := documentAll_pointwise true chain Record.empty
  have hboth : (batch [.value (.text "a"), .value (.text "b")]).outcome =
      .ok [{ composes := some ["a"] }, { composes := some ["b"] }] := by
    rfl
  have hnull : (batch [.value .null]).outcome = .error (.misuse .unsuitable) := rfl
  refine ⟨hboth, ?_, hnull, (fails _ [.value (.text "a")] _ hnull).1⟩
  exact reordered _ _ [_, _] hboth (List.Perm.swap _ _ [])

end ComponentAtlas.Extraction
