import Mathlib.Logic.Relation

/-!
# Steps that never come back

Where no item among finitely many leads back to itself, steps from item to item
come to an end. A recursion along such steps that is given a bound on its depth
answers the same for every bound from the number of the items on. Where steps may
come back, a guard that notes the key of each item it comes by has one less to
note each time. And whether or not they come back, what a recursion does not
answer within as many steps as there are items it does not answer at all.
-/

namespace ComponentAtlas.Descent

open Relation

variable {α β : Type}

theorem countP_lt_countP {p q : α → Bool} {l : List α} (hle : ∀ a, p a = true → q a = true) {a : α}
    (ha : a ∈ l) (hp : ¬ p a = true) (hq : q a = true) : l.countP p < l.countP q := by
  obtain ⟨before, after, rfl⟩ := List.append_of_mem ha
  have hbefore : before.countP p ≤ before.countP q := List.countP_mono_left fun b _ => hle b
  have hafter : after.countP p ≤ after.countP q := List.countP_mono_left fun b _ => hle b
  simp only [List.countP_append, List.countP_cons_of_neg hp, List.countP_cons_of_pos hq]
  omega

/-! ### Items that are not noted -/

section

variable {κ : Type} {p : α → Bool} {key : α → κ}

noncomputable def isUnnoted (p : α → Bool) (key : α → κ) (noted : List κ) (a : α) : Bool :=
  @decide (p a = true ∧ key a ∉ noted) (Classical.propDecidable _)

theorem isUnnoted_iff {noted : List κ} {a : α} :
    isUnnoted p key noted a = true ↔ p a = true ∧ key a ∉ noted := by
  simp only [isUnnoted, decide_eq_true_eq]

/-- How many of the items that pass the test have a key that is not noted. -/
noncomputable def unnoted (items : List α) (p : α → Bool) (key : α → κ) (noted : List κ) : Nat :=
  items.countP (isUnnoted p key noted)

theorem unnoted_nil (items : List α) : unnoted items p key [] = items.countP p := by
  refine List.countP_congr fun a _ => ?_
  rw [isUnnoted_iff]
  exact ⟨fun h => h.1, fun h => ⟨h, List.not_mem_nil⟩⟩

theorem unnoted_cons_lt {items : List α} {a : α} {noted : List κ} (ha : a ∈ items)
    (hp : p a = true) (hfresh : key a ∉ noted) :
    unnoted items p key (key a :: noted) < unnoted items p key noted := by
  refine countP_lt_countP (fun b hb => ?_) ha (fun h => ?_) (isUnnoted_iff.mpr ⟨hp, hfresh⟩)
  · obtain ⟨hpb, hb⟩ := isUnnoted_iff.mp hb
    exact isUnnoted_iff.mpr ⟨hpb, fun hm => hb (List.mem_cons_of_mem _ hm)⟩
  · exact (isUnnoted_iff.mp h).2 (List.mem_cons_self ..)

end

/-! ### Steps without a way back -/

open Classical in
noncomputable def leads (R : α → α → Prop) (a b : α) : Bool := decide (ReflTransGen R a b)

theorem leads_iff {R : α → α → Prop} {a b : α} : leads R a b = true ↔ ReflTransGen R a b := by
  simp only [leads, decide_eq_true_eq]

/-- How many of the items the steps from `a` lead to, itself included. -/
noncomputable def reach (R : α → α → Prop) (items : List α) (a : α) : Nat :=
  items.countP (leads R a)

variable {R : α → α → Prop} {items : List α} {a b : α}

theorem reach_pos (ha : a ∈ items) : 0 < reach R items a :=
  List.countP_pos_iff.mpr ⟨a, ha, leads_iff.mpr .refl⟩

theorem reach_lt_of_transGen (ha : a ∈ items) (hsteps : TransGen R a b)
    (hacyclic : ¬ TransGen R a a) : reach R items b < reach R items a := by
  refine countP_lt_countP (fun c hc => ?_) ha ?_ (leads_iff.mpr .refl)
  · exact leads_iff.mpr (hsteps.to_reflTransGen.trans (leads_iff.mp hc))
  · exact fun hback => hacyclic (hsteps.trans_left (leads_iff.mp hback))

theorem reach_lt (ha : a ∈ items) (hstep : R a b) (hacyclic : ¬ TransGen R a a) :
    reach R items b < reach R items a :=
  reach_lt_of_transGen ha (.single hstep) hacyclic

variable {S : α → Prop} {f : Nat → α → β}

theorem eq_of_reach_le (hitems : ∀ a, S a → a ∈ items) (hclosed : ∀ a b, R a b → S a → S b)
    (hacyclic : ∀ a, S a → ¬ TransGen R a a)
    (hstep : ∀ n m a, (∀ b, R a b → f n b = f m b) → f (n + 1) a = f (m + 1) a) (ha : S a)
    {n m : Nat} (hn : reach R items a ≤ n) (hm : reach R items a ≤ m) : f n a = f m a := by
  have hpos := reach_pos (R := R) (hitems a ha)
  -- Each step leaves an item behind that is not reached again, so that both bounds keep up.
  induction n generalizing a m with
  | zero => omega
  | succ n ih =>
    cases m with
    | zero => omega
    | succ m =>
      refine hstep n m a fun b hb => ?_
      have hlt := reach_lt (hitems a ha) hb (hacyclic a ha)
      have hin := hclosed a b hb ha
      exact ih hin (by omega) (by omega) (reach_pos (hitems b hin))

/-- The bound on the depth does not matter when it is at least the number of the items. -/
theorem eq_of_length_le (hitems : ∀ a, S a → a ∈ items) (hclosed : ∀ a b, R a b → S a → S b)
    (hacyclic : ∀ a, S a → ¬ TransGen R a a)
    (hstep : ∀ n m a, (∀ b, R a b → f n b = f m b) → f (n + 1) a = f (m + 1) a) (ha : S a)
    {n m : Nat} (hn : items.length ≤ n) (hm : items.length ≤ m) : f n a = f m a := by
  have hle : reach R items a ≤ items.length := List.countP_le_length
  exact eq_of_reach_le hitems hclosed hacyclic hstep ha (Nat.le_trans hle hn) (Nat.le_trans hle hm)

/-! ### Answers that come with more steps -/

section

variable {ends : Nat → α → Bool} (hmono : ∀ n a, ends n a = true → ends (n + 1) a = true)
  (hstep : ∀ n, (∀ a ∈ items, ends (n + 1) a = true → ends n a = true) →
    ∀ a ∈ items, ends (n + 2) a = true → ends (n + 1) a = true)

include hmono

theorem countP_ends_lt {n : Nat} (h : ¬ ∀ a ∈ items, ends (n + 1) a = true → ends n a = true) :
    items.countP (ends n) < items.countP (ends (n + 1)) := by
  simp only [Classical.not_forall] at h
  obtain ⟨a, ha, hlater, hnow⟩ := h
  exact countP_lt_countP (hmono n) ha hnow hlater

include hstep

/-- As long as one more step brings an answer, each step before has brought one. -/
theorem forall_ends_or_lt_countP (n : Nat) :
    (∀ a ∈ items, ends (n + 1) a = true → ends n a = true) ∨
      n < items.countP (ends (n + 1)) := by
  induction n with
  | zero =>
    by_cases h : ∀ a ∈ items, ends 1 a = true → ends 0 a = true
    · exact .inl h
    · exact .inr (Nat.zero_lt_of_lt (countP_ends_lt hmono h))
  | succ n ih =>
    by_cases h : ∀ a ∈ items, ends (n + 2) a = true → ends (n + 1) a = true
    · exact .inl h
    · have hlt := countP_ends_lt hmono h
      have hle := ih.resolve_left fun hall => h (hstep n hall)
      exact .inr (by omega)

/-- What is answered at all is answered within as many steps as there are items. -/
theorem ends_length {n : Nat} (ha : a ∈ items) (h : ends n a = true) :
    ends items.length a = true := by
  have hback (m : Nat) (hm : items.length ≤ m) :
      ∀ a ∈ items, ends (m + 1) a = true → ends m a = true := by
    refine (forall_ends_or_lt_countP hmono hstep m).resolve_right fun hlt => ?_
    have hle : items.countP (ends (m + 1)) ≤ items.length := List.countP_le_length
    omega
  have hmore (k : Nat) : ends (n + k) a = true := by
    induction k with
    | zero => exact h
    | succ k ih => exact hmono _ a ih
  have hless (k : Nat) (h : ends (items.length + k) a = true) :
      ends items.length a = true := by
    induction k with
    | zero => exact h
    | succ k ih => exact ih (hback _ (Nat.le_add_right _ _) a ha h)
  exact hless n (Nat.add_comm n _ ▸ hmore items.length)

end

end ComponentAtlas.Descent
