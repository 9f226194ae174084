import Mathlib.Data.List.Basic

/-!
# Lists without repetitions

What remains of a list when of all items that count as the same only the first
is kept. Two items count as the same by a test `r` that need not be equality.
-/

namespace ComponentAtlas.Distinct

variable {α : Type} {r : α → α → Bool}

theorem keepFirst_induction {P : List α → Prop} (nil : P [])
    (cons : ∀ x rest, P (rest.filter fun b => r b x = false) → P (x :: rest)) :
    ∀ l, P l
  | [] => nil
  | x :: rest => cons x rest (keepFirst_induction nil cons _)
termination_by l => l.length
decreasing_by exact Nat.lt_succ_of_le (List.length_filter_le _ _)

theorem eraseDupsBy_sublist (l : List α) : (l.eraseDupsBy r).Sublist l := by
  induction l using keepFirst_induction (r := r) with
  | nil => exact .refl _
  | cons x rest ih =>
    rw [List.eraseDupsBy_cons]
    exact (ih.trans List.filter_sublist).cons_cons x

theorem mem_of_mem_eraseDupsBy {l : List α} {a : α} (h : a ∈ l.eraseDupsBy r) : a ∈ l :=
  (eraseDupsBy_sublist l).subset h

/-- Each item of the list is kept, or counts as the same as one that is. -/
theorem mem_or_exists_mem_eraseDupsBy {l : List α} {a : α} (h : a ∈ l) :
    a ∈ l.eraseDupsBy r ∨ ∃ b ∈ l.eraseDupsBy r, r a b = true := by
  induction l using keepFirst_induction (r := r) with
  | nil => simp at h
  | cons x rest ih =>
    rw [List.eraseDupsBy_cons]
    by_cases hx : r a x = true
    · exact .inr ⟨x, List.mem_cons_self .., hx⟩
    · rcases List.mem_cons.mp h with rfl | hrest
      · exact .inl (List.mem_cons_self ..)
      · have hmem : a ∈ rest.filter fun b => r b x = false := by
          rw [List.mem_filter]
          exact ⟨hrest, by simpa using hx⟩
        rcases ih hmem with hkept | ⟨b, hb, hab⟩
        · exact .inl (List.mem_cons_of_mem _ hkept)
        · exact .inr ⟨b, List.mem_cons_of_mem _ hb, hab⟩

theorem exists_mem_eraseDupsBy {l : List α} (hr : ∀ a, r a a = true) {a : α} (h : a ∈ l) :
    ∃ b ∈ l.eraseDupsBy r, r a b = true := by
  rcases mem_or_exists_mem_eraseDupsBy (r := r) h with hkept | hsame
  · exact ⟨a, hkept, hr a⟩
  · exact hsame

theorem pairwise_eraseDupsBy (l : List α) :
    (l.eraseDupsBy r).Pairwise fun a b => r b a = false := by
  induction l using keepFirst_induction (r := r) with
  | nil => simp
  | cons x rest ih =>
    rw [List.eraseDupsBy_cons, List.pairwise_cons]
    refine ⟨?_, ih⟩
    intro b hb
    have hm := List.of_mem_filter (mem_of_mem_eraseDupsBy hb)
    simpa using hm

theorem eraseDupsBy_eq_self {l : List α} (h : l.Pairwise fun a b => r b a = false) :
    l.eraseDupsBy r = l := by
  induction l with
  | nil => rfl
  | cons x rest ih =>
    rw [List.pairwise_cons] at h
    have hf : (rest.filter fun b => r b x = false) = rest := by
      rw [List.filter_eq_self]
      intro b hb
      simpa using h.1 b hb
    rw [List.eraseDupsBy_cons, hf, ih h.2]

theorem filter_eraseDups [BEq α] [LawfulBEq α] (l : List α) (p : α → Bool) :
    l.eraseDups.filter p = (l.filter p).eraseDups := by
  induction l using keepFirst_induction (r := fun a b : α => a == b) with
  | nil => rfl
  | cons x rest ih =>
    simp only [Bool.decide_eq_false] at ih
    rw [List.eraseDups_cons, List.filter_cons, List.filter_cons, ih, List.filter_comm]
    split
    · rw [List.eraseDups_cons]
    · next hx =>
      -- What equals the first item is left out with it.
      have hkept : (rest.filter p).filter (fun b => !b == x) = rest.filter p := by
        refine List.filter_eq_self.mpr fun b hb => ?_
        have hne : ¬ b = x := fun hbx => hx (hbx ▸ List.of_mem_filter hb)
        simpa using hne
      rw [hkept]

/-- Items that count as the same where they come from count as the same where they are put. -/
theorem eraseDupsBy_map {β : Type} {q : β → β → Bool} {f : α → β} {l : List α}
    (h : ∀ a ∈ l, ∀ b ∈ l, q (f a) (f b) = r a b) :
    (l.map f).eraseDupsBy q = (l.eraseDupsBy r).map f := by
  induction l using keepFirst_induction (r := r) with
  | nil => rfl
  | cons x rest ih =>
    have hkept : ((rest.map f).filter fun b => q b (f x) = false) =
        (rest.filter fun b => r b x = false).map f := by
      rw [List.filter_map]
      refine congrArg (List.map f) (List.filter_congr fun b hb => ?_)
      rw [Function.comp_apply, h b (List.mem_cons_of_mem _ hb) x (List.mem_cons_self ..)]
    have hrest : ∀ a ∈ rest.filter (fun b => r b x = false),
        ∀ b ∈ rest.filter (fun b => r b x = false), q (f a) (f b) = r a b := fun a ha b hb =>
      h a (List.mem_cons_of_mem _ (List.mem_of_mem_filter ha)) b
        (List.mem_cons_of_mem _ (List.mem_of_mem_filter hb))
    rw [List.map_cons, List.eraseDupsBy_cons, hkept, ih hrest, List.eraseDupsBy_cons, List.map_cons]

/-! ### First places -/

section

variable {β κ : Type} [BEq κ] [LawfulBEq κ] (key : α → κ)

/-- Leaving items out does not change which of two kinds of item comes first. -/
theorem findIdx_lt_of_filterMap {f : β → Option α} {p q : α → Bool} {l : List β}
    (h : (l.filterMap f).findIdx p < (l.filterMap f).findIdx q) :
    l.findIdx (fun b => (f b).any p) < l.findIdx fun b => (f b).any q := by
  induction l with
  | nil => exact absurd h (Nat.lt_irrefl 0)
  | cons b rest ih =>
    simp only [List.findIdx_cons]
    cases hf : f b with
    | none =>
      rw [List.filterMap_cons_none hf] at h
      have hrest := ih h
      simpa using hrest
    | some a =>
      rw [List.filterMap_cons_some hf, List.findIdx_cons, List.findIdx_cons] at h
      cases hp : p a with
      | true =>
        cases hq : q a with
        | true => simp [hp, hq] at h
        | false => simp [hp, hq]
      | false =>
        cases hq : q a with
        | true => simp [hq] at h
        | false =>
          simp only [hp, hq, cond_false, Nat.add_lt_add_iff_right] at h
          have hrest := ih h
          simpa [hp, hq] using hrest

theorem findIdx_lt_of_filter {keep p q : α → Bool} {l : List α}
    (hp : ∀ a, p a = true → keep a = true) (hq : ∀ a, q a = true → keep a = true)
    (h : (l.filter keep).findIdx p < (l.filter keep).findIdx q) : l.findIdx p < l.findIdx q := by
  have hguard (s : α → Bool) (hs : ∀ a, s a = true → keep a = true) :
      (fun a => (Option.guard keep a).any s) = s := by
    funext a
    cases hk : keep a with
    | true => simp [Option.guard, hk]
    | false =>
      have hsa : s a = false := by
        by_contra hne
        have hkept := hs a (by simpa using hne)
        rw [hk] at hkept
        cases hkept
      simp [Option.guard, hk, hsa]
  rw [← List.filterMap_eq_filter] at h
  have hlt := findIdx_lt_of_filterMap h
  rwa [hguard p hp, hguard q hq] at hlt

/-- What is kept stands in the order of the places where it comes first. -/
theorem pairwise_findIdx (l : List α) :
    (l.eraseDupsBy fun a b => key a == key b).Pairwise fun a b =>
      l.findIdx (key · == key a) < l.findIdx (key · == key b) := by
  induction l using keepFirst_induction (r := fun a b => key a == key b) with
  | nil => exact .nil
  | cons x rest ih =>
    rw [List.eraseDupsBy_cons, List.pairwise_cons]
    have hlater : ∀ b ∈ (rest.filter fun b => (key b == key x) = false).eraseDupsBy
        (fun a b => key a == key b), ¬ key b = key x := by
      intro b hb
      have hbx := List.of_mem_filter (mem_of_mem_eraseDupsBy hb)
      simpa using hbx
    constructor
    · intro b hb
      have hxb : (key x == key b) = false := by
        simpa using fun he => hlater b hb he.symm
      simp [List.findIdx_cons, hxb]
    · refine ih.imp_of_mem ?_
      intro a b ha hb hab
      have hkeep (c : α) (hc : ¬ key c = key x) : ∀ d, (key d == key c) = true →
          decide ((key d == key x) = false) = true := by
        intro d hd
        rw [beq_iff_eq] at hd
        simpa [hd] using hc
      have hlt := findIdx_lt_of_filter (hkeep a (hlater a ha)) (hkeep b (hlater b hb)) hab
      have hx (c : α) (hc : ¬ key c = key x) : (key x == key c) = false := by
        simpa using fun he => hc he.symm
      simp only [List.findIdx_cons, hx a (hlater a ha), hx b (hlater b hb), cond_false]
      omega

theorem eraseDupsBy_append_cons {before after : List α} {x y : α} (hy : y ∈ before)
    (hxy : key x = key y) :
    (before ++ x :: after).eraseDupsBy (fun a b => key a == key b) =
      (before ++ after).eraseDupsBy fun a b => key a == key b := by
  generalize hlen : before.length = n
  induction n using Nat.strongRecOn generalizing before after with
  | ind n ih =>
    cases before with
    | nil => cases hy
    | cons b rest =>
      simp only [List.cons_append, List.eraseDupsBy_cons, List.filter_append, List.cons.injEq,
        true_and]
      by_cases hb : key x = key b
      · rw [List.filter_cons_of_neg (by simpa using hb)]
      · rw [List.filter_cons_of_pos (by simpa using hb)]
        have hrest : y ∈ rest.filter fun c => (key c == key b) = false := by
          have hyb : ¬ key y = key b := by rwa [← hxy]
          rcases List.mem_cons.mp hy with rfl | hy
          · exact absurd rfl hyb
          · exact List.mem_filter.mpr ⟨hy, by simpa using hyb⟩
        refine ih _ ?_ hrest rfl
        have hle := List.length_filter_le (fun c => decide ((key c == key b) = false)) rest
        simp only [List.length_cons] at hlen
        omega

end

end ComponentAtlas.Distinct
