import ComponentAtlas.Proofs.Data.Descent
import ComponentAtlas.Proofs.Scope.Introduction
import ComponentAtlas.Proofs.SourceTree.Numbering
import ComponentAtlas.Scope.Resolve

/-!
# The chase of a name

The orbit of an expression goes on from each name to what the name is bound to.
A chase that notes the names it has looked up and gives up at one it has met
finds the first member of the orbit that is no name: it takes one step for each
member, no name twice, and comes back to a name only where the orbit has no end.
-/

namespace ComponentAtlas.Scope

open SourceTree

/-! ### Orbits -/

/-- The expressions met from `start` on, each bound to the one before it. -/
def orbit (start : Option Cursor) : Nat → Option Cursor
  | 0 => start
  | k + 1 => (orbit start k).bind step

def NameAt (start : Option Cursor) (k : Nat) : Prop :=
  ∃ x, orbit start k = some x ∧ isIdentifier x = true

/-- The orbit comes to its first member that is no name, or is lost there. -/
structure EndsAt (start : Option Cursor) (k : Nat) : Prop where
  names : ∀ j < k, NameAt start j
  last : ¬ NameAt start k

/-- The orbit meets a name again, having met names only. -/
def Cyclic (start : Option Cursor) : Prop :=
  ∃ i j, i < j ∧ (∀ k ≤ j, NameAt start k) ∧ orbit start i = orbit start j

theorem orbit_add (start : Option Cursor) (i m : Nat) :
    orbit start (i + m) = orbit (orbit start i) m := by
  induction m with
  | zero => rfl
  | succ m ih => rw [← Nat.add_assoc, orbit, ih, orbit]

theorem orbit_succ (x : Cursor) (k : Nat) : orbit (some x) (k + 1) = orbit (step x) k := by
  rw [Nat.add_comm, orbit_add]
  rfl

theorem nameAt_zero (x : Cursor) : NameAt (some x) 0 ↔ isIdentifier x = true := by
  constructor
  · rintro ⟨_, h, hi⟩
    obtain rfl := Option.some.inj h
    exact hi
  · exact fun hi => ⟨x, rfl, hi⟩

theorem nameAt_succ (x : Cursor) (k : Nat) : NameAt (some x) (k + 1) ↔ NameAt (step x) k := by
  rw [NameAt, orbit_succ, NameAt]

theorem EndsAt.unique {start : Option Cursor} {k l : Nat} (hk : EndsAt start k)
    (hl : EndsAt start l) : k = l := by
  rcases Nat.lt_trichotomy k l with h | h | h
  · exact absurd (hl.names k h) hk.last
  · exact h
  · exact absurd (hk.names l h) hl.last

theorem EndsAt.succ {x : Cursor} {k : Nat} (hx : isIdentifier x = true) (h : EndsAt (step x) k) :
    EndsAt (some x) (k + 1) where
  names
    | 0, _ => (nameAt_zero x).mpr hx
    | j + 1, hj => (nameAt_succ x j).mpr (h.names j (Nat.lt_of_succ_lt_succ hj))
  last := fun hn => h.last ((nameAt_succ x k).mp hn)

theorem EndsAt.not_cyclic {start : Option Cursor} {k : Nat} (h : EndsAt start k) :
    ¬ Cyclic start := by
  rintro ⟨i, j, hij, hnames, heq⟩
  have hjk : j < k := by
    by_contra hkj
    exact h.last (hnames k (by omega))
  -- From the second meeting on all comes as from the first, and so the end comes sooner.
  have hsooner : orbit start (i + (k - j)) = orbit start k := by
    calc orbit start (i + (k - j)) = orbit (orbit start i) (k - j) := orbit_add ..
      _ = orbit start (j + (k - j)) := by rw [heq, orbit_add]
      _ = orbit start k := by rw [Nat.add_sub_cancel' (by omega)]
  obtain ⟨x, hx, hi⟩ := h.names (i + (k - j)) (by omega)
  exact h.last ⟨x, hsooner ▸ hx, hi⟩

theorem chase_of_not_nameAt (fuel : Nat) {start : Option Cursor} (h : ¬ NameAt start 0) :
    EndsAt start 0 ∧ start.bind (chase fuel) = orbit start 0 := by
  refine ⟨⟨fun _ hj => absurd hj (Nat.not_lt_zero _), h⟩, ?_⟩
  cases start with
  | none => rfl
  | some x => exact chase_of_not_identifier fuel x (Bool.eq_false_iff.mpr (mt (nameAt_zero x).mpr h))

theorem chase_cases (fuel : Nat) (start : Option Cursor) :
    (∃ k ≤ fuel, EndsAt start k ∧ start.bind (chase fuel) = orbit start k) ∨
      ((∀ k ≤ fuel, NameAt start k) ∧ start.bind (chase fuel) = none) := by
  induction fuel generalizing start with
  | zero =>
    by_cases h : NameAt start 0
    · obtain ⟨x, hstart, hx⟩ := h
      obtain rfl : start = some x := hstart
      refine .inr ⟨fun k hk => ?_, by simp [chase, hx]⟩
      rw [Nat.le_zero.mp hk]
      exact (nameAt_zero x).mpr hx
    · exact .inl ⟨0, Nat.le_refl 0, chase_of_not_nameAt 0 h⟩
  | succ fuel ih =>
    by_cases h : NameAt start 0
    · obtain ⟨x, hstart, hx⟩ := h
      obtain rfl : start = some x := hstart
      have hchase : (some x).bind (chase (fuel + 1)) = (step x).bind (chase fuel) := by
        simp [chase, hx]
      rw [hchase]
      rcases ih (step x) with ⟨k, hk, hends, hfound⟩ | ⟨hnames, hlost⟩
      · exact .inl ⟨k + 1, Nat.succ_le_succ hk, hends.succ hx, by rw [hfound, orbit_succ]⟩
      · refine .inr ⟨?_, hlost⟩
        rintro (_ | k) hk
        · exact (nameAt_zero x).mpr hx
        · exact (nameAt_succ x k).mpr (hnames k (Nat.le_of_succ_le_succ hk))
    · exact .inl ⟨0, Nat.zero_le _, chase_of_not_nameAt _ h⟩

/-! ### Orbits stay in their tree -/

theorem within_of_lookup {root : Node} {c v : Cursor} (hc : Cursor.Within root c)
    (h : lookup c = some v) : Cursor.Within root v := by
  obtain ⟨a, ha, statement, hs, hgives⟩ := gives_of_lookup h
  have hin {p q : Cursor} (hq : q ∈ p.contents) (hp : Cursor.Within root p) :
      Cursor.Within root q :=
    hp.child (Cursor.isChild_of_mem_contents hq)
  refine hgives.preserves ?_ ?_ ?_ (hin hs (hc.ancestor ha))
  · exact fun _ _ _ hd hp => hp.child (Cursor.isChild_of_child? hd)
  · exact fun _ _ _ hd hp => hin hd hp
  · exact fun _ _ _ hw hp => hp.child (Cursor.isChild_of_child? hw)

theorem within_of_step {root : Node} {c v : Cursor} (hc : Cursor.Within root c)
    (h : step c = some v) : Cursor.Within root v := by
  obtain ⟨value, hvalue, hv⟩ := Option.bind_eq_some_iff.mp h
  exact (within_of_lookup hc hvalue).bare hv

theorem within_of_orbit {root : Node} {c v : Cursor} (hc : Cursor.Within root c) {k : Nat}
    (h : orbit c.bare k = some v) : Cursor.Within root v := by
  induction k generalizing v with
  | zero => exact hc.bare h
  | succ k ih =>
    obtain ⟨x, hx, hv⟩ := Option.bind_eq_some_iff.mp h
    exact within_of_step (ih hx) hv

theorem isParentheses_of_orbit {c v : Cursor} {k : Nat} (h : orbit c.bare k = some v) :
    isParentheses v.kind = false := by
  cases k with
  | zero => exact Cursor.isParentheses_of_bare h
  | succ k =>
    obtain ⟨x, -, hv⟩ := Option.bind_eq_some_iff.mp h
    obtain ⟨value, -, hbare⟩ := Option.bind_eq_some_iff.mp hv
    exact Cursor.isParentheses_of_bare hbare

/-! ### Chases with a guard -/

section

variable {κ : Type} {key : Cursor → κ}

/--
A chase that notes the key of each name it looks up, and gives up at a name whose key it has
noted: from `start` it looks up so many names and finds this.
-/
inductive Guarded (key : Cursor → κ) : List κ → Option Cursor → Nat → Option Cursor → Prop
  | lost {seen : List κ} : Guarded key seen none 0 none
  | value {seen : List κ} {x : Cursor} : isIdentifier x = false →
      Guarded key seen (some x) 0 (some x)
  | met {seen : List κ} {x : Cursor} : isIdentifier x = true → key x ∈ seen →
      Guarded key seen (some x) 0 none
  | followed {seen : List κ} {x : Cursor} {n : Nat} {found : Option Cursor} :
      isIdentifier x = true → key x ∉ seen → Guarded key (key x :: seen) (step x) n found →
      Guarded key seen (some x) (n + 1) found

theorem Guarded.unique {seen : List κ} {start found found' : Option Cursor} {n m : Nat}
    (h : Guarded key seen start n found) (h' : Guarded key seen start m found') :
    m = n ∧ found' = found := by
  induction h generalizing m with
  | lost => cases h'; exact ⟨rfl, rfl⟩
  | value hx =>
    cases h' with
    | value _ => exact ⟨rfl, rfl⟩
    | met hx' _ => rw [hx] at hx'; cases hx'
    | followed hx' _ _ => rw [hx] at hx'; cases hx'
  | met hx hseen =>
    cases h' with
    | value hx' => rw [hx] at hx'; cases hx'
    | met _ _ => exact ⟨rfl, rfl⟩
    | followed _ hfresh _ => exact absurd hseen hfresh
  | followed hx hfresh _ ih =>
    cases h' with
    | value hx' => rw [hx] at hx'; cases hx'
    | met _ hseen => exact absurd hseen hfresh
    | followed _ _ hrest =>
      obtain ⟨rfl, rfl⟩ := ih hrest
      exact ⟨rfl, rfl⟩

open Classical in
noncomputable def isUnseen (key : Cursor → κ) (seen : List κ) (p : Cursor) : Bool :=
  isIdentifier p && decide (key p ∉ seen)

/-- How many names of the tree have a key that is not noted. -/
noncomputable def unseen (root : Node) (key : Cursor → κ) (seen : List κ) : Nat :=
  (Cursor.placesFrom [] root).countP (isUnseen key seen)

theorem unseen_eq (root : Node) (seen : List κ) :
    unseen root key seen =
      Descent.unnoted (Cursor.placesFrom [] root) isIdentifier key seen := by
  refine List.countP_congr fun p _ => ?_
  rw [Descent.isUnnoted_iff]
  simp only [isUnseen, Bool.and_eq_true, decide_eq_true_eq]

theorem unseen_cons_lt {root : Node} {x : Cursor} {seen : List κ} (hx : Cursor.Within root x)
    (hi : isIdentifier x = true) (hfresh : key x ∉ seen) :
    unseen root key (key x :: seen) < unseen root key seen := by
  rw [unseen_eq, unseen_eq]
  exact Descent.unnoted_cons_lt hx.mem_places hi hfresh

theorem exists_guarded (key : Cursor → κ) {root : Node} (seen : List κ) (start : Option Cursor)
    (hstart : ∀ x, start = some x → Cursor.Within root x) :
    ∃ n ≤ unseen root key seen, ∃ found, Guarded key seen start n found := by
  -- Each name that is looked up leaves one less that is not noted.
  induction hu : unseen root key seen using Nat.strongRecOn generalizing seen start with
  | _ u ih =>
    cases start with
    | none => exact ⟨0, Nat.zero_le _, _, .lost⟩
    | some x =>
      have hx := hstart x rfl
      by_cases hi : isIdentifier x = true
      · by_cases hseen : key x ∈ seen
        · exact ⟨0, Nat.zero_le _, _, .met hi hseen⟩
        · have hlt := unseen_cons_lt hx hi hseen
          obtain ⟨n, hn, found, h⟩ := ih _ (hu ▸ hlt) (key x :: seen) (step x)
            (fun _ hv => within_of_step hx hv) rfl
          exact ⟨n + 1, by omega, found, .followed hi hseen h⟩
      · exact ⟨0, Nat.zero_le _, _, .value (Bool.eq_false_iff.mpr hi)⟩

theorem Guarded.finds {root : Node} {c : Cursor} (hc : Cursor.Within root c)
    (hkey : ∀ x y, Cursor.Within root x → Cursor.Within root y → key x = key y → x = y)
    {seen : List κ} {start found : Option Cursor} {n i : Nat} (h : Guarded key seen start n found)
    (hstart : start = orbit c.bare i) (hnames : ∀ j < i, NameAt c.bare j)
    (hseen : ∀ a ∈ seen, ∃ j < i, ∃ x, orbit c.bare j = some x ∧ key x = a) :
    (EndsAt c.bare (i + n) ∧ found = orbit c.bare (i + n)) ∨ (Cyclic c.bare ∧ found = none) := by
  -- The chase is at member `i` of the orbit and has noted the members before it.
  induction h generalizing i with
  | lost => exact .inl ⟨⟨hnames, fun ⟨x, hx, _⟩ => nomatch hstart.trans hx⟩, hstart⟩
  | value hx =>
    refine .inl ⟨⟨hnames, fun ⟨y, hy, hi⟩ => ?_⟩, hstart⟩
    obtain rfl := Option.some.inj (hstart.trans hy)
    rw [hx] at hi
    cases hi
  | @met seen x hx hmet =>
    obtain ⟨j, hj, y, hy, hkeys⟩ := hseen _ hmet
    obtain rfl := hkey _ _ (within_of_orbit hc hy) (within_of_orbit hc hstart.symm) hkeys
    refine .inr ⟨⟨j, i, hj, fun k hk => ?_, hy.trans hstart⟩, rfl⟩
    rcases Nat.lt_or_eq_of_le hk with hk | rfl
    · exact hnames k hk
    · exact ⟨_, hstart.symm, hx⟩
  | @followed seen x n found hx hfresh _ ih =>
    have hnext : step x = orbit c.bare (i + 1) := by rw [orbit, ← hstart, Option.bind_some]
    rw [Nat.add_comm n 1, ← Nat.add_assoc]
    refine ih hnext (fun j hj => ?_) fun a ha => ?_
    · rcases Nat.lt_succ_iff_lt_or_eq.mp hj with hj | rfl
      · exact hnames j hj
      · exact ⟨x, hstart.symm, hx⟩
    · rcases List.mem_cons.mp ha with rfl | ha
      · exact ⟨i, Nat.lt_succ_self i, x, hstart.symm, rfl⟩
      · obtain ⟨j, hj, y, hy, hkeys⟩ := hseen a ha
        exact ⟨j, Nat.lt_succ_of_lt hj, y, hy, hkeys⟩

theorem unseen_nil (root : Node) (key : Cursor → κ) :
    unseen root key [] = root.count "identifier" := by
  rw [← Cursor.countP_places, unseen_eq]
  exact Descent.unnoted_nil _

theorem guarded_resolve (key : Cursor → κ) {root : Node} {c : Cursor} (hc : Cursor.Within root c)
    (hkey : ∀ x y, Cursor.Within root x → Cursor.Within root y → key x = key y → x = y) :
    ∃ n ≤ root.count "identifier", Guarded key [] c.bare n (resolve c) ∧
      ((EndsAt c.bare n ∧ resolve c = orbit c.bare n) ∨ (Cyclic c.bare ∧ resolve c = none)) := by
  obtain ⟨n, hn, found, hg⟩ := exists_guarded key [] c.bare fun _ hx => hc.bare hx
  rw [unseen_nil] at hn
  have hfinds := hg.finds hc hkey (i := 0) rfl (fun _ hj => nomatch hj) (fun _ ha => nomatch ha)
  rw [Nat.zero_add] at hfinds
  have hfound : resolve c = found := by
    rw [resolve, hc.root_eq]
    rcases chase_cases (root.count "identifier") c.bare with ⟨k, hk, hends, h⟩ | ⟨hnames, h⟩
    · rcases hfinds with ⟨hends', rfl⟩ | ⟨hcyclic, -⟩
      · rw [h, hends.unique hends']
      · exact absurd hcyclic hends.not_cyclic
    · rcases hfinds with ⟨hends', -⟩ | ⟨-, rfl⟩
      · exact absurd (hnames n hn) hends'.last
      · exact h
  rw [hfound]
  exact ⟨n, hn, hg, hfinds⟩

end

theorem within_of_resolve {root : Node} {c v : Cursor} (hc : Cursor.Within root c)
    (h : resolve c = some v) : Cursor.Within root v :=
  resolve_preserves (fun _ _ hv hw => within_of_lookup hw hv) (fun _ _ hv hw => hw.bare hv) hc h

/-- A value is the end of the orbit, and the guard gives up only where there is none. -/
theorem resolve_follows_orbit {root : Node} {c : Cursor} (hc : Cursor.Within root c) :
    (∀ v, resolve c = some v ↔ ∃ k, EndsAt c.bare k ∧ orbit c.bare k = some v) ∧
      (resolve c = none ↔ (∃ k, EndsAt c.bare k ∧ orbit c.bare k = none) ∨ Cyclic c.bare) ∧
      (root.IsNumbered → ∃ n ≤ root.count "identifier", ∀ m found,
        Guarded Cursor.id [] c.bare m found ↔ m = n ∧ found = resolve c) ∧
      (∀ v, resolve c = some v → isIdentifier v = false ∧ isParentheses v.kind = false) ∧
      (resolve c).bind resolve = resolve c := by
  obtain ⟨n, -, -, hends⟩ := guarded_resolve (fun x => x) hc fun _ _ _ _ h => h
  have hsome (v : Cursor) :
      resolve c = some v ↔ ∃ k, EndsAt c.bare k ∧ orbit c.bare k = some v := by
    rcases hends with ⟨hn, hfound⟩ | ⟨hcyclic, hfound⟩
    · constructor
      · exact fun h => ⟨n, hn, hfound ▸ h⟩
      · rintro ⟨k, hk, hv⟩
        rw [hfound, hn.unique hk, hv]
    · constructor
      · intro h
        rw [hfound] at h
        cases h
      · rintro ⟨k, hk, -⟩
        exact absurd hcyclic hk.not_cyclic
  have hvalue (v : Cursor) (h : resolve c = some v) :
      isIdentifier v = false ∧ isParentheses v.kind = false := by
    obtain ⟨k, hk, hv⟩ := (hsome v).mp h
    exact ⟨Bool.eq_false_iff.mpr fun hi => hk.last ⟨v, hv, hi⟩, isParentheses_of_orbit hv⟩
  refine ⟨hsome, ?_, ?_, hvalue, ?_⟩
  · rcases hends with ⟨hn, hfound⟩ | ⟨hcyclic, hfound⟩
    · constructor
      · exact fun h => .inl ⟨n, hn, hfound ▸ h⟩
      · rintro (⟨k, hk, hv⟩ | hcyclic)
        · rw [hfound, hn.unique hk, hv]
        · exact absurd hcyclic hn.not_cyclic
    · exact ⟨fun _ => .inr hcyclic, fun _ => hfound⟩
  · intro hroot
    obtain ⟨n, hn, hg, -⟩ :=
      guarded_resolve Cursor.id hc fun _ _ => Cursor.eq_of_id_eq hroot
    refine ⟨n, hn, fun m found => ⟨hg.unique, ?_⟩⟩
    rintro ⟨rfl, rfl⟩
    exact hg
  · cases hv : resolve c with
    | none => rfl
    | some v =>
      obtain ⟨hi, hp⟩ := hvalue v hv
      rw [Option.bind_some, resolve, Cursor.bare_of_not_parentheses v hp, Option.bind_some,
        chase_of_not_identifier _ v hi]

/-- The rows of a declaration of two variables, each with the other as its value. -/
def circleRows : List Row :=
  let inner (parent : Option Nat) (kind : String) (start stop : Nat) : Row :=
    ⟨parent, kind, start, stop, none, true, false⟩
  let name (parent start : Nat) (field : String) : Row :=
    ⟨some parent, "identifier", start, start + 1, some field, true, false⟩
  [inner none "program" 0 16, inner (some 0) "variable_declaration" 0 16,
    inner (some 1) "variable_declarator" 4 9, name 2 4 "name", name 2 8 "value",
    inner (some 1) "variable_declarator" 11 16, name 5 11 "name", name 5 15 "value"]

def circle : Node := (Node.ofRows? "var a = b, b = a" circleRows).get rfl

def circleUse : Cursor := (Cursor.ofRoot circle).preorder.get ⟨7, by decide⟩

/-- Two variables that are each other's value have none, and the guard ends the chase. -/
theorem resolve_follows_orbit_circle :
    Cursor.Within circle circleUse ∧ circle.IsNumbered ∧ Cyclic circleUse.bare ∧
      resolve circleUse = none ∧ ∃ n ≤ 4, ∀ m found,
        Guarded Cursor.id [] circleUse.bare m found ↔ m = n ∧ found = none := by
  have hc : Cursor.Within circle circleUse :=
    (Cursor.mem_preorder.mp (List.get_mem _ _)).contains
  have hroot : circle.IsNumbered := Node.isNumbered_of_ofRows? (Option.some_get _).symm
  have hcyclic : Cyclic circleUse.bare := by
    refine ⟨0, 2, Nat.zero_lt_two, fun k hk => ?_, rfl⟩
    obtain rfl | rfl | rfl : k = 0 ∨ k = 1 ∨ k = 2 := by omega
    · exact ⟨_, rfl, rfl⟩
    · exact ⟨_, rfl, rfl⟩
    · exact ⟨_, rfl, rfl⟩
  obtain ⟨-, hnone, hguard, -⟩ := resolve_follows_orbit hc
  have hlost : resolve circleUse = none := hnone.mpr (.inr hcyclic)
  obtain ⟨n, hn, h⟩ := hguard hroot
  rw [hlost] at h
  exact ⟨hc, hroot, hcyclic, hlost, n, hn, h⟩

end ComponentAtlas.Scope
