import ComponentAtlas.Component.Function
import ComponentAtlas.Proofs.SourceTree.Places
import ComponentAtlas.Scope.Binding
import ComponentAtlas.SourceTree.Table

/-!
# Own returns

What a function with a block yields is read off the return statements in the
block, those of inner functions and classes left out. The search for them does
not go below the functions that may be components themselves; but generators and
methods are functions too, and it goes on into these. So a function counts as a
component by its own return statements, and also by those of the generators and
of the methods of object literals in it.
-/

namespace ComponentAtlas.Component

open Relation SourceTree

/-- The expression is markup or may evaluate to it. -/
inductive IsMarkup : Cursor → Prop
  | element {e : Cursor} : e.kind ∈ markupKinds → IsMarkup e
  | parentheses {e inner : Cursor} : e.kind = "parenthesized_expression" →
      e.content? = some inner → IsMarkup inner → IsMarkup e
  | consequence {e branch : Cursor} : e.kind = "ternary_expression" →
      e.child? "consequence" = some branch → IsMarkup branch → IsMarkup e
  | alternative {e branch : Cursor} : e.kind = "ternary_expression" →
      e.child? "alternative" = some branch → IsMarkup branch → IsMarkup e
  | right {e operand : Cursor} : e.kind = "binary_expression" →
      e.child? "right" = some operand → IsMarkup operand → IsMarkup e

/-- A return statement whose expression is markup. -/
structure ReturnsMarkup (r : Cursor) : Prop where
  kind : r.kind = "return_statement"
  markup : ∃ e, r.content? = some e ∧ IsMarkup e

/-- Functions of all kinds, and classes. -/
def ownerKinds : List String := Scope.functionKinds ++ classKinds

/-- Functions that the search for return statements goes into. -/
def enteredKinds : List String :=
  ["generator_function_declaration", "generator_function", "method_definition"]

/-- Places that the search for return statements does not go below. -/
def stopKinds : List String := "return_statement" :: (functionKinds ++ classKinds)

/-- The return statements of `m` count for `f`: nothing between them stops the search. -/
def CountsFor (m f : Cursor) : Prop :=
  m = f ∨ m.kind ∈ enteredKinds ∧ m.enclosing? stopKinds = some f

/-- Contents lead from the place to `d`. -/
def Holds (c d : Cursor) : Prop := ReflTransGen (fun p q => q ∈ p.contents) c d

/-- Return statements stand where a parser puts them. -/
structure HasPlainReturns (body : Cursor) : Prop where
  held : ∀ r, body.Contains r → r.kind = "return_statement" → Holds body r
  /-- One that lies in another belongs to a function in that one. -/
  apart : ∀ r s, body.Contains r → r.kind = "return_statement" → s ∈ r.ancestors →
    s.kind = "return_statement" → ∃ a ∈ r.ancestors, s ∈ a.ancestors ∧ a.kind ∈ ownerKinds

theorem Holds.contains {c d : Cursor} (h : Holds c d) : c.Contains d :=
  ReflTransGen.mono (fun _ _ hc => Cursor.isChild_of_mem_contents hc) c d h

/-! ### Markup -/

theorem contentYieldsMarkup_iff (c : Cursor) :
    contentYieldsMarkup c.node.children = true ↔
      ∃ e, c.content? = some e ∧ yieldsMarkup e.node = true := by
  rw [contentYieldsMarkup_eq, Cursor.content?_eq, ← Option.any_eq_true, Option.any_map]
  rfl

theorem fieldYieldsMarkup_iff (c : Cursor) (name : String) :
    fieldYieldsMarkup name c.node.children = true ↔
      ∃ e, c.child? name = some e ∧ yieldsMarkup e.node = true := by
  rw [fieldYieldsMarkup_eq, Cursor.child?_eq, ← Option.any_eq_true, Option.any_map]
  rfl

theorem yieldsMarkup_cases (c : Cursor) :
    yieldsMarkup c.node = true ↔
      c.kind ∈ markupKinds ∨
      (c.kind = "parenthesized_expression" ∧
        ∃ e, c.content? = some e ∧ yieldsMarkup e.node = true) ∨
      (c.kind = "ternary_expression" ∧
        ((∃ e, c.child? "consequence" = some e ∧ yieldsMarkup e.node = true) ∨
          ∃ e, c.child? "alternative" = some e ∧ yieldsMarkup e.node = true)) ∨
      (c.kind = "binary_expression" ∧
        ∃ e, c.child? "right" = some e ∧ yieldsMarkup e.node = true) := by
  rw [← contentYieldsMarkup_iff, ← fieldYieldsMarkup_iff, ← fieldYieldsMarkup_iff,
    ← fieldYieldsMarkup_iff]
  obtain ⟨⟨label, children⟩, above⟩ := c
  have hkind : Cursor.kind ⟨.mk label children, above⟩ = label.kind := rfl
  rw [yieldsMarkup, hkind]
  by_cases hparens : label.kind = "parenthesized_expression"
  · simp [isParentheses, markupKinds, hparens, Node.children]
  by_cases helement : label.kind ∈ markupKinds
  · simp [isParentheses, hparens, helement]
  by_cases hternary : label.kind = "ternary_expression"
  · simp [isParentheses, markupKinds, hternary, Node.children]
  · simp [isParentheses, hparens, helement, hternary, Node.children]

theorem yieldsMarkup_iff (c : Cursor) : yieldsMarkup c.node = true ↔ IsMarkup c := by
  constructor
  · intro h
    induction hn : c.node.size using Nat.strongRecOn generalizing c with
    | _ n ih =>
      have hbelow {e : Cursor} (he : Cursor.IsChild c e) (hyields : yieldsMarkup e.node = true) :
          IsMarkup e :=
        ih _ (hn ▸ Cursor.size_lt_of_isChild he) e hyields rfl
      rcases (yieldsMarkup_cases c).mp h with hkind | ⟨hkind, e, he, hyields⟩ |
        ⟨hkind, ⟨e, he, hyields⟩ | ⟨e, he, hyields⟩⟩ | ⟨hkind, e, he, hyields⟩
      · exact .element hkind
      · have hchild := Cursor.isChild_of_mem_contents (Cursor.mem_contents_of_content? he)
        exact .parentheses hkind he (hbelow hchild hyields)
      · exact .consequence hkind he (hbelow (Cursor.isChild_of_child? he) hyields)
      · exact .alternative hkind he (hbelow (Cursor.isChild_of_child? he) hyields)
      · exact .right hkind he (hbelow (Cursor.isChild_of_child? he) hyields)
  · intro h
    induction h with
    | element hkind => exact (yieldsMarkup_cases _).mpr (.inl hkind)
    | parentheses hkind he _ ih =>
      exact (yieldsMarkup_cases _).mpr (.inr (.inl ⟨hkind, _, he, ih⟩))
    | consequence hkind he _ ih =>
      exact (yieldsMarkup_cases _).mpr (.inr (.inr (.inl ⟨hkind, .inl ⟨_, he, ih⟩⟩)))
    | alternative hkind he _ ih =>
      exact (yieldsMarkup_cases _).mpr (.inr (.inr (.inl ⟨hkind, .inr ⟨_, he, ih⟩⟩)))
    | right hkind he _ ih =>
      exact (yieldsMarkup_cases _).mpr (.inr (.inr (.inr ⟨hkind, _, he, ih⟩)))

/-! ### The search for return statements -/

/-- The search for return statements from `c` on comes to `d`. -/
def Searches (c d : Cursor) : Prop :=
  ReflTransGen (fun p q => p.kind ∉ stopKinds ∧ q ∈ p.contents) c d

theorem returnsAmong_eq (ns : List Node) :
    returnsAmong ns = (ns.filter Node.isContent).flatMap returnsOf := by
  induction ns with
  | nil => rfl
  | cons n rest ih =>
    rw [returnsAmong, List.filter_cons]
    split
    · rw [List.flatMap_cons, ih]
    · exact ih

theorem ownsReturns_iff {kind : String} :
    ownsReturns kind = true ↔ kind ∈ functionKinds ++ classKinds := by
  simp [ownsReturns]

theorem returnsOf_of_return {n : Node} (h : n.kind = "return_statement") :
    returnsOf n = [n] := by
  obtain ⟨label, children⟩ := n
  exact if_pos h

theorem returnsOf_of_owner {n : Node} (h : n.kind ∈ functionKinds ++ classKinds) :
    returnsOf n = [] := by
  have hreturn : n.kind ≠ "return_statement" := by
    rintro hkind
    rw [hkind] at h
    exact absurd h (by decide)
  obtain ⟨label, children⟩ := n
  have howner : ownsReturns label.kind = true := ownsReturns_iff.mpr h
  exact (if_neg hreturn).trans (if_pos howner)

theorem returnsOf_of_not_stop {n : Node} (h : n.kind ∉ stopKinds) :
    returnsOf n = returnsAmong n.children := by
  obtain ⟨hreturn, howner⟩ := not_or.mp (mt List.mem_cons.mpr h)
  obtain ⟨label, children⟩ := n
  have hnot : ¬ ownsReturns label.kind = true := mt ownsReturns_iff.mp howner
  exact (if_neg hreturn).trans (if_neg hnot)

theorem returnsOf_contents {c : Cursor} (h : c.kind ∉ stopKinds) :
    returnsOf c.node = c.contents.flatMap fun d => returnsOf d.node := by
  rw [returnsOf_of_not_stop h, returnsAmong_eq, Cursor.contents_eq, List.flatMap_map]
  rfl

theorem mem_returnsOf {c : Cursor} {n : Node} :
    n ∈ returnsOf c.node ↔ ∃ r, Searches c r ∧ r.kind = "return_statement" ∧ r.node = n := by
  constructor
  · intro h
    induction hn : c.node.size using Nat.strongRecOn generalizing c with
    | _ _ ih =>
      by_cases hstop : c.kind ∈ stopKinds
      · rcases List.mem_cons.mp hstop with hreturn | howner
        · rw [returnsOf_of_return hreturn, List.mem_singleton] at h
          exact ⟨c, .refl, hreturn, h.symm⟩
        · rw [returnsOf_of_owner howner] at h
          cases h
      · rw [returnsOf_contents hstop] at h
        obtain ⟨d, hd, hbelow⟩ := List.mem_flatMap.mp h
        have hlt := Cursor.size_lt_of_isChild (Cursor.isChild_of_mem_contents hd)
        obtain ⟨r, hr, hreturn⟩ := ih _ (hn ▸ hlt) hbelow rfl
        exact ⟨r, .head ⟨hstop, hd⟩ hr, hreturn⟩
  · rintro ⟨r, hr, hreturn, rfl⟩
    induction hr using ReflTransGen.head_induction_on with
    | refl => rw [returnsOf_of_return hreturn]; exact List.mem_singleton_self _
    | head hstep _ ih =>
      rw [returnsOf_contents hstep.1]
      exact List.mem_flatMap.mpr ⟨_, hstep.2, ih⟩

section

variable {f body r m : Cursor}

/-- The search comes to what contents lead to with no stop between the function and it. -/
theorem searches_iff (hbody : Cursor.IsChild f body) (hf : f.kind ∈ stopKinds) :
    Searches body r ↔ Holds body r ∧ r.enclosing? stopKinds = some f := by
  constructor
  · intro h
    induction h with
    | refl => exact ⟨.refl, by rw [Cursor.enclosing?_of_isChild hbody, if_pos hf]⟩
    | tail _ hstep ih =>
      have hchild := Cursor.isChild_of_mem_contents hstep.2
      exact ⟨.tail ih.1 hstep.2, by rw [Cursor.enclosing?_of_isChild hchild, if_neg hstep.1, ih.2]⟩
  · rintro ⟨hheld, hnearest⟩
    induction hheld with
    | refl => exact .refl
    | tail hbefore hstep ih =>
      rename_i p q
      rw [Cursor.enclosing?_of_isChild (Cursor.isChild_of_mem_contents hstep)] at hnearest
      split at hnearest
      · obtain rfl := Option.some.inj hnearest
        -- The function is not below its own body.
        have hbelow := Cursor.mem_ancestors_of_contains hbody (Holds.contains hbefore)
        exact absurd hbelow (Cursor.not_mem_ancestors_self p)
      · rename_i hstop
        exact .tail (ih hnearest) ⟨hstop, hstep⟩

theorem returnsMarkup_iff (r : Cursor) :
    ReturnsMarkup r ↔
      r.kind = "return_statement" ∧ (r.node.content?.any yieldsMarkup) = true := by
  have hcontent : (r.node.content?.any yieldsMarkup) = true ↔
      ∃ e, r.content? = some e ∧ yieldsMarkup e.node = true := by
    rw [Cursor.content?_eq, ← Option.any_eq_true, Option.any_map]
    rfl
  rw [hcontent]
  constructor
  · rintro ⟨hkind, e, he, hmarkup⟩
    exact ⟨hkind, e, he, (yieldsMarkup_iff e).mpr hmarkup⟩
  · rintro ⟨hkind, e, he, hyields⟩
    exact ⟨hkind, e, he, (yieldsMarkup_iff e).mp hyields⟩

theorem isFunctionComponent_iff_searches (hf : f.kind ∈ functionKinds)
    (hbody : f.child? "body" = some body) (hblock : body.kind = "statement_block") :
    isFunctionComponent f = true ↔ ∃ r, Searches body r ∧ ReturnsMarkup r := by
  have hstop : body.kind ∉ stopKinds := by
    rw [hblock]
    decide
  rw [Cursor.child?_eq, Option.map_eq_some_iff] at hbody
  obtain ⟨n, hn, rfl⟩ := hbody
  change n.kind = "statement_block" at hblock
  have hreturns : returnsOf n = returnsAmong n.children := returnsOf_of_not_stop hstop
  rw [isFunctionComponent, List.contains_iff_mem.mpr hf, hn, Bool.true_and, Option.any_some,
    bodyYieldsMarkup, if_pos hblock, ← hreturns, List.any_eq_true]
  constructor
  · rintro ⟨statement, hstatement, hyields⟩
    obtain ⟨r, hr, hkind, rfl⟩ := (mem_returnsOf (c := f.below n)).mp hstatement
    exact ⟨r, hr, (returnsMarkup_iff r).mpr ⟨hkind, hyields⟩⟩
  · rintro ⟨r, hr, hmarkup⟩
    obtain ⟨hkind, hyields⟩ := (returnsMarkup_iff r).mp hmarkup
    exact ⟨r.node, (mem_returnsOf (c := f.below n)).mpr ⟨r, hr, hkind, rfl⟩, hyields⟩

/-! ### Whose return statements the search finds -/

theorem owner_of_function {kind : String} (h : kind ∈ functionKinds) : kind ∈ ownerKinds := by
  revert kind
  decide

theorem owner_of_stop {kind : String} (h : kind ∈ stopKinds) :
    kind = "return_statement" ∨ kind ∈ ownerKinds := by
  revert kind
  decide

theorem entered_of_owner {kind : String} (h : kind ∈ ownerKinds) (hstop : kind ∉ stopKinds) :
    kind ∈ enteredKinds := by
  revert kind
  decide

theorem not_stop_of_entered {kind : String} (h : kind ∈ enteredKinds) : kind ∉ stopKinds := by
  revert kind
  decide

theorem contains_of_between {a : Cursor} (hbody : Cursor.IsChild f body) (hr : body.Contains r)
    (ha : a ∈ r.ancestors) (hfa : f ∈ a.ancestors) : body.Contains a := by
  rcases hr.ancestor ha with hin | hout
  · exact hin
  · rw [Cursor.ancestors_of_isChild hbody] at hout
    rcases List.mem_cons.mp hout with rfl | hout
    · exact absurd hfa (Cursor.not_mem_ancestors_self a)
    · exact absurd (Cursor.ancestors_subset hout hfa) (Cursor.not_mem_ancestors_self f)

/-- What the search finds belongs to the function or to one that the search went into. -/
theorem exists_owner (hf : f.kind ∈ functionKinds) (hnearest : r.enclosing? stopKinds = some f) :
    ∃ m, r.enclosing? ownerKinds = some m ∧ CountsFor m f := by
  obtain ⟨hin, hstop, hbetween⟩ := Cursor.enclosing?_eq_some_iff.mp hnearest
  obtain ⟨m, hm⟩ := Cursor.exists_enclosing? hin (owner_of_function hf)
  obtain ⟨hmin, hmkind, hnearer⟩ := Cursor.enclosing?_eq_some_iff.mp hm
  refine ⟨m, hm, ?_⟩
  rcases Cursor.ancestors_total hmin hin with rfl | habove | hbelow
  · exact .inl rfl
  · exact absurd (owner_of_function hf) (hnearer f hin habove)
  · have hentered := entered_of_owner hmkind (hbetween m hmin hbelow)
    have hnone : ∀ b ∈ m.ancestors, f ∈ b.ancestors → b.kind ∉ stopKinds := fun b hb =>
      hbetween b (Cursor.ancestors_subset hmin hb)
    exact .inr ⟨hentered, Cursor.enclosing?_eq_some_iff.mpr ⟨hbelow, hstop, hnone⟩⟩

/-- Nothing between a return statement and its owner stops the search. -/
theorem not_stop_below_owner (hplain : HasPlainReturns body) (hr : body.Contains r)
    (hreturn : r.kind = "return_statement") (hm : r.enclosing? ownerKinds = some m) {b : Cursor}
    (hb : b ∈ r.ancestors) (hbelow : m ∈ b.ancestors) : b.kind ∉ stopKinds := by
  obtain ⟨-, -, hnearer⟩ := Cursor.enclosing?_eq_some_iff.mp hm
  intro hstop
  rcases owner_of_stop hstop with houter | howner
  · obtain ⟨a, ha, hba, howner⟩ := hplain.apart r b hr hreturn hb houter
    exact hnearer a ha (Cursor.ancestors_subset hba hbelow) howner
  · exact hnearer b hb hbelow howner

theorem enclosing?_stop_of_owner (hplain : HasPlainReturns body) (hr : body.Contains r)
    (hreturn : r.kind = "return_statement") (hf : f.kind ∈ functionKinds)
    (hm : r.enclosing? ownerKinds = some m) (hcounts : CountsFor m f) :
    r.enclosing? stopKinds = some f := by
  have hstop : f.kind ∈ stopKinds := List.mem_cons_of_mem _ (List.mem_append_left _ hf)
  have hmin : m ∈ r.ancestors := (Cursor.enclosing?_eq_some_iff.mp hm).1
  rw [Cursor.enclosing?_eq_some_iff]
  rcases hcounts with rfl | ⟨hentered, hmf⟩
  · exact ⟨hmin, hstop, fun b => not_stop_below_owner hplain hr hreturn hm⟩
  · obtain ⟨hfm, -, hbetween⟩ := Cursor.enclosing?_eq_some_iff.mp hmf
    refine ⟨Cursor.ancestors_subset hmin hfm, hstop, fun b hb hbelow => ?_⟩
    rcases Cursor.ancestors_total hb hmin with rfl | habove | hinner
    · exact not_stop_of_entered hentered
    · exact hbetween b habove hbelow
    · exact not_stop_below_owner hplain hr hreturn hm hb hinner

end

/--
A function with a block is a component by the return statements in the block that no other return
statement, no function that may be a component and no class is around. These are its own and those
of the generators and methods in it; where there are none of these, its own alone.
-/
theorem isFunctionComponent_iff_returns {f body : Cursor} (hf : f.kind ∈ functionKinds)
    (hbody : f.child? "body" = some body) (hblock : body.kind = "statement_block") :
    (isFunctionComponent f = true ↔
      ∃ r, Holds body r ∧ r.enclosing? stopKinds = some f ∧ ReturnsMarkup r) ∧
    (HasPlainReturns body →
      (isFunctionComponent f = true ↔
        ∃ r m, body.Contains r ∧ ReturnsMarkup r ∧ r.enclosing? ownerKinds = some m ∧
          CountsFor m f)) ∧
    (HasPlainReturns body →
      (∀ m, body.Contains m → m.enclosing? stopKinds = some f → m.kind ∉ enteredKinds) →
      (isFunctionComponent f = true ↔
        ∃ r, body.Contains r ∧ ReturnsMarkup r ∧ r.enclosing? ownerKinds = some f)) := by
  have hstop : f.kind ∈ stopKinds := List.mem_cons_of_mem _ (List.mem_append_left _ hf)
  have hsearch : isFunctionComponent f = true ↔
      ∃ r, Holds body r ∧ r.enclosing? stopKinds = some f ∧ ReturnsMarkup r := by
    rw [isFunctionComponent_iff_searches hf hbody hblock]
    refine exists_congr fun r => ?_
    rw [searches_iff (Cursor.isChild_of_child? hbody) hstop, and_assoc]
  have howners (hplain : HasPlainReturns body) : isFunctionComponent f = true ↔
      ∃ r m, body.Contains r ∧ ReturnsMarkup r ∧ r.enclosing? ownerKinds = some m ∧
        CountsFor m f := by
    rw [hsearch]
    constructor
    · rintro ⟨r, hr, hnearest, hmarkup⟩
      obtain ⟨m, hm, hcounts⟩ := exists_owner hf hnearest
      exact ⟨r, m, hr.contains, hmarkup, hm, hcounts⟩
    · rintro ⟨r, m, hr, hmarkup, hm, hcounts⟩
      have hnearest := enclosing?_stop_of_owner hplain hr hmarkup.kind hf hm hcounts
      exact ⟨r, hplain.held r hr hmarkup.kind, hnearest, hmarkup⟩
  refine ⟨hsearch, howners, fun hplain hnone => ?_⟩
  rw [howners hplain]
  constructor
  · rintro ⟨r, m, hr, hmarkup, hm, rfl | ⟨hentered, hmf⟩⟩
    · exact ⟨r, hr, hmarkup, hm⟩
    · have hfm := (Cursor.enclosing?_eq_some_iff.mp hmf).1
      have hmin := (Cursor.enclosing?_eq_some_iff.mp hm).1
      have hmbody := contains_of_between (Cursor.isChild_of_child? hbody) hr hmin hfm
      exact absurd hentered (hnone m hmbody hmf)
  · rintro ⟨r, hr, hmarkup, hm⟩
    exact ⟨r, f, hr, hmarkup, hm, .inl rfl⟩

/-- The rows of a function that makes an object with a method. -/
def makerRows : List Row :=
  let row (parent : Nat) (kind : String) (start stop : Nat) (field : Option String) : Row :=
    ⟨some parent, kind, start, stop, field, true, false⟩
  [⟨none, "program", 0, 47, none, true, false⟩, row 0 "function_declaration" 0 47 none,
    row 1 "identifier" 9 10 (some "name"), row 1 "formal_parameters" 10 12 (some "parameters"),
    row 1 "statement_block" 13 47 (some "body"), row 4 "expression_statement" 15 45 none,
    row 5 "assignment_expression" 15 44 none, row 6 "identifier" 15 16 (some "left"),
    row 6 "object" 19 44 (some "right"), row 8 "method_definition" 21 42 none,
    row 9 "property_identifier" 21 22 (some "name"),
    row 9 "formal_parameters" 22 24 (some "parameters"),
    row 9 "statement_block" 25 42 (some "body"), row 12 "return_statement" 27 40 none,
    row 13 "jsx_self_closing_element" 34 39 none, row 14 "identifier" 35 36 (some "name")]

def maker : Node :=
  (Node.ofRows? "function f() \x7b o = \x7b m() \x7b return <a />; \x7d \x7d; \x7d" makerRows).get
    rfl

def makerPlace (i : Fin 16) : Cursor := (Cursor.ofRoot maker).preorder.get (i.cast rfl)

theorem within_makerPlace (i : Fin 16) : Cursor.Within maker (makerPlace i) :=
  Cursor.contains_of_mem_preorder (List.get_mem _ _)

/-- A function without a return statement is a component by that of a method in it. -/
theorem isFunctionComponent_iff_returns_method :
    HasPlainReturns (makerPlace 4) ∧ isFunctionComponent (makerPlace 1) = true ∧
      ∀ r, (makerPlace 4).Contains r → ReturnsMarkup r →
        r.enclosing? ownerKinds ≠ some (makerPlace 1) := by
  have hcontents : ∀ p ∈ Cursor.placesFrom [] maker, ∀ q ∈ p.children, q.isContent = true := by
    decide +kernel
  have hreturns : ∀ r ∈ Cursor.placesFrom [] maker, r.kind = "return_statement" →
      (r.enclosing? ownerKinds).map Cursor.kind = some "method_definition" ∧
        ∀ s ∈ r.ancestors, s.kind ≠ "return_statement" := by decide +kernel
  have hin {r : Cursor} (hr : (makerPlace 4).Contains r) : Cursor.Within maker r :=
    (within_makerPlace 4).trans hr
  have hholds {r : Cursor} (hr : (makerPlace 4).Contains r) : Holds (makerPlace 4) r := by
    induction hr with
    | refl => exact .refl
    | tail hbefore hstep ih =>
      have hcontent := hcontents _ (hin hbefore).mem_places _ hstep
      exact .tail ih (List.mem_filter.mpr ⟨hstep, hcontent⟩)
  have hplain : HasPlainReturns (makerPlace 4) :=
    ⟨fun r hr _ => hholds hr, fun r s hr hreturn hs houter =>
      absurd houter ((hreturns r (hin hr).mem_places hreturn).2 s hs)⟩
  refine ⟨hplain, ?_, fun r hr hmarkup howner => ?_⟩
  · have hreturn : ReturnsMarkup (makerPlace 13) :=
      ⟨rfl, makerPlace 14, rfl, .element (by decide)⟩
    have hbelow : (makerPlace 4).Contains (makerPlace 13) :=
      Cursor.contains_of_mem_preorder (List.get_mem (makerPlace 4).preorder ⟨9, by decide⟩)
    exact ((isFunctionComponent_iff_returns (by decide) rfl rfl).2.1 hplain).mpr
      ⟨makerPlace 13, makerPlace 9, hbelow, hreturn, rfl, .inr ⟨by decide, rfl⟩⟩
  · have hmethod := (hreturns r (hin hr).mem_places hmarkup.kind).1
    rw [howner] at hmethod
    exact absurd hmethod (by decide)

end ComponentAtlas.Component
