import ComponentAtlas.SourceTree.Parentheses
import ComponentAtlas.SourceTree.Walk
import Mathlib.Logic.Relation

/-!
# Places of a tree

A place belongs to a tree when children lead to it from the root; it is reached
by walks when named children do. The walk with a stack visits exactly the places
that are reached, in document order, and the places of a tree are as many as its
nodes.
-/

namespace ComponentAtlas.SourceTree

namespace Cursor

open Relation

/-! ### Steps from a place to its children -/

def IsChild (c d : Cursor) : Prop := d ∈ c.children

def IsNamedChild (c d : Cursor) : Prop := d ∈ c.namedChildren

/-- The place `d` is `c` itself or lies below it. -/
def Contains (c d : Cursor) : Prop := ReflTransGen IsChild c d

/-- A walk over named nodes from `c` comes to `d`. -/
def Reaches (c d : Cursor) : Prop := ReflTransGen IsNamedChild c d

theorem isChild_iff {c d : Cursor} : IsChild c d ↔ ∃ child ∈ c.node.children, c.below child = d :=
  List.mem_map

theorem isNamedChild_iff {c d : Cursor} : IsNamedChild c d ↔ IsChild c d ∧ d.named = true :=
  List.mem_filter

theorem isChild_of_child? {c d : Cursor} {name : String} (h : c.child? name = some d) :
    IsChild c d :=
  List.mem_of_find?_eq_some h

theorem field_of_child? {c d : Cursor} {name : String} (h : c.child? name = some d) :
    d.node.field = some name := by
  have hfield := List.find?_some h
  exact beq_iff_eq.mp hfield

theorem isNamedChild_of_mem_contents {c d : Cursor} (h : d ∈ c.contents) : IsNamedChild c d := by
  obtain ⟨hd, hc⟩ := List.mem_filter.mp h
  have hn : d.named = true := (Bool.and_eq_true_iff.mp hc).1
  exact isNamedChild_iff.mpr ⟨hd, hn⟩

theorem isChild_of_mem_contents {c d : Cursor} (h : d ∈ c.contents) : IsChild c d :=
  (List.mem_filter.mp h).1

theorem mem_contents_of_content? {c d : Cursor} (h : c.content? = some d) : d ∈ c.contents := by
  rw [← contents_head?] at h
  exact List.mem_of_mem_head? h

theorem isChild_of_content? {c d : Cursor} (h : c.content? = some d) : IsChild c d :=
  isChild_of_mem_contents (mem_contents_of_content? h)

theorem ancestors_of_isChild {c d : Cursor} (h : IsChild c d) :
    d.ancestors = c :: c.ancestors := by
  obtain ⟨child, -, rfl⟩ := isChild_iff.mp h
  rfl

theorem root_of_isChild {c d : Cursor} (h : IsChild c d) : d.root = c.root := by
  obtain ⟨child, -, rfl⟩ := isChild_iff.mp h
  exact root_below c child

theorem Reaches.contains {c d : Cursor} (h : c.Reaches d) : c.Contains d :=
  ReflTransGen.mono (fun _ _ hc => (isNamedChild_iff.mp hc).1) c d h

/-! ### Places of a tree -/

/-- The place is one of the tree with the given root. -/
def Within (root : Node) (c : Cursor) : Prop := (ofRoot root).Contains c

theorem Within.child {root : Node} {c d : Cursor} (hc : Within root c) (h : IsChild c d) :
    Within root d :=
  ReflTransGen.tail hc h

theorem Within.root_eq {root : Node} {c : Cursor} (h : Within root c) : c.root = root := by
  induction h with
  | refl => rfl
  | tail _ hstep ih => rw [root_of_isChild hstep, ih]

theorem ancestor_of_steps {R : Cursor → Cursor → Prop} (hR : ∀ c d, R c d → IsChild c d)
    {root : Node} {a d : Cursor} (h : ReflTransGen R (ofRoot root) d) (ha : a ∈ d.ancestors) :
    ReflTransGen R (ofRoot root) a := by
  induction h with
  | refl => cases ha
  | tail hb hstep ih =>
    rw [ancestors_of_isChild (hR _ _ hstep)] at ha
    rcases List.mem_cons.mp ha with rfl | ha
    · exact hb
    · exact ih ha

theorem Within.ancestor {root : Node} {a d : Cursor} (h : Within root d) (ha : a ∈ d.ancestors) :
    Within root a :=
  ancestor_of_steps (fun _ _ hc => hc) h ha

theorem Reaches.ancestor {root : Node} {a d : Cursor} (h : (ofRoot root).Reaches d)
    (ha : a ∈ d.ancestors) : (ofRoot root).Reaches a :=
  ancestor_of_steps (fun _ _ hc => (isNamedChild_iff.mp hc).1) h ha

theorem ancestors_subset {a d : Cursor} (ha : a ∈ d.ancestors) : a.ancestors ⊆ d.ancestors := by
  obtain ⟨node, above⟩ := d
  change a ∈ alongWay above at ha
  change a.ancestors ⊆ alongWay above
  induction above with
  | nil => cases ha
  | cons n rest ih =>
    rcases List.mem_cons.mp ha with rfl | ha
    · exact List.subset_cons_self _ _
    · exact fun b hb => List.mem_cons_of_mem _ (ih ha hb)

theorem length_above_lt {a d : Cursor} (ha : a ∈ d.ancestors) :
    a.above.length < d.above.length := by
  obtain ⟨node, above⟩ := d
  change a ∈ alongWay above at ha
  change a.above.length < above.length
  induction above with
  | nil => cases ha
  | cons n rest ih =>
    rcases List.mem_cons.mp ha with rfl | ha
    · exact Nat.lt_succ_self _
    · exact Nat.lt_succ_of_lt (ih ha)

theorem not_mem_ancestors_self (c : Cursor) : c ∉ c.ancestors := fun h =>
  Nat.lt_irrefl _ (length_above_lt h)

/-- The way up from a place comes through one above it, and before through places below that. -/
theorem ancestors_split {a d : Cursor} (ha : a ∈ d.ancestors) :
    ∃ inner, d.ancestors = inner ++ a :: a.ancestors ∧
      ∀ b, b ∈ inner ↔ b ∈ d.ancestors ∧ a ∈ b.ancestors := by
  have hsplit : ∃ inner, d.ancestors = inner ++ a :: a.ancestors ∧
      ∀ b ∈ inner, a ∈ b.ancestors := by
    obtain ⟨node, above⟩ := d
    change a ∈ alongWay above at ha
    change ∃ inner, alongWay above = inner ++ a :: a.ancestors ∧ ∀ b ∈ inner, a ∈ b.ancestors
    induction above with
    | nil => cases ha
    | cons n rest ih =>
      rcases List.mem_cons.mp ha with rfl | ha
      · exact ⟨[], rfl, fun b hb => nomatch hb⟩
      · obtain ⟨inner, hinner, hbelow⟩ := ih ha
        refine ⟨⟨n, rest⟩ :: inner, by rw [alongWay, hinner, List.cons_append], fun b hb => ?_⟩
        rcases List.mem_cons.mp hb with rfl | hb
        · exact ha
        · exact hbelow b hb
  obtain ⟨inner, hinner, hbelow⟩ := hsplit
  refine ⟨inner, hinner, fun b => ⟨fun hb => ?_, fun ⟨hb, hab⟩ => ?_⟩⟩
  · exact ⟨hinner ▸ List.mem_append_left _ hb, hbelow b hb⟩
  · rw [hinner, List.mem_append, List.mem_cons] at hb
    rcases hb with hb | rfl | hb
    · exact hb
    · exact absurd hab (not_mem_ancestors_self b)
    · exact absurd (ancestors_subset hb hab) (not_mem_ancestors_self a)

theorem mem_ancestors_of_contains {c d e : Cursor} (hd : IsChild c d) (h : d.Contains e) :
    c ∈ e.ancestors := by
  induction h with
  | refl =>
    rw [ancestors_of_isChild hd]
    exact List.mem_cons_self ..
  | tail _ hstep ih =>
    rw [ancestors_of_isChild hstep]
    exact List.mem_cons_of_mem _ ih

theorem Contains.ancestor {c d a : Cursor} (h : c.Contains d) (ha : a ∈ d.ancestors) :
    c.Contains a ∨ a ∈ c.ancestors := by
  induction h with
  | refl => exact .inr ha
  | tail hb hstep ih =>
    rw [ancestors_of_isChild hstep] at ha
    rcases List.mem_cons.mp ha with rfl | ha
    · exact .inl hb
    · exact ih ha

/-- Of two places above one, either is above the other. -/
theorem ancestors_total {a b c : Cursor} (ha : a ∈ c.ancestors) (hb : b ∈ c.ancestors) :
    a = b ∨ a ∈ b.ancestors ∨ b ∈ a.ancestors := by
  obtain ⟨inner, hsplit, hinner⟩ := ancestors_split ha
  rw [hsplit, List.mem_append, List.mem_cons] at hb
  rcases hb with hb | rfl | hb
  · exact .inr (.inl ((hinner b).mp hb).2)
  · exact .inl rfl
  · exact .inr (.inr hb)

/-! ### The nearest place of a kind -/

theorem exists_enclosing? {kinds : List String} {c a : Cursor} (ha : a ∈ c.ancestors)
    (hkind : a.kind ∈ kinds) : ∃ m, c.enclosing? kinds = some m :=
  Option.isSome_iff_exists.mp
    (List.find?_isSome.mpr ⟨a, ha, List.contains_iff_mem.mpr hkind⟩)

theorem enclosing?_of_isChild {kinds : List String} {c d : Cursor} (h : IsChild c d) :
    d.enclosing? kinds = if c.kind ∈ kinds then some c else c.enclosing? kinds := by
  rw [enclosing?, ancestors_of_isChild h, List.find?_cons]
  by_cases hkind : c.kind ∈ kinds
  · rw [if_pos hkind, List.contains_iff_mem.mpr hkind]
  · rw [if_neg hkind, Bool.eq_false_iff.mpr (mt List.contains_iff_mem.mp hkind)]
    rfl

/-- The nearest place of the kinds is the one of them that has none of them below it. -/
theorem enclosing?_eq_some_iff {kinds : List String} {c a : Cursor} :
    c.enclosing? kinds = some a ↔
      a ∈ c.ancestors ∧ a.kind ∈ kinds ∧
        ∀ b ∈ c.ancestors, a ∈ b.ancestors → b.kind ∉ kinds := by
  -- The way up is split at `a`; what is found first is `a` when nothing is found before it.
  constructor
  · intro h
    have ha : a ∈ c.ancestors := List.mem_of_find?_eq_some h
    have hfound := List.find?_some h
    have hkind : a.kind ∈ kinds := List.contains_iff_mem.mp hfound
    refine ⟨ha, hkind, fun b hb hab hbkind => ?_⟩
    obtain ⟨inner, hsplit, hinner⟩ := ancestors_split ha
    rw [enclosing?, hsplit, List.find?_append] at h
    cases hfirst : inner.find? fun p => kinds.contains p.kind with
    | none =>
      have hnot := List.find?_eq_none.mp hfirst b ((hinner b).mpr ⟨hb, hab⟩)
      exact hnot (List.contains_iff_mem.mpr hbkind)
    | some p =>
      rw [hfirst] at h
      obtain rfl := Option.some.inj h
      have hp := (hinner p).mp (List.mem_of_find?_eq_some hfirst)
      exact not_mem_ancestors_self p hp.2
  · rintro ⟨ha, hkind, hnone⟩
    obtain ⟨inner, hsplit, hinner⟩ := ancestors_split ha
    have hfirst : inner.find? (fun p => kinds.contains p.kind) = none :=
      List.find?_eq_none.mpr fun b hb hbkind =>
        hnone b ((hinner b).mp hb).1 ((hinner b).mp hb).2 (List.contains_iff_mem.mp hbkind)
    have ha : kinds.contains a.kind = true := List.contains_iff_mem.mpr hkind
    rw [enclosing?, hsplit, List.find?_append, hfirst, Option.none_or, List.find?_cons, ha]

/-! ### Walks -/

theorem preorderAmong_eq (above : List Node) (ns : List Node) :
    preorderAmong above ns =
      ((ns.map fun n => (⟨n, above⟩ : Cursor)).filter named).flatMap preorder := by
  induction ns with
  | nil => rfl
  | cons n rest ih =>
    by_cases h : n.named = true
    · have hc : named ⟨n, above⟩ = true := h
      simp only [preorderAmong, h, if_true, List.map_cons, List.filter_cons, hc, List.flatMap_cons,
        ih]
      rfl
    · have hc : ¬ named ⟨n, above⟩ = true := h
      simp only [preorderAmong, h, if_false, List.map_cons, List.filter_cons, hc, ih,
        Bool.false_eq_true]

theorem preorder_eq (c : Cursor) : c.preorder = c :: c.namedChildren.flatMap preorder := by
  obtain ⟨⟨label, children⟩, above⟩ := c
  simp only [preorder, preorderFrom, preorderAmong_eq]
  rfl

/-- The number of nodes at and below the places of a stack. -/
def load : List Cursor → Nat
  | [] => 0
  | c :: rest => c.node.size + load rest

theorem load_append (cs ds : List Cursor) : load (cs ++ ds) = load cs + load ds := by
  induction cs with
  | nil => exact (Nat.zero_add _).symm
  | cons c rest ih => rw [List.cons_append, load, load, ih, Nat.add_assoc]

theorem load_filter_map_le (above : List Node) (ns : List Node) :
    load ((ns.map fun n => (⟨n, above⟩ : Cursor)).filter named) ≤ Node.sizeAll ns := by
  induction ns with
  | nil => exact Nat.le_refl 0
  | cons n rest ih =>
    simp only [List.map_cons, List.filter_cons, Node.sizeAll]
    split
    · exact Nat.add_le_add_left ih n.size
    · omega

theorem load_namedChildren_lt (c : Cursor) : load c.namedChildren < c.node.size := by
  obtain ⟨⟨label, children⟩, above⟩ := c
  have h := load_filter_map_le (.mk label children :: above) children
  have hs : (Node.mk label children).size = 1 + Node.sizeAll children := by rw [Node.size]
  change load ((children.map fun n => (⟨n, .mk label children :: above⟩ : Cursor)).filter named) < _
  change _ < (Node.mk label children).size
  omega

theorem drain_eq (filter : KindFilter) (fuel : Nat) (stack : List Cursor) (h : load stack ≤ fuel) :
    drain filter fuel stack = (stack.flatMap preorder).filter fun c => filter.keeps c.kind := by
  induction fuel generalizing stack with
  | zero =>
    cases stack with
    | nil => rfl
    | cons c rest =>
      have hpos := load_namedChildren_lt c
      rw [load] at h
      omega
  | succ fuel ih =>
    cases stack with
    | nil => rfl
    | cons c rest =>
      have hlt := load_namedChildren_lt c
      have hload : load (c.namedChildren ++ rest) ≤ fuel := by
        rw [load] at h
        rw [load_append]
        omega
      simp only [drain, ih _ hload, List.flatMap_append, List.flatMap_cons, preorder_eq c,
        List.cons_append, List.filter_cons]

theorem descendants_eq (filter : KindFilter) (c : Cursor) :
    c.descendants filter = c.preorder.filter fun d => filter.keeps d.kind := by
  have h : load [c] ≤ c.node.size := by simp [load]
  rw [descendants, drain_eq filter _ _ h, List.flatMap_cons, List.flatMap_nil, List.append_nil]

theorem descendants_none (c : Cursor) : c.descendants none = c.preorder := by
  rw [descendants_eq]
  exact List.filter_eq_self.mpr fun _ _ => rfl

theorem size_pos (c : Cursor) : 0 < c.node.size := by
  have hlt := load_namedChildren_lt c
  omega

theorem size_le_sizeAll {n : Node} {ns : List Node} (h : n ∈ ns) : n.size ≤ Node.sizeAll ns := by
  induction ns with
  | nil => cases h
  | cons m rest ih =>
    rw [Node.sizeAll]
    rcases List.mem_cons.mp h with rfl | h
    · exact Nat.le_add_right _ _
    · have hle := ih h
      omega

theorem size_lt_of_isChild {c d : Cursor} (h : IsChild c d) : d.node.size < c.node.size := by
  obtain ⟨child, hchild, rfl⟩ := isChild_iff.mp h
  obtain ⟨⟨label, children⟩, above⟩ := c
  have hle := size_le_sizeAll (show child ∈ children from hchild)
  change child.size < (Node.mk label children).size
  rw [Node.size]
  omega

theorem size_le_of_contains {c d : Cursor} (h : c.Contains d) : d.node.size ≤ c.node.size := by
  induction h with
  | refl => exact Nat.le_refl _
  | tail _ hstep ih => exact Nat.le_trans (Nat.le_of_lt (size_lt_of_isChild hstep)) ih

theorem mem_preorder {c d : Cursor} : d ∈ c.preorder ↔ c.Reaches d := by
  constructor
  · intro h
    induction hn : c.node.size using Nat.strongRecOn generalizing c with
    | _ n ih =>
      rw [preorder_eq, List.mem_cons, List.mem_flatMap] at h
      rcases h with rfl | ⟨e, he, hd⟩
      · exact .refl
      · have hstep : IsNamedChild c e := he
        have hlt := size_lt_of_isChild (isNamedChild_iff.mp hstep).1
        exact .head hstep (ih _ (by omega) hd rfl)
  · intro h
    induction h using ReflTransGen.head_induction_on with
    | refl => rw [preorder_eq]; exact List.mem_cons_self ..
    | head hstep _ ih =>
      rw [preorder_eq]
      exact List.mem_cons_of_mem _ (List.mem_flatMap.mpr ⟨_, hstep, ih⟩)

theorem contains_of_mem_preorder {c d : Cursor} (h : d ∈ c.preorder) : c.Contains d :=
  (mem_preorder.mp h).contains

theorem mem_descendants {filter : KindFilter} {c d : Cursor} :
    d ∈ c.descendants filter ↔ c.Reaches d ∧ filter.keeps d.kind = true := by
  rw [descendants_eq, List.mem_filter, mem_preorder]

/-! ### All places -/

mutual

/-- All places at and below a node, given the nodes above it. -/
def placesFrom (above : List Node) : Node → List Cursor
  | .mk label children =>
    ⟨.mk label children, above⟩ :: placesAmong (.mk label children :: above) children

def placesAmong (above : List Node) : List Node → List Cursor
  | [] => []
  | n :: rest => placesFrom above n ++ placesAmong above rest

end

mutual

theorem map_node_placesFrom (above : List Node) :
    ∀ n : Node, (placesFrom above n).map node = n.preorder
  | .mk label children => by
    simp only [placesFrom, List.map_cons, Node.preorder, map_node_placesAmong _ children]

theorem map_node_placesAmong (above : List Node) :
    ∀ ns : List Node, (placesAmong above ns).map node = Node.preorderAll ns
  | [] => rfl
  | n :: rest => by
    simp only [placesAmong, List.map_append, Node.preorderAll, map_node_placesFrom above n,
      map_node_placesAmong above rest]

end

theorem mem_placesAmong {above : List Node} {n : Node} {ns : List Node} (h : n ∈ ns) :
    (⟨n, above⟩ : Cursor) ∈ placesAmong above ns := by
  induction ns with
  | nil => cases h
  | cons m rest ih =>
    rw [placesAmong, List.mem_append]
    rcases List.mem_cons.mp h with rfl | h
    · obtain ⟨label, children⟩ := n
      exact .inl (List.mem_cons_self ..)
    · exact .inr (ih h)

mutual

theorem child_mem_placesFrom {c d : Cursor} (hd : IsChild c d) (above : List Node) :
    ∀ n : Node, c ∈ placesFrom above n → d ∈ placesFrom above n
  | .mk label children => by
    intro hc
    rw [placesFrom, List.mem_cons] at hc ⊢
    rcases hc with rfl | hc
    · obtain ⟨child, hchild, rfl⟩ := isChild_iff.mp hd
      exact .inr (mem_placesAmong hchild)
    · exact .inr (child_mem_placesAmong hd _ children hc)

theorem child_mem_placesAmong {c d : Cursor} (hd : IsChild c d) (above : List Node) :
    ∀ ns : List Node, c ∈ placesAmong above ns → d ∈ placesAmong above ns
  | [] => fun hc => nomatch hc
  | n :: rest => by
    intro hc
    rw [placesAmong, List.mem_append] at hc ⊢
    rcases hc with hc | hc
    · exact .inl (child_mem_placesFrom hd above n hc)
    · exact .inr (child_mem_placesAmong hd above rest hc)

end

theorem Within.mem_places {root : Node} {c : Cursor} (h : Within root c) :
    c ∈ placesFrom [] root := by
  induction h with
  | refl =>
    obtain ⟨label, children⟩ := root
    exact List.mem_cons_self ..
  | tail _ hstep ih => exact child_mem_placesFrom hstep [] root ih

mutual

theorem contains_of_mem_placesFrom {c : Cursor} (above : List Node) :
    ∀ n : Node, c ∈ placesFrom above n → (⟨n, above⟩ : Cursor).Contains c
  | .mk label children => by
    intro hc
    rw [placesFrom, List.mem_cons] at hc
    rcases hc with rfl | hc
    · exact .refl
    · obtain ⟨child, hchild, hin⟩ := contains_of_mem_placesAmong _ children hc
      exact .head (isChild_iff.mpr ⟨child, hchild, rfl⟩) hin

theorem contains_of_mem_placesAmong {c : Cursor} (above : List Node) :
    ∀ ns : List Node, c ∈ placesAmong above ns → ∃ n ∈ ns, (⟨n, above⟩ : Cursor).Contains c
  | [] => fun hc => nomatch hc
  | n :: rest => by
    intro hc
    rw [placesAmong, List.mem_append] at hc
    rcases hc with hc | hc
    · exact ⟨n, List.mem_cons_self .., contains_of_mem_placesFrom above n hc⟩
    · obtain ⟨m, hm, hin⟩ := contains_of_mem_placesAmong above rest hc
      exact ⟨m, List.mem_cons_of_mem _ hm, hin⟩

end

theorem within_iff_mem_places {root : Node} {c : Cursor} :
    Within root c ↔ c ∈ placesFrom [] root :=
  ⟨Within.mem_places, contains_of_mem_placesFrom [] root⟩

theorem length_places (root : Node) : (placesFrom [] root).length = root.size := by
  rw [← Node.preorder_length, ← map_node_placesFrom [] root, List.length_map]

theorem countP_places (root : Node) (kind : String) :
    (placesFrom [] root).countP (fun c => c.kind == kind) = root.count kind := by
  rw [Node.count, ← map_node_placesFrom [] root, List.countP_map]
  rfl

/-! ### Parentheses -/

/-- What passes from parentheses to their contents passes to what they enclose. -/
theorem bare_induction {P : Cursor → Prop}
    (hP : ∀ c d, isParentheses c.kind = true → d ∈ c.contents → P c → P d) {c v : Cursor}
    (hc : P c) (h : c.bare = some v) : P v ∧ isParentheses v.kind = false := by
  induction hn : c.node.size using Nat.strongRecOn generalizing c with
  | _ n ih =>
    by_cases hp : isParentheses c.kind = true
    · rw [bare_of_parentheses c hp] at h
      obtain ⟨d, hd, hv⟩ := Option.bind_eq_some_iff.mp h
      have hcontent := mem_contents_of_content? hd
      have hlt := size_lt_of_isChild (isChild_of_mem_contents hcontent)
      exact ih _ (by omega) (hP c d hp hcontent hc) hv rfl
    · have hf := Bool.eq_false_iff.mpr hp
      rw [bare_of_not_parentheses c hf] at h
      obtain rfl := Option.some.inj h
      exact ⟨hc, hf⟩

theorem isParentheses_of_bare {c v : Cursor} (h : c.bare = some v) :
    isParentheses v.kind = false :=
  (bare_induction (P := fun _ => True) (fun _ _ _ _ _ => trivial) trivial h).2

theorem Within.bare {root : Node} {c v : Cursor} (hc : Within root c) (h : c.bare = some v) :
    Within root v :=
  (bare_induction (fun _ _ _ hd hw => hw.child (isChild_of_mem_contents hd)) hc h).1

end Cursor

end ComponentAtlas.SourceTree
