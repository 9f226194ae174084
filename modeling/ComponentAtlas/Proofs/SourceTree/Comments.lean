import ComponentAtlas.Proofs.SourceTree.Numbering

/-!
# Trees without comments

A remark is a comment as parsers put it into a tree: it has no children, and it
is held under no name. A tree is uncommented by leaving its remarks out, and the
nodes that stay may get new numbers. Each way through a tree that looks for
contents or for names leads in the uncommented tree to the places that the same
way leads to in the tree.
-/

namespace ComponentAtlas.SourceTree

/-! ### Nodes -/

namespace Node

def isRemark (n : Node) : Bool := n.kind == "comment" && n.field.isNone && n.children.isEmpty

mutual

/-- The node without the remarks below it, all nodes numbered anew by `number`. -/
def uncommented (number : Nat → Nat) : Node → Node
  | .mk label children => .mk { label with id := number label.id } (uncommentedAll number children)

/-- Several nodes without the remarks among them and below them. -/
def uncommentedAll (number : Nat → Nat) : List Node → List Node
  | [] => []
  | n :: rest =>
    if n.isRemark then uncommentedAll number rest
    else n.uncommented number :: uncommentedAll number rest

end

theorem isRemark_iff (n : Node) :
    n.isRemark = true ↔ n.kind = "comment" ∧ n.field = none ∧ n.children = [] := by
  simp only [isRemark, Bool.and_eq_true, beq_iff_eq, Option.isNone_iff_eq_none,
    List.isEmpty_iff, and_assoc]

variable (number : Nat → Nat)

theorem uncommentedAll_eq (ns : List Node) :
    uncommentedAll number ns = (ns.filter fun n => !n.isRemark).map (uncommented number) := by
  induction ns with
  | nil => rfl
  | cons n rest ih => by_cases h : n.isRemark = true <;> simp [uncommentedAll, h, ih]

@[simp]
theorem label_uncommented (n : Node) :
    (n.uncommented number).label = { n.label with id := number n.label.id } := by
  cases n; rfl

@[simp]
theorem children_uncommented (n : Node) :
    (n.uncommented number).children =
      (n.children.filter fun n => !n.isRemark).map (uncommented number) := by
  obtain ⟨label, children⟩ := n
  exact uncommentedAll_eq number children

@[simp]
theorem kind_uncommented (n : Node) : (n.uncommented number).kind = n.kind := by
  simp [kind]

@[simp]
theorem text_uncommented (n : Node) : (n.uncommented number).text = n.text := by
  simp [text]

@[simp]
theorem isReadable_uncommented (n : Node) : (n.uncommented number).isReadable = n.isReadable := by
  simp [isReadable]

@[simp]
theorem named_uncommented (n : Node) : (n.uncommented number).named = n.named := by
  simp [named]

@[simp]
theorem field_uncommented (n : Node) : (n.uncommented number).field = n.field := by
  simp [field]

@[simp]
theorem isContent_uncommented (n : Node) : (n.uncommented number).isContent = n.isContent := by
  simp [isContent]

theorem not_isContent_of_isRemark {n : Node} (h : n.isRemark = true) : n.isContent = false := by
  simp [isContent, ((isRemark_iff n).mp h).1]

/-- A test that no remark passes finds among the children of the uncommented node the same. -/
theorem find?_children_uncommented {p : Node → Bool} (n : Node)
    (hp : ∀ m, p (m.uncommented number) = p m) (hremark : ∀ m, m.isRemark = true → p m = false) :
    (n.uncommented number).children.find? p = (n.children.find? p).map (uncommented number) := by
  have hsame : (p ∘ uncommented number) = p := funext hp
  have hkept : (fun m => decide ((!m.isRemark) = true ∧ p m = true)) = p := by
    funext m
    cases h : m.isRemark with
    | true => simp [hremark m h]
    | false => simp
  rw [children_uncommented, List.find?_map, hsame, List.find?_filter, hkept]

theorem filter_children_uncommented {p : Node → Bool} (n : Node)
    (hp : ∀ m, p (m.uncommented number) = p m) (hremark : ∀ m, m.isRemark = true → p m = false) :
    (n.uncommented number).children.filter p = (n.children.filter p).map (uncommented number) := by
  have hsame : (p ∘ uncommented number) = p := funext hp
  have hkept : (fun m => p m && !m.isRemark) = p := by
    funext m
    cases h : m.isRemark with
    | true => simp [hremark m h]
    | false => simp
  rw [children_uncommented, List.filter_map, hsame, List.filter_filter, hkept]

theorem content?_uncommented (n : Node) :
    (n.uncommented number).content? = n.content?.map (uncommented number) :=
  find?_children_uncommented number n (isContent_uncommented number)
    fun _ h => not_isContent_of_isRemark h

theorem child?_uncommented (n : Node) (name : String) :
    (n.uncommented number).child? name = (n.child? name).map (uncommented number) :=
  find?_children_uncommented number n (fun m => by rw [field_uncommented])
    fun m h => by simp [((isRemark_iff m).mp h).2.1]

theorem contents_uncommented (n : Node) :
    (n.uncommented number).contents = n.contents.map (uncommented number) :=
  filter_children_uncommented number n (isContent_uncommented number)
    fun _ h => not_isContent_of_isRemark h

/-! ### All nodes of a tree -/

theorem preorder_of_isRemark {n : Node} (h : n.isRemark = true) : n.preorder = [n] := by
  obtain ⟨label, children⟩ := n
  obtain rfl : children = [] := ((isRemark_iff _).mp h).2.2
  rfl

mutual

theorem preorder_uncommented : ∀ n : Node, n.isRemark = false →
    (n.uncommented number).preorder =
      (n.preorder.filter fun m => !m.isRemark).map (uncommented number)
  | .mk label children => by
    intro h
    simp only [uncommented, preorder, List.filter_cons, h, Bool.not_false, if_true, List.map_cons,
      preorderAll_uncommented children]

theorem preorderAll_uncommented : ∀ ns : List Node,
    preorderAll (uncommentedAll number ns) =
      ((preorderAll ns).filter fun m => !m.isRemark).map (uncommented number)
  | [] => rfl
  | n :: rest => by
    cases h : n.isRemark with
    | true =>
      simp only [uncommentedAll, h, if_true, preorderAll, preorder_of_isRemark h,
        preorderAll_uncommented rest, List.singleton_append, List.filter_cons, Bool.not_true,
        Bool.false_eq_true, if_false]
    | false =>
      simp only [uncommentedAll, h, Bool.false_eq_true, if_false, preorderAll,
        preorder_uncommented n h, preorderAll_uncommented rest, List.filter_append, List.map_append]

end

theorem isRemark_uncommented {n : Node} (h : n.isRemark = true) :
    (n.uncommented number).isRemark = true := by
  obtain ⟨hkind, hfield, hchildren⟩ := (isRemark_iff n).mp h
  simp [isRemark_iff, hkind, hfield, hchildren]

theorem count_uncommented (n : Node) {kind : String} (hk : kind ≠ "comment") :
    (n.uncommented number).count kind = n.count kind := by
  have hkept : (fun m : Node => (m.uncommented number).kind == kind && !m.isRemark) =
      fun m => m.kind == kind := by
    funext m
    rw [kind_uncommented]
    cases h : m.isRemark with
    | true => simp [((isRemark_iff m).mp h).1, hk.symm]
    | false => simp
  cases h : n.isRemark with
  | true =>
    have hremark := isRemark_uncommented number h
    simp [count, preorder_of_isRemark h, preorder_of_isRemark hremark]
  | false =>
    rw [count, preorder_uncommented number n h, List.countP_map, List.countP_filter, count]
    exact congrArg (n.preorder.countP ·) hkept

end Node

/-! ### Places -/

namespace Cursor

/-- The place in the uncommented tree. -/
def uncommented (number : Nat → Nat) (c : Cursor) : Cursor :=
  ⟨c.node.uncommented number, c.above.map (Node.uncommented number)⟩

variable (number : Nat → Nat)

@[simp]
theorem id_uncommented (c : Cursor) : (c.uncommented number).id = number c.id := by
  simp [uncommented, id]

@[simp]
theorem kind_uncommented (c : Cursor) : (c.uncommented number).kind = c.kind :=
  c.node.kind_uncommented number

@[simp]
theorem text_uncommented (c : Cursor) : (c.uncommented number).text = c.text :=
  c.node.text_uncommented number

@[simp]
theorem isReadable_uncommented (c : Cursor) : (c.uncommented number).isReadable = c.isReadable :=
  c.node.isReadable_uncommented number

@[simp]
theorem start_uncommented (c : Cursor) : (c.uncommented number).start = c.start := by
  simp [uncommented, start]

@[simp]
theorem stop_uncommented (c : Cursor) : (c.uncommented number).stop = c.stop := by
  simp [uncommented, stop]

theorem root_uncommented (c : Cursor) :
    (c.uncommented number).root = c.root.uncommented number := by
  simp only [root, uncommented, List.getLast?_map]
  cases c.above.getLast? <;> rfl

/-! ### Searches -/

theorem findSome?_map_uncommented {α β : Type} {p : Cursor → Option α} {q : Cursor → Option β}
    {f : α → β} (h : ∀ c, q (c.uncommented number) = (p c).map f) (places : List Cursor) :
    (places.map (uncommented number)).findSome? q = (places.findSome? p).map f := by
  rw [List.findSome?_map, List.map_findSome?]
  exact congrArg (places.findSome? ·) (funext h)

theorem bind_map_uncommented {α β : Type} {p : Cursor → Option α} {q : Cursor → Option β}
    {f : α → β} (h : ∀ c, q (c.uncommented number) = (p c).map f) (place : Option Cursor) :
    (place.map (uncommented number)).bind q = (place.bind p).map f := by
  cases place with
  | none => rfl
  | some c => exact h c

/-! ### Ways down and up -/

@[simp]
theorem child?_uncommented (c : Cursor) (name : String) :
    (c.uncommented number).child? name = (c.child? name).map (uncommented number) := by
  rw [child?_eq, child?_eq, uncommented, Node.child?_uncommented, Option.map_map, Option.map_map]
  rfl

@[simp]
theorem content?_uncommented (c : Cursor) :
    (c.uncommented number).content? = c.content?.map (uncommented number) := by
  rw [content?_eq, content?_eq, uncommented, Node.content?_uncommented, Option.map_map,
    Option.map_map]
  rfl

@[simp]
theorem contents_uncommented (c : Cursor) :
    (c.uncommented number).contents = c.contents.map (uncommented number) := by
  rw [contents_eq, contents_eq, uncommented, Node.contents_uncommented, List.map_map, List.map_map]
  rfl

@[simp]
theorem ancestors_uncommented (c : Cursor) :
    (c.uncommented number).ancestors = c.ancestors.map (uncommented number) := by
  obtain ⟨node, above⟩ := c
  change alongWay (above.map (Node.uncommented number)) = (alongWay above).map (uncommented number)
  induction above with
  | nil => rfl
  | cons n rest ih =>
    rw [List.map_cons, alongWay, ih]
    rfl

mutual

theorem bareFrom_uncommented (above : List Node) : ∀ n : Node,
    bareFrom (above.map (Node.uncommented number)) (n.uncommented number) =
      (bareFrom above n).map (uncommented number)
  | .mk label children => by
    have hbelow := bareAmong_uncommented (.mk label children :: above) children
    rw [List.map_cons, Node.uncommented] at hbelow
    rw [Node.uncommented, bareFrom, bareFrom]
    split
    · exact hbelow
    · rfl

theorem bareAmong_uncommented (above : List Node) : ∀ ns : List Node,
    bareAmong (above.map (Node.uncommented number)) (Node.uncommentedAll number ns) =
      (bareAmong above ns).map (uncommented number)
  | [] => rfl
  | n :: rest => by
    have hrest := bareAmong_uncommented above rest
    rw [Node.uncommentedAll, bareAmong]
    cases h : n.isRemark with
    | true =>
      rw [if_pos rfl, Node.not_isContent_of_isRemark h, if_neg Bool.false_ne_true, hrest]
    | false =>
      rw [if_neg Bool.false_ne_true, bareAmong, Node.isContent_uncommented]
      split
      · exact bareFrom_uncommented above n
      · exact hrest

end

@[simp]
theorem bare_uncommented (c : Cursor) :
    (c.uncommented number).bare = c.bare.map (uncommented number) :=
  bareFrom_uncommented number c.above c.node

/-! ### Walks -/

theorem preorder_of_isRemark {c : Cursor} (h : c.node.isRemark = true) : c.preorder = [c] := by
  obtain ⟨⟨label, children⟩, above⟩ := c
  obtain rfl : children = [] := ((Node.isRemark_iff _).mp h).2.2
  rfl

mutual

theorem preorderFrom_uncommented (above : List Node) : ∀ n : Node, n.isRemark = false →
    preorderFrom (above.map (Node.uncommented number)) (n.uncommented number) =
      ((preorderFrom above n).filter fun d => !d.node.isRemark).map (uncommented number)
  | .mk label children => by
    intro h
    have hbelow := preorderAmong_uncommented (.mk label children :: above) children
    rw [List.map_cons, Node.uncommented] at hbelow
    rw [Node.uncommented, preorderFrom, preorderFrom, hbelow, List.filter_cons, h, Bool.not_false,
      if_pos rfl, List.map_cons]
    rfl

theorem preorderAmong_uncommented (above : List Node) : ∀ ns : List Node,
    preorderAmong (above.map (Node.uncommented number)) (Node.uncommentedAll number ns) =
      ((preorderAmong above ns).filter fun d => !d.node.isRemark).map (uncommented number)
  | [] => rfl
  | n :: rest => by
    have hrest := preorderAmong_uncommented above rest
    rw [Node.uncommentedAll, preorderAmong]
    cases h : n.isRemark with
    | true =>
      have halone : preorderFrom above n = [⟨n, above⟩] :=
        preorder_of_isRemark (c := ⟨n, above⟩) h
      rw [if_pos rfl, hrest, halone]
      split <;> simp [h]
    | false =>
      rw [if_neg Bool.false_ne_true, preorderAmong, Node.named_uncommented]
      split
      · rw [preorderFrom_uncommented above n h, hrest, List.filter_append, List.map_append]
      · exact hrest

end

theorem descendants_uncommented (filter : KindFilter) {c : Cursor} (h : c.node.isRemark = false) :
    (c.uncommented number).descendants filter =
      ((c.descendants filter).filter fun d => !d.node.isRemark).map (uncommented number) := by
  have hkeeps : (fun d : Cursor => filter.keeps d.kind) ∘ uncommented number =
      fun d => filter.keeps d.kind := by
    funext d
    simp
  have hwalk : (c.uncommented number).preorder =
      (c.preorder.filter fun d => !d.node.isRemark).map (uncommented number) :=
    preorderFrom_uncommented number c.above c.node h
  rw [descendants_eq, descendants_eq, hwalk, List.filter_map, hkeeps, List.filter_comm]

/-- A walk that does not keep comments keeps the same places. -/
theorem descendants_some_uncommented {kinds : List String} (hkinds : "comment" ∉ kinds)
    (c : Cursor) :
    (c.uncommented number).descendants (some kinds) =
      (c.descendants (some kinds)).map (uncommented number) := by
  have hdropped : ∀ d : Cursor, d.kind = "comment" →
      KindFilter.keeps (some kinds) d.kind = false := by
    intro d hd
    simp [KindFilter.keeps, hd, hkinds]
  cases h : c.node.isRemark with
  | true =>
    have hkind : c.kind = "comment" := ((Node.isRemark_iff _).mp h).1
    have hremark : (c.uncommented number).node.isRemark = true := Node.isRemark_uncommented number h
    rw [descendants_eq, descendants_eq, preorder_of_isRemark h, preorder_of_isRemark hremark,
      List.filter_singleton, List.filter_singleton, kind_uncommented, hdropped c hkind]
    rfl
  | false =>
    rw [descendants_uncommented number _ h, List.filter_eq_self.mpr]
    intro d hd
    have hkept := (mem_descendants.mp hd).2
    cases hd : d.node.isRemark with
    | true =>
      rw [hdropped d ((Node.isRemark_iff _).mp hd).1] at hkept
      cases hkept
    | false => rfl

/-! ### Places that stay -/

/-- The place is one of the tree and no remark. -/
structure Kept (root : Node) (c : Cursor) : Prop where
  within : Within root c
  stays : c.node.isRemark = false

theorem Kept.of_kind {root : Node} {c : Cursor} (hc : Within root c) (h : c.kind ≠ "comment") :
    Kept root c := by
  refine ⟨hc, ?_⟩
  rw [Bool.eq_false_iff, ne_eq, Node.isRemark_iff]
  exact fun hremark => h hremark.1

theorem not_isRemark_of_isChild {c d : Cursor} (h : IsChild c d) : c.node.isRemark = false := by
  obtain ⟨child, hchild, -⟩ := isChild_iff.mp h
  rw [Bool.eq_false_iff, ne_eq, Node.isRemark_iff]
  rintro ⟨-, -, hchildren⟩
  rw [hchildren] at hchild
  cases hchild

theorem kept_of_child? {root : Node} {c d : Cursor} (hc : Within root c) {name : String}
    (h : c.child? name = some d) : Kept root d := by
  refine ⟨hc.child (isChild_of_child? h), ?_⟩
  rw [Bool.eq_false_iff, ne_eq, Node.isRemark_iff, field_of_child? h]
  simp

theorem kept_of_mem_contents {root : Node} {c d : Cursor} (hc : Within root c)
    (h : d ∈ c.contents) : Kept root d := by
  refine ⟨hc.child (isChild_of_mem_contents h), ?_⟩
  have hcontent : d.node.isContent = true := (List.mem_filter.mp h).2
  cases hd : d.node.isRemark with
  | true =>
    rw [Node.not_isContent_of_isRemark hd] at hcontent
    cases hcontent
  | false => rfl

theorem kept_of_content? {root : Node} {c d : Cursor} (hc : Within root c)
    (h : c.content? = some d) : Kept root d :=
  kept_of_mem_contents hc (mem_contents_of_content? h)

theorem Kept.bare {root : Node} {c v : Cursor} (hc : Kept root c) (h : c.bare = some v) :
    Kept root v :=
  (bare_induction (fun _ _ _ hd hk => kept_of_mem_contents hk.within hd) hc h).1

theorem Kept.root {root : Node} {c : Cursor} (h : Kept root c) : root.isRemark = false := by
  rcases Relation.ReflTransGen.cases_head h.within with rfl | ⟨d, hchild, -⟩
  · exact h.stays
  · exact not_isRemark_of_isChild hchild

theorem IsChild.uncommented {c d : Cursor} (h : IsChild c d) (hd : d.node.isRemark = false) :
    IsChild (c.uncommented number) (d.uncommented number) := by
  obtain ⟨child, hchild, rfl⟩ := isChild_iff.mp h
  refine isChild_iff.mpr ⟨child.uncommented number, ?_, rfl⟩
  rw [Cursor.uncommented, Node.children_uncommented]
  refine List.mem_map_of_mem (List.mem_filter.mpr ⟨hchild, ?_⟩)
  rw [show child.isRemark = false from hd]
  rfl

/-- Each place of a tree that is no remark is a place of the uncommented tree. -/
theorem Kept.uncommented {root : Node} {c : Cursor} (h : Kept root c) :
    Within (root.uncommented number) (c.uncommented number) := by
  obtain ⟨hc, hstays⟩ := h
  induction hc with
  | refl => exact .refl
  | tail _ hchild ih =>
    exact .tail (ih (not_isRemark_of_isChild hchild)) (hchild.uncommented number hstays)

/-- The places of a tree that are no remarks. -/
def keptPlaces (root : Node) : List Cursor :=
  (placesFrom [] root).filter fun c => !c.node.isRemark

theorem Kept.mem_keptPlaces {root : Node} {c : Cursor} (h : Kept root c) : c ∈ keptPlaces root :=
  List.mem_filter.mpr ⟨h.within.mem_places, by rw [h.stays]; rfl⟩

theorem map_node_keptPlaces (root : Node) (hroot : root.isRemark = false) :
    (keptPlaces root).map (fun c => c.node.uncommented number) =
      (root.uncommented number).preorder := by
  rw [Node.preorder_uncommented number root hroot, ← map_node_placesFrom [] root, List.filter_map,
    List.map_map]
  rfl

theorem length_keptPlaces (root : Node) (hroot : root.isRemark = false) :
    (keptPlaces root).length = (root.uncommented number).size := by
  rw [← Node.preorder_length, ← map_node_keptPlaces number root hroot, List.length_map]

theorem length_keptPlaces_le (root : Node) : (keptPlaces root).length ≤ root.size := by
  rw [← Node.preorder_length, ← map_node_placesFrom [] root, List.length_map]
  exact List.length_filter_le ..

/-- Where the new numbers tell the places that stay apart, two of them are never merged. -/
theorem Kept.eq_of_id_eq {root : Node} (hnumbered : (root.uncommented number).IsNumbered)
    {c d : Cursor} (hc : Kept root c) (hd : Kept root d)
    (h : (c.uncommented number).id = (d.uncommented number).id) : c = d := by
  have hnodup : ((keptPlaces root).map fun c => (c.uncommented number).id).Nodup := by
    rw [Node.IsNumbered, Node.numbers, ← map_node_keptPlaces number root hc.root,
      List.map_map] at hnumbered
    exact hnumbered
  exact List.inj_on_of_nodup_map hnodup hc.mem_keptPlaces hd.mem_keptPlaces h

end Cursor

end ComponentAtlas.SourceTree
