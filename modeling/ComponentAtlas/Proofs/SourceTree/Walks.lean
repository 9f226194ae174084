import ComponentAtlas.Proofs.SourceTree.Numbering

/-!
# Walks in document order

A walk that keeps what is still to be visited on a stack comes to the named places
in document order, each of them once, and leaves out the nodes of other kinds and
nothing below them. In a tree whose rows stand in document order the numbers of the
nodes that a walk comes to grow.
-/

namespace ComponentAtlas.SourceTree

/-! ### Tables in document order -/

/--
The rows stand in document order: a row comes after the row of the node above it,
and a row between these two hangs on the one or on a row after it.
-/
structure InPreorder (rows : List Row) : Prop where
  after : ∀ e ∈ rows.zipIdx, ∀ p ∈ e.1.parent, p < e.2
  nested : rows.zipIdx.Pairwise fun d e =>
    ∀ p ∈ e.1.parent, p < d.2 → ∃ q ∈ d.1.parent, p ≤ q

/-- The rows of the nodes above never grow from one finished node to the next. -/
def Falls (finished : List (Option Nat × Node)) : Prop :=
  finished.Pairwise fun f g => ∀ p ∈ g.1, ∃ q ∈ f.1, p ≤ q

/-- What the rows from number `start` on are gathered to, before the rows above them are reached. -/
structure AreGathered (entries : List (Row × Nat)) (start : Nat)
    (finished : List (Option Nat × Node)) : Prop where
  numbers : numbersIn finished = entries.map Prod.snd
  parents : ∀ f ∈ finished, ∃ e ∈ entries, e.1.parent = f.1
  above : ∀ f ∈ finished, ∀ p ∈ f.1, p < start
  falls : Falls finished

theorem partition_of_falls {finished : List (Option Nat × Node)} {id : Nat}
    (habove : ∀ f ∈ finished, ∀ p ∈ f.1, p < id + 1) (hfalls : Falls finished) :
    (finished.filter fun f => f.1 == some id) ++ (finished.filter fun f => !(f.1 == some id)) =
      finished := by
  -- the children of the row come first, before all that hangs on rows before it
  induction finished with
  | nil => rfl
  | cons f rest ih =>
    obtain ⟨hf, hrest⟩ := List.pairwise_cons.mp hfalls
    by_cases hid : (f.1 == some id) = true
    · have hno : ¬ (!(f.1 == some id)) = true := by rw [hid]; decide
      rw [List.filter_cons, List.filter_cons, if_pos hid, if_neg hno, List.cons_append,
        ih (fun g hg => habove g (List.mem_cons_of_mem _ hg)) hrest]
    · -- A child of the row further on would need `f` to be one as well.
      have hnone : ∀ g ∈ f :: rest, ¬ (g.1 == some id) = true := by
        intro g hg hchild
        have hchild : id ∈ g.1 := beq_iff_eq.mp hchild
        rcases List.mem_cons.mp hg with rfl | hg
        · exact hid (beq_iff_eq.mpr hchild)
        · obtain ⟨q, hq, hle⟩ := hf g hg id hchild
          have hlt := habove f (List.mem_cons_self ..) q hq
          have hqid : q = id := by omega
          exact hid (beq_iff_eq.mpr (hqid ▸ hq))
      rw [List.filter_eq_nil_iff.mpr hnone, List.nil_append, List.filter_eq_self.mpr]
      intro g hg
      simpa using hnone g hg

theorem AreGathered.cons {entries : List (Row × Nat)} {row : Row} {id : Nat}
    (hafter : ∀ p ∈ row.parent, p < id)
    (hnested : ∀ e ∈ entries, ∀ p ∈ e.1.parent, p < id → ∃ q ∈ row.parent, p ≤ q)
    {finished : List (Option Nat × Node)} (h : AreGathered entries (id + 1) finished)
    (source : String) (bytes : List UInt8) :
    AreGathered ((row, id) :: entries) id (gather source bytes (row, id) finished) := by
  have hsplit := partition_of_falls h.above h.falls
  have hothers : ∀ f ∈ finished.filter (fun f => !(f.1 == some id)),
      f ∈ finished ∧ ∀ p ∈ f.1, p < id := by
    intro f hf
    obtain ⟨hmem, hother⟩ := List.mem_filter.mp hf
    refine ⟨hmem, fun p hp => ?_⟩
    have hlt := h.above f hmem p hp
    have hne : p ≠ id := by
      intro hpid
      rw [Option.mem_def.mp hp, hpid] at hother
      simp at hother
    omega
  simp only [gather, List.partition_eq_filter_filter]
  constructor
  case numbers =>
    rw [List.map_cons, ← h.numbers, ← congrArg numbersIn hsplit]
    simp only [numbersIn, List.flatMap_cons, List.flatMap_append, Node.numbers, Node.preorder,
      List.map_cons, Node.map_preorderAll, List.flatMap_map, List.cons_append]
    rfl
  case parents =>
    intro f hf
    rcases List.mem_cons.mp hf with rfl | hf
    · exact ⟨(row, id), List.mem_cons_self .., rfl⟩
    · obtain ⟨e, he, hparent⟩ := h.parents f (hothers f hf).1
      exact ⟨e, List.mem_cons_of_mem _ he, hparent⟩
  case above =>
    intro f hf
    rcases List.mem_cons.mp hf with rfl | hf
    · exact hafter
    · exact (hothers f hf).2
  case falls =>
    refine List.pairwise_cons.mpr ⟨fun f hf p hp => ?_, h.falls.filter _⟩
    obtain ⟨hmem, hlt⟩ := hothers f hf
    obtain ⟨e, he, hparent⟩ := h.parents f hmem
    exact hnested e he p (hparent ▸ hp) (hlt p hp)

theorem areGathered_foldr (source : String) (bytes : List UInt8) (rows : List Row) (start : Nat)
    (hafter : ∀ e ∈ rows.zipIdx start, ∀ p ∈ e.1.parent, p < e.2)
    (hnested : (rows.zipIdx start).Pairwise fun d e =>
      ∀ p ∈ e.1.parent, p < d.2 → ∃ q ∈ d.1.parent, p ≤ q) :
    AreGathered (rows.zipIdx start) start
      ((rows.zipIdx start).foldr (gather source bytes) []) := by
  induction rows generalizing start with
  | nil => exact ⟨rfl, fun f hf => (nomatch hf), fun f hf => (nomatch hf), .nil⟩
  | cons row rest ih =>
    rw [List.zipIdx_cons] at hafter hnested ⊢
    obtain ⟨hfirst, hrest⟩ := List.pairwise_cons.mp hnested
    have hgathered := ih (start + 1) (fun e he => hafter e (List.mem_cons_of_mem _ he)) hrest
    exact hgathered.cons (hafter _ (List.mem_cons_self ..)) hfirst source bytes

theorem Node.pairwise_numbers {source : String} {rows : List Row} {root : Node}
    (h : Node.ofRows? source rows = some root) (hrows : InPreorder rows) :
    root.numbers.Pairwise (· < ·) := by
  obtain ⟨⟨parent, n⟩, hfound, rfl⟩ := Option.map_eq_some_iff.mp h
  have hall := areGathered_foldr source source.toUTF8.toList rows 0 hrows.after hrows.nested
  have hgrow : (numbersIn (rows.zipIdx.foldr (gather source source.toUTF8.toList) [])).Pairwise
      (· < ·) := by
    rw [hall.numbers, List.zipIdx_map_snd]
    exact List.pairwise_lt_range'
  exact (List.pairwise_flatMap.mp hgrow).1 _ (List.mem_of_find?_eq_some hfound)

namespace Cursor

/-! ### Visits -/

/-- The places still to be visited when the given ones stand on the stack. -/
def pending (stack : List Cursor) : List Cursor := stack.flatMap preorder

-- One visit takes the first of them and leaves the others as they are.
theorem pending_cons (c : Cursor) (stack : List Cursor) :
    pending (c :: stack) = c :: pending (c.namedChildren ++ stack) := by
  rw [pending, pending, List.flatMap_cons, List.flatMap_append, preorder_eq, List.cons_append]

theorem drain_eq_take (filter : KindFilter) (visits : Nat) (stack : List Cursor) :
    drain filter visits stack =
      ((pending stack).take visits).filter fun d => filter.keeps d.kind := by
  induction visits generalizing stack with
  | zero => rfl
  | succ visits ih =>
    cases stack with
    | nil => rfl
    | cons c rest =>
      rw [pending_cons, List.take_succ_cons, List.filter_cons, ← ih]
      rfl

/-! ### Numbers of the places visited -/

theorem preorder_sublist_of_mem {n : Node} {ns : List Node} (h : n ∈ ns) :
    n.preorder.Sublist (Node.preorderAll ns) := by
  induction ns with
  | nil => cases h
  | cons m rest ih =>
    rw [Node.preorderAll]
    rcases List.mem_cons.mp h with rfl | h
    · exact List.sublist_append_left _ _
    · exact (ih h).trans (List.sublist_append_right _ _)

theorem Contains.preorder_sublist {c d : Cursor} (h : c.Contains d) :
    d.node.preorder.Sublist c.node.preorder := by
  induction h with
  | refl => exact .refl _
  | @tail e d _ hstep ih =>
    refine List.Sublist.trans ?_ ih
    obtain ⟨child, hchild, rfl⟩ := isChild_iff.mp hstep
    obtain ⟨⟨label, children⟩, above⟩ := e
    rw [Node.preorder]
    exact (preorder_sublist_of_mem hchild).cons _

mutual

theorem map_node_preorderFrom (above : List Node) :
    ∀ n : Node, ((preorderFrom above n).map node).Sublist n.preorder
  | .mk label children => by
    rw [preorderFrom, List.map_cons, Node.preorder]
    exact (map_node_preorderAmong _ children).cons_cons _

theorem map_node_preorderAmong (above : List Node) :
    ∀ ns : List Node, ((preorderAmong above ns).map node).Sublist (Node.preorderAll ns)
  | [] => .refl _
  | n :: rest => by
    rw [preorderAmong, Node.preorderAll]
    split
    · rw [List.map_append]
      exact (map_node_preorderFrom above n).append (map_node_preorderAmong above rest)
    · exact (map_node_preorderAmong above rest).trans (List.sublist_append_right _ _)

end

theorem map_id_descendants {root : Node} {c : Cursor} (hc : Within root c) (filter : KindFilter) :
    ((c.descendants filter).map id).Sublist root.numbers := by
  have hnodes : ((c.descendants filter).map node).Sublist root.preorder := by
    rw [descendants_eq]
    exact (List.filter_sublist.map node).trans
      ((map_node_preorderFrom c.above c.node).trans hc.preorder_sublist)
  have hids := hnodes.map fun n => n.label.id
  rw [List.map_map] at hids
  exact hids

/-- What a walk from a place comes to whose kinds are limited by the filter. -/
structure IsWalk (root : Node) (c : Cursor) (filter : KindFilter) (visited : List Cursor) :
    Prop where
  steps : ∀ visits, drain filter visits [c] =
    (c.preorder.take visits).filter fun d => filter.keeps d.kind
  ordered : visited = c.preorder.filter fun d => filter.keeps d.kind
  filtered : visited = (c.descendants none).filter fun d => filter.keeps d.kind
  reached : ∀ d, d ∈ visited ↔ c.Reaches d ∧ filter.keeps d.kind = true
  once : (visited.map id).Nodup
  numbered : ∀ source rows, Node.ofRows? source rows = some root → InPreorder rows →
    (visited.map id).Pairwise (· < ·)

/-- A walk with a stack comes to what named children lead to, in document order and once each. -/
theorem descendants_in_document_order {root : Node} (hroot : root.IsNumbered) {c : Cursor}
    (hc : Within root c) (filter : KindFilter) : IsWalk root c filter (c.descendants filter) := by
  have hids := map_id_descendants hc filter
  constructor
  case steps =>
    intro visits
    rw [drain_eq_take, pending, List.flatMap_singleton]
  case ordered => exact descendants_eq filter c
  case filtered => rw [descendants_none, descendants_eq]
  case reached => exact fun d => mem_descendants
  case once => exact hids.nodup hroot
  case numbered => exact fun source rows h hrows => (Node.pairwise_numbers h hrows).sublist hids

/-- The rows of a call with a comment, whose closing bracket is missing. -/
def walkedRows : List Row :=
  let row (parent : Nat) (kind : String) (start stop : Nat) (named missing : Bool) : Row :=
    ⟨some parent, kind, start, stop, none, named, missing⟩
  [⟨none, "program", 0, 10, none, true, false⟩, row 0 "expression_statement" 0 10 true false,
    row 1 "call_expression" 0 10 true false, row 2 "identifier" 0 1 true false,
    row 2 "arguments" 1 10 true false, row 4 "comment" 2 6 true false,
    row 4 "parenthesized_expression" 6 9 true false, row 6 "identifier" 7 8 true false,
    row 6 ")" 9 9 false true, row 4 "identifier" 9 10 true false]

def walked : Node := (Node.ofRows? "f(/**/(a,b" walkedRows).get rfl

/-- The identifiers are found under the kinds that are left out, and in their order. -/
theorem descendants_in_document_order_limited :
    walked.IsNumbered ∧ Within walked (ofRoot walked) ∧ InPreorder walkedRows ∧
      ((ofRoot walked).descendants (some ["identifier"])).map id = [3, 7, 9] ∧
      (((ofRoot walked).descendants none).map id).Pairwise (· < ·) := by
  have hrows : Node.ofRows? "f(/**/(a,b" walkedRows = some walked := (Option.some_get _).symm
  have hroot : walked.IsNumbered := Node.isNumbered_of_ofRows? hrows
  have hc : Within walked (ofRoot walked) := .refl
  have horder : InPreorder walkedRows := ⟨by decide, by decide⟩
  have hlimited := descendants_in_document_order hroot hc (some ["identifier"])
  refine ⟨hroot, hc, horder, ?_, ?_⟩
  · rw [hlimited.ordered]
    decide +kernel
  · exact (descendants_in_document_order hroot hc none).numbered _ _ hrows horder

end Cursor

end ComponentAtlas.SourceTree
