import ComponentAtlas.SourceTree.Damage

/-!
# The first damage

The damaged node that is found is the first in document order over all nodes,
unnamed ones among them. It is also the one that a walk finds which keeps the nodes
still to visit on a stack and stops at the first damaged one.
-/

namespace ComponentAtlas.SourceTree.Node

/-- The node stands for text that makes no sense, or for text that the source lacks. -/
def IsDamage (n : Node) : Prop := n.kind = "ERROR" ∨ n.label.missing = true

/-- The node is damaged and none before it is; or no node is damaged and there is none. -/
def IsFirstDamage (root : Node) : Option Node → Prop
  | some n => n.IsDamage ∧
      ∃ before after, root.preorder = before ++ n :: after ∧ ∀ m ∈ before, ¬ m.IsDamage
  | none => ∀ m ∈ root.preorder, ¬ m.IsDamage

theorem isDamaged_iff {n : Node} : n.isDamaged = true ↔ n.IsDamage := by
  simp only [isDamaged, IsDamage, Bool.or_eq_true, beq_iff_eq]

theorem find?_isDamaged_iff {root : Node} {found : Option Node} :
    root.preorder.find? isDamaged = found ↔ root.IsFirstDamage found := by
  cases found with
  | some n =>
    simp only [List.find?_eq_some_iff_append, IsFirstDamage, Bool.not_eq_true', ← isDamaged_iff,
      Bool.not_eq_true]
  | none => simp only [List.find?_eq_none, IsFirstDamage, isDamaged_iff]

/-! ### Ways to find it -/

mutual

theorem firstDamage?_eq : ∀ n : Node, n.firstDamage? = n.preorder.find? isDamaged
  | .mk label children => by
    rw [firstDamage?, preorder, List.find?_cons, firstDamageAmong?_eq children]
    cases isDamaged (.mk label children) with
    | true => rfl
    | false => rfl

theorem firstDamageAmong?_eq : ∀ ns : List Node,
    firstDamageAmong? ns = (preorderAll ns).find? isDamaged
  | [] => rfl
  | n :: rest => by
    rw [firstDamageAmong?, preorderAll, List.find?_append, firstDamage?_eq n,
      firstDamageAmong?_eq rest]
    cases n.preorder.find? isDamaged with
    | some found => rfl
    | none => rfl

end

theorem sizeAll_append (ns ms : List Node) : sizeAll (ns ++ ms) = sizeAll ns + sizeAll ms := by
  induction ns with
  | nil => simp only [List.nil_append, sizeAll, Nat.zero_add]
  | cons n rest ih =>
    simp only [List.cons_append, sizeAll, ih]
    omega

theorem preorderAll_append (ns ms : List Node) :
    preorderAll (ns ++ ms) = preorderAll ns ++ preorderAll ms := by
  induction ns with
  | nil => rfl
  | cons n rest ih => simp only [List.cons_append, preorderAll, ih, List.append_assoc]

/-- Takes the node on top of the stack and puts its children there, the first of them uppermost. -/
def damageOnStack : List Node → Option Node
  | [] => none
  | .mk label children :: stack =>
    if isDamaged (.mk label children) then some (.mk label children)
    else damageOnStack (children ++ stack)
termination_by stack => sizeAll stack
decreasing_by
  rw [sizeAll_append, sizeAll, size]
  omega

theorem damageOnStack_eq (stack : List Node) :
    damageOnStack stack = (preorderAll stack).find? isDamaged := by
  -- What is still to be visited stands on the stack in document order.
  induction stack using damageOnStack.induct with
  | case1 => rw [damageOnStack, preorderAll, List.find?_nil]
  | case2 label children stack hdamaged =>
    rw [damageOnStack, if_pos hdamaged, preorderAll, preorder, List.cons_append,
      List.find?_cons_of_pos hdamaged]
  | case3 label children stack hsound ih =>
    rw [damageOnStack, if_neg hsound, ih, preorderAll_append, preorderAll, preorder,
      List.cons_append, List.find?_cons_of_neg hsound]

theorem damageOnStack_root (root : Node) : damageOnStack [root] = root.firstDamage? := by
  rw [damageOnStack_eq, firstDamage?_eq, preorderAll, preorderAll, List.append_nil]

end ComponentAtlas.SourceTree.Node
