import ComponentAtlas.Proofs.SourceTree.Comments

/-!
# Tables without comments

Leaving the comments out of a table moves the rows after them up. Where comments
have no rows below them and no names, the table that is left is that of the
uncommented tree, each of whose nodes has the number of its new row.
-/

namespace ComponentAtlas.SourceTree

def Row.isComment (row : Row) : Bool := row.kind == "comment"

/-- The row that the row with this number becomes when the comments before it are left out. -/
def numberAmong (rows : List Row) (i : Nat) : Nat := (rows.take i).countP fun row => !row.isComment

def withoutComments (rows : List Row) : List Row :=
  (rows.filter fun row => !row.isComment).map fun row =>
    { row with parent := row.parent.map (numberAmong rows) }

/-- No row is below a comment, and no comment is held under a name. -/
structure HasPlainComments (rows : List Row) : Prop where
  leaves : ∀ row ∈ rows, ∀ i, row.parent = some i → ∀ above, rows[i]? = some above →
    above.isComment = false
  unheld : ∀ row ∈ rows, row.isComment = true → row.field = none

instance (rows : List Row) : Decidable (HasPlainComments rows) :=
  decidable_of_iff
    ((∀ row ∈ rows, ∀ above ∈ row.parent.bind fun i => rows[i]?, above.isComment = false) ∧
      ∀ row ∈ rows, row.isComment = true → row.field = none)
    ⟨fun h => ⟨fun row hrow i hi above habove =>
        h.1 row hrow above (Option.bind_eq_some_iff.mpr ⟨i, hi, habove⟩), h.2⟩,
      fun h => ⟨fun row hrow above habove =>
        have ⟨i, hi, hrows⟩ := Option.bind_eq_some_iff.mp habove
        h.leaves row hrow i hi above hrows, h.unheld⟩⟩

/-! ### New numbers -/

theorem zipIdx_filter {α : Type} (p : α → Bool) (l : List α) :
    (l.filter p).zipIdx =
      (l.zipIdx.filter fun e => p e.1).map fun e => (e.1, (l.take e.2).countP p) := by
  have hsucc (l : List α) : l.zipIdx 1 = l.zipIdx.map fun e => (e.1, e.2 + 1) := List.zipIdx_succ
  induction l with
  | nil => rfl
  | cons a rest ih =>
    rw [List.zipIdx_cons, Nat.zero_add, hsucc, List.filter_cons, List.filter_cons]
    cases h : p a with
    | true =>
      simp [hsucc, ih, List.filter_map, Function.comp_def, h]
    | false =>
      simp [ih, List.filter_map, Function.comp_def, h]

theorem zipIdx_withoutComments (rows : List Row) :
    (withoutComments rows).zipIdx = (rows.zipIdx.filter fun e => !e.1.isComment).map fun e =>
      ({ e.1 with parent := e.1.parent.map (numberAmong rows) }, numberAmong rows e.2) := by
  rw [withoutComments, List.zipIdx_map, zipIdx_filter, List.map_map]
  rfl

theorem numberAmong_lt {rows : List Row} {i j : Nat} {row : Row} (hrow : rows[i]? = some row)
    (hkept : row.isComment = false) (hij : i < j) : numberAmong rows i < numberAmong rows j := by
  have hnext : (rows.take (i + 1)).countP (fun row => !row.isComment) = numberAmong rows i + 1 := by
    rw [List.take_add_one, hrow, List.countP_append, numberAmong]
    simp [hkept]
  have hsub : (rows.take (i + 1)).Sublist (rows.take j) := by
    have htake := List.take_sublist (i + 1) (rows.take j)
    rwa [List.take_take, Nat.min_eq_left hij] at htake
  calc numberAmong rows i < (rows.take (i + 1)).countP fun row => !row.isComment := by omega
    _ ≤ numberAmong rows j := hsub.countP_le

theorem HasPlainComments.eq_of_numberAmong_eq {rows : List Row} (h : HasPlainComments rows)
    {row below : Row} {i p : Nat} (hrow : rows[i]? = some row) (hkept : row.isComment = false)
    (hbelow : below ∈ rows) (hp : below.parent = some p)
    (heq : numberAmong rows p = numberAmong rows i) : p = i := by
  rcases Nat.lt_trichotomy p i with hlt | rfl | hlt
  · obtain ⟨hi, -⟩ := List.getElem?_eq_some_iff.mp hrow
    have habove : rows[p]? = some rows[p] := List.getElem?_eq_getElem (Nat.lt_trans hlt hi)
    have hless := numberAmong_lt habove (h.leaves below hbelow p hp _ habove) hlt
    omega
  · rfl
  · have hless := numberAmong_lt hrow hkept hlt
    omega

/-! ### Finished nodes -/

def uncommentedFinished (number : Nat → Nat) (finished : List (Option Nat × Node)) :
    List (Option Nat × Node) :=
  (finished.filter fun f => !f.2.isRemark).map fun f => (f.1.map number, f.2.uncommented number)

theorem filter_uncommentedFinished (number : Nat → Nat) (p q : Option Nat → Bool)
    {finished : List (Option Nat × Node)} (h : ∀ f ∈ finished, p (f.1.map number) = q f.1) :
    (uncommentedFinished number finished).filter (fun f => p f.1) =
      uncommentedFinished number (finished.filter fun f => q f.1) := by
  rw [uncommentedFinished, List.filter_map, uncommentedFinished, List.filter_filter,
    List.filter_filter]
  refine congrArg _ (List.filter_congr fun f hf => ?_)
  rw [Function.comp_apply, h f hf, Bool.and_comm]

theorem snd_uncommentedFinished (number : Nat → Nat) (finished : List (Option Nat × Node)) :
    (uncommentedFinished number finished).map Prod.snd =
      Node.uncommentedAll number (finished.map Prod.snd) := by
  rw [Node.uncommentedAll_eq, uncommentedFinished, List.filter_map, List.map_map, List.map_map]
  rfl

variable (source : String) (bytes : List UInt8)

theorem gather_eq (row : Row) (i : Nat) (finished : List (Option Nat × Node)) :
    gather source bytes (row, i) finished =
      (row.parent, .mk (row.label source bytes i)
        ((finished.filter fun f => f.1 == some i).map Prod.snd)) ::
        finished.filter fun f => !(f.1 == some i) := by
  rw [gather, List.partition_eq_filter_filter]
  rfl

theorem parent_of_mem_foldr {entries : List (Row × Nat)} {f : Option Nat × Node}
    (h : f ∈ entries.foldr (gather source bytes) []) : ∃ e ∈ entries, f.1 = e.1.parent := by
  induction entries with
  | nil => cases h
  | cons entry rest ih =>
    rw [List.foldr_cons, gather_eq] at h
    rcases List.mem_cons.mp h with rfl | h
    · exact ⟨entry, List.mem_cons_self .., rfl⟩
    · obtain ⟨e, he, hf⟩ := ih (List.mem_of_mem_filter h)
      exact ⟨e, List.mem_cons_of_mem _ he, hf⟩

/-- A comment that holds no node is left out. -/
theorem uncommentedFinished_gather_comment (number : Nat → Nat) {row : Row} {i : Nat}
    {finished : List (Option Nat × Node)} (hrow : row.isComment = true) (hfield : row.field = none)
    (hleaf : ∀ f ∈ finished, f.1 ≠ some i) :
    uncommentedFinished number (gather source bytes (row, i) finished) =
      uncommentedFinished number finished := by
  have hchildren : (finished.filter fun f => f.1 == some i) = [] :=
    List.filter_eq_nil_iff.mpr fun f hf => by simpa using hleaf f hf
  have hothers : (finished.filter fun f => !(f.1 == some i)) = finished :=
    List.filter_eq_self.mpr fun f hf => by simpa using hleaf f hf
  have hremark : (Node.mk (row.label source bytes i) []).isRemark = true := by
    rw [Node.isRemark_iff]
    exact ⟨beq_iff_eq.mp hrow, hfield, rfl⟩
  rw [gather_eq, hchildren, hothers, List.map_nil, uncommentedFinished, List.filter_cons, hremark,
    Bool.not_true, if_neg Bool.false_ne_true, uncommentedFinished]

/-- A node that is no comment takes the same children, without the remarks among them. -/
theorem uncommentedFinished_gather (number : Nat → Nat) {row : Row} {i : Nat}
    {finished : List (Option Nat × Node)} (hrow : row.isComment = false)
    (hnumber : ∀ f ∈ finished, f.1.map number = some (number i) → f.1 = some i) :
    uncommentedFinished number (gather source bytes (row, i) finished) =
      gather source bytes ({ row with parent := row.parent.map number }, number i)
        (uncommentedFinished number finished) := by
  have hsame : ∀ f ∈ finished, (f.1.map number == some (number i)) = (f.1 == some i) := by
    intro f hf
    rw [Bool.eq_iff_iff, beq_iff_eq, beq_iff_eq]
    exact ⟨hnumber f hf, fun h => by rw [h]; rfl⟩
  have hkept (children : List Node) :
      (Node.mk (row.label source bytes i) children).isRemark = false := by
    rw [Bool.eq_false_iff, ne_eq, Node.isRemark_iff]
    rintro ⟨hkind, -⟩
    exact Bool.eq_false_iff.mp hrow (beq_iff_eq.mpr hkind)
  have hchildren := filter_uncommentedFinished number (· == some (number i))
    (· == some i) hsame
  have hothers := filter_uncommentedFinished number (fun f => !(f == some (number i)))
    (fun f => !(f == some i)) fun f hf => congrArg not (hsame f hf)
  rw [gather_eq, gather_eq, hchildren, hothers, snd_uncommentedFinished, uncommentedFinished,
    List.filter_cons, hkept, Bool.not_false, if_pos rfl, List.map_cons, Node.uncommented]
  rfl

/-- The finished nodes of the rows that stay are those of all rows, without remarks. -/
theorem HasPlainComments.foldr_gather {rows : List Row} (h : HasPlainComments rows)
    {entries : List (Row × Nat)} (hentries : ∀ e ∈ entries, rows[e.2]? = some e.1) :
    ((entries.filter fun e => !e.1.isComment).map fun e =>
      ({ e.1 with parent := e.1.parent.map (numberAmong rows) }, numberAmong rows e.2)).foldr
        (gather source bytes) [] =
      uncommentedFinished (numberAmong rows) (entries.foldr (gather source bytes) []) := by
  -- Rows are gathered from the last one on: the nodes below a row are finished before it.
  induction entries with
  | nil => rfl
  | cons entry rest ih =>
    obtain ⟨row, i⟩ := entry
    have hrow : rows[i]? = some row := hentries (row, i) (List.mem_cons_self ..)
    have hrest : ∀ e ∈ rest, rows[e.2]? = some e.1 := fun e he =>
      hentries e (List.mem_cons_of_mem _ he)
    have hparent : ∀ f ∈ rest.foldr (gather source bytes) [],
        ∃ below ∈ rows, f.1 = below.parent := by
      intro f hf
      obtain ⟨e, he, hparent⟩ := parent_of_mem_foldr source bytes hf
      exact ⟨e.1, List.mem_of_getElem? (hrest e he), hparent⟩
    rw [List.foldr_cons, List.filter_cons]
    cases hc : row.isComment with
    | true =>
      rw [Bool.not_true, if_neg Bool.false_ne_true, ih hrest]
      have hfield := h.unheld row (List.mem_of_getElem? hrow) hc
      refine (uncommentedFinished_gather_comment source bytes _ hc hfield fun f hf hfi => ?_).symm
      obtain ⟨below, hbelow, hparent⟩ := hparent f hf
      rw [h.leaves below hbelow i (hparent ▸ hfi) row hrow] at hc
      cases hc
    | false =>
      rw [Bool.not_false, if_pos rfl, List.map_cons, List.foldr_cons, ih hrest]
      refine (uncommentedFinished_gather source bytes _ hc fun f hf hfi => ?_).symm
      obtain ⟨below, hbelow, hparent⟩ := hparent f hf
      obtain ⟨p, hp, hnumber⟩ := Option.map_eq_some_iff.mp hfi
      rw [hp, h.eq_of_numberAmong_eq hrow hc hbelow (hparent ▸ hp) hnumber]

/-- The table without its comments is the table of the uncommented tree. -/
theorem HasPlainComments.ofRows?_withoutComments {rows : List Row} (h : HasPlainComments rows)
    {root : Node} (hrows : Node.ofRows? source rows = some root) (hkept : root.isRemark = false) :
    Node.ofRows? source (withoutComments rows) = some (root.uncommented (numberAmong rows)) := by
  have hentries : ∀ e ∈ rows.zipIdx, rows[e.2]? = some e.1 := fun e he =>
    List.mem_zipIdx_iff_getElem?.mp he
  obtain ⟨⟨parent, n⟩, hfound, rfl⟩ := Option.map_eq_some_iff.mp hrows
  obtain ⟨hroot, before, after, hsplit, hbefore⟩ := List.find?_eq_some_iff_append.mp hfound
  have hfirst : (uncommentedFinished (numberAmong rows)
      (rows.zipIdx.foldr (gather source source.toUTF8.toList) [])).find? (fun f => f.1.isNone) =
      some (parent.map (numberAmong rows), n.uncommented (numberAmong rows)) := by
    rw [hsplit, uncommentedFinished, List.filter_append, List.map_append, List.filter_cons, hkept,
      Bool.not_false, if_pos rfl, List.map_cons, List.find?_append, List.find?_eq_none.mpr,
      Option.none_or, List.find?_cons_of_pos]
    · simpa using hroot
    · intro f hf
      obtain ⟨g, hg, rfl⟩ := List.mem_map.mp hf
      simpa [← Option.isSome_iff_ne_none] using hbefore g (List.mem_of_mem_filter hg)
  rw [Node.ofRows?, zipIdx_withoutComments, h.foldr_gather source _ hentries, hfirst]
  rfl

end ComponentAtlas.SourceTree
