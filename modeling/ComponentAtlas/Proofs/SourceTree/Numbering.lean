import Mathlib.Data.List.Nodup
import ComponentAtlas.Proofs.SourceTree.Places
import ComponentAtlas.SourceTree.Table

/-!
# Numbered trees

The nodes of a tree that is read from a table have numbers of their own, so that
a number tells a place from all others. They lie in the source where their rows do.
-/

namespace ComponentAtlas.SourceTree

namespace Node

def numbers (n : Node) : List Nat := n.preorder.map fun m => m.label.id

/-- No two nodes of the tree have the same number. -/
def IsNumbered (n : Node) : Prop := n.numbers.Nodup

theorem map_preorderAll {α : Type} (f : Node → α) (ns : List Node) :
    (preorderAll ns).map f = ns.flatMap fun n => n.preorder.map f := by
  induction ns with
  | nil => rfl
  | cons n rest ih => rw [preorderAll, List.map_append, ih, List.flatMap_cons]

end Node

theorem Cursor.eq_of_id_eq {root : Node} (hroot : root.IsNumbered) {c d : Cursor}
    (hc : Within root c) (hd : Within root d) (h : c.id = d.id) : c = d := by
  have hnodup : ((placesFrom [] root).map Cursor.id).Nodup := by
    rw [Node.IsNumbered, Node.numbers, ← map_node_placesFrom [] root, List.map_map] at hroot
    exact hroot
  exact List.inj_on_of_nodup_map hnodup hc.mem_places hd.mem_places h

/-! ### Trees of tables -/

def numbersIn (finished : List (Option Nat × Node)) : List Nat :=
  finished.flatMap fun f => f.2.numbers

def labelsIn (finished : List (Option Nat × Node)) : List Label :=
  finished.flatMap fun f => f.2.preorder.map Node.label

theorem labelsIn_gather (source : String) (bytes : List UInt8) (row : Row) (id : Nat)
    (finished : List (Option Nat × Node)) :
    (labelsIn (gather source bytes (row, id) finished)).Perm
      (row.label source bytes id :: labelsIn finished) := by
  simp only [gather, List.partition_eq_filter_filter, labelsIn, List.flatMap_cons, Node.preorder,
    List.map_cons, Node.map_preorderAll, List.flatMap_map, List.cons_append]
  rw [← List.flatMap_append]
  exact ((List.filter_append_perm _ finished).flatMap_right _).cons _

theorem labelsIn_foldr (source : String) (bytes : List UInt8) (entries : List (Row × Nat)) :
    (labelsIn (entries.foldr (gather source bytes) [])).Perm
      (entries.map fun entry => entry.1.label source bytes entry.2) := by
  induction entries with
  | nil => exact .refl _
  | cons entry rest ih => exact (labelsIn_gather ..).trans (ih.cons _)

theorem numbersIn_foldr (source : String) (bytes : List UInt8) (entries : List (Row × Nat)) :
    (numbersIn (entries.foldr (gather source bytes) [])).Perm (entries.map Prod.snd) := by
  have hnumbers (finished : List (Option Nat × Node)) :
      (labelsIn finished).map Label.id = numbersIn finished := by
    simp only [labelsIn, numbersIn, List.map_flatMap, List.map_map]
    rfl
  have hperm := (labelsIn_foldr source bytes entries).map Label.id
  rw [hnumbers, List.map_map] at hperm
  exact hperm

theorem Node.isNumbered_of_ofRows? {source : String} {rows : List Row} {root : Node}
    (h : Node.ofRows? source rows = some root) : root.IsNumbered := by
  obtain ⟨⟨parent, n⟩, hfound, rfl⟩ := Option.map_eq_some_iff.mp h
  have hall := (numbersIn_foldr source source.toUTF8.toList rows.zipIdx).nodup_iff
  have hnodup : (rows.zipIdx.map Prod.snd).Nodup := by
    rw [List.zipIdx_map_snd]
    exact List.nodup_range'
  exact (List.nodup_flatMap.mp (hall.mpr hnodup)).1 _ (List.mem_of_find?_eq_some hfound)

/-- The node tells its place in the source, and the text there unless a character is cut. -/
structure Node.LiesIn (source : String) (n : Node) : Prop where
  place : n.label.first = .ofOffset source.toUTF8.toList n.label.first.offset
  text : ∀ before text after, source = before ++ text ++ after →
    n.label.first.offset = before.utf8ByteSize →
    n.label.last.offset = (before ++ text).utf8ByteSize → n.label.text? = some text

theorem Node.liesIn_of_ofRows? {source : String} {rows : List Row} {root n : Node}
    (h : Node.ofRows? source rows = some root) (hn : n ∈ root.preorder) : n.LiesIn source := by
  obtain ⟨⟨parent, top⟩, hfound, rfl⟩ := Option.map_eq_some_iff.mp h
  have hin : n.label ∈ labelsIn (rows.zipIdx.foldr (gather source source.toUTF8.toList) []) :=
    List.mem_flatMap.mpr ⟨_, List.mem_of_find?_eq_some hfound, List.mem_map_of_mem hn⟩
  rw [(labelsIn_foldr source source.toUTF8.toList rows.zipIdx).mem_iff] at hin
  obtain ⟨⟨row, id⟩, -, hlabel⟩ := List.mem_map.mp hin
  constructor
  case place => simp only [← hlabel, Row.label, Point.offset_ofOffset]
  case text =>
    intro before text after hsource hstart hstop
    simp only [← hlabel, Row.label, Point.offset_ofOffset] at hstart hstop ⊢
    rw [hsource, hstart, hstop, Text.slice?_between]

end ComponentAtlas.SourceTree
