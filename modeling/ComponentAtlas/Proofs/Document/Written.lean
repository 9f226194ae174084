import ComponentAtlas.Proofs.Document.Depth
import ComponentAtlas.Proofs.Json.Layouts

/-!
# Documents as texts

A document that can be written is written in every layout. Each of its texts is
read back as the value of the document, and they differ from each other in the
blanks outside strings only. How deep the document reaches decides whether it
can be written; nothing that its strings and numbers say does.
-/

namespace ComponentAtlas

namespace Document

theorem exists_write (d : Document) (layout : Json.Layout) :
    (∃ text, d.write layout = .ok text) ↔ d.written = .ok d := by
  constructor
  · intro h
    obtain ⟨text, htext⟩ := h
    exact ((write_eq_ok d layout text).mp htext).1
  · intro h
    exact ⟨d.toJson layout, (write_eq_ok d layout _).mpr ⟨h, rfl⟩⟩

theorem read?_of_write {d : Document} {layout : Json.Layout} {text : String}
    (h : d.write layout = .ok text) : Json.read? text = some d.toValue := by
  obtain ⟨-, rfl⟩ := (write_eq_ok d layout text).mp h
  exact Json.read?_print layout d.toValue

theorem squeeze_of_write {d : Document} {layout : Json.Layout} {text : String}
    (h : d.write layout = .ok text) : Json.squeeze text = d.toJson none := by
  obtain ⟨-, rfl⟩ := (write_eq_ok d layout text).mp h
  exact Json.squeeze_print layout d.toValue

/--
The texts of a document say what its value says. There is one for each layout
exactly when the document can be written, which is when no slot reaches too deep.
-/
theorem texts_agree (d : Document) :
    (d.written = .ok d ↔ ∀ r ∈ d.reaches, r.inner ≤ deepestLevel ∧ r.outer ≤ deepestLevel) ∧
      (∀ layout, (∃ text, d.write layout = .ok text) ↔ d.written = .ok d) ∧
      (∀ layout text, d.write layout = .ok text → Json.read? text = some d.toValue) ∧
      ∀ layout other text otherText, d.write layout = .ok text → d.write other = .ok otherText →
        Json.squeeze text = Json.squeeze otherText := by
  refine ⟨?depth, d.exists_write, fun _ _ => read?_of_write, ?blanks⟩
  case depth => rw [written_eq_ok, fault?_eq_none, and_iff_left rfl]
  case blanks =>
    intro layout other text otherText htext hother
    rw [squeeze_of_write htext, squeeze_of_write hother]

/-- A quote and a backslash in a description, with blanks before them and in the layout. -/
theorem texts_agree_quoted :
    Json.read? "\x7b\n  \"description\": \" \\\"\\\\\"\n\x7d" =
        some (.object [("description", .text " \"\\")]) ∧
      Json.squeeze "\x7b\n  \"description\": \" \\\"\\\\\"\n\x7d" =
        Json.squeeze "\x7b\"description\":\" \\\"\\\\\"\x7d" := by
  obtain ⟨-, -, hread, hsqueeze⟩ := texts_agree { description := some " \"\\" }
  exact ⟨hread (some 2) _ rfl, hsqueeze (some 2) none _ _ rfl rfl⟩

end Document

namespace Record

/--
A record is made into a document that reaches too deep for a text or a value to be
written, and for no document is there a layout with more blanks than a word counts.
-/
theorem texts_missing :
    (Bench.publication true ⟨empty.runAll (nestedSteps 299), none⟩ =
        .ok (Document.ofNested 299) ∧
      (∀ layout text, (Document.ofNested 299).write layout ≠ .ok text) ∧
      ∀ written, (Document.ofNested 299).written ≠ .ok written) ∧
    ∀ layout, Bench.layoutOf (.int 18446744073709551616) ≠ .ok layout := by
  have hdeep : Document.deepestLevel < 299 + 2 := by decide
  have hwritten := Document.not_written_ofNested hdeep
  have htext (layout : Json.Layout) (text : String) :
      (Document.ofNested 299).write layout ≠ .ok text := by
    intro h
    exact hwritten _ (((Document.ofNested 299).exists_write layout).mp ⟨text, h⟩)
  exact ⟨⟨publication_nested (by decide) true, htext, hwritten⟩, nofun⟩

end Record

end ComponentAtlas
