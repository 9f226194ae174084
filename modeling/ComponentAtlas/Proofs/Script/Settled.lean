import ComponentAtlas.Proofs.Document.NormalForm
import ComponentAtlas.Script.Basic

/-!
# Normalizing twice

A record of values has a document that normalization leaves as it is. The page
of a script may hold more than values: descriptors that were handed out and
stored among the extra data. A second pass takes them apart into mappings of all
their attributes, and what it makes is in normal form. So a page is settled
exactly when taking its descriptors apart changes no extra datum; then no
descriptor lies in it, and it does not matter how descriptors are displayed.
-/

namespace ComponentAtlas.Script

namespace Desk

/-! ### Descriptors within items -/

def isDescriptor : Item → Bool
  | .entry .. | .method .. => true
  | _ => false

/-- No descriptor lies within some depth. -/
def isPlainWithin (desk : Desk) : (depth : Nat) → Item → Bool
  | 0, item => !isDescriptor item
  | depth + 1, item => !isDescriptor item && (desk.parts item).all (desk.isPlainWithin depth)

theorem displayTo_of_isPlainWithin (f g : Form) (desk : Desk) (depth : Nat) (item : Item)
    (he : desk.endsWithin depth item = true) (hp : desk.isPlainWithin depth item = true) :
    desk.displayTo f (depth + 1) item = desk.displayTo g (depth + 1) item := by
  induction depth generalizing item with
  | zero =>
    cases item with
    | value v => rfl
    | list number =>
      have hnil : desk.items number = [] := by simpa [endsWithin, parts] using he
      simp only [displayTo, hnil, List.map_nil]
    | props number keys =>
      have hnil : keys = [] := by simpa [endsWithin, parts] using he
      simp only [displayTo, hnil, List.map_nil]
    | entry number key => simp [isPlainWithin, isDescriptor] at hp
    | method number name => simp [isPlainWithin, isDescriptor] at hp
  | succ depth ih =>
    simp only [endsWithin, List.all_eq_true] at he
    simp only [isPlainWithin, Bool.and_eq_true, List.all_eq_true] at hp
    cases item with
    | value v => rfl
    | list number =>
      simp only [displayTo, Value.array.injEq]
      refine List.map_congr_left ?_
      intro x hx
      exact ih x (he x hx) (hp.2 x hx)
    | props number keys =>
      rw [displayTo, displayTo, Value.object.injEq]
      refine List.map_congr_left ?_
      intro key hkey
      have hpart : Item.entry number key ∈ desk.parts (.props number keys) :=
        List.mem_map.mpr ⟨key, hkey, rfl⟩
      rw [ih _ (he _ hpart) (hp.2 _ hpart)]
    | entry number key => simp [isDescriptor] at hp
    | method number name => simp [isDescriptor] at hp

theorem isPlainWithin_of_displayTo (desk : Desk) (depth : Nat) (item : Item)
    (he : desk.endsWithin depth item = true)
    (h : desk.displayTo .marked (depth + 1) item = desk.displayTo .full (depth + 1) item) :
    desk.isPlainWithin depth item = true := by
  induction depth generalizing item with
  | zero =>
    cases item with
    | entry number key =>
      simp [displayTo, Form.marked, Form.full, Record.PropDescriptor.toValue] at h
    | method number name =>
      simp [displayTo, Form.marked, Form.full, Record.MethodDescriptor.toValue] at h
    | _ => rfl
  | succ depth ih =>
    simp only [endsWithin, List.all_eq_true] at he
    simp only [isPlainWithin, Bool.and_eq_true, List.all_eq_true]
    cases item with
    | value v => exact ⟨rfl, nofun⟩
    | list number =>
      rw [displayTo, displayTo, Value.array.injEq, List.map_inj_left] at h
      exact ⟨rfl, fun x hx => ih x (he x hx) (h x hx)⟩
    | props number keys =>
      rw [displayTo, displayTo, Value.object.injEq, List.map_inj_left] at h
      refine ⟨rfl, ?_⟩
      intro x hx
      obtain ⟨key, hkey, rfl⟩ := List.mem_map.mp hx
      exact ih _ (he _ hx) (Prod.mk.inj (h key hkey)).2
    | entry number key =>
      simp [displayTo, Form.marked, Form.full, Record.PropDescriptor.toValue] at h
    | method number name =>
      simp [displayTo, Form.marked, Form.full, Record.MethodDescriptor.toValue] at h

/-- Where taking its descriptors apart would not change an item, it is displayed alike always. -/
theorem display_eq_of_marked {desk : Desk} {item : Item} (hfinite : desk.isFinite item = true)
    (h : desk.display .marked item = desk.display .full item) (form : Form) :
    desk.display form item = desk.display .full item := by
  simp only [display, hfinite, if_true] at h ⊢
  have hplain := isPlainWithin_of_displayTo desk desk.deepest item hfinite h
  exact displayTo_of_isPlainWithin form .full desk desk.deepest item hfinite hplain

/-! ### Empty items -/

/-- Items are empty alike told apart and taken apart, and the empty ones are the same. -/
theorem isEmpty_displayTo (desk : Desk) (depth : Nat) (item : Item) :
    (desk.displayTo .marked (depth + 1) item).isEmpty =
        (desk.displayTo .full (depth + 1) item).isEmpty ∧
      ((desk.displayTo .full (depth + 1) item).isEmpty = true →
        desk.displayTo .marked (depth + 1) item = desk.displayTo .full (depth + 1) item) := by
  cases item with
  | value v => exact ⟨rfl, fun _ => rfl⟩
  | list number =>
    simp only [displayTo, Value.isEmpty, List.isEmpty_iff, List.map_eq_nil_iff]
    refine ⟨?_, fun hnil => by rw [hnil, List.map_nil, List.map_nil]⟩
    cases desk.items number <;> rfl
  | props number keys =>
    cases keys with
    | nil => exact ⟨rfl, fun _ => rfl⟩
    | cons key rest => exact ⟨rfl, fun h => absurd h Bool.false_ne_true⟩
  | entry number key => exact ⟨rfl, fun h => absurd h Bool.false_ne_true⟩
  | method number name => exact ⟨rfl, fun h => absurd h Bool.false_ne_true⟩

theorem exists_display_eq (desk : Desk) (item : Item) :
    ∃ depth, ∀ form, desk.display form item = desk.displayTo form (depth + 1) item := by
  by_cases h : desk.isFinite item = true
  · exact ⟨desk.deepest, fun form => by rw [display, if_pos h]⟩
  · exact ⟨2, fun form => by rw [display, if_neg h, outer]⟩

theorem isEmpty_display (desk : Desk) (item : Item) :
    (desk.display .marked item).isEmpty = (desk.display .full item).isEmpty ∧
      ((desk.display .full item).isEmpty = true →
        desk.display .marked item = desk.display .full item) := by
  obtain ⟨depth, h⟩ := desk.exists_display_eq item
  rw [h, h]
  exact desk.isEmpty_displayTo depth item

/-- Where cleaning leaves the same, it is the same data that are taken apart and told apart. -/
theorem display_eq_of_cleanExtra {desk : Desk} {extra : Keyed Key Item}
    (h : Draft.cleanExtra (extra.map fun e => (e.1, desk.display .marked e.2)) =
      Draft.cleanExtra (extra.map fun e => (e.1, desk.display .full e.2))) :
    ∀ e ∈ extra, desk.display .marked e.2 = desk.display .full e.2 := by
  simp only [Draft.cleanExtra, List.filter_map, Function.comp_def, isEmpty_display] at h
  intro e he
  by_cases hempty : (desk.display .full e.2).isEmpty = true
  · exact (desk.isEmpty_display e.2).2 hempty
  · have hkept : e ∈ extra.filter fun e => !(desk.display .full e.2).isEmpty :=
      List.mem_filter.mpr ⟨he, by simp [hempty]⟩
    exact (Prod.mk.inj (List.map_inj_left.mp h e hkept)).2

end Desk

/-! ### Pages -/

theorem page_eq_ok {trim : Bool} {desk : Desk} {made : Page} (h : page trim desk = .ok made) :
    documentIn .published trim desk = .ok made.document ∧
      made.kept = documentIn .marked trim desk ∧ made.dumped = dump trim desk := by
  obtain ⟨-, -, h⟩ := bind_eq_ok.mp h
  obtain ⟨document, hdocument, h⟩ := bind_eq_ok.mp h
  cases h
  exact ⟨hdocument, rfl, rfl⟩

theorem dump_eq_ok {trim : Bool} {desk : Desk} {dumped : Document} :
    dump trim desk = .ok dumped ↔
      (∀ e ∈ desk.record.extra, desk.isFinite e.2 = true) ∧
        documentIn .full trim desk = .ok dumped := by
  unfold dump
  split
  · rename_i hfinite
    exact ⟨fun h => ⟨List.all_eq_true.mp hfinite, h⟩, fun h => h.2⟩
  · rename_i hfinite
    exact ⟨nofun, fun h => absurd (List.all_eq_true.mpr h.1) hfinite⟩

/-- Another pass leaves what the descriptors of a page are taken apart to. -/
theorem again_eq_ok {trim : Bool} {desk : Desk} {made : Page} (h : page trim desk = .ok made)
    {again : Document} : made.again trim = .ok again ↔ dump trim desk = .ok again := by
  rw [Page.again, (page_eq_ok h).2.2, bind_eq_ok]
  have hnormal {dumped : Document} (hdump : dump trim desk = .ok dumped) :
      dumped.renormalize trim = .ok dumped :=
    Document.renormalize_of_isNormal (Draft.isNormal_of_normalize desk.view (dump_eq_ok.mp hdump).2)
  constructor
  · intro hagain
    obtain ⟨dumped, hdump, hrenormalized⟩ := hagain
    rw [hnormal hdump] at hrenormalized
    exact Except.ok.inj hrenormalized ▸ hdump
  · intro hdump
    exact ⟨again, hdump, hnormal hdump⟩

/-- What another pass over a page makes is the page, as far as its data are told apart. -/
theorem isSettled_iff_exists {trim : Bool} {page : Page} :
    page.isSettled trim = true ↔ ∃ again, page.kept = .ok again ∧ page.again trim = .ok again ∧
      again.toJson none = page.document.toJson none := by
  unfold Page.isSettled
  cases page.kept with
  | error failure => simp
  | ok kept =>
    cases page.again trim with
    | error failure => simp
    | ok again =>
      simp only [Bool.and_eq_true, decide_eq_true_eq, Except.ok.injEq, exists_eq_left']
      exact and_congr_right fun hsame => by rw [hsame]

/--
Normalizing the document of a record a second time gives the same document, with
the same slots and the same text. For the page of a script this holds exactly
when every extra datum ends and has no descriptor that a second pass would take
apart.
-/
theorem normalize_twice_iff (trim : Bool) :
    (∀ steps d, Document.ofRecord trim (Record.empty.runAll steps) = .ok d →
      ∃ again, d.renormalize trim = .ok again ∧ again = d ∧ again.slots = d.slots ∧
        ∀ layout, again.toJson layout = d.toJson layout) ∧
    ∀ desk made, page trim desk = .ok made →
      (made.isSettled trim = true ↔ ∀ e ∈ desk.record.extra,
        desk.isFinite e.2 = true ∧ desk.display .marked e.2 = desk.display .full e.2) := by
  refine ⟨?_, ?_⟩
  · intro steps d h
    have hn : d.IsNormal trim := Draft.isNormal_of_normalize .values h
    exact ⟨d, Document.renormalize_of_isNormal hn, rfl, rfl, fun _ => rfl⟩
  · intro desk made h
    obtain ⟨hdocument, hkept, -⟩ := page_eq_ok h
    rw [isSettled_iff_exists]
    simp only [again_eq_ok h, hkept, dump_eq_ok]
    constructor
    · intro hsettled
      obtain ⟨again, hmarked, ⟨hfinite, hfull⟩, -⟩ := hsettled
      have hextra := (Draft.cleanExtra_of_normalize _ hmarked).trans
        (Draft.cleanExtra_of_normalize _ hfull).symm
      exact fun e he => ⟨hfinite e he, Desk.display_eq_of_cleanExtra hextra e he⟩
    · intro hplain
      have hsame (form : Desk.Form) : draft form desk = draft .full desk := by
        have hextra : (desk.record.extra.map fun e => (e.1, desk.display form e.2)) =
            desk.record.extra.map fun e => (e.1, desk.display .full e.2) := by
          refine List.map_congr_left fun e he => ?_
          rw [Desk.display_eq_of_marked (hplain e he).1 (hplain e he).2 form]
        simp only [draft, hextra]
      have hdocuments (form : Desk.Form) : documentIn form trim desk = .ok made.document := by
        rw [← hdocument, documentIn, documentIn, hsame form, hsame .published]
      exact ⟨made.document, hdocuments .marked, ⟨fun e he => (hplain e he).1, hdocuments .full⟩,
        rfl⟩

/-- A script that stores the mapping of its props among the extra data. -/
def propsKept : Steps :=
  [.entry .props (.literal (.value (.text "p")))
      (some (.literal (.value (.text "required")), .literal (.value (.bool true)))),
    .set (.literal (.value (.text "x"))) (.slot (.text "props"))]

def deskAfter (steps : Steps) : Desk :=
  (run (.value (.text "d")) steps (Desk.empty.start (.text "d"))).1

/-- The props that a script stores are not settled; a list that a record stores is. -/
theorem normalize_twice_iff_propsKept :
    (∃ d, Document.ofRecord true (Record.empty.runAll
        [.slot (.text "description") (.text " d "), .set (.text "k") (.array [.int 1])]) = .ok d ∧
      d.renormalize true = .ok d) ∧
    ∃ made, page true (deskAfter propsKept) = .ok made ∧ made.isSettled true = false ∧
      ¬ ∀ e ∈ (deskAfter propsKept).record.extra, (deskAfter propsKept).isFinite e.2 = true ∧
        (deskAfter propsKept).display .marked e.2 = (deskAfter propsKept).display .full e.2 := by
  refine ⟨⟨_, rfl, ?_⟩, _, rfl, rfl, ?_⟩
  · obtain ⟨again, ha, rfl, -⟩ := (normalize_twice_iff true).1
      [.slot (.text "description") (.text " d "), .set (.text "k") (.array [.int 1])] _ rfl
    exact ha
  · intro h
    have hs := ((normalize_twice_iff true).2 (deskAfter propsKept) _ rfl).mpr h
    cases hs

end ComponentAtlas.Script
