import Mathlib.Order.Filter.AtTopBot.Basic
import Mathlib.Order.Filter.Finite
import ComponentAtlas.Proofs.Data.Descent
import ComponentAtlas.Proofs.Path.Parts
import ComponentAtlas.SourceTree.Table

/-!
# Paths by recursion

A path is collected from the leaf to the root, with segments put in front of
those found before and the paths of keys turned round. It is the path that a
plain recursion over the parts of an expression gives, from the root to the
leaf, wherever that recursion comes to an end.
-/

namespace ComponentAtlas.Path

open Filter SourceTree

/-- The kinds of expressions that a path is made of. -/
def pathKinds : List String :=
  ["call_expression", "member_expression", "subscript_expression", "parenthesized_expression",
    "this", "object", "array"] ++ nameKinds ++ literalKinds

mutual

/-- The recursion gives an expression, which may be lost, these segments. -/
inductive IsPath (resolve : KeyResolver) : Option Cursor → List String → Prop
  | lost : IsPath resolve none []
  | call {c : Cursor} {path : List String} : c.kind = "call_expression" →
      IsPath resolve (c.child? "function") path → IsPath resolve (some c) path
  | member {c : Cursor} {path : List String} : c.kind = "member_expression" →
      IsPath resolve (c.child? "object") path →
      IsPath resolve (some c) (path ++ [textOf (c.child? "property")])
  | resolved {c k : Cursor} {path key : List String} : c.kind = "subscript_expression" →
      IsPath resolve (c.child? "object") path → resolve (c.child? "index") = some k →
      IsPath resolve (some k) key → IsPath resolve (some c) (path ++ key.reverse)
  | unresolved {c : Cursor} {path : List String} : c.kind = "subscript_expression" →
      IsPath resolve (c.child? "object") path → resolve (c.child? "index") = none →
      IsPath resolve (some c) (path ++ ["<computed>"])
  | parentheses {c : Cursor} {path : List String} : c.kind = "parenthesized_expression" →
      IsPath resolve c.content? path → IsPath resolve (some c) path
  | word {c : Cursor} : c.kind ∈ nameKinds ++ literalKinds → IsPath resolve (some c) [c.text]
  | self {c : Cursor} : c.kind = "this" → IsPath resolve (some c) ["this"]
  | object {c : Cursor} {texts : Cursor → String} : c.kind = "object" →
      (∀ m ∈ c.contents, IsMember resolve m (texts m)) →
      IsPath resolve (some c) ["\x7b" ++ ", ".intercalate (c.contents.map texts) ++ "\x7d"]
  | array {c : Cursor} {paths : Cursor → List String} : c.kind = "array" →
      (∀ e ∈ c.contents, IsPath resolve (some e) (paths e)) →
      IsPath resolve (some c)
        ["[" ++ ", ".intercalate (c.contents.map fun e => joinDots (paths e)) ++ "]"]
  | other {c : Cursor} : c.kind ∉ pathKinds → IsPath resolve (some c) []

/-- The recursion writes a member of an object literal so. -/
inductive IsMember (resolve : KeyResolver) : Cursor → String → Prop
  | pair {m : Cursor} {key value : List String} : m.kind = "pair" →
      IsKey resolve (m.child? "key") key → IsPath resolve (m.child? "value") value →
      IsMember resolve m (joinDots key ++ ": " ++ joinDots value)
  | shorthand {m : Cursor} : m.kind = "shorthand_property_identifier" →
      IsMember resolve m (m.text ++ ": " ++ m.text)
  | spread {m : Cursor} {path : List String} : m.kind = "spread_element" →
      IsPath resolve m.content? path → IsMember resolve m ("..." ++ joinDots path)
  | named {m : Cursor} {name : List String} :
      m.kind ∉ ["pair", "shorthand_property_identifier", "spread_element"] →
      IsKey resolve (m.child? "name") name → IsMember resolve m (joinDots name ++ ": ")

/-- The recursion gives the key of a member these segments. -/
inductive IsKey (resolve : KeyResolver) : Option Cursor → List String → Prop
  | lost : IsKey resolve none []
  | computed {k : Cursor} {path : List String} : k.kind = "computed_property_name" →
      IsPath resolve k.content? path → IsKey resolve (some k) path
  | plain {k : Cursor} {path : List String} : k.kind ≠ "computed_property_name" →
      IsPath resolve (some k) path → IsKey resolve (some k) path

end

/-! ### Kinds and forms -/

def Form.kinds : Form → List String
  | .call => ["call_expression"]
  | .member => ["member_expression"]
  | .subscript => ["subscript_expression"]
  | .parentheses => ["parenthesized_expression"]
  | .word => nameKinds ++ literalKinds
  | .self => ["this"]
  | .object => ["object"]
  | .array => ["array"]
  | .other => []

theorem Form.mem_kinds {kind : String} {form : Form} (h : Form.ofKind kind = form)
    (hother : form ≠ .other) : kind ∈ form.kinds := by
  subst h
  revert hother
  fun_cases Form.ofKind kind <;> simp_all [Form.kinds]

theorem Form.ofKind_of_mem {kind : String} (form : Form) (h : kind ∈ form.kinds) :
    Form.ofKind kind = form := by
  revert kind
  cases form <;> decide

theorem Form.ofKind_eq_other_iff {kind : String} :
    Form.ofKind kind = .other ↔ kind ∉ pathKinds := by
  have hkinds : ∀ form : Form, form.kinds ⊆ pathKinds := by
    intro form
    cases form <;> decide
  have hnone : ∀ kind ∈ pathKinds, Form.ofKind kind ≠ .other := by decide
  constructor
  · exact fun h hkind => hnone kind hkind h
  · intro h
    by_contra hother
    exact h (hkinds _ (Form.mem_kinds rfl hother))

variable {resolve : KeyResolver}

/-! ### What is collected in the end -/

/-- With enough steps the segments are collected in front of those found before. -/
def Settles (resolve : KeyResolver) (x : Option Cursor) (path : List String) : Prop :=
  ∀ᶠ fuel in atTop, ∀ found, collect resolve fuel x found = path ++ found

theorem Settles.of_step {c : Cursor} {path : List String}
    (h : ∀ᶠ fuel in atTop, ∀ found, collect resolve (fuel + 1) (some c) found = path ++ found) :
    Settles resolve (some c) path := by
  rw [Settles, ← map_add_atTop_eq_nat 1, eventually_map]
  exact h

theorem Settles.unique {x : Option Cursor} {path other : List String}
    (h : Settles resolve x path) (h' : Settles resolve x other) : path = other := by
  obtain ⟨fuel, hpath, hother⟩ := (h.and h').exists
  have hpath := hpath []
  rw [hother [], List.append_nil, List.append_nil] at hpath
  exact hpath.symm

theorem settles_none : Settles resolve none [] :=
  Eventually.of_forall fun _ found => collect_none found

theorem keyExpression_of_computed {k : Cursor} (h : k.kind = "computed_property_name") :
    keyExpression (some k) = k.content? :=
  if_pos h

theorem keyExpression_of_plain {k : Cursor} (h : k.kind ≠ "computed_property_name") :
    keyExpression (some k) = some k :=
  if_neg h

theorem eventually_forall_mem {α : Type} {l : List α} {P : Nat → α → Prop}
    (h : ∀ a ∈ l, ∀ᶠ n in atTop, P n a) : ∀ᶠ n in atTop, ∀ a ∈ l, P n a :=
  (eventually_all_finite l.finite_toSet).mpr h

-- One case for each constructor: steps that suffice for the parts suffice, with one more, for all.
mutual

theorem IsPath.settles {x : Option Cursor} {path : List String} :
    IsPath resolve x path → Settles resolve x path
  | .lost => settles_none
  | .call hkind h => by
    have hform := Form.ofKind_of_mem .call (List.mem_singleton.mpr hkind)
    refine .of_step (h.settles.mono fun fuel hfuel found => ?_)
    simp only [collect, hform]
    exact hfuel found
  | .member hkind h => by
    have hform := Form.ofKind_of_mem .member (List.mem_singleton.mpr hkind)
    refine .of_step (h.settles.mono fun fuel hfuel found => ?_)
    simp only [collect, hform]
    rw [hfuel, List.append_assoc, List.singleton_append]
  | .resolved hkind h hkey hk => by
    have hform := Form.ofKind_of_mem .subscript (List.mem_singleton.mpr hkind)
    refine .of_step ((h.settles.and hk.settles).mono fun fuel hfuel found => ?_)
    simp only [collect, hform, hkey]
    rw [hfuel.1, hfuel.2, List.append_nil, List.append_assoc]
  | .unresolved hkind h hkey => by
    have hform := Form.ofKind_of_mem .subscript (List.mem_singleton.mpr hkind)
    refine .of_step (h.settles.mono fun fuel hfuel found => ?_)
    simp only [collect, hform, hkey]
    rw [hfuel, List.append_assoc]
    rfl
  | .parentheses hkind h => by
    have hform := Form.ofKind_of_mem .parentheses (List.mem_singleton.mpr hkind)
    refine .of_step (h.settles.mono fun fuel hfuel found => ?_)
    simp only [collect, hform]
    exact hfuel found
  | .word hkind => by
    have hform := Form.ofKind_of_mem .word hkind
    refine .of_step (.of_forall fun fuel found => ?_)
    simp only [collect, hform]
    rfl
  | .self hkind => by
    have hform := Form.ofKind_of_mem .self (List.mem_singleton.mpr hkind)
    refine .of_step (.of_forall fun fuel found => ?_)
    simp only [collect, hform]
    rfl
  | .object hkind h => by
    have hform := Form.ofKind_of_mem .object (List.mem_singleton.mpr hkind)
    have hmembers := eventually_forall_mem fun m hm => (h m hm).settles
    refine .of_step (hmembers.mono fun fuel hfuel found => ?_)
    simp only [collect, hform]
    rw [List.map_congr_left hfuel]
    rfl
  | .array hkind h => by
    have hform := Form.ofKind_of_mem .array (List.mem_singleton.mpr hkind)
    have helements := eventually_forall_mem fun e he => (h e he).settles
    refine .of_step (helements.mono fun fuel hfuel found => ?_)
    simp only [collect, hform]
    rw [List.map_congr_left fun e he => by rw [hfuel e he [], List.append_nil]]
    rfl
  | .other hkind => by
    have hform := Form.ofKind_eq_other_iff.mpr hkind
    refine .of_step (.of_forall fun fuel found => ?_)
    simp only [collect, hform]
    rfl

theorem IsMember.settles {m : Cursor} {text : String} : IsMember resolve m text →
    ∀ᶠ fuel in atTop, memberText (fun x => joinDots (collect resolve fuel x [])) m = text
  | .pair hkind hkey hvalue => by
    have hform : MemberForm.ofKind m.kind = .pair := if_pos hkind
    refine (hkey.settles.and hvalue.settles).mono fun fuel hfuel => ?_
    simp only [memberText, hform, hfuel.1, hfuel.2, List.append_nil]
  | .shorthand hkind => by
    have hform : MemberForm.ofKind m.kind = .shorthand := by rw [hkind]; rfl
    refine .of_forall fun fuel => ?_
    simp only [memberText, hform]
  | .spread hkind h => by
    have hform : MemberForm.ofKind m.kind = .spread := by rw [hkind]; rfl
    refine h.settles.mono fun fuel hfuel => ?_
    simp only [memberText, hform, hfuel, List.append_nil]
  | .named hkind hname => by
    have hform : MemberForm.ofKind m.kind = .named := by
      simp_all [MemberForm.ofKind]
    refine hname.settles.mono fun fuel hfuel => ?_
    simp only [memberText, hform, hfuel, List.append_nil]

theorem IsKey.settles {key : Option Cursor} {path : List String} : IsKey resolve key path →
    Settles resolve (keyExpression key) path
  | .lost => settles_none
  | .computed hkind h => by
    rw [keyExpression_of_computed hkind]
    exact h.settles
  | .plain hkind h => by
    rw [keyExpression_of_plain hkind]
    exact h.settles

end

theorem IsPath.unique {x : Option Cursor} {path other : List String} (h : IsPath resolve x path)
    (h' : IsPath resolve x other) : path = other :=
  h.settles.unique h'.settles

/-! ### Where the recursion ends -/

theorem exists_isKey {key : Option Cursor}
    (h : ∃ path, IsPath resolve (keyExpression key) path) : ∃ path, IsKey resolve key path := by
  cases key with
  | none => exact ⟨[], .lost⟩
  | some k =>
    obtain ⟨path, hpath⟩ := h
    by_cases hkind : k.kind = "computed_property_name"
    · rw [keyExpression_of_computed hkind] at hpath
      exact ⟨path, .computed hkind hpath⟩
    · rw [keyExpression_of_plain hkind] at hpath
      exact ⟨path, .plain hkind hpath⟩

theorem exists_isMember {m : Cursor}
    (h : ∀ x : Option Cursor, x.toList ⊆ memberParts m → ∃ path, IsPath resolve x path) :
    ∃ text, IsMember resolve m text := by
  unfold memberParts MemberForm.ofKind at h
  by_cases hpair : m.kind = "pair"
  · simp only [hpair, if_true] at h
    obtain ⟨key, hkey⟩ := exists_isKey (h _ (List.subset_append_left ..))
    obtain ⟨value, hvalue⟩ := h _ (List.subset_append_right ..)
    exact ⟨_, .pair hpair hkey hvalue⟩
  by_cases hshorthand : m.kind = "shorthand_property_identifier"
  · exact ⟨_, .shorthand hshorthand⟩
  by_cases hspread : m.kind = "spread_element"
  · simp only [hspread] at h
    obtain ⟨path, hpath⟩ := h _ (List.Subset.refl _)
    exact ⟨_, .spread hspread hpath⟩
  · simp only [hpair, hshorthand, hspread, if_false] at h
    obtain ⟨name, hname⟩ := exists_isKey (h _ (List.Subset.refl _))
    exact ⟨_, .named (by simp [hpair, hshorthand, hspread]) hname⟩

theorem exists_isPath_of_parts {c : Cursor}
    (h : ∀ d, HasPart resolve c d → ∃ path, IsPath resolve (some d) path) :
    ∃ path, IsPath resolve (some c) path := by
  have hpart (x : Option Cursor) (hx : x.toList ⊆ parts resolve c) :
      ∃ path, IsPath resolve x path := by
    cases x with
    | none => exact ⟨[], .lost⟩
    | some d => exact h d (hx (List.mem_singleton_self d))
  unfold parts at hpart
  cases hform : Form.ofKind c.kind with
  | call =>
    simp only [hform] at hpart
    obtain ⟨path, hpath⟩ := hpart _ (List.Subset.refl _)
    exact ⟨path, .call (List.mem_singleton.mp (Form.mem_kinds hform nofun)) hpath⟩
  | member =>
    simp only [hform] at hpart
    obtain ⟨path, hpath⟩ := hpart _ (List.Subset.refl _)
    exact ⟨_, .member (List.mem_singleton.mp (Form.mem_kinds hform nofun)) hpath⟩
  | subscript =>
    have hkind := List.mem_singleton.mp (Form.mem_kinds hform nofun)
    simp only [hform] at hpart
    obtain ⟨path, hpath⟩ := hpart _ (List.subset_append_right ..)
    cases hkey : resolve (c.child? "index") with
    | none => exact ⟨_, .unresolved hkind hpath hkey⟩
    | some k =>
      rw [hkey] at hpart
      obtain ⟨key, hk⟩ := hpart (some k) (List.subset_append_left ..)
      exact ⟨_, .resolved hkind hpath hkey hk⟩
  | parentheses =>
    simp only [hform] at hpart
    obtain ⟨path, hpath⟩ := hpart _ (List.Subset.refl _)
    exact ⟨path, .parentheses (List.mem_singleton.mp (Form.mem_kinds hform nofun)) hpath⟩
  | word => exact ⟨_, .word (Form.mem_kinds hform nofun)⟩
  | self => exact ⟨_, .self (List.mem_singleton.mp (Form.mem_kinds hform nofun))⟩
  | object =>
    simp only [hform] at hpart
    have hmembers : ∀ m ∈ c.contents, ∃ text, IsMember resolve m text := fun m hm =>
      exists_isMember fun x hx => hpart x fun d hd => List.mem_flatMap.mpr ⟨m, hm, hx hd⟩
    choose! texts htexts using hmembers
    exact ⟨_, .object (List.mem_singleton.mp (Form.mem_kinds hform nofun)) htexts⟩
  | array =>
    simp only [hform] at hpart
    have helements : ∀ e ∈ c.contents, ∃ path, IsPath resolve (some e) path := fun e he =>
      hpart (some e) (List.cons_subset.mpr ⟨he, List.nil_subset _⟩)
    choose! paths hpaths using helements
    exact ⟨_, .array (List.mem_singleton.mp (Form.mem_kinds hform nofun)) hpaths⟩
  | other => exact ⟨[], .other (Form.ofKind_eq_other_iff.mp hform)⟩

theorem RecursionEnds.exists_isPath {c : Cursor} (h : RecursionEnds resolve c) :
    ∃ path, IsPath resolve (some c) path := by
  induction h with
  | intro c _ ih => exact exists_isPath_of_parts ih

/-! ### Enough steps -/

/-- The nodes of a tree are enough steps where the recursion ends within it. -/
theorem collect_eq_of_settles {root : Node} {c : Cursor} {path : List String}
    (hc : Cursor.Within root c) (hstays : StaysIn resolve root) (hends : RecursionEnds resolve c)
    (hpath : Settles resolve (some c) path) :
    collect resolve (root.size + 1) (some c) [] = path := by
  obtain ⟨fuel, henough, hfuel⟩ := (hpath.and (eventually_ge_atTop root.size)).exists
  have hmore : (Cursor.placesFrom [] root).length ≤ fuel := Cursor.length_places root ▸ hfuel
  have hless : (Cursor.placesFrom [] root).length ≤ root.size + 1 :=
    Cursor.length_places root ▸ Nat.le_succ _
  have hsame : collect resolve (root.size + 1) (some c) = collect resolve fuel (some c) := by
    refine Descent.eq_of_length_le (S := fun d => Cursor.Within root d ∧ RecursionEnds resolve d)
      (R := HasPart resolve) (f := fun n d => collect resolve n (some d)) ?_ ?_ ?_ ?_ ⟨hc, hends⟩
      hless hmore
    · exact fun _ hd => hd.1.mem_places
    · exact fun _ _ hpart hd => ⟨hstays.within hd.1 hpart, hd.2.inv hpart⟩
    · exact fun _ hd => hd.2.acyclic
    · exact fun _ _ _ h => collect_congr h
  rw [hsame, henough, List.append_nil]

/--
Wherever the recursion ends, it gives an expression one path, and this is what is collected with
enough steps; where keys denote places of the same tree, it is the path of the expression.
-/
theorem segments_follow_recursion {x : Option Cursor} (hends : ∀ c ∈ x, RecursionEnds resolve c) :
    ∃ path, (∀ other, IsPath resolve x other ↔ other = path) ∧
      (∃ depth, ∀ fuel, depth ≤ fuel → collect resolve fuel x [] = path) ∧
      ∀ root, (∀ c ∈ x, Cursor.Within root c) → StaysIn resolve root →
        segmentsBy resolve x = path ∧ dottedBy resolve x = joinDots path ∧
          ∀ reader : Reading.KeyReader, reader.resolve = resolve →
            Reading.segmentsBy reader x =
              Reading.checked (Reading.inPathBy resolve reader.inKey x) path := by
  have hexists : ∃ path, IsPath resolve x path := by
    cases x with
    | none => exact ⟨[], .lost⟩
    | some c => exact (hends c rfl).exists_isPath
  obtain ⟨path, hpath⟩ := hexists
  refine ⟨path, fun other => ⟨fun h => h.unique hpath, fun h => h ▸ hpath⟩, ?_, ?_⟩
  · obtain ⟨depth, hdepth⟩ := eventually_atTop.mp hpath.settles
    exact ⟨depth, fun fuel hfuel => by rw [hdepth fuel hfuel [], List.append_nil]⟩
  · intro root hin hstays
    have hsegments : segmentsBy resolve x = path := by
      cases x with
      | none => exact IsPath.unique .lost hpath
      | some c =>
        rw [segmentsBy, (hin c rfl).root_eq]
        exact collect_eq_of_settles (hin c rfl) hstays (hends c rfl) hpath.settles
    refine ⟨hsegments, by rw [dottedBy, hsegments], ?_⟩
    rintro reader rfl
    rw [Reading.segmentsBy, hsegments]

/-- The rows of an expression with a key in a key. -/
def nestedRows : List Row :=
  let row (parent : Nat) (kind : String) (start stop : Nat) (field : Option String) : Row :=
    ⟨some parent, kind, start, stop, field, true, false⟩
  [⟨none, "program", 0, 10, none, true, false⟩, row 0 "expression_statement" 0 10 none,
    row 1 "subscript_expression" 0 9 none, row 2 "identifier" 0 1 (some "object"),
    row 2 "subscript_expression" 2 8 (some "index"), row 4 "identifier" 2 3 (some "object"),
    row 4 "member_expression" 4 7 (some "index"), row 6 "identifier" 4 5 (some "object"),
    row 6 "property_identifier" 6 7 (some "property")]

def nested : Node := (Node.ofRows? "a[b[c.d]];" nestedRows).get rfl

def nestedPlace (i : Fin 9) : Cursor := (Cursor.ofRoot nested).preorder.get (i.cast rfl)

/-- A key in a key is turned round twice. -/
theorem segments_follow_recursion_nested :
    RecursionEnds byScope (nestedPlace 2) ∧
      segments (some (nestedPlace 2)) = ["a", "c", "d", "b"] := by
  have hin : Cursor.Within nested (nestedPlace 2) :=
    Cursor.contains_of_mem_preorder (List.get_mem _ _)
  have hsmaller : ∀ c ∈ Cursor.placesFrom [] nested, ∀ d ∈ parts byScope c,
      d.node.size < c.node.size := by decide +kernel
  have hends := recursionEnds_of_size staysIn_byScope hsmaller hin
  have hobject (i : Fin 9) (h : (nestedPlace i).kind = "identifier") :
      IsPath byScope (some (nestedPlace i)) [(nestedPlace i).text] :=
    .word (h ▸ by decide)
  have hkey : IsPath byScope (some (nestedPlace 6)) (["c"] ++ ["d"]) := .member rfl (hobject 7 rfl)
  have hinner : IsPath byScope (some (nestedPlace 4)) (["b"] ++ (["c"] ++ ["d"]).reverse) :=
    .resolved rfl (hobject 5 rfl) rfl hkey
  have houter : IsPath byScope (some (nestedPlace 2))
      (["a"] ++ (["b"] ++ (["c"] ++ ["d"]).reverse).reverse) :=
    .resolved rfl (hobject 3 rfl) rfl hinner
  obtain ⟨path, hunique, -, htree⟩ := segments_follow_recursion (x := some (nestedPlace 2))
    fun c hc => Option.some.inj hc ▸ hends
  have hsegments := (htree nested (fun c hc => Option.some.inj hc ▸ hin) staysIn_byScope).1
  exact ⟨hends, hsegments.trans ((hunique _).mp houter).symm⟩

end ComponentAtlas.Path
