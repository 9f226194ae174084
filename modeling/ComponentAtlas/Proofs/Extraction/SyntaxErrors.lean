import ComponentAtlas.Proofs.Extraction.Tasks
import ComponentAtlas.Proofs.SourceTree.Damage
import ComponentAtlas.Proofs.SourceTree.Numbering

/-!
# Syntax errors

A tree with syntax errors is refused when parsing is strict, and read with one
warning otherwise. The report and the warning tell of the first damaged node. A
tree may be damaged without such a node, and then they tell of no place.
-/

namespace ComponentAtlas.Extraction

open SourceTree

/-- The first characters of a text, at most so many. -/
def IsBeginning (length : Nat) (text snippet : String) : Prop :=
  (∃ rest, text = snippet ++ rest) ∧ snippet.length = min length text.length

/-- The context with which a report tells of the first damage, and the place in a warning. -/
inductive TellsDamage : Option Node → Keyed Key Datum → String → Prop
  | found {n : Node} {text snippet : String} {line column : Nat} :
      n.label.text? = some text → IsBeginning 80 text snippet →
      line = n.label.first.line + 1 → column = n.label.first.column + 1 →
      TellsDamage (some n)
        [(.text "code_snippet", .text snippet), (.text "position", .tuple [.int line, .int column])]
        ("(" ++ toString line ++ ", " ++ toString column ++ ")")
  | nowhere : TellsDamage none [] "None"

def syntaxMessage (dialect : Dialect) : String := "Syntax error in " ++ dialect.code ++ " source"

/-- How a tree is read whose first damage is `found` and can be quoted. -/
structure ReadsTree {δ : Type} (dialect : Dialect) (strict : Bool) (tree : SourceTree)
    (found : Option Node) (done : Logged δ Cursor) : Prop where
  raises : (∃ report, done.outcome = .error (.reported report) ∧ report.category = .parsing) ↔
    tree.damaged = true ∧ strict = true
  refuses : tree.damaged = true → strict = true → ∃ context place, TellsDamage found context place ∧
    done.outcome = .error (.reported ⟨.parsing, .text (syntaxMessage dialect), context⟩) ∧
    done.events = []
  reads : ¬ (tree.damaged = true ∧ strict = true) → done.outcome = .ok (.ofRoot tree.root)
  warns : tree.damaged = true → strict = false → ∃ context place, TellsDamage found context place ∧
    done.events =
      [.warned (syntaxMessage dialect ++ " at " ++ place ++ ", continuing with partial tree")]
  silent : tree.damaged = false → done.events = []

/-! ### What is told of the damage -/

theorem isBeginning_take (length : Nat) (text : String) :
    IsBeginning length text (String.ofList (text.toList.take length)) := by
  constructor
  · refine ⟨String.ofList (text.toList.drop length), ?_⟩
    rw [← String.ofList_append, List.take_append_drop, String.ofList_toList]
  · rw [String.length_ofList, List.length_take, String.length_toList]

theorem syntaxWarning_eq (dialect : Dialect) (damage : Option Damage) :
    syntaxWarning dialect damage =
      syntaxMessage dialect ++ " at " ++ (placeOf damage).plain ++
        ", continuing with partial tree" := by
  have hsplit (rest : String) : " source at " ++ rest = " source" ++ (" at " ++ rest) := by
    rw [← String.append_assoc]
    rfl
  unfold syntaxWarning syntaxMessage
  simp only [String.append_assoc, hsplit]

theorem plain_placeOf_some (damage : Damage) :
    (placeOf (some damage)).plain =
      "(" ++ toString damage.line ++ ", " ++ toString damage.column ++ ")" := by
  have hpair (a b : String) : ", ".intercalate [a, b] = a ++ ", " ++ b := rfl
  simp only [placeOf, Datum.plain, Datum.quoted, Datum.quotedItems, hpair, String.append_assoc]
  rfl

theorem tellsDamage {root : Node} (h : ∀ n ∈ root.firstDamage?, n.isReadable = true)
    (dialect : Dialect) :
    ∃ context place, TellsDamage root.firstDamage? context place ∧
      syntaxFailure dialect (damageOf root) =
        .reported ⟨.parsing, .text (syntaxMessage dialect), context⟩ ∧
      syntaxWarning dialect (damageOf root) =
        syntaxMessage dialect ++ " at " ++ place ++ ", continuing with partial tree" := by
  simp only [syntaxWarning_eq]
  unfold damageOf
  cases hfound : root.firstDamage? with
  | none => exact ⟨[], "None", .nowhere, rfl, rfl⟩
  | some n =>
    obtain ⟨text, htext⟩ := Option.isSome_iff_exists.mp (h n hfound)
    refine ⟨_, _, .found htext (isBeginning_take 80 text) rfl rfl, ?_, ?_⟩
    · have hn : n.text = text := by rw [Node.text, htext, Option.getD_some]
      rw [← hn]
      rfl
    · rw [Option.map_some, plain_placeOf_some]
      rfl

/-! ### Reading a tree -/

section

variable {δ : Type} (dialect : Dialect) (strict : Bool) (tree : SourceTree) (desk : δ)

theorem readable_inSnippet_iff :
    (∀ c ∈ inSnippet tree, c.isReadable = true) ↔
      (tree.damaged = true → ∀ n ∈ tree.root.firstDamage?, n.isReadable = true) := by
  unfold inSnippet
  cases tree.damaged with
  | false => simp
  | true =>
    cases tree.root.firstDamage? with
    | none => simp
    | some n => simp [Cursor.isReadable, Cursor.ofRoot]

theorem readsTree
    (h : tree.damaged = true → ∀ n ∈ tree.root.firstDamage?, n.isReadable = true) :
    ReadsTree dialect strict tree tree.root.firstDamage? (readProgram dialect strict tree desk) ∧
      (readProgram dialect strict tree desk).desk = desk := by
  have hreadable := (readable_inSnippet_iff tree).mpr h
  by_cases hrefused : tree.damaged = true ∧ strict = true
  · obtain ⟨hdamaged, rfl⟩ := hrefused
    obtain ⟨context, place, htells, hfailure, -⟩ := tellsDamage (h hdamaged) dialect
    rw [readProgram_eq_of_refused dialect hdamaged hreadable desk, hfailure]
    refine ⟨?_, rfl⟩
    constructor
    case raises => exact iff_of_true ⟨_, rfl, rfl⟩ ⟨hdamaged, rfl⟩
    case refuses => exact fun _ _ => ⟨context, place, htells, rfl, rfl⟩
    case reads => exact fun hnot => absurd ⟨hdamaged, rfl⟩ hnot
    case warns => exact fun _ hstrict => nomatch hstrict
    case silent => exact fun hsound => absurd hdamaged (Bool.eq_false_iff.mp hsound)
  · have haccepted : IsAccepted strict tree :=
      ⟨fun hdamaged => Bool.eq_false_iff.mpr fun hstrict => hrefused ⟨hdamaged, hstrict⟩, hreadable⟩
    rw [readProgram_eq_of_accepted dialect haccepted desk]
    refine ⟨?_, rfl⟩
    constructor
    case raises =>
      refine iff_of_false (fun hraised => ?_) hrefused
      obtain ⟨_, houtcome, _⟩ := hraised
      cases houtcome
    case refuses => exact fun hdamaged hstrict => absurd ⟨hdamaged, hstrict⟩ hrefused
    case reads => exact fun _ => rfl
    case warns =>
      intro hdamaged _
      obtain ⟨context, place, htells, -, hwarning⟩ := tellsDamage (h hdamaged) dialect
      refine ⟨context, place, htells, ?_⟩
      rw [← hwarning]
      exact if_pos hdamaged
    case silent => exact fun hsound => if_neg (Bool.eq_false_iff.mp hsound)

/--
The first damaged node over all nodes is found, and by it a tree with syntax errors is refused or
warned of. In a tree that is read from a table the node lies in the source as it tells.
-/
theorem syntax_errors_at_first_damage :
    ∃ found, (∀ other, tree.root.IsFirstDamage other ↔ other = found) ∧
      tree.root.firstDamage? = found ∧ Node.damageOnStack [tree.root] = found ∧
      (∀ source rows, Node.ofRows? source rows = some tree.root → ∀ n ∈ found, n.LiesIn source) ∧
      ((tree.damaged = true → ∀ n ∈ found, n.label.text? ≠ none) →
        ReadsTree dialect strict tree found (readProgram dialect strict tree desk) ∧
          (readProgram dialect strict tree desk).desk = desk) ∧
      (tree.damaged = true → ∀ n ∈ found, n.label.text? = none →
        readProgram dialect strict tree desk = ⟨.error (.misuse .brokenText), [], desk⟩) := by
  refine ⟨tree.root.firstDamage?, ?_, rfl, Node.damageOnStack_root _, ?_, ?_, ?_⟩
  · intro other
    rw [← Node.find?_isDamaged_iff, ← Node.firstDamage?_eq, eq_comm]
  · intro source rows hrows n hn
    rw [Node.firstDamage?_eq] at hn
    exact Node.liesIn_of_ofRows? hrows (List.mem_of_find?_eq_some hn)
  · intro h
    exact readsTree dialect strict tree desk fun hdamaged n hn =>
      Option.isSome_iff_ne_none.mpr (h hdamaged n hn)
  · intro hdamaged n hn hnone
    refine readProgram_eq_of_unreadable dialect (fun hreadable => ?_) desk
    have hread := (readable_inSnippet_iff tree).mp hreadable hdamaged n hn
    rw [Node.isReadable, hnone] at hread
    cases hread

end

/-- The rows of a call that lacks its closing bracket, on the second line. -/
def clippedRows : List Row :=
  let row (parent : Nat) (kind : String) (start stop : Nat) (named missing : Bool) : Row :=
    ⟨some parent, kind, start, stop, none, named, missing⟩
  [⟨none, "program", 0, 6, none, true, false⟩, row 0 "expression_statement" 0 2 true false,
    row 1 "identifier" 0 1 true false, row 1 ";" 1 2 false false,
    row 0 "expression_statement" 3 6 true false, row 4 "call_expression" 3 6 true false,
    row 5 "identifier" 3 4 true false, row 5 "arguments" 4 6 true false,
    row 7 "(" 4 5 false false, row 7 "identifier" 5 6 true false, row 7 ")" 6 6 false true]

def clipped : Node := (Node.ofRows? "a;\nf(b" clippedRows).get rfl

def clippedDamage : Node := clipped.firstDamage?.get rfl

/-- The missing bracket is told of, at the fourth byte of the second line. -/
theorem syntax_errors_at_first_damage_clipped :
    clipped.IsFirstDamage (some clippedDamage) ∧ clippedDamage.named = false ∧
      clippedDamage.label.first = .ofOffset "a;\nf(b".toUTF8.toList 6 ∧
      ReadsTree .javascript true ⟨clipped, true⟩ (some clippedDamage)
        (readProgram .javascript true ⟨clipped, true⟩ ()) ∧
      TellsDamage (some clippedDamage)
        [(.text "code_snippet", .text ""), (.text "position", .tuple [.int 2, .int 4])]
        "(2, 4)" := by
  obtain ⟨found, hfirst, hfound, -, hplace, hreads, -⟩ :=
    syntax_errors_at_first_damage .javascript true ⟨clipped, true⟩ ()
  obtain rfl : found = some clippedDamage := hfound.symm.trans (Option.some_get _).symm
  have hrows : Node.ofRows? "a;\nf(b" clippedRows = some clipped := (Option.some_get _).symm
  have hoffset : clippedDamage.label.first.offset = 6 := by decide +kernel
  have htext : clippedDamage.label.text? = some "" := by decide +kernel
  refine ⟨(hfirst _).mpr rfl, rfl, ?_, ?_, ?_⟩
  · rw [← hoffset]
    exact (hplace "a;\nf(b" clippedRows hrows _ rfl).place
  · refine (hreads fun _ n hn hnone => ?_).1
    rw [← Option.some.inj hn, htext] at hnone
    cases hnone
  · exact .found htext ⟨⟨"", rfl⟩, rfl⟩ (by decide +kernel) (by decide +kernel)

end ComponentAtlas.Extraction
