import ComponentAtlas.Extraction.Log
import ComponentAtlas.Reading.Basic
import ComponentAtlas.SourceTree.Damage

/-!
# Programs

A source with syntax errors is refused when parsing is strict. Otherwise a
warning is given and the partial tree is used. Either way the first damaged node
of the tree says where the error is; lines and columns count from one, columns
in bytes.
-/

namespace ComponentAtlas.Extraction

open SourceTree

structure Damage where
  snippet : String
  line : Nat
  column : Nat
deriving DecidableEq, Repr

def snippetLength : Nat := 80

def Damage.ofNode (n : Node) : Damage where
  snippet := String.ofList (n.text.toList.take snippetLength)
  line := n.label.first.line + 1
  column := n.label.first.column + 1

def damageOf (root : Node) : Option Damage := root.firstDamage?.map Damage.ofNode

/-- The place of the damage as it stands in a warning. -/
def placeOf (damage : Option Damage) : Datum :=
  match damage with
  | some d => .tuple [.int d.line, .int d.column]
  | none => .null

def syntaxWarning (dialect : Dialect) (damage : Option Damage) : String :=
  "Syntax error in " ++ dialect.code ++ " source at " ++ (placeOf damage).plain ++
    ", continuing with partial tree"

def syntaxFailure (dialect : Dialect) (damage : Option Damage) : Failure :=
  .reported (.syntaxError dialect.code (damage.map fun d => (d.snippet, d.line, d.column)))

/-- The place whose text is looked at for the snippet of a report. -/
def inSnippet (tree : SourceTree) : List Cursor :=
  if tree.damaged then (tree.root.firstDamage?.map Cursor.ofRoot).toList else []

/-- The program of a tree, as far as its damage allows. -/
def program {δ : Type} (dialect : Dialect) (strict : Bool) (tree : SourceTree) : Work δ Cursor :=
  if !tree.damaged then pure (.ofRoot tree.root)
  else if strict then .fail (syntaxFailure dialect (damageOf tree.root))
  else do
    Work.note (.warned (syntaxWarning dialect (damageOf tree.root)))
    pure (.ofRoot tree.root)

/-- The program of a tree whose damage, if any, can be quoted; it is quoted also for a warning. -/
def readProgram {δ : Type} (dialect : Dialect) (strict : Bool) (tree : SourceTree) :
    Work δ Cursor := do
  Work.ofExcept (Reading.checked (Reading.texts (inSnippet tree)) ())
  program dialect strict tree

end ComponentAtlas.Extraction
