import ComponentAtlas.Dialect
import ComponentAtlas.Digest.Sha1

/-!
# Parse cache

The parses made last, most recent first. A parse is found again by its dialect,
the digest of its source and the source itself, so that a digest shared by two
sources confuses nothing. All dialects share one cache; when it is full the
parse used least recently makes room.
-/

namespace ComponentAtlas

/-- What parsing a source gives: its tree, and its bytes. -/
structure Parsed (α : Type) where
  tree : α
  bytes : ByteArray

namespace ParseCache

structure Key where
  dialect : Dialect
  digest : String
  source : String
deriving DecidableEq

def Key.of (dialect : Dialect) (source : String) : Key := ⟨dialect, Digest.sha1 source, source⟩

end ParseCache

structure ParseCache (α : Type) where
  entries : List (ParseCache.Key × Parsed α)

namespace ParseCache

variable {α : Type}

def capacity : Nat := 128

def empty : ParseCache α := ⟨[]⟩

/-- The outcome of asking the cache: the parse, and whether the parser had to be asked. -/
structure Fetched (α : Type) where
  parsed : Parsed α
  asked : Bool
  cache : ParseCache α

def find? (cache : ParseCache α) (key : Key) : Option (Parsed α) :=
  (cache.entries.find? fun e => e.1 = key).map Prod.snd

/-- Makes `parsed` the most recent parse, under `key`. -/
def touch (cache : ParseCache α) (key : Key) (parsed : Parsed α) : ParseCache α :=
  ⟨((key, parsed) :: cache.entries.filter fun e => e.1 ≠ key).take capacity⟩

def parse (cache : ParseCache α) (parser : Dialect → String → α) (dialect : Dialect)
    (source : String) : Fetched α :=
  let key := Key.of dialect source
  match cache.find? key with
  | some parsed => ⟨parsed, false, cache.touch key parsed⟩
  | none =>
    let parsed : Parsed α := ⟨parser dialect source, source.toUTF8⟩
    ⟨parsed, true, cache.touch key parsed⟩

theorem touch_length_le (cache : ParseCache α) (key : Key) (parsed : Parsed α) :
    (cache.touch key parsed).entries.length ≤ capacity := by
  simp only [touch, List.length_take]
  omega

end ParseCache

end ComponentAtlas
