/-!
# Keyed entries in order

A collection of entries by key that remembers the order in which the keys were
first written. Writing to a known key replaces its entry where it stands and
keeps the key as it was first written; writing to a new key adds an entry at the
end. Keys are told apart by `==`, which need not be equality.
-/

namespace ComponentAtlas

abbrev Keyed (κ α : Type) := List (κ × α)

namespace Keyed

variable {κ α : Type} [BEq κ]

def get? (entries : Keyed κ α) (key : κ) : Option α :=
  entries.lookup key

def put : Keyed κ α → κ → α → Keyed κ α
  | [], key, value => [(key, value)]
  | (other, current) :: rest, key, value =>
    if key == other then (other, value) :: rest
    else (other, current) :: put rest key value

def keys (entries : Keyed κ α) : List κ :=
  entries.map Prod.fst

/-- The entry of `key`, after adding `fresh` for it when it has none. -/
def getOrAdd (entries : Keyed κ α) (key : κ) (fresh : α) : α × Keyed κ α :=
  match entries.get? key with
  | some value => (value, entries)
  | none => (fresh, entries ++ [(key, fresh)])

theorem get?_cons (key other : κ) (value : α) (rest : Keyed κ α) :
    get? ((other, value) :: rest) key = if key == other then some value else rest.get? key := by
  simp only [get?, List.lookup_cons]
  split <;> simp_all

theorem get?_put [EquivBEq κ] (entries : Keyed κ α) (key asked : κ) (value : α) :
    (entries.put key value).get? asked =
      if asked == key then some value else entries.get? asked := by
  induction entries with
  | nil => simp only [put, get?_cons]
  | cons entry rest ih =>
    obtain ⟨other, current⟩ := entry
    by_cases hk : (key == other) = true
    · have hc : (asked == key) = (asked == other) := BEq.congr_right hk
      simp only [put, hk, if_true, get?_cons, hc]
      split <;> rfl
    · by_cases ha : (asked == other) = true
      · have hn : (asked == key) = false := by
          rw [BEq.congr_left ha, BEq.comm]
          simpa using hk
        simp [put, hk, get?_cons, ha, hn]
      · have ha' : (asked == other) = false := by simpa using ha
        have hk' : (key == other) = false := by simpa using hk
        simp only [put, hk', get?_cons, ha', Bool.false_eq_true, if_false, ih]

theorem keys_put (entries : Keyed κ α) (key : κ) (value : α) :
    (entries.put key value).keys =
      if entries.keys.contains key then entries.keys else entries.keys ++ [key] := by
  induction entries with
  | nil => simp [put, keys]
  | cons entry rest ih =>
    obtain ⟨other, current⟩ := entry
    by_cases hk : (key == other) = true
    · simp [put, keys, hk]
    · have hk' : (key == other) = false := by simpa using hk
      have hc : (keys ((other, current) :: rest)).contains key = (keys rest).contains key := by
        simp [keys, hk']
      have hp : (put ((other, current) :: rest) key value).keys =
          other :: (put rest key value).keys := by
        simp [put, keys, hk']
      rw [hc, hp, ih]
      split <;> rfl

end Keyed

end ComponentAtlas
