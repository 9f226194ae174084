import ComponentAtlas.Data.Value

/-!
# Views

Data that are kept need not be values themselves; they may refer to something
that is kept elsewhere. A view says what value a datum has, and takes sequences
and mappings apart without looking into their parts.
-/

namespace ComponentAtlas

/-- How data of the type `ν` are looked into. -/
structure View (ν : Type) where
  value : ν → Value
  list? : ν → Option (List ν)
  mapping? : ν → Option (Keyed Key ν)

namespace View

/-- Values are looked into as they are. -/
def values : View Value where
  value := id
  list?
    | .array items => some items
    | _ => none
  mapping?
    | .object fields => some (fields.map fun f => (.text f.1, f.2))
    | _ => none

end View

end ComponentAtlas
