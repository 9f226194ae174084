import ComponentAtlas.Data.Keyed
import ComponentAtlas.Proofs.Data.Distinct

/-!
# Entries that are kept by key

Writing under a key changes one entry: the one that is there, where it stands,
or a new one at the end. Reading the entry of a key, adding a fresh one when
there is none, is no more than writing back what is read. So the keys of entries
that come about by writing are the keys written, in the order in which they were
written first.
-/

namespace ComponentAtlas.Keyed

variable {κ α : Type} [BEq κ]

theorem put_of_get? {entries : Keyed κ α} {key : κ} {value : α}
    (h : entries.get? key = some value) : entries.put key value = entries := by
  induction entries with
  | nil => cases h
  | cons entry rest ih =>
    obtain ⟨other, current⟩ := entry
    rw [get?_cons] at h
    unfold put
    split at h
    · next hsame => rw [if_pos hsame, Option.some.inj h]
    · next hother => rw [if_neg hother, ih h]

theorem put_of_get?_none {entries : Keyed κ α} {key : κ} (h : entries.get? key = none) (value : α) :
    entries.put key value = entries ++ [(key, value)] := by
  induction entries with
  | nil => rfl
  | cons entry rest ih =>
    obtain ⟨other, current⟩ := entry
    rw [get?_cons] at h
    unfold put
    split at h
    · cases h
    · next hother => rw [if_neg hother, ih h, List.cons_append]

theorem keys_put_of_get? {entries : Keyed κ α} {key : κ} {value : α}
    (h : entries.get? key = some value) (last : α) : (entries.put key last).keys = entries.keys := by
  induction entries with
  | nil => cases h
  | cons entry rest ih =>
    obtain ⟨other, current⟩ := entry
    rw [get?_cons] at h
    unfold put
    split at h
    · next hsame => rw [if_pos hsame]; rfl
    · next hother =>
      rw [if_neg hother]
      exact congrArg (other :: ·) (ih h)

theorem getOrAdd_eq (entries : Keyed κ α) (key : κ) (fresh : α) :
    entries.getOrAdd key fresh =
      ((entries.get? key).getD fresh, entries.put key ((entries.get? key).getD fresh)) := by
  unfold getOrAdd
  cases h : entries.get? key with
  | some value => rw [Option.getD_some, put_of_get? h]
  | none => rw [Option.getD_none, put_of_get?_none h]

/-- Writing back what is read adds a fresh entry at most. -/
theorem put_getD (entries : Keyed κ α) (key : κ) (fresh : α) :
    entries.put key ((entries.get? key).getD fresh) = entries ∨
      entries.get? key = none ∧
        entries.put key ((entries.get? key).getD fresh) = entries ++ [(key, fresh)] := by
  cases h : entries.get? key with
  | some value => exact .inl (put_of_get? h)
  | none => exact .inr ⟨rfl, put_of_get?_none h fresh⟩

theorem get?_of_mem [LawfulBEq κ] {entries : Keyed κ α} (hkeys : entries.keys.Nodup) {e : κ × α}
    (he : e ∈ entries) : entries.get? e.1 = some e.2 := by
  induction entries with
  | nil => cases he
  | cons entry rest ih =>
    obtain ⟨hfirst, hrest⟩ := List.nodup_cons.mp hkeys
    rw [get?_cons]
    rcases List.mem_cons.mp he with rfl | he
    · rw [if_pos BEq.rfl]
    · have hother : ¬ (e.1 == entry.1) = true := by
        intro hsame
        apply hfirst
        rw [← eq_of_beq hsame]
        exact List.mem_map_of_mem he
      rw [if_neg hother]
      exact ih hrest he

section

variable [EquivBEq κ]

theorem put_put (entries : Keyed κ α) (key : κ) (value last : α) :
    (entries.put key value).put key last = entries.put key last := by
  induction entries with
  | nil => simp only [put, BEq.refl, if_true]
  | cons entry rest ih =>
    obtain ⟨other, current⟩ := entry
    by_cases hsame : (key == other) = true
    · simp only [put, hsame, if_true]
    · simp only [put, hsame, Bool.false_eq_true, if_false, ih]

theorem get?_congr (entries : Keyed κ α) {key other : κ} (h : (key == other) = true) :
    entries.get? key = entries.get? other := by
  induction entries with
  | nil => rfl
  | cons entry rest ih => rw [get?_cons, get?_cons, BEq.congr_left h, ih]

end

/-! ### One entry changed -/

/--
The entries differ in that of one key. A known key has a new value where it
stands, which the change allows for the old one; an unknown key comes last, with
a value which the change allows for the fresh one.
-/
inductive ChangedAt (key : κ) (fresh : α) (change : α → α → Prop) :
    Keyed κ α → Keyed κ α → Prop
  | known {before after : Keyed κ α} {other : κ} {old new : α} (first : before.get? key = none)
    (same : (key == other) = true) (changed : change old new) :
    ChangedAt key fresh change (before ++ (other, old) :: after) (before ++ (other, new) :: after)
  | unknown {entries : Keyed κ α} {new : α} (absent : entries.get? key = none)
    (changed : change fresh new) :
    ChangedAt key fresh change entries (entries ++ [(key, new)])

theorem ChangedAt.cons {key other : κ} {fresh current : α} {change : α → α → Prop}
    {entries changed : Keyed κ α} (hother : ¬ (key == other) = true)
    (h : ChangedAt key fresh change entries changed) :
    ChangedAt key fresh change ((other, current) :: entries) ((other, current) :: changed) := by
  have habsent {before : Keyed κ α} (hbefore : before.get? key = none) :
      get? ((other, current) :: before) key = none := by
    rw [get?_cons, if_neg hother, hbefore]
  cases h with
  | known first same changed => exact .known (habsent first) same changed
  | unknown absent changed => exact .unknown (habsent absent) changed

theorem changedAt_put {entries : Keyed κ α} {key : κ} {fresh value : α} {change : α → α → Prop}
    (h : change ((entries.get? key).getD fresh) value) :
    ChangedAt key fresh change entries (entries.put key value) := by
  induction entries with
  | nil => exact .unknown rfl h
  | cons entry rest ih =>
    obtain ⟨other, current⟩ := entry
    rw [get?_cons] at h
    unfold put
    by_cases hsame : (key == other) = true
    · rw [if_pos hsame] at h ⊢
      show ChangedAt key fresh change ([] ++ (other, current) :: rest) ([] ++ (other, value) :: rest)
      exact .known rfl hsame h
    · rw [if_neg hsame] at h ⊢
      exact (ih h).cons hsame

/-! ### Keys in the order of writing -/

/-- Keys with one more that is asked for, which comes last if it is new. -/
def withKey (keys : List κ) : Option κ → List κ
  | some key => if keys.contains key then keys else keys ++ [key]
  | none => keys

theorem contains_keys (entries : Keyed κ α) (key : κ) :
    entries.keys.contains key = (entries.get? key).isSome := by
  induction entries with
  | nil => rfl
  | cons entry rest ih =>
    obtain ⟨other, current⟩ := entry
    show (other :: keys rest).contains key = _
    rw [List.contains_cons, get?_cons, ih]
    cases key == other <;> rfl

theorem ChangedAt.keys_eq {key : κ} {fresh : α} {change : α → α → Prop}
    {entries changed : Keyed κ α} (h : ChangedAt key fresh change entries changed) :
    changed.keys = withKey entries.keys (some key) := by
  cases h with
  | known first same changed =>
    simp only [keys, List.map_append, List.map_cons]
    rw [withKey, if_pos]
    apply List.contains_iff_exists_mem_beq.mpr
    exact ⟨_, List.mem_append_right _ (List.mem_cons_self ..), same⟩
  | unknown absent changed =>
    rw [withKey, if_neg (by rw [contains_keys, absent]; exact Bool.false_ne_true)]
    simp only [keys, List.map_append, List.map_cons, List.map_nil]

theorem contains_eraseDups [EquivBEq κ] (keys : List κ) (key : κ) :
    keys.eraseDups.contains key = keys.contains key := by
  rw [Bool.eq_iff_iff, List.contains_iff_exists_mem_beq, List.contains_iff_exists_mem_beq]
  constructor
  · rintro ⟨found, hfound, hsame⟩
    exact ⟨found, Distinct.mem_of_mem_eraseDupsBy hfound, hsame⟩
  · rintro ⟨found, hfound, hsame⟩
    obtain ⟨kept, hkept, hkeptSame⟩ :=
      Distinct.exists_mem_eraseDupsBy (r := (· == ·)) (fun _ => BEq.rfl) hfound
    exact ⟨kept, hkept, BEq.trans hsame hkeptSame⟩

/-- A key that is met once more is left out; a new one comes last. -/
theorem eraseDups_concat [EquivBEq κ] (keys : List κ) (key : κ) :
    (keys ++ [key]).eraseDups =
      if keys.contains key then keys.eraseDups else keys.eraseDups ++ [key] := by
  -- Each round takes all that equals the first key away, and the last key may be among it.
  induction keys using Distinct.keepFirst_induction (r := fun a b : κ => a == b) with
  | nil => rfl
  | cons first rest ih =>
    simp only [Bool.decide_eq_false] at ih
    rw [List.cons_append, List.eraseDups_cons, List.eraseDups_cons, List.filter_append,
      List.contains_cons]
    by_cases hfirst : (key == first) = true
    · rw [List.filter_cons_of_neg (by simpa using hfirst), List.filter_nil, List.append_nil, hfirst,
        Bool.true_or, if_pos rfl]
    · have hkept : (rest.filter fun b => !b == first).contains key = rest.contains key := by
        rw [Bool.eq_iff_iff, List.contains_iff_exists_mem_beq, List.contains_iff_exists_mem_beq]
        constructor
        · rintro ⟨found, hfound, hsame⟩
          exact ⟨found, List.mem_of_mem_filter hfound, hsame⟩
        · rintro ⟨found, hfound, hsame⟩
          refine ⟨found, List.mem_filter.mpr ⟨hfound, ?_⟩, hsame⟩
          rw [← BEq.congr_left hsame]
          simpa using hfirst
      rw [List.filter_cons_of_pos (by simpa using hfirst), List.filter_nil, ih, hkept,
        Bool.eq_false_iff.mpr hfirst, Bool.false_or]
      split
      · rfl
      · rfl

theorem withKey_eraseDups [EquivBEq κ] (keys : List κ) (key? : Option κ) :
    withKey keys.eraseDups key? = (keys ++ key?.toList).eraseDups := by
  cases key? with
  | none =>
    rw [Option.toList_none, List.append_nil]
    rfl
  | some key =>
    rw [Option.toList_some, eraseDups_concat, withKey, contains_eraseDups]

end ComponentAtlas.Keyed
