import ComponentAtlas.ParseCache
import ComponentAtlas.Proofs.Data.Distinct
import Mathlib.Data.Finset.Card

/-!
# Sources parsed last

The cache holds the sources that were parsed last, the latest first, each with
what the parser of its dialect makes of it. So nobody sees from a parse whether it
was kept or made anew, and a source is parsed anew only after at least as many
others as the cache has room for.
-/

namespace ComponentAtlas.ParseCache

variable {α : Type} (parser : Dialect → String → α)

/-- A source that the handler of a dialect is asked to parse. -/
structure Call where
  dialect : Dialect
  source : String
deriving DecidableEq

namespace Call

def key (c : Call) : Key := Key.of c.dialect c.source

/-- What the parser of the dialect makes of the source. -/
def parsed (c : Call) : Parsed α := ⟨parser c.dialect c.source, c.source.toUTF8⟩

def entry (c : Call) : Key × Parsed α := (c.key, c.parsed parser)

-- The key has the source beside its digest, which sources may share.
theorem key_eq_key_iff {c d : Call} : c.key = d.key ↔ c = d := by
  obtain ⟨dialect, source⟩ := c
  obtain ⟨dialect', source'⟩ := d
  constructor
  · intro h
    injection h with hdialect _ hsource
    exact congrArg₂ Call.mk hdialect hsource
  · intro h
    rw [h]

end Call

def fetch (cache : ParseCache α) (c : Call) : Fetched α := cache.parse parser c.dialect c.source

/-- The cache that calls lead to. -/
def fetchAll (cache : ParseCache α) (calls : List Call) : ParseCache α :=
  calls.foldl (fun reached c => (reached.fetch parser c).cache) cache

/-- The answers to calls that are made one after the other. -/
def answers : ParseCache α → List Call → List (Fetched α)
  | _, [] => []
  | cache, c :: rest => cache.fetch parser c :: answers (cache.fetch parser c).cache rest

/-- How a call is answered after earlier ones. -/
structure IsAnswer (earlier : List Call) (c : Call) (fetched : Fetched α) : Prop where
  parsed : fetched.parsed = ⟨parser c.dialect c.source, c.source.toUTF8⟩
  bounded : fetched.cache.entries.length ≤ 128
  kept : fetched.asked = false ↔ ∃ before between, earlier = before ++ c :: between ∧
    (between.toFinset.erase c).card < 128

/-! ### What the cache holds -/

/-- The cache holds the first of the given calls, as many as it has room for. -/
def Holds (cache : ParseCache α) (calls : List Call) : Prop :=
  cache.entries = (calls.take capacity).map (Call.entry parser)

variable {parser}

theorem fetch_of_kept {cache : ParseCache α} {c : Call} {parsed : Parsed α}
    (h : cache.find? c.key = some parsed) :
    cache.fetch parser c = ⟨parsed, false, cache.touch c.key parsed⟩ := by
  change cache.find? (Key.of c.dialect c.source) = _ at h
  simp only [fetch, parse, h, Call.key]

theorem fetch_of_absent {cache : ParseCache α} {c : Call} (h : cache.find? c.key = none) :
    cache.fetch parser c =
      ⟨c.parsed parser, true, cache.touch c.key (c.parsed parser)⟩ := by
  change cache.find? (Key.of c.dialect c.source) = _ at h
  simp only [fetch, parse, h, Call.key, Call.parsed]

theorem Holds.find? {cache : ParseCache α} {calls : List Call} (h : cache.Holds parser calls)
    (c : Call) :
    cache.find? c.key = if c ∈ calls.take capacity then some (c.parsed parser) else none := by
  have hfound (l : List Call) :
      ((l.map (Call.entry parser)).find? fun e => e.1 = c.key).map Prod.snd =
        if c ∈ l then some (c.parsed parser) else none := by
    induction l with
    | nil => rfl
    | cons d rest ih =>
      have hkey : decide ((d.entry parser).1 = c.key) = decide (d = c) :=
        decide_eq_decide.mpr Call.key_eq_key_iff
      rw [List.map_cons, List.find?_cons, hkey]
      by_cases hd : d = c
      · rw [decide_eq_true hd, if_pos (hd ▸ List.mem_cons_self ..), ← hd]
        rfl
      · have hc : ¬ c = d := fun hc => hd hc.symm
        simp only [decide_eq_false hd, ih, List.mem_cons, hc, false_or]
  rw [ParseCache.find?, h, hfound]

theorem Holds.fetch_eq {cache : ParseCache α} {calls : List Call} (h : cache.Holds parser calls)
    (c : Call) :
    cache.fetch parser c =
      ⟨c.parsed parser, decide (c ∉ calls.take capacity),
        cache.touch c.key (c.parsed parser)⟩ := by
  have hfind := h.find? c
  by_cases hc : c ∈ calls.take capacity
  · rw [if_pos hc] at hfind
    rw [fetch_of_kept hfind, decide_eq_false (not_not_intro hc)]
  · rw [if_neg hc] at hfind
    rw [fetch_of_absent hfind, decide_eq_true hc]

/-- Of distinct items one is moved to the front; the last ones to stay are the same. -/
theorem take_filter_take {l : List Call} (hl : l.Nodup) (c : Call) (n : Nat) :
    ((l.take (n + 1)).filter (· ≠ c)).take n = (l.filter (· ≠ c)).take n := by
  induction l generalizing n with
  | nil => rfl
  | cons d rest ih =>
    obtain ⟨hd, hrest⟩ := List.nodup_cons.mp hl
    rw [List.take_succ_cons]
    by_cases hdc : d = c
    · have hkept : ∀ e ∈ rest, decide (e ≠ c) = true := by
        intro e he
        have hne : e ≠ c := fun hec => hd (by rwa [hdc, ← hec])
        exact decide_eq_true hne
      have htaken : ∀ e ∈ rest.take n, decide (e ≠ c) = true := fun e he =>
        hkept e (List.mem_of_mem_take he)
      have hfirst : ¬ decide (d ≠ c) = true := by simp [hdc]
      rw [List.filter_cons, List.filter_cons, if_neg hfirst, if_neg hfirst,
        List.filter_eq_self.mpr hkept, List.filter_eq_self.mpr htaken, List.take_take, Nat.min_self]
    · have hfirst : decide (d ≠ c) = true := decide_eq_true hdc
      rw [List.filter_cons, List.filter_cons, if_pos hfirst, if_pos hfirst]
      cases n with
      | zero => rfl
      | succ n => rw [List.take_succ_cons, List.take_succ_cons, ih hrest n]

theorem Holds.touch {cache : ParseCache α} {calls : List Call} (h : cache.Holds parser calls)
    (hcalls : calls.Nodup) (c : Call) :
    (cache.touch c.key (c.parsed parser)).Holds parser (c :: calls.filter (· ≠ c)) := by
  have hothers (l : List Call) :
      (l.map (Call.entry parser)).filter (fun e => e.1 ≠ c.key) =
        (l.filter (· ≠ c)).map (Call.entry parser) := by
    rw [List.filter_map]
    refine congrArg (List.map _) (List.filter_congr fun d _ => ?_)
    simp only [Function.comp_apply, Call.entry, ne_eq, Call.key_eq_key_iff]
  have hroom := take_filter_take hcalls c 127
  change ((c.key, c.parsed parser) ::
    cache.entries.filter fun e => e.1 ≠ c.key).take capacity = _
  rw [h, hothers, capacity, List.take_succ_cons, List.take_succ_cons, ← List.map_take, hroom]
  rfl

/-! ### The calls before -/

/-- The calls, each once and the last one first. -/
def latest (calls : List Call) : List Call := calls.reverse.eraseDups

theorem nodup_latest (calls : List Call) : (latest calls).Nodup := by
  refine (Distinct.pairwise_eraseDupsBy (r := (· == ·)) calls.reverse).imp ?_
  intro a b hab hsame
  rw [hsame, beq_self_eq_true] at hab
  cases hab

theorem latest_concat (calls : List Call) (c : Call) :
    latest (calls ++ [c]) = c :: (latest calls).filter (· ≠ c) := by
  rw [latest, List.reverse_append, List.reverse_singleton, List.singleton_append,
    List.eraseDups_cons, latest, Distinct.filter_eraseDups]
  have htest : (fun b => !b == c) = fun b => decide (b ≠ c) := by
    funext b
    rw [Bool.eq_iff_iff]
    simp
  rw [htest]

theorem length_eraseDups (calls : List Call) : calls.eraseDups.length = calls.toFinset.card := by
  have hsame : calls.eraseDups.toFinset = calls.toFinset := by
    ext c
    rw [List.mem_toFinset, List.mem_toFinset, List.mem_eraseDups]
  have hnodup := nodup_latest calls.reverse
  rw [latest, List.reverse_reverse] at hnodup
  rw [← hsame, List.toFinset_card_of_nodup hnodup]

theorem holds_fetchAll (calls : List Call) :
    (empty.fetchAll parser calls).Holds parser (latest calls) := by
  induction calls using List.reverseRecOn with
  | nil => rfl
  | append_singleton calls c ih =>
    rw [fetchAll, List.foldl_concat, latest_concat]
    change ((empty.fetchAll parser calls).fetch parser c).cache.Holds parser _
    rw [ih.fetch_eq]
    exact ih.touch (nodup_latest calls) c

theorem mem_take_latest_of_last {before between : List Call} {c : Call} (hc : c ∉ between) :
    c ∈ (latest (before ++ c :: between)).take capacity ↔ between.toFinset.card < capacity := by
  have hahead : c ∉ between.reverse.eraseDups := by
    rwa [List.mem_eraseDups, List.mem_reverse]
  have hlength : between.reverse.eraseDups.length = between.toFinset.card := by
    rw [length_eraseDups, List.toFinset_reverse]
  have hbehind : (c :: before.reverse).removeAll between.reverse =
      c :: before.reverse.removeAll between.reverse := by
    simp [List.removeAll, hc]
  -- the sources called since stand first, then the source, then those called before it only
  rw [latest, List.reverse_append, List.reverse_cons, List.append_assoc, List.singleton_append,
    List.eraseDups_append, hbehind, List.eraseDups_cons, List.take_append, List.mem_append, hlength]
  constructor
  · intro h
    rcases h with hfirst | hrest
    · exact absurd (List.mem_of_mem_take hfirst) hahead
    · by_contra hfull
      have hnone : capacity - between.toFinset.card = 0 := by omega
      rw [hnone, List.take_zero] at hrest
      cases hrest
  · intro h
    have hroom : capacity - between.toFinset.card =
        (capacity - between.toFinset.card - 1) + 1 := by omega
    rw [hroom, List.take_succ_cons]
    exact .inr (List.mem_cons_self ..)

theorem exists_last_call {calls : List Call} {c : Call} (h : c ∈ calls) :
    ∃ before since, calls = before ++ c :: since ∧ c ∉ since := by
  obtain ⟨since, before, hsplit, hlast⟩ :=
    List.eq_append_cons_of_mem (List.mem_reverse.mpr h)
  refine ⟨before.reverse, since.reverse, ?_, fun hc => hlast (List.mem_reverse.mp hc)⟩
  rw [← List.reverse_reverse calls, hsplit]
  simp

/-- A source is held as long as fewer others were called since than there is room for. -/
theorem mem_take_latest_iff {earlier : List Call} {c : Call} :
    c ∈ (latest earlier).take capacity ↔ ∃ before between, earlier = before ++ c :: between ∧
      (between.toFinset.erase c).card < capacity := by
  constructor
  · intro h
    have hc : c ∈ earlier := by
      have hlatest := List.mem_of_mem_take h
      rwa [latest, List.mem_eraseDups, List.mem_reverse] at hlatest
    obtain ⟨before, since, rfl, hlast⟩ := exists_last_call hc
    have hfew := (mem_take_latest_of_last hlast).mp h
    exact ⟨before, since, rfl, Nat.lt_of_le_of_lt Finset.card_erase_le hfew⟩
  · intro h
    obtain ⟨before, between, rfl, hfew⟩ := h
    by_cases hc : c ∈ between
    · -- The last of the calls counts, and even fewer others came after it.
      obtain ⟨more, since, rfl, hlast⟩ := exists_last_call hc
      have hfewer : since.toFinset ⊆ (more ++ c :: since).toFinset.erase c := by
        intro d hd
        have hd := List.mem_toFinset.mp hd
        refine Finset.mem_erase.mpr ⟨fun hdc => hlast (hdc ▸ hd), List.mem_toFinset.mpr ?_⟩
        exact List.mem_append_right _ (List.mem_cons_of_mem _ hd)
      have hall : before ++ c :: (more ++ c :: since) = (before ++ c :: more) ++ c :: since := by
        rw [List.append_assoc, List.cons_append]
      rw [hall, mem_take_latest_of_last hlast]
      exact Nat.lt_of_le_of_lt (Finset.card_le_card hfewer) hfew
    · have hnot : c ∉ between.toFinset := by rwa [List.mem_toFinset]
      rw [Finset.erase_eq_of_notMem hnot] at hfew
      exact (mem_take_latest_of_last hc).mpr hfew

/-! ### Answers -/

theorem getElem?_answers (cache : ParseCache α) (earlier : List Call) (c : Call)
    (later : List Call) :
    (answers parser cache (earlier ++ c :: later))[earlier.length]? =
      some ((cache.fetchAll parser earlier).fetch parser c) := by
  induction earlier generalizing cache with
  | nil => rfl
  | cons d rest ih => exact ih (cache.fetch parser d).cache

/-- Calls are answered as if nothing was kept, and one is parsed anew only when it has to. -/
theorem calls_answered_as_parsed (parser : Dialect → String → α) (earlier : List Call) (c : Call)
    (later : List Call) :
    ∃ fetched, (answers parser empty (earlier ++ c :: later))[earlier.length]? = some fetched ∧
      IsAnswer parser earlier c fetched := by
  have hheld : (empty.fetchAll parser earlier).Holds parser (latest earlier) :=
    holds_fetchAll earlier
  refine ⟨_, getElem?_answers empty earlier c later, ?_⟩
  rw [hheld.fetch_eq]
  constructor
  case parsed => rfl
  case bounded => exact touch_length_le ..
  case kept =>
    rw [decide_eq_false_iff_not, not_not]
    exact mem_take_latest_iff

end ComponentAtlas.ParseCache
