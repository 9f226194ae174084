import ComponentAtlas.Proofs.Data.Entries
import ComponentAtlas.Settings
import Mathlib.Data.List.Induction

/-!
# Settings after changes

Settings change by setting a value and by going back to those that hold at
first. After any changes a setting has the value that was set for it last since
the last reset. Changes of other settings are not seen in it, also when they add
a topic or are refused.
-/

namespace ComponentAtlas

theorem Key.text_beq_of_key? {v : Value} {k : Key} (h : v.key? = some k) (s : String) :
    (Key.text s == k) = decide (v = .text s) := by
  cases v with
  | array items => cases h
  | object fields => cases h
  | text t =>
    cases h
    rw [Key.text_beq_text]
    simp [eq_comm]
  | _ => cases h; rfl

namespace Settings

/-- Changes as they are asked for; a topic or a key may be unsuitable. -/
inductive Change where
  | set (topic key value : Value)
  | reset

namespace Change

def touches (topic key : String) : Change → Bool
  | .set t k _ => decide (t = .text topic ∧ k = .text key)
  | .reset => true

end Change

/-- The settings after a change, which stay usable when it is refused. -/
def changed (s : Settings) : Change → Settings
  | .set topic key value => (s.assign topic key value).1
  | .reset => initial

def changedAll (s : Settings) (changes : List Change) : Settings := changes.foldl changed s

theorem changedAll_append (s : Settings) (first second : List Change) :
    s.changedAll (first ++ second) = (s.changedAll first).changedAll second :=
  List.foldl_append

/-! ### One change -/

theorem get?_put (s : Settings) (topic asked key : Key) (entries : Keyed Key Value) :
    get? ⟨s.sections.put topic entries⟩ asked key =
      if asked == topic then entries.get? key else s.get? asked key := by
  unfold get? section?
  rw [Keyed.get?_put]
  split <;> rfl

-- A topic that is new has no entries, and none are found under it before that.
theorem get?_getD_section? (s : Settings) {topic asked : Key} (h : (asked == topic) = true)
    (key : Key) : Keyed.get? ((s.section? topic).getD []) key = s.get? asked key := by
  unfold get? section?
  rw [Keyed.get?_congr s.sections h]
  cases Keyed.get? s.sections topic <;> rfl

theorem get?_set (s : Settings) (topic key asked askedKey : Key) (value : Value) :
    (s.set topic key value).get? asked askedKey =
      if (asked == topic && askedKey == key) = true then some value
      else s.get? asked askedKey := by
  rw [set, get?_put]
  by_cases htopic : (asked == topic) = true
  · rw [if_pos htopic, Keyed.get?_put, get?_getD_section? s htopic, htopic, Bool.true_and]
  · rw [if_neg htopic, if_neg (fun h => htopic (Bool.and_eq_true_iff.mp h).1)]

theorem get?_assign (s : Settings) (topic key value : Value) (asked askedKey : String) :
    (s.assign topic key value).1.get? (.text asked) (.text askedKey) =
      if topic = .text asked ∧ key = .text askedKey then some value
      else s.get? (.text asked) (.text askedKey) := by
  unfold assign
  cases htopic : topic.key? with
  | none =>
    have hother : topic ≠ .text asked := by
      intro h
      rw [h] at htopic
      cases htopic
    rw [if_neg fun h => hother h.1]
  | some t =>
    cases hkey : key.key? with
    | some k =>
      simp only [get?_set, Key.text_beq_of_key? htopic, Key.text_beq_of_key? hkey,
        Bool.and_eq_true, decide_eq_true_eq]
    | none =>
      -- the key is refused, and a topic that is new has no entries
      have hother : key ≠ .text askedKey := by
        intro h
        rw [h] at hkey
        cases hkey
      rw [if_neg fun h => hother h.2, get?_put]
      split
      · next h => exact get?_getD_section? s h _
      · rfl

theorem get_changed_of_spared (s : Settings) {c : Change} {topic key : String}
    (h : c.touches topic key = false) (builtIn : Value) :
    (s.changed c).get (.text topic) (.text key) builtIn =
      s.get (.text topic) (.text key) builtIn := by
  cases c with
  | reset => cases h
  | set t k value =>
    have hother : ¬ (t = .text topic ∧ k = .text key) := of_decide_eq_false h
    unfold get changed
    rw [get?_assign, if_neg hother]

theorem get_changed_set (s : Settings) (topic key : String) (value builtIn : Value) :
    (s.changed (.set (.text topic) (.text key) value)).get (.text topic) (.text key) builtIn =
      value := by
  unfold get changed
  rw [get?_assign, if_pos ⟨rfl, rfl⟩, Option.getD_some]

/-! ### Many changes -/

theorem get_changedAll_of_spared (s : Settings) {changes : List Change} {topic key : String}
    (h : ∀ c ∈ changes, c.touches topic key = false) (builtIn : Value) :
    (s.changedAll changes).get (.text topic) (.text key) builtIn =
      s.get (.text topic) (.text key) builtIn := by
  induction changes generalizing s with
  | nil => rfl
  | cons c rest ih =>
    obtain ⟨hc, hrest⟩ := List.forall_mem_cons.mp h
    exact (ih (s.changed c) hrest).trans (get_changed_of_spared s hc builtIn)

/--
The value that a setting has after changes: the one set last since the last
reset, and where there is none the one that is built in.
-/
inductive Stands (topic key : String) (builtIn : Value) : List Change → Value → Prop
  | set (earlier : List Change) (value : Value) {later : List Change}
      (hlater : ∀ c ∈ later, c.touches topic key = false) :
      Stands topic key builtIn (earlier ++ .set (.text topic) (.text key) value :: later) value
  | reset (earlier : List Change) {later : List Change}
      (hlater : ∀ c ∈ later, c.touches topic key = false) :
      Stands topic key builtIn (earlier ++ .reset :: later) builtIn
  | unchanged {changes : List Change} (h : ∀ c ∈ changes, c.touches topic key = false) :
      Stands topic key builtIn changes builtIn

variable {topic key : String} {builtIn value : Value} {changes : List Change}

theorem Stands.concat {c : Change} (h : Stands topic key builtIn changes value)
    (hc : c.touches topic key = false) : Stands topic key builtIn (changes ++ [c]) value := by
  have hspared {later : List Change} (hlater : ∀ c ∈ later, c.touches topic key = false) :
      ∀ d ∈ later ++ [c], d.touches topic key = false := by
    rw [List.forall_mem_append]
    exact ⟨hlater, List.forall_mem_singleton.mpr hc⟩
  cases h with
  | set earlier _ hlater =>
    rw [List.append_assoc, List.cons_append]
    exact .set earlier value (hspared hlater)
  | reset earlier hlater =>
    rw [List.append_assoc, List.cons_append]
    exact .reset earlier (hspared hlater)
  | unchanged hchanges => exact .unchanged (hspared hchanges)

theorem exists_stands (topic key : String) (builtIn : Value) (changes : List Change) :
    ∃ value, Stands topic key builtIn changes value := by
  induction changes using List.reverseRecOn with
  | nil => exact ⟨builtIn, .unchanged fun c hc => nomatch hc⟩
  | append_singleton rest c ih =>
    cases hc : c.touches topic key with
    | false =>
      obtain ⟨value, hvalue⟩ := ih
      exact ⟨value, hvalue.concat hc⟩
    | true =>
      cases c with
      | reset => exact ⟨builtIn, .reset rest fun c hc => nomatch hc⟩
      | set t k value =>
        obtain ⟨rfl, rfl⟩ : t = .text topic ∧ k = .text key := of_decide_eq_true hc
        exact ⟨value, .set rest value fun c hc => nomatch hc⟩

/-- A setting that holds its built-in value at first is answered by what stands. -/
theorem get_of_stands (hinitial : initial.get (.text topic) (.text key) builtIn = builtIn)
    (h : Stands topic key builtIn changes value) :
    (initial.changedAll changes).get (.text topic) (.text key) builtIn = value := by
  cases h with
  | set earlier _ hlater =>
    rw [changedAll_append]
    exact (get_changedAll_of_spared _ hlater builtIn).trans (get_changed_set _ topic key value _)
  | reset earlier hlater =>
    rw [changedAll_append]
    exact (get_changedAll_of_spared initial hlater builtIn).trans hinitial
  | unchanged hchanges => exact (get_changedAll_of_spared initial hchanges builtIn).trans hinitial

theorem Stands.filter (h : Stands topic key builtIn changes value) (seen : Change → Bool)
    (hseen : ∀ c : Change, c.touches topic key = true → seen c = true) :
    Stands topic key builtIn (changes.filter seen) value := by
  have hspared {later : List Change} (hlater : ∀ c ∈ later, c.touches topic key = false) :
      ∀ c ∈ later.filter seen, c.touches topic key = false :=
    fun c hc => hlater c (List.mem_filter.mp hc).1
  cases h with
  | set earlier _ hlater =>
    have hset : (Change.set (.text topic) (.text key) value).touches topic key = true :=
      decide_eq_true ⟨rfl, rfl⟩
    rw [List.filter_append, List.filter_cons_of_pos (hseen _ hset)]
    exact .set _ value (hspared hlater)
  | reset earlier hlater =>
    rw [List.filter_append, List.filter_cons_of_pos (hseen _ rfl)]
    exact .reset _ (hspared hlater)
  | unchanged hchanges => exact .unchanged (hspared hchanges)

end Settings

end ComponentAtlas
