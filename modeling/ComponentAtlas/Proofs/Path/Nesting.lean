import ComponentAtlas.Proofs.Data.Descent
import ComponentAtlas.Proofs.Path.Comments
import ComponentAtlas.Proofs.Path.Recursion

/-!
# Calls in calls

The path of an expression is found by a call that goes down the chain of the
expression with a queue of what is still to be looked at. For the expression that
a key denotes, and for the keys, values and elements of a literal, it makes calls
of its own. These calls nest no deeper than the tree has nodes, and once more for
a part that is lost, or else they nest without end; whatever more room there is
for them, the answer is the same. So the answers of calls are what is read of the
expression, and no call answers where what is read is that the path has no end.
-/

namespace ComponentAtlas.Path

open Relation SourceTree

/-- What comes of a call: nothing where calls nest too deep, else an answer or a failure. -/
abbrev Attempt (α : Type) : Type := ExceptT Failure Option α

namespace Attempt

variable {α β γ : Type}

def tooDeep : Attempt α := ExceptT.mk none

def of (answer : Except Failure α) : Attempt α := ExceptT.mk (some answer)

/-- What is to come of a call where this is read: calls for a path without end nest too deep. -/
def ofRead : Except Failure α → Attempt α
  | .error (.misuse .endless) => tooDeep
  | answer => of answer

theorem ofRead_of_ne {answer : Except Failure α} (h : answer ≠ .error (.misuse .endless)) :
    ofRead answer = of answer := by
  unfold ofRead
  split
  · exact absurd rfl h
  · rfl

theorem ofRead_eq_tooDeep_iff {answer : Except Failure α} :
    ofRead answer = tooDeep ↔ answer = .error (.misuse .endless) := by
  constructor
  · intro h
    by_contra hother
    rw [ofRead_of_ne hother] at h
    exact Option.some_ne_none _ h
  · rintro rfl
    rfl

theorem ofRead_checked_texts (places : List Cursor) (a : α) :
    ofRead (Reading.checked (Reading.texts places) a) =
      of (Reading.checked (Reading.texts places) a) := by
  refine ofRead_of_ne ?_
  rw [Reading.checked_texts]
  split <;> simp

theorem bind_ofRead {looks others : List Reading.Look} {a : α} {b : β} {next : α → Attempt β}
    (h : next a = ofRead (Reading.checked others b)) :
    (ofRead (Reading.checked looks a) >>= next) =
      ofRead (Reading.checked (looks ++ others) b) := by
  unfold Reading.checked at h ⊢
  rw [List.findSome?_append]
  cases looks.findSome? Reading.Look.fault? with
  | none => exact h
  | some fault => cases fault <;> rfl

theorem bind_pure_ofRead {looks : List Reading.Look} {a : α} (f : α → β) :
    (ofRead (Reading.checked looks a) >>= fun a => pure (f a)) =
      ofRead (Reading.checked looks (f a)) := by
  unfold Reading.checked
  cases looks.findSome? Reading.Look.fault? with
  | none => rfl
  | some fault => cases fault <;> rfl

theorem map_of (f : α → β) (answer : Except Failure α) : f <$> of answer = of (f <$> answer) := by
  cases answer with
  | ok a => rfl
  | error failure => rfl

theorem mapM_ofRead {items : List γ} {work : γ → Attempt α} {looks : γ → List Reading.Look}
    {value : γ → α}
    (h : ∀ item ∈ items, work item = ofRead (Reading.checked (looks item) (value item))) :
    items.mapM work = ofRead (Reading.checked (items.flatMap looks) (items.map value)) := by
  induction items with
  | nil => rfl
  | cons item rest ih =>
    have hrest := ih fun other hother => h other (List.mem_cons_of_mem _ hother)
    rw [List.mapM_cons, h item (List.mem_cons_self ..)]
    refine bind_ofRead ?_
    rw [hrest]
    exact bind_pure_ofRead _

/-! ### Attempts with more room -/

/-- The second attempt comes to the same as the first, unless that nests too deep. -/
def Below (first second : Attempt α) : Prop := first = tooDeep ∨ first = second

theorem Below.refl (attempt : Attempt α) : Below attempt attempt := .inr rfl

theorem Below.trans {first second third : Attempt α} (h : Below first second)
    (h' : Below second third) : Below first third := by
  rcases h with h | rfl
  · exact .inl h
  · exact h'

theorem Below.antisymm {first second : Attempt α} (h : Below first second)
    (h' : Below second first) : first = second := by
  rcases h with h | h
  · rcases h' with h' | h'
    · rw [h, h']
    · exact h'.symm
  · exact h

theorem Below.bind {first second : Attempt α} {next other : α → Attempt β}
    (h : Below first second) (hnext : ∀ a, Below (next a) (other a)) :
    Below (first >>= next) (second >>= other) := by
  rcases h with rfl | rfl
  · exact .inl rfl
  · cases first with
    | none => exact .inl rfl
    | some answer =>
      cases answer with
      | error failure => exact .inr rfl
      | ok a => exact hnext a

theorem Below.map {first second : Attempt α} (f : α → β) (h : Below first second) :
    Below (f <$> first) (f <$> second) := by
  rcases h with rfl | rfl
  · exact .inl rfl
  · exact .refl _

theorem Below.mapM {items : List γ} {work other : γ → Attempt α}
    (h : ∀ item ∈ items, Below (work item) (other item)) :
    Below (items.mapM work) (items.mapM other) := by
  induction items with
  | nil => exact .refl _
  | cons item rest ih =>
    have hrest := ih fun later hlater => h later (List.mem_cons_of_mem _ hlater)
    rw [List.mapM_cons, List.mapM_cons]
    exact (h item (List.mem_cons_self ..)).bind fun _ => hrest.bind fun _ => .refl _

end Attempt

/-! ### Calls -/

/-- Where the path of an expression goes on without a further call. -/
def onward (c : Cursor) : List (Option Cursor) :=
  match Form.ofKind c.kind with
  | .call => [c.child? "function"]
  | .member | .subscript => [c.child? "object"]
  | .parentheses => [c.content?]
  | .word | .self | .object | .array | .other => []

section

variable (reader : Reading.KeyReader) (inner : Option Cursor → Attempt (List String))

def writeMember (m : Cursor) : Attempt String :=
  match MemberForm.ofKind m.kind with
  | .pair => do
    let key ← inner (keyExpression (m.child? "key"))
    let value ← inner (m.child? "value")
    pure (joinDots key ++ ": " ++ joinDots value)
  | .shorthand => do
    let name ← Attempt.of (Reading.text (some m))
    pure (name ++ ": " ++ name)
  | .spread => do
    let path ← inner m.content?
    pure ("..." ++ joinDots path)
  | .named => do
    let name ← inner (keyExpression (m.child? "name"))
    pure (joinDots name ++ ": ")

/-- The segments that an expression adds itself, from the leaf on; `inner` makes the calls. -/
def segmentsAt (c : Cursor) : Attempt (List String) :=
  match Form.ofKind c.kind with
  | .call | .parentheses | .other => pure []
  | .member => do
    let name ← Attempt.of (Reading.text (c.child? "property"))
    pure [name]
  | .subscript => do
    let index := c.child? "index"
    match ← Attempt.of (Reading.checked (Reading.texts (reader.inKey index))
        (reader.resolve index)) with
    | some key => inner (some key)
    | none => pure [computedSegment]
  | .word => do
    let text ← Attempt.of (Reading.text (some c))
    pure [text]
  | .self => pure ["this"]
  | .object => do
    let members ← c.contents.mapM (writeMember inner)
    pure ["\x7b" ++ ", ".intercalate members ++ "\x7d"]
  | .array => do
    let elements ← c.contents.mapM fun element => joinDots <$> inner (some element)
    pure ["[" ++ ", ".intercalate elements ++ "]"]

def weight : List (Option Cursor) → Nat
  | [] => 0
  | none :: rest => weight rest + 1
  | some c :: rest => weight rest + c.node.size + 1

theorem weight_append (queue others : List (Option Cursor)) :
    weight (queue ++ others) = weight queue + weight others := by
  induction queue with
  | nil => simp [weight]
  | cons x rest ih =>
    cases x with
    | none => simp only [List.cons_append, weight, ih]; omega
    | some c => simp only [List.cons_append, weight, ih]; omega

theorem weight_singleton_le {c : Cursor} {x : Option Cursor}
    (h : ∀ d, x = some d → Cursor.IsChild c d) : weight [x] ≤ c.node.size := by
  cases x with
  | none => exact Cursor.size_pos c
  | some d =>
    have hlt := Cursor.size_lt_of_isChild (h d rfl)
    simp only [weight]
    omega

theorem weight_onward_le (c : Cursor) : weight (onward c) ≤ c.node.size := by
  unfold onward
  cases Form.ofKind c.kind with
  | call | member | subscript => exact weight_singleton_le fun d hd => Cursor.isChild_of_child? hd
  | parentheses => exact weight_singleton_le fun d hd => Cursor.isChild_of_content? hd
  | word | self | object | array | other => exact Nat.zero_le _

/-- The loop of a call over the queue, with the segments met so far from the leaf on. -/
def loop : List (Option Cursor) → List String → Attempt (List String)
  | [], met => pure met.reverse
  | none :: queue, met => loop queue met
  | some c :: queue, met => do
    let found ← segmentsAt reader inner c
    loop (queue ++ onward c) (met ++ found)
termination_by queue => weight queue
decreasing_by
  · simp only [weight]
    omega
  · have hle := weight_onward_le c
    simp only [weight_append, weight]
    omega

/-- A call for an expression, with calls nested at most so deep. -/
def callWithin : (depth : Nat) → Option Cursor → Attempt (List String)
  | 0, _ => Attempt.tooDeep
  | depth + 1, x => loop reader (callWithin depth) [x] []

def dottedWithin (depth : Nat) (x : Option Cursor) : Attempt String :=
  joinDots <$> callWithin reader depth x

end

variable {reader : Reading.KeyReader} {inner : Option Cursor → Attempt (List String)}

theorem loop_nil (met : List String) : loop reader inner [] met = pure met.reverse := by
  rw [loop]

theorem loop_none (met : List String) : loop reader inner [none] met = pure met.reverse := by
  rw [loop, loop]

theorem loop_some (c : Cursor) (met : List String) :
    loop reader inner [some c] met =
      segmentsAt reader inner c >>= fun found => loop reader inner (onward c) (met ++ found) := by
  rw [loop, List.nil_append]

theorem hasPart_of_mem_onward (resolve : KeyResolver) {c d : Cursor} (h : some d ∈ onward c) :
    Cursor.IsChild c d ∧ HasPart resolve c d := by
  unfold onward at h
  unfold HasPart parts
  cases hform : Form.ofKind c.kind with
  | call | member =>
    simp only [hform] at h ⊢
    have hd := (List.mem_singleton.mp h).symm
    exact ⟨Cursor.isChild_of_child? hd, Option.mem_toList.mpr hd⟩
  | subscript =>
    simp only [hform] at h ⊢
    have hd := (List.mem_singleton.mp h).symm
    exact ⟨Cursor.isChild_of_child? hd, List.mem_append_right _ (Option.mem_toList.mpr hd)⟩
  | parentheses =>
    simp only [hform] at h ⊢
    have hd := (List.mem_singleton.mp h).symm
    exact ⟨Cursor.isChild_of_content? hd, Option.mem_toList.mpr hd⟩
  | word | self | object | array | other =>
    simp only [hform] at h
    exact absurd h List.not_mem_nil

/-! ### Steps with more room -/

/-- How a call goes on with what it has met; `next` makes the rounds for what comes onward. -/
def goOn (next : Option Cursor → List String → Attempt (List String)) :
    List (Option Cursor) → List String → Attempt (List String)
  | [], met => pure met.reverse
  | x :: _, met => next x met

theorem loop_onward (c : Cursor) (met : List String) :
    loop reader inner (onward c) met = goOn (fun x => loop reader inner [x]) (onward c) met := by
  unfold onward
  cases Form.ofKind c.kind with
  | call | member | subscript | parentheses => rfl
  | word | self | object | array | other => exact loop_nil met

theorem loop_round (c : Cursor) (met : List String) :
    loop reader inner [some c] met =
      segmentsAt reader inner c >>= fun found =>
        goOn (fun x => loop reader inner [x]) (onward c) (met ++ found) := by
  simp only [loop_some, loop_onward]

section

variable {other : Option Cursor → Attempt (List String)} {c : Cursor}

theorem writeMember_below {m : Cursor}
    (h : ∀ x : Option Cursor, x.toList ⊆ memberParts m → (inner x).Below (other x)) :
    (writeMember inner m).Below (writeMember other m) := by
  unfold memberParts at h
  unfold writeMember
  cases hform : MemberForm.ofKind m.kind with
  | pair =>
    simp only [hform] at h ⊢
    have hkey := h _ (List.subset_append_left ..)
    have hvalue := h _ (List.subset_append_right ..)
    exact hkey.bind fun _ => hvalue.bind fun _ => .refl _
  | shorthand => exact .refl _
  | spread =>
    simp only [hform] at h ⊢
    exact (h _ (List.Subset.refl _)).bind fun _ => .refl _
  | named =>
    simp only [hform] at h ⊢
    exact (h _ (List.Subset.refl _)).bind fun _ => .refl _

theorem segmentsAt_below
    (h : ∀ x : Option Cursor, x.toList ⊆ parts reader.resolve c → (inner x).Below (other x)) :
    (segmentsAt reader inner c).Below (segmentsAt reader other c) := by
  unfold parts at h
  unfold segmentsAt
  cases hform : Form.ofKind c.kind with
  | subscript =>
    simp only [hform] at h ⊢
    cases hkey : reader.resolve (c.child? "index") with
    | none =>
      unfold Reading.checked
      split <;> exact .refl _
    | some k =>
      rw [hkey] at h
      unfold Reading.checked
      split
      · exact h (some k) (List.subset_append_left ..)
      · exact .refl _
  | object =>
    simp only [hform] at h ⊢
    have hmembers := Attempt.Below.mapM fun m hm => writeMember_below fun x hx =>
      h x fun d hd => List.mem_flatMap.mpr ⟨m, hm, hx hd⟩
    exact hmembers.bind fun _ => .refl _
  | array =>
    simp only [hform] at h ⊢
    have helements := Attempt.Below.mapM fun e he =>
      (h (some e) (List.cons_subset.mpr ⟨he, List.nil_subset _⟩)).map joinDots
    exact helements.bind fun _ => .refl _
  | call | member | parentheses | word | self | other => exact .refl _

theorem goOn_below {next later : Option Cursor → List String → Attempt (List String)}
    {queue : List (Option Cursor)}
    (h : ∀ x ∈ queue, ∀ met, (next x met).Below (later x met)) (met : List String) :
    (goOn next queue met).Below (goOn later queue met) := by
  cases queue with
  | nil => exact .refl _
  | cons x rest => exact h x (List.mem_cons_self ..) met

end

/-! ### Calls and what is read -/

/-- What is read within so many steps by a call that has met some segments. -/
def within (reader : Reading.KeyReader) (fuel : Nat) (x : Option Cursor) (met : List String) :
    Attempt (List String) :=
  .ofRead (Reading.checked (Reading.inCollect reader.resolve reader.inKey fuel x)
    (collect reader.resolve fuel x met.reverse))

section

variable {fuel : Nat} {c : Cursor}

theorem within_none (met : List String) : within reader fuel none met = pure met.reverse := by
  rw [within, Reading.inCollect_none, collect_none]
  rfl

theorem writeMember_within (m : Cursor) :
    writeMember (fun x => within reader fuel x []) m =
      .ofRead (Reading.checked
        (Reading.inMember (Reading.inCollect reader.resolve reader.inKey fuel) m)
        (memberText (fun x => joinDots (collect reader.resolve fuel x [])) m)) := by
  unfold writeMember Reading.inMember memberText
  cases MemberForm.ofKind m.kind with
  | pair => exact Attempt.bind_ofRead (Attempt.bind_pure_ofRead _)
  | shorthand =>
    simp only [Reading.text, ← Attempt.ofRead_checked_texts]
    exact Attempt.bind_pure_ofRead _
  | spread | named => exact Attempt.bind_pure_ofRead _

theorem bind_goOn_nil {α : Type} {work : Attempt α} {looks : List Reading.Look} {a : α}
    (segment : α → String) (h : work = .ofRead (Reading.checked looks a)) (met : List String)
    (next : Option Cursor → List String → Attempt (List String)) :
    ((work >>= fun a => pure [segment a]) >>= fun found => goOn next [] (met ++ found)) =
      .ofRead (Reading.checked looks (segment a :: met.reverse)) := by
  simp only [h, Attempt.bind_pure_ofRead, goOn, List.reverse_append]
  rfl

/-- One step is one round of the loop of a call, with one step less for all that it leads to. -/
theorem within_succ (met : List String) :
    within reader (fuel + 1) (some c) met =
      segmentsAt reader (fun x => within reader fuel x []) c >>= fun found =>
        goOn (within reader fuel) (onward c) (met ++ found) := by
  unfold within segmentsAt onward
  rw [Reading.inCollect, collect]
  cases hform : Form.ofKind c.kind with
  | call | parentheses =>
    simp only
    rw [pure_bind, List.append_nil]
    rfl
  | member =>
    simp only [Reading.text, ← Attempt.ofRead_checked_texts]
    rw [bind_assoc]
    refine (Attempt.bind_ofRead ?_).symm
    rw [pure_bind, goOn, List.reverse_append]
    rfl
  | subscript =>
    simp only [← Attempt.ofRead_checked_texts]
    rw [bind_assoc, List.append_assoc]
    refine (Attempt.bind_ofRead ?_).symm
    cases hkey : reader.resolve (c.child? "index") with
    | none =>
      simp only
      rw [pure_bind, goOn, List.reverse_append, Reading.inCollect_none]
      rfl
    | some k =>
      simp only
      refine Attempt.bind_ofRead ?_
      rw [goOn, List.reverse_append]
      rfl
  | word =>
    simp only [Reading.text, ← Attempt.ofRead_checked_texts]
    exact (bind_goOn_nil (fun text => text) rfl met _).symm
  | self =>
    simp only
    rw [pure_bind, goOn, List.reverse_append]
    rfl
  | object =>
    simp only
    refine (bind_goOn_nil (fun members => "\x7b" ++ ", ".intercalate members ++ "\x7d") ?_ met
      _).symm
    exact Attempt.mapM_ofRead fun m _ => writeMember_within m
  | array =>
    simp only
    refine (bind_goOn_nil (fun elements => "[" ++ ", ".intercalate elements ++ "]") ?_ met
      _).symm
    exact Attempt.mapM_ofRead fun e _ => Attempt.bind_pure_ofRead joinDots
  | other =>
    simp only
    rw [pure_bind, List.append_nil]
    rfl

end

/-! ### Where calls come to what is read -/

theorem within_mono (fuel : Nat) (x : Option Cursor) (met : List String) :
    (within reader fuel x met).Below (within reader (fuel + 1) x met) := by
  induction fuel generalizing x met with
  | zero =>
    cases x with
    | none => exact .inr (by rw [within_none, within_none])
    | some c => exact .inl rfl
  | succ fuel ih =>
    cases x with
    | none => exact .inr (by rw [within_none, within_none])
    | some c =>
      rw [within_succ, within_succ]
      exact (segmentsAt_below fun x _ => ih x []).bind fun found =>
        goOn_below (fun x _ => ih x) (met ++ found)

theorem within_mono_add (fuel more : Nat) (x : Option Cursor) (met : List String) :
    (within reader fuel x met).Below (within reader (fuel + more) x met) := by
  induction more with
  | zero => exact .refl _
  | succ more ih => exact ih.trans (within_mono (fuel + more) x met)

/-- Calls that may nest as deep as there are steps come to what is read in these. -/
theorem within_below_loop {fuel depth : Nat} (h : fuel ≤ depth) (x : Option Cursor)
    (met : List String) :
    (within reader fuel x met).Below (loop reader (callWithin reader depth) [x] met) := by
  induction fuel generalizing depth x met with
  | zero =>
    cases x with
    | none => exact .inr (by rw [within_none, loop_none])
    | some c => exact .inl rfl
  | succ fuel ih =>
    cases x with
    | none => exact .inr (by rw [within_none, loop_none])
    | some c =>
      obtain ⟨less, rfl⟩ : ∃ less, depth = less + 1 := ⟨depth - 1, by omega⟩
      rw [within_succ, loop_round]
      exact (segmentsAt_below fun x _ => ih (by omega) x []).bind fun found =>
        goOn_below (fun x _ => ih (by omega) x) (met ++ found)

section

variable {root : Node} {c : Cursor} (hstays : StaysIn reader.resolve root)

include hstays

/-- In a tree of so many nodes each call takes no more steps of its own than there are nodes. -/
theorem loop_below_within {depth fuel : Nat} (hc : Cursor.Within root c)
    (h : depth * root.size + c.node.size ≤ fuel) (met : List String) :
    (loop reader (callWithin reader depth) [some c] met).Below
      (within reader fuel (some c) met) := by
  induction fuel generalizing depth c met with
  | zero =>
    have hpos := Cursor.size_pos c
    omega
  | succ fuel ih =>
    rw [loop_round, within_succ]
    refine (segmentsAt_below fun x hx => ?_).bind fun found =>
      goOn_below (fun x hx met => ?_) (met ++ found)
    · cases depth with
      | zero => exact .inl rfl
      | succ depth =>
        cases x with
        | none => exact .inr ((loop_none []).trans (within_none []).symm)
        | some d =>
          have hd := hstays.within hc (hx (List.mem_singleton_self d))
          have hsize : d.node.size ≤ root.size := Cursor.size_le_of_contains hd
          have hpos := Cursor.size_pos c
          rw [Nat.succ_mul] at h
          exact ih hd (by omega) []
    · cases x with
      | none => exact .inr ((loop_none met).trans (within_none met).symm)
      | some d =>
        have hchild := (hasPart_of_mem_onward reader.resolve hx).1
        have hsize := Cursor.size_lt_of_isChild hchild
        exact ih (hc.child hchild) (by omega) met

theorem callWithin_below_within {depth : Nat} (hc : Cursor.Within root c) :
    (callWithin reader depth (some c)).Below
      (within reader (depth * root.size + c.node.size) (some c) []) := by
  cases depth with
  | zero => exact .inl rfl
  | succ depth =>
    refine loop_below_within hstays hc ?_ []
    rw [Nat.succ_mul]
    omega

end

/-! ### As many steps as there are nodes -/

/-- What is at fault first, if anything is, is not that the steps go on without end. -/
def isEnding (reader : Reading.KeyReader) (fuel : Nat) (c : Cursor) : Bool :=
  (Reading.inCollect reader.resolve reader.inKey fuel (some c)).findSome? Reading.Look.fault? !=
    some .endless

theorem within_eq_tooDeep_iff {fuel : Nat} {c : Cursor} (met : List String) :
    within reader fuel (some c) met = .tooDeep ↔ ¬ isEnding reader fuel c = true := by
  rw [within, Attempt.ofRead_eq_tooDeep_iff, Reading.checked_eq_error, isEnding, bne_iff_ne,
    not_not]

/-- An attempt with more room that ends is the same with less, if that ends as well. -/
theorem within_below_of_isEnding {fuel more : Nat} {c : Cursor}
    (h : isEnding reader more c = true → isEnding reader fuel c = true)
    (hbelow : ∀ met, (within reader fuel (some c) met).Below (within reader more (some c) met))
    (met : List String) :
    (within reader more (some c) met).Below (within reader fuel (some c) met) := by
  by_cases hmore : isEnding reader more c = true
  · refine .inr ((hbelow met).resolve_left fun hdeep => ?_).symm
    exact (within_eq_tooDeep_iff met).mp hdeep (h hmore)
  · exact .inl ((within_eq_tooDeep_iff met).mpr hmore)

theorem isEnding_of_below {fuel more : Nat} {c : Cursor}
    (hbelow : (within reader fuel (some c) []).Below (within reader more (some c) []))
    (h : isEnding reader fuel c = true) : isEnding reader more c = true := by
  by_contra hmore
  rw [(within_eq_tooDeep_iff []).mpr hmore] at hbelow
  have hdeep : within reader fuel (some c) [] = .tooDeep := hbelow.elim id id
  exact (within_eq_tooDeep_iff []).mp hdeep h

theorem isEnding_mono (fuel : Nat) (c : Cursor) (h : isEnding reader fuel c = true) :
    isEnding reader (fuel + 1) c = true :=
  isEnding_of_below (within_mono fuel (some c) []) h

/-- Attempts that both end are the same, whichever has more room. -/
theorem within_eq_of_isEnding {fuel more : Nat} {c : Cursor} (h : isEnding reader fuel c = true)
    (hmore : isEnding reader more c = true) :
    within reader fuel (some c) [] = within reader more (some c) [] := by
  have hfirst : (within reader fuel (some c) []).Below (within reader (fuel + more) (some c) []) :=
    within_mono_add fuel more (some c) []
  have hsecond : (within reader more (some c) []).Below (within reader (more + fuel) (some c) []) :=
    within_mono_add more fuel (some c) []
  rw [hfirst.resolve_left fun hdeep => (within_eq_tooDeep_iff []).mp hdeep h,
    hsecond.resolve_left fun hdeep => (within_eq_tooDeep_iff []).mp hdeep hmore, Nat.add_comm]

section

variable {root : Node} {c : Cursor} (hstays : StaysIn reader.resolve root)

include hstays

/-- Where one more step brings nothing for any node, the next brings nothing either. -/
theorem isEnding_step (fuel : Nat)
    (h : ∀ d ∈ Cursor.placesFrom [] root,
      isEnding reader (fuel + 1) d = true → isEnding reader fuel d = true) :
    ∀ c ∈ Cursor.placesFrom [] root,
      isEnding reader (fuel + 2) c = true → isEnding reader (fuel + 1) c = true := by
  intro c hc hlater
  have hin := Cursor.within_iff_mem_places.mpr hc
  have hback {d : Cursor} (hd : Cursor.Within root d) (met : List String) :
      (within reader (fuel + 1) (some d) met).Below (within reader fuel (some d) met) :=
    within_below_of_isEnding (h d hd.mem_places) (within_mono fuel (some d)) met
  refine isEnding_of_below ?_ hlater
  rw [within_succ, within_succ]
  refine (segmentsAt_below fun x hx => ?_).bind fun found =>
    goOn_below (fun x hx met => ?_) ([] ++ found)
  · cases x with
    | none => exact .inr ((within_none []).trans (within_none []).symm)
    | some d => exact hback (hstays.within hin (hx (List.mem_singleton_self d))) []
  · cases x with
    | none => exact .inr ((within_none met).trans (within_none met).symm)
    | some d => exact hback (hin.child (hasPart_of_mem_onward reader.resolve hx).1) met

/-- Whatever is read at all is read within as many steps as the tree has nodes. -/
theorem within_below_within_size (hc : Cursor.Within root c) (fuel : Nat) :
    (within reader fuel (some c) []).Below (within reader root.size (some c) []) := by
  by_cases hends : isEnding reader fuel c = true
  · have hsize : isEnding reader root.size c = true := by
      rw [← Cursor.length_places root]
      exact Descent.ends_length isEnding_mono (isEnding_step hstays) hc.mem_places hends
    exact .inr (within_eq_of_isEnding hends hsize)
  · exact .inl ((within_eq_tooDeep_iff []).mpr hends)

end

/-! ### The answer of a call -/

section

variable {root : Node} {x : Option Cursor} (hstays : StaysIn reader.resolve root)
  (hx : ∀ c ∈ x, Cursor.Within root c)

include hstays hx

/-- With any room a call that does not nest too deep answers what is read. -/
theorem callWithin_below_read (depth : Nat) :
    (callWithin reader depth x).Below (.ofRead (Reading.segmentsBy reader x)) := by
  cases x with
  | none =>
    cases depth with
    | zero => exact .inl rfl
    | succ depth => exact .inr (loop_none [])
  | some c =>
    have hc := hx c rfl
    rw [Reading.segmentsBy, segmentsBy, Reading.inPathBy, hc.root_eq]
    exact (callWithin_below_within hstays hc).trans <|
      (within_below_within_size hstays hc _).trans (within_mono root.size (some c) [])

/--
With room for one nested call more than there are nodes a call answers what is read, or nests too
deep where what is read is that the path has no end.
-/
theorem callWithin_eq_read {depth : Nat} (hdepth : root.size < depth) :
    callWithin reader depth x = .ofRead (Reading.segmentsBy reader x) := by
  refine (callWithin_below_read hstays hx depth).antisymm ?_
  obtain ⟨less, rfl⟩ : ∃ less, depth = less + 1 := ⟨depth - 1, by omega⟩
  cases x with
  | none => exact .inr (loop_none []).symm
  | some c =>
    have hc := hx c rfl
    rw [Reading.segmentsBy, segmentsBy, Reading.inPathBy, hc.root_eq]
    exact (within_below_within_size hstays hc (root.size + 1)).trans
      (within_below_loop (by omega) (some c) [])

/-- No call answers exactly where what is read is that the path has no end. -/
theorem forall_tooDeep_iff : (∀ depth, callWithin reader depth x = .tooDeep) ↔
    Reading.segmentsBy reader x = .error (.misuse .endless) := by
  rw [← Attempt.ofRead_eq_tooDeep_iff]
  constructor
  · intro h
    rw [← callWithin_eq_read hstays hx (Nat.lt_succ_self root.size)]
    exact h _
  · intro h depth
    rcases callWithin_below_read hstays hx depth with hdeep | hread
    · exact hdeep
    · exact hread.trans h

end

/-- With room for one nested call more than there are nodes a call ends, and with any more room. -/
def CallsEnd (reader : Reading.KeyReader) (root : Node) (x : Option Cursor) : Prop :=
  ∀ depth, root.size < depth →
    callWithin reader depth x = .of (Reading.segmentsBy reader x) ∧
      dottedWithin reader depth x = .of (Reading.dottedBy reader x)

section

variable {root : Node} {x : Option Cursor}

theorem callsEnd_of_finite (hstays : StaysIn reader.resolve root)
    (hfinite : HasFinitePaths reader.resolve root) (hx : ∀ c ∈ x, Cursor.Within root c) :
    CallsEnd reader root x := by
  intro depth hdepth
  have hends : ∀ c ∈ x, RecursionEnds reader.resolve c := fun c hc =>
    hfinite.recursionEnds hstays (hx c hc)
  have hcall : callWithin reader depth x = .of (Reading.segmentsBy reader x) := by
    rw [callWithin_eq_read hstays hx hdepth,
      Attempt.ofRead_of_ne (Reading.segmentsBy_ne_endless hstays hx hends)]
  refine ⟨hcall, ?_⟩
  rw [dottedWithin, hcall, Attempt.map_of, Reading.dottedBy]

/-- Where keys denote nothing or what stands in the brackets, parts lie below the expression. -/
theorem size_lt_of_hasPart {resolve : KeyResolver}
    (hplain : ∀ key k, resolve key = some k → key = some k) {c d : Cursor}
    (h : HasPart resolve c d) : d.node.size < c.node.size := by
  have hheld {p : Cursor} (hp : c.Contains p) (hd : Cursor.IsChild p d) :
      d.node.size < c.node.size :=
    Nat.lt_of_lt_of_le (Cursor.size_lt_of_isChild hd) (Cursor.size_le_of_contains hp)
  rcases h.held_or_denoted with ⟨p, hp, hd | ⟨name, hd⟩⟩ | hd
  · exact hheld hp (Cursor.isChild_of_mem_contents hd)
  · exact hheld hp (Cursor.isChild_of_child? hd)
  · exact hheld .refl (Cursor.isChild_of_child? (hplain _ _ hd))

theorem callsEnd_of_plain {resolve : KeyResolver}
    (hplain : ∀ key k, resolve key = some k → key = some k) (hx : ∀ c ∈ x, Cursor.Within root c) :
    CallsEnd (.plain resolve) root x := by
  refine callsEnd_of_finite (fun key k hkey hk => hkey k (hplain key k hk)) ?_ hx
  intro c _ hback
  have hless : ∀ d, TransGen (HasPart resolve) c d → d.node.size < c.node.size := by
    intro d hd
    induction hd with
    | single h => exact size_lt_of_hasPart hplain h
    | tail _ h ih => exact Nat.lt_trans (size_lt_of_hasPart hplain h) ih
  exact Nat.lt_irrefl _ (hless c hback)

/--
Where no expression is a part of itself, calls for a path nest at most one deeper than the tree has
nodes. Keys that are never known, or stand for themselves, make no expression a part of itself.
-/
theorem calls_end (hx : ∀ c ∈ x, Cursor.Within root c) :
    (∀ reader : Reading.KeyReader, StaysIn reader.resolve root →
      HasFinitePaths reader.resolve root → CallsEnd reader root x) ∧
      CallsEnd (.plain fun _ => none) root x ∧ CallsEnd (.plain fun key => key) root x := by
  refine ⟨fun reader hstays hfinite => callsEnd_of_finite hstays hfinite hx, ?_, ?_⟩
  · exact callsEnd_of_plain (fun _ _ hk => nomatch hk) hx
  · exact callsEnd_of_plain (fun _ _ hk => hk) hx

end

/-- The rows of a key that stands for a path elsewhere. -/
def referredRows : List Row :=
  let row (parent : Nat) (kind : String) (start stop : Nat) (field : Option String) : Row :=
    ⟨some parent, kind, start, stop, field, true, false⟩
  [⟨none, "program", 0, 20, none, true, false⟩, row 0 "variable_declaration" 0 12 none,
    row 1 "variable_declarator" 4 11 none, row 2 "identifier" 4 5 (some "name"),
    row 2 "member_expression" 8 11 (some "value"), row 4 "identifier" 8 9 (some "object"),
    row 4 "property_identifier" 10 11 (some "property"), row 0 "expression_statement" 13 20 none,
    row 7 "subscript_expression" 13 19 none, row 8 "member_expression" 13 16 (some "object"),
    row 9 "identifier" 13 14 (some "object"), row 9 "property_identifier" 15 16 (some "property"),
    row 8 "identifier" 17 18 (some "index")]

def referred : Node := (Node.ofRows? "var k = a.b;\nx.y[k];" referredRows).get rfl

def referredPlace (i : Fin 13) : Cursor := (Cursor.ofRoot referred).preorder.get (i.cast rfl)

/-- A key makes a call for what it stands for, and room for calls as for all nodes is enough. -/
theorem calls_end_referred :
    Cursor.Within referred (referredPlace 8) ∧ StaysIn byScope referred ∧
      HasFinitePaths byScope referred ∧
      callWithin .byScope 1 (some (referredPlace 8)) = .tooDeep ∧
      ∀ depth, 13 < depth →
        callWithin .byScope depth (some (referredPlace 8)) = .of (.ok ["x", "y", "b", "a"]) := by
  have hin : Cursor.Within referred (referredPlace 8) :=
    Cursor.contains_of_mem_preorder (List.get_mem _ _)
  have hfinite : HasFinitePaths byScope referred := hasFinitePaths_of_size (by decide +kernel)
  have hmember : loop .byScope (callWithin .byScope 0) [some (referredPlace 8)] [] = .tooDeep := by
    rw [loop_some]
    rfl
  refine ⟨hin, staysIn_byScope, hfinite, hmember, fun depth hdepth => ?_⟩
  have hends := (calls_end (x := some (referredPlace 8)) fun c hc => Option.some.inj hc ▸ hin).1
    .byScope staysIn_byScope hfinite depth hdepth
  exact hends.1

end ComponentAtlas.Path
