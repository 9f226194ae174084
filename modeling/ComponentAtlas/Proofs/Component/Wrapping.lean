import ComponentAtlas.Proofs.Component.SourceOrder
import ComponentAtlas.Proofs.Path.Recursion

/-!
# Calls that wrap components

A call that is no factory call stands for its first argument, so that any number
of them leads to the definition behind what they wrap. The way to a definition is
a loop that notes each value it looks at. It meets no call twice, unless it goes
round in a circle of calls, and then there is no definition on it at all: for this
reason it does not matter at which call of a circle the loop has begun.
-/

namespace ComponentAtlas.Component

open Relation SourceTree

/-! ### Tests that follow paths -/

/-- A class is tested by the path of what it extends, which may be nothing, and by its methods. -/
inductive ClassTest (c : Cursor) : Bool → Prop
  | other : c.kind ∉ classKinds → ClassTest c false
  | ofPath {path : List String} : c.kind ∈ classKinds →
      Path.IsPath Path.byScope (superclass c) path →
      ClassTest c (path.getLast?.any baseNames.contains || hasRender c)

def ComponentTest (c : Cursor) (answer : Bool) : Prop :=
  ∃ isClass, ClassTest c isClass ∧ answer = (isClass || isFunctionComponent c)

/-- A call is tested by the path of its function. -/
def FactoryTest (call : Cursor) (answer : Bool) : Prop :=
  ∃ path, Path.IsPath Path.byScope (call.child? "function") path ∧
    answer = factoryPaths.contains (Path.joinDots path)

section

variable {root : Node} {c : Cursor}

theorem isPath_segments {x : Option Cursor} (hin : ∀ c ∈ x, Cursor.Within root c)
    (hends : ∀ c ∈ x, Path.RecursionEnds Path.byScope c) :
    Path.IsPath Path.byScope x (Path.segments x) := by
  cases x with
  | none => exact .lost
  | some c =>
    have hc := hin c rfl
    obtain ⟨path, hpath⟩ := (hends c rfl).exists_isPath
    have hcollect := Path.collect_eq_of_settles hc Path.staysIn_byScope (hends c rfl) hpath.settles
    have hsegments : Path.segments (some c) = path := by
      rw [Path.segments, Path.segmentsBy, hc.root_eq, hcollect]
    rwa [hsegments]

theorem isPath_iff {x : Option Cursor} {path : List String} (hin : ∀ c ∈ x, Cursor.Within root c)
    (hends : ∀ c ∈ x, Path.RecursionEnds Path.byScope c) :
    Path.IsPath Path.byScope x path ↔ path = Path.segments x := by
  constructor
  · exact fun h => h.unique (isPath_segments hin hends)
  · rintro rfl
    exact isPath_segments hin hends

variable (hends : TestsEnd root) (hc : Cursor.Within root c)

include hends hc

theorem classTest_iff (answer : Bool) : ClassTest c answer ↔ answer = isClassComponent c := by
  by_cases hkind : c.kind ∈ classKinds
  · have hpath (path : List String) :
        Path.IsPath Path.byScope (superclass c) path ↔ path = Path.segments (superclass c) :=
      isPath_iff (fun s hs => within_of_superclass hc hs)
        (fun s hs => hends.superclass c s hc hkind hs)
    have hbase : (Path.segments (superclass c)).getLast?.any baseNames.contains =
        (superclass c).any namesBase := by
      cases superclass c <;> rfl
    have htest : isClassComponent c =
        ((Path.segments (superclass c)).getLast?.any baseNames.contains || hasRender c) := by
      rw [isClassComponent, List.contains_iff_mem.mpr hkind, Bool.true_and, hbase]
    rw [htest]
    constructor
    · intro h
      cases h with
      | other hother => exact absurd hkind hother
      | ofPath _ h => rw [(hpath _).mp h]
    · rintro rfl
      exact .ofPath hkind ((hpath _).mpr rfl)
  · have htest : isClassComponent c = false := by
      rw [isClassComponent, Bool.eq_false_iff.mpr (mt List.contains_iff_mem.mp hkind),
        Bool.false_and]
    rw [htest]
    constructor
    · intro h
      cases h with
      | other _ => rfl
      | ofPath hclass _ => exact absurd hclass hkind
    · rintro rfl
      exact .other hkind

theorem componentTest_iff (answer : Bool) : ComponentTest c answer ↔ answer = isComponent c := by
  simp only [ComponentTest, classTest_iff hends hc, exists_eq_left, isComponent]

theorem factoryTest_iff (hcall : isCall c = true) (answer : Bool) :
    FactoryTest c answer ↔ answer = isFactoryCall c := by
  have hpath (path : List String) : Path.IsPath Path.byScope (c.child? "function") path ↔
      path = Path.segments (c.child? "function") :=
    isPath_iff (fun f hf => hc.child (Cursor.isChild_of_child? hf))
      (fun f hf => hends.callee c f hc hcall hf)
  simp only [FactoryTest, hpath, exists_eq_left, isFactoryCall, hcall, Bool.true_and]
  rfl

end

/-! ### Rounds of the loop -/

/-- What comes of a look at a value: the answer, or the value to look at next, if there is one. -/
inductive Round where
  | answer (found : Option Cursor)
  | next (value : Option Cursor)

def round (x : Cursor) : Round :=
  if isComponent x then .answer (some x)
  else if !isCall x then .answer none
  else if isFactoryCall x then .answer (specification x)
  else .next ((firstArgument x).bind Scope.resolve)

theorem unwrap_succ (fuel : Nat) (x : Cursor) : unwrap (fuel + 1) x =
    match round x with
    | .answer found => found
    | .next value => value.bind (unwrap fuel) := by
  rw [unwrap, round]
  split
  · rfl
  split
  · rfl
  split <;> rfl

theorem round_eq_next_iff {x : Cursor} {value : Option Cursor} : round x = .next value ↔
    isCall x = true ∧ isFactoryCall x = false ∧ (firstArgument x).bind Scope.resolve = value := by
  have hcomponent : isCall x = true → isComponent x = false := by
    intro hcall
    have hkind : x.kind = "call_expression" := beq_iff_eq.mp hcall
    simp [isComponent, isClassComponent, isFunctionComponent, hkind, classKinds, functionKinds]
  cases hcall : isCall x with
  | false =>
    simp only [round, hcall]
    split <;> simp
  | true =>
    simp only [round, hcomponent hcall, hcall, Bool.not_true, Bool.false_eq_true, if_false,
      true_and]
    cases isFactoryCall x <;> simp

/-- The call stands for its first argument, whose value is `y`. -/
def Wraps (x y : Cursor) : Prop := round x = .next (some y)

theorem Wraps.unwrap {x y : Cursor} (h : Wraps x y) (fuel : Nat) :
    unwrap (fuel + 1) x = unwrap fuel y := by
  rw [unwrap_succ, h]
  rfl

theorem Wraps.unique {x y z : Cursor} (h : Wraps x y) (h' : Wraps x z) : y = z := by
  have heq : Round.next (some y) = .next (some z) := h.symm.trans h'
  cases heq
  rfl

/-- A circle of wrapping calls leads to no definition, however far it is followed. -/
theorem unwrap_of_circle (fuel : Nat) {x : Cursor} (h : TransGen Wraps x x) :
    unwrap fuel x = none := by
  induction fuel generalizing x with
  | zero => rfl
  | succ fuel ih =>
    obtain ⟨y, hfirst, hrest⟩ := TransGen.head'_iff.mp h
    rw [hfirst.unwrap]
    exact ih (.tail' hrest hfirst)

theorem within_of_round {root : Node} {x : Cursor} {value : Option Cursor}
    (hx : Cursor.Within root x) (h : round x = .next value) :
    ∀ y ∈ value, Cursor.Within root y := by
  obtain ⟨-, -, rfl⟩ := round_eq_next_iff.mp h
  exact fun y hy => within_of_wrapped hx hy

/-! ### The loop -/

section

variable {κ : Type} {key : Cursor → κ}

/-- A guarded chase from the expression, which may be lost, ends with this value. -/
def Finds (key : Cursor → κ) (x value : Option Cursor) : Prop :=
  ∃ n, Scope.Guarded key [] (x.bind Cursor.bare) n value

/-- A look at a value, with tests and chases that come to an end. -/
inductive Looks (key : Cursor → κ) (x : Cursor) : Round → Prop
  | component : ComponentTest x true → Looks key x (.answer (some x))
  | other : ComponentTest x false → isCall x = false → Looks key x (.answer none)
  | factory {value : Option Cursor} : ComponentTest x false → isCall x = true →
      FactoryTest x true → Finds key (firstArgument x) value →
      Looks key x (.answer (value.filter fun v => v.kind == "object"))
  | wrapped {value : Option Cursor} : ComponentTest x false → isCall x = true →
      FactoryTest x false → Finds key (firstArgument x) value → Looks key x (.next value)

/--
A loop that notes the key of each value it looks at, and gives up at a value whose key it has
noted: from `start` it looks at so many values and finds this.
-/
inductive Unwraps (key : Cursor → κ) : List κ → Option Cursor → Nat → Option Cursor → Prop
  | lost {seen : List κ} : Unwraps key seen none 0 none
  | met {seen : List κ} {x : Cursor} : key x ∈ seen → Unwraps key seen (some x) 0 none
  | answered {seen : List κ} {x : Cursor} {found : Option Cursor} : key x ∉ seen →
      Looks key x (.answer found) → Unwraps key seen (some x) 1 found
  | wrapped {seen : List κ} {x : Cursor} {value : Option Cursor} {n : Nat}
      {found : Option Cursor} : key x ∉ seen → Looks key x (.next value) →
      Unwraps key (key x :: seen) value n found → Unwraps key seen (some x) (n + 1) found

variable {root : Node}
  (hkey : ∀ x y, Cursor.Within root x → Cursor.Within root y → key x = key y → x = y)

include hkey

theorem finds_iff {x value : Option Cursor} (hx : ∀ c ∈ x, Cursor.Within root c) :
    Finds key x value ↔ value = x.bind Scope.resolve := by
  cases x with
  | none =>
    constructor
    · rintro ⟨n, h⟩
      cases h
      rfl
    · rintro rfl
      exact ⟨0, .lost⟩
  | some c =>
    obtain ⟨n, -, hresolve, -⟩ := Scope.guarded_resolve key (hx c rfl) hkey
    constructor
    · rintro ⟨m, h⟩
      exact (hresolve.unique h).2
    · rintro rfl
      exact ⟨n, hresolve⟩

variable (hends : TestsEnd root)

include hends

theorem looks_iff {x : Cursor} (hx : Cursor.Within root x) (r : Round) :
    Looks key x r ↔ r = round x := by
  have hargument : ∀ c ∈ firstArgument x, Cursor.Within root c :=
    fun c hc => within_of_firstArgument hx hc
  have hcomponent (answer : Bool) := componentTest_iff hends hx answer
  have hfactory (hcall : isCall x = true) (answer : Bool) :=
    factoryTest_iff hends hx hcall answer
  have hfinds (value : Option Cursor) :
      Finds key (firstArgument x) value ↔ value = (firstArgument x).bind Scope.resolve :=
    finds_iff hkey hargument
  constructor
  · intro h
    cases h with
    | component h => rw [round, if_pos ((hcomponent _).mp h).symm]
    | other h hcall =>
      rw [round, ← (hcomponent _).mp h, hcall]
      rfl
    | factory h hcall hf hv =>
      rw [round, ← (hcomponent _).mp h, hcall, ← (hfactory hcall _).mp hf, (hfinds _).mp hv]
      rfl
    | wrapped h hcall hf hv =>
      rw [round, ← (hcomponent _).mp h, hcall, ← (hfactory hcall _).mp hf, (hfinds _).mp hv]
      rfl
  · rintro rfl
    cases hc : isComponent x with
    | true =>
      rw [round, if_pos hc]
      exact .component ((hcomponent _).mpr hc.symm)
    | false =>
      have htest := (hcomponent _).mpr hc.symm
      cases hcall : isCall x with
      | false =>
        rw [round, hc, hcall]
        exact .other htest hcall
      | true =>
        cases hf : isFactoryCall x with
        | true =>
          rw [round, hc, hcall, hf]
          exact .factory htest hcall ((hfactory hcall _).mpr hf.symm) ((hfinds _).mpr rfl)
        | false =>
          rw [round, hc, hcall, hf]
          exact .wrapped htest hcall ((hfactory hcall _).mpr hf.symm) ((hfinds _).mpr rfl)

theorem Looks.unique {x : Cursor} {r r' : Round} (hx : Cursor.Within root x)
    (h : Looks key x r) (h' : Looks key x r') : r = r' := by
  rw [(looks_iff hkey hends hx r).mp h, (looks_iff hkey hends hx r').mp h']

theorem Unwraps.unique {seen : List κ} {start found found' : Option Cursor} {n m : Nat}
    (hstart : ∀ x ∈ start, Cursor.Within root x) (h : Unwraps key seen start n found)
    (h' : Unwraps key seen start m found') : m = n ∧ found' = found := by
  induction h generalizing m with
  | lost => cases h'; exact ⟨rfl, rfl⟩
  | met hseen =>
    cases h' with
    | met _ => exact ⟨rfl, rfl⟩
    | answered hfresh _ => exact absurd hseen hfresh
    | wrapped hfresh _ _ => exact absurd hseen hfresh
  | answered hfresh hlook =>
    cases h' with
    | met hseen => exact absurd hseen hfresh
    | answered _ hlook' =>
      cases hlook.unique hkey hends (hstart _ rfl) hlook'
      exact ⟨rfl, rfl⟩
    | wrapped _ hlook' _ => cases hlook.unique hkey hends (hstart _ rfl) hlook'
  | wrapped hfresh hlook _ ih =>
    cases h' with
    | met hseen => exact absurd hseen hfresh
    | answered _ hlook' => cases hlook.unique hkey hends (hstart _ rfl) hlook'
    | wrapped _ hlook' hrest =>
      cases hlook.unique hkey hends (hstart _ rfl) hlook'
      have hround := (looks_iff hkey hends (hstart _ rfl) _).mp hlook
      obtain ⟨rfl, rfl⟩ := ih (within_of_round (hstart _ rfl) hround.symm) hrest
      exact ⟨rfl, rfl⟩

/-- How many calls of the tree have a key that is not noted. -/
noncomputable def unseenCalls (root : Node) (key : Cursor → κ) (seen : List κ) : Nat :=
  Descent.unnoted (Cursor.placesFrom [] root) isCall key seen

theorem exists_unwraps (seen : List κ) (start : Option Cursor)
    (hstart : ∀ x ∈ start, Cursor.Within root x) :
    ∃ n ≤ unseenCalls root key seen + 1, ∃ found, Unwraps key seen start n found := by
  -- Each call that is looked at leaves one less that is not noted.
  induction hu : unseenCalls root key seen using Nat.strongRecOn generalizing seen start with
  | _ u ih =>
    cases start with
    | none => exact ⟨0, Nat.zero_le _, _, .lost⟩
    | some x =>
      have hx := hstart x rfl
      by_cases hseen : key x ∈ seen
      · exact ⟨0, Nat.zero_le _, _, .met hseen⟩
      cases hround : round x with
      | answer found =>
        exact ⟨1, by omega, found, .answered hseen ((looks_iff hkey hends hx _).mpr hround.symm)⟩
      | next value =>
        have hlt : unseenCalls root key (key x :: seen) < u :=
          hu ▸ Descent.unnoted_cons_lt hx.mem_places (round_eq_next_iff.mp hround).1 hseen
        obtain ⟨n, hn, found, h⟩ :=
          ih _ hlt (key x :: seen) value (within_of_round hx hround) rfl
        exact ⟨n + 1, by omega, found,
          .wrapped hseen ((looks_iff hkey hends hx _).mpr hround.symm) h⟩

/-- The loop finds what is found without notes, and this for any bound that it keeps. -/
theorem Unwraps.finds {seen : List κ} {start found : Option Cursor} {n fuel : Nat}
    (hstart : ∀ x ∈ start, Cursor.Within root x)
    (hseen : ∀ a ∈ seen, ∃ y, Cursor.Within root y ∧ key y = a ∧
      ∀ x ∈ start, TransGen Wraps y x)
    (h : Unwraps key seen start n found) (hfuel : n ≤ fuel) :
    start.bind (unwrap fuel) = found := by
  -- Whatever is noted leads on to the value that is looked at.
  induction h generalizing fuel with
  | lost => rfl
  | met hmet =>
    obtain ⟨y, hy, hkeys, hleads⟩ := hseen _ hmet
    obtain rfl := hkey _ _ hy (hstart _ rfl) hkeys
    exact unwrap_of_circle fuel (hleads _ rfl)
  | answered _ hlook =>
    obtain ⟨rest, rfl⟩ : ∃ rest, fuel = rest + 1 := ⟨fuel - 1, by omega⟩
    have hround := (looks_iff hkey hends (hstart _ rfl) _).mp hlook
    rw [Option.bind_some, unwrap_succ, ← hround]
  | @wrapped seen x value n found _ hlook _ ih =>
    obtain ⟨rest, rfl⟩ : ∃ rest, fuel = rest + 1 := ⟨fuel - 1, by omega⟩
    have hx := hstart _ rfl
    have hround := (looks_iff hkey hends hx _).mp hlook
    have hwraps : ∀ y ∈ value, Wraps x y := by
      rintro y hy
      rw [Wraps, ← hround, Option.mem_def.mp hy]
    rw [Option.bind_some, unwrap_succ, ← hround]
    refine ih (within_of_round hx hround.symm) (fun a ha => ?_) (by omega)
    rcases List.mem_cons.mp ha with rfl | ha
    · exact ⟨x, hx, rfl, fun y hy => .single (hwraps y hy)⟩
    · obtain ⟨z, hz, hkeys, hleads⟩ := hseen a ha
      exact ⟨z, hz, hkeys, fun y hy => .tail (hleads x rfl) (hwraps y hy)⟩

end

/-! ### Definitions -/

section

variable {root : Node} {c : Cursor} (hends : TestsEnd root) (hc : Cursor.Within root c)

include hends hc

/-- Once the loop has begun, one call less is left to look at. -/
theorem bind_unwrap_eq_of_next {value : Option Cursor} (hround : round c = .next value)
    {fuel : Nat} (hfuel : root.count "call_expression" ≤ fuel) :
    value.bind (unwrap fuel) = value.bind (unwrap (root.count "call_expression")) := by
  have hkey : ∀ x y : Cursor, Cursor.Within root x → Cursor.Within root y → x = y → x = y :=
    fun _ _ _ _ h => h
  have hvalue := within_of_round hc hround
  have hlt : unseenCalls root (fun x => x) [c] < unseenCalls root (fun x => x) [] :=
    Descent.unnoted_cons_lt hc.mem_places (round_eq_next_iff.mp hround).1 List.not_mem_nil
  have hall : unseenCalls root (fun x => x) [] = root.count "call_expression" := by
    rw [← Cursor.countP_places]
    exact Descent.unnoted_nil _
  obtain ⟨n, hn, found, hloop⟩ := exists_unwraps hkey hends [c] value hvalue
  have hseen : ∀ a ∈ [c], ∃ y, Cursor.Within root y ∧ y = a ∧ ∀ x ∈ value, TransGen Wraps y x := by
    intro a ha
    obtain rfl := List.mem_singleton.mp ha
    exact ⟨a, hc, rfl, fun x hx => .single (by rw [Wraps, hround, Option.mem_def.mp hx])⟩
  have hfinds {bound : Nat} (hbound : root.count "call_expression" ≤ bound) :
      value.bind (unwrap bound) = found :=
    hloop.finds hkey hends hvalue hseen (by omega)
  rw [hfinds hfuel, hfinds (Nat.le_refl _)]

theorem definition_of_wrapping (hcall : isCall c = true) (hfactory : isFactoryCall c = false) :
    definition c = (firstArgument c).bind definition := by
  have hround : round c = .next ((firstArgument c).bind Scope.resolve) :=
    round_eq_next_iff.mpr ⟨hcall, hfactory, rfl⟩
  have hkind : c.kind = "call_expression" := beq_iff_eq.mp hcall
  have hresolve : Scope.resolve c = some c := by
    have hparentheses : isParentheses c.kind = false := by rw [hkind]; rfl
    have hname : Scope.isIdentifier c = false := by rw [Scope.isIdentifier, hkind]; rfl
    rw [Scope.resolve, Cursor.bare_of_not_parentheses c hparentheses, Option.bind_some,
      Scope.chase_of_not_identifier _ c hname]
  have hleft : definition c = ((firstArgument c).bind Scope.resolve).bind
      (unwrap (root.count "call_expression")) := by
    rw [definition, hresolve, Option.bind_some, hc.root_eq, unwrap_succ, hround]
  have hmore := bind_unwrap_eq_of_next hends hc hround (Nat.le_succ _)
  rw [hleft, ← hmore, Option.bind_assoc]
  cases hargument : firstArgument c with
  | none => rfl
  | some argument =>
    rw [Option.bind_some, Option.bind_some, definition,
      (within_of_firstArgument hc hargument).root_eq]

end

/-- The call is no factory call, and the other expression is its first argument. -/
def WrapsArgument (call argument : Cursor) : Prop :=
  isCall call = true ∧ isFactoryCall call = false ∧ firstArgument call = some argument

theorem definition_of_wrapped {root : Node} (hends : TestsEnd root) {c inner : Cursor}
    (hc : Cursor.Within root c) (h : ReflTransGen WrapsArgument c inner) :
    definition c = definition inner := by
  induction h using ReflTransGen.head_induction_on with
  | refl => rfl
  | head hstep _ ih =>
    obtain ⟨hcall, hfactory, hargument⟩ := hstep
    rw [definition_of_wrapping hends hc hcall hfactory, hargument, Option.bind_some]
    exact ih (within_of_firstArgument hc hargument)

theorem definition_is_component_or_specification {root : Node} {c d : Cursor}
    (hc : Cursor.Within root c) (h : definition c = some d) :
    isComponent d = true ∨ ∃ call, Cursor.Within root call ∧ isFactoryCall call = true ∧
      specification call = some d ∧ d.kind = "object" := by
  obtain ⟨e, he, hmet⟩ := exists_definitionAt hc h
  rcases definitionAt_cases hmet with ⟨rfl, hcomponent⟩ | ⟨hfactory, hspecification⟩
  · exact .inl hcomponent
  · exact .inr ⟨e, he, hfactory, hspecification, kind_of_specification hspecification⟩

/--
The loop behind an expression ends after no more looks than the tree has calls, and one. What it
finds is a component or the specification that a factory call takes. A call that is no factory
call has the definition of its first argument, and so has one that wraps it in any number of calls.
-/
theorem definition_unwraps_calls {root : Node} (hroot : root.IsNumbered) (hends : TestsEnd root)
    {c : Cursor} (hc : Cursor.Within root c) :
    (∃ n ≤ root.count "call_expression" + 1, ∀ m found,
      (∃ start, Finds Cursor.id (some c) start ∧ Unwraps Cursor.id [] start m found) ↔
        m = n ∧ found = definition c) ∧
      (∀ d, definition c = some d →
        isComponent d = true ∨ ∃ call, Cursor.Within root call ∧ isFactoryCall call = true ∧
          specification call = some d ∧ d.kind = "object") ∧
      (c.kind = "call_expression" → isFactoryCall c = false →
        definition c = (firstArgument c).bind definition) ∧
      ∀ inner, ReflTransGen WrapsArgument c inner → definition c = definition inner := by
  have hkey : ∀ x y, Cursor.Within root x → Cursor.Within root y → x.id = y.id → x = y :=
    fun _ _ => Cursor.eq_of_id_eq hroot
  refine ⟨?_, fun d hd => definition_is_component_or_specification hc hd, ?_, ?_⟩
  · have hstart : ∀ x ∈ Scope.resolve c, Cursor.Within root x :=
      fun x hx => Scope.within_of_resolve hc hx
    have hfinds (start : Option Cursor) :
        Finds Cursor.id (some c) start ↔ start = Scope.resolve c :=
      finds_iff hkey fun x hx => Option.some.inj hx ▸ hc
    have hcount : unseenCalls root Cursor.id [] = root.count "call_expression" := by
      rw [← Cursor.countP_places]
      exact Descent.unnoted_nil _
    obtain ⟨n, hn, answer, hloop⟩ := exists_unwraps hkey hends [] _ hstart
    rw [hcount] at hn
    have hanswer : definition c = answer := by
      rw [definition, hc.root_eq]
      exact hloop.finds hkey hends hstart (fun _ ha => absurd ha List.not_mem_nil) hn
    refine ⟨n, hn, fun m found => ⟨?_, ?_⟩⟩
    · rintro ⟨start, hresolve, hrun⟩
      obtain rfl := (hfinds start).mp hresolve
      rw [hanswer]
      exact hloop.unique hkey hends hstart hrun
    · rintro ⟨rfl, rfl⟩
      exact ⟨_, (hfinds _).mpr rfl, hanswer ▸ hloop⟩
  · exact fun hkind hfactory => definition_of_wrapping hends hc (beq_iff_eq.mpr hkind) hfactory
  · exact fun inner h => definition_of_wrapped hends hc h

/-- The rows of a program with a value that wraps itself and a function that is wrapped twice. -/
def nestedCallsRows : List Row :=
  let row (parent : Nat) (kind : String) (start stop : Nat) (field : Option String) : Row :=
    ⟨some parent, kind, start, stop, field, true, false⟩
  [⟨none, "program", 0, 45, none, true, false⟩, row 0 "variable_declaration" 0 33 none,
    row 1 "variable_declarator" 4 15 none, row 2 "identifier" 4 5 (some "name"),
    row 2 "call_expression" 8 15 (some "value"), row 4 "identifier" 8 12 (some "function"),
    row 4 "arguments" 12 15 (some "arguments"), row 6 "identifier" 13 14 none,
    row 1 "variable_declarator" 17 32 none, row 8 "identifier" 17 18 (some "name"),
    row 8 "arrow_function" 21 32 (some "value"),
    row 10 "formal_parameters" 21 23 (some "parameters"),
    row 10 "jsx_self_closing_element" 27 32 (some "body"), row 12 "identifier" 28 29 (some "name"),
    row 0 "expression_statement" 34 45 none, row 14 "call_expression" 34 44 none,
    row 15 "identifier" 34 38 (some "function"), row 15 "arguments" 38 44 (some "arguments"),
    row 17 "call_expression" 39 43 none, row 18 "identifier" 39 40 (some "function"),
    row 18 "arguments" 40 43 (some "arguments"), row 20 "identifier" 41 42 none]

def nestedCalls : Node :=
  (Node.ofRows? "var A = memo(A), F = () => <a />;\nmemo(h(F));" nestedCallsRows).get rfl

def nestedCallsPlace (i : Fin 22) : Cursor := (Cursor.ofRoot nestedCalls).preorder.get (i.cast rfl)

/-- A value that wraps itself has no definition, and a function is found behind two calls. -/
theorem definition_unwraps_calls_nested :
    nestedCalls.IsNumbered ∧ TestsEnd nestedCalls ∧ Cursor.Within nestedCalls (nestedCallsPlace 7) ∧
      Cursor.Within nestedCalls (nestedCallsPlace 15) ∧ definition (nestedCallsPlace 7) = none ∧
      (∃ n ≤ 4, ∀ m found, (∃ start, Finds Cursor.id (some (nestedCallsPlace 7)) start ∧
        Unwraps Cursor.id [] start m found) ↔ m = n ∧ found = none) ∧
      definition (nestedCallsPlace 15) = definition (nestedCallsPlace 21) ∧
      definition (nestedCallsPlace 21) = some (nestedCallsPlace 10) := by
  have hroot : nestedCalls.IsNumbered := Node.isNumbered_of_ofRows? (Option.some_get _).symm
  have hin (i : Fin 22) : Cursor.Within nestedCalls (nestedCallsPlace i) :=
    Cursor.contains_of_mem_preorder (List.get_mem _ _)
  have hsmaller : ∀ c ∈ Cursor.placesFrom [] nestedCalls, ∀ d ∈ Path.parts Path.byScope c,
      d.node.size < c.node.size := by decide +kernel
  have hends : TestsEnd nestedCalls := testsEnd_of_size hsmaller
  have hcircle : definition (nestedCallsPlace 7) = none := rfl
  obtain ⟨hloop, -⟩ := definition_unwraps_calls hroot hends (hin 7)
  rw [hcircle] at hloop
  obtain ⟨-, -, -, hwrapped⟩ := definition_unwraps_calls hroot hends (hin 15)
  have hinner : WrapsArgument (nestedCallsPlace 18) (nestedCallsPlace 21) := ⟨rfl, rfl, rfl⟩
  have houter : WrapsArgument (nestedCallsPlace 15) (nestedCallsPlace 18) := ⟨rfl, rfl, rfl⟩
  exact ⟨hroot, hends, hin 7, hin 15, hcircle, hloop,
    hwrapped _ (.head houter (.single hinner)), rfl⟩

end ComponentAtlas.Component
