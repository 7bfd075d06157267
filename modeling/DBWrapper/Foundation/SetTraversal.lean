import Mathlib.Data.List.Rotate
import DBWrapper.Foundation.DoWhile

/-!
# Loops over an ordered set

A loop over a set holds an iterator into it.  Erasing an element of the set
invalidates the iterators to that element and no others, and an iterator that
is invalid must not be read or advanced.  So a loop whose body erases nothing
but the current element is well defined exactly if it erases nothing at all.
-/

namespace Foundation

universe u v
variable {Element : Type u} {State : Type v}

/-- An iterator into a set; `dangling` is one to an element that has been
erased. -/
inductive Cursor (Element : Type u) where
  | at (element : Element)
  | pastEnd
  | dangling
  deriving DecidableEq, Repr

namespace Cursor

/-- The iterator to the first element of an ordered list of elements. -/
def ofList : List Element → Cursor Element
  | [] => .pastEnd
  | element :: _ => .at element

variable {cmp : Element → Element → Ordering}

def begin (set : Std.TreeSet Element cmp) : Cursor Element :=
  ofList set.toList

/-- An iterator that can be advanced goes to the first element behind its
own. -/
def next (set : Std.TreeSet Element cmp) :
    Cursor Element → Option (Cursor Element)
  | .at element =>
      some (ofList (set.toList.dropWhile fun other =>
        cmp element other != .lt))
  | .pastEnd => none
  | .dangling => none

/-- What becomes of the iterator when elements are erased. -/
def afterErase (cmp : Element → Element → Ordering) (erased : List Element) :
    Cursor Element → Cursor Element
  | .at element =>
      if erased.any fun other => cmp element other == .eq then
        .dangling
      else
        .at element
  | .pastEnd => .pastEnd
  | .dangling => .dangling

/-- The next element is the one behind it in the ordered list. -/
theorem next_at [Std.TransCmp cmp]
    {set : Std.TreeSet Element cmp} {before after : List Element}
    {element : Element}
    (split : set.toList = before ++ element :: after) :
    next set (.at element) = some (ofList after) := by
  have ordered := Std.TreeSet.ordered_toList (t := set)
  rw [split, List.pairwise_append, List.pairwise_cons] at ordered
  obtain ⟨_, ⟨behind, _⟩, inFront⟩ := ordered
  have skipped : ∀ other ∈ before ++ [element],
      (cmp element other != .lt) = true := by
    intro other listed
    rcases List.mem_append.mp listed with earlier | same
    · have smaller := inFront other earlier element List.mem_cons_self
      rw [Std.OrientedCmp.gt_iff_lt.mpr smaller]
      rfl
    · have self : cmp element element = .eq := Std.ReflCmp.compare_self
      rw [List.mem_singleton.mp same, self]
      rfl
  have stops : after.dropWhile (fun other => cmp element other != .lt) =
      after := by
    cases after with
    | nil => rfl
    | cons first rest =>
        have greater := behind first List.mem_cons_self
        rw [List.dropWhile_cons_of_neg (by rw [greater]; decide)]
  have whole : set.toList = (before ++ [element]) ++ after := by
    rw [split, List.append_assoc]
    rfl
  simp only [next]
  rw [whole, List.dropWhile_append_of_pos skipped, stops]

end Cursor

/-- A loop over a set, between two of its turns.  `undefined` tells that an
invalid iterator has been used. -/
structure Traversal (State : Type v) (Element : Type u) where
  state : State
  cursor : Cursor Element
  undefined : Bool

section RangeFor

variable {cmp : Element → Element → Ordering}

/-- One turn of `for (auto element : set)`.  The body tells which elements of
the set it has erased. -/
def rangeForPass (set : State → Std.TreeSet Element cmp)
    (body : State → Element → State × List Element)
    (loop : Traversal State Element) : Pass (Traversal State Element) :=
  match loop.cursor with
  | .pastEnd => .leave loop
  | .dangling => .leave { loop with undefined := true }
  | .at element =>
      let (state, erased) := body loop.state element
      let cursor := loop.cursor.afterErase cmp erased
      match cursor.next (set state) with
      | some cursor => .again { loop with state, cursor }
      | none => .leave { state, cursor, undefined := true }

/-- The loop before its first turn. -/
def rangeFor (set : State → Std.TreeSet Element cmp) (state : State) :
    Traversal State Element :=
  { state, cursor := .begin (set state), undefined := false }

variable {set : State → Std.TreeSet Element cmp}
  {body : State → Element → State × List Element} {removes : Element → Prop}

/-- From any place in the set: the loop ends, and it is well defined exactly
if the body removes no element from there on. -/
theorem ends_of_split [Std.TransCmp cmp]
    (keeps : ∀ state element, ¬ removes element →
      set (body state element).1 = set state ∧ (body state element).2 = [])
    (erases : ∀ state element, removes element →
      element ∈ (body state element).2)
    {before rest : List Element} {loop : Traversal State Element}
    (split : (set loop.state).toList = before ++ rest)
    (here : loop.cursor = .ofList rest) (valid : loop.undefined = false) :
    ∃ final, Ends (rangeForPass set body) loop final ∧
      (final.undefined = false ↔ ∀ element ∈ rest, ¬ removes element) ∧
      (final.undefined = false →
        final.state =
            rest.foldl (fun state element => (body state element).1)
              loop.state ∧
          set final.state = set loop.state) := by
  induction rest generalizing before loop with
  | nil =>
      have left : rangeForPass set body loop = .leave loop := by
        simp only [rangeForPass, here, Cursor.ofList]
      exact ⟨loop, .leave left, by simp [valid], fun _ => ⟨rfl, rfl⟩⟩
  | cons element rest induction =>
      by_cases removed : removes element
      · have self : cmp element element = .eq := Std.ReflCmp.compare_self
        have dangles : (Cursor.at element).afterErase cmp
            (body loop.state element).2 = .dangling := by
          rw [Cursor.afterErase, if_pos]
          apply List.any_eq_true.mpr
          exact ⟨element, erases loop.state element removed, by rw [self]; rfl⟩
        have left : rangeForPass set body loop =
            .leave
              { state := (body loop.state element).1
                cursor := .dangling, undefined := true } := by
          simp only [rangeForPass, here, Cursor.ofList, dangles]
          rfl
        refine ⟨_, .leave left, ?_, ?_⟩
        · simp only [Bool.true_eq_false, false_iff, not_forall]
          exact ⟨element, List.mem_cons_self, not_not_intro removed⟩
        · intro defined
          cases defined
      · obtain ⟨same, nothing⟩ := keeps loop.state element removed
        have splitNext : (set (body loop.state element).1).toList =
            before ++ element :: rest := by
          rw [same, split]
        have stays : (Cursor.at element).afterErase cmp
            (body loop.state element).2 = .at element := by
          rw [nothing]
          rfl
        have passed : rangeForPass set body loop =
            .again
              { loop with
                state := (body loop.state element).1
                cursor := .ofList rest } := by
          simp only [rangeForPass, here, Cursor.ofList]
          rw [stays, Cursor.next_at splitNext]
          rfl
        have splitBehind : (set (body loop.state element).1).toList =
            (before ++ [element]) ++ rest := by
          rw [splitNext, List.append_assoc]
          rfl
        obtain ⟨final, ends, defined, result⟩ :=
          @induction (before ++ [element])
            { loop with
              state := (body loop.state element).1
              cursor := .ofList rest }
            splitBehind rfl valid
        refine ⟨final, .again passed ends, ?_, ?_⟩
        · rw [defined, List.forall_mem_cons]
          exact (and_iff_right removed).symm
        · intro isDefined
          obtain ⟨state, sameSet⟩ := result isDefined
          exact ⟨state, sameSet.trans same⟩

/-- A loop whose body erases the current element or nothing ends.  It is well
defined exactly if no element of the set is erased, and then the body has been
run for all of them in order. -/
theorem rangeFor_ends [Std.TransCmp cmp]
    (keeps : ∀ state element, ¬ removes element →
      set (body state element).1 = set state ∧ (body state element).2 = [])
    (erases : ∀ state element, removes element →
      element ∈ (body state element).2) (state : State) :
    ∃ final, Ends (rangeForPass set body) (rangeFor set state) final ∧
      (final.undefined = false ↔
        ∀ element ∈ (set state).toList, ¬ removes element) ∧
      (final.undefined = false →
        final.state =
            (set state).toList.foldl
              (fun state element => (body state element).1) state ∧
          set final.state = set state) :=
  ends_of_split keeps erases (List.nil_append _).symm rfl rfl

end RangeFor

end Foundation
