import Mathlib.Data.Int.CardIntervalMod
import Mathlib.Data.List.Rotate
import Mathlib.Data.Nat.Periodic

/-!
# Two nested rotations

A list of lists serves one element per call: the front list gives its front
element, moves it to its own end, and goes to the end of the outer list.  The
outer list turns on every call, an inner one only when it is in front; still
there is a closed form for what a call returns, and every position of an inner
list is served equally often over a common period.
-/

namespace Foundation

universe u
variable {Element : Type u}

/-- One call: what it returns, and the lists after it. -/
def serve : List (List Element) → Option Element × List (List Element)
  | [] => (none, [])
  | front :: rest => (front.head?, rest ++ [front.rotate 1])

/-- The lists after a number of calls. -/
def served (lists : List (List Element)) : Nat → List (List Element)
  | 0 => lists
  | calls + 1 => (serve (served lists calls)).2

theorem length_serve (lists : List (List Element)) :
    (serve lists).2.length = lists.length := by
  cases lists <;> simp [serve]

theorem length_served (lists : List (List Element)) (calls : Nat) :
    (served lists calls).length = lists.length := by
  induction calls with
  | zero => rfl
  | succ calls induction => rw [served, length_serve, induction]

/-- After `calls` calls, the list at place `k` is the original list number
`calls + k`, and it has been in front once in every full turn. -/
theorem getElem?_served
    (lists : List (List Element)) (calls : Nat) {k : Nat}
    (inRange : k < lists.length) :
    (served lists calls)[k]? =
      lists[(calls + k) % lists.length]?.map
        (·.rotate ((calls + k) / lists.length)) := by
  induction calls generalizing k with
  | zero =>
      rw [Nat.zero_add, Nat.mod_eq_of_lt inRange, Nat.div_eq_of_lt inRange]
      simp [served]
  | succ calls induction =>
      have positive : 0 < lists.length := Nat.zero_lt_of_lt inRange
      have length := length_served lists calls
      rw [served]
      cases current : served lists calls with
      | nil =>
          rw [current] at length
          rw [List.length_nil] at length
          omega
      | cons front rest =>
          rw [current, List.length_cons] at length
          have front_eq : some front =
              lists[calls % lists.length]?.map
                (·.rotate (calls / lists.length)) := by
            have atZero := induction positive
            rw [current] at atZero
            simpa using atZero
          simp only [serve]
          by_cases last : k + 1 < lists.length
          · rw [List.getElem?_append_left (by omega)]
            have later := induction last
            rw [current, List.getElem?_cons_succ] at later
            rw [later, Nat.succ_add_eq_add_succ]
          · have isLast : k = rest.length := by omega
            rw [isLast, List.getElem?_append_right (Nat.le_refl _),
              Nat.sub_self, List.getElem?_cons_zero]
            have turn : calls + 1 + rest.length = calls + lists.length := by
              omega
            rw [turn, Nat.add_mod_right, Nat.add_div_right _ positive]
            cases original : lists[calls % lists.length]? with
            | none =>
                rw [original] at front_eq
                cases front_eq
            | some list =>
                rw [original, Option.map_some, Option.some.injEq] at front_eq
                rw [front_eq, List.rotate_rotate]
                rfl

/-- What the call after `calls` calls returns. -/
theorem serve_served
    {lists : List (List Element)} {calls : Nat} {list : List Element}
    (turn : lists[calls % lists.length]? = some list) (nonempty : list ≠ []) :
    (serve (served lists calls)).1 =
      list[calls / lists.length % list.length]? := by
  have positive : 0 < lists.length := by
    have inRange := (List.getElem?_eq_some_iff.mp turn).1
    omega
  have front := getElem?_served lists calls positive
  rw [Nat.add_zero, turn, Option.map_some] at front
  have hasElement : 0 < list.length := List.length_pos_iff.mpr nonempty
  cases current : served lists calls with
  | nil =>
      rw [current] at front
      cases front
  | cons first rest =>
      rw [current, List.getElem?_cons_zero, Option.some.injEq] at front
      simp only [serve]
      rw [front, ← List.rotate_mod, List.head?_rotate (Nat.mod_lt _ hasElement)]

/-- A call returns nothing exactly if the list in front is empty. -/
theorem serve_served_eq_none_iff
    {lists : List (List Element)} {calls : Nat} {list : List Element}
    (turn : lists[calls % lists.length]? = some list) :
    (serve (served lists calls)).1 = none ↔ list = [] := by
  have positive : 0 < lists.length := by
    have inRange := (List.getElem?_eq_some_iff.mp turn).1
    omega
  have front := getElem?_served lists calls positive
  rw [Nat.add_zero, turn, Option.map_some] at front
  cases current : served lists calls with
  | nil =>
      rw [current] at front
      cases front
  | cons first rest =>
      rw [current, List.getElem?_cons_zero, Option.some.injEq] at front
      simp [serve, front]

/-- The calls that serve position `j` of list `i` are one residue class. -/
theorem turn_iff_modEq
    {outer inner i j call : Nat} (iInRange : i < outer)
    (jInRange : j < inner) :
    (call % outer = i ∧ call / outer % inner = j) ↔
      call ≡ i + outer * j [MOD outer * inner] := by
  have small : i + outer * j < outer * inner := by
    calc
      i + outer * j < outer + outer * j := by omega
      _ = outer * (j + 1) := by ring
      _ ≤ outer * inner := Nat.mul_le_mul_left outer jInRange
  have outerPositive : 0 < outer := Nat.zero_lt_of_lt iInRange
  rw [Nat.ModEq, Nat.mod_eq_of_lt small, Nat.mod_mul]
  constructor
  · intro holds
    obtain ⟨rfl, rfl⟩ := holds
    rfl
  · intro same
    have remainder := congrArg (· % outer) same
    have quotient := congrArg (· / outer) same
    simp only [Nat.add_mul_mod_self_left, Nat.mod_mod,
      Nat.mod_eq_of_lt iInRange] at remainder
    simp only [Nat.add_mul_div_left _ _ outerPositive,
      Nat.div_eq_of_lt (Nat.mod_lt call outerPositive),
      Nat.div_eq_of_lt iInRange, Nat.zero_add] at quotient
    exact ⟨remainder, quotient⟩

/-- Over a common period every position is served equally often, wherever the
period starts. -/
theorem card_turns
    {outer inner rounds i j : Nat} (iInRange : i < outer)
    (jInRange : j < inner) (divides : inner ∣ rounds) (start : Nat) :
    ((Finset.Ico start (start + outer * rounds)).filter fun call =>
        call % outer = i ∧ call / outer % inner = j).card =
      rounds / inner := by
  have outerPositive : 0 < outer := Nat.zero_lt_of_lt iInRange
  have innerPositive : 0 < inner := Nat.zero_lt_of_lt jInRange
  obtain ⟨turns, rfl⟩ := divides
  simp only [turn_iff_modEq iInRange jInRange]
  have periodic : Function.Periodic
      (fun call => call ≡ i + outer * j [MOD outer * inner])
      (outer * (inner * turns)) := by
    intro call
    simp only [Nat.ModEq, eq_iff_iff]
    rw [← Nat.mul_assoc, Nat.add_mul_mod_self_left]
  rw [Nat.filter_Ico_card_eq_of_periodic _ _ _ periodic,
    Nat.count_modEq_card _ (Nat.mul_pos outerPositive innerPositive),
    ← Nat.mul_assoc, Nat.mul_div_cancel_left _
      (Nat.mul_pos outerPositive innerPositive), Nat.mul_mod_right,
    if_neg (Nat.not_lt_zero _), Nat.mul_div_cancel_left _ innerPositive]
  rfl

end Foundation
