import Mathlib.Data.List.Basic

/-!
# Blocks of memory

A block is the list of its cells.  Reading and writing name a position and are
undefined outside of the block; fresh cells hold anything.  What a write does is
stated for a block that is divided at the position of the write.
-/

namespace Foundation

universe u
variable {Cell : Type u}

/-- Read `count` cells from `pos` on. -/
def fetch (block : List Cell) (pos count : Nat) : Option (List Cell) :=
  if pos + count ≤ block.length then
    some ((block.drop pos).take count)
  else
    none

/-- Write `cells` from `pos` on. -/
def store (block : List Cell) (pos : Nat) (cells : List Cell) :
    Option (List Cell) :=
  if pos + cells.length ≤ block.length then
    some (block.take pos ++ (cells ++ block.drop (pos + cells.length)))
  else
    none

/-- A fresh block; the cells hold what they have held before. -/
def allocate (contents : Nat → Cell) (size : Nat) : List Cell :=
  (List.range size).map contents

/-- The cells that fit are kept, further ones are fresh. -/
def reallocate (contents : Nat → Cell) (block : List Cell) (size : Nat) :
    List Cell :=
  block.take size ++ allocate contents (size - block.length)

theorem length_allocate (contents : Nat → Cell) (size : Nat) :
    (allocate contents size).length = size := by
  simp [allocate]

theorem length_reallocate
    (contents : Nat → Cell) (block : List Cell) (size : Nat) :
    (reallocate contents block size).length = size := by
  rw [reallocate, List.length_append, List.length_take, length_allocate]
  omega

/-- What fits behind the kept part is fresh or old. -/
theorem reallocate_append
    (contents : Nat → Cell) (front back : List Cell) {size : Nat}
    (fits : front.length ≤ size) :
    ∃ rest, reallocate contents (front ++ back) size = front ++ rest := by
  refine ⟨back.take (size - front.length) ++
    allocate contents (size - (front ++ back).length), ?_⟩
  rw [reallocate, List.take_append, List.take_of_length_le fits,
    List.append_assoc]

theorem fetch_append (front middle back : List Cell) :
    fetch (front ++ (middle ++ back)) front.length middle.length =
      some middle := by
  have inside : front.length + middle.length ≤
      (front ++ (middle ++ back)).length := by
    simp only [List.length_append]
    omega
  rw [fetch, if_pos inside, List.drop_left, List.take_left]

theorem store_append
    (front : List Cell) {cells rest : List Cell}
    (room : cells.length ≤ rest.length) :
    store (front ++ rest) front.length cells =
      some (front ++ (cells ++ rest.drop cells.length)) := by
  have inside : front.length + cells.length ≤ (front ++ rest).length := by
    rw [List.length_append]
    omega
  rw [store, if_pos inside, List.take_left, List.drop_append]
  simp

theorem store_start
    {block cells : List Cell} (room : cells.length ≤ block.length) :
    store block 0 cells = some (cells ++ block.drop cells.length) :=
  store_append [] room

theorem length_of_store
    {block cells next : List Cell} {pos : Nat}
    (stored : store block pos cells = some next) :
    next.length = block.length := by
  rw [store] at stored
  split at stored
  · cases stored
    simp only [List.length_append, List.length_take, List.length_drop]
    omega
  · cases stored

end Foundation
