import Mathlib.Data.List.ReduceOption
import DBWrapper.Redis.ReplyCursor

/-!
# Replies in memory

The objects of a reply lie one behind the other, an array in front of its
elements: they are created in this order, and nothing else is allocated in
between.  The cells of a reply are what the heap holds of it.  Reading along the
pointers gives the reply back, and `freeReplyObject` empties its cells and no
other one.

The same is true of the arrays around an unfinished item.  Each of them points
at its complete elements and, but for the innermost one, at the next of them.
-/

namespace DBWrapper

open Foundation

namespace Hiredis

/-- What a caller finds who follows the pointers of a reply. -/
def readReply (heap : ReplyHeap) : Nat → Pointer → Option Reply
  | 0, _ => none
  | fuel + 1, address => do
      let r ← heap.object? address
      match r.type with
      | .string => some (.string r.str)
      | .status => some (.status r.str)
      | .error => some (.error r.str)
      | .integer => some (.integer r.integer)
      | .nil => some .nil
      | .array =>
          if r.element.length = r.elements then do
            let element ← r.element.mapM fun slot => do
              let address ← slot
              readReply heap fuel address
            some (.array element)
          else
            none

/-! ### Cells -/

mutual

/-- The number of objects. -/
def Reply.size : Reply → Nat
  | .array element => 1 + Reply.sizeAll element
  | _ => 1

def Reply.sizeAll : List Reply → Nat
  | [] => 0
  | reply :: replies => reply.size + Reply.sizeAll replies

end

/-- Where replies stand that lie one behind the other. -/
def addresses (base : Pointer) : List Reply → List Pointer
  | [] => []
  | reply :: replies => base :: addresses (base + reply.size) replies

/-- An array with room for `elements` pointers, the first of which are set. -/
def arrayObject (elements : Nat) (pointers : List Pointer) : RedisReply :=
  { createReplyObject .array with
    elements
    element :=
      pointers.map some ++ List.replicate (elements - pointers.length) none }

mutual

/-- What the heap holds of a reply that stands at `base`. -/
def Reply.cells (base : Pointer) : Reply → ReplyHeap
  | .string str => [some { createReplyObject .string with str }]
  | .status str => [some { createReplyObject .status with str }]
  | .error str => [some { createReplyObject .error with str }]
  | .integer value =>
      [some { createReplyObject .integer with integer := value }]
  | .nil => [some (createReplyObject .nil)]
  | .array element =>
      some (arrayObject element.length (addresses (base + 1) element)) ::
        Reply.cellsAll (base + 1) element

def Reply.cellsAll (base : Pointer) : List Reply → ReplyHeap
  | [] => []
  | reply :: replies =>
      reply.cells base ++ Reply.cellsAll (base + reply.size) replies

end

@[simp] theorem length_addresses (base : Pointer) (replies : List Reply) :
    (addresses base replies).length = replies.length := by
  induction replies generalizing base with
  | nil => rfl
  | cons reply replies induction => simp [addresses, induction]

theorem addresses_append (base : Pointer) (front back : List Reply) :
    addresses base (front ++ back) =
      addresses base front ++
        addresses (base + Reply.sizeAll front) back := by
  induction front generalizing base with
  | nil => rfl
  | cons reply front induction =>
      simp only [List.cons_append, addresses, Reply.sizeAll, induction,
        Nat.add_assoc]

theorem cellsAll_append (base : Pointer) (front back : List Reply) :
    Reply.cellsAll base (front ++ back) =
      Reply.cellsAll base front ++
        Reply.cellsAll (base + Reply.sizeAll front) back := by
  induction front generalizing base with
  | nil => rfl
  | cons reply front induction =>
      simp only [List.cons_append, Reply.cellsAll, Reply.sizeAll, induction,
        Nat.add_assoc, List.append_assoc]

mutual

@[simp] theorem length_cells (base : Pointer) (reply : Reply) :
    (reply.cells base).length = reply.size := by
  cases reply with
  | array element =>
      simp only [Reply.cells, Reply.size, List.length_cons,
        length_cellsAll (base + 1) element]
      omega
  | _ => simp [Reply.cells, Reply.size]

@[simp] theorem length_cellsAll (base : Pointer) (replies : List Reply) :
    (Reply.cellsAll base replies).length = Reply.sizeAll replies := by
  cases replies with
  | nil => rfl
  | cons reply replies =>
      simp only [Reply.cellsAll, Reply.sizeAll, List.length_append,
        length_cells base reply,
        length_cellsAll (base + reply.size) replies]

end

theorem object?_append_cons
    (front back : ReplyHeap) (object : RedisReply) :
    ReplyHeap.object? (front ++ some object :: back) front.length =
      some object := by
  simp [ReplyHeap.object?]

theorem set_append_cons
    (front back : ReplyHeap) (cell other : Option RedisReply) :
    (front ++ cell :: back).set front.length other = front ++ other :: back := by
  simp

@[simp] theorem type_arrayObject (elements : Nat) (pointers : List Pointer) :
    (arrayObject elements pointers).type = .array := rfl

@[simp] theorem elements_arrayObject
    (elements : Nat) (pointers : List Pointer) :
    (arrayObject elements pointers).elements = elements := rfl

/-- An array that is complete has no free slot. -/
theorem element_arrayObject (pointers : List Pointer) :
    (arrayObject pointers.length pointers).element = pointers.map some := by
  simp [arrayObject]

/-- The first free slot is set. -/
theorem setElement_arrayObject
    {elements : Nat} {pointers : List Pointer}
    (room : pointers.length < elements) (r : Pointer) :
    (arrayObject elements pointers).setElement pointers.length r =
      some (arrayObject elements (pointers ++ [r])) := by
  obtain ⟨free, rfl⟩ : ∃ free, elements = pointers.length + (free + 1) :=
    ⟨elements - pointers.length - 1, by omega⟩
  have slots : pointers.length + (free + 1) - pointers.length = free + 1 := by
    omega
  have size : (arrayObject (pointers.length + (free + 1)) pointers).element.length =
      pointers.length + (free + 1) := by
    simp only [arrayObject, slots, List.length_append, List.length_map,
      List.length_replicate]
  have fewer : pointers.length + (free + 1) - (pointers.length + 1) = free := by
    omega
  rw [RedisReply.setElement, if_pos (by rw [size]; omega)]
  simp [arrayObject, slots, fewer, List.replicate_succ]

/-! ### Reading -/

mutual

theorem readReply_cells
    (reply : Reply) (front back : ReplyHeap) {fuel : Nat}
    (enough : reply.size ≤ fuel) :
    readReply (front ++ (reply.cells front.length ++ back)) fuel front.length =
      some reply := by
  cases fuel with
  | zero => cases reply <;> simp [Reply.size] at enough
  | succ fuel =>
      cases reply with
      | array element =>
          simp only [Reply.size] at enough
          have elements := readReply_cellsAll element
            (front ++ [some (arrayObject element.length
              (addresses (front.length + 1) element))]) back
            (by omega : Reply.sizeAll element ≤ fuel)
          simp only [List.length_append, List.length_singleton,
            List.append_assoc, List.singleton_append] at elements
          have follow : ((addresses (front.length + 1) element).map some).mapM
              (fun slot => do
                let address ← slot
                readReply (front ++ (Reply.cells front.length (.array element) ++
                  back)) fuel address) = some element := by
            rw [List.mapM_map]
            exact elements
          have found := object?_append_cons front
            (Reply.cellsAll (front.length + 1) element ++ back)
            (arrayObject element.length (addresses (front.length + 1) element))
          have slots := element_arrayObject (addresses (front.length + 1) element)
          rw [length_addresses] at slots
          simp only [readReply, Reply.cells, List.cons_append, found,
            Option.bind_eq_bind, Option.bind_some, type_arrayObject,
            elements_arrayObject, slots, List.length_map, length_addresses,
            if_true]
          simp only [Reply.cells, List.cons_append, Option.bind_eq_bind]
            at follow
          rw [follow]
          rfl
      | string str =>
          simp [readReply, Reply.cells, ReplyHeap.object?, createReplyObject]
      | status str =>
          simp [readReply, Reply.cells, ReplyHeap.object?, createReplyObject]
      | error str =>
          simp [readReply, Reply.cells, ReplyHeap.object?, createReplyObject]
      | integer value =>
          simp [readReply, Reply.cells, ReplyHeap.object?, createReplyObject]
      | nil =>
          simp [readReply, Reply.cells, ReplyHeap.object?, createReplyObject]

theorem readReply_cellsAll
    (replies : List Reply) (front back : ReplyHeap) {fuel : Nat}
    (enough : Reply.sizeAll replies ≤ fuel) :
    (addresses front.length replies).mapM
        (readReply (front ++ (Reply.cellsAll front.length replies ++ back))
          fuel) =
      some replies := by
  cases replies with
  | nil => rfl
  | cons reply replies =>
      simp only [Reply.sizeAll] at enough
      have first := readReply_cells reply front
        (Reply.cellsAll (front.length + reply.size) replies ++ back)
        (by omega : reply.size ≤ fuel)
      have later := readReply_cellsAll replies
        (front ++ reply.cells front.length) back
        (by omega : Reply.sizeAll replies ≤ fuel)
      simp only [List.length_append, length_cells, List.append_assoc] at later
      simp only [addresses, Reply.cellsAll, List.append_assoc,
        List.mapM_cons, first, later]
      rfl

end

/-! ### Freeing -/

/-- The pointers, freed one after the other, empty the cells and no other
one. -/
def Frees (pointers : List Pointer) (base : Pointer) (cells : ReplyHeap) :
    Prop :=
  ∀ (front back : ReplyHeap) (fuel : Nat), front.length = base →
    cells.length ≤ fuel →
      pointers.foldlM (freeReplyObject fuel) (front ++ (cells ++ back)) =
        some (front ++ (List.replicate cells.length none ++ back))

theorem frees_nil (base : Pointer) : Frees [] base [] := by
  intro front back fuel _ _
  rfl

theorem Frees.append
    {pointers others : List Pointer} {base : Pointer}
    {cells more : ReplyHeap} (first : Frees pointers base cells)
    (second : Frees others (base + cells.length) more) :
    Frees (pointers ++ others) base (cells ++ more) := by
  intro front back fuel atBase enough
  rw [List.length_append] at enough
  have here := first front (more ++ back) fuel atBase (by omega)
  have there := second (front ++ List.replicate cells.length none) back fuel
    (by simp [atBase]) (by omega)
  simp only [List.append_assoc] at there ⊢
  rw [List.foldlM_append, here, Option.bind_eq_bind, Option.bind_some, there,
    List.length_append, List.replicate_add, List.append_assoc]

/-- An object that stands in front of its elements. -/
theorem Frees.object
    {object : RedisReply} {pointers : List Pointer} {base : Pointer}
    {cells : ReplyHeap} (isArray : object.type = .array)
    (elements : object.element.reduceOption = pointers)
    (frees : Frees pointers (base + 1) cells) :
    Frees [base] base (some object :: cells) := by
  intro front back fuel atBase enough
  subst atBase
  cases fuel with
  | zero => simp at enough
  | succ fuel =>
      have inner := frees (front ++ [some object]) back fuel (by simp)
        (by simpa using enough)
      simp only [List.append_assoc, List.singleton_append] at inner
      have found := object?_append_cons front (cells ++ back) object
      simp only [List.foldlM_cons, List.foldlM_nil, List.cons_append,
        freeReplyObject, found, Option.bind_eq_bind, Option.bind_some,
        isArray, if_true, elements, inner, set_append_cons]
      rfl

theorem frees_scalar
    {object : RedisReply} (noArray : object.type ≠ .array) (base : Pointer) :
    Frees [base] base [some object] := by
  intro front back fuel atBase enough
  subst atBase
  cases fuel with
  | zero => simp at enough
  | succ fuel =>
      have found := object?_append_cons front back object
      simp only [List.foldlM_cons, List.foldlM_nil, List.singleton_append,
        freeReplyObject, found, Option.bind_eq_bind, Option.bind_some,
        noArray, if_false, set_append_cons]
      rfl

theorem reduceOption_map_some (pointers : List Pointer) :
    (pointers.map some).reduceOption = pointers := by
  induction pointers with
  | nil => rfl
  | cons pointer pointers induction =>
      rw [List.map_cons, List.reduceOption_cons_of_some, induction]

theorem reduceOption_arrayObject (elements : Nat) (pointers : List Pointer) :
    (arrayObject elements pointers).element.reduceOption = pointers := by
  change (pointers.map some ++ List.replicate _ none).reduceOption = pointers
  rw [List.reduceOption_append, reduceOption_map_some,
    List.reduceOption_replicate_none, List.append_nil]

mutual

theorem frees_cells (base : Pointer) (reply : Reply) :
    Frees [base] base (reply.cells base) := by
  cases reply with
  | array element =>
      exact (frees_cellsAll (base + 1) element).object rfl
        (reduceOption_arrayObject _ _)
  | string str => exact frees_scalar (by simp [createReplyObject]) base
  | status str => exact frees_scalar (by simp [createReplyObject]) base
  | error str => exact frees_scalar (by simp [createReplyObject]) base
  | integer value => exact frees_scalar (by simp [createReplyObject]) base
  | nil => exact frees_scalar (by simp [createReplyObject]) base

theorem frees_cellsAll (base : Pointer) (replies : List Reply) :
    Frees (addresses base replies) base (Reply.cellsAll base replies) := by
  cases replies with
  | nil => exact frees_nil base
  | cons reply replies =>
      have later := frees_cellsAll (base + reply.size) replies
      rw [← length_cells base reply] at later
      have all := (frees_cells base reply).append later
      rw [length_cells] at all
      exact all

end

/-! ### Unfinished arrays -/

/-- How many objects there are of the arrays around an item. -/
def openSize : List Frame → Nat
  | [] => 0
  | frame :: frames => openSize frames + (1 + Reply.sizeAll frame.done)

/-- What the heap holds of the arrays around an item, the innermost of which is
in front of the list and last in the heap.  `last` is what it points at behind
its complete elements. -/
def openCells (base : Pointer) : List Pointer → List Frame → ReplyHeap
  | _, [] => []
  | last, frame :: frames =>
      let address := base + openSize frames
      openCells base [address] frames ++
        some (arrayObject frame.elements
          (addresses (address + 1) frame.done ++ last)) ::
        Reply.cellsAll (address + 1) frame.done

/-- An item behind the arrays around it, of which it is an element. -/
def storedCells (base : Pointer) (frames : List Frame) (reply : Reply) :
    ReplyHeap :=
  openCells base [base + openSize frames] frames ++
    reply.cells (base + openSize frames)

@[simp] theorem length_openCells
    (base : Pointer) (last : List Pointer) (frames : List Frame) :
    (openCells base last frames).length = openSize frames := by
  induction frames generalizing last with
  | nil => rfl
  | cons frame frames induction =>
      simp only [openCells, openSize, List.length_append, induction,
        List.length_cons, length_cellsAll]
      omega

/-- Where the outermost object is. -/
def openRoot (base : Pointer) (last : List Pointer) :
    List Frame → List Pointer
  | [] => last
  | _ :: _ => [base]

theorem frees_openCells
    {base : Pointer} {frames : List Frame} {last : List Pointer}
    {cells : ReplyHeap} (frees : Frees last (base + openSize frames) cells) :
    Frees (openRoot base last frames) base
      (openCells base last frames ++ cells) := by
  induction frames generalizing last cells with
  | nil => exact frees
  | cons frame frames induction =>
      let address := base + openSize frames
      have behind : base + openSize (frame :: frames) =
          address + 1 + (Reply.cellsAll (address + 1) frame.done).length := by
        rw [length_cellsAll, openSize, ← Nat.add_assoc, ← Nat.add_assoc]
      rw [behind] at frees
      have object := ((frees_cellsAll (address + 1) frame.done).append
        frees).object rfl (reduceOption_arrayObject frame.elements _)
      have outer := induction object
      have root : openRoot base [address] frames = [base] := by
        cases frames with
        | nil => rfl
        | cons frame frames => rfl
      rw [root] at outer
      simp only [openRoot, openCells, List.append_assoc, List.cons_append]
      exact outer

/-- An element is a part of its array as soon as it is complete. -/
theorem storedCells_of_missing
    {base : Pointer} (frame : Frame) (frames : List Frame) (reply : Reply) :
    storedCells base (frame :: frames) reply =
      openCells base []
        ({ frame with done := frame.done ++ [reply] } :: frames) := by
  have behind : base + openSize (frame :: frames) =
      base + openSize frames + 1 + Reply.sizeAll frame.done := by
    rw [openSize, ← Nat.add_assoc, ← Nat.add_assoc]
  simp only [storedCells, openCells, behind, addresses_append, addresses,
    cellsAll_append, Reply.cellsAll, List.append_nil, List.append_assoc,
    List.cons_append]

theorem storedCells_of_last
    {base : Pointer} {frame : Frame}
    (last : frame.done.length + 1 = frame.elements) (frames : List Frame)
    (reply : Reply) :
    storedCells base (frame :: frames) reply =
      storedCells base frames (.array (frame.done ++ [reply])) := by
  rw [storedCells_of_missing]
  simp only [storedCells, openCells, Reply.cells, List.append_nil,
    List.length_append, List.length_singleton, last]

/-- The arrays that an item completes are there as replies. -/
theorem storedCells_complete
    (base : Pointer) (frames : List Frame) (reply : Reply) :
    storedCells base frames reply =
      openCells base [] (complete frames reply).1 ++
        (complete frames reply).2.elim [] (Reply.cells base) := by
  induction frames generalizing reply with
  | nil => rfl
  | cons frame frames induction =>
      by_cases last : frame.done.length + 1 = frame.elements
      · rw [storedCells_of_last last, induction, complete, if_pos last]
      · rw [storedCells_of_missing, complete, if_neg last]
        simp

end Hiredis

end DBWrapper
