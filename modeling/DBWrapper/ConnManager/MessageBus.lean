import Mathlib.Algebra.Group.Nat.Defs
import Mathlib.Data.List.Rotate
import DBWrapper.Foundation.Latch

/-!
# The message bus

Handlers live in one multimap under topic names.  A call walks the multimap
and runs the first handler with the name and the id of the call; a removal
erases every entry with the name, the owner and the id.  The ids come from one
atomic counter for the whole program.

`ops` records what has been done to the multimap.  As long as no id is used
twice, a call finds a handler exactly if it was registered under that name
with that id and has not been removed since.
-/

namespace DBWrapper

open Foundation

/-- An `int`, as its 32 bits. -/
abbrev Id := BitVec 32

/-- `id_center`.  `drawn` counts the calls of `getUniqueID`; the atomic
counter holds it modulo `2 ^ 32`. -/
structure IdCenter where
  drawn : Nat
  deriving DecidableEq, Repr

def IdCenter.getUniqueID (center : IdCenter) : Id × IdCenter :=
  (BitVec.ofNat 32 center.drawn, { drawn := center.drawn + 1 })

/-- An entry of `invokers_`: its name and the tuple `(f, t, id)`. -/
structure Invoker (Owner Handler : Type) where
  name : String
  f : Handler
  t : Owner
  id : Id
  deriving DecidableEq, Repr

inductive BusOp (Owner Handler : Type) where
  | register (invoker : Invoker Owner Handler)
  | remove (name : String) (t : Owner) (id : Id)
  deriving DecidableEq, Repr

structure MessageBus (Owner Handler : Type) where
  invokers : List (Invoker Owner Handler)
  ops : List (BusOp Owner Handler)

namespace MessageBus

variable {Owner Handler : Type}

def empty : MessageBus Owner Handler :=
  { invokers := [], ops := [] }

/-- The overload of `register_handler` that is given its id; the other one
draws the id first. -/
def registerHandler (bus : MessageBus Owner Handler)
    (invoker : Invoker Owner Handler) : MessageBus Owner Handler :=
  { invokers := bus.invokers ++ [invoker]
    ops := bus.ops ++ [.register invoker] }

/-- The handler that `call` runs, if any: the walk ends at the first match. -/
def call (bus : MessageBus Owner Handler) (name : String) (id : Id) :
    Option (Invoker Owner Handler) :=
  bus.invokers.find? fun invoker => invoker.name == name && id == invoker.id

def removeHandler [DecidableEq Owner] (bus : MessageBus Owner Handler)
    (name : String) (t : Owner) (id : Id) : MessageBus Owner Handler :=
  { invokers :=
      bus.invokers.filter fun invoker =>
        !(invoker.name == name && invoker.t == t && invoker.id == id)
    ops := bus.ops ++ [.remove name t id] }

end MessageBus

namespace BusOp

variable {Owner Handler : Type}

/-- The handler has been registered and not been removed since. -/
def Registered (ops : List (BusOp Owner Handler))
    (invoker : Invoker Owner Handler) : Prop :=
  Latched (· = .register invoker)
    (· = .remove invoker.name invoker.t invoker.id) ops

/-- The ids given to handlers, in the order of the registrations. -/
def ids (ops : List (BusOp Owner Handler)) : List Id :=
  ops.filterMap fun op =>
    match op with
    | .register invoker => some invoker.id
    | .remove _ _ _ => none

@[simp] theorem ids_append (front back : List (BusOp Owner Handler)) :
    ids (front ++ back) = ids front ++ ids back :=
  List.filterMap_append

@[simp] theorem ids_nil : ids ([] : List (BusOp Owner Handler)) = [] := rfl

@[simp] theorem ids_register
    (invoker : Invoker Owner Handler) (ops : List (BusOp Owner Handler)) :
    ids (.register invoker :: ops) = invoker.id :: ids ops := rfl

@[simp] theorem ids_remove
    (name : String) (t : Owner) (id : Id) (ops : List (BusOp Owner Handler)) :
    ids (.remove name t id :: ops) = ids ops := rfl

theorem mem_ids {ops : List (BusOp Owner Handler)} {id : Id} :
    id ∈ ids ops ↔ ∃ invoker, .register invoker ∈ ops ∧ invoker.id = id := by
  simp only [ids]
  rw [List.mem_filterMap]
  constructor
  · intro holds
    obtain ⟨op, listed, found⟩ := holds
    cases op with
    | register invoker => exact ⟨invoker, listed, Option.some.inj found⟩
    | remove name t id => cases found
  · intro holds
    obtain ⟨invoker, listed, rfl⟩ := holds
    exact ⟨.register invoker, listed, rfl⟩

/-- Two registrations with one id are the same registration. -/
theorem register_inj
    {ops : List (BusOp Owner Handler)} (distinct : (ids ops).Nodup)
    {left right : Invoker Owner Handler}
    (leftListed : .register left ∈ ops) (rightListed : .register right ∈ ops)
    (sameId : left.id = right.id) : left = right := by
  induction ops with
  | nil => cases leftListed
  | cons op ops induction =>
      change (ids ([op] ++ ops)).Nodup at distinct
      rw [ids_append] at distinct
      have rest := (List.nodup_append.mp distinct).2.1
      have apart := (List.nodup_append.mp distinct).2.2
      rcases List.mem_cons.mp leftListed with rfl | leftLater
      · rcases List.mem_cons.mp rightListed with same | rightLater
        · cases same
          rfl
        · have clash := apart left.id (by simp) right.id
            (mem_ids.mpr ⟨right, rightLater, rfl⟩)
          exact (clash sameId).elim
      · rcases List.mem_cons.mp rightListed with rfl | rightLater
        · have clash := apart right.id (by simp) left.id
            (mem_ids.mpr ⟨left, leftLater, rfl⟩)
          exact (clash sameId.symm).elim
        · exact induction rest leftLater rightLater

theorem Registered.mem
    {ops : List (BusOp Owner Handler)} {invoker : Invoker Owner Handler}
    (registered : Registered ops invoker) : .register invoker ∈ ops := by
  obtain ⟨op, listed, rfl⟩ := registered.exists_sets
  exact listed

theorem registered_append_register
    {ops : List (BusOp Owner Handler)} {added invoker : Invoker Owner Handler} :
    Registered (ops ++ [.register added]) invoker ↔
      Registered ops invoker ∨ invoker = added := by
  simp only [Registered]
  rw [latched_append_singleton]
  simp only [BusOp.register.injEq, reduceCtorEq, not_false_eq_true, and_true]
  rw [or_comm, eq_comm]

theorem registered_append_remove
    {ops : List (BusOp Owner Handler)} {invoker : Invoker Owner Handler}
    {name : String} {t : Owner} {id : Id} :
    Registered (ops ++ [.remove name t id]) invoker ↔
      Registered ops invoker ∧
        ¬ (name = invoker.name ∧ t = invoker.t ∧ id = invoker.id) := by
  simp only [Registered]
  rw [latched_append_singleton]
  simp only [reduceCtorEq, false_or, BusOp.remove.injEq]

end BusOp

namespace MessageBus

variable {Owner Handler : Type}

/-- The multimap holds exactly the handlers that are registered, and no id
has been used twice. -/
structure Consistent (bus : MessageBus Owner Handler) : Prop where
  mem_invokers : ∀ invoker,
    invoker ∈ bus.invokers ↔ BusOp.Registered bus.ops invoker
  idsDistinct : (BusOp.ids bus.ops).Nodup

theorem consistent_empty : Consistent (empty : MessageBus Owner Handler) := by
  constructor
  · intro invoker
    constructor
    · intro listed
      cases listed
    · intro registered
      exact (not_latched_nil _ _ registered).elim
  · exact List.nodup_nil

theorem Consistent.registerHandler
    {bus : MessageBus Owner Handler} (consistent : Consistent bus)
    {invoker : Invoker Owner Handler}
    (fresh : invoker.id ∉ BusOp.ids bus.ops) :
    Consistent (bus.registerHandler invoker) := by
  constructor
  · intro other
    simp only [MessageBus.registerHandler]
    rw [List.mem_append, List.mem_singleton, consistent.mem_invokers,
      BusOp.registered_append_register]
  · simp only [MessageBus.registerHandler, BusOp.ids_append, BusOp.ids_register]
    rw [List.nodup_append_comm]
    exact List.nodup_cons.mpr ⟨fresh, consistent.idsDistinct⟩

theorem Consistent.removeHandler [DecidableEq Owner]
    {bus : MessageBus Owner Handler} (consistent : Consistent bus)
    (name : String) (t : Owner) (id : Id) :
    Consistent (bus.removeHandler name t id) := by
  constructor
  · intro other
    simp only [MessageBus.removeHandler]
    rw [List.mem_filter, consistent.mem_invokers,
      BusOp.registered_append_remove]
    simp only [Bool.not_eq_true', Bool.and_eq_false_iff, beq_eq_false_iff_ne]
    tauto
  · simpa [MessageBus.removeHandler] using consistent.idsDistinct

theorem Consistent.eq_of_id_eq
    {bus : MessageBus Owner Handler} (consistent : Consistent bus)
    {left right : Invoker Owner Handler}
    (leftListed : left ∈ bus.invokers) (rightListed : right ∈ bus.invokers)
    (sameId : left.id = right.id) : left = right :=
  BusOp.register_inj consistent.idsDistinct
    ((consistent.mem_invokers left).mp leftListed).mem
    ((consistent.mem_invokers right).mp rightListed).mem sameId

theorem of_call_eq_some
    {bus : MessageBus Owner Handler} {name : String} {id : Id}
    {invoker : Invoker Owner Handler}
    (found : bus.call name id = some invoker) :
    invoker ∈ bus.invokers ∧ invoker.name = name ∧ invoker.id = id := by
  have matched := List.find?_some found
  simp only [Bool.and_eq_true, beq_iff_eq] at matched
  exact ⟨List.mem_of_find?_eq_some found, matched.1, matched.2.symm⟩

/-- A call runs the handler registered under the name with the id. -/
theorem Consistent.call_eq_some_iff
    {bus : MessageBus Owner Handler} (consistent : Consistent bus)
    {name : String} {id : Id} {invoker : Invoker Owner Handler} :
    bus.call name id = some invoker ↔
      BusOp.Registered bus.ops invoker ∧ invoker.name = name ∧
        invoker.id = id := by
  rw [← consistent.mem_invokers]
  constructor
  · exact of_call_eq_some
  · intro holds
    obtain ⟨listed, rfl, rfl⟩ := holds
    cases found : bus.call invoker.name invoker.id with
    | none =>
        have missed := List.find?_eq_none.mp found invoker listed
        simp at missed
    | some other =>
        obtain ⟨otherListed, _, sameId⟩ := of_call_eq_some found
        rw [consistent.eq_of_id_eq otherListed listed sameId]

end MessageBus

end DBWrapper
