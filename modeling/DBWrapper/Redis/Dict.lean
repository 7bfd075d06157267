import DBWrapper.Foundation.Buckets
import DBWrapper.Foundation.Runs
import DBWrapper.Redis.Async

/-!
# The hash table of hiredis

The subscriptions of a context are hash tables with chains, of which the newest
entry comes first.  A table is made when the first entry is added, and doubled
when it has as many entries as chains; an index of a chain is a hash value cut
off by a mask.  An iterator remembers the entry behind the one that it has
returned, so that this one may be deleted meanwhile.

Such a table is a map: whatever is added and deleted, it answers as a list of
the entries does, and an iterator visits each of them once.
-/

namespace DBWrapper

open Foundation

namespace Hiredis

universe u v

/-! ### The table -/

/-- `dictType`, without the copies and disposals of keys and values. -/
structure DictType (Key : Type u) where
  hashFunction : Key → UInt32
  keyCompare : Key → Key → Bool

/-- A chain is the list of its entries; an empty one is a null pointer. -/
structure Dict (Key : Type u) (Value : Type v) where
  table : List (List (Key × Value))
  size : Nat
  sizemask : Nat
  used : Nat
  deriving Repr

/-- `DICT_HT_INITIAL_SIZE`. -/
def dictHtInitialSize : Nat := 4

/-- `LONG_MAX`. -/
def longMax : Nat := 9223372036854775807

def dictGenHashFunction (buf : ByteString) : UInt32 :=
  buf.foldl (fun hash byte => (hash <<< 5) + hash + byte.toUInt32) 5381

/-- The loop of `_dictNextPower`; no power of two that is reached within its
turns is below a `size`. -/
def nextPowerFrom (size : Nat) : Nat → Nat → Nat
  | 0, power => power
  | turns + 1, power =>
      if size ≤ power then power else nextPowerFrom size turns (power * 2)

def dictNextPower (size : Nat) : Nat :=
  if longMax ≤ size then longMax else nextPowerFrom size 61 dictHtInitialSize

namespace Dict

variable {Key : Type u} {Value : Type v}

def dictCreate : Dict Key Value :=
  { table := [], size := 0, sizemask := 0, used := 0 }

def entries (dict : Dict Key Value) : List (Key × Value) :=
  dict.table.flatten

section Operations

variable (type : DictType Key)

/-- `dictHashKey(ht, key) & ht->sizemask`. -/
def hashKey (sizemask : Nat) (key : Key) : Nat :=
  (type.hashFunction key).toNat &&& sizemask

/-- An entry is linked in at the front of its chain. -/
def link (sizemask : Nat) (table : List (List (Key × Value)))
    (entry : Key × Value) : List (List (Key × Value)) :=
  let h := hashKey type sizemask entry.1
  table.set h (entry :: bucket table h)

/-- The loop of `dictExpand` over the old table, with `ht->used`. -/
def rehash (sizemask : Nat) :
    List (List (Key × Value)) → Nat → List (List (Key × Value)) →
      Nat × List (List (Key × Value))
  | [], used, table => (used, table)
  | chain :: chains, used, table =>
      if 0 < used then
        rehash sizemask chains (used - chain.length)
          (chain.foldl (link type sizemask) table)
      else
        (used, table)

/-- `true` is `DICT_OK`; `none` means that the assertion fails. -/
def dictExpand (dict : Dict Key Value) (size : Nat) :
    Option (Bool × Dict Key Value) :=
  let realsize := dictNextPower size
  if size < dict.used then
    some (false, dict)
  else
    let (used, table) :=
      rehash type (realsize - 1) dict.table dict.used
        (List.replicate realsize [])
    if used = 0 then
      some
        (true,
          { table, size := realsize, sizemask := realsize - 1
            used := dict.used })
    else
      none

def dictExpandIfNeeded (dict : Dict Key Value) :
    Option (Bool × Dict Key Value) :=
  if dict.size = 0 then
    dictExpand type dict dictHtInitialSize
  else if dict.used = dict.size then
    dictExpand type dict (dict.size * 2)
  else
    some (true, dict)

def dictFind (dict : Dict Key Value) (key : Key) : Option (Key × Value) :=
  if dict.size = 0 then
    none
  else
    (bucket dict.table (hashKey type dict.sizemask key)).find?
      fun entry => type.keyCompare key entry.1

/-- The index is an `int`, and -1 if there is such an entry. -/
def dictKeyIndex (dict : Dict Key Value) (key : Key) :
    Option (Int × Dict Key Value) :=
  match dictExpandIfNeeded type dict with
  | none => none
  | some (false, dict) => some (-1, dict)
  | some (true, dict) =>
      let h := hashKey type dict.sizemask key
      if (bucket dict.table h).any fun entry => type.keyCompare key entry.1 then
        some (-1, dict)
      else
        some (toInt h, dict)

/-- `none` also if the index is in front of the table. -/
def dictAdd (dict : Dict Key Value) (key : Key) (val : Value) :
    Option (Bool × Dict Key Value) :=
  match dictKeyIndex type dict key with
  | none => none
  | some (index, dict) =>
      if index = -1 then
        some (false, dict)
      else if index < 0 then
        none
      else
        let chain := (key, val) :: bucket dict.table index.toNat
        some
          (true,
            { dict with
              table := dict.table.set index.toNat chain
              used := dict.used + 1 })

/-- The first entry with the key gets the value, and keeps its own key. -/
def setVal (key : Key) (val : Value) :
    List (Key × Value) → List (Key × Value)
  | [] => []
  | entry :: chain =>
      if type.keyCompare key entry.1 then
        (entry.1, val) :: chain
      else
        entry :: setVal key val chain

/-- `true` if the key is new.  `dictFind` must find the entry otherwise. -/
def dictReplace (dict : Dict Key Value) (key : Key) (val : Value) :
    Option (Bool × Dict Key Value) :=
  match dictAdd type dict key val with
  | none => none
  | some (true, dict) => some (true, dict)
  | some (false, dict) =>
      (dictFind type dict key).map fun _ =>
        let h := hashKey type dict.sizemask key
        (false,
          { dict with
            table :=
              dict.table.set h (setVal type key val (bucket dict.table h)) })

/-- `true` is `DICT_OK`. -/
def dictDelete (dict : Dict Key Value) (key : Key) : Bool × Dict Key Value :=
  if dict.size = 0 then
    (false, dict)
  else
    let h := hashKey type dict.sizemask key
    let chain := bucket dict.table h
    if chain.any fun entry => type.keyCompare key entry.1 then
      (true,
        { dict with
          table :=
            dict.table.set h
              (chain.eraseP fun entry => type.keyCompare key entry.1)
          used := dict.used - 1 })
    else
      (false, dict)

end Operations

end Dict

/-! ### Iterators -/

/-- `nextEntry` is the chain from there on. -/
structure DictIterator (Key : Type u) (Value : Type v) where
  index : Int
  entry : Option (Key × Value)
  nextEntry : List (Key × Value)
  deriving Repr

namespace Dict

variable {Key : Type u} {Value : Type v}

def dictGetIterator : DictIterator Key Value :=
  { index := -1, entry := none, nextEntry := [] }

/-- `dictNext` at the end of a chain.  The size is converted to `int`. -/
def nextChain (dict : Dict Key Value) (index : Int) :
    Option ((Key × Value) × DictIterator Key Value) :=
  let index := index + 1
  if toInt dict.size ≤ index then
    none
  else
    match bucket dict.table index.toNat with
    | entry :: nextEntry => some (entry, { index, entry := some entry, nextEntry })
    | [] => nextChain dict index
  termination_by (toInt dict.size - index).toNat
  decreasing_by omega

def dictNext (dict : Dict Key Value) (iter : DictIterator Key Value) :
    Option ((Key × Value) × DictIterator Key Value) :=
  match iter.entry, iter.nextEntry with
  | some _, entry :: nextEntry =>
      some (entry, { iter with entry := some entry, nextEntry })
  | _, _ => nextChain dict iter.index

end Dict

end Hiredis

end DBWrapper
