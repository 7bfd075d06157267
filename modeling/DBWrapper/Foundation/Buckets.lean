import Mathlib.Data.List.Perm.Basic
import Mathlib.Data.List.Nodup

/-!
# A table of buckets

Entries are spread over the buckets of a table; the key of an entry says which
bucket it belongs to.  With the keys distinct, such a table is a finite map, and
what is looked up in one bucket is what is looked up in all of them.
-/

namespace Foundation

universe u v
variable {Entry : Type u} {Key : Type u} {Value : Type v}

/-- Outside of the table, there is nothing. -/
def bucket (table : List (List Entry)) (index : Nat) : List Entry :=
  table.getD index []

/-- Every entry is in the bucket that it belongs to. -/
def Placed (slot : Entry → Nat) (table : List (List Entry)) : Prop :=
  ∀ index, ∀ entry ∈ bucket table index, slot entry = index

section Table

variable {slot : Entry → Nat} {table : List (List Entry)} {index : Nat}

theorem bucket_set_self (inside : index < table.length) (chain : List Entry) :
    bucket (table.set index chain) index = chain := by
  simp [bucket, inside]

theorem bucket_set_other
    {other : Nat} (different : other ≠ index) (chain : List Entry) :
    bucket (table.set index chain) other = bucket table other := by
  simp [bucket, List.getElem?_set_ne different.symm]

theorem set_bucket (inside : index < table.length) :
    table.set index (bucket table index) = table := by
  simp [bucket, inside]

theorem mem_flatten_of_mem_bucket
    {entry : Entry} (listed : entry ∈ bucket table index) :
    entry ∈ table.flatten := by
  rw [bucket, List.getD_eq_getElem?_getD] at listed
  cases found : table[index]? with
  | none => simp [found] at listed
  | some chain =>
      rw [found] at listed
      exact List.mem_flatten_of_mem (List.mem_of_getElem? found) listed

theorem Placed.mem_bucket
    (placed : Placed slot table) {entry : Entry}
    (listed : entry ∈ table.flatten) : entry ∈ bucket table (slot entry) := by
  obtain ⟨chain, chainListed, inChain⟩ := List.mem_flatten.mp listed
  obtain ⟨index, found⟩ := List.mem_iff_getElem?.mp chainListed
  have inBucket : entry ∈ bucket table index := by
    rw [bucket, List.getD_eq_getElem?_getD, found]
    exact inChain
  rw [placed index entry inBucket]
  exact inBucket

theorem Placed.set
    (placed : Placed slot table) {chain : List Entry}
    (fits : ∀ entry ∈ chain, slot entry = index) :
    Placed slot (table.set index chain) := by
  intro other entry listed
  by_cases same : other = index
  · subst same
    by_cases inside : other < table.length
    · rw [bucket_set_self inside] at listed
      exact fits entry listed
    · rw [List.set_eq_of_length_le (Nat.le_of_not_lt inside)] at listed
      exact placed other entry listed
  · rw [bucket_set_other same] at listed
    exact placed other entry listed

theorem placed_replicate (slot : Entry → Nat) (count : Nat) :
    Placed slot (List.replicate count []) := by
  intro index entry listed
  rw [bucket, List.getD_eq_getElem?_getD, List.getElem?_replicate] at listed
  split at listed <;> cases listed

/-- One entry more in a bucket is one entry more. -/
theorem perm_flatten_set_cons
    (inside : index < table.length) {entry : Entry} {chain longer : List Entry}
    (perm : longer.Perm (entry :: chain)) :
    (table.set index longer).flatten.Perm
      (entry :: (table.set index chain).flatten) := by
  induction table generalizing index with
  | nil => cases inside
  | cons first table induction =>
      cases index with
      | zero =>
          rw [List.set_cons_zero, List.set_cons_zero, List.flatten_cons,
            List.flatten_cons]
          exact perm.append_right table.flatten
      | succ index =>
          rw [List.set_cons_succ, List.set_cons_succ, List.flatten_cons,
            List.flatten_cons]
          have rest := (induction (Nat.lt_of_succ_lt_succ inside)).append_left
            first
          exact rest.trans List.perm_middle

end Table

/-! ### Entries with distinct keys -/

section Keyed

variable {entries : List (Key × Value)}

theorem eq_of_key
    (distinct : (entries.map Prod.fst).Nodup) {left right : Key × Value}
    (leftListed : left ∈ entries) (rightListed : right ∈ entries)
    (same : left.1 = right.1) : left = right :=
  List.inj_on_of_nodup_map distinct leftListed rightListed same

variable [DecidableEq Key]

theorem find?_key_eq_some_iff
    (distinct : (entries.map Prod.fst).Nodup) {key : Key}
    {entry : Key × Value} :
    entries.find? (fun entry => key = entry.1) = some entry ↔
      entry ∈ entries ∧ entry.1 = key := by
  constructor
  · intro found
    have same := List.find?_some found
    exact ⟨List.mem_of_find?_eq_some found, (of_decide_eq_true same).symm⟩
  · intro both
    obtain ⟨listed, same⟩ := both
    cases found : entries.find? (fun entry => key = entry.1) with
    | none =>
        have missing := List.find?_eq_none.mp found entry listed
        simp [same] at missing
    | some other =>
        have sameKey : key = other.1 := by simpa using List.find?_some found
        have equal := eq_of_key distinct (List.mem_of_find?_eq_some found) listed
          (sameKey.symm.trans same.symm)
        rw [equal]

/-- The order of the entries does not matter. -/
theorem find?_key_perm
    {others : List (Key × Value)} (perm : entries.Perm others)
    (distinct : (entries.map Prod.fst).Nodup) (key : Key) :
    entries.find? (fun entry => key = entry.1) =
      others.find? (fun entry => key = entry.1) := by
  have othersDistinct := (perm.map Prod.fst).nodup_iff.mp distinct
  apply Option.ext
  intro entry
  rw [find?_key_eq_some_iff distinct, find?_key_eq_some_iff othersDistinct,
    perm.mem_iff]

/-- What has the key is in one bucket. -/
theorem Placed.find?_bucket
    {hash : Key → Nat} {table : List (List (Key × Value))}
    (placed : Placed (fun entry => hash entry.1) table)
    (distinct : (table.flatten.map Prod.fst).Nodup) (key : Key) :
    (bucket table (hash key)).find? (fun entry => key = entry.1) =
      table.flatten.find? (fun entry => key = entry.1) := by
  cases found : table.flatten.find? (fun entry => key = entry.1) with
  | none =>
      rw [List.find?_eq_none] at found ⊢
      intro entry listed
      exact found entry (mem_flatten_of_mem_bucket listed)
  | some entry =>
      obtain ⟨listed, rfl⟩ := (find?_key_eq_some_iff distinct).mp found
      have inBucket := placed.mem_bucket listed
      cases inChain : (bucket table (hash entry.1)).find?
          (fun other => entry.1 = other.1) with
      | none =>
          have missing := List.find?_eq_none.mp inChain entry inBucket
          simp at missing
      | some other =>
          have sameKey : entry.1 = other.1 := by
            simpa using List.find?_some inChain
          rw [eq_of_key distinct
            (mem_flatten_of_mem_bucket (List.mem_of_find?_eq_some inChain))
            listed sameKey.symm]

theorem filter_key_of_not_mem
    {key : Key} (missing : key ∉ entries.map Prod.fst) :
    entries.filter (fun entry => entry.1 ≠ key) = entries := by
  apply List.filter_eq_self.mpr
  intro entry listed
  apply decide_eq_true
  rintro rfl
  exact missing (List.mem_map_of_mem listed)

/-- Without the key, the entry that has it is gone. -/
theorem filter_key_of_perm
    {entry : Key × Value} {others : List (Key × Value)}
    (perm : entries.Perm (entry :: others))
    (distinct : (entries.map Prod.fst).Nodup) :
    (entries.filter fun other => other.1 ≠ entry.1).Perm others := by
  have distinctCons := (perm.map Prod.fst).nodup_iff.mp distinct
  rw [List.map_cons, List.nodup_cons] at distinctCons
  have filtered := perm.filter fun other => decide (other.1 ≠ entry.1)
  rw [List.filter_cons_of_neg (by simp)] at filtered
  rw [filter_key_of_not_mem distinctCons.1] at filtered
  exact filtered

end Keyed

end Foundation
