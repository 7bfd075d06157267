import DBWrapper.Redis.Dict

/-!
# A hash table is a map

The invariant of the table is kept by all operations, and each of them does to
the entries what it does to a list of entries with distinct keys.  An `int` is
the index of a chain and the bound of an iterator, so this holds for as many as
2^30 entries.
-/

namespace DBWrapper

open Foundation

namespace Hiredis

universe u
variable {Key Value : Type u}

/-- Keys are compared as what they are. -/
def DictType.Lawful [DecidableEq Key] (type : DictType Key) : Prop :=
  ∀ left right, type.keyCompare left right = decide (left = right)

namespace Dict

/-- As many entries as an iterator can count. -/
def maxEntries : Nat := 1073741824

theorem maxEntries_eq : maxEntries = 2 ^ 30 := rfl

structure WellFormed (type : DictType Key) (dict : Dict Key Value) : Prop where
  size : dict.size = dict.table.length
  power : dict.size = 0 ∨ ∃ power, dict.size = 2 ^ (power + 2)
  sizemask : dict.sizemask = dict.size - 1
  placed : Placed (fun entry => hashKey type dict.sizemask entry.1) dict.table
  distinct : (dict.entries.map Prod.fst).Nodup
  used : dict.used = dict.entries.length
  load : dict.used ≤ dict.size
  fits : dict.size ≤ maxEntries

theorem wellFormed_dictCreate (type : DictType Key) :
    WellFormed type (dictCreate : Dict Key Value) where
  size := rfl
  power := Or.inl rfl
  sizemask := rfl
  placed := placed_replicate _ 0
  distinct := List.nodup_nil
  used := rfl
  load := Nat.le_refl 0
  fits := Nat.zero_le _

/-! ### Chains -/

theorem hashKey_lt
    (type : DictType Key) {size : Nat} (positive : 0 < size) (key : Key) :
    hashKey type (size - 1) key < size := by
  have below : hashKey type (size - 1) key ≤ size - 1 := Nat.and_le_right
  omega

section Linking

variable {type : DictType Key} {table : List (List (Key × Value))}

theorem length_link (sizemask : Nat) (entry : Key × Value) :
    (link type sizemask table entry).length = table.length :=
  List.length_set

theorem link_perm
    {size : Nat} (length : table.length = size) (nonempty : 0 < size)
    (entry : Key × Value) :
    (link type (size - 1) table entry).flatten.Perm
      (entry :: table.flatten) := by
  have inside : hashKey type (size - 1) entry.1 < table.length :=
    length ▸ hashKey_lt type nonempty entry.1
  have perm := perm_flatten_set_cons inside
    (List.Perm.refl (entry :: bucket table (hashKey type (size - 1) entry.1)))
  rw [set_bucket inside] at perm
  exact perm

theorem placed_link
    {sizemask : Nat}
    (placed : Placed (fun entry => hashKey type sizemask entry.1) table)
    (entry : Key × Value) :
    Placed (fun entry => hashKey type sizemask entry.1)
      (link type sizemask table entry) := by
  apply placed.set
  intro other listed
  rcases List.mem_cons.mp listed with rfl | listed
  · rfl
  · exact placed _ other listed

theorem length_foldl_link (sizemask : Nat) (entries : List (Key × Value)) :
    (entries.foldl (link type sizemask) table).length = table.length := by
  induction entries generalizing table with
  | nil => rfl
  | cons entry entries induction =>
      rw [List.foldl_cons, induction, length_link]

theorem foldl_link_perm
    {size : Nat} (length : table.length = size) (nonempty : 0 < size)
    (entries : List (Key × Value)) :
    (entries.foldl (link type (size - 1)) table).flatten.Perm
      (entries ++ table.flatten) := by
  induction entries generalizing table with
  | nil => exact List.Perm.refl _
  | cons entry entries induction =>
      have linked : (link type (size - 1) table entry).length = size :=
        (length_link _ entry).trans length
      have later := induction linked
      have here := (@link_perm _ _ type _ _ length nonempty entry).append_left
        entries
      exact later.trans (here.trans List.perm_middle)

theorem placed_foldl_link
    {sizemask : Nat}
    (placed : Placed (fun entry => hashKey type sizemask entry.1) table)
    (entries : List (Key × Value)) :
    Placed (fun entry => hashKey type sizemask entry.1)
      (entries.foldl (link type sizemask) table) := by
  induction entries generalizing table with
  | nil => exact placed
  | cons entry entries induction => exact induction (placed_link placed entry)

/-- `used` counts the entries that are left; the loop ends with the last one. -/
theorem rehash_eq
    (sizemask : Nat) (chains : List (List (Key × Value)))
    (table : List (List (Key × Value))) :
    rehash type sizemask chains chains.flatten.length table =
      (0, chains.flatten.foldl (link type sizemask) table) := by
  induction chains generalizing table with
  | nil => rfl
  | cons chain chains induction =>
      rw [List.flatten_cons, List.length_append, rehash]
      split
      · rw [Nat.add_sub_cancel_left, induction, List.foldl_append]
      · rename_i noneLeft
        have both : chain.length = 0 ∧ chains.flatten.length = 0 := by omega
        rw [List.eq_nil_of_length_eq_zero both.1,
          List.eq_nil_of_length_eq_zero both.2]
        rfl

end Linking

/-! ### Expanding -/

theorem nextPowerFrom_pow
    {turns power target : Nat} (reached : power ≤ target)
    (enough : target ≤ power + turns) :
    nextPowerFrom (2 ^ target) turns (2 ^ power) = 2 ^ target := by
  induction turns generalizing power with
  | zero =>
      have same : power = target := by omega
      rw [same]
      rfl
  | succ turns induction =>
      rw [nextPowerFrom]
      split
      · rename_i large
        have same : target ≤ power :=
          (Nat.pow_le_pow_iff_right (by decide)).mp large
        rw [Nat.le_antisymm same reached]
      · rename_i small
        have below : power < target := by
          apply Nat.lt_of_not_le
          intro above
          exact small (Nat.pow_le_pow_right (by decide) above)
        rw [← Nat.pow_succ]
        exact induction below (by omega)

theorem dictNextPower_pow {target : Nat} (small : target ≤ 30) (four : 2 ≤ target) :
    dictNextPower (2 ^ target) = 2 ^ target := by
  have bound : 2 ^ target ≤ 2 ^ 30 := Nat.pow_le_pow_right (by decide) small
  have noLimit : ¬ longMax ≤ 2 ^ target := by
    rw [longMax]
    omega
  rw [dictNextPower, if_neg noLimit]
  exact @nextPowerFrom_pow 61 2 target four (by omega)

section Operations

variable {type : DictType Key} {dict : Dict Key Value}

theorem dictExpand_spec
    (wellFormed : WellFormed type dict) {power : Nat} (small : power + 2 ≤ 30)
    (enough : dict.used ≤ 2 ^ (power + 2)) :
    ∃ next,
      dictExpand type dict (2 ^ (power + 2)) = some (true, next) ∧
        WellFormed type next ∧ next.entries.Perm dict.entries ∧
        next.size = 2 ^ (power + 2) := by
  have realsize := dictNextPower_pow small (by omega)
  have positive : 0 < 2 ^ (power + 2) := Nat.two_pow_pos _
  have table := @rehash_eq _ _ type (2 ^ (power + 2) - 1) dict.table
    (List.replicate (2 ^ (power + 2)) [])
  have count : dict.used = dict.table.flatten.length := wellFormed.used
  have length : (List.replicate (2 ^ (power + 2))
      ([] : List (Key × Value))).length = 2 ^ (power + 2) :=
    List.length_replicate
  have perm := @foldl_link_perm _ _ type _ _ length positive
    dict.table.flatten
  rw [List.flatten_replicate_nil, List.append_nil] at perm
  rw [dictExpand]
  simp only [realsize]
  rw [if_neg (Nat.not_lt.mpr enough), count, table]
  refine ⟨_, if_pos rfl, ?_, perm, rfl⟩
  exact
    { size := by
        rw [length_foldl_link, length]
      power := Or.inr ⟨power, rfl⟩
      sizemask := rfl
      placed := placed_foldl_link (placed_replicate _ _) _
      distinct := (perm.map Prod.fst).nodup_iff.mpr wellFormed.distinct
      used := perm.length_eq.symm
      load := count ▸ enough
      fits := by
        rw [maxEntries_eq]
        exact Nat.pow_le_pow_right (by decide) small }

theorem dictExpandIfNeeded_spec
    (wellFormed : WellFormed type dict) (room : dict.used < maxEntries) :
    ∃ next,
      dictExpandIfNeeded type dict = some (true, next) ∧
        WellFormed type next ∧ next.entries.Perm dict.entries ∧
        next.used < next.size := by
  rw [maxEntries_eq] at room
  rw [dictExpandIfNeeded]
  split
  · rename_i empty
    have none : dict.used = 0 := Nat.le_zero.mp (empty ▸ wellFormed.load)
    obtain ⟨next, expanded, nextFormed, perm, size⟩ :=
      @dictExpand_spec _ _ type dict wellFormed 0 (by omega) (by omega)
    refine ⟨next, expanded, nextFormed, perm, ?_⟩
    rw [nextFormed.used, perm.length_eq, ← wellFormed.used, none, size]
    decide
  · rename_i nonempty
    split
    · rename_i full
      rcases wellFormed.power with empty | ⟨power, size⟩
      · exact (nonempty empty).elim
      · -- There is room for twice as many.
        have small : power + 2 < 30 :=
          (Nat.pow_lt_pow_iff_right (by decide)).mp
            (size ▸ full ▸ room : 2 ^ (power + 2) < 2 ^ 30)
        have double : dict.size * 2 = 2 ^ (power + 1 + 2) := by
          rw [size, ← Nat.pow_succ]
        have enough : dict.used ≤ 2 ^ (power + 1 + 2) := by omega
        obtain ⟨next, expanded, nextFormed, perm, nextSize⟩ :=
          @dictExpand_spec _ _ type dict wellFormed (power + 1) (by omega) enough
        refine ⟨next, double ▸ expanded, nextFormed, perm, ?_⟩
        rw [nextFormed.used, perm.length_eq, ← wellFormed.used, nextSize]
        omega
    · rename_i notFull
      exact ⟨dict, rfl, wellFormed, List.Perm.refl _,
        Nat.lt_of_le_of_ne wellFormed.load notFull⟩

/-! ### Finding and adding -/

/-- The chain of a key changes, and nothing else. -/
theorem WellFormed.set_chain
    (wellFormed : WellFormed type dict) {key : Key}
    {chain : List (Key × Value)} {used : Nat}
    (fits : ∀ entry ∈ chain,
      hashKey type dict.sizemask entry.1 = hashKey type dict.sizemask key)
    {entries : List (Key × Value)}
    (perm : (dict.table.set (hashKey type dict.sizemask key)
      chain).flatten.Perm entries)
    (distinct : (entries.map Prod.fst).Nodup) (count : used = entries.length)
    (load : used ≤ dict.size) :
    WellFormed type
      { dict with
        table := dict.table.set (hashKey type dict.sizemask key) chain, used }
    where
  size := wellFormed.size.trans List.length_set.symm
  power := wellFormed.power
  sizemask := wellFormed.sizemask
  placed := wellFormed.placed.set fits
  distinct := (perm.map Prod.fst).nodup_iff.mpr distinct
  used := count.trans perm.length_eq.symm
  load := load
  fits := wellFormed.fits

theorem WellFormed.hashKey_inside
    (wellFormed : WellFormed type dict) (nonempty : 0 < dict.size) (key : Key) :
    hashKey type dict.sizemask key < dict.table.length := by
  rw [wellFormed.sizemask, ← wellFormed.size]
  exact hashKey_lt type nonempty key

variable [DecidableEq Key]

theorem compare_eq (lawful : type.Lawful) (key : Key) :
    (fun entry : Key × Value => type.keyCompare key entry.1) =
      fun entry => decide (key = entry.1) := by
  funext entry
  exact lawful key entry.1

/-- The chain of a key is the only place where the key can be. -/
theorem dictFind_eq
    (lawful : type.Lawful) (wellFormed : WellFormed type dict) (key : Key) :
    dictFind type dict key =
      dict.entries.find? fun entry => key = entry.1 := by
  rw [dictFind, compare_eq lawful]
  split
  · rename_i empty
    have noEntries : dict.entries = [] := by
      apply List.eq_nil_of_length_eq_zero
      rw [← wellFormed.used]
      exact Nat.le_zero.mp (empty ▸ wellFormed.load)
    rw [noEntries, List.find?_nil]
  · exact wellFormed.placed.find?_bucket wellFormed.distinct key

theorem any_chain_iff
    (lawful : type.Lawful) (wellFormed : WellFormed type dict) (key : Key) :
    (bucket dict.table (hashKey type dict.sizemask key)).any
        (fun entry => type.keyCompare key entry.1) = true ↔
      key ∈ dict.entries.map Prod.fst := by
  rw [compare_eq lawful, List.any_eq_true, List.mem_map]
  constructor
  · intro inChain
    obtain ⟨entry, listed, same⟩ := inChain
    exact ⟨entry, mem_flatten_of_mem_bucket listed, (of_decide_eq_true same).symm⟩
  · intro inTable
    obtain ⟨entry, listed, rfl⟩ := inTable
    exact ⟨entry, wellFormed.placed.mem_bucket listed, decide_eq_true rfl⟩

/-- The first entry in a chain with a key, and the chain without it. -/
theorem exists_perm_eraseP
    {chain : List (Key × Value)} {key : Key}
    (listed : ∃ entry ∈ chain, key = entry.1) :
    ∃ entry, entry.1 = key ∧
      chain.Perm (entry :: chain.eraseP fun entry => key = entry.1) := by
  obtain ⟨entry, entryListed, same⟩ := listed
  have found : (fun entry : Key × Value => decide (key = entry.1)) entry =
      true := decide_eq_true same
  obtain ⟨first, front, back, _, firstKey, split, erased⟩ :=
    @List.exists_of_eraseP _ (fun entry => decide (key = entry.1)) _ _
      entryListed found
  refine ⟨first, (of_decide_eq_true firstKey).symm, ?_⟩
  rw [erased, split]
  exact List.perm_middle

theorem setVal_perm
    (lawful : type.Lawful) {chain : List (Key × Value)} {key : Key} (val : Value)
    (listed : ∃ entry ∈ chain, key = entry.1) :
    (setVal type key val chain).Perm
      ((key, val) :: chain.eraseP fun entry => key = entry.1) := by
  induction chain with
  | nil =>
      obtain ⟨entry, inNil, _⟩ := listed
      cases inNil
  | cons entry chain induction =>
      rw [setVal, lawful key entry.1]
      by_cases same : key = entry.1
      · rw [if_pos (decide_eq_true same), List.eraseP_cons_of_pos (by simpa),
          same]
      · obtain ⟨other, otherListed, otherSame⟩ := listed
        rcases List.mem_cons.mp otherListed with rfl | inChain
        · exact (same otherSame).elim
        · rw [if_neg (by simpa), List.eraseP_cons_of_neg (by simpa)]
          exact ((induction ⟨other, inChain, otherSame⟩).cons entry).trans
            (List.Perm.swap _ _ _)

theorem dictAdd_of_mem
    (lawful : type.Lawful) (wellFormed : WellFormed type dict)
    (room : dict.used < maxEntries) {key : Key}
    (known : key ∈ dict.entries.map Prod.fst) (val : Value) :
    ∃ next, dictAdd type dict key val = some (false, next) ∧
      WellFormed type next ∧ next.entries.Perm dict.entries := by
  obtain ⟨next, expanded, nextFormed, perm, _⟩ :=
    dictExpandIfNeeded_spec wellFormed room
  have stillKnown := (perm.map Prod.fst).mem_iff.mpr known
  have found := (any_chain_iff lawful nextFormed key).mpr stillKnown
  refine ⟨next, ?_, nextFormed, perm⟩
  simp only [dictAdd, dictKeyIndex, expanded, found, if_true]

theorem dictAdd_of_not_mem
    (lawful : type.Lawful) (wellFormed : WellFormed type dict)
    (room : dict.used < maxEntries) {key : Key}
    (new : key ∉ dict.entries.map Prod.fst) (val : Value) :
    ∃ next, dictAdd type dict key val = some (true, next) ∧
      WellFormed type next ∧ next.entries.Perm ((key, val) :: dict.entries) := by
  obtain ⟨middle, expanded, middleFormed, perm, space⟩ :=
    dictExpandIfNeeded_spec wellFormed room
  have stillNew : key ∉ middle.entries.map Prod.fst := by
    rw [(perm.map Prod.fst).mem_iff]
    exact new
  have notFound : (bucket middle.table (hashKey type middle.sizemask key)).any
      (fun entry => type.keyCompare key entry.1) = false := by
    rw [← Bool.not_eq_true, any_chain_iff lawful middleFormed key]
    exact stillNew
  have nonempty : 0 < middle.size := by omega
  have inside := middleFormed.hashKey_inside nonempty key
  -- So the index is an `int`.
  have index : toInt (hashKey type middle.sizemask key) =
      hashKey type middle.sizemask key := by
    apply toInt_of_le
    have bound := middleFormed.fits
    rw [middleFormed.size, maxEntries] at bound
    rw [intMax]
    omega
  have longer := perm_flatten_set_cons inside
    (List.Perm.refl
      ((key, val) :: bucket middle.table (hashKey type middle.sizemask key)))
  rw [set_bucket inside] at longer
  refine
    ⟨{ middle with
        table := middle.table.set (hashKey type middle.sizemask key)
          ((key, val) :: bucket middle.table (hashKey type middle.sizemask key))
        used := middle.used + 1 },
      ?_, middleFormed.set_chain ?_ longer ?_ ?_ space,
      longer.trans (perm.cons _)⟩
  · simp only [dictAdd, dictKeyIndex, expanded, notFound, Bool.false_eq_true,
      if_false, index]
    rw [if_neg (by omega), if_neg (by omega), Int.toNat_natCast]
  · intro entry listed
    rcases List.mem_cons.mp listed with rfl | listed
    · rfl
    · exact middleFormed.placed _ entry listed
  · rw [List.map_cons, List.nodup_cons]
    exact ⟨stillNew, middleFormed.distinct⟩
  · rw [List.length_cons, middleFormed.used]
    rfl

/-- The value of a key is set, whatever it has been. -/
theorem dictReplace_spec
    (lawful : type.Lawful) (wellFormed : WellFormed type dict)
    (room : dict.used < maxEntries) (key : Key) (val : Value) :
    ∃ new next, dictReplace type dict key val = some (new, next) ∧
      WellFormed type next ∧
      next.entries.Perm
        (dict.entries.filter (fun entry => entry.1 ≠ key) ++ [(key, val)]) ∧
      (new = true ↔ key ∉ dict.entries.map Prod.fst) := by
  by_cases known : key ∈ dict.entries.map Prod.fst
  · obtain ⟨middle, added, middleFormed, perm⟩ :=
      dictAdd_of_mem lawful wellFormed room known val
    have stillKnown := (perm.map Prod.fst).mem_iff.mpr known
    obtain ⟨entry, listed, rfl⟩ := List.mem_map.mp stillKnown
    have inChain := middleFormed.placed.mem_bucket listed
    have here : ∃ other ∈ bucket middle.table
        (hashKey type middle.sizemask entry.1), entry.1 = other.1 :=
      ⟨entry, inChain, rfl⟩
    have nonempty : 0 < middle.size := by
      apply Nat.lt_of_lt_of_le _ middleFormed.load
      rw [middleFormed.used]
      exact List.length_pos_of_mem listed
    have inside := middleFormed.hashKey_inside nonempty entry.1
    -- Both tables have one entry more than the one without the key.
    obtain ⟨old, oldKey, oldPerm⟩ := exists_perm_eraseP here
    have before := perm_flatten_set_cons inside oldPerm
    rw [set_bucket inside] at before
    have after := perm_flatten_set_cons inside (setVal_perm lawful val here)
    have others := filter_key_of_perm before middleFormed.distinct
    rw [oldKey] at others
    have result := after.trans (others.symm.cons (entry.1, val))
    refine ⟨false, _, ?_, middleFormed.set_chain ?_ result ?_ ?_
      middleFormed.load, ?_, ?_⟩
    · obtain ⟨found, isFound⟩ : ∃ found,
          dictFind type middle entry.1 = some found := by
        rw [dictFind_eq lawful middleFormed]
        exact ⟨entry, (find?_key_eq_some_iff middleFormed.distinct).mpr
          ⟨listed, rfl⟩⟩
      simp only [dictReplace, added, isFound, Option.map_some]
    · intro other otherListed
      rcases List.mem_cons.mp ((setVal_perm lawful val here).mem_iff.mp
        otherListed) with rfl | otherListed
      · rfl
      · exact middleFormed.placed _ other (List.mem_of_mem_eraseP otherListed)
    · rw [List.map_cons, List.nodup_cons]
      refine ⟨?_, middleFormed.distinct.sublist
        (List.filter_sublist.map Prod.fst)⟩
      intro again
      obtain ⟨other, otherListed, same⟩ := List.mem_map.mp again
      exact of_decide_eq_true (List.mem_filter.mp otherListed).2 same
    · rw [List.length_cons, middleFormed.used]
      have counted := (before.trans (others.symm.cons old)).length_eq
      exact counted
    · exact result.trans (((perm.filter _).cons _).trans
        (List.perm_append_singleton _ _).symm)
    · simp [known]
  · obtain ⟨next, added, nextFormed, perm⟩ :=
      dictAdd_of_not_mem lawful wellFormed room known val
    refine ⟨true, next, ?_, nextFormed, ?_, ?_⟩
    · simp only [dictReplace, added]
    · rw [filter_key_of_not_mem known]
      exact perm.trans (List.perm_append_singleton _ _).symm
    · simp [known]

theorem dictDelete_spec
    (lawful : type.Lawful) (wellFormed : WellFormed type dict) (key : Key) :
    WellFormed type (dictDelete type dict key).2 ∧
      (dictDelete type dict key).2.entries.Perm
        (dict.entries.filter fun entry => entry.1 ≠ key) ∧
      ((dictDelete type dict key).1 = true ↔
        key ∈ dict.entries.map Prod.fst) := by
  by_cases known : key ∈ dict.entries.map Prod.fst
  · have found := (any_chain_iff lawful wellFormed key).mpr known
    obtain ⟨entry, listed, rfl⟩ := List.mem_map.mp known
    have here : ∃ other ∈ bucket dict.table
        (hashKey type dict.sizemask entry.1), entry.1 = other.1 :=
      ⟨entry, wellFormed.placed.mem_bucket listed, rfl⟩
    have one : 0 < dict.used := by
      rw [wellFormed.used]
      exact List.length_pos_of_mem listed
    have nonempty : 0 < dict.size := Nat.lt_of_lt_of_le one wellFormed.load
    have inside := wellFormed.hashKey_inside nonempty entry.1
    obtain ⟨old, oldKey, oldPerm⟩ := exists_perm_eraseP here
    have before := perm_flatten_set_cons inside oldPerm
    rw [set_bucket inside] at before
    have others := filter_key_of_perm before wellFormed.distinct
    rw [oldKey] at others
    have deleted : dictDelete type dict entry.1 =
        (true,
          { dict with
            table := dict.table.set (hashKey type dict.sizemask entry.1)
              ((bucket dict.table (hashKey type dict.sizemask entry.1)).eraseP
                fun other => entry.1 = other.1)
            used := dict.used - 1 }) := by
      rw [dictDelete, if_neg (by omega)]
      simp only [found, if_true]
      rw [compare_eq lawful]
    rw [deleted]
    refine ⟨wellFormed.set_chain ?_ others.symm ?_ ?_ ?_, others.symm, ?_⟩
    · intro other otherListed
      exact wellFormed.placed _ other (List.mem_of_mem_eraseP otherListed)
    · exact wellFormed.distinct.sublist (List.filter_sublist.map Prod.fst)
    · have counted := (before.trans (others.symm.cons old)).length_eq
      rw [List.length_cons] at counted
      rw [wellFormed.used]
      change dict.table.flatten.length - 1 = _
      rw [counted, Nat.add_sub_cancel]
    · exact (Nat.sub_le _ _).trans wellFormed.load
    · simp [known]
  · have notFound : (bucket dict.table (hashKey type dict.sizemask key)).any
        (fun entry => type.keyCompare key entry.1) = false := by
      rw [← Bool.not_eq_true, any_chain_iff lawful wellFormed key]
      exact known
    have unchanged : dictDelete type dict key = (false, dict) := by
      rw [dictDelete]
      split
      · rfl
      · simp only [notFound, Bool.false_eq_true, if_false]
    rw [unchanged, filter_key_of_not_mem known]
    exact ⟨wellFormed, List.Perm.refl _, by simp [known]⟩

end Operations

/-! ### Runs -/

end Dict

inductive DictOp (Key Value : Type u) where
  | add (key : Key) (val : Value)
  | replace (key : Key) (val : Value)
  | delete (key : Key)
  deriving DecidableEq, Repr

/-- What an operation does to a list of entries. -/
def DictOp.effect [DecidableEq Key] (entries : List (Key × Value)) :
    DictOp Key Value → List (Key × Value)
  | .add key val =>
      if key ∈ entries.map Prod.fst then entries else entries ++ [(key, val)]
  | .replace key val => entries.filter (fun entry => entry.1 ≠ key) ++ [(key, val)]
  | .delete key => entries.filter fun entry => entry.1 ≠ key

namespace Dict

def step (type : DictType Key) (dict : Dict Key Value) :
    DictOp Key Value → Option (Dict Key Value)
  | .add key val => (dictAdd type dict key val).map Prod.snd
  | .replace key val => (dictReplace type dict key val).map Prod.snd
  | .delete key => some (dictDelete type dict key).2

section Runs

variable [DecidableEq Key] {type : DictType Key}

/-- The table holds the entries of the list. -/
structure Refines (type : DictType Key) (dict : Dict Key Value)
    (entries : List (Key × Value)) : Prop where
  wellFormed : WellFormed type dict
  perm : dict.entries.Perm entries

theorem Refines.dictFind_eq
    (lawful : type.Lawful) {dict : Dict Key Value}
    {entries : List (Key × Value)} (refines : Refines type dict entries)
    (key : Key) :
    dictFind type dict key = entries.find? fun entry => key = entry.1 := by
  rw [Dict.dictFind_eq lawful refines.wellFormed]
  exact find?_key_perm refines.perm refines.wellFormed.distinct key

theorem step_refines
    (lawful : type.Lawful) {dict : Dict Key Value}
    {entries : List (Key × Value)} (refines : Refines type dict entries)
    (room : dict.used < maxEntries) (op : DictOp Key Value) :
    ∃ next, step type dict op = some next ∧
      Refines type next (op.effect entries) ∧ next.used ≤ dict.used + 1 := by
  have noMore : ∀ key, (dict.entries.filter
      fun entry => decide (entry.1 ≠ key)).length ≤ dict.used := by
    intro key
    rw [refines.wellFormed.used]
    exact List.length_filter_le _ _
  cases op with
  | add key val =>
      have sameKeys : key ∈ dict.entries.map Prod.fst ↔
          key ∈ entries.map Prod.fst := (refines.perm.map Prod.fst).mem_iff
      by_cases known : key ∈ dict.entries.map Prod.fst
      · obtain ⟨next, added, wellFormed, perm⟩ :=
          dictAdd_of_mem lawful refines.wellFormed room known val
        refine ⟨next, by rw [step, added, Option.map_some], ⟨wellFormed, ?_⟩, ?_⟩
        · rw [DictOp.effect, if_pos (sameKeys.mp known)]
          exact perm.trans refines.perm
        · rw [wellFormed.used, perm.length_eq, refines.wellFormed.used]
          exact Nat.le_succ _
      · obtain ⟨next, added, wellFormed, perm⟩ :=
          dictAdd_of_not_mem lawful refines.wellFormed room known val
        refine ⟨next, by rw [step, added, Option.map_some], ⟨wellFormed, ?_⟩, ?_⟩
        · rw [DictOp.effect, if_neg (mt sameKeys.mpr known)]
          exact perm.trans ((refines.perm.cons _).trans
            (List.perm_append_singleton _ _).symm)
        · rw [wellFormed.used, perm.length_eq, refines.wellFormed.used,
            List.length_cons]
  | replace key val =>
      obtain ⟨new, next, replaced, wellFormed, perm, _⟩ :=
        dictReplace_spec lawful refines.wellFormed room key val
      refine ⟨next, by rw [step, replaced, Option.map_some], ⟨wellFormed, ?_⟩, ?_⟩
      · exact perm.trans ((refines.perm.filter _).append_right _)
      · rw [wellFormed.used, perm.length_eq, List.length_append]
        exact Nat.add_le_add_right (noMore key) 1
  | delete key =>
      obtain ⟨wellFormed, perm, _⟩ :=
        dictDelete_spec lawful refines.wellFormed key
      refine ⟨_, rfl, ⟨wellFormed, perm.trans (refines.perm.filter _)⟩, ?_⟩
      rw [wellFormed.used, perm.length_eq]
      exact (noMore key).trans (Nat.le_succ _)

theorem run_refines
    (lawful : type.Lawful) (ops : List (DictOp Key Value))
    (few : ops.length ≤ maxEntries) :
    ∃ dict, run (step type) dictCreate ops = some dict ∧
      Refines type dict (ops.foldl DictOp.effect []) ∧
      dict.used ≤ ops.length := by
  induction ops using List.reverseRecOn with
  | nil =>
      exact ⟨dictCreate, rfl, ⟨wellFormed_dictCreate type, List.Perm.refl _⟩,
        Nat.le_refl 0⟩
  | append_singleton ops op induction =>
      rw [List.length_append, List.length_singleton] at few ⊢
      obtain ⟨dict, ran, refines, used⟩ := induction (by omega)
      obtain ⟨next, stepped, nextRefines, nextUsed⟩ :=
        step_refines lawful refines (by omega) op
      refine ⟨next, run_append_singleton ran stepped, ?_, by omega⟩
      rw [List.foldl_append]
      exact nextRefines

end Runs

/-! ### Iterators -/

/-- The loop of a user of an iterator, who may delete the entry that he has
got. -/
def forEach (type : DictType Key) (deletes : Key × Value → Bool) :
    Nat → Dict Key Value → DictIterator Key Value →
      List (Key × Value) × Dict Key Value
  | 0, dict, _ => ([], dict)
  | turns + 1, dict, iter =>
      match dictNext dict iter with
      | none => ([], dict)
      | some (entry, iter) =>
          let dict :=
            if deletes entry then (dictDelete type dict entry.1).2 else dict
          let (visited, dict) := forEach type deletes turns dict iter
          (entry :: visited, dict)

/-- The entries `rest` are still to come: those of the chain that the iterator
is in, and those of the chains from `seen` on. -/
structure Visiting (type : DictType Key) (dict : Dict Key Value)
    (iter : DictIterator Key Value) (seen : Nat) (rest : List (Key × Value)) :
    Prop where
  index : iter.index = (seen : Int) - 1
  inside : seen ≤ dict.size
  started : iter.entry = none → iter.nextEntry = []
  rest : rest = iter.nextEntry ++ (dict.table.drop seen).flatten
  chain : ∀ entry ∈ iter.nextEntry,
    hashKey type dict.sizemask entry.1 + 1 = seen

section Visits

variable {type : DictType Key} {dict : Dict Key Value}

theorem nextChain_spec
    (wellFormed : WellFormed type dict) {seen : Nat} (inside : seen ≤ dict.size) :
    ((dict.table.drop seen).flatten = [] ∧
        nextChain dict ((seen : Int) - 1) = none) ∨
      ∃ entry rest iter later,
        (dict.table.drop seen).flatten = entry :: rest ∧
          nextChain dict ((seen : Int) - 1) = some (entry, iter) ∧
          hashKey type dict.sizemask entry.1 + 1 = later ∧
          Visiting type dict iter later rest := by
  have bound : toInt dict.size = dict.size := by
    apply toInt_of_le
    have fits := wellFormed.fits
    rw [maxEntries] at fits
    rw [intMax]
    omega
  induction left : dict.size - seen generalizing seen with
  | zero =>
      have done : dict.table.drop seen = [] := by
        apply List.drop_eq_nil_of_le
        rw [← wellFormed.size]
        omega
      left
      rw [done]
      unfold nextChain
      simp only [bound]
      exact ⟨rfl, if_pos (by omega)⟩
  | succ left induction =>
      have below : seen < dict.table.length := by
        rw [← wellFormed.size]
        omega
      have chain : bucket dict.table seen = dict.table[seen] := by
        simp [bucket, below]
      have split : dict.table.drop seen =
          bucket dict.table seen :: dict.table.drop (seen + 1) := by
        rw [chain]
        exact List.drop_eq_getElem_cons below
      have index : (seen : Int) - 1 + 1 = seen := by omega
      rw [split, List.flatten_cons]
      unfold nextChain
      simp only [index, bound, Int.toNat_natCast]
      rw [if_neg (by omega)]
      cases inChain : bucket dict.table seen with
      | nil =>
          have later := @induction (seen + 1) (by omega) (by omega)
          have same : ((seen + 1 : Nat) : Int) - 1 = seen := by omega
          rw [same] at later
          exact later
      | cons entry nextEntry =>
          have placed : ∀ other ∈ entry :: nextEntry,
              hashKey type dict.sizemask other.1 + 1 = seen + 1 := by
            intro other listed
            rw [← inChain] at listed
            exact congrArg (· + 1) (wellFormed.placed seen other listed)
          right
          refine ⟨entry, _, _, seen + 1, rfl, rfl,
            placed entry List.mem_cons_self, ?_⟩
          exact
            { index := by simp
              inside := by omega
              started := by simp
              rest := rfl
              chain := fun other listed =>
                placed other (List.mem_cons_of_mem _ listed) }

theorem dictNext_spec
    (wellFormed : WellFormed type dict) {iter : DictIterator Key Value}
    {seen : Nat} {rest : List (Key × Value)}
    (visiting : Visiting type dict iter seen rest) :
    (rest = [] ∧ dictNext dict iter = none) ∨
      ∃ entry more next later,
        rest = entry :: more ∧
          dictNext dict iter = some (entry, next) ∧
          hashKey type dict.sizemask entry.1 + 1 = later ∧
          Visiting type dict next later more := by
  obtain ⟨index, inside, started, whole, chain⟩ := visiting
  obtain ⟨position, current, nextEntry⟩ := iter
  simp only at index started whole chain
  subst index whole
  cases nextEntry with
  | nil =>
      have same : dictNext dict
          { index := (seen : Int) - 1, entry := current, nextEntry := [] } =
            nextChain dict ((seen : Int) - 1) := by
        cases current <;> rfl
      rw [same, List.nil_append]
      exact nextChain_spec wellFormed inside
  | cons entry nextEntry =>
      cases current with
      | none => cases started rfl
      | some current =>
          right
          refine ⟨entry, _, _, seen, rfl, rfl, chain entry List.mem_cons_self, ?_⟩
          exact
            { index := rfl
              inside := inside
              started := by simp
              rest := rfl
              chain := fun other listed =>
                chain other (List.mem_cons_of_mem _ listed) }

theorem visiting_start (type : DictType Key) (dict : Dict Key Value) :
    Visiting type dict dictGetIterator 0 dict.entries where
  index := rfl
  inside := Nat.zero_le _
  started := fun _ => rfl
  rest := rfl
  chain := by simp [dictGetIterator]

/-- The entry that has been returned may be deleted: the chains behind it stay
as they are. -/
theorem Visiting.dictDelete
    {iter : DictIterator Key Value} {seen : Nat} {rest : List (Key × Value)}
    (visiting : Visiting type dict iter seen rest) {key : Key}
    (passed : hashKey type dict.sizemask key + 1 = seen) :
    Visiting type (dictDelete type dict key).2 iter seen rest := by
  rw [Dict.dictDelete]
  split
  · exact visiting
  · simp only
    split
    · exact
        { index := visiting.index
          inside := visiting.inside
          started := visiting.started
          rest := by
            rw [visiting.rest, List.drop_set_of_lt (by omega)]
          chain := visiting.chain }
    · exact visiting

variable [DecidableEq Key]

/-- The loop visits what is still to come, and what the user deletes is gone. -/
theorem forEach_spec
    (lawful : type.Lawful) (deletes : Key × Value → Bool)
    (wellFormed : WellFormed type dict) {iter : DictIterator Key Value}
    {seen : Nat} {rest : List (Key × Value)}
    (visiting : Visiting type dict iter seen rest) {turns : Nat}
    (enough : rest.length < turns) :
    (forEach type deletes turns dict iter).1 = rest ∧
      WellFormed type (forEach type deletes turns dict iter).2 ∧
      (forEach type deletes turns dict iter).2.entries.Perm
        (dict.entries.filter fun entry =>
          entry.1 ∉ (rest.filter deletes).map Prod.fst) := by
  induction turns generalizing dict iter seen rest with
  | zero => cases enough
  | succ turns induction =>
      rcases dictNext_spec wellFormed visiting with
        ⟨rfl, done⟩ | ⟨entry, more, next, later, rfl, found, passed, visitingNext⟩
      · simp only [forEach, done]
        refine ⟨trivial, wellFormed, ?_⟩
        simp
      · have fewer : more.length < turns := Nat.lt_of_succ_lt_succ enough
        simp only [forEach, found]
        cases deleted : deletes entry with
        | false =>
            obtain ⟨visited, formed, perm⟩ :=
              induction wellFormed visitingNext fewer
            simp only [Bool.false_eq_true, if_false, visited]
            refine ⟨trivial, formed, ?_⟩
            rw [List.filter_cons_of_neg (by simp [deleted])]
            exact perm
        | true =>
            obtain ⟨stillFormed, without, _⟩ :=
              dictDelete_spec lawful wellFormed entry.1
            obtain ⟨visited, formed, perm⟩ :=
              induction stillFormed (visitingNext.dictDelete passed) fewer
            simp only [if_true, visited]
            refine ⟨trivial, formed, perm.trans ?_⟩
            have both := without.filter fun other =>
              decide (other.1 ∉ (more.filter deletes).map Prod.fst)
            rw [List.filter_filter] at both
            refine both.trans (List.Perm.of_eq (List.filter_congr ?_))
            intro other _
            rw [List.filter_cons_of_pos (by simpa using deleted), List.map_cons]
            apply Bool.eq_iff_iff.mpr
            simp only [Bool.and_eq_true, decide_eq_true_eq, List.mem_cons, not_or]
            exact and_comm

end Visits

section Answers

variable [DecidableEq Key] {type : DictType Key}

/-- Whatever has been added and deleted, the table answers as the list of the
entries does.  The chains stay where the hash values say, and there are as many
of them as entries, or more. -/
theorem dictFind_run
    (lawful : type.Lawful) (ops : List (DictOp Key Value))
    (few : ops.length ≤ maxEntries) :
    ∃ dict, run (step type) dictCreate ops = some dict ∧
      WellFormed type dict ∧
      dict.used = (ops.foldl DictOp.effect []).length ∧
      ∀ key,
        dictFind type dict key =
          (ops.foldl DictOp.effect []).find? fun entry => key = entry.1 := by
  obtain ⟨dict, ran, refines, _⟩ := run_refines lawful ops few
  refine ⟨dict, ran, refines.wellFormed, ?_, refines.dictFind_eq lawful⟩
  rw [refines.wellFormed.used, refines.perm.length_eq]

/-- An iterator returns every entry once, also if some of them are deleted as
soon as they are returned; these are gone then. -/
theorem forEach_run
    (lawful : type.Lawful) (ops : List (DictOp Key Value))
    (few : ops.length ≤ maxEntries) (deletes : Key × Value → Bool) :
    ∃ dict, run (step type) dictCreate ops = some dict ∧
      ∀ turns, dict.used < turns →
        (forEach type deletes turns dict dictGetIterator).1.Perm
            (ops.foldl DictOp.effect []) ∧
          Refines type (forEach type deletes turns dict dictGetIterator).2
            ((ops.foldl DictOp.effect []).filter fun entry => !deletes entry) := by
  obtain ⟨dict, ran, refines, _⟩ := run_refines lawful ops few
  refine ⟨dict, ran, ?_⟩
  intro turns enough
  rw [refines.wellFormed.used] at enough
  obtain ⟨visited, wellFormed, perm⟩ := forEach_spec lawful deletes
    refines.wellFormed (visiting_start type dict) enough
  rw [visited]
  refine ⟨refines.perm, wellFormed, perm.trans ?_⟩
  have sameFilter : dict.entries.filter (fun entry =>
      decide (entry.1 ∉ (dict.entries.filter deletes).map Prod.fst)) =
        dict.entries.filter fun entry => !deletes entry := by
    apply List.filter_congr
    intro entry listed
    cases deleted : deletes entry with
    | true =>
        have gone : entry.1 ∈ (dict.entries.filter deletes).map Prod.fst :=
          List.mem_map_of_mem (List.mem_filter.mpr ⟨listed, deleted⟩)
        simp [gone]
    | false =>
        apply decide_eq_true
        intro gone
        obtain ⟨other, otherListed, same⟩ := List.mem_map.mp gone
        obtain ⟨inTable, otherDeleted⟩ := List.mem_filter.mp otherListed
        have equal := eq_of_key refines.wellFormed.distinct inTable listed same
        rw [equal, deleted] at otherDeleted
        cases otherDeleted
  rw [sameFilter]
  exact refines.perm.filter _

end Answers

end Dict

/-! ### The subscriptions of a context -/

def callbackHash (key : ByteString) : UInt32 :=
  dictGenHashFunction key

def callbackKeyCompare (key1 key2 : ByteString) : Bool :=
  if key1.length ≠ key2.length then false else key1 == key2

def callbackDict : DictType ByteString :=
  { hashFunction := callbackHash, keyCompare := callbackKeyCompare }

theorem lawful_callbackDict : callbackDict.Lawful := by
  intro left right
  change callbackKeyCompare left right = _
  rw [callbackKeyCompare]
  split
  · rename_i different
    symm
    apply decide_eq_false
    rintro rfl
    exact different rfl
  · exact Bool.beq_eq_decide_eq left right

namespace Dict

/-- One channel is subscribed twice, the other one is not any more; a key that is
there already is not added. -/
def twoChannels : List (DictOp ByteString RedisCallback) :=
  [.replace (ascii "news") { fn := some 1, privdata := 0 },
    .add (ascii "jobs") { fn := some 2, privdata := 0 },
    .add (ascii "news") { fn := some 4, privdata := 0 },
    .replace (ascii "news") { fn := some 3, privdata := 0 },
    .delete (ascii "jobs")]

theorem dictFind_run_twoChannels :
    ∃ dict, run (step callbackDict) dictCreate twoChannels = some dict ∧
      WellFormed callbackDict dict ∧
      dict.used = (twoChannels.foldl DictOp.effect []).length ∧
      ∀ key,
        dictFind callbackDict dict key =
          (twoChannels.foldl DictOp.effect []).find?
            fun entry => key = entry.1 :=
  dictFind_run lawful_callbackDict twoChannels (by decide)

theorem forEach_run_twoChannels :
    ∃ dict, run (step callbackDict) dictCreate twoChannels = some dict ∧
      ∀ turns, dict.used < turns →
        (forEach callbackDict (fun entry => entry.2.fn.isSome) turns dict
            dictGetIterator).1.Perm (twoChannels.foldl DictOp.effect []) ∧
          Refines callbackDict
            (forEach callbackDict (fun entry => entry.2.fn.isSome) turns dict
              dictGetIterator).2
            ((twoChannels.foldl DictOp.effect []).filter
              fun entry => !entry.2.fn.isSome) :=
  forEach_run lawful_callbackDict twoChannels (by decide)
    fun entry => entry.2.fn.isSome

/-- The lists of the context are what its tables hold. -/
theorem channels_refine
    {dict : Dict ByteString RedisCallback}
    {channels : List (ByteString × RedisCallback)}
    (refines : Refines callbackDict dict channels)
    (room : dict.used < maxEntries) (name : ByteString) (cb : RedisCallback) :
    dictFind callbackDict dict name = channels.find? (·.1 = name) ∧
      (∃ new next, dictReplace callbackDict dict name cb = some (new, next) ∧
        Refines callbackDict next (AsyncContext.dictReplace channels name cb)) ∧
      Refines callbackDict (dictDelete callbackDict dict name).2
        (channels.filter (·.1 ≠ name)) := by
  refine ⟨?_, ?_, ?_⟩
  · rw [refines.dictFind_eq lawful_callbackDict]
    congr 1
    funext entry
    exact decide_eq_decide.mpr eq_comm
  · obtain ⟨new, next, replaced, wellFormed, perm, _⟩ :=
      dictReplace_spec lawful_callbackDict refines.wellFormed room name cb
    exact ⟨new, next, replaced, wellFormed,
      perm.trans ((refines.perm.filter _).append_right _)⟩
  · obtain ⟨wellFormed, perm, _⟩ :=
      dictDelete_spec lawful_callbackDict refines.wellFormed name
    exact ⟨wellFormed, perm.trans (refines.perm.filter _)⟩

end Dict

end Hiredis

end DBWrapper
