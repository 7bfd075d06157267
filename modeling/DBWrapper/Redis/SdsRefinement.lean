import Mathlib.Algebra.Group.Nat.Defs
import DBWrapper.Redis.SdsString

/-!
# Strings are lists of bytes

`Holds` is the invariant of a string: its lengths fit into the fields of its
header and into the allocation, and its bytes are followed by a zero.  Each
operation keeps it and does to the bytes what its list counterpart does, so that
a whole run of operations does.
-/

namespace DBWrapper

open Foundation

namespace Hiredis

/-- More bytes are in no memory. -/
def sdsMaxLength : Nat := 4611686018427387904

namespace SdsString

/-! ### The invariant -/

structure Holds (s : SdsString) (content : ByteString) : Prop where
  len : s.len = content.length
  whole : ∃ spare, s.buf = content ++ 0 :: spare
  fits : content.length ≤ s.sdsalloc
  inside : s.sdsalloc < s.buf.length
  bound : s.sdsalloc < s.type.bound

/-- A null pointer is returned only if there is no memory. -/
def Returns (fresh : Fresh) (result : Option (Option SdsString))
    (content : ByteString) : Prop :=
  (fresh = none ∧ result = some none) ∨
    ∃ next, result = some (some next) ∧ Holds next content

theorem lt_bound_sdsReqType {size : Nat} (small : size < 18446744073709551616) :
    size < (sdsReqType size).bound := by
  unfold sdsReqType
  split
  · assumption
  · split
    · change size < 256
      omega
    · split
      · change size < 65536
        omega
      · split
        · change size < 4294967296
          omega
        · exact small

theorem bytesBehind_eq (type : SdsType) {size : Nat}
    (small : size < 9223372036854775808) : bytesBehind type size = size + 1 := by
  have header : sdsHdrSize type ≤ 17 := by
    cases type <;> simp [sdsHdrSize]
  rw [bytesBehind, toSizeT]
  omega

section Fields

variable {s : SdsString} {content : ByteString}

theorem sdsalloc_type5 (type5 : s.type = .type5) : s.sdsalloc = s.len := by
  rw [sdsalloc, type5]

theorem sdsalloc_other (other : s.type ≠ .type5) : s.sdsalloc = s.alloc := by
  unfold sdsalloc
  split
  · contradiction
  · rfl

theorem sdssetalloc_type5 (type5 : s.type = .type5) (newlen : Nat) :
    s.sdssetalloc newlen = s := by
  rw [sdssetalloc, type5]

theorem sdssetalloc_other (other : s.type ≠ .type5) (newlen : Nat) :
    s.sdssetalloc newlen = { s with alloc := newlen % s.type.bound } := by
  unfold sdssetalloc
  split
  · contradiction
  · rfl

theorem bound_le (type : SdsType) : type.bound ≤ 18446744073709551616 := by
  cases type <;> simp [SdsType.bound]

theorem sdsavail_other (other : s.type ≠ .type5) :
    s.sdsavail = toSizeT ((s.alloc : Int) - s.len) := by
  unfold sdsavail
  split
  · contradiction
  · rfl

/-- What is free, if the header can say so. -/
theorem Holds.sdsavail_le (holds : Holds s content) :
    content.length + s.sdsavail ≤ s.sdsalloc := by
  have fits := holds.fits
  by_cases type5 : s.type = .type5
  · have none : s.sdsavail = 0 := by rw [sdsavail, type5]
    omega
  · have len := holds.len
    have bound := holds.bound
    have wide := bound_le s.type
    rw [sdsalloc_other type5] at fits bound ⊢
    rw [sdsavail_other type5, toSizeT]
    omega

/-- The new length is recorded where the bytes have been written. -/
theorem Holds.sdssetlen
    (holds : Holds s content) {next spare buf : ByteString}
    (fits : next.length ≤ s.sdsalloc) (same : buf.length = s.buf.length)
    (whole : buf = next ++ 0 :: spare) :
    Holds ({ s with buf }.sdssetlen next.length) next := by
  have inside := holds.inside
  have bound := holds.bound
  have len : next.length % s.type.bound = next.length :=
    Nat.mod_eq_of_lt (by omega)
  by_cases type5 : s.type = .type5
  · have alloc : ({ s with buf }.sdssetlen next.length).sdsalloc =
        next.length := by
      rw [sdsalloc_type5 (by exact type5)]
      exact len
    exact
      { len
        whole := ⟨spare, whole⟩
        fits := by rw [alloc]
        inside := by
          rw [alloc]
          change next.length < buf.length
          omega
        bound := by
          rw [alloc]
          change next.length < s.type.bound
          omega }
  · have alloc : ({ s with buf }.sdssetlen next.length).sdsalloc =
        s.sdsalloc := by
      rw [sdsalloc_other (by exact type5), sdsalloc_other type5]
      rfl
    exact
      { len
        whole := ⟨spare, whole⟩
        fits := by rw [alloc]; exact fits
        inside := by
          rw [alloc]
          change s.sdsalloc < buf.length
          omega
        bound := by rw [alloc]; exact bound }

/-- A new allocation of this length. -/
theorem holds_sdssetalloc
    {newlen : Nat} {spare : ByteString} (len : s.len = content.length)
    (whole : s.buf = content ++ 0 :: spare) (length : s.buf.length = newlen + 1)
    (enough : content.length ≤ newlen) (bound : newlen < s.type.bound)
    (exactly : s.type = .type5 → newlen = content.length) :
    Holds (s.sdssetalloc newlen) content ∧
      (s.sdssetalloc newlen).sdsalloc = newlen := by
  have alloc : (s.sdssetalloc newlen).sdsalloc = newlen := by
    by_cases type5 : s.type = .type5
    · rw [sdssetalloc_type5 type5, sdsalloc_type5 type5, len, exactly type5]
    · rw [sdssetalloc_other type5, sdsalloc_other (by exact type5)]
      exact Nat.mod_eq_of_lt bound
  have same : (s.sdssetalloc newlen).len = s.len ∧
      (s.sdssetalloc newlen).buf = s.buf ∧
      (s.sdssetalloc newlen).type = s.type := by
    unfold sdssetalloc
    split <;> exact ⟨rfl, rfl, rfl⟩
  obtain ⟨sameLen, sameBuf, sameType⟩ := same
  refine ⟨?_, alloc⟩
  exact
    { len := sameLen.trans len
      whole := ⟨spare, sameBuf.trans whole⟩
      fits := by rw [alloc]; exact enough
      inside := by rw [alloc, sameBuf, length]; exact Nat.lt_succ_self newlen
      bound := by rw [alloc, sameType]; exact bound }

end Fields

/-! ### Making and moving -/

theorem holds_sdsnewlen
    (contents : Nat → UInt8) {init : ByteString}
    (small : init.length ≤ sdsMaxLength) :
    ∃ s, sdsnewlen (some contents) (some init) init.length = some (some s) ∧
      Holds s init := by
  rw [sdsMaxLength] at small
  have bound : init.length <
      (if sdsReqType init.length = .type5 ∧ init.length = 0 then
        SdsType.type8 else sdsReqType init.length).bound := by
    split
    · rename_i empty
      rw [empty.2]
      decide
    · exact lt_bound_sdsReqType (by omega)
  generalize chosen : (if sdsReqType init.length = .type5 ∧ init.length = 0 then
    SdsType.type8 else sdsReqType init.length) = type at bound
  have size := @bytesBehind_eq type init.length (by omega)
  have block : (allocate contents (bytesBehind type init.length)).length =
      init.length + 1 := by
    rw [length_allocate, size]
  have filled :
      copyInit (allocate contents (bytesBehind type init.length)) (some init)
          init.length =
        some (init ++
          (allocate contents (bytesBehind type init.length)).drop
            init.length) := by
    unfold copyInit
    simp only
    split
    · rename_i empty
      rw [List.length_eq_zero_iff.mp empty]
      rfl
    · have fetched := fetch_append [] init []
      simp only [List.nil_append, List.append_nil, List.length_nil] at fetched
      rw [fetched]
      exact store_start (by omega)
  have room : [(0 : UInt8)].length ≤
      ((allocate contents (bytesBehind type init.length)).drop
        init.length).length := by
    rw [List.length_drop, block]
    simp
  have terminated := store_append init room
  generalize behind : (allocate contents (bytesBehind type init.length)).drop
    init.length = rest at filled room terminated
  have result : sdsnewlen (some contents) (some init) init.length =
      some (some ((({ type, len := 0, alloc := 0
                      buf := init ++ ([0] ++ rest.drop 1) } :
        SdsString).sdssetlen init.length).sdssetalloc init.length)) := by
    unfold sdsnewlen
    simp only [chosen, Option.isNone_some, Bool.false_eq_true, if_false]
    rw [filled]
    simp only [Option.bind_eq_bind, Option.bind_some]
    rw [terminated]
    rfl
  have len : init.length % type.bound = init.length := Nat.mod_eq_of_lt bound
  have whole : (init ++ ([0] ++ rest.drop 1)).length = init.length + 1 := by
    refine (length_of_store terminated).trans ?_
    rw [← behind, List.length_append, List.length_drop, block]
    omega
  refine ⟨_, result, (holds_sdssetalloc len rfl whole (Nat.le_refl _) bound ?_).1⟩
  intro _
  rfl

/-- The bytes are kept when they are moved. -/
theorem Holds.move
    {s : SdsString} {content : ByteString} (holds : Holds s content)
    (fresh : Fresh) {type : SdsType} {newlen : Nat}
    (enough : content.length ≤ newlen) (small : newlen < 9223372036854775808)
    (bound : newlen < type.bound)
    (exactly : type = .type5 → newlen = content.length) :
    (fresh = none ∧ s.move fresh type newlen = some none) ∨
      ∃ next, s.move fresh type newlen = some (some next) ∧
        Holds next content ∧ next.sdsalloc = newlen := by
  cases fresh with
  | none => exact .inl ⟨rfl, rfl⟩
  | some contents =>
      right
      obtain ⟨spare, whole⟩ := holds.whole
      have size := bytesBehind_eq type small
      have split : s.buf = (content ++ [0]) ++ spare := by
        rw [whole, List.append_assoc]
        rfl
      by_cases same : s.type = type
      · obtain ⟨rest, kept⟩ := @reallocate_append _ contents (content ++ [0])
          spare (bytesBehind type newlen)
          (by rw [size, List.length_append]; simpa using enough)
        have length := length_reallocate contents s.buf (bytesBehind type newlen)
        rw [← split] at kept
        refine ⟨_, ?_, @holds_sdssetalloc
          { s with buf := reallocate contents s.buf (bytesBehind type newlen) }
          content newlen rest holds.len ?_ ?_ enough ?_ ?_⟩
        · unfold SdsString.move
          exact if_pos same
        · change reallocate contents s.buf (bytesBehind type newlen) = _
          rw [kept, List.append_assoc]
          rfl
        · change (reallocate contents s.buf (bytesBehind type newlen)).length = _
          rw [length, size]
        · change newlen < s.type.bound
          rw [same]
          exact bound
        · intro type5
          exact exactly (same.symm.trans type5)
      · have fetched := fetch_append [] (content ++ [0]) spare
        have count : (content ++ [(0 : UInt8)]).length = s.sdslen + 1 := by
          rw [sdslen, holds.len, List.length_append]
          rfl
        rw [List.nil_append, ← split, List.length_nil, count] at fetched
        have block := length_allocate contents (bytesBehind type newlen)
        have stored := @store_start _
          (allocate contents (bytesBehind type newlen)) (content ++ [0])
          (by rw [block, size, List.length_append]; simpa using enough)
        have length := length_of_store stored
        generalize (allocate contents (bytesBehind type newlen)).drop
          (content ++ [0]).length = rest at stored length
        have len : content.length % type.bound = content.length :=
          Nat.mod_eq_of_lt (by omega)
        refine ⟨_, ?_, @holds_sdssetalloc
          (({ type, len := 0, alloc := 0, buf := content ++ [0] ++ rest } :
            SdsString).sdssetlen s.sdslen)
          content newlen rest ?_ ?_ ?_ enough bound exactly⟩
        · unfold SdsString.move
          simp only [if_neg same, fetched, Option.bind_eq_bind,
            Option.bind_some, stored]
        · change s.len % type.bound = content.length
          rw [holds.len, len]
        · change content ++ [0] ++ rest = content ++ 0 :: rest
          rw [List.append_assoc]
          rfl
        · change (content ++ [0] ++ rest).length = newlen + 1
          rw [length, block, size]

/-- What is asked for is enough, and does not overflow. -/
theorem grown_bounds {needed : Nat} (small : needed ≤ 4611686018427387904) :
    needed ≤
        (if needed < sdsMaxPrealloc then
          needed * 2
        else
          toSizeT ((needed : Int) + sdsMaxPrealloc)) ∧
      (if needed < sdsMaxPrealloc then
          needed * 2
        else
          toSizeT ((needed : Int) + sdsMaxPrealloc)) < 9223372036854775808 := by
  by_cases below : needed < sdsMaxPrealloc
  · rw [if_pos below]
    rw [sdsMaxPrealloc] at below
    omega
  · rw [if_neg below, sdsMaxPrealloc, toSizeT]
    omega

theorem Holds.sdsMakeRoomFor
    {s : SdsString} {content : ByteString} (holds : Holds s content)
    (fresh : Fresh) {addlen : Nat}
    (small : content.length + addlen ≤ sdsMaxLength) :
    (fresh = none ∧ s.sdsMakeRoomFor fresh addlen = some none) ∨
      ∃ next, s.sdsMakeRoomFor fresh addlen = some (some next) ∧
        Holds next content ∧ content.length + addlen ≤ next.sdsalloc := by
  rw [sdsMaxLength] at small
  unfold SdsString.sdsMakeRoomFor
  split
  · rename_i free
    have avail := holds.sdsavail_le
    exact .inr ⟨s, rfl, holds, by omega⟩
  · have exact64 : toSizeT ((s.sdslen : Int) + addlen) =
        content.length + addlen := by
      rw [sdslen, holds.len, toSizeT]
      omega
    have grows := grown_bounds small
    simp only [exact64]
    generalize (if content.length + addlen < sdsMaxPrealloc then
        (content.length + addlen) * 2
      else
        toSizeT (((content.length + addlen : Nat) : Int) + sdsMaxPrealloc)) =
      newlen at grows ⊢
    obtain ⟨enough, bounded⟩ := grows
    have bound : newlen < (if sdsReqType newlen = .type5 then SdsType.type8
        else sdsReqType newlen).bound := by
      have requested := @lt_bound_sdsReqType newlen (by omega)
      split
      · rename_i type5
        rw [type5] at requested
        change newlen < 32 at requested
        change newlen < 256
        omega
      · exact requested
    have not5 : (if sdsReqType newlen = .type5 then SdsType.type8
        else sdsReqType newlen) ≠ .type5 := by
      split
      · nofun
      · assumption
    rcases holds.move fresh (by omega) bounded bound
        (fun type5 => absurd type5 not5) with null | ⟨next, moved, kept, alloc⟩
    · exact .inl null
    · exact .inr ⟨next, moved, kept, by omega⟩

theorem Holds.sdsRemoveFreeSpace
    {s : SdsString} {content : ByteString} (holds : Holds s content)
    (fresh : Fresh) (small : content.length ≤ sdsMaxLength) :
    Returns fresh (s.sdsRemoveFreeSpace fresh) content := by
  rw [sdsMaxLength] at small
  unfold SdsString.sdsRemoveFreeSpace
  rw [sdslen, holds.len]
  rcases holds.move fresh (Nat.le_refl _) (by omega)
      (lt_bound_sdsReqType (by omega)) (fun _ => rfl) with
    null | ⟨next, moved, kept, _⟩
  · exact .inl null
  · exact .inr ⟨next, moved, kept⟩

/-! ### Writing -/

/-- The terminator goes where there is room for it. -/
theorem store_terminator
    (front : ByteString) {rest : ByteString} (room : rest ≠ []) :
    store (front ++ rest) front.length [0] =
      some (front ++ 0 :: rest.drop 1) := by
  have one : [(0 : UInt8)].length ≤ rest.length :=
    List.length_pos_iff.mpr room
  exact store_append front one

theorem Holds.sdscatlen
    {s : SdsString} {content : ByteString} (holds : Holds s content)
    (fresh : Fresh) {t : ByteString}
    (small : content.length + t.length ≤ sdsMaxLength) :
    Returns fresh (s.sdscatlen fresh t) (content ++ t) := by
  unfold SdsString.sdscatlen
  rw [sdslen, holds.len]
  rcases holds.sdsMakeRoomFor fresh small with
    ⟨noMemory, null⟩ | ⟨next, made, kept, room⟩
  · left
    rw [null]
    exact ⟨noMemory, rfl⟩
  · right
    rw [made]
    simp only [Option.bind_eq_bind, Option.bind_some]
    obtain ⟨spare, whole⟩ := kept.whole
    have inside := kept.inside
    have length : next.buf.length = content.length + (spare.length + 1) := by
      rw [whole, List.length_append, List.length_cons]
    have written := @store_append _ content t (0 :: spare)
      (by rw [List.length_cons]; omega)
    have behind : (0 :: spare).drop t.length ≠ [] := by
      intro nothing
      have short := List.drop_eq_nil_iff.mp nothing
      rw [List.length_cons] at short
      omega
    have terminated := store_terminator (content ++ t) behind
    rw [List.append_assoc, List.length_append] at terminated
    have newlen : toSizeT ((content.length : Int) + t.length) =
        (content ++ t).length := by
      rw [sdsMaxLength] at small
      rw [toSizeT, List.length_append]
      omega
    rw [whole, written]
    simp only [Option.bind_some]
    rw [newlen, List.length_append, terminated]
    refine ⟨_, rfl, ?_⟩
    have same := (length_of_store terminated).trans (length_of_store written)
    rw [← List.length_append]
    apply kept.sdssetlen
    · rw [List.length_append]
      exact room
    · rw [whole]
      exact same
    · rfl

theorem Holds.sdscpylen
    {s : SdsString} {content : ByteString} (holds : Holds s content)
    (fresh : Fresh) {t : ByteString} (small : t.length ≤ sdsMaxLength) :
    Returns fresh (s.sdscpylen fresh t) t := by
  have room :
      (fresh = none ∧
        (if s.sdsalloc < t.length then
            s.sdsMakeRoomFor fresh (toSizeT ((t.length : Int) - s.sdslen))
          else
            some (some s)) = some none) ∨
        ∃ next,
          (if s.sdsalloc < t.length then
              s.sdsMakeRoomFor fresh (toSizeT ((t.length : Int) - s.sdslen))
            else
              some (some s)) = some (some next) ∧
            Holds next content ∧ t.length ≤ next.sdsalloc := by
    split
    · have fits := holds.fits
      have more : toSizeT ((t.length : Int) - s.sdslen) =
          t.length - content.length := by
        rw [sdsMaxLength] at small
        rw [sdslen, holds.len, toSizeT]
        omega
      rw [more]
      rcases @Holds.sdsMakeRoomFor _ _ holds fresh (t.length - content.length)
          (by omega) with null | ⟨next, made, kept, enough⟩
      · exact .inl null
      · exact .inr ⟨next, made, kept, by omega⟩
    · exact .inr ⟨s, rfl, holds, by omega⟩
  unfold SdsString.sdscpylen
  rcases room with ⟨noMemory, null⟩ | ⟨next, made, kept, room⟩
  · left
    rw [null]
    exact ⟨noMemory, rfl⟩
  · right
    rw [made]
    have inside := kept.inside
    have written := @store_start _ next.buf t (by omega)
    have behind : next.buf.drop t.length ≠ [] := by
      intro nothing
      have short := List.drop_eq_nil_iff.mp nothing
      omega
    have terminated := store_terminator t behind
    simp only [Option.bind_eq_bind, Option.bind_some]
    rw [written]
    simp only [Option.bind_some]
    rw [terminated]
    exact ⟨_, rfl, kept.sdssetlen room
      ((length_of_store terminated).trans (length_of_store written)) rfl⟩

theorem Holds.sdsgrowzero
    {s : SdsString} {content : ByteString} (holds : Holds s content)
    (fresh : Fresh) {len : Nat} (small : len ≤ sdsMaxLength) :
    Returns fresh (s.sdsgrowzero fresh len)
      (content ++ List.replicate (len - content.length) 0) := by
  unfold SdsString.sdsgrowzero
  rw [sdslen, holds.len]
  simp only
  split
  · rename_i short
    right
    rw [Nat.sub_eq_zero_of_le short, List.replicate_zero, List.append_nil]
    exact ⟨s, rfl, holds⟩
  · rename_i long
    rcases @Holds.sdsMakeRoomFor _ _ holds fresh (len - content.length)
        (by omega) with ⟨noMemory, null⟩ | ⟨next, made, kept, room⟩
    · left
      rw [null]
      exact ⟨noMemory, rfl⟩
    · right
      rw [made]
      simp only [Option.bind_eq_bind, Option.bind_some]
      obtain ⟨spare, whole⟩ := kept.whole
      have inside := kept.inside
      have length : next.buf.length = content.length + (spare.length + 1) := by
        rw [whole, List.length_append, List.length_cons]
      have written := @store_append _ content
        (List.replicate (len - content.length + 1) (0 : UInt8)) (0 :: spare)
        (by rw [List.length_replicate, List.length_cons]; omega)
      rw [whole, written]
      refine ⟨_, rfl, ?_⟩
      have total : len =
          (content ++ List.replicate (len - content.length) (0 : UInt8)).length := by
        rw [List.length_append, List.length_replicate]
        omega
      have same := length_of_store written
      rw [← whole] at same
      nth_rewrite 3 [total]
      apply kept.sdssetlen
      · rw [← total]
        omega
      · exact same
      · rw [List.replicate_succ', List.append_assoc, List.append_assoc]
        rfl

theorem Holds.sdsclear
    {s : SdsString} {content : ByteString} (holds : Holds s content) :
    ∃ next, s.sdsclear = some next ∧ Holds next [] := by
  have inside := holds.inside
  have written := @store_terminator [] s.buf (by
    intro nothing
    rw [nothing] at inside
    exact absurd inside (Nat.not_lt_zero _))
  unfold SdsString.sdsclear
  rw [List.nil_append, List.length_nil] at written
  rw [written]
  exact ⟨_, rfl, holds.sdssetlen (Nat.zero_le _)
    (length_of_store written) rfl⟩

/-- The bytes that are kept go to the front, and the terminator behind them. -/
theorem Holds.moveDown
    {s : SdsString} {content : ByteString} (holds : Holds s content)
    {start newlen : Nat} (inside : start + newlen ≤ content.length) :
    ∃ moved buf,
      SdsString.moveDown s.buf start newlen = some moved ∧
        store moved newlen [0] = some buf ∧
        Holds ({ s with buf }.sdssetlen newlen)
          ((content.drop start).take newlen) := by
  by_cases nothing : newlen = 0
  · subst nothing
    obtain ⟨next, cleared, kept⟩ := holds.sdsclear
    unfold SdsString.sdsclear at cleared
    obtain ⟨buf, written, same⟩ := Option.bind_eq_some_iff.mp cleared
    cases same
    exact ⟨s.buf, buf, rfl, written, kept⟩
  · obtain ⟨spare, whole⟩ := holds.whole
    have fits := holds.fits
    have length : ((content.drop start).take newlen).length = newlen := by
      rw [List.length_take, List.length_drop]
      omega
    have before : (content.take start).length = start := by
      rw [List.length_take]
      omega
    have split : s.buf = content.take start ++
        ((content.drop start).take newlen ++
          ((content.drop start).drop newlen ++ 0 :: spare)) := by
      rw [whole, ← List.append_assoc, ← List.append_assoc, List.append_assoc
        (content.take start), List.take_append_drop, List.take_append_drop]
    have fetched := fetch_append (content.take start)
      ((content.drop start).take newlen)
      ((content.drop start).drop newlen ++ 0 :: spare)
    rw [← split, length, before] at fetched
    have room := holds.inside
    have written := @store_start _ s.buf ((content.drop start).take newlen)
      (by rw [length]; omega)
    have behind :
        s.buf.drop ((content.drop start).take newlen).length ≠ [] := by
      intro none
      have short := List.drop_eq_nil_iff.mp none
      omega
    have terminated :=
      store_terminator ((content.drop start).take newlen) behind
    have kept := holds.sdssetlen (by omega)
      ((length_of_store terminated).trans (length_of_store written)) rfl
    nth_rewrite 2 [length] at terminated
    nth_rewrite 2 [length] at kept
    refine ⟨_, _, ?_, terminated, kept⟩
    unfold SdsString.moveDown
    rw [if_neg nothing, fetched]
    exact written

/-- What `sdsrange` returns does not depend on where the string is in memory. -/
theorem Holds.sdsrange
    {s : SdsString} {content : ByteString} (holds : Holds s content)
    {start stop : Int} {bytes : ByteString}
    (ranged : Hiredis.sdsrange content start stop = some bytes) :
    ∃ next, s.sdsrange start stop = some next ∧ Holds next bytes := by
  unfold Hiredis.sdsrange at ranged
  unfold SdsString.sdsrange
  rw [sdslen, holds.len]
  by_cases empty : content.length = 0
  · simp only [if_pos empty] at ranged ⊢
    cases ranged
    exact ⟨s, rfl, holds⟩
  · simp only [if_neg empty] at ranged ⊢
    have startNonneg : 0 ≤ (if start < 0 then
        max (toInt (content.length + start)) 0 else start) := by
      split <;> omega
    have countedLe := toInt_natCast_le content.length
    generalize (if start < 0 then
      max (toInt (content.length + start)) 0 else start) = first
      at ranged startNonneg ⊢
    generalize (if stop < 0 then
      max (toInt (content.length + stop)) 0 else stop) = last at ranged ⊢
    generalize toInt content.length = counted at ranged countedLe ⊢
    by_cases countable : (intMax : Int) ≤ last - first
    · rw [if_pos countable] at ranged
      cases ranged
    · rw [if_neg countable] at ranged ⊢
      cases ranged
      by_cases nothing : last < first ∨ counted ≤ first
      · rw [if_pos nothing]
        obtain ⟨moved, buf, down, written, kept⟩ :=
          @Holds.moveDown _ _ holds 0 0 (Nat.zero_le _)
        have same : SdsString.moveDown s.buf first.toNat 0 = some moved := down
        rw [same, Option.bind_eq_bind, Option.bind_some, written]
        exact ⟨_, rfl, kept⟩
      · rw [if_neg nothing]
        generalize size : (min last (counted - 1) - first + 1).toNat = newlen
        have inside : first.toNat + newlen ≤ content.length := by omega
        obtain ⟨moved, buf, down, written, kept⟩ :=
          @Holds.moveDown _ _ holds _ _ inside
        rw [down, Option.bind_eq_bind, Option.bind_some, written]
        exact ⟨_, rfl, kept⟩

end SdsString

/-! ### Runs -/

inductive SdsOp where
  | sdscatlen (t : ByteString)
  | sdscpylen (t : ByteString)
  | sdsgrowzero (len : Nat)
  | sdsrange (start stop : Int)
  | sdsclear
  | sdsMakeRoomFor (addlen : Nat)
  | sdsRemoveFreeSpace
  deriving DecidableEq, Repr

namespace SdsOp

def perform (fresh : Fresh) (s : SdsString) : SdsOp → Option (Option SdsString)
  | .sdscatlen t => s.sdscatlen fresh t
  | .sdscpylen t => s.sdscpylen fresh t
  | .sdsgrowzero len => s.sdsgrowzero fresh len
  | .sdsrange start stop => (s.sdsrange start stop).map some
  | .sdsclear => s.sdsclear.map some
  | .sdsMakeRoomFor addlen => s.sdsMakeRoomFor fresh addlen
  | .sdsRemoveFreeSpace => s.sdsRemoveFreeSpace fresh

/-- What is done to the bytes. -/
def effect (content : ByteString) : SdsOp → ByteString
  | .sdscatlen t => content ++ t
  | .sdscpylen t => t
  | .sdsgrowzero len =>
      content ++ List.replicate (len - content.length) 0
  | .sdsrange start stop => subrange content start stop
  | .sdsclear => []
  | .sdsMakeRoomFor _ | .sdsRemoveFreeSpace => content

/-- The string that results is not too long, and `sdsrange` can count in numbers
of type `int`. -/
def fits (s : SdsString) : SdsOp → Bool
  | .sdscatlen t => s.sdslen + t.length ≤ sdsMaxLength
  | .sdscpylen t => t.length ≤ sdsMaxLength
  | .sdsgrowzero len => len ≤ sdsMaxLength
  | .sdsrange start stop =>
      s.sdslen ≤ intMax && -2147483648 ≤ start && -2147483648 ≤ stop &&
        stop < intMax
  | .sdsclear => true
  | .sdsMakeRoomFor addlen => s.sdslen + addlen ≤ sdsMaxLength
  | .sdsRemoveFreeSpace => s.sdslen ≤ sdsMaxLength

theorem perform_returns
    {s : SdsString} {content : ByteString} (holds : s.Holds content)
    (fresh : Fresh) {op : SdsOp} (within : op.fits s = true) :
    SdsString.Returns fresh (op.perform fresh s) (op.effect content) := by
  have len : s.sdslen = content.length := holds.len
  cases op with
  | sdscatlen t =>
      apply holds.sdscatlen fresh
      rw [← len]
      exact of_decide_eq_true within
  | sdscpylen t => exact holds.sdscpylen fresh (of_decide_eq_true within)
  | sdsgrowzero length =>
      exact holds.sdsgrowzero fresh (of_decide_eq_true within)
  | sdsrange start stop =>
      simp only [fits, Bool.and_eq_true, decide_eq_true_eq, len] at within
      obtain ⟨⟨⟨short, startIsInt⟩, stopIsInt⟩, below⟩ := within
      obtain ⟨next, ranged, kept⟩ :=
        holds.sdsrange
          (sdsrange_eq_subrange short startIsInt stopIsInt below)
      right
      rw [perform, ranged]
      exact ⟨next, rfl, kept⟩
  | sdsclear =>
      obtain ⟨next, cleared, kept⟩ := holds.sdsclear
      right
      rw [perform, cleared]
      exact ⟨next, rfl, kept⟩
  | sdsMakeRoomFor addlen =>
      have small : content.length + addlen ≤ sdsMaxLength := by
        rw [← len]
        exact of_decide_eq_true within
      rcases holds.sdsMakeRoomFor fresh small with null | ⟨next, made, kept, _⟩
      · exact .inl null
      · exact .inr ⟨next, made, kept⟩
  | sdsRemoveFreeSpace =>
      apply holds.sdsRemoveFreeSpace fresh
      rw [← len]
      exact of_decide_eq_true within

end SdsOp

/-- A string, and the operations that have been done to it: those that have got
the memory they asked for. -/
structure SdsRun where
  string : SdsString
  done : List SdsOp

namespace SdsRun

def start (string : SdsString) : SdsRun :=
  { string, done := [] }

def step (state : SdsRun) (label : SdsOp × Fresh) : Option SdsRun :=
  match label.1.perform label.2 state.string with
  | none => none
  | some none => some state
  | some (some string) =>
      some { string, done := state.done ++ [label.1] }

def Within (state : SdsRun) (label : SdsOp × Fresh) : Prop :=
  label.1.fits state.string = true

instance (state : SdsRun) (label : SdsOp × Fresh) :
    Decidable (Within state label) :=
  inferInstanceAs (Decidable (_ = true))

theorem step_spec
    {state : SdsRun} {init : ByteString}
    (holds : state.string.Holds (state.done.foldl SdsOp.effect init))
    {label : SdsOp × Fresh} (within : Within state label) :
    ∃ next, step state label = some next ∧
      next.string.Holds (next.done.foldl SdsOp.effect init) ∧
      (next.done = state.done ++ [label.1] ∨
        label.2 = none ∧ next.done = state.done) := by
  unfold step
  rcases SdsOp.perform_returns holds label.2 within with
    ⟨noMemory, null⟩ | ⟨string, returned, kept⟩
  · rw [null]
    exact ⟨state, rfl, holds, .inr ⟨noMemory, rfl⟩⟩
  · rw [returned]
    refine ⟨_, rfl, ?_, .inl rfl⟩
    rw [List.foldl_append]
    exact kept

theorem run_spec
    {labels : List (SdsOp × Fresh)} {state : SdsRun} {init : ByteString}
    (holds : state.string.Holds (state.done.foldl SdsOp.effect init))
    (within : AllSteps step Within state labels) :
    ∃ final done, run step state labels = some final ∧
      final.done = state.done ++ done ∧
      final.string.Holds (final.done.foldl SdsOp.effect init) ∧
      done.Sublist (labels.map Prod.fst) ∧
      ((∀ label ∈ labels, label.2.isSome) → done = labels.map Prod.fst) := by
  induction labels generalizing state with
  | nil =>
      exact ⟨state, [], rfl, (List.append_nil _).symm, holds, .slnil,
        fun _ => rfl⟩
  | cons label labels induction =>
      obtain ⟨next, stepped, nextHolds, outcome⟩ := step_spec holds within.1
      obtain ⟨final, done, ran, whole, kept, sublist, all⟩ :=
        induction nextHolds (within.2 next stepped)
      have runs := run_cons_eq_some_iff.mpr ⟨next, stepped, ran⟩
      rcases outcome with did | ⟨noMemory, didNot⟩
      · refine ⟨final, label.1 :: done, runs, ?_, kept,
          sublist.cons_cons label.1, ?_⟩
        · rw [whole, did, List.append_assoc]
          rfl
        · intro memory
          rw [all fun other listed =>
            memory other (List.mem_cons_of_mem _ listed)]
          rfl
      · refine ⟨final, done, runs, ?_, kept, sublist.cons label.1, ?_⟩
        · rw [whole, didNot]
        · intro memory
          have here := memory label List.mem_cons_self
          rw [noMemory] at here
          cases here

/-- Whatever fresh memory holds and whenever there is none, the operations stay
inside of the allocation and do to the bytes what they do to a list; those that
get no memory do nothing. -/
theorem bytes_of_run
    {init : ByteString} (small : init.length ≤ sdsMaxLength)
    {contents : Nat → UInt8} {s : SdsString}
    (made : SdsString.sdsnewlen (some contents) (some init) init.length =
      some (some s))
    {labels : List (SdsOp × Fresh)}
    (within : AllSteps step Within (start s) labels) :
    ∃ final, run step (start s) labels = some final ∧
      final.string.Holds (final.done.foldl SdsOp.effect init) ∧
      final.done.Sublist (labels.map Prod.fst) ∧
      ((∀ label ∈ labels, label.2.isSome) →
        final.done = labels.map Prod.fst) := by
  obtain ⟨other, result, holds⟩ := SdsString.holds_sdsnewlen contents small
  rw [made] at result
  cases result
  have initial : (start s).string.Holds
      ((start s).done.foldl SdsOp.effect init) := holds
  obtain ⟨final, done, ran, whole, kept, sublist, all⟩ :=
    run_spec initial within
  rw [start, List.nil_append] at whole
  subst whole
  exact ⟨final, ran, kept, sublist, all⟩

/-- A byte that fresh memory holds. -/
def junk : Nat → UInt8 := fun _ => 170

/-- The string grows out of its first header, and there is no memory once. -/
def grows : List (SdsOp × Fresh) :=
  [(.sdscatlen (List.replicate 200 7), some junk), (.sdsrange 150 (-1), some junk),
    (.sdsRemoveFreeSpace, some junk), (.sdscatlen [1, 2], none),
    (.sdsgrowzero 60, some junk)]

theorem bytes_of_run_grows :
    ∃ final,
      run step (start
        { type := .type5, len := 2, alloc := 0, buf := [104, 105, 0] }) grows =
          some final ∧
        final.string.Holds
          (final.done.foldl SdsOp.effect (ascii "hi")) ∧
        final.done.Sublist (grows.map Prod.fst) ∧
        ((∀ label ∈ grows, label.2.isSome) →
          final.done = grows.map Prod.fst) :=
  @bytes_of_run (ascii "hi") (by decide +kernel) junk _ (by decide +kernel)
    grows (by decide +kernel)

end SdsRun

end Hiredis

end DBWrapper
