import DBWrapper.Foundation.Blocks
import DBWrapper.Foundation.Runs
import DBWrapper.Redis.Reader

/-!
# The strings of hiredis

The bytes of an `sds` string stand behind a header with its length and the
length of its allocation, in fields whose width depends on the type of the
header.  An operation that needs more room asks for about twice as much as it
needs, and moves the bytes when the new length needs another type.

As long as the lengths fit into the memory of the machine, no operation touches
a byte outside of the allocation, whatever fresh memory holds and whenever there
is none; and the bytes in front of the terminator are those of a list on which
the operations are done.

`none` is undefined behaviour.  An operation that gets no memory returns a null
pointer and leaves the string as it was.
-/

namespace DBWrapper

open Foundation

namespace Hiredis

/-- `SDS_TYPE_5` and so on. -/
inductive SdsType where
  | type5 | type8 | type16 | type32 | type64
  deriving DecidableEq, Repr

/-- The fields of a header hold the numbers below. -/
def SdsType.bound : SdsType → Nat
  | .type5 => 32
  | .type8 => 256
  | .type16 => 65536
  | .type32 => 4294967296
  | .type64 => 18446744073709551616

def sdsHdrSize : SdsType → Nat
  | .type5 => 1
  | .type8 => 3
  | .type16 => 5
  | .type32 => 9
  | .type64 => 17

def sdsReqType (stringSize : Nat) : SdsType :=
  if stringSize < 32 then .type5
  else if stringSize < 0xff then .type8
  else if stringSize < 0xffff then .type16
  else if stringSize < 0xffffffff then .type32
  else .type64

def sdsMaxPrealloc : Nat := 1048576

/-- `buf` is the part of the allocation behind the header.  A header of type 5
has no field `alloc`. -/
structure SdsString where
  type : SdsType
  len : Nat
  alloc : Nat
  buf : ByteString
  deriving DecidableEq, Repr

/-- What `malloc` and `realloc` answer: fresh memory with anything in it, or a
null pointer. -/
abbrev Fresh := Option (Nat → UInt8)

namespace SdsString

def sdslen (s : SdsString) : Nat := s.len

def sdsalloc (s : SdsString) : Nat :=
  match s.type with
  | .type5 => s.len
  | _ => s.alloc

def sdsavail (s : SdsString) : Nat :=
  match s.type with
  | .type5 => 0
  | _ => toSizeT ((s.alloc : Int) - s.len)

def sdssetlen (s : SdsString) (newlen : Nat) : SdsString :=
  { s with len := newlen % s.type.bound }

def sdssetalloc (s : SdsString) (newlen : Nat) : SdsString :=
  match s.type with
  | .type5 => s
  | _ => { s with alloc := newlen % s.type.bound }

/-- The bytes behind a header of which `hdrlen + size + 1` are asked for. -/
def bytesBehind (type : SdsType) (size : Nat) : Nat :=
  toSizeT (sdsHdrSize type + size + 1) - sdsHdrSize type

/-! ### Making and moving -/

/-- The `memcpy` of `sdsnewlen`. -/
def copyInit (sh : ByteString) (init : Option ByteString) (initlen : Nat) :
    Option ByteString :=
  match init with
  | some init =>
      if initlen = 0 then
        some sh
      else do
        store sh 0 (← fetch init 0 initlen)
  | none => some sh

/-- `sdsnewlen`; without `init` the string is filled with zeros. -/
def sdsnewlen (fresh : Fresh) (init : Option ByteString) (initlen : Nat) :
    Option (Option SdsString) :=
  let type := sdsReqType initlen
  let type := if type = .type5 ∧ initlen = 0 then .type8 else type
  match fresh with
  | none => some none
  | some contents => do
      let sh :=
        allocate (if init.isNone then fun _ => 0 else contents)
          (bytesBehind type initlen)
      let filled ← copyInit sh init initlen
      let buf ← store filled initlen [0]
      let made : SdsString := { type, len := 0, alloc := 0, buf }
      some (some ((made.sdssetlen initlen).sdssetalloc initlen))

/-- What `sdsMakeRoomFor` and `sdsRemoveFreeSpace` do once they know the type
and the length of the new allocation. -/
def move (fresh : Fresh) (s : SdsString) (type : SdsType) (newlen : Nat) :
    Option (Option SdsString) :=
  match fresh with
  | none => some none
  | some contents =>
      if s.type = type then
        let buf := reallocate contents s.buf (bytesBehind type newlen)
        some (some ({ s with buf }.sdssetalloc newlen))
      else do
        let kept ← fetch s.buf 0 (s.sdslen + 1)
        let buf ← store (allocate contents (bytesBehind type newlen)) 0 kept
        let made : SdsString := { type, len := 0, alloc := 0, buf }
        some (some ((made.sdssetlen s.sdslen).sdssetalloc newlen))

def sdsMakeRoomFor (fresh : Fresh) (s : SdsString) (addlen : Nat) :
    Option (Option SdsString) :=
  if addlen ≤ s.sdsavail then
    some (some s)
  else
    let newlen := toSizeT (s.sdslen + addlen)
    let newlen :=
      if newlen < sdsMaxPrealloc then
        newlen * 2
      else
        toSizeT (newlen + sdsMaxPrealloc)
    let type := sdsReqType newlen
    move fresh s (if type = .type5 then .type8 else type) newlen

def sdsRemoveFreeSpace (fresh : Fresh) (s : SdsString) :
    Option (Option SdsString) :=
  move fresh s (sdsReqType s.sdslen) s.sdslen

/-! ### Writing -/

def sdscatlen (fresh : Fresh) (s : SdsString) (t : ByteString) :
    Option (Option SdsString) := do
  let curlen := s.sdslen
  match ← s.sdsMakeRoomFor fresh t.length with
  | none => some none
  | some s =>
      let buf ← store s.buf curlen t
      let newlen := toSizeT (curlen + t.length)
      let buf ← store buf newlen [0]
      some (some ({ s with buf }.sdssetlen newlen))

def sdscpylen (fresh : Fresh) (s : SdsString) (t : ByteString) :
    Option (Option SdsString) := do
  let room ←
    (if s.sdsalloc < t.length then
      s.sdsMakeRoomFor fresh (toSizeT ((t.length : Int) - s.sdslen))
    else
      some (some s))
  match room with
  | none => some none
  | some s =>
      let buf ← store s.buf 0 t
      let buf ← store buf t.length [0]
      some (some ({ s with buf }.sdssetlen t.length))

def sdsgrowzero (fresh : Fresh) (s : SdsString) (len : Nat) :
    Option (Option SdsString) := do
  let curlen := s.sdslen
  if len ≤ curlen then
    some (some s)
  else
    match ← s.sdsMakeRoomFor fresh (len - curlen) with
    | none => some none
    | some s =>
        let buf ← store s.buf curlen (List.replicate (len - curlen + 1) 0)
        some (some ({ s with buf }.sdssetlen len))

def sdsclear (s : SdsString) : Option SdsString := do
  let buf ← store s.buf 0 [0]
  some ({ s with buf }.sdssetlen 0)

/-- The `memmove` of `sdsrange`. -/
def moveDown (buf : ByteString) (start newlen : Nat) : Option ByteString :=
  if newlen = 0 then
    some buf
  else do
    store buf 0 (← fetch buf start newlen)

/-- `sdsrange`, whose indices are of type `int`. -/
def sdsrange (s : SdsString) (start stop : Int) : Option SdsString :=
  let len := s.sdslen
  if len = 0 then
    some s
  else
    let start := if start < 0 then max (toInt (len + start)) 0 else start
    let stop := if stop < 0 then max (toInt (len + stop)) 0 else stop
    if (intMax : Int) ≤ stop - start then
      none
    else do
      let newlen : Nat :=
        if stop < start ∨ toInt len ≤ start then
          0
        else
          (min stop (toInt len - 1) - start + 1).toNat
      let moved ← moveDown s.buf start.toNat newlen
      let buf ← store moved newlen [0]
      some ({ s with buf }.sdssetlen newlen)

end SdsString

end Hiredis

end DBWrapper
