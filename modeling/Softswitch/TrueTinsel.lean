import Softswitch.Lib.ByteMemory

/-!
# Memory routines

The loops of `true_tinsel.cpp` that stand in for the C library on the target, and the copy of a
value of `tinsel_api.hpp`.  Pointers, `unsigned` and `size_t` have 32 bits there.
-/

namespace Softswitch

open ByteMemory

/-- The memory of the target. -/
abbrev TinselMemory := Memory 32

/-- Returns the destination. -/
def memcpy (destination source num : BitVec 32) (m : TinselMemory) : BitVec 32 × TinselMemory :=
  (destination, (List.range num.toNat).foldl
    (fun m i => store m (offset destination i) (m (offset source i))) m)

/-- `destination[i] = source[i]`, for pointers to words -/
def copyWord (destination source : BitVec 32) (m : TinselMemory) (i : Nat) : TinselMemory :=
  storeWord m (offset destination (4 * i)) (loadWord m (offset source (4 * i)))

def tinselMemcpy32 (destination source numWords : BitVec 32) (m : TinselMemory) : TinselMemory :=
  (List.range numWords.toNat).foldl (copyWord destination source) m

/-- Returns the destination.  The loop counts, but the pointer it stores through stays. -/
def memset (dest ch count : BitVec 32) (m : TinselMemory) : BitVec 32 × TinselMemory :=
  let pDst := dest
  (dest, (List.range count.toNat).foldl (fun m _ => store m pDst (ch.setWidth 8)) m)

/-- The branch of `tinsel_memcpy_T` for small types. -/
def memcpyTInline (sizeofT dst src : BitVec 32) (m : TinselMemory) : TinselMemory :=
  (List.range (sizeofT / 4#32).toNat).foldl (copyWord dst src) m

/-- The branch of `tinsel_memcpy_T` for large types. -/
def memcpyTCall (sizeofT dst src : BitVec 32) (m : TinselMemory) : TinselMemory :=
  tinselMemcpy32 dst src (sizeofT / 4#32) m

/-- `tinsel_memcpy_T`, for types of size `sizeofT`, which is statically asserted to be divisible
by four. -/
def tinselMemcpyT (sizeofT dst src : BitVec 32) (m : TinselMemory) : TinselMemory :=
  if sizeofT ≤ 12#32 then memcpyTInline sizeofT dst src m else memcpyTCall sizeofT dst src m

/-! ## Strings

The loops end where they find a zero byte, and run for as long as there is fuel. -/

/-- `while(*str++) ++len;` -/
def strlenLoop : Nat → BitVec 32 → BitVec 32 → TinselMemory → Option (BitVec 32)
  | 0, _, _, _ => none
  | fuel + 1, str, len, m =>
    if m str ≠ 0#8 then strlenLoop fuel (offset str 1) (len + 1#32) m else some len

def strlen (fuel : Nat) (str : BitVec 32) (m : TinselMemory) : Option (BitVec 32) :=
  strlenLoop fuel str 0#32 m

/-- `while(curr<upper)`; past the end of the source string zeros are written. -/
def strncpyLoop (upper : BitVec 32) :
    Nat → BitVec 32 → BitVec 32 → TinselMemory → Option TinselMemory
  | 0, _, _, _ => none
  | fuel + 1, curr, source, m =>
    if curr < upper then
      let ch := m source
      strncpyLoop upper fuel (offset curr 1) (if ch ≠ 0#8 then offset source 1 else source)
        (store m curr ch)
    else some m

/-- Returns the destination. -/
def strncpy (fuel : Nat) (destination source num : BitVec 32) (m : TinselMemory) :
    Option (BitVec 32 × TinselMemory) :=
  (strncpyLoop (destination + num) fuel destination source m).map fun m => (destination, m)

/-- A plain `char` is unsigned on the target. -/
def strcmp : Nat → BitVec 32 → BitVec 32 → TinselMemory → Option Int
  | 0, _, _, _ => none
  | fuel + 1, a, b, m =>
    let ca := m a
    let cb := m b
    if ca < cb then some (-1)
    else if cb < ca then some 1
    else if ca = 0#8 then some 0
    else strcmp fuel (offset a 1) (offset b 1) m

end Softswitch
