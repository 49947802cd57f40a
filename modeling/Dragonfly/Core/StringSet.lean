import Mathlib.Algebra.Group.Nat.Basic
import Mathlib.Data.List.Basic

/-!
# Members of a `StringSet` and their TTL

A member of a `StringSet` is an `sds` string. A member with a TTL carries, after the string and
its NUL, the absolute expiry time in seconds as a 32-bit little-endian word
(`AllocImmutableWithTtl`); `ObjExpireTime` reads it back. Three paths make members:
`MakeSetSds` makes a new one, `ObjectClone` copies one, and `DuplicateEntryIfFragmented`
(through `iterator::ReallocIfNeeded`) moves one out of an underused page.

The memory layout is modelled byte by byte (`Sds`). The allocator is outside the sources
(`Zmalloc`): it gives `zmalloc_usable_size` of a block and the bytes a new block holds before
they are written.

## Main theorem

`setMember_ttl`: `MakeSetSds` stores the string and the TTL it was given. The copies keep the
string but not the TTL. `ObjectClone` adds `time_now()` to an expiry that is already absolute.
`DuplicateEntryIfFragmented` copies `key_len + 4` bytes from the string's start, that is the
string, its NUL and three bytes of the TTL, so the TTL's top byte is whatever the new block held.
-/

namespace Dragonfly.Core

/-- `UINT32_MAX`: the TTL that means none. -/
def uint32Max : UInt32 := 4294967295

/-- A byte of a buffer; past its end, `0`. -/
def byteAt (bs : List UInt8) (i : Nat) : UInt8 := bs.getD i 0

/-- `absl::little_endian::Store32`: the four bytes of `x`, lowest first. -/
def store32 (x : UInt32) : List UInt8 :=
  [UInt8.ofNat x.toNat, UInt8.ofNat (x.toNat / 2 ^ 8), UInt8.ofNat (x.toNat / 2 ^ 16),
    UInt8.ofNat (x.toNat / 2 ^ 24)]

/-- `absl::little_endian::Load32` of the four bytes at `off`. -/
def load32 (bs : List UInt8) (off : Nat) : UInt32 :=
  UInt32.ofNat ((byteAt bs off).toNat + 2 ^ 8 * (byteAt bs (off + 1)).toNat +
    2 ^ 16 * (byteAt bs (off + 2)).toNat + 2 ^ 24 * (byteAt bs (off + 3)).toNat)

/-- `Store32(bs + off, x)`. -/
def storeAt (bs : List UInt8) (off : Nat) (x : UInt32) : List UInt8 :=
  bs.take off ++ store32 x ++ bs.drop (off + 4)

/-- `memcpy(dst, src, n)`. -/
def memcpy (dst src : List UInt8) (n : Nat) : List UInt8 := src.take n ++ dst.drop n

/-- An `sds` member: `sdslen`, its buffer from the first byte of the string on, and
`zmalloc_usable_size` of its block. -/
structure Sds where
  len : Nat
  bytes : List UInt8
  usable : Nat

/-- The member's string: its first `sdslen` bytes. -/
def Sds.str (s : Sds) : List UInt8 := s.bytes.take s.len

/-- The allocator, outside the sources: the usable size of a block asked for `n` bytes, at least
`n`, and the bytes a new block holds before they are written. -/
structure Zmalloc where
  usable : Nat → Nat
  le_usable : ∀ n, n ≤ usable n
  junk : Nat → UInt8

variable (z : Zmalloc)

/-! ## Algorithm -/

/-- `AllocSdsWithSpace(len, space)`, outside the sources: room for the string, its NUL and
`space` more bytes; only the NUL is written. -/
def allocSdsWithSpace (len space : Nat) : Sds :=
  ⟨len, (List.range (len + 1 + space)).map (fun i => if i = len then 0 else z.junk i),
    z.usable (len + 1 + space)⟩

/-- `sdsnewlen(src, len)`: the string and its NUL. -/
def sdsnewlen (src : List UInt8) : Sds := ⟨src.length, src ++ [0], z.usable (src.length + 1)⟩

/-- `MayHaveTtl`: the block has room for a TTL after the string and its NUL. -/
def mayHaveTtl (s : Sds) : Bool := s.len + 1 + 4 ≤ s.usable

/-- `AllocImmutableWithTtl(len, at)`: `AllocSdsWithSpace(len, 4)`, then the TTL after the NUL. -/
def allocImmutableWithTtl (len : Nat) (atSec : UInt32) : Sds :=
  let res := allocSdsWithSpace z len 4
  { res with bytes := storeAt res.bytes (len + 1) atSec }

namespace StringSet

variable (now : UInt32)

/-- `StringSet::ObjExpireTime`. -/
def objExpireTime (s : Sds) : UInt32 := load32 s.bytes (s.len + 1)

/-- `StringSet::MakeSetSds` at `time_now() = now`: a TTL other than `UINT32_MAX` is stored as the
absolute time `now + ttl_sec`, in 32-bit arithmetic. -/
def makeSetSds (src : List UInt8) (ttlSec : UInt32) : Sds :=
  if ttlSec ≠ uint32Max then
    let atSec := now + ttlSec
    let newsds := allocImmutableWithTtl z src.length atSec
    if src ≠ [] then { newsds with bytes := memcpy newsds.bytes src src.length } else newsds
  else sdsnewlen z src

/-- `StringSet::ObjectClone`. -/
def objectClone (obj : Sds) (hasTtl addTtl : Bool) : Sds :=
  let ttlSec := if addTtl then 0 else if hasTtl then objExpireTime obj else uint32Max
  makeSetSds z now obj.str ttlSec

/-- `StringSet::DuplicateEntryIfFragmented`; `underUtilized` is the answer of
`PageUsage::IsPageForObjectUnderUtilized`. -/
def duplicateEntryIfFragmented (underUtilized : Bool) (key : Sds) : Sds × Bool :=
  if !underUtilized then (key, false)
  else if mayHaveTtl key then
    let res := allocSdsWithSpace z key.len 4
    ({ res with bytes := memcpy res.bytes key.bytes (key.len + 4) }, true)
  else (sdsnewlen z key.str, true)

/-- `StringSet::iterator::ReallocIfNeeded`: the entry's object afterwards. -/
def reallocIfNeeded (underUtilized : Bool) (obj : Sds) : Sds :=
  let (newObj, realloced) := duplicateEntryIfFragmented z underUtilized obj
  if realloced then newObj else obj

end StringSet

/-! ## Lemmas -/

theorem uint8_toNat_ofNat (n : Nat) : (UInt8.ofNat n).toNat = n % 2 ^ 8 := by
  simp [UInt8.toNat, UInt8.ofNat, BitVec.toNat_ofNat]

theorem uint32_toNat_ofNat (n : Nat) : (UInt32.ofNat n).toNat = n % 2 ^ 32 := by
  simp [UInt32.toNat, UInt32.ofNat, BitVec.toNat_ofNat]

theorem uint32_toNat_add (a b : UInt32) : (a + b).toNat = (a.toNat + b.toNat) % 2 ^ 32 := by
  simp [UInt32.toNat, UInt32.add_def, BitVec.toNat_add]

/-- `Load32` reads back what `Store32` wrote. -/
theorem load32_store32 (x : UInt32) (pre post : List UInt8) :
    load32 (pre ++ store32 x ++ post) pre.length = x := by
  have hx : x.toNat < 2 ^ 32 := x.toNat_lt_size
  apply UInt32.toNat.inj
  simp only [load32, byteAt, store32, List.getD_eq_getElem?_getD, List.append_assoc,
    List.getElem?_append_right (Nat.le_add_right _ _), Nat.add_sub_cancel_left,
    List.getElem?_append_right (Nat.le_refl _), Nat.sub_self]
  simp only [List.cons_append, List.getElem?_cons_succ, List.getElem?_cons_zero, Option.getD_some,
    uint8_toNat_ofNat, uint32_toNat_ofNat]
  omega

theorem byteAt_memcpy {dst src : List UInt8} {n : Nat} (hs : n ≤ src.length) (i : Nat) :
    byteAt (memcpy dst src n) i = if i < n then byteAt src i else byteAt dst i := by
  simp only [byteAt, memcpy, List.getD_eq_getElem?_getD]
  split
  · rw [List.getElem?_append_left (by simp; omega), List.getElem?_take, if_pos ‹_›]
  · rw [List.getElem?_append_right (by simp; omega), List.getElem?_drop, List.length_take,
      min_eq_left hs]
    congr 2
    omega

theorem load32_memcpy_of_le {dst src : List UInt8} {n off : Nat} (hs : n ≤ src.length)
    (hn : n ≤ off) : load32 (memcpy dst src n) off = load32 dst off := by
  simp only [load32, byteAt_memcpy hs]
  rw [if_neg (by omega), if_neg (by omega), if_neg (by omega), if_neg (by omega)]

theorem take_memcpy {dst src : List UInt8} {n m : Nat} (hs : n ≤ src.length) (hm : m ≤ n) :
    (memcpy dst src n).take m = src.take m := by
  rw [memcpy, List.take_append_of_le_length (by simp; omega), List.take_take, min_eq_left hm]

/-- What `Load32` reads, as a number: the four bytes, lowest first. -/
theorem load32_toNat (bs : List UInt8) (off : Nat) :
    (load32 bs off).toNat = (byteAt bs off).toNat + 2 ^ 8 * (byteAt bs (off + 1)).toNat +
      2 ^ 16 * (byteAt bs (off + 2)).toNat + 2 ^ 24 * (byteAt bs (off + 3)).toNat := by
  have h0 := (byteAt bs off).toNat_lt_size
  have h1 := (byteAt bs (off + 1)).toNat_lt_size
  have h2 := (byteAt bs (off + 2)).toNat_lt_size
  have h3 := (byteAt bs (off + 3)).toNat_lt_size
  simp only [UInt8.size] at h0 h1 h2 h3
  rw [load32, uint32_toNat_ofNat, Nat.mod_eq_of_lt (by omega)]

theorem allocSdsWithSpace_length (len space : Nat) :
    (allocSdsWithSpace z len space).bytes.length = len + 1 + space := by
  simp [allocSdsWithSpace]

@[simp] theorem allocSdsWithSpace_len (len space : Nat) : (allocSdsWithSpace z len space).len = len :=
  rfl

theorem byteAt_allocSdsWithSpace {len space i : Nat} (hi : i < len + 1 + space) (hne : i ≠ len) :
    byteAt (allocSdsWithSpace z len space).bytes i = z.junk i := by
  simp [allocSdsWithSpace, byteAt, List.getD_eq_getElem?_getD, hi, hne]

theorem allocImmutableWithTtl_eq (len : Nat) (atSec : UInt32) :
    (allocImmutableWithTtl z len atSec).bytes =
      ((allocSdsWithSpace z len 4).bytes.take (len + 1)) ++ store32 atSec ++
        (allocSdsWithSpace z len 4).bytes.drop (len + 1 + 4) := rfl

theorem allocImmutableWithTtl_length (len : Nat) (atSec : UInt32) :
    (allocImmutableWithTtl z len atSec).bytes.length = len + 5 := by
  rw [allocImmutableWithTtl_eq]
  simp [allocSdsWithSpace_length, store32]

/-- The TTL `AllocImmutableWithTtl` stores is the word after the NUL. -/
theorem load32_allocImmutableWithTtl (len : Nat) (atSec : UInt32) :
    load32 (allocImmutableWithTtl z len atSec).bytes (len + 1) = atSec := by
  have h := load32_store32 atSec ((allocSdsWithSpace z len 4).bytes.take (len + 1))
    ((allocSdsWithSpace z len 4).bytes.drop (len + 1 + 4))
  rwa [List.length_take, allocSdsWithSpace_length, min_eq_left (by omega),
    ← allocImmutableWithTtl_eq] at h

namespace StringSet

variable {z} (now : UInt32)

/-- A member made with a TTL other than `UINT32_MAX` holds the string, and reads back the TTL
added to `now`; its block has room for the TTL. -/
theorem makeSetSds_ttl (src : List UInt8) {ttlSec : UInt32} (h : ttlSec ≠ uint32Max) :
    (makeSetSds z now src ttlSec).str = src ∧
    objExpireTime (makeSetSds z now src ttlSec) = now + ttlSec ∧
    mayHaveTtl (makeSetSds z now src ttlSec) = true := by
  have hlen := allocImmutableWithTtl_length z src.length (now + ttlSec)
  have hroom : mayHaveTtl (allocImmutableWithTtl z src.length (now + ttlSec)) = true := by
    simpa [mayHaveTtl, allocImmutableWithTtl, allocSdsWithSpace] using z.le_usable (src.length + 1 + 4)
  simp only [makeSetSds, ne_eq, h, not_false_eq_true, if_true]
  split
  · refine ⟨?_, ?_, hroom⟩
    · simp only [Sds.str, allocImmutableWithTtl, allocSdsWithSpace]
      rw [take_memcpy le_rfl le_rfl, List.take_length]
    · simp only [objExpireTime, allocImmutableWithTtl, allocSdsWithSpace]
      rw [load32_memcpy_of_le le_rfl (Nat.le_succ _)]
      exact load32_allocImmutableWithTtl z src.length (now + ttlSec)
  · rename_i hs
    simp only [not_not] at hs
    subst hs
    exact ⟨List.take_zero _, load32_allocImmutableWithTtl z 0 (now + ttlSec), hroom⟩

/-- `ObjectClone(obj, has_ttl = true, add_ttl = false)` passes the absolute expiry of `obj` to
`MakeSetSds` as a TTL: the copy holds the string, and expires `now` seconds later than `obj`. -/
theorem objectClone_ttl (obj : Sds) (h : objExpireTime obj ≠ uint32Max) :
    (objectClone z now obj true false).str = obj.str ∧
    objExpireTime (objectClone z now obj true false) = now + objExpireTime obj :=
  have hm := makeSetSds_ttl (z := z) now obj.str h
  ⟨hm.1, hm.2.1⟩

theorem byte_lt (b : UInt8) : b.toNat < 2 ^ 8 := b.toNat_lt_size

/-- `DuplicateEntryIfFragmented` of a member with a TTL on an underused page: the copy holds the
string, and the three low bytes of the TTL; its top byte is the one the new block held. -/
theorem duplicateEntryIfFragmented_ttl (key : Sds) (hm : mayHaveTtl key = true)
    (hb : key.len + 5 ≤ key.bytes.length) :
    (duplicateEntryIfFragmented z true key).1.str = key.str ∧
    (objExpireTime (duplicateEntryIfFragmented z true key).1).toNat =
      (objExpireTime key).toNat % 2 ^ 24 + 2 ^ 24 * (z.junk (key.len + 4)).toNat := by
  have hs : key.len + 4 ≤ key.bytes.length := by omega
  simp only [duplicateEntryIfFragmented, hm, Bool.not_true, Bool.false_eq_true, if_false, if_true]
  refine ⟨?_, ?_⟩
  · simp only [Sds.str, allocSdsWithSpace_len]
    rw [take_memcpy hs (by omega)]
  · simp only [objExpireTime, allocSdsWithSpace_len]
    rw [load32_toNat, load32_toNat]
    simp only [byteAt_memcpy hs]
    rw [if_pos (by omega), if_pos (by omega), if_pos (by omega), if_neg (by omega),
      show key.len + 1 + 3 = key.len + 4 from rfl, byteAt_allocSdsWithSpace z (by omega) (by omega)]
    have := byte_lt (byteAt key.bytes (key.len + 1))
    have := byte_lt (byteAt key.bytes (key.len + 1 + 1))
    have := byte_lt (byteAt key.bytes (key.len + 1 + 2))
    omega

theorem reallocIfNeeded_underUtilized (obj : Sds) :
    reallocIfNeeded z true obj = (duplicateEntryIfFragmented z true obj).1 := by
  simp only [reallocIfNeeded, duplicateEntryIfFragmented, Bool.not_true, Bool.false_eq_true,
    if_false]
  split <;> rfl

/-! ## Main theorem -/

/-- For every allocator and time `now`: `MakeSetSds` with a TTL other than `UINT32_MAX` that does
not overflow stores the string and reads back `now + ttl_sec`. `ObjectClone` of a member with an
expiry keeps the string but adds `now` to the expiry. `ReallocIfNeeded` of a member with a TTL on an
underused page keeps the string and the three low bytes of the expiry, and takes the top byte from
the new block. -/
theorem setMember_ttl (z : Zmalloc) (now : UInt32) :
    (∀ src ttlSec, ttlSec ≠ uint32Max → now.toNat + ttlSec.toNat < 2 ^ 32 →
      (makeSetSds z now src ttlSec).str = src ∧
      (objExpireTime (makeSetSds z now src ttlSec)).toNat = now.toNat + ttlSec.toNat) ∧
    (∀ obj : Sds, objExpireTime obj ≠ uint32Max →
      (objectClone z now obj true false).str = obj.str ∧
      objExpireTime (objectClone z now obj true false) = now + objExpireTime obj) ∧
    (∀ obj : Sds, mayHaveTtl obj = true → obj.len + 5 ≤ obj.bytes.length →
      (reallocIfNeeded z true obj).str = obj.str ∧
      (objExpireTime (reallocIfNeeded z true obj)).toNat =
        (objExpireTime obj).toNat % 2 ^ 24 + 2 ^ 24 * (z.junk (obj.len + 4)).toNat) := by
  refine ⟨fun src ttlSec h hover => ?_, fun obj h => objectClone_ttl now obj h,
    fun obj hm hb => by
      rw [reallocIfNeeded_underUtilized]; exact duplicateEntryIfFragmented_ttl obj hm hb⟩
  obtain ⟨hstr, httl, -⟩ := makeSetSds_ttl (z := z) now src h
  rw [httl, uint32_toNat_add, Nat.mod_eq_of_lt hover]
  exact ⟨hstr, rfl⟩

/-- An allocator whose new blocks hold zeros, the member `"a"` made at time `5` with TTL `10`:
it expires at `15`, a clone at time `5` at `20`. The member `"a"` with expiry `2^24 + 15` loses
`2^24` when moved. -/
theorem setMember_ttl_zeroBlocks :
    let z : Zmalloc := ⟨id, fun _ => le_rfl, fun _ => 0⟩
    (objExpireTime (makeSetSds z 5 [97] 10)).toNat = 15 ∧
    objExpireTime (objectClone z 5 (makeSetSds z 5 [97] 10) true false) = 20 ∧
    (objExpireTime (reallocIfNeeded z true (makeSetSds z 0 [97] 16777231))).toNat = 15 := by
  intro z
  have H := setMember_ttl z 5
  have H0 := setMember_ttl z 0
  refine ⟨(H.1 [97] 10 (by decide) (by decide)).2, ?_, ?_⟩
  · rw [(H.2.1 _ (by decide)).2]; decide
  · rw [(H0.2.2 _ (by decide) (by decide)).2]; decide

end StringSet

end Dragonfly.Core
