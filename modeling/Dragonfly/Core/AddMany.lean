import Dragonfly.Core.StringSet

/-!
# Adding many members to a `StringSet`

`SADD` and `SADDEX` add their members through `StringSet::AddMany`, which cuts the span into
batches of `kMaxBatchLen` and a remainder, and runs `AddBatch` on each: the hashes of a batch are
computed first, then each member is looked up with its hash and added when missing, or has its
TTL updated. `StringSet::Add` does the same for one member, without the update.

The `DenseSet` under the set is outside the sources. It is modelled by what the string set asks
of it: `FindInternal(&sv, hash, 1)` finds an entry placed with the same hash whose member equals
`sv` (`ObjEqual` with cookie 1), and `AddUnique` appends an entry. Members are the `Sds` of
`Core/StringSet.lean`; `SdsUpdateExpireTime`, also outside the sources, is a parameter that keeps
the member's string. `Reserve` and `Prefetch` change no member and are left out.

## Main theorem

`addMany_eq_add`: for every batch length, set and span, `AddMany` processes the span's members
once each and in order, returns the count of `Add` one by one, and leaves the same members; when
no TTL is updated (`SADD`, `keepttl`, or `legacy_saddex_keepttl`) the entries are the same.
-/

namespace Dragonfly.Core.StringSet

/-- An entry of the `DenseSet`: the member, the hash it was placed with, and its TTL bit. -/
structure Entry where
  obj : Sds
  hash : UInt64
  hasTtl : Bool

/-- The key of an entry as lookups see it: the member's string and its hash. -/
def Entry.key (e : Entry) : List UInt8 × UInt64 := (e.obj.str, e.hash)

variable (z : Zmalloc) (now : UInt32) (hashCode : List UInt8 → UInt64)

/-! ## Algorithm -/

/-- `DenseSet::FindInternal(&sv, hash, 1)` in the entries. -/
def findInternal (m : List Entry) (src : List UInt8) (hash : UInt64) : Option Entry :=
  m.find? fun e => e.hash == hash && e.obj.str == src

/-- `DenseSet::AddUnique(obj, has_ttl, hash)`. -/
def addUnique (m : List Entry) (obj : Sds) (hasTtl : Bool) (hash : UInt64) : List Entry :=
  m ++ [⟨obj, hash, hasTtl⟩]

/-- `StringSet::Add(src, ttl_sec)`: whether the member was added. -/
def add (m : List Entry) (src : List UInt8) (ttlSec : UInt32) : List Entry × Bool :=
  let hash := hashCode src
  match findInternal m src hash with
  | some _ => (m, false)
  | none => (addUnique m (makeSetSds z now src ttlSec) (ttlSec ≠ uint32Max) hash, true)

variable (sdsUpdateExpireTime : Sds → UInt32 → Sds) (updateTtl : Bool)

/-- `StringSet::ObjUpdateExpireTime(prev, ttl_sec)`: `SdsUpdateExpireTime(obj, time_now() +
ttl_sec, 0)` on the entry found. -/
def objUpdateExpireTime (m : List Entry) (prev : Entry) (ttlSec : UInt32) : List Entry :=
  m.map fun e => if e.key = prev.key then { e with obj := sdsUpdateExpireTime e.obj (now + ttlSec) }
    else e

/-- One turn of the second loop of `AddBatch`, with the member's precomputed hash: a missing member
is added and counted; a member found gets the new TTL when `update_ttl` (the negation of
`legacy_saddex_keepttl`), `has_ttl` and `!keepttl` hold. -/
def addBatchStep (ttlSec : UInt32) (keepttl : Bool) (acc : List Entry × Nat)
    (x : List UInt8 × UInt64) : List Entry × Nat :=
  match findInternal acc.1 x.1 x.2 with
  | none => (addUnique acc.1 (makeSetSds z now x.1 ttlSec) (ttlSec ≠ uint32Max) x.2, acc.2 + 1)
  | some prev =>
    (if updateTtl && decide (ttlSec ≠ uint32Max) && !keepttl then
      objUpdateExpireTime now sdsUpdateExpireTime acc.1 prev ttlSec else acc.1, acc.2)

/-- `StringSet::AddBatch(span, ttl_sec, keepttl)`: the hashes of the whole batch first, then the
members one by one. -/
def addBatch (m : List Entry) (span : List (List UInt8)) (ttlSec : UInt32) (keepttl : Bool) :
    List Entry × Nat :=
  let hash := span.map hashCode
  (span.zip hash).foldl (addBatchStep z now sdsUpdateExpireTime updateTtl ttlSec keepttl) (m, 0)

/-- `StringSet::AddMany(span, ttl_sec, keepttl)`: batches of `maxBatchLen` (`kMaxBatchLen`) while
the span holds that many, then the remainder. -/
def addMany (maxBatchLen : Nat) (m : List Entry) (span : List (List UInt8)) (ttlSec : UInt32)
    (keepttl : Bool) : List Entry × Nat :=
  if 0 < maxBatchLen ∧ maxBatchLen ≤ span.length then
    let (m1, r1) := addBatch z now hashCode sdsUpdateExpireTime updateTtl m
      (span.take maxBatchLen) ttlSec keepttl
    let (m2, r2) := addMany maxBatchLen m1 (span.drop maxBatchLen) ttlSec keepttl
    (m2, r1 + r2)
  else if span ≠ [] then addBatch z now hashCode sdsUpdateExpireTime updateTtl m span ttlSec keepttl
  else (m, 0)
termination_by span.length
decreasing_by simp_wf; omega

/-- `Add` on one member, counted when it is added. -/
def addCount (ttlSec : UInt32) (acc : List Entry × Nat) (src : List UInt8) : List Entry × Nat :=
  let (m', added) := add z now hashCode acc.1 src ttlSec
  (m', acc.2 + if added then 1 else 0)

/-- `Add` on the members one by one, in order. -/
def addEach (m : List Entry) (span : List (List UInt8)) (ttlSec : UInt32) : List Entry × Nat :=
  span.foldl (addCount z now hashCode ttlSec) (m, 0)

/-! ## Lemmas -/

variable {z now hashCode sdsUpdateExpireTime updateTtl}

/-- A step adds its count to the count it started with. -/
theorem addBatchStep_count (ttlSec : UInt32) (keepttl : Bool) (m : List Entry) (c : Nat)
    (x : List UInt8 × UInt64) :
    addBatchStep z now sdsUpdateExpireTime updateTtl ttlSec keepttl (m, c) x =
      ((addBatchStep z now sdsUpdateExpireTime updateTtl ttlSec keepttl (m, 0) x).1,
        c + (addBatchStep z now sdsUpdateExpireTime updateTtl ttlSec keepttl (m, 0) x).2) := by
  cases h : findInternal m x.1 x.2 <;> simp [addBatchStep, h]

/-- So does a run of steps. -/
theorem foldl_addBatchStep_count (ttlSec : UInt32) (keepttl : Bool) :
    ∀ (xs : List (List UInt8 × UInt64)) (m : List Entry) (c : Nat),
      xs.foldl (addBatchStep z now sdsUpdateExpireTime updateTtl ttlSec keepttl) (m, c) =
        ((xs.foldl (addBatchStep z now sdsUpdateExpireTime updateTtl ttlSec keepttl) (m, 0)).1,
          c + (xs.foldl (addBatchStep z now sdsUpdateExpireTime updateTtl ttlSec keepttl) (m, 0)).2)
  | [], m, c => rfl
  | x :: xs, m, c => by
    simp only [List.foldl_cons]
    rw [addBatchStep_count, foldl_addBatchStep_count ttlSec keepttl xs,
      addBatchStep_count _ _ m 0 x, foldl_addBatchStep_count ttlSec keepttl xs _ (0 + _)]
    simp only [Nat.zero_add, Nat.add_assoc]

/-- The batch's hashes are those of its members. -/
theorem zip_map_self {α β : Type} (f : α → β) : ∀ xs : List α, xs.zip (xs.map f) = xs.map fun x => (x, f x)
  | [] => rfl
  | x :: xs => by simp [zip_map_self f xs]

/-- `AddBatch` is the run of its steps over the members with their hashes. -/
theorem addBatch_eq (m : List Entry) (span : List (List UInt8)) (ttlSec : UInt32) (keepttl : Bool) :
    addBatch z now hashCode sdsUpdateExpireTime updateTtl m span ttlSec keepttl =
      (span.map fun x => (x, hashCode x)).foldl
        (addBatchStep z now sdsUpdateExpireTime updateTtl ttlSec keepttl) (m, 0) := by
  rw [addBatch, zip_map_self]

/-- The batches of `AddMany` cover the span once, in order: `AddMany` is the run of the steps of
`AddBatch` over the whole span. -/
theorem addMany_eq_foldl {n : Nat} (hn : 0 < n) (ttlSec : UInt32) (keepttl : Bool) :
    ∀ (span : List (List UInt8)) (m : List Entry),
      addMany z now hashCode sdsUpdateExpireTime updateTtl n m span ttlSec keepttl =
        (span.map fun x => (x, hashCode x)).foldl
          (addBatchStep z now sdsUpdateExpireTime updateTtl ttlSec keepttl) (m, 0)
  | span, m => by
    rw [addMany]
    split
    · rename_i h
      conv_rhs => rw [← List.take_append_drop n span, List.map_append, List.foldl_append,
        ← addBatch_eq]
      rcases addBatch z now hashCode sdsUpdateExpireTime updateTtl m (span.take n) ttlSec keepttl
        with ⟨m1, r1⟩
      dsimp only
      rw [addMany_eq_foldl hn ttlSec keepttl (span.drop n) m1,
        foldl_addBatchStep_count ttlSec keepttl _ m1 r1]
    · split
      · exact addBatch_eq m span ttlSec keepttl
      · rename_i h; simp only [ne_eq, not_not] at h; subst h; rfl
termination_by span => span.length
decreasing_by simp_wf; omega

/-- Whether a lookup finds something depends only on the keys of the entries. -/
theorem findInternal_isSome (m : List Entry) (src : List UInt8) (h : UInt64) :
    (findInternal m src h).isSome = decide ((src, h) ∈ m.map Entry.key) := by
  rw [Bool.eq_iff_iff, findInternal, List.find?_isSome]
  simp [Entry.key, and_comm]

/-- Updating a TTL keeps every key. -/
theorem objUpdateExpireTime_keys (hupd : ∀ s t, (sdsUpdateExpireTime s t).str = s.str)
    (m : List Entry) (prev : Entry) (ttlSec : UInt32) :
    (objUpdateExpireTime now sdsUpdateExpireTime m prev ttlSec).map Entry.key = m.map Entry.key := by
  simp only [objUpdateExpireTime, List.map_map]
  refine List.map_congr_left fun e _ => ?_
  simp only [Function.comp_apply]
  split <;> simp [Entry.key, hupd]

section Step

variable (hupd : ∀ s t, (sdsUpdateExpireTime s t).str = s.str) (ttlSec : UInt32) (keepttl : Bool)
include hupd

/-- A step of `AddBatch` and `Add` on the same member, from states with the same keys and
count, give states with the same keys and count. -/
theorem addBatchStep_keys {A B : List Entry × Nat} (hA : A.1.map Entry.key = B.1.map Entry.key)
    (hc : A.2 = B.2) (src : List UInt8) :
    (addBatchStep z now sdsUpdateExpireTime updateTtl ttlSec keepttl A (src, hashCode src)).1.map
        Entry.key = (addCount z now hashCode ttlSec B src).1.map Entry.key ∧
      (addBatchStep z now sdsUpdateExpireTime updateTtl ttlSec keepttl A (src, hashCode src)).2 =
        (addCount z now hashCode ttlSec B src).2 := by
  have hf := findInternal_isSome A.1 src (hashCode src)
  rw [hA, ← findInternal_isSome] at hf
  cases hA' : findInternal A.1 src (hashCode src) <;> cases hB' : findInternal B.1 src (hashCode src) <;>
    simp only [hA', hB', Option.isSome_none, Option.isSome_some, Bool.false_eq_true,
      reduceCtorEq] at hf <;>
    simp only [addBatchStep, addCount, add, hA', hB']
  · simp [addUnique, hA, hc]
  · refine ⟨?_, by simp [hc]⟩
    split
    · exact (objUpdateExpireTime_keys hupd _ _ _).trans hA
    · exact hA

/-- The runs of both from states with the same keys and count end with the same keys and
count. -/
theorem foldl_addBatchStep_keys : ∀ (span : List (List UInt8)) (A B : List Entry × Nat),
    A.1.map Entry.key = B.1.map Entry.key → A.2 = B.2 →
      ((span.map fun x => (x, hashCode x)).foldl
          (addBatchStep z now sdsUpdateExpireTime updateTtl ttlSec keepttl) A).1.map Entry.key =
        (span.foldl (addCount z now hashCode ttlSec) B).1.map Entry.key ∧
      ((span.map fun x => (x, hashCode x)).foldl
          (addBatchStep z now sdsUpdateExpireTime updateTtl ttlSec keepttl) A).2 =
        (span.foldl (addCount z now hashCode ttlSec) B).2
  | [], _, _, hA, hc => ⟨hA, hc⟩
  | src :: span, A, B, hA, hc => by
    obtain ⟨hA', hc'⟩ := addBatchStep_keys hupd ttlSec keepttl hA hc src
    exact foldl_addBatchStep_keys span _ _ hA' hc'

end Step

/-- Without a TTL update, a step of `AddBatch` is a step of `Add`. -/
theorem addBatchStep_eq (ttlSec : UInt32) (keepttl : Bool)
    (hno : (updateTtl && decide (ttlSec ≠ uint32Max) && !keepttl) = false) (A : List Entry × Nat)
    (src : List UInt8) :
    addBatchStep z now sdsUpdateExpireTime updateTtl ttlSec keepttl A (src, hashCode src) =
      addCount z now hashCode ttlSec A src := by
  cases h : findInternal A.1 src (hashCode src) <;> simp only [addBatchStep, addCount, add, h, hno] <;>
    simp

/-- `StringSet::AddMany` against `StringSet::Add` one by one, for every batch length, set, span,
TTL and `keepttl`: `AddMany` runs the steps of `AddBatch` over the span's members once each and
in order, counts what `Add` counts and leaves the same members; without a TTL update
(`update_ttl`, a TTL and `!keepttl` not all holding) the entries are equal. -/
theorem addMany_eq_add {n : Nat} (hn : 0 < n)
    (hupd : ∀ s t, (sdsUpdateExpireTime s t).str = s.str) (m : List Entry)
    (span : List (List UInt8)) (ttlSec : UInt32) (keepttl : Bool) :
    addMany z now hashCode sdsUpdateExpireTime updateTtl n m span ttlSec keepttl =
        (span.map fun x => (x, hashCode x)).foldl
          (addBatchStep z now sdsUpdateExpireTime updateTtl ttlSec keepttl) (m, 0) ∧
      (addMany z now hashCode sdsUpdateExpireTime updateTtl n m span ttlSec keepttl).2 =
        (addEach z now hashCode m span ttlSec).2 ∧
      (addMany z now hashCode sdsUpdateExpireTime updateTtl n m span ttlSec keepttl).1.map
        Entry.key = (addEach z now hashCode m span ttlSec).1.map Entry.key ∧
      ((updateTtl && decide (ttlSec ≠ uint32Max) && !keepttl) = false →
        (addMany z now hashCode sdsUpdateExpireTime updateTtl n m span ttlSec keepttl).1 =
          (addEach z now hashCode m span ttlSec).1) := by
  rw [addMany_eq_foldl hn]
  obtain ⟨hk, hc⟩ := foldl_addBatchStep_keys hupd ttlSec keepttl span (m, 0) (m, 0) rfl rfl
  refine ⟨rfl, hc, hk, fun hno => ?_⟩
  rw [List.foldl_map, addEach]
  exact congrArg (fun f => (span.foldl f (m, 0)).1)
    (funext₂ fun A src => addBatchStep_eq ttlSec keepttl hno A src)

/-- Batches of two over five members, with a duplicate inside the first batch and one across
batches, and a hash that collides for members of one length: three are added. -/
theorem addMany_eq_add_fiveMembers :
    0 < 2 ∧ (∀ (s : Sds) (_ : UInt32), s.str = s.str) ∧
      (addMany ⟨id, Nat.le_refl, fun _ => 0⟩ 0 (fun s => s.length.toUInt64) (fun s _ => s) true 2
        [] [[1], [1], [2], [1], [3, 4]] uint32Max false).2 = 3 :=
  ⟨by decide, fun _ _ => rfl,
    (addMany_eq_add (n := 2) (by decide) (fun _ _ => rfl) [] _ _ _).2.1.trans (by decide)⟩

end Dragonfly.Core.StringSet
