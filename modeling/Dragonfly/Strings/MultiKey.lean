import Dragonfly.Strings.SetCmd

/-!
# Commands over keys on several shards

`MSETNX` and `MGET` take keys that `Shard(key, shard_count)` spreads over the shards; each shard
runs its callback on its own keys (`GetShardArgs`), in command order.

`MGet` runs `OpMGet` on every shard in one hop. Its `CollectKeys` looks the keys up first (with
`mget_dedup_keys`, a duplicate only points at its first occurrence), sums the sizes found into
`total_size`, then copies each value found into `storage` one after the other and answers by a
view of the copy. `ReorderShardResults` puts the answers back at the indices of their keys. The
type of a value is a parameter (`isString`); values in tiered storage and the memcache fields are
not modelled.

`MSetNx` runs two hops. The first looks each key up (`FindReadOnly`) until one is found; the
second, unless a key was found on some shard, runs `OpMSet` on every shard. The reply is `0` when
a key was found or some `OpMSet` failed, else `1`. An `OpMSet` that stops with `OUT_OF_MEMORY`
keeps the pairs it stored before, and the other shards keep theirs.

What a read sees of a key is `DbTable.readValue`: the value of a key that is there and whose
deadline has not passed (where keys expire). A lookup changes nothing a read sees; it may only
delete a key whose deadline passed.

## Main theorems

`mget_reads_at_hop`: the reply of `MGET` holds at each index what `GET` of that key answers at the
hop, with or without `mget_dedup_keys`, and every answer views its own slice of `storage`.

`msetNx_writes_on_failure`: a key found on any shard gives `0` and changes nothing a read sees;
otherwise every shard's table is what `OpMSet` leaves, and the reply is `1` exactly when every
`OpMSet` answered `OK`.
-/

namespace Dragonfly.Keys.DbTable

variable (t : DbTable)

/-- Whether `ExpireIfNeeded` would delete `k`: its deadline passed, where keys expire. -/
def expired (c : Ctx) (k : String) : Bool :=
  match t.expire k with
  | some d => decide (d ≤ c.nowMs) && c.expireAllowed
  | none => false

/-- What a read of `k` at `c.nowMs` sees: the value of a key that is there, unless its value has
`HasExpire` and its deadline passed. -/
def readValue (c : Ctx) (k : String) : Option String :=
  match t.prime k with
  | none => none
  | some s => if s.value.hasExpire && t.expired c k then none else some s.value.str

variable {t} {c : Ctx} {k : String}

/-! ## Lemmas -/

/-- Everything a lookup can do: find nothing, find the key and change nothing, or delete it
because its deadline passed. -/
theorem findInternal_cases :
    (t.findInternal c k = (t, [], none) ∧ t.readValue c k = none) ∨
    (∃ s, t.findInternal c k = (t, [], some s) ∧ t.readValue c k = some s.value.str) ∨
    (∃ s, t.prime k = some s ∧
      t.findInternal c k = (t.performDeletionAtomic c.sz k true, [.expired k], none) ∧
      t.readValue c k = none) := by
  cases hp : t.prime k with
  | none => exact .inl ⟨by simp [findInternal, hp], by simp [readValue, hp]⟩
  | some s =>
    cases hb : s.value.hasExpire
    · exact .inr (.inl ⟨s, by simp [findInternal, hp, hb], by simp [readValue, hp, hb]⟩)
    cases he : t.expire k with
    | none =>
      exact .inr (.inl ⟨s, by simp [findInternal, expireIfNeeded, hp, hb, he],
        by simp [readValue, expired, hp, hb, he]⟩)
    | some d =>
      by_cases hl : c.nowMs < d ∨ c.expireAllowed = false
      · refine .inr (.inl ⟨s, by simp [findInternal, expireIfNeeded, hp, hb, he, hl], ?_⟩)
        simp only [readValue, expired, hp, hb, he, Bool.true_and]
        rw [if_neg]
        rcases hl with hl | hl <;> simp [hl]
      · refine .inr (.inr ⟨s, rfl, by simp [findInternal, expireIfNeeded, hp, hb, he, hl], ?_⟩)
        simp only [not_or, Bool.not_eq_false] at hl
        simp [readValue, expired, hp, hb, he, hl.2, le_of_not_lt hl.1]

/-- Deleting a key that reads as nothing changes nothing a read sees. -/
theorem readValue_performDeletionAtomic {s : Slot} (hp : t.prime k = some s)
    (hr : t.readValue c k = none) (k' : String) :
    (t.performDeletionAtomic c.sz k true).readValue c k' = t.readValue c k' := by
  by_cases h : k' = k
  · subst h; rw [hr]; simp [readValue, performDeletionAtomic_prime _ hp]
  · simp [readValue, expired, performDeletionAtomic_prime _ hp, performDeletionAtomic_expire _ hp, h]

/-- A lookup changes nothing a read sees. -/
theorem readValue_findInternal (k' : String) :
    (t.findInternal c k).1.readValue c k' = t.readValue c k' := by
  rcases findInternal_cases (t := t) (c := c) (k := k) with ⟨h, -⟩ | ⟨s, h, -⟩ | ⟨s, hp, h, hr⟩
  · rw [h]
  · rw [h]
  · rw [h]; exact readValue_performDeletionAtomic hp hr k'

/-- A lookup finds exactly what a read sees. -/
theorem findInternal_readValue :
    (t.findInternal c k).2.2.map (·.value.str) = t.readValue c k := by
  rcases findInternal_cases (t := t) (c := c) (k := k) with ⟨h, hr⟩ | ⟨s, h, hr⟩ | ⟨s, -, h, hr⟩ <;>
    rw [h, hr] <;> rfl

end Dragonfly.Keys.DbTable

namespace Dragonfly.Strings

open Keys

/-- A shard's part of `MSETNX`: its table, whether it journals, its pairs in command order
(`GetShardArgs`), and what `InsertNew` does for each key. -/
structure MSetShard where
  table : DbTable
  journal : Bool
  pairs : List (String × String)
  ins : String → Insertion

/-! ## Algorithm -/

/-- The first hop of `MSetNx` on one shard: `FindReadOnly` on each key until one is found;
whether one was. -/
def msetNxFind (c : Ctx) : DbTable → List (String × String) → DbTable × List JournalEntry × Bool
  | t, [] => (t, [], false)
  | t, (k, _) :: kvs =>
    match t.findInternal c k with
    | (t1, j1, some _) => (t1, j1, true)
    | (t1, j1, none) =>
      let (t2, j2, found) := msetNxFind c t1 kvs
      (t2, j1 ++ j2, found)

/-- The second hop of `MSetNx` on one shard, after the first left `f`: `OpMSet` unless a key was
found on some shard. -/
def msetNxSet (c : Ctx) (toSkip : Bool) (sh : MSetShard) (f : DbTable × List JournalEntry × Bool) :
    DbTable × List JournalEntry × OpStatus :=
  if toSkip then (f.1, f.2.1, .ok)
  else
    let (t, j, r) := opMSet c sh.ins sh.journal f.1 sh.pairs
    (t, f.2.1 ++ j, r)

/-- `MSetNx`: the tables and journals of the shards, and the reply. -/
def msetNx (c : Ctx) (shards : List MSetShard) : List (DbTable × List JournalEntry) × Nat :=
  let toSkip := shards.any fun sh => (msetNxFind c sh.table sh.pairs).2.2
  let hop := shards.map fun sh => msetNxSet c toSkip sh (msetNxFind c sh.table sh.pairs)
  (hop.map fun h => (h.1, h.2.1), if toSkip || hop.any (fun h => decide (h.2.2 ≠ .ok)) then 0 else 1)

/-- What `GET` of `k` answers: the string a read sees, nothing for a value of another type
(`isString`, the type of each key's value, which the tables here do not hold). -/
def readString (c : Ctx) (isString : String → Bool) (t : DbTable) (k : String) : Option String :=
  if isString k then t.readValue c k else none

/-- `DbSlice::FindReadOnly(key, OBJ_STRING)`: a value of another type answers `WRONG_TYPE` before
any expiry. -/
def findReadOnlyString (c : Ctx) (isString : String → Bool) (t : DbTable) (k : String) :
    DbTable × List JournalEntry × Option Slot :=
  match t.prime k with
  | some _ => if isString k then t.findInternal c k else (t, [], none)
  | none => (t, [], none)

/-- An entry of `CollectKeys`' `items`: the value its iterator points at, and `source_index`, the
first occurrence of a duplicate key. -/
structure Item where
  it : Option String
  sourceIndex : Option Nat

/-- The first loop of `CollectKeys` from `index` on: with `mget_dedup_keys`, a key already in
`key_index` only points at its first occurrence; any other is looked up, and the size of what it
finds is added to `total_size`. -/
def collectFind (c : Ctx) (isString : String → Bool) (dedup : Bool) :
    DbTable → List (String × Nat) → Nat → List String →
      DbTable × List JournalEntry × List Item × Nat
  | t, _, _, [] => (t, [], [], 0)
  | t, keyIndex, index, key :: keys =>
    match (if dedup then keyIndex.lookup key else none) with
    | some src =>
      let (t1, j1, items, total) := collectFind c isString dedup t keyIndex (index + 1) keys
      (t1, j1, ⟨none, some src⟩ :: items, total)
    | none =>
      let (t1, j1, found) := findReadOnlyString c isString t key
      let v := found.map (·.value.str)
      let (t2, j2, items, total) := collectFind c isString dedup t1
        (if dedup then (key, index) :: keyIndex else keyIndex) (index + 1) keys
      (t2, j1 ++ j2, ⟨v, none⟩ :: items, (v.map String.length).getD 0 + total)

/-- `CopyValueToBuffer(value, next)`: the value's bytes written into `storage` at `next`. -/
def copyAt (storage : List Char) (next : Nat) (v : String) : List Char :=
  storage.take next ++ v.data ++ storage.drop (next + v.length)

/-- `GetResp::value`, a `string_view` into the shard's `storage`: its offset and size. -/
structure GetResp where
  offset : Nat
  size : Nat
  deriving DecidableEq, Repr

/-- The second loop of `CollectKeys` from position `i` on: a found value is copied at `next` and
answered by the view of its copy; a duplicate takes the answer of its first occurrence; anything
else stays unanswered. -/
def collectCopy : Nat → List Item → (Nat → Option GetResp) → Nat → List Char →
    (Nat → Option GetResp) × List Char
  | _, [], resp, _, storage => (resp, storage)
  | i, item :: items, resp, next, storage =>
    match item.it with
    | some v =>
      collectCopy (i + 1) items (Function.update resp i (some ⟨next, v.length⟩)) (next + v.length)
        (copyAt storage next v)
    | none =>
      match item.sourceIndex with
      | some src => collectCopy (i + 1) items (Function.update resp i (resp src)) next storage
      | none => collectCopy (i + 1) items resp next storage

/-- `OpMGet`: `CollectKeys` with `FindReadOnly(key, OBJ_STRING)` on one shard's keys. `storage`
is allocated with `total_size` zero bytes. The table and journal after the lookups, the answers
by position, and `storage`. -/
def opMGet (c : Ctx) (isString : String → Bool) (dedup : Bool) (t : DbTable) (keys : List String) :
    DbTable × List JournalEntry × (Nat → Option GetResp) × List Char :=
  let (t1, j1, items, totalSize) := collectFind c isString dedup t [] 0 keys
  let (resp, storage) :=
    collectCopy 0 items (fun _ => none) 0 (List.replicate totalSize (Char.ofNat 0))
  (t1, j1, resp, storage)

/-- `Transaction::GetShardArgs(sid)` for the keys `args`: those that `shardOf` (`Shard(key,
shard_count)`) puts on `sid`, with their indices in the command (`it.index()`), in command
order. -/
def shardArgs (shardOf : String → Nat) (args : List String) (sid : Nat) : List (Nat × String) :=
  args.enum.filter fun p => shardOf p.2 = sid

/-- The inner loop of `ReorderShardResults` for shard `sid`: each answer of the shard, from
position `srcIndx` on, is moved to the index of its key in the command. -/
def reorderShard (sid : Nat) (resp : Nat → Option GetResp) :
    Nat → List (Nat × String) → (Nat → Option (Nat × GetResp)) → Nat → Option (Nat × GetResp)
  | _, [], dest => dest
  | srcIndx, (indx, _) :: args, dest =>
    reorderShard sid resp (srcIndx + 1) args
      (match resp srcIndx with
       | some r => Function.update dest indx (some (sid, r))
       | none => dest)

/-- `MGet` for the Redis protocol: `OpMGet` on every shard in one hop, then
`ReorderShardResults` over the shards in order; the reply holds, at each index of the command,
the bytes its answer views in the storage of the shard that answered, or null. -/
def mget (c : Ctx) (isString : String → Bool) (dedup : Bool) (shardOf : String → Nat)
    (numShards : Nat) (tables : Nat → DbTable) (args : List String) :
    (Nat → DbTable × List JournalEntry) × List (Option String) :=
  let hop := fun sid =>
    opMGet c isString dedup (tables sid) ((shardArgs shardOf args sid).map (·.2))
  let dest := (List.range numShards).foldl
    (fun dest sid => reorderShard sid (hop sid).2.2.1 0 (shardArgs shardOf args sid) dest)
    (fun _ => none)
  (fun sid => ((hop sid).1, (hop sid).2.1),
    (List.range args.length).map fun i =>
      (dest i).map fun r => String.mk (((hop r.1).2.2.2.drop r.2.offset).take r.2.size))

/-! ## Lemmas -/

section MSetNx

variable {c : Ctx}

/-- The first hop changes nothing a read sees. -/
theorem msetNxFind_readValue : ∀ (t : DbTable) (kvs : List (String × String)) (k : String),
    (msetNxFind c t kvs).1.readValue c k = t.readValue c k
  | _, [], _ => rfl
  | t, (k, _) :: kvs, k' => by
    have h1 := DbTable.readValue_findInternal (t := t) (c := c) (k := k) k'
    unfold msetNxFind
    split
    · rename_i heq; rw [heq] at h1; exact h1
    · rename_i heq; rw [heq] at h1; rw [msetNxFind_readValue _ kvs k', h1]

/-- The first hop finds a key exactly when one of the shard's keys reads as something. -/
theorem msetNxFind_found : ∀ (t : DbTable) (kvs : List (String × String)),
    (msetNxFind c t kvs).2.2 = true ↔ ∃ kv ∈ kvs, (t.readValue c kv.1).isSome
  | _, [] => by simp [msetNxFind]
  | t, (k, v) :: kvs => by
    have hf := DbTable.findInternal_readValue (t := t) (c := c) (k := k)
    have hr := fun k' => DbTable.readValue_findInternal (t := t) (c := c) (k := k) k'
    unfold msetNxFind
    split
    · rename_i heq; rw [heq] at hf
      simp only [true_iff]
      exact ⟨(k, v), List.mem_cons_self _ _, by rw [← hf]; rfl⟩
    · rename_i heq; rw [heq] at hf hr
      simp only [msetNxFind_found _ kvs, hr, List.mem_cons, exists_eq_or_imp]
      rw [← hf]; simp

/-- `MSetNx` on shards holding a key gives `0` and changes nothing a read sees; on shards holding
none, every shard's table and journal are those `OpMSet` leaves after the first hop, and the reply
is `1` exactly when every `OpMSet` answered `OK`. -/
theorem msetNx_writes_on_failure (shards : List MSetShard) :
    ((∃ sh ∈ shards, ∃ kv ∈ sh.pairs, (sh.table.readValue c kv.1).isSome) →
      (msetNx c shards).2 = 0 ∧
      (msetNx c shards).1 = shards.map (fun sh =>
        ((msetNxFind c sh.table sh.pairs).1, (msetNxFind c sh.table sh.pairs).2.1)) ∧
      ∀ sh ∈ shards, ∀ k, (msetNxFind c sh.table sh.pairs).1.readValue c k = sh.table.readValue c k) ∧
    ((∀ sh ∈ shards, ∀ kv ∈ sh.pairs, sh.table.readValue c kv.1 = none) →
      (msetNx c shards).1 = shards.map (fun sh =>
        let f := msetNxFind c sh.table sh.pairs
        let r := opMSet c sh.ins sh.journal f.1 sh.pairs
        (r.1, f.2.1 ++ r.2.1)) ∧
      ((msetNx c shards).2 = 1 ↔ ∀ sh ∈ shards,
        (opMSet c sh.ins sh.journal (msetNxFind c sh.table sh.pairs).1 sh.pairs).2.2 = .ok)) := by
  have hskip : shards.any (fun sh => (msetNxFind c sh.table sh.pairs).2.2) = true ↔
      ∃ sh ∈ shards, ∃ kv ∈ sh.pairs, (sh.table.readValue c kv.1).isSome := by
    simp only [List.any_eq_true, msetNxFind_found]
  refine ⟨fun h => ?_, fun h => ?_⟩
  · rw [← hskip] at h
    refine ⟨by simp [msetNx, h], by simp [msetNx, msetNxSet, h], fun sh _ => msetNxFind_readValue _ _⟩
  · have h' : shards.any (fun sh => (msetNxFind c sh.table sh.pairs).2.2) = false := by
      rw [Bool.eq_false_iff, ne_eq, hskip]
      rintro ⟨sh, hsh, kv, hkv, hr⟩
      rw [h sh hsh kv hkv] at hr; cases hr
    refine ⟨by simp [msetNx, msetNxSet, h'], ?_⟩
    simp [msetNx, msetNxSet, h']

/-- `MSETNX a 1 b 2` on an empty shard where the insertion of `b` is rejected: the reply is `0`,
and `a`, absent before, now reads `1`. -/
theorem msetNx_writes_on_failure_oom :
    let c0 : Ctx := ⟨0, true, ⟨fun _ => true, fun _ => 0, fun _ => 0, rfl⟩⟩
    let sh : MSetShard := ⟨DbTable.empty, false, [("a", "1"), ("b", "2")],
      fun k => if k = "b" then .rejected else .inserted none⟩
    (∀ sh' ∈ [sh], ∀ kv ∈ sh'.pairs, sh'.table.readValue c0 kv.1 = none) ∧
      (msetNx c0 [sh]).2 = 0 ∧ sh.table.readValue c0 "a" = none ∧
      ((msetNx c0 [sh]).1.map fun r => r.1.readValue c0 "a") = [some "1"] := by
  intro c0 sh
  have h : ∀ sh' ∈ [sh], ∀ kv ∈ sh'.pairs, sh'.table.readValue c0 kv.1 = none := by
    simp [sh, DbTable.readValue, DbTable.empty]
  refine ⟨h, rfl, rfl, ?_⟩
  rw [((msetNx_writes_on_failure (c := c0) [sh]).2 h).1]
  rfl

end MSetNx

section MGet

variable {c : Ctx} {isString : String → Bool} {dedup : Bool}

theorem readString_congr {t t' : DbTable} (h : ∀ k, t'.readValue c k = t.readValue c k)
    (k : String) : readString c isString t' k = readString c isString t k := by
  simp [readString, h]

/-- A typed lookup changes nothing a read sees. -/
theorem readValue_findReadOnlyString (t : DbTable) (k k' : String) :
    (findReadOnlyString c isString t k).1.readValue c k' = t.readValue c k' := by
  unfold findReadOnlyString
  split
  · split
    · exact DbTable.readValue_findInternal k'
    · rfl
  · rfl

/-- A typed lookup finds exactly what `GET` answers. -/
theorem findReadOnlyString_found (t : DbTable) (k : String) :
    (findReadOnlyString c isString t k).2.2.map (·.value.str) = readString c isString t k := by
  unfold findReadOnlyString readString
  split
  · split
    · exact DbTable.findInternal_readValue
    · rfl
  · rename_i hp; simp [DbTable.readValue, hp]

/-- What the first loop of `CollectKeys` guarantees of the item at position `i`, where `vals` are
the values `GET` answers for the keys: a found value is that value; a duplicate points at an
earlier position with the same value; an item with neither has no value. -/
def ItemOk (vals : Nat → Option String) (dedup : Bool) (i : Nat) (it : Item) : Prop :=
  match it.it, it.sourceIndex with
  | some v, _ => vals i = some v
  | none, some src => dedup = true ∧ src < i ∧ vals src = vals i
  | none, none => vals i = none

/-- `ItemOk` for the items from position `i` on. -/
def ItemsOk (vals : Nat → Option String) (dedup : Bool) : Nat → List Item → Prop
  | _, [] => True
  | i, it :: its => ItemOk vals dedup i it ∧ ItemsOk vals dedup (i + 1) its

/-- The sizes of the values the items found: `total_size`. -/
def sizeSum (items : List Item) : Nat := (items.map fun it => (it.it.map String.length).getD 0).sum

theorem itemOk_found {vals : Nat → Option String} {i : Nat} {v : Option String}
    (h : vals i = v) : ItemOk vals dedup i ⟨v, none⟩ := by
  cases v <;> exact h

/-- The first loop of `CollectKeys` from a table that reads as `t0`: the table still reads as
`t0`, every item is `ItemOk` for the values `GET` answers on `t0`, and the total is the sum of
the sizes found. -/
theorem collectFind_spec (t0 : DbTable) (vals : Nat → Option String) :
    ∀ (keys : List String) (t : DbTable) (keyIndex : List (String × Nat)) (index : Nat),
    (∀ k, t.readValue c k = t0.readValue c k) →
    (∀ p < keys.length, vals (index + p) = readString c isString t0 (keys.getD p "")) →
    (∀ key src, keyIndex.lookup key = some src →
      src < index ∧ vals src = readString c isString t0 key) →
    (∀ k, (collectFind c isString dedup t keyIndex index keys).1.readValue c k =
      t0.readValue c k) ∧
    ItemsOk vals dedup index (collectFind c isString dedup t keyIndex index keys).2.2.1 ∧
    (collectFind c isString dedup t keyIndex index keys).2.2.1.length = keys.length ∧
    (collectFind c isString dedup t keyIndex index keys).2.2.2 =
      sizeSum (collectFind c isString dedup t keyIndex index keys).2.2.1
  | [], t, _, _, ht, _, _ => ⟨ht, trivial, rfl, rfl⟩
  | key :: keys, t, keyIndex, index, ht, hv, hk => by
    have hv0 : vals index = readString c isString t0 key := hv 0 (by simp)
    have hvs : ∀ p < keys.length, vals (index + 1 + p) = readString c isString t0 (keys.getD p "") :=
      fun p hp => by rw [Nat.add_assoc, Nat.add_comm 1 p]; exact hv (p + 1) (by simp; omega)
    unfold collectFind
    split
    · rename_i src hsrc
      have hd : dedup = true := by cases dedup <;> simp_all
      rw [if_pos hd] at hsrc
      obtain ⟨hlt, hsv⟩ := hk key src hsrc
      obtain ⟨h1, h2, h3, h4⟩ := collectFind_spec t0 vals keys t keyIndex (index + 1) ht hvs
        fun k s hks => (hk k s hks).imp_left (by omega)
      exact ⟨h1, ⟨⟨hd, hlt, hsv.trans hv0.symm⟩, h2⟩, by simp [h3], by simp [h4, sizeSum]⟩
    · have hf := @findReadOnlyString_found c isString t key
      rw [readString_congr ht] at hf
      obtain ⟨h1, h2, h3, h4⟩ := collectFind_spec t0 vals keys
        (findReadOnlyString c isString t key).1
        (if dedup then (key, index) :: keyIndex else keyIndex) (index + 1)
        (fun k => (readValue_findReadOnlyString t key k).trans (ht k)) hvs (fun k s hks => by
          split at hks
          · rw [List.lookup_cons] at hks
            split at hks
            · rename_i hkk; cases hks; rw [beq_iff_eq] at hkk; subst hkk
              exact ⟨by omega, hv0⟩
            · exact (hk k s hks).imp_left (by omega)
          · exact (hk k s hks).imp_left (by omega))
      exact ⟨h1, ⟨itemOk_found (hv0.trans hf.symm), h2⟩, by simp [h3], by simp [h4, sizeSum]⟩

theorem copyAt_length (storage : List Char) (next : Nat) (v : String)
    (h : next + v.length ≤ storage.length) : (copyAt storage next v).length = storage.length := by
  have hv : v.length = v.data.length := rfl
  simp only [copyAt, List.length_append, List.length_take, List.length_drop, ← hv]
  omega

/-- The copy reads back at its offset. -/
theorem copyAt_slice_self (storage : List Char) (next : Nat) (v : String)
    (h : next + v.length ≤ storage.length) :
    ((copyAt storage next v).drop next).take v.length = v.data := by
  have hv : v.length = v.data.length := rfl
  rw [copyAt, List.append_assoc, List.drop_append_of_le_length (by simp; omega),
    List.drop_eq_nil_of_le (by simp), List.nil_append, hv, List.take_left]

/-- A copy at `next` leaves every slice below `next`. -/
theorem copyAt_slice_below (storage : List Char) (next : Nat) (v : String) {o n : Nat}
    (h : o + n ≤ next) (hl : next ≤ storage.length) :
    ((copyAt storage next v).drop o).take n = (storage.drop o).take n := by
  rw [copyAt, List.append_assoc, List.drop_append_of_le_length (by simp; omega),
    List.take_append_of_le_length (by simp; omega), List.drop_take, List.take_take,
    min_eq_left (by omega)]

/-- What the second loop of `CollectKeys` keeps before position `i`, writing at `next`: later
positions are unanswered; an answer views a slice below `next` that holds the value `GET`
answers; an unanswered position has no value; two answers are disjoint slices in order or, with
`mget_dedup_keys`, possibly the same slice. -/
structure CopyInv (vals : Nat → Option String) (dedup : Bool) (i : Nat)
    (resp : Nat → Option GetResp) (next : Nat) (storage : List Char) : Prop where
  fresh : ∀ j, i ≤ j → resp j = none
  answered : ∀ j a, resp j = some a →
    a.offset + a.size ≤ next ∧ vals j = some (String.mk ((storage.drop a.offset).take a.size))
  unanswered : ∀ j < i, resp j = none → vals j = none
  separate : ∀ j j' a b, j < j' → resp j = some a → resp j' = some b →
    (dedup = false → a.offset + a.size ≤ b.offset) ∧
      (a = b ∨ a.offset + a.size ≤ b.offset ∨ b.offset + b.size ≤ a.offset)
  room : next ≤ storage.length

namespace CopyInv

variable {vals : Nat → Option String} {i next : Nat} {resp : Nat → Option GetResp}
  {storage : List Char}

theorem init (vals : Nat → Option String) (dedup : Bool) (storage : List Char) :
    CopyInv vals dedup 0 (fun _ => none) 0 storage :=
  ⟨fun _ _ => rfl, (fun _ _ h => nomatch h), fun _ h => absurd h (Nat.not_lt_zero _),
    (fun _ _ _ _ _ h _ => nomatch h), Nat.zero_le _⟩

/-- A found value is copied at `next` and answered by its slice. -/
theorem copy (h : CopyInv vals dedup i resp next storage) {v : String} (hv : vals i = some v)
    (hroom : next + v.length ≤ storage.length) :
    CopyInv vals dedup (i + 1) (Function.update resp i (some ⟨next, v.length⟩)) (next + v.length)
      (copyAt storage next v) where
  fresh j hj := by rw [Function.update_noteq (by omega)]; exact h.fresh j (by omega)
  answered j a hj := by
    by_cases hji : j = i
    · subst hji
      rw [Function.update_same] at hj; cases hj
      refine ⟨le_refl _, ?_⟩
      rw [copyAt_slice_self _ _ _ hroom, hv]
    · rw [Function.update_noteq hji] at hj
      obtain ⟨hb, hs⟩ := h.answered j a hj
      exact ⟨by omega, by rw [copyAt_slice_below _ _ _ hb h.room]; exact hs⟩
  unanswered j hj hn := by
    by_cases hji : j = i
    · subst hji; simp at hn
    · rw [Function.update_noteq hji] at hn; exact h.unanswered j (by omega) hn
  separate j j' a b hjj ha hb := by
    by_cases hj' : j' = i
    · subst hj'
      rw [Function.update_noteq (by omega)] at ha
      rw [Function.update_same] at hb; cases hb
      have := (h.answered j a ha).1
      exact ⟨fun _ => this, .inr (.inl this)⟩
    · have hj : j ≠ i := fun hji => by
        subst hji; rw [Function.update_noteq hj', h.fresh j' (by
          by_contra hc; exact hj' (by omega))] at hb; cases hb
      rw [Function.update_noteq hj] at ha; rw [Function.update_noteq hj'] at hb
      exact h.separate j j' a b hjj ha hb
  room := by rw [copyAt_length _ _ _ hroom]; exact hroom

/-- A duplicate takes the answer of its first occurrence. -/
theorem dup (h : CopyInv vals dedup i resp next storage) {src : Nat} (hd : dedup = true)
    (hsrc : src < i) (hv : vals src = vals i) :
    CopyInv vals dedup (i + 1) (Function.update resp i (resp src)) next storage where
  fresh j hj := by rw [Function.update_noteq (by omega)]; exact h.fresh j (by omega)
  answered j a hj := by
    by_cases hji : j = i
    · subst hji; rw [Function.update_same] at hj; rw [← hv]; exact h.answered src a hj
    · rw [Function.update_noteq hji] at hj; exact h.answered j a hj
  unanswered j hj hn := by
    by_cases hji : j = i
    · subst hji; rw [Function.update_same] at hn; rw [← hv]; exact h.unanswered src hsrc hn
    · rw [Function.update_noteq hji] at hn; exact h.unanswered j (by omega) hn
  separate j j' a b hjj ha hb := by
    have hj : j ≠ i := fun hji => by
      subst hji; rw [Function.update_noteq (by omega), h.fresh j' (by omega)] at hb; cases hb
    rw [Function.update_noteq hj] at ha
    by_cases hj' : j' = i
    · subst hj'
      rw [Function.update_same] at hb
      refine ⟨fun hf => absurd (hd.symm.trans hf) Bool.noConfusion, ?_⟩
      rcases lt_trichotomy j src with hlt | rfl | hgt
      · exact (h.separate j src a b hlt ha hb).2
      · rw [ha] at hb; cases hb; exact .inl rfl
      · rcases (h.separate src j b a hgt hb ha).2 with hab | hab | hab
        · exact .inl hab.symm
        · exact .inr (.inr hab)
        · exact .inr (.inl hab)
    · rw [Function.update_noteq hj'] at hb; exact h.separate j j' a b hjj ha hb
  room := h.room

/-- An item with neither a value nor a first occurrence stays unanswered. -/
theorem skip (h : CopyInv vals dedup i resp next storage) (hv : vals i = none) :
    CopyInv vals dedup (i + 1) resp next storage where
  fresh j hj := h.fresh j (by omega)
  answered := h.answered
  unanswered j hj hn := by
    by_cases hji : j = i
    · subst hji; exact hv
    · exact h.unanswered j (by omega) hn
  separate := h.separate
  room := h.room

end CopyInv

/-- The second loop of `CollectKeys` keeps `CopyInv` over all its items, and `storage` keeps its
size, when the values found fit in what is left of it. -/
theorem collectCopy_spec {vals : Nat → Option String} :
    ∀ (items : List Item) (i : Nat) (resp : Nat → Option GetResp) (next : Nat)
      (storage : List Char), CopyInv vals dedup i resp next storage → ItemsOk vals dedup i items →
    next + sizeSum items ≤ storage.length →
    (∃ next', CopyInv vals dedup (i + items.length) (collectCopy i items resp next storage).1 next'
      (collectCopy i items resp next storage).2) ∧
    (collectCopy i items resp next storage).2.length = storage.length
  | [], _, _, next, _, h, _, _ => ⟨⟨next, h⟩, rfl⟩
  | ⟨it, src⟩ :: items, i, resp, next, storage, h, ⟨hi, hs⟩, hroom => by
    have hsz : sizeSum (⟨it, src⟩ :: items) = (it.map String.length).getD 0 + sizeSum items := by
      simp [sizeSum]
    rw [hsz] at hroom
    unfold collectCopy
    cases it with
    | some v =>
      have hv : next + v.length ≤ storage.length := by simp at hroom; omega
      obtain ⟨⟨n', h'⟩, hl⟩ := collectCopy_spec items (i + 1) _ _ _ (h.copy hi hv) hs
        (by rw [copyAt_length _ _ _ hv]; simp at hroom; omega)
      refine ⟨⟨n', by simpa [Nat.add_assoc, Nat.add_comm 1] using h'⟩, ?_⟩
      rw [hl, copyAt_length _ _ _ hv]
    | none =>
      cases src with
      | some src =>
        obtain ⟨hd, hlt, hsv⟩ := hi
        obtain ⟨⟨n', h'⟩, hl⟩ := collectCopy_spec items (i + 1) _ _ _ (h.dup hd hlt hsv) hs
          (by simpa using hroom)
        exact ⟨⟨n', by simpa [Nat.add_assoc, Nat.add_comm 1] using h'⟩, hl⟩
      | none =>
        obtain ⟨⟨n', h'⟩, hl⟩ := collectCopy_spec items (i + 1) _ _ _ (h.skip hi) hs
          (by simpa using hroom)
        exact ⟨⟨n', by simpa [Nat.add_assoc, Nat.add_comm 1] using h'⟩, hl⟩

/-- `OpMGet` on one shard: the table reads as before; position `j` of the keys is answered
exactly when `GET` of its key answers, by a slice of `storage` that holds that value; two answers
are disjoint slices in order or, with `mget_dedup_keys`, possibly the same slice. -/
theorem opMGet_spec (t : DbTable) (keys : List String) :
    (∀ k, (opMGet c isString dedup t keys).1.readValue c k = t.readValue c k) ∧
    (∀ j < keys.length, ((opMGet c isString dedup t keys).2.2.1 j).map
        (fun a => String.mk (((opMGet c isString dedup t keys).2.2.2.drop a.offset).take a.size)) =
      readString c isString t (keys.getD j "")) ∧
    (∀ j a, (opMGet c isString dedup t keys).2.2.1 j = some a →
      a.offset + a.size ≤ (opMGet c isString dedup t keys).2.2.2.length) ∧
    (∀ j j' a b, j < j' → (opMGet c isString dedup t keys).2.2.1 j = some a →
      (opMGet c isString dedup t keys).2.2.1 j' = some b →
      (dedup = false → a.offset + a.size ≤ b.offset) ∧
        (a = b ∨ a.offset + a.size ≤ b.offset ∨ b.offset + b.size ≤ a.offset)) := by
  obtain ⟨h1, h2, h3, h4⟩ := @collectFind_spec c isString dedup t
    (fun j => readString c isString t (keys.getD j "")) keys t [] 0 (fun _ => rfl)
    (fun p _ => by rw [Nat.zero_add]) (fun _ _ h => nomatch h)
  generalize hcf : collectFind c isString dedup t [] 0 keys = cf at h1 h2 h3 h4
  obtain ⟨t1, j1, items, total⟩ := cf
  dsimp only at h1 h2 h3 h4
  obtain ⟨⟨next', hinv⟩, -⟩ := collectCopy_spec items 0 (fun _ => none) 0
    (List.replicate total (Char.ofNat 0)) (CopyInv.init _ _ _) h2 (by simp [h4])
  simp only [opMGet, hcf]
  refine ⟨h1, fun j hj => ?_, fun j a ha => ?_, fun j j' a b hjj ha hb => hinv.separate j j' a b hjj ha hb⟩
  · cases hr : (collectCopy 0 items (fun _ => none) 0 (List.replicate total (Char.ofNat 0))).1 j with
    | none => exact (hinv.unanswered j (by omega) hr).symm
    | some a => exact ((hinv.answered j a hr).2).symm
  · exact (hinv.answered j a ha).1.trans hinv.room

section Reorder

variable {sid : Nat} {resp : Nat → Option GetResp}

/-- The reordering of one shard leaves the indices of other shards' keys. -/
theorem reorderShard_of_not_mem {i : Nat} :
    ∀ (n : Nat) (L : List (Nat × String)) (dest : Nat → Option (Nat × GetResp)),
    i ∉ L.map Prod.fst → reorderShard sid resp n L dest i = dest i
  | _, [], _, _ => rfl
  | n, (indx, _) :: L, dest, hi => by
    simp only [List.map_cons, List.mem_cons, not_or] at hi
    rw [reorderShard, reorderShard_of_not_mem (n + 1) L _ hi.2]
    cases resp n <;> simp [Function.update_noteq hi.1]

/-- The reordering of one shard puts the answer at each position at the index of its key. -/
theorem reorderShard_at :
    ∀ (n : Nat) (L : List (Nat × String)) (dest : Nat → Option (Nat × GetResp)),
    (L.map Prod.fst).Nodup → ∀ pos (h : pos < L.length),
    reorderShard sid resp n L dest L[pos].1 = ((resp (n + pos)).map (sid, ·)).or (dest L[pos].1)
  | _, [], _, _, _, h => absurd h (Nat.not_lt_zero _)
  | n, (indx, k) :: L, dest, hnd, pos, h => by
    rw [List.map_cons, List.nodup_cons] at hnd
    rw [reorderShard]
    cases pos with
    | zero =>
      rw [List.getElem_cons_zero, reorderShard_of_not_mem (n + 1) L _ hnd.1, Nat.add_zero]
      cases resp n <;> simp
    | succ pos =>
      have hp : pos < L.length := by simpa using h
      have hne : L[pos].1 ≠ indx := fun he =>
        hnd.1 (by rw [← he]; exact List.mem_map.2 ⟨_, List.getElem_mem hp, rfl⟩)
      rw [List.getElem_cons_succ, reorderShard_at (n + 1) L _ hnd.2 pos hp,
        Nat.add_assoc, Nat.add_comm 1 pos]
      cases resp n <;> simp [Function.update_noteq hne]

/-- `ReorderShardResults` over the shards `sids` from `dest`: the index `i`, whose key is at
`pos` on shard `sid` and on no other, holds that shard's answer when `sid` is among `sids`. -/
theorem reorder_at {args : Nat → List (Nat × String)} {answers : Nat → Nat → Option GetResp}
    {i pos : Nat} (hpos : ∀ dest, reorderShard sid (answers sid) 0 (args sid) dest i =
      ((answers sid pos).map (sid, ·)).or (dest i))
    (hother : ∀ sid', sid' ≠ sid → i ∉ (args sid').map Prod.fst) :
    ∀ (sids : List Nat) (dest : Nat → Option (Nat × GetResp)),
    sids.foldl (fun dest sid => reorderShard sid (answers sid) 0 (args sid) dest) dest i =
      if sid ∈ sids then ((answers sid pos).map (sid, ·)).or (dest i) else dest i
  | [], _ => rfl
  | s :: sids, dest => by
    rw [List.foldl_cons, reorder_at hpos hother sids]
    by_cases hs : s = sid
    · subst hs
      rw [hpos]
      split_ifs with h1 h2 <;> simp_all
      cases answers s pos <;> rfl
    · rw [reorderShard_of_not_mem 0 _ _ (hother s hs)]
      simp [List.mem_cons, Ne.symm hs]

end Reorder

section Shards

variable {shardOf : String → Nat} {args : List String}

theorem mem_shardArgs {sid : Nat} {p : Nat × String} :
    p ∈ shardArgs shardOf args sid ↔ args[p.1]? = some p.2 ∧ shardOf p.2 = sid := by
  simp [shardArgs, List.mem_filter, List.mem_enum_iff_getElem?]

theorem shardArgs_nodup (sid : Nat) : ((shardArgs shardOf args sid).map Prod.fst).Nodup :=
  (List.nodup_range _).sublist (by rw [← List.enum_map_fst]; exact (List.filter_sublist _).map _)

/-- Index `i` of the command belongs to the shard of its key only. -/
theorem not_mem_shardArgs {i sid : Nat} (hi : i < args.length) (hs : sid ≠ shardOf args[i]) :
    i ∉ (shardArgs shardOf args sid).map Prod.fst := by
  simp only [List.mem_map, not_exists, not_and]
  rintro ⟨i', k⟩ hm rfl
  obtain ⟨hk, rfl⟩ := mem_shardArgs.1 hm
  rw [List.getElem?_eq_getElem hi, Option.some.injEq] at hk
  exact hs (by rw [hk])

/-- The reply of `MGET` holds, at each index, what `GET` of that key answers on its shard. -/
theorem mget_reply {numShards : Nat} {tables : Nat → DbTable}
    (hs : ∀ k ∈ args, shardOf k < numShards) :
    (mget c isString dedup shardOf numShards tables args).2 =
      args.map (fun k => readString c isString (tables (shardOf k)) k) := by
  refine List.ext_getElem (by simp [mget]) fun i hi1 hi2 => ?_
  have hi : i < args.length := by simpa using hi2
  simp only [mget, List.getElem_map, List.getElem_range]
  have hmem : (i, args[i]) ∈ shardArgs shardOf args (shardOf args[i]) :=
    mem_shardArgs.2 ⟨List.getElem?_eq_getElem hi, rfl⟩
  obtain ⟨pos, hpos, hLp⟩ := List.getElem_of_mem hmem
  have hat := fun dest => @reorderShard_at (shardOf args[i])
    (opMGet c isString dedup (tables (shardOf args[i]))
      ((shardArgs shardOf args (shardOf args[i])).map (·.2))).2.2.1 0 _ dest
    (shardArgs_nodup _) pos hpos
  simp only [hLp, Nat.zero_add] at hat
  rw [reorder_at hat (fun sid' h => not_mem_shardArgs hi h),
    if_pos (List.mem_range.2 (hs _ (List.getElem_mem hi)))]
  have hv := (@opMGet_spec c isString dedup (tables (shardOf args[i]))
    ((shardArgs shardOf args (shardOf args[i])).map (·.2))).2.1 pos (by simpa using hpos)
  rw [List.getD_eq_getElem?_getD, List.getElem?_eq_getElem (by simpa using hpos), Option.getD_some,
    List.getElem_map, hLp] at hv
  rw [← hv]
  cases (opMGet c isString dedup (tables (shardOf args[i]))
    ((shardArgs shardOf args (shardOf args[i])).map (·.2))).2.2.1 pos <;> rfl

/-- `MGET` over any number of shards and any keys, duplicates included: the reply holds at each
index what `GET` of that key answers on its shard at the hop, and is the same with
`mget_dedup_keys` on or off. On a shard, every answer is a slice of `storage` inside its
`total_size` bytes holding the value of its key; two answers are disjoint slices in command order,
or, with `mget_dedup_keys`, a duplicate key shares the slice of its first occurrence. -/
theorem mget_reads_at_hop {numShards : Nat} {tables : Nat → DbTable}
    (hs : ∀ k ∈ args, shardOf k < numShards) :
    (mget c isString dedup shardOf numShards tables args).2 =
      args.map (fun k => readString c isString (tables (shardOf k)) k) ∧
    (mget c isString true shardOf numShards tables args).2 =
      (mget c isString false shardOf numShards tables args).2 ∧
    ∀ (t : DbTable) (keys : List String),
      (∀ j < keys.length, ((opMGet c isString dedup t keys).2.2.1 j).map
          (fun a => String.mk (((opMGet c isString dedup t keys).2.2.2.drop a.offset).take a.size)) =
        readString c isString t (keys.getD j "")) ∧
      (∀ j a, (opMGet c isString dedup t keys).2.2.1 j = some a →
        a.offset + a.size ≤ (opMGet c isString dedup t keys).2.2.2.length) ∧
      (∀ j j' a b, j < j' → (opMGet c isString dedup t keys).2.2.1 j = some a →
        (opMGet c isString dedup t keys).2.2.1 j' = some b →
        (dedup = false → a.offset + a.size ≤ b.offset) ∧
          (a = b ∨ a.offset + a.size ≤ b.offset ∨ b.offset + b.size ≤ a.offset)) :=
  ⟨mget_reply hs, (mget_reply hs).trans (mget_reply hs).symm,
    fun t keys => (opMGet_spec t keys).2⟩

/-- Keys `a b a c` on two shards, `a` holding `xy` and `c` holding `zzz`, with
`mget_dedup_keys`: the reply is `xy`, null, `xy`, `zzz`. -/
theorem mget_reads_at_hop_twoShards :
    let t0 : DbTable := (DbTable.empty.insertKey "a" ⟨false, ⟨"xy", false, false⟩⟩).insertKey "c"
      ⟨false, ⟨"zzz", false, false⟩⟩
    let c0 : Ctx := ⟨0, true, ⟨fun _ => true, fun _ => 0, fun _ => 0, rfl⟩⟩
    (∀ k ∈ ["a", "b", "a", "c"], (fun k => if k = "a" then 0 else 1) k < 2) ∧
      (mget c0 (fun _ => true) true (fun k => if k = "a" then 0 else 1) 2 (fun _ => t0)
        ["a", "b", "a", "c"]).2 = [some "xy", none, some "xy", some "zzz"] := by
  intro t0 c0
  have hs : ∀ k ∈ ["a", "b", "a", "c"], (fun k => if k = "a" then 0 else 1) k < 2 := by decide
  refine ⟨hs, ?_⟩
  rw [(@mget_reads_at_hop c0 (fun _ => true) true _ _ 2 (fun _ => t0) hs).1]
  decide

end Shards

end MGet


end Dragonfly.Strings
