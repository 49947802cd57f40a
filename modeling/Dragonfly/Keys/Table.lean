import Mathlib.Algebra.Order.Ring.Nat
import Mathlib.Algebra.Group.Int
import Mathlib.Data.Finset.Basic

/-!
# One database at the level of keys

The view of a `DbTable` that the string family and the journal act on: the prime table (each key's
sticky bit and value, whose `HasExpire` and `HasFlag` bits say whether the key has a deadline and
an mcflag), the expire table (absolute deadlines in milliseconds: `ExpirePeriod` relative to
`expire_base_` is abstracted away) and the mcflag table, with the object-memory statistics.

The functions of `db_slice.cc` that act on one key are translated here: `AddExpire`,
`RemoveExpire`, both `UpdateExpire` overloads, `SetMCFlag`, `ExpireParams::Calculate`,
`PerformDeletion(Atomic)`, `ExpireIfNeeded`, `FindInternal`, `AddOrFindInternal`,
`AddOrUpdateInternal`, the `AutoUpdater`, `DeleteExpiredStep` and `FlushDb`. The change callbacks
they run are those of `Snapshot/`; here no slot flush is running, so callbacks change no table.
Sizes of keys and values (`CompactObj::MallocUsed`, `IsInline`) and the eviction choice are
parameters: their code is outside the sources.
-/

namespace Dragonfly.Keys

/-- The parts of a `PrimeValue` the tables depend on: the string and the bits `HasExpire`,
`HasFlag`. -/
structure PrimeValue where
  str : String
  hasExpire : Bool
  hasFlag : Bool
  deriving DecidableEq, Repr

/-- A prime-table slot: `PrimeKey`'s sticky bit and the value. -/
structure Slot where
  sticky : Bool
  value : PrimeValue
  deriving DecidableEq, Repr

/-- `DbTableStats`: `obj_memory_usage` and `inline_keys`. -/
structure DbTableStats where
  objMemoryUsage : Int
  inlineKeys : Int
  deriving DecidableEq, Repr

/-- One database. `keys` is the prime table's key set, kept with its law. `watchedKeys` is
`watched_keys`, the connections (by id) that `WATCH` each key, and `watchedDirty` the
`watched_dirty` flag of each connection, which `PostUpdate` sets through those pointers. -/
structure DbTable where
  prime : String → Option Slot
  keys : Finset String
  mem_keys : ∀ k, k ∈ keys ↔ (prime k).isSome
  expire : String → Option Int
  mcflag : String → Option Nat
  stats : DbTableStats
  watchedKeys : String → List Nat
  watchedDirty : Nat → Bool

/-- `CompactObj::IsInline` and `MallocUsed` of keys and string values; a fresh `PrimeValue{}`
owns no heap (`DCHECK_EQ(it->second.MallocUsed(), 0UL)`). -/
structure Sizes where
  keyInline : String → Bool
  keyMalloc : String → Nat
  valueMalloc : String → Nat
  empty_value : valueMalloc "" = 0

/-- What a command runs with: `time_now_ms`, whether keys may expire (not on a replica:
`owner_->IsReplica()`, `expire_allowed_`), and the sizes. -/
structure Ctx where
  nowMs : Int
  expireAllowed : Bool
  sz : Sizes

/-- The option tokens of `SET` that `StringFamily::Set`'s parser reads. -/
inductive SetArg
  | ex (n : Int)
  | px (n : Int)
  | exat (n : Int)
  | pxat (n : Int)
  | mcflags (n : Nat)
  | get
  | stick
  | keepTtl
  | xx
  | nx
  deriving DecidableEq, Repr

/-- The journal protocol: `SET key value [opts]`, `DEL`, the expiry pseudo-entry of
`RecordExpiryBlocking`, `PEXPIREAT`, `PERSIST`, `MSET`. -/
inductive JournalEntry
  | set (key value : String) (args : List SetArg)
  | del (key : String)
  | expired (key : String)
  | pexpireat (key : String) (ms : Int)
  | persist (key : String)
  | mset (pairs : List (String × String))
  deriving DecidableEq, Repr

/-- `OpStatus`. -/
inductive OpStatus
  | ok
  | keyNotFound
  | wrongType
  | outOfMemory
  | outOfRange
  | skipped
  | invalidInt
  | invalidValue
  | invalidFloat
  deriving DecidableEq, Repr

/-- `TimeUnit`. -/
inductive TimeUnit
  | sec
  | msec
  deriving DecidableEq, Repr

/-- `DbSlice::ExpireParams`; `nx`, `xx`, `gt`, `lt` are the bits of `expire_options`. -/
structure ExpireParams where
  value : Int
  unit : TimeUnit
  absolute : Bool
  persist : Bool
  nx : Bool
  xx : Bool
  gt : Bool
  lt : Bool
  deriving DecidableEq, Repr

/-- `INT64_MAX`. -/
def int64Max : Int := 2 ^ 63 - 1

/-- `ExpireParams::Calculate(now_ms, cap)`: the relative and the absolute deadline; `maxMs` is
`kMaxExpireDeadlineMs`. -/
def ExpireParams.calculate (p : ExpireParams) (nowMs : Int) (cap : Bool) (maxMs : Int) :
    Int × Int :=
  if p.persist then (0, 0)
  else if p.unit = .sec ∧ p.value > int64Max / 1000 then (0, -1)
  else
    let msec := if p.unit = .sec then p.value * 1000 else p.value
    let rel := if p.absolute then msec - nowMs else msec
    let rel := if cap then min rel maxMs else rel
    (rel, nowMs + rel)

/-- A live `DbSlice::AutoUpdater`: its key and `orig_heap_size`. -/
structure AutoUpdater where
  key : String
  origHeapSize : Int
  deriving DecidableEq, Repr

/-- What `PrimeTable::InsertNew` does: throw `bad_alloc`, or insert after
`PrimeEvictionPolicy::Evict` chose at most one victim. -/
inductive Insertion
  | rejected
  | inserted (victim : Option String)
  deriving DecidableEq, Repr

/-- What `AddOrFind` returns. -/
inductive AddResult
  | found (u : AutoUpdater)
  | new (u : AutoUpdater)
  | outOfMemory
  deriving DecidableEq, Repr

namespace DbTable

variable (t : DbTable)

/-! ## Table primitives -/

/-- A slot changes in place, through an iterator. -/
def modify (k : String) (f : Slot → Slot) : DbTable :=
  { t with
    prime := fun k' => if k' = k then (t.prime k).map f else t.prime k'
    mem_keys := fun k' => by
      by_cases h : k' = k
      · subst h; simpa using t.mem_keys k'
      · simpa [h] using t.mem_keys k' }

/-- `PrimeTable::Insert` of a new key. -/
def insertKey (k : String) (s : Slot) : DbTable :=
  { t with
    prime := Function.update t.prime k (some s)
    keys := insert k t.keys
    mem_keys := fun k' => by
      by_cases h : k' = k
      · subst h; simp
      · simpa [h] using t.mem_keys k' }

/-- `PrimeTable::Erase`. -/
def eraseKey (k : String) : DbTable :=
  { t with
    prime := Function.update t.prime k none
    keys := t.keys.erase k
    mem_keys := fun k' => by
      by_cases h : k' = k
      · subst h; simp
      · simpa [h] using t.mem_keys k' }

/-- Insert or erase in the expire table. -/
def setExpire (k : String) (d : Option Int) : DbTable :=
  { t with expire := Function.update t.expire k d }

/-- Insert or erase in the mcflag table. -/
def setMcflag (k : String) (f : Option Nat) : DbTable :=
  { t with mcflag := Function.update t.mcflag k f }

/-- `AccountObjectMemory(key, type, size, db)`: a zero size changes nothing. -/
def account (size : Int) : DbTable :=
  if size = 0 then t
  else { t with stats := { t.stats with objMemoryUsage := t.stats.objMemoryUsage + size } }

/-- `inline_keys` moves by `d`. -/
def addInlineKeys (d : Int) : DbTable :=
  { t with stats := { t.stats with inlineKeys := t.stats.inlineKeys + d } }

/-- `DbSlice::PostUpdate`: every connection watching `k` is marked dirty, and `k` is no longer
watched. -/
def postUpdate (k : String) : DbTable :=
  { t with
    watchedKeys := Function.update t.watchedKeys k []
    watchedDirty := fun conn => t.watchedDirty conn || decide (conn ∈ t.watchedKeys k) }

/-- `GetString` of the value of `k`; empty for a missing key. -/
def valueStr (k : String) : String := ((t.prime k).map fun s => s.value.str).getD ""

/-- `PrimeValue::SetString` through an iterator: the string changes, the value's bits stay. -/
def setString (k v : String) : DbTable :=
  t.modify k fun s => { s with value := { s.value with str := v } }

/-- The `ExpIterator` a lookup of `k` returns: the deadline, when the value has `HasExpire`. -/
def expIt (k : String) : Option Int :=
  match t.prime k with
  | some s => if s.value.hasExpire then t.expire k else none
  | none => none

section Primitives
variable {t} (k k' : String) (f : Slot → Slot) (s : Slot) (d : Option Int) (g : Option Nat)
  (n : Int)

@[simp] theorem modify_prime : (t.modify k f).prime k' = if k' = k then (t.prime k).map f else t.prime k' := rfl
@[simp] theorem modify_expire : (t.modify k f).expire = t.expire := rfl
@[simp] theorem modify_mcflag : (t.modify k f).mcflag = t.mcflag := rfl
@[simp] theorem modify_keys : (t.modify k f).keys = t.keys := rfl
@[simp] theorem modify_stats : (t.modify k f).stats = t.stats := rfl
@[simp] theorem insertKey_prime : (t.insertKey k s).prime = Function.update t.prime k (some s) := rfl
@[simp] theorem insertKey_expire : (t.insertKey k s).expire = t.expire := rfl
@[simp] theorem insertKey_mcflag : (t.insertKey k s).mcflag = t.mcflag := rfl
@[simp] theorem insertKey_keys : (t.insertKey k s).keys = insert k t.keys := rfl
@[simp] theorem insertKey_stats : (t.insertKey k s).stats = t.stats := rfl
@[simp] theorem eraseKey_prime : (t.eraseKey k).prime = Function.update t.prime k none := rfl
@[simp] theorem eraseKey_expire : (t.eraseKey k).expire = t.expire := rfl
@[simp] theorem eraseKey_mcflag : (t.eraseKey k).mcflag = t.mcflag := rfl
@[simp] theorem eraseKey_keys : (t.eraseKey k).keys = t.keys.erase k := rfl
@[simp] theorem eraseKey_stats : (t.eraseKey k).stats = t.stats := rfl
@[simp] theorem setExpire_prime : (t.setExpire k d).prime = t.prime := rfl
@[simp] theorem setExpire_expire : (t.setExpire k d).expire = Function.update t.expire k d := rfl
@[simp] theorem setExpire_mcflag : (t.setExpire k d).mcflag = t.mcflag := rfl
@[simp] theorem setExpire_keys : (t.setExpire k d).keys = t.keys := rfl
@[simp] theorem setExpire_stats : (t.setExpire k d).stats = t.stats := rfl
@[simp] theorem setMcflag_prime : (t.setMcflag k g).prime = t.prime := rfl
@[simp] theorem setMcflag_expire : (t.setMcflag k g).expire = t.expire := rfl
@[simp] theorem setMcflag_mcflag : (t.setMcflag k g).mcflag = Function.update t.mcflag k g := rfl
@[simp] theorem setMcflag_keys : (t.setMcflag k g).keys = t.keys := rfl
@[simp] theorem setMcflag_stats : (t.setMcflag k g).stats = t.stats := rfl
@[simp] theorem account_prime : (t.account n).prime = t.prime := by unfold account; split <;> rfl
@[simp] theorem account_expire : (t.account n).expire = t.expire := by unfold account; split <;> rfl
@[simp] theorem account_mcflag : (t.account n).mcflag = t.mcflag := by unfold account; split <;> rfl
@[simp] theorem account_keys : (t.account n).keys = t.keys := by unfold account; split <;> rfl
@[simp] theorem account_stats : (t.account n).stats =
    { t.stats with objMemoryUsage := t.stats.objMemoryUsage + n } := by
  unfold account; split <;> simp_all
@[simp] theorem addInlineKeys_prime : (t.addInlineKeys n).prime = t.prime := rfl
@[simp] theorem addInlineKeys_expire : (t.addInlineKeys n).expire = t.expire := rfl
@[simp] theorem addInlineKeys_mcflag : (t.addInlineKeys n).mcflag = t.mcflag := rfl
@[simp] theorem addInlineKeys_keys : (t.addInlineKeys n).keys = t.keys := rfl
@[simp] theorem addInlineKeys_stats : (t.addInlineKeys n).stats =
    { t.stats with inlineKeys := t.stats.inlineKeys + n } := rfl
@[simp] theorem postUpdate_prime : (t.postUpdate k).prime = t.prime := rfl
@[simp] theorem postUpdate_expire : (t.postUpdate k).expire = t.expire := rfl
@[simp] theorem postUpdate_mcflag : (t.postUpdate k).mcflag = t.mcflag := rfl
@[simp] theorem postUpdate_keys : (t.postUpdate k).keys = t.keys := rfl
@[simp] theorem postUpdate_stats : (t.postUpdate k).stats = t.stats := rfl

end Primitives

/-! ## Algorithm -/

/-- `DbSlice::AddExpire`: the deadline is inserted and the value gets `HasExpire`. -/
def addExpire (k : String) (atMs : Int) : DbTable :=
  (t.setExpire k (some atMs)).modify k fun s => { s with value := { s.value with hasExpire := true } }

/-- `DbSlice::RemoveExpire`: when the value has `HasExpire`, the deadline is erased and the bit
cleared; whether something changed. -/
def removeExpire (k : String) : DbTable × Bool :=
  match t.prime k with
  | some s =>
    if s.value.hasExpire then
      ((t.setExpire k none).modify k fun s => { s with value := { s.value with hasExpire := false } },
        true)
    else (t, false)
  | none => (t, false)

/-- `DbSlice::UpdateExpire(db_ind, it, at)`: `0` removes the deadline, otherwise a value without
one gets it. -/
def updateExpireAt (k : String) (atMs : Int) : DbTable × Bool :=
  if atMs = 0 then t.removeExpire k
  else
    match t.prime k with
    | some s => if s.value.hasExpire then (t, false) else (t.addExpire k atMs, true)
    | none => (t, false)

/-- `DbSlice::SetMCFlag`: flag `0` erases, any other is inserted or overwritten. The value's
`HasFlag` bit is the caller's business. -/
def setMCFlag (k : String) (flag : Nat) : DbTable :=
  if flag = 0 then t.setMcflag k none else t.setMcflag k (some flag)

/-- `DbSlice::PerformDeletionAtomic(del_it, exp_it, table)`: the deadline when `exp_it` is valid,
the mcflag when the value has `HasFlag`, the statistics, then the slot. -/
def performDeletionAtomic (sz : Sizes) (k : String) (expFound : Bool) : DbTable :=
  match t.prime k with
  | none => t
  | some s =>
    let t1 := if expFound then t.setExpire k none else t
    let t2 := if s.value.hasFlag then t1.setMcflag k none else t1
    let t3 := if sz.keyInline k then t2.addInlineKeys (-1) else t2.account (-(sz.keyMalloc k))
    (t3.account (-(sz.valueMalloc s.value.str))).eraseKey k

/-- `DbSlice::PerformDeletion`: `exp_it` is looked up only when the value has `HasExpire`. -/
def performDeletion (sz : Sizes) (k : String) : DbTable :=
  t.performDeletionAtomic sz k (t.expIt k).isSome

/-- `DbSlice::ExpireIfNeeded` for a key whose value has `HasExpire`: a deadline that passed deletes
it and journals the expiry, unless expiry is off; whether the key is still there. -/
def expireIfNeeded (c : Ctx) (k : String) : DbTable × List JournalEntry × Bool :=
  match t.expire k with
  | none => (t, [], true)
  | some d =>
    if c.nowMs < d ∨ c.expireAllowed = false then (t, [], true)
    else (t.performDeletionAtomic c.sz k true, [.expired k], false)

/-- `DbSlice::FindInternal`: the slot of `k`, after `ExpireIfNeeded` when it has a deadline. -/
def findInternal (c : Ctx) (k : String) : DbTable × List JournalEntry × Option Slot :=
  match t.prime k with
  | none => (t, [], none)
  | some s =>
    if s.value.hasExpire then
      match t.expireIfNeeded c k with
      | (t', j, true) => (t', j, some s)
      | (t', j, false) => (t', j, none)
    else (t, [], some s)

/-- `DbSlice::FindMutable`: the lookup and, when the key is there, an `AutoUpdater` that saw its
value's size. -/
def findMutable (c : Ctx) (k : String) : DbTable × List JournalEntry × Option AutoUpdater :=
  match t.findInternal c k with
  | (t', j, some s) => (t', j, some ⟨k, c.sz.valueMalloc s.value.str⟩)
  | (t', j, none) => (t', j, none)

/-- `PrimeEvictionPolicy::Evict`'s deletion of the victim chosen in a stash bucket: a sticky key is
kept, another one is deleted and journaled as expired. -/
def evict (c : Ctx) : Option String → DbTable × List JournalEntry
  | none => (t, [])
  | some v =>
    match t.prime v with
    | some s => if s.sticky then (t, []) else (t.performDeletion c.sz v, [.expired v])
    | none => (t, [])

/-- `DbSlice::AddOrFindInternal` for one key: a present key is found; an absent one is inserted
with an empty value (the insertion may be rejected, or evict a victim first), its key accounted. -/
def addOrFind (c : Ctx) (ins : Insertion) (k : String) : DbTable × List JournalEntry × AddResult :=
  match t.findInternal c k with
  | (t1, j, some s) => (t1, j, .found ⟨k, c.sz.valueMalloc s.value.str⟩)
  | (t1, j, none) =>
    match ins with
    | .rejected => (t1, j, .outOfMemory)
    | .inserted victim =>
      let (t2, j2) := t1.evict c victim
      let t3 := t2.insertKey k ⟨false, ⟨"", false, false⟩⟩
      let t4 := if c.sz.keyInline k then t3.addInlineKeys 1 else t3.account (c.sz.keyMalloc k)
      (t4, j ++ j2, .new ⟨k, 0⟩)

/-- `DbSlice::AddOrUpdateInternal`: after `AddOrFind`, a new key (or any key when
`force_update`) takes `obj`, and a nonzero `expire_at_ms` becomes its deadline. -/
def addOrUpdateInternal (c : Ctx) (ins : Insertion) (k : String) (obj : PrimeValue)
    (expireAtMs : Int) (forceUpdate : Bool) : DbTable × List JournalEntry × AddResult :=
  match t.addOrFind c ins k with
  | (t1, j, .outOfMemory) => (t1, j, .outOfMemory)
  | (t1, j, r) =>
    if (r matches .found _) ∧ forceUpdate = false then (t1, j, r)
    else
      let t2 := t1.modify k fun s => { s with value := obj }
      if expireAtMs ≠ 0 then
        ((t2.modify k fun s => { s with value := { s.value with hasExpire := true } }).setExpire k
          (some expireAtMs), j, r)
      else (t2, j, r)

/-- `DbSlice::AddNew`. -/
def addNew (c : Ctx) (ins : Insertion) (k : String) (obj : PrimeValue) (expireAtMs : Int) :
    DbTable × List JournalEntry × AddResult :=
  t.addOrUpdateInternal c ins k obj expireAtMs false

/-- `DbSlice::AddOrUpdate`. -/
def addOrUpdate (c : Ctx) (ins : Insertion) (k : String) (obj : PrimeValue) (expireAtMs : Int) :
    DbTable × List JournalEntry × AddResult :=
  t.addOrUpdateInternal c ins k obj expireAtMs true

/-- `DbSlice::Del`. -/
def del (sz : Sizes) (k : String) : DbTable := t.performDeletion sz k

/-- `AutoUpdater::Run`: the value's size change since the updater was made is accounted, then
`PostUpdate`. -/
def runUpdater (sz : Sizes) (u : AutoUpdater) : DbTable :=
  match t.prime u.key with
  | some s => (t.account (sz.valueMalloc s.value.str - u.origHeapSize)).postUpdate u.key
  | none => t

/-- `AutoUpdater::ReduceHeapUsage`: the original size is taken off now. -/
def reduceHeapUsage (u : AutoUpdater) : DbTable × AutoUpdater :=
  (t.account (-u.origHeapSize), { u with origHeapSize := 0 })

/-- `DbSlice::UpdateExpire(cntx, prime_it, expire_it, params)`; `expire_it` is `expIt k`. -/
def updateExpire (c : Ctx) (maxMs : Int) (k : String) (p : ExpireParams) :
    DbTable × Except OpStatus Int :=
  if p.persist then ((t.removeExpire k).1, .ok 0)
  else
    let (rel, abs) := p.calculate c.nowMs false maxMs
    if abs < 0 ∨ rel > maxMs then (t, .error .outOfRange)
    else if rel ≤ 0 then (t.del c.sz k, .ok (-1))
    else
      match t.expIt k with
      | some cur =>
        if p.nx then (t, .error .skipped)
        else if p.lt ∧ cur ≤ abs then (t, .error .skipped)
        else if p.gt ∧ cur ≥ abs then (t, .error .skipped)
        else (t.setExpire k (some abs), .ok abs)
      | none => if p.xx then (t, .error .skipped) else (t.addExpire k abs, .ok abs)

/-- One visit of `DeleteExpiredStep`'s callback to the expire-table entry of `k` (locked keys are
skipped before): a deadline that passed deletes the key through `ExpireIfNeeded`; an entry whose
key is missing from the prime table is erased. -/
def deleteExpiredVisit (c : Ctx) (k : String) : DbTable × List JournalEntry :=
  match t.expire k with
  | none => (t, [])
  | some d =>
    if d - c.nowMs ≤ 0 then
      match t.prime k with
      | none => (t.setExpire k none, [])
      | some s =>
        if s.value.hasExpire then
          let (t', j, _) := t.expireIfNeeded c k
          (t', j)
        else (t, [])
    else (t, [])

/-- `DeleteExpiredStep` over the expire-table keys its traversal visits. -/
def deleteExpiredStep (t : DbTable) (c : Ctx) : List String → DbTable × List JournalEntry
  | [] => (t, [])
  | k :: ks =>
    let (t1, j1) := t.deleteExpiredVisit c k
    let (t2, j2) := deleteExpiredStep t1 c ks
    (t2, j1 ++ j2)

/-! ## Lemmas -/

section Deletion
variable {t} {sz : Sizes} {k : String} {s : Slot} (b : Bool)

theorem performDeletionAtomic_prime (hk : t.prime k = some s) :
    (t.performDeletionAtomic sz k b).prime = Function.update t.prime k none := by
  simp only [performDeletionAtomic, hk, eraseKey_prime, account_prime, apply_ite DbTable.prime,
    addInlineKeys_prime, setMcflag_prime, setExpire_prime, ite_self]

theorem performDeletionAtomic_expire (hk : t.prime k = some s) :
    (t.performDeletionAtomic sz k b).expire =
      if b then Function.update t.expire k none else t.expire := by
  simp only [performDeletionAtomic, hk, eraseKey_expire, account_expire, apply_ite DbTable.expire,
    addInlineKeys_expire, setMcflag_expire, setExpire_expire, ite_self]

theorem performDeletionAtomic_mcflag (hk : t.prime k = some s) :
    (t.performDeletionAtomic sz k b).mcflag =
      if s.value.hasFlag then Function.update t.mcflag k none else t.mcflag := by
  simp only [performDeletionAtomic, hk, eraseKey_mcflag, account_mcflag, apply_ite DbTable.mcflag,
    addInlineKeys_mcflag, setMcflag_mcflag, setExpire_mcflag, ite_self]

theorem performDeletionAtomic_keys (hk : t.prime k = some s) :
    (t.performDeletionAtomic sz k b).keys = t.keys.erase k := by
  simp only [performDeletionAtomic, hk, eraseKey_keys, account_keys, apply_ite DbTable.keys,
    addInlineKeys_keys, setMcflag_keys, setExpire_keys, ite_self]

theorem performDeletionAtomic_stats (hk : t.prime k = some s) :
    (t.performDeletionAtomic sz k b).stats =
      if sz.keyInline k then
        ⟨t.stats.objMemoryUsage - sz.valueMalloc s.value.str, t.stats.inlineKeys - 1⟩
      else
        ⟨t.stats.objMemoryUsage - sz.keyMalloc k - sz.valueMalloc s.value.str,
          t.stats.inlineKeys⟩ := by
  simp only [performDeletionAtomic, hk, eraseKey_stats, account_stats, apply_ite DbTable.stats,
    addInlineKeys_stats, setMcflag_stats, setExpire_stats, ite_self]
  split_ifs <;> simp only [← Int.sub_eq_add_neg]

theorem performDeletionAtomic_of_none (hk : t.prime k = none) :
    t.performDeletionAtomic sz k b = t := by
  simp [performDeletionAtomic, hk]


theorem performDeletion_absent {k' : String} (hk : t.prime k' = none) :
    (t.performDeletion sz k).prime k' = none := by
  unfold performDeletion
  cases hp : t.prime k with
  | none => rw [performDeletionAtomic_of_none _ hp]; exact hk
  | some s =>
    rw [performDeletionAtomic_prime _ hp]
    by_cases h : k' = k
    · subst h; simp
    · simp [h, hk]

/-- A lookup that finds nothing leaves the key absent. -/
theorem findInternal_absent (c : Ctx) (h : (t.findInternal c k).2.2 = none) :
    (t.findInternal c k).1.prime k = none := by
  cases hp : t.prime k with
  | none => simp [findInternal, hp]
  | some s =>
    cases he : t.expire k with
    | none => simp [findInternal, expireIfNeeded, hp, he] at h ⊢
    | some d =>
      simp [findInternal, expireIfNeeded, hp, he] at h ⊢
      split_ifs at h ⊢
      simp_all [performDeletionAtomic_prime _ hp]

/-- Eviction keeps an absent key absent. -/
theorem evict_absent (c : Ctx) (v : Option String) (hk : t.prime k = none) :
    (t.evict c v).1.prime k = none := by
  unfold evict
  split
  · exact hk
  · split
    · split
      · exact hk
      · exact performDeletion_absent hk
    · exact hk


/-- A lookup of a key whose deadline has not passed finds it and changes nothing. -/
theorem findInternal_live (c : Ctx) (hp : t.prime k = some s)
    (hlive : ∀ d, t.expire k = some d → c.nowMs < d) : t.findInternal c k = (t, [], some s) := by
  cases he : t.expire k with
  | none => simp [findInternal, expireIfNeeded, hp, he]
  | some d => simp [findInternal, expireIfNeeded, hp, he, hlive d he]

theorem addOrFind_live (c : Ctx) (ins : Insertion) (hp : t.prime k = some s)
    (hlive : ∀ d, t.expire k = some d → c.nowMs < d) :
    t.addOrFind c ins k = (t, [], .found ⟨k, c.sz.valueMalloc s.value.str⟩) := by
  simp [addOrFind, findInternal_live c hp hlive]

/-- A key `AddOrFind` inserts holds an empty value without bits. -/
theorem addOrFind_new (c : Ctx) (ins : Insertion) {u : AutoUpdater}
    (h : (t.addOrFind c ins k).2.2 = .new u) :
    (t.addOrFind c ins k).1.prime k = some ⟨false, ⟨"", false, false⟩⟩ := by
  unfold addOrFind at h ⊢
  generalize t.findInternal c k = r at h ⊢
  obtain ⟨t1, j, _ | s⟩ := r
  · cases ins with
    | rejected => simp at h
    | inserted victim => dsimp only; split <;> simp
  · simp at h

/-- A lookup that finds a key returns its slot, which stays in the table. -/
theorem findInternal_found (c : Ctx) (h : (t.findInternal c k).2.2 = some s) :
    (t.findInternal c k).1.prime k = some s := by
  cases hp : t.prime k with
  | none => simp [findInternal, hp] at h
  | some s' =>
    cases he : t.expire k with
    | none => simp_all [findInternal, expireIfNeeded]
    | some d =>
      simp [findInternal, expireIfNeeded, hp, he] at h ⊢
      split_ifs at h ⊢ <;> simp_all

/-- `FindMutable` is `FindInternal` with an updater that saw the value's size. -/
theorem findMutable_eq (c : Ctx) : t.findMutable c k = ((t.findInternal c k).1,
    (t.findInternal c k).2.1, (t.findInternal c k).2.2.map fun s => ⟨k, c.sz.valueMalloc s.value.str⟩) := by
  unfold findMutable; split <;> simp_all

/-- A key `FindMutable` finds is in the table. -/
theorem findMutable_found (c : Ctx) {u : AutoUpdater} (h : (t.findMutable c k).2.2 = some u) :
    k ∈ (t.findMutable c k).1.keys := by
  rw [findMutable_eq] at h ⊢
  obtain ⟨s, hs, -⟩ := Option.map_eq_some'.1 h
  simp [mem_keys, findInternal_found c hs]

/-- A key `AddOrFind` finds is in the table. -/
theorem addOrFind_found (c : Ctx) (ins : Insertion) {u : AutoUpdater}
    (h : (t.addOrFind c ins k).2.2 = .found u) : k ∈ (t.addOrFind c ins k).1.keys := by
  unfold addOrFind at h ⊢
  have hf := fun s => findInternal_found (t := t) (k := k) (s := s) c
  generalize t.findInternal c k = r at h hf ⊢
  obtain ⟨t1, j, _ | s⟩ := r
  · cases ins with
    | rejected => simp at h
    | inserted victim => simp at h
  · have hs : t1.prime k = some s := hf s rfl
    simp [t1.mem_keys, hs]

end Deletion

section Keys
variable {t} (k k' : String)

/-! Operations on a slot's bits, its deadline, its flag or the statistics keep the key set. -/

@[simp] theorem addExpire_keys (d : Int) : (t.addExpire k d).keys = t.keys := rfl
@[simp] theorem removeExpire_keys : (t.removeExpire k).1.keys = t.keys := by
  unfold removeExpire; split <;> [split <;> rfl; rfl]
@[simp] theorem setMCFlag_keys (f : Nat) : (t.setMCFlag k f).keys = t.keys := by
  unfold setMCFlag; split <;> rfl
@[simp] theorem runUpdater_keys (sz : Sizes) (u : AutoUpdater) : (t.runUpdater sz u).keys = t.keys := by
  unfold runUpdater; split <;> simp
@[simp] theorem reduceHeapUsage_keys (u : AutoUpdater) : (t.reduceHeapUsage u).1.keys = t.keys := by
  simp [reduceHeapUsage]

end Keys

end DbTable

/-- The table `CreateDb` makes: empty. -/
def DbTable.empty : DbTable where
  prime _ := none
  keys := ∅
  mem_keys _ := by simp
  expire _ := none
  mcflag _ := none
  stats := ⟨0, 0⟩
  watchedKeys _ := []
  watchedDirty _ := false

end Dragonfly.Keys
