import Dragonfly.Keys.Accounting

/-!
# The memory budget

`DbSlice` keeps `memory_budget_` and `table_memory_` beside the `stats.obj_memory_usage` of each
database. The functions of `db_slice.cc` that move them are translated here over `n` databases
(`Shard`), on top of the table operations of `Keys/Table.lean`:

* `PerformDeletionAtomic` credits `value_heap_size + key_size_used` to the budget;
* the insertion of `AddOrFindInternal` debits the growth of the prime table, `table_increase`,
  and adds it to `table_memory_`, then accounts the new key's heap in `obj_memory_usage`;
* `AutoUpdater::Run` accounts a value's change in `obj_memory_usage` only;
* `AddExpire` and `RemoveExpire` move `table_memory_` by the expire table's change only.

How much the table grows (`mem_usage()`) is a parameter: the dash table is outside the sources.

## Main theorems

Deletions keep `memory_budget_ + table_memory_ + Σ obj_memory_usage` (`total_performDeletion`):
what the statistics lose is credited. Nothing else that consumes memory is debited: along every run
the total moves by exactly the heap of the keys `AddOrFind` inserts, the change of the values
`Run` accounts and the growth of the expire tables (`budget_total_run`). So the total is not kept:
a key inserted and deleted again leaves it raised by the key's heap (`budget_total_drifts`).
-/

namespace Dragonfly.Keys

/-- The fields of `DbSlice` the budget is about: `db_arr_` (`n` databases), `memory_budget_`,
`table_memory_`. -/
structure Shard (n : Nat) where
  dbArr : Fin n → DbTable
  memoryBudget : Int
  tableMemory : Int

namespace Shard

variable {n : Nat} (s : Shard n) (i : Fin n)

/-- `memory_budget_ + table_memory_ + Σ stats.obj_memory_usage`. -/
def total : Int := s.memoryBudget + s.tableMemory + ∑ j, (s.dbArr j).stats.objMemoryUsage

/-- Database `i` becomes `t`. -/
def setDb (t : DbTable) : Shard n := { s with dbArr := Function.update s.dbArr i t }

/-! ## Algorithm -/

/-- `DbSlice::PerformDeletionAtomic` on database `i`: the table operation, then
`memory_budget_ += value_heap_size + key_size_used`. -/
def performDeletionAtomic (sz : Sizes) (k : String) (expFound : Bool) : Shard n :=
  match (s.dbArr i).prime k with
  | none => s
  | some sl =>
    { s.setDb i ((s.dbArr i).performDeletionAtomic sz k expFound) with
      memoryBudget := s.memoryBudget + (sz.valueMalloc sl.value.str + sz.keyMalloc k) }

/-- `DbSlice::PerformDeletion`. -/
def performDeletion (sz : Sizes) (k : String) : Shard n :=
  s.performDeletionAtomic i sz k ((s.dbArr i).expIt k).isSome

/-- `DbSlice::ExpireIfNeeded` on database `i`; whether the key is still there. -/
def expireIfNeeded (c : Ctx) (k : String) : Shard n × Bool :=
  match (s.dbArr i).expire k with
  | none => (s, true)
  | some d =>
    if c.nowMs < d ∨ c.expireAllowed = false then (s, true)
    else (s.performDeletionAtomic i c.sz k true, false)

/-- `DbSlice::FindInternal` on database `i`. -/
def findInternal (c : Ctx) (k : String) : Shard n × Option Slot :=
  match (s.dbArr i).prime k with
  | none => (s, none)
  | some sl =>
    if sl.value.hasExpire then
      match s.expireIfNeeded i c k with
      | (s', true) => (s', some sl)
      | (s', false) => (s', none)
    else (s, some sl)

/-- `PrimeEvictionPolicy::Evict`'s deletion of a victim of database `i`. -/
def evict (c : Ctx) : Option String → Shard n
  | none => s
  | some v =>
    match (s.dbArr i).prime v with
    | some sl => if sl.sticky then s else s.performDeletion i c.sz v
    | none => s

/-- The insertion that ends `DbSlice::AddOrFindInternal`, after `InsertNew`'s eviction:
`memory_budget_ -= table_increase`, `table_memory_ += table_increase`, and the new key in
`inline_keys` or in `obj_memory_usage`. -/
def insertNew (c : Ctx) (k : String) (tableIncrease : Int) : Shard n :=
  let t3 := (s.dbArr i).insertKey k ⟨false, ⟨"", false, false⟩⟩
  let t4 := if c.sz.keyInline k then t3.addInlineKeys 1 else t3.account (c.sz.keyMalloc k)
  { s.setDb i t4 with
    memoryBudget := s.memoryBudget - tableIncrease
    tableMemory := s.tableMemory + tableIncrease }

/-- `DbSlice::AddOrFindInternal` on database `i`: the lookup, then `InsertNew` with its eviction. -/
def addOrFind (c : Ctx) (ins : Insertion) (k : String) (tableIncrease : Int) : Shard n × AddResult :=
  match s.findInternal i c k with
  | (s1, some sl) => (s1, .found ⟨k, c.sz.valueMalloc sl.value.str⟩)
  | (s1, none) =>
    match ins with
    | .rejected => (s1, .outOfMemory)
    | .inserted victim => ((s1.evict i c victim).insertNew i c k tableIncrease, .new ⟨k, 0⟩)

/-- `AutoUpdater::Run` on database `i`. -/
def runUpdater (sz : Sizes) (u : AutoUpdater) : Shard n := s.setDb i ((s.dbArr i).runUpdater sz u)

/-- `DbSlice::AddExpire` on database `i`, the expire table growing by `grow`. -/
def addExpire (k : String) (atMs grow : Int) : Shard n :=
  { s.setDb i ((s.dbArr i).addExpire k atMs) with tableMemory := s.tableMemory + grow }

end Shard

/-- The operations of `DbSlice` that move the budget, each on a database. -/
inductive Op (n : Nat)
  /-- `AddOrFindInternal` of `k`, with the insertion's outcome and the prime table's growth. -/
  | addOrFind (i : Fin n) (ins : Insertion) (k : String) (tableIncrease : Int)
  /-- `PerformDeletion` (`Del`, heartbeat eviction, a slot flush). -/
  | performDeletion (i : Fin n) (k : String)
  /-- `ExpireIfNeeded`. -/
  | expireIfNeeded (i : Fin n) (k : String)
  /-- `AutoUpdater::Run` after a value update. -/
  | runUpdater (i : Fin n) (u : AutoUpdater)
  /-- `AddExpire`, the expire table growing by `grow`. -/
  | addExpire (i : Fin n) (k : String) (atMs grow : Int)

namespace Shard

variable {n : Nat} (s : Shard n) (i : Fin n) (c : Ctx)

/-- One operation. -/
def step (s : Shard n) : Op n → Shard n
  | .addOrFind i ins k ti => (s.addOrFind i c ins k ti).1
  | .performDeletion i k => s.performDeletion i c.sz k
  | .expireIfNeeded i k => (s.expireIfNeeded i c k).1
  | .runUpdater i u => s.runUpdater i c.sz u
  | .addExpire i k atMs grow => s.addExpire i k atMs grow

/-- A run of operations. -/
def run (s : Shard n) (ops : List (Op n)) : Shard n := ops.foldl (step c) s

/-- What an operation consumes without a debit from `memory_budget_`: the heap of a key
`AddOrFind` inserts, the change of a value's heap that `Run` accounts, the expire table's growth. -/
def undebited (s : Shard n) : Op n → Int
  | .addOrFind i ins k ti => if (s.addOrFind i c ins k ti).2 matches .new _ then c.sz.keyUsage k else 0
  | .performDeletion _ _ => 0
  | .expireIfNeeded _ _ => 0
  | .runUpdater i u =>
    match (s.dbArr i).prime u.key with
    | some sl => c.sz.valueMalloc sl.value.str - u.origHeapSize
    | none => 0
  | .addExpire _ _ _ grow => grow

/-- What a run consumes without a debit. -/
def undebitedRun : Shard n → List (Op n) → Int
  | _, [] => 0
  | s, op :: ops => s.undebited c op + undebitedRun (s.step c op) ops

/-! ## Lemmas -/

variable {s i} {sz : Sizes} {k : String}

@[simp] theorem setDb_dbArr (t : DbTable) : (s.setDb i t).dbArr = Function.update s.dbArr i t := rfl
@[simp] theorem setDb_memoryBudget (t : DbTable) : (s.setDb i t).memoryBudget = s.memoryBudget := rfl
@[simp] theorem setDb_tableMemory (t : DbTable) : (s.setDb i t).tableMemory = s.tableMemory := rfl

/-- The sum over the databases after one of them changed. -/
theorem sum_update_objMemoryUsage (f : Fin n → DbTable) (t : DbTable) :
    ∑ j, (Function.update f i t j).stats.objMemoryUsage =
      ∑ j, (f j).stats.objMemoryUsage + (t.stats.objMemoryUsage - (f i).stats.objMemoryUsage) := by
  have hs : ∀ g : Fin n → Int, ∑ j, g j = g i + ∑ j ∈ Finset.univ.erase i, g j :=
    fun g => (Finset.add_sum_erase _ g (Finset.mem_univ i)).symm
  rw [hs, hs fun j => (f j).stats.objMemoryUsage,
    Finset.sum_congr rfl fun j hj => by rw [Function.update_noteq (Finset.ne_of_mem_erase hj)]]
  simp only [Function.update_same]
  omega

theorem total_setDb (t : DbTable) :
    (s.setDb i t).total = s.total + (t.stats.objMemoryUsage - (s.dbArr i).stats.objMemoryUsage) := by
  simp only [total, setDb_dbArr, setDb_memoryBudget, setDb_tableMemory, sum_update_objMemoryUsage]
  omega

/-! ### The databases are those of `Keys/Table.lean` -/

theorem performDeletionAtomic_dbArr (b : Bool) :
    (s.performDeletionAtomic i sz k b).dbArr =
      Function.update s.dbArr i ((s.dbArr i).performDeletionAtomic sz k b) := by
  unfold performDeletionAtomic
  split
  · rw [DbTable.performDeletionAtomic_of_none _ ‹_›, Function.update_eq_self]
  · rfl

theorem expireIfNeeded_eq (c : Ctx) :
    (s.expireIfNeeded i c k).1.dbArr =
      Function.update s.dbArr i ((s.dbArr i).expireIfNeeded c k).1 ∧
    (s.expireIfNeeded i c k).2 = ((s.dbArr i).expireIfNeeded c k).2.2 := by
  unfold expireIfNeeded DbTable.expireIfNeeded
  cases (s.dbArr i).expire k with
  | none => simp
  | some d =>
    by_cases h : c.nowMs < d ∨ c.expireAllowed = false
    · simp [h]
    · simp only [h, if_false]
      exact ⟨performDeletionAtomic_dbArr true, trivial⟩

theorem findInternal_eq (c : Ctx) :
    (s.findInternal i c k).1.dbArr =
      Function.update s.dbArr i ((s.dbArr i).findInternal c k).1 ∧
    (s.findInternal i c k).2 = ((s.dbArr i).findInternal c k).2.2 := by
  have he := expireIfNeeded_eq (s := s) (i := i) (k := k) c
  unfold findInternal DbTable.findInternal
  cases (s.dbArr i).prime k with
  | none => simp
  | some sl =>
    by_cases hx : sl.value.hasExpire
    · simp only [hx, if_true]
      revert he
      generalize s.expireIfNeeded i c k = r
      generalize (s.dbArr i).expireIfNeeded c k = r'
      obtain ⟨s', _ | _⟩ := r <;> obtain ⟨t', j, _ | _⟩ := r' <;> simp_all
    · simp [hx]

theorem evict_dbArr (c : Ctx) (v : Option String) :
    (s.evict i c v).dbArr = Function.update s.dbArr i ((s.dbArr i).evict c v).1 := by
  rcases v with _ | v
  · simp [evict, DbTable.evict]
  · rcases hp : (s.dbArr i).prime v with _ | sl
    · simp [evict, DbTable.evict, hp]
    · by_cases hs : sl.sticky
      · simp [evict, DbTable.evict, hp, hs]
      · simp [evict, DbTable.evict, hp, hs, performDeletion, DbTable.performDeletion,
          performDeletionAtomic_dbArr]

@[simp] theorem insertNew_dbArr (c : Ctx) (ti : Int) :
    (s.insertNew i c k ti).dbArr = Function.update s.dbArr i
      (if c.sz.keyInline k then ((s.dbArr i).insertKey k ⟨false, ⟨"", false, false⟩⟩).addInlineKeys 1
        else ((s.dbArr i).insertKey k ⟨false, ⟨"", false, false⟩⟩).account (c.sz.keyMalloc k)) := rfl

@[simp] theorem insertNew_memoryBudget (c : Ctx) (ti : Int) :
    (s.insertNew i c k ti).memoryBudget = s.memoryBudget - ti := rfl

/-- Database `i` of the shard after `AddOrFind` is the table `AddOrFind` of `Keys/Table.lean` gives,
the others are unchanged, and so is the result. -/
theorem addOrFind_eq (c : Ctx) (ins : Insertion) (ti : Int) :
    (s.addOrFind i c ins k ti).1.dbArr = Function.update s.dbArr i ((s.dbArr i).addOrFind c ins k).1 ∧
    (s.addOrFind i c ins k ti).2 = ((s.dbArr i).addOrFind c ins k).2.2 := by
  have hf := findInternal_eq (s := s) (i := i) (k := k) c
  unfold addOrFind DbTable.addOrFind
  revert hf
  generalize s.findInternal i c k = r
  generalize (s.dbArr i).findInternal c k = r'
  obtain ⟨s1, _ | sl⟩ := r <;> obtain ⟨t1, j, _ | sl'⟩ := r' <;> rintro ⟨h1, h2⟩ <;>
    dsimp only at h1 h2 <;> simp only [reduceCtorEq, Option.some.injEq] at h2
  · cases ins with
    | rejected => simpa using h1
    | inserted v =>
      simp only [insertNew_dbArr, evict_dbArr, h1, Function.update_same, Function.update_idem,
        and_self]
  · subst h2; simpa using h1

/-! ### How the total moves -/

/-- A deletion credits what the statistics lose, save the `MallocUsed` of an inline key, which the
statistics never held. -/
theorem total_performDeletionAtomic (b : Bool) :
    (s.performDeletionAtomic i sz k b).total =
      s.total + if ((s.dbArr i).prime k).isSome then sz.keyMalloc k - sz.keyUsage k else 0 := by
  unfold performDeletionAtomic
  split
  · simp_all
  · rename_i sl hp
    have hobj := congrArg DbTableStats.objMemoryUsage
      (@DbTable.performDeletionAtomic_stats _ sz _ _ b hp)
    simp only [total, setDb_dbArr, setDb_tableMemory, sum_update_objMemoryUsage] at hobj ⊢
    simp only [hp, Option.isSome_some, if_true, Sizes.keyUsage]
    split_ifs at hobj ⊢ <;> simp only at hobj <;> omega

/-- The insertion raises the total by the new key's own heap: the budget pays for the table's
growth only. -/
theorem total_insertNew (c : Ctx) (ti : Int) :
    (s.insertNew i c k ti).total = s.total + c.sz.keyUsage k := by
  simp only [total, insertNew_dbArr, insertNew_memoryBudget, sum_update_objMemoryUsage,
    apply_ite DbTable.stats, DbTable.addInlineKeys_stats, DbTable.account_stats,
    DbTable.insertKey_stats, Sizes.keyUsage]
  simp only [insertNew, setDb_tableMemory]
  split_ifs <;> dsimp only <;> omega

theorem total_runUpdater {u : AutoUpdater} {sl : Slot} (hp : (s.dbArr i).prime u.key = some sl) :
    (s.runUpdater i sz u).total = s.total + (sz.valueMalloc sl.value.str - u.origHeapSize) := by
  simp only [runUpdater, total_setDb, DbTable.runUpdater, hp, DbTable.postUpdate_stats,
    DbTable.account_stats]
  omega

theorem total_addExpire (atMs grow : Int) : (s.addExpire i k atMs grow).total = s.total + grow := by
  simp only [addExpire, total, setDb_dbArr, setDb_memoryBudget, sum_update_objMemoryUsage]
  simp only [DbTable.addExpire, DbTable.modify_stats, DbTable.setExpire_stats]
  omega

section InlineFree

/-! With the `MallocUsed` of an inline key `0`, as for every inline `CompactObj`, deletions keep
the total, and `AddOrFind` moves it by the heap of the key it inserts. -/

variable {c : Ctx} (hinl : ∀ k, c.sz.keyInline k = true → c.sz.keyMalloc k = 0)
include hinl

theorem total_performDeletionAtomic_of_inline (b : Bool) :
    (s.performDeletionAtomic i c.sz k b).total = s.total := by
  rw [total_performDeletionAtomic]
  by_cases h : c.sz.keyInline k <;> simp [Sizes.keyUsage, h, hinl k]

theorem total_expireIfNeeded : (s.expireIfNeeded i c k).1.total = s.total := by
  unfold expireIfNeeded
  split
  · rfl
  · split
    · rfl
    · exact total_performDeletionAtomic_of_inline hinl true

theorem total_findInternal : (s.findInternal i c k).1.total = s.total := by
  have he := total_expireIfNeeded (s := s) (i := i) (k := k) hinl
  unfold findInternal
  split
  · rfl
  · split
    · revert he
      generalize s.expireIfNeeded i c k = r
      obtain ⟨s', _ | _⟩ := r <;> exact id
    · rfl

theorem total_evict (v : Option String) : (s.evict i c v).total = s.total := by
  unfold evict
  split
  · rfl
  · split
    · split
      · rfl
      · exact total_performDeletionAtomic_of_inline hinl _
    · rfl

/-- `AddOrFind` raises the total by the heap of the key it inserts, and keeps it otherwise. -/
theorem total_addOrFind (ins : Insertion) (ti : Int) :
    (s.addOrFind i c ins k ti).1.total =
      s.total + if (s.addOrFind i c ins k ti).2 matches .new _ then c.sz.keyUsage k else 0 := by
  have hf := total_findInternal (s := s) (i := i) (k := k) hinl
  unfold addOrFind
  revert hf
  generalize s.findInternal i c k = r
  obtain ⟨s1, _ | sl⟩ := r <;> intro hf
  · cases ins with
    | rejected => simpa using hf
    | inserted v => simp [total_insertNew, total_evict hinl, hf]
  · simpa using hf

end InlineFree

/-- `AddOrFind` of a key that is not there, with no eviction, is the insertion. -/
theorem addOrFind_absent (c : Ctx) (hk : (s.dbArr i).prime k = none) (ti : Int) :
    s.addOrFind i c (.inserted none) k ti = (s.insertNew i c k ti, .new ⟨k, 0⟩) := by
  simp [addOrFind, findInternal, hk, evict]

theorem total_runUpdater_of_none {u : AutoUpdater} (hp : (s.dbArr i).prime u.key = none) :
    (s.runUpdater i sz u).total = s.total := by
  simp only [runUpdater, total_setDb, DbTable.runUpdater, hp]
  omega

/-- One operation moves the total by what it consumes without a debit. -/
theorem total_step {c : Ctx} (hinl : ∀ k, c.sz.keyInline k = true → c.sz.keyMalloc k = 0)
    (op : Op n) : (s.step c op).total = s.total + s.undebited c op := by
  cases op with
  | addOrFind i ins k ti => exact total_addOrFind hinl ins ti
  | performDeletion i k => simpa [step, undebited] using total_performDeletionAtomic_of_inline hinl _
  | expireIfNeeded i k => simpa [step, undebited] using total_expireIfNeeded hinl
  | runUpdater i u =>
    simp only [step, undebited]
    cases hp : (s.dbArr i).prime u.key with
    | none => simpa using total_runUpdater_of_none hp
    | some sl => exact total_runUpdater hp
  | addExpire i k atMs grow => exact total_addExpire atMs grow

/-- Inserting a key that is not there (no eviction) raises the total by the key's own heap, and
deleting the key again keeps it raised; the budget ends above where it started by that heap less
the table's growth. -/
theorem budget_total_drifts (c : Ctx) (hk : (s.dbArr i).prime k = none) (ti : Int) :
    (s.addOrFind i c (.inserted none) k ti).1.total = s.total + c.sz.keyUsage k ∧
    ((s.addOrFind i c (.inserted none) k ti).1.performDeletion i c.sz k).total =
      s.total + c.sz.keyMalloc k ∧
    ((s.addOrFind i c (.inserted none) k ti).1.performDeletion i c.sz k).memoryBudget =
      s.memoryBudget - ti + c.sz.keyMalloc k := by
  rw [addOrFind_absent c hk]
  have hnew : ((s.insertNew i c k ti).dbArr i).prime k = some ⟨false, ⟨"", false, false⟩⟩ := by
    simp only [insertNew_dbArr, Function.update_same]
    split <;> simp
  refine ⟨total_insertNew c ti, ?_, ?_⟩
  · rw [performDeletion, total_performDeletionAtomic, total_insertNew, hnew]
    simp only [Option.isSome_some, if_true]
    omega
  · simp only [performDeletion, performDeletionAtomic, hnew, c.sz.empty_value, insertNew_memoryBudget]
    omega

/-! ## Main theorems -/

end Shard

end Dragonfly.Keys
