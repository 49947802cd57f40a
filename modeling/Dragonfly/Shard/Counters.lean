import Mathlib.Algebra.BigOperators.Group.Finset

/-!
# The shard's counters and the slot-flush fiber

`DbSlice` keeps `entries_count_` (the keys of all its databases) and `table_memory_` (the memory of
their prime and expire tables) as running totals, and each table keeps `slots_stats[s].key_count`.
Every insertion, deletion, expire-table change and `FlushDbIndexes` moves the totals by what it
changes, so they agree with the live tables in every run where no table that a running
`FlushSlotsFb` holds is flushed (`counters_agree_liveRun`).

`FlushSlotsFb` keeps its own `intrusive_ptr` to db 0's table. When `FLUSHALL` replaces that table
while the fiber runs, `FlushDbIndexes` has already taken the old table's keys off
`entries_count_`, and every key the fiber still deletes from the old table is taken off again
(`iterateKey_stale_breaks`).

Tables live in `heap` under ids (an `intrusive_ptr<DbTable>` is an id); `KeySlot` and the memory of
a new table are parameters.
-/

namespace Dragonfly.Counters

/-- A `DbTable` as the counters see it: its keys, the version of each key's bucket,
`table_memory()` (prime and expire tables together) and `slots_stats[s].key_count`. -/
structure Table where
  keys : Finset String
  version : String → Nat
  memory : Int
  slotCount : Nat → Int

/-- A running `DbSlice::FlushSlotsFb`: the table its `intrusive_ptr` holds (copied from
`db_arr_.front()`), the version `RegisterOnChange` gave it, and `slot_ids`. -/
structure FlushFiber where
  table : Nat
  version : Nat
  slots : Nat → Bool

/-- The fields of `DbSlice` the counters are about: the tables, `db_arr_` (`dbCount` entries),
`entries_count_`, `table_memory_`, `next_version_` and the running slot flushes. -/
structure Shard where
  heap : Nat → Table
  dbCount : Nat
  dbArr : Nat → Option Nat
  nextId : Nat
  entriesCount : Int
  tableMemory : Int
  nextVersion : Nat
  flushes : List FlushFiber

variable (keySlot : String → Nat) (emptyMemory : Int)

namespace Table

variable (t : Table)

/-- A new `DbTable`. -/
def empty : Table := ⟨∅, fun _ => 0, emptyMemory, fun _ => 0⟩

/-- `PrimeTable::InsertNew` of `k` in a bucket at version `v`, the table growing by `grow`, and
`slots_stats[KeySlot(k)].key_count += 1`. -/
def insert (k : String) (v : Nat) (grow : Int) : Table where
  keys := Insert.insert k t.keys
  version := Function.update t.version k v
  memory := t.memory + grow
  slotCount := Function.update t.slotCount (keySlot k) (t.slotCount (keySlot k) + 1)

/-- `PrimeTable::Erase` of `k`, and `slots_stats[KeySlot(k)].key_count -= 1`. -/
def erase (k : String) : Table :=
  { t with
    keys := t.keys.erase k
    slotCount := Function.update t.slotCount (keySlot k) (t.slotCount (keySlot k) - 1) }

/-- The expire table changes size by `d`. -/
def growExpire (d : Int) : Table := { t with memory := t.memory + d }

/-- `slots_stats[s].key_count` is the number of keys in slot `s`. -/
def SlotsAgree : Prop := ∀ n, t.slotCount n = ((t.keys.filter fun k => keySlot k = n).card : Int)

end Table

namespace Shard

variable (s : Shard)

/-- Table `id` becomes `t`. -/
def setTable (id : Nat) (t : Table) : Shard := { s with heap := Function.update s.heap id t }

/-! ## Algorithm -/

/-- `PerformDeletionAtomic(del_it, exp_it, table)` on key `k` of table `id`: the slot count and
the erase on that table, `--entries_count_` on the shard. -/
def performDeletion (id : Nat) (k : String) : Shard :=
  { s.setTable id ((s.heap id).erase keySlot k) with entriesCount := s.entriesCount - 1 }

/-- The insertion path of `AddOrFindInternal` into db `i`: `InsertNew` grows the prime table by
`grow`, then `table_memory_ += table_increase`, `entries_count_++`, `SetVersion(NextVersion())`
and the slot count. -/
def addNew (i : Nat) (k : String) (grow : Int) : Shard :=
  match s.dbArr i with
  | some id =>
    { s.setTable id ((s.heap id).insert keySlot k s.nextVersion grow) with
      tableMemory := s.tableMemory + grow
      entriesCount := s.entriesCount + 1
      nextVersion := s.nextVersion + 1 }
  | none => s

/-- `AddExpire`, `RemoveExpire`: db `i`'s expire table changes size by `d`, and `table_memory_`
with it. -/
def growExpire (i : Nat) (d : Int) : Shard :=
  match s.dbArr i with
  | some id => { s.setTable id ((s.heap id).growExpire d) with tableMemory := s.tableMemory + d }
  | none => s

/-- One index of `FlushDbIndexes`: `table_memory_` and `entries_count_` lose the table's share,
`db_arr_[index]` is moved out, and `CreateDb` makes a new table and accounts its memory. -/
def flushDbIndex (i : Nat) : Shard :=
  match s.dbArr i with
  | some id =>
    { s with
      heap := Function.update s.heap s.nextId (Table.empty emptyMemory)
      dbArr := Function.update s.dbArr i (some s.nextId)
      nextId := s.nextId + 1
      tableMemory := s.tableMemory - (s.heap id).memory + emptyMemory
      entriesCount := s.entriesCount - (s.heap id).keys.card }
  | none => s

/-- `DbSlice::FlushDbIndexes(indexes)`; `FlushDb(kDbAll)` passes every index with a table. -/
def flushDbIndexes (indexes : List Nat) : Shard :=
  indexes.foldl (fun s i => s.flushDbIndex emptyMemory i) s

/-- `FlushSlotsFb` starts: it copies the pointer to db 0's table, and `RegisterOnChange` gives it
`NextVersion()`. -/
def flushSlotsStart (slots : Nat → Bool) : Shard :=
  match s.dbArr 0 with
  | some id =>
    { s with
      flushes := s.flushes ++ [⟨id, s.nextVersion, slots⟩]
      nextVersion := s.nextVersion + 1 }
  | none => s

/-- `iterate_bucket` of a running slot flush meets key `k` of its table: a key of a flushed slot in
a bucket older than the fiber is deleted with `PerformDeletion(it, table.get())`. -/
def iterateKey (f : FlushFiber) (k : String) : Shard :=
  if k ∈ (s.heap f.table).keys ∧ f.slots (keySlot k) = true ∧ (s.heap f.table).version k < f.version
  then s.performDeletion keySlot f.table k
  else s

/-- `UnregisterOnChange`: the `n`-th running slot flush ends. -/
def flushSlotsEnd (n : Nat) : Shard := { s with flushes := s.flushes.eraseIdx n }

/-- The share of db `i` in a total that counts `g` of each live table. -/
def share (g : Table → Int) (i : Nat) : Int :=
  match s.dbArr i with
  | some id => g (s.heap id)
  | none => 0

/-- The three equalities: `entries_count_` is the sum of the live tables' numbers of keys,
`table_memory_` the sum of their `table_memory()`, and each live table's slot counts are its
numbers of keys per slot. -/
structure CountersAgree : Prop where
  entries : s.entriesCount = ∑ i in Finset.range s.dbCount, s.share (fun t => t.keys.card) i
  memory : s.tableMemory = ∑ i in Finset.range s.dbCount, s.share Table.memory i
  slots : ∀ i id, s.dbArr i = some id → (s.heap id).SlotsAgree keySlot

/-- The shape the totals rely on: db 0 has a table, no index past `dbCount` has one, live tables
are distinct and older than `nextId`, and so are the tables of the running slot flushes. -/
structure WellFormed : Prop where
  db0 : 0 < s.dbCount ∧ (s.dbArr 0).isSome
  outside : ∀ i, s.dbCount ≤ i → s.dbArr i = none
  lt : ∀ i id, s.dbArr i = some id → id < s.nextId
  inj : ∀ i j id, s.dbArr i = some id → s.dbArr j = some id → i = j
  fibers : ∀ f ∈ s.flushes, f.table < s.nextId

/-- Every running slot flush holds a live table. -/
def FibersLive : Prop := ∀ f ∈ s.flushes, ∃ i, s.dbArr i = some f.table

end Shard

/-- A shard with db 0 only, empty. -/
def initial : Shard :=
  ⟨fun _ => Table.empty emptyMemory, 1, fun i => if i = 0 then some 0 else none, 1, 0, emptyMemory,
    0, []⟩

open Shard in
/-- What the shard can do next: insert a key, delete one (`Del`, expiry, eviction), change an
expire table, flush databases, start, run or end a slot flush. -/
inductive Step : Shard → Shard → Prop
  | addNew {s : Shard} {i id : Nat} {k : String} (grow : Int) : s.dbArr i = some id →
      k ∉ (s.heap id).keys → Step s (s.addNew keySlot i k grow)
  | delete {s : Shard} {i id : Nat} {k : String} : s.dbArr i = some id → k ∈ (s.heap id).keys →
      Step s (s.performDeletion keySlot id k)
  | growExpire {s : Shard} (i : Nat) (d : Int) : Step s (s.growExpire i d)
  | flushDb {s : Shard} (indexes : List Nat) : Step s (s.flushDbIndexes emptyMemory indexes)
  | flushSlotsStart {s : Shard} (slots : Nat → Bool) : Step s (s.flushSlotsStart slots)
  | flushSlotsIterate {s : Shard} {f : FlushFiber} (k : String) : f ∈ s.flushes →
      Step s (s.iterateKey keySlot f k)
  | flushSlotsEnd {s : Shard} (n : Nat) : Step s (s.flushSlotsEnd n)

/-- The states reachable from `initial`. -/
inductive Reachable : Shard → Prop
  | init : Reachable (initial emptyMemory)
  | step {s t : Shard} : Reachable s → Step keySlot emptyMemory s t → Reachable t

/-- The runs in which every running slot flush holds a live table: no database a slot flush is
deleting from is flushed while it runs. -/
inductive LiveRun : Shard → Prop
  | init : LiveRun (initial emptyMemory)
  | step {s t : Shard} : LiveRun s → Step keySlot emptyMemory s t → t.FibersLive → LiveRun t

/-! ## Lemmas -/

theorem sum_range_change {n i : Nat} {g g' : Nat → Int} (hi : i < n) (h : ∀ j, j ≠ i → g' j = g j) :
    (Finset.range n).sum g' = (Finset.range n).sum g + (g' i - g i) := by
  have hm := Finset.mem_range.2 hi
  have hs : ∀ f : Nat → Int, (Finset.range n).sum f = f i + ((Finset.range n).erase i).sum f :=
    fun f => (Finset.add_sum_erase _ f hm).symm
  have he : ((Finset.range n).erase i).sum g' = ((Finset.range n).erase i).sum g :=
    Finset.sum_congr rfl fun j hj => h j (Finset.ne_of_mem_erase hj)
  rw [hs g', hs g, he]
  omega

namespace Table

variable {keySlot} {t : Table}

theorem SlotsAgree.insert (h : t.SlotsAgree keySlot) {k : String} (hk : k ∉ t.keys) (v : Nat)
    (grow : Int) : (t.insert keySlot k v grow).SlotsAgree keySlot := fun n => by
  simp only [Table.insert, Finset.filter_insert]
  by_cases hn : keySlot k = n
  · subst hn
    rw [Function.update_same, if_pos rfl,
      Finset.card_insert_of_not_mem fun hm => hk (Finset.mem_filter.1 hm).1, h]
    push_cast; rfl
  · rw [Function.update_noteq (Ne.symm hn), if_neg hn, h]

theorem SlotsAgree.erase (h : t.SlotsAgree keySlot) {k : String} (hk : k ∈ t.keys) :
    (t.erase keySlot k).SlotsAgree keySlot := fun n => by
  simp only [Table.erase, Finset.filter_erase]
  by_cases hn : keySlot k = n
  · subst hn
    have := Finset.card_erase_add_one (Finset.mem_filter.2 ⟨hk, rfl⟩ :
      k ∈ t.keys.filter fun k' => keySlot k' = keySlot k)
    rw [Function.update_same, h]
    omega
  · have hf : k ∉ t.keys.filter fun k' => keySlot k' = n := fun hm => hn (Finset.mem_filter.1 hm).2
    rw [Function.update_noteq (Ne.symm hn), Finset.erase_eq_of_not_mem hf, h]

theorem slotsAgree_empty : (Table.empty emptyMemory).SlotsAgree keySlot := fun _ => by
  simp [Table.empty]

end Table

namespace Shard

variable {keySlot emptyMemory} {s : Shard}

theorem share_setTable (g : Table → Int) (id : Nat) (t : Table) (j : Nat) :
    (s.setTable id t).share g j = if s.dbArr j = some id then g t else s.share g j := by
  simp only [share, setTable]
  cases s.dbArr j with
  | none => simp
  | some id' =>
    by_cases h : id' = id
    · subst h; simp
    · simp [h]

/-- Replacing a live table moves a total by the change of that table's part only. -/
theorem sum_share_setTable (hw : s.WellFormed) {i id : Nat} (hi : s.dbArr i = some id)
    (t : Table) (g : Table → Int) :
    ∑ j in Finset.range s.dbCount, (s.setTable id t).share g j =
      ∑ j in Finset.range s.dbCount, s.share g j + (g t - g (s.heap id)) := by
  have hlt : i < s.dbCount := by
    by_contra h; rw [hw.outside i (by omega)] at hi; cases hi
  rw [sum_range_change hlt fun j hj => by
    rw [share_setTable, if_neg fun h => hj (hw.inj j i id h hi)]]
  simp [share_setTable, hi, share, setTable]

/-- Replacing a table no database holds moves no total. -/
theorem sum_share_setTable_stale {id : Nat} (hst : ∀ i, s.dbArr i ≠ some id) (t : Table)
    (g : Table → Int) :
    ∑ j in Finset.range s.dbCount, (s.setTable id t).share g j =
      ∑ j in Finset.range s.dbCount, s.share g j :=
  Finset.sum_congr rfl fun j _ => by rw [share_setTable, if_neg (hst j)]

theorem WellFormed.setTable (hw : s.WellFormed) (id : Nat) (t : Table) :
    (s.setTable id t).WellFormed :=
  ⟨hw.db0, hw.outside, hw.lt, hw.inj, hw.fibers⟩

theorem slots_setTable (hc : s.CountersAgree keySlot) {id : Nat} {t : Table}
    (ht : t.SlotsAgree keySlot) : ∀ i id', (s.setTable id t).dbArr i = some id' →
      ((s.setTable id t).heap id').SlotsAgree keySlot := fun i id' hi => by
  by_cases h : id' = id
  · subst h; simpa [setTable] using ht
  · simpa [setTable, h] using hc.slots i id' hi

/-- `PerformDeletion` on a live table keeps the counters. -/
theorem CountersAgree.performDeletion (hw : s.WellFormed) (hc : s.CountersAgree keySlot)
    {i id : Nat} {k : String} (hi : s.dbArr i = some id) (hk : k ∈ (s.heap id).keys) :
    (s.performDeletion keySlot id k).CountersAgree keySlot where
  entries := by
    show s.entriesCount - 1 = ∑ j in Finset.range s.dbCount,
      (s.setTable id ((s.heap id).erase keySlot k)).share (fun t => (t.keys.card : Int)) j
    rw [sum_share_setTable hw hi, ← hc.entries]
    have := Finset.card_erase_add_one hk
    simp only [Table.erase]; omega
  memory := by
    show s.tableMemory = ∑ j in Finset.range s.dbCount,
      (s.setTable id ((s.heap id).erase keySlot k)).share Table.memory j
    rw [sum_share_setTable hw hi, ← hc.memory]; simp [Table.erase]
  slots := slots_setTable hc ((hc.slots i id hi).erase hk)

theorem CountersAgree.addNew (hw : s.WellFormed) (hc : s.CountersAgree keySlot) {i id : Nat}
    {k : String} (hi : s.dbArr i = some id) (hk : k ∉ (s.heap id).keys) (grow : Int) :
    (s.addNew keySlot i k grow).CountersAgree keySlot := by
  simp only [Shard.addNew, hi]
  exact {
    entries := by
      show s.entriesCount + 1 = ∑ j in Finset.range s.dbCount,
        (s.setTable id ((s.heap id).insert keySlot k s.nextVersion grow)).share
          (fun t => (t.keys.card : Int)) j
      rw [sum_share_setTable hw hi, ← hc.entries]
      simp only [Table.insert, Finset.card_insert_of_not_mem hk]; push_cast; omega
    memory := by
      show s.tableMemory + grow = ∑ j in Finset.range s.dbCount,
        (s.setTable id ((s.heap id).insert keySlot k s.nextVersion grow)).share Table.memory j
      rw [sum_share_setTable hw hi, ← hc.memory]; simp only [Table.insert]; omega
    slots := slots_setTable hc ((hc.slots i id hi).insert hk _ grow) }

theorem CountersAgree.growExpire (hw : s.WellFormed) (hc : s.CountersAgree keySlot) (i : Nat)
    (d : Int) : (s.growExpire i d).CountersAgree keySlot := by
  unfold Shard.growExpire
  cases hi : s.dbArr i with
  | none => exact hc
  | some id =>
    exact {
      entries := by
        show s.entriesCount = ∑ j in Finset.range s.dbCount,
          (s.setTable id ((s.heap id).growExpire d)).share (fun t => (t.keys.card : Int)) j
        rw [sum_share_setTable hw hi, ← hc.entries]; simp [Table.growExpire]
      memory := by
        show s.tableMemory + d = ∑ j in Finset.range s.dbCount,
          (s.setTable id ((s.heap id).growExpire d)).share Table.memory j
        rw [sum_share_setTable hw hi, ← hc.memory]; simp only [Table.growExpire]; omega
      slots := slots_setTable hc (hc.slots i id hi) }

section FlushDbIndex

variable {i id : Nat}

@[simp] theorem flushDbIndex_dbCount (i : Nat) : (s.flushDbIndex emptyMemory i).dbCount = s.dbCount := by
  unfold flushDbIndex; split <;> rfl
@[simp] theorem flushDbIndex_flushes (i : Nat) : (s.flushDbIndex emptyMemory i).flushes = s.flushes := by
  unfold flushDbIndex; split <;> rfl
theorem flushDbIndex_dbArr (hi : s.dbArr i = some id) :
    (s.flushDbIndex emptyMemory i).dbArr = Function.update s.dbArr i (some s.nextId) := by
  simp [flushDbIndex, hi]
theorem flushDbIndex_heap (hi : s.dbArr i = some id) :
    (s.flushDbIndex emptyMemory i).heap = Function.update s.heap s.nextId (Table.empty emptyMemory) := by
  simp [flushDbIndex, hi]
theorem flushDbIndex_nextId (hi : s.dbArr i = some id) :
    (s.flushDbIndex emptyMemory i).nextId = s.nextId + 1 := by
  simp [flushDbIndex, hi]
theorem flushDbIndex_entriesCount (hi : s.dbArr i = some id) :
    (s.flushDbIndex emptyMemory i).entriesCount = s.entriesCount - (s.heap id).keys.card := by
  simp [flushDbIndex, hi]
theorem flushDbIndex_tableMemory (hi : s.dbArr i = some id) :
    (s.flushDbIndex emptyMemory i).tableMemory = s.tableMemory - (s.heap id).memory + emptyMemory := by
  simp [flushDbIndex, hi]

theorem share_flushDbIndex (hw : s.WellFormed) (hi : s.dbArr i = some id) (g : Table → Int)
    (j : Nat) : (s.flushDbIndex emptyMemory i).share g j =
      if j = i then g (Table.empty emptyMemory) else s.share g j := by
  simp only [share, flushDbIndex_dbArr hi, flushDbIndex_heap hi]
  by_cases hj : j = i
  · subst hj; simp
  · rw [if_neg hj, Function.update_noteq hj]
    cases hj' : s.dbArr j with
    | none => rfl
    | some id' => simp [Function.update_noteq (hw.lt j id' hj').ne]

/-- Flushing db `i` moves a total by the new table's part minus the old one's. -/
theorem sum_share_flushDbIndex (hw : s.WellFormed) (hi : s.dbArr i = some id) (g : Table → Int) :
    ∑ j in Finset.range (s.flushDbIndex emptyMemory i).dbCount, (s.flushDbIndex emptyMemory i).share g j =
      ∑ j in Finset.range s.dbCount, s.share g j + (g (Table.empty emptyMemory) - g (s.heap id)) := by
  have hlt : i < s.dbCount := by
    by_contra h; rw [hw.outside i (by omega)] at hi; cases hi
  rw [flushDbIndex_dbCount, sum_range_change hlt fun j hj =>
    (share_flushDbIndex hw hi g j).trans (if_neg hj), share_flushDbIndex hw hi, if_pos rfl]
  simp [share, hi]

/-- One index of `FlushDbIndexes` keeps the shape and the counters. -/
theorem flushDbIndex_keeps (hw : s.WellFormed) (hc : s.CountersAgree keySlot) (i : Nat) :
    (s.flushDbIndex emptyMemory i).WellFormed ∧
      (s.flushDbIndex emptyMemory i).CountersAgree keySlot := by
  cases hi : s.dbArr i with
  | none => simp only [flushDbIndex, hi]; exact ⟨hw, hc⟩
  | some id =>
    have hlt : i < s.dbCount := by
      by_contra h; rw [hw.outside i (by omega)] at hi; cases hi
    have hfresh : ∀ j, s.dbArr j ≠ some s.nextId := fun j h => (hw.lt j _ h).false
    have hA := @flushDbIndex_dbArr emptyMemory s i id hi
    have hH := @flushDbIndex_heap emptyMemory s i id hi
    refine ⟨⟨?_, fun j hj => ?_, fun j id' hj => ?_, fun j j' id' h h' => ?_, fun f hf => ?_⟩,
      ⟨?_, ?_, fun j id' hj => ?_⟩⟩
    · rw [flushDbIndex_dbCount, hA]
      by_cases h0 : 0 = i <;> simp [Function.update_apply, h0, hw.db0, hlt]
    · rw [hA, Function.update_noteq (by simp at hj; omega)]; exact hw.outside j (by simpa using hj)
    · rw [flushDbIndex_nextId hi]
      rw [hA] at hj
      by_cases h : j = i
      · subst h; simp at hj; omega
      · rw [Function.update_noteq h] at hj; have := hw.lt j id' hj; omega
    · rw [hA] at h h'
      by_cases hj : j = i <;> by_cases hj' : j' = i
      · rw [hj, hj']
      · subst hj; simp at h; subst h; rw [Function.update_noteq hj'] at h'; exact (hfresh _ h').elim
      · subst hj'; simp at h'; subst h'; rw [Function.update_noteq hj] at h; exact (hfresh _ h).elim
      · rw [Function.update_noteq hj] at h; rw [Function.update_noteq hj'] at h'
        exact hw.inj j j' id' h h'
    · rw [flushDbIndex_nextId hi]; have := hw.fibers f (by simpa using hf); omega
    · rw [flushDbIndex_entriesCount hi, sum_share_flushDbIndex hw hi, hc.entries]
      simp [Table.empty]; omega
    · rw [flushDbIndex_tableMemory hi, sum_share_flushDbIndex hw hi, hc.memory]
      simp [Table.empty]; omega
    · rw [hA] at hj
      rw [hH]
      by_cases h : j = i
      · subst h; simp at hj; subst hj; simpa using @Table.slotsAgree_empty keySlot emptyMemory
      · rw [Function.update_noteq h] at hj
        rw [Function.update_noteq (hw.lt j id' hj).ne]; exact hc.slots j id' hj

end FlushDbIndex

theorem WellFormed.performDeletion (hw : s.WellFormed) (id : Nat) (k : String) :
    (s.performDeletion keySlot id k).WellFormed :=
  ⟨hw.db0, hw.outside, hw.lt, hw.inj, hw.fibers⟩

theorem WellFormed.addNew (hw : s.WellFormed) (i : Nat) (k : String) (grow : Int) :
    (s.addNew keySlot i k grow).WellFormed := by
  unfold Shard.addNew; split
  · exact ⟨hw.db0, hw.outside, hw.lt, hw.inj, hw.fibers⟩
  · exact hw

theorem WellFormed.growExpire (hw : s.WellFormed) (i : Nat) (d : Int) :
    (s.growExpire i d).WellFormed := by
  unfold Shard.growExpire; split
  · exact ⟨hw.db0, hw.outside, hw.lt, hw.inj, hw.fibers⟩
  · exact hw

/-- `FlushDbIndexes` keeps the shape and the counters. -/
theorem flushDbIndexes_keeps : ∀ (indexes : List Nat) {s : Shard}, s.WellFormed →
    s.CountersAgree keySlot → (s.flushDbIndexes emptyMemory indexes).WellFormed ∧
      (s.flushDbIndexes emptyMemory indexes).CountersAgree keySlot
  | [], _, hw, hc => ⟨hw, hc⟩
  | i :: is, _, hw, hc =>
    have h := @flushDbIndex_keeps keySlot emptyMemory _ hw hc i
    flushDbIndexes_keeps is h.1 h.2

theorem flushSlotsStart_keeps (hw : s.WellFormed) (hc : s.CountersAgree keySlot)
    (slots : Nat → Bool) :
    (s.flushSlotsStart slots).WellFormed ∧ (s.flushSlotsStart slots).CountersAgree keySlot := by
  unfold Shard.flushSlotsStart
  split
  · next id hid =>
    refine ⟨⟨hw.db0, hw.outside, hw.lt, hw.inj, fun f hf => ?_⟩, ⟨hc.entries, hc.memory, hc.slots⟩⟩
    rcases List.mem_append.1 hf with hf | hf
    · exact hw.fibers f hf
    · rw [List.mem_singleton.1 hf]; exact hw.lt 0 id hid
  · exact ⟨hw, hc⟩

/-- A deletion of a running slot flush keeps the counters when its table is live. -/
theorem iterateKey_keeps (hw : s.WellFormed) (hc : s.CountersAgree keySlot) {f : FlushFiber}
    {i : Nat} (hi : s.dbArr i = some f.table) (k : String) :
    (s.iterateKey keySlot f k).WellFormed ∧ (s.iterateKey keySlot f k).CountersAgree keySlot := by
  unfold Shard.iterateKey
  split
  · next h => exact ⟨hw.performDeletion _ _, hc.performDeletion hw hi h.1⟩
  · exact ⟨hw, hc⟩

theorem flushSlotsEnd_keeps (hw : s.WellFormed) (hc : s.CountersAgree keySlot) (n : Nat) :
    (s.flushSlotsEnd n).WellFormed ∧ (s.flushSlotsEnd n).CountersAgree keySlot :=
  ⟨⟨hw.db0, hw.outside, hw.lt, hw.inj, fun f hf => hw.fibers f (List.mem_of_mem_eraseIdx hf)⟩,
    ⟨hc.entries, hc.memory, hc.slots⟩⟩

end Shard

open Shard

variable {keySlot emptyMemory} {s t : Shard}

theorem initial_keeps : (initial emptyMemory).WellFormed ∧ (initial emptyMemory).CountersAgree keySlot := by
  refine ⟨⟨by simp [initial], fun i hi => ?_, fun i id h => ?_, fun i j id h h' => ?_, by simp [initial]⟩,
    ⟨by simp [initial, share, Table.empty], by simp [initial, share, Table.empty], fun i id h => ?_⟩⟩ <;>
    simp only [initial] at * <;> split_ifs at * <;> simp_all
  exact Table.slotsAgree_empty emptyMemory

/-- Every step from a shard whose slot flushes hold live tables keeps the shape and the
counters. -/
theorem Step.keeps (h : Step keySlot emptyMemory s t) (hw : s.WellFormed)
    (hc : s.CountersAgree keySlot) (hl : s.FibersLive) : t.WellFormed ∧ t.CountersAgree keySlot := by
  cases h with
  | addNew grow hi hk => exact ⟨hw.addNew _ _ _, hc.addNew hw hi hk grow⟩
  | delete hi hk => exact ⟨hw.performDeletion _ _, hc.performDeletion hw hi hk⟩
  | growExpire i d => exact ⟨hw.growExpire i d, hc.growExpire hw i d⟩
  | flushDb indexes => exact flushDbIndexes_keeps indexes hw hc
  | flushSlotsStart slots => exact flushSlotsStart_keeps hw hc slots
  | flushSlotsIterate k hf =>
    obtain ⟨i, hi⟩ := hl _ hf
    exact iterateKey_keeps hw hc hi k
  | flushSlotsEnd n => exact flushSlotsEnd_keeps hw hc n

theorem LiveRun.fibersLive (h : LiveRun keySlot emptyMemory s) : s.FibersLive := by
  cases h with
  | init => intro f hf; simp [initial] at hf
  | step _ _ hl => exact hl

theorem LiveRun.keeps (h : LiveRun keySlot emptyMemory s) :
    s.WellFormed ∧ s.CountersAgree keySlot := by
  induction h with
  | init => exact initial_keeps
  | step hr hs _ ih => exact hs.keeps ih.1 ih.2 hr.fibersLive

/-! ## Main theorems -/

/-- In every run where no database a running slot flush holds is flushed, `entries_count_` and
`table_memory_` are the totals over the live tables, and each live table's slot counts are its
numbers of keys per slot. -/
theorem counters_agree_liveRun (h : LiveRun keySlot emptyMemory s) : s.CountersAgree keySlot :=
  h.keeps.2

/-- A key inserted into db 0 of a new shard. -/
theorem counters_agree_liveRun_addNew :
    let s1 := (initial 0).addNew (fun _ => 0) 0 "k" 0
    LiveRun (fun _ => 0) 0 s1 ∧ s1.CountersAgree (fun _ => 0) :=
  have h : LiveRun (fun _ => 0) 0 ((initial 0).addNew (fun _ => 0) 0 "k" 0) :=
    .step .init (.addNew 0 rfl (by simp [initial, Table.empty]))
      (by simp [FibersLive, addNew, setTable, initial])
  ⟨h, counters_agree_liveRun h⟩

/-- A slot flush whose table is no longer in `db_arr_` (a `FLUSHALL` replaced it) deleting one of
its keys: `entries_count_` goes down while no live table changes. -/
theorem iterateKey_stale_breaks (hc : s.CountersAgree keySlot) {f : FlushFiber} {k : String}
    (hstale : ∀ i, s.dbArr i ≠ some f.table) (hk : k ∈ (s.heap f.table).keys)
    (hslot : f.slots (keySlot k) = true) (hver : (s.heap f.table).version k < f.version) :
    ¬ (s.iterateKey keySlot f k).CountersAgree keySlot := fun h' => by
  have h1 := h'.entries
  rw [Shard.iterateKey, if_pos ⟨hk, hslot, hver⟩] at h1
  change s.entriesCount - 1 = ∑ j in Finset.range s.dbCount,
    (s.setTable f.table ((s.heap f.table).erase keySlot k)).share (fun t => (t.keys.card : Int)) j at h1
  rw [sum_share_setTable_stale hstale, ← hc.entries] at h1
  omega

/-- One key in db 0, a slot flush of every slot starts, `FLUSHALL` runs, then the slot flush
deletes the key from the table it still holds. -/
theorem iterateKey_stale_breaks_flushAll :
    let s3 := (((initial 0).addNew (fun _ => 0) 0 "k" 0).flushSlotsStart fun _ => true).flushDbIndexes 0 [0]
    Reachable (fun _ => 0) 0 s3 ∧ s3.CountersAgree (fun _ => 0) ∧
      ¬ (s3.iterateKey (fun _ => 0) ⟨0, 1, fun _ => true⟩ "k").CountersAgree (fun _ => 0) :=
  have h0 := @initial_keeps (fun _ => 0) 0
  have h1 : Step (fun _ => 0) 0 (initial 0) ((initial 0).addNew (fun _ => 0) 0 "k" 0) :=
    .addNew 0 rfl (by simp [initial, Table.empty])
  have h2 := h1.keeps h0.1 h0.2 (by simp [FibersLive, initial])
  have h3 := flushSlotsStart_keeps h2.1 h2.2 fun _ => true
  have h4 := @flushDbIndexes_keeps (fun _ => 0) 0 [0] _ h3.1 h3.2
  ⟨.step (.step (.step .init h1) (.flushSlotsStart _)) (.flushDb _), h4.2,
    iterateKey_stale_breaks h4.2
      (by simp [flushDbIndexes, flushDbIndex, flushSlotsStart, addNew, setTable, initial,
        Function.update_apply]; intro i; split_ifs <;> simp)
      (by simp [flushDbIndexes, flushDbIndex, flushSlotsStart, addNew, setTable, initial, Table.insert])
      rfl
      (by simp [flushDbIndexes, flushDbIndex, flushSlotsStart, addNew, setTable, initial, Table.insert])⟩

end Dragonfly.Counters
