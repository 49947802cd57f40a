import Mathlib.Algebra.BigOperators.Group.Finset
import Dragonfly.Keys.Table

/-!
# Object-memory accounting

`DbTableStats::obj_memory_usage` follows the heap a database's keys and values own.
`AddOrFindInternal` accounts a new key's `MallocUsed` (or counts it in `inline_keys`),
`PerformDeletionAtomic` takes a deleted key and its value off, and a value changed through an
iterator is accounted by the `AutoUpdater` the lookup returned: `Run` adds the difference between
the value's size now and `orig_heap_size`, `ReduceHeapUsage` takes `orig_heap_size` off early.

`Accounted sz t pending` says the statistics match the keys, the value of the key of a live updater
`pending` counted at its `orig_heap_size`, which is what the statistics hold until the updater runs.
Every primitive keeps it under the discipline the code follows: a value changes only under its own
updater, and a key is deleted only when no updater of it is live.
-/

namespace Dragonfly.Keys

/-- What a key owns itself: its `MallocUsed`, unless it is inline. -/
def Sizes.keyUsage (sz : Sizes) (k : String) : Int := if sz.keyInline k then 0 else sz.keyMalloc k

/-- The updater an `AddOrFind` result holds. -/
def AddResult.updater : AddResult → Option AutoUpdater
  | .found u => some u
  | .new u => some u
  | .outOfMemory => none

namespace DbTable

/-- What the statistics hold for the value of `k`: its `MallocUsed`, or the `orig_heap_size` of
a live updater of `k`. -/
def valueUsage (sz : Sizes) (t : DbTable) (pending : Option AutoUpdater) (k : String) : Int :=
  match pending with
  | some u => if u.key = k then u.origHeapSize else sz.valueMalloc (t.valueStr k)
  | none => sz.valueMalloc (t.valueStr k)

/-- The statistics match the keys: `obj_memory_usage` is the sum over the keys of the key's heap
(when not inline) and the value's, and `inline_keys` counts the inline keys. With `pending = none`
(no updater live) this is the accounting law of `DbTableStats`. -/
structure Accounted (sz : Sizes) (t : DbTable) (pending : Option AutoUpdater) : Prop where
  objMemory : t.stats.objMemoryUsage = ∑ k ∈ t.keys, (sz.keyUsage k + t.valueUsage sz pending k)
  inlineKeys : t.stats.inlineKeys = (t.keys.filter fun k => sz.keyInline k).card

/-! ## Lemmas -/

variable {sz : Sizes} {t t' : DbTable} {p p' : Option AutoUpdater} {k : String}

theorem valueStr_of_prime {s : Slot} (h : t.prime k = some s) : t.valueStr k = s.value.str := by
  simp [valueStr, h]

theorem valueUsage_congr (h : t'.valueStr k = t.valueStr k) :
    t'.valueUsage sz p k = t.valueUsage sz p k := by
  cases p <;> simp [valueUsage, h]

@[simp] theorem valueUsage_none : t.valueUsage sz none k = sz.valueMalloc (t.valueStr k) := rfl

theorem valueUsage_pending {u : AutoUpdater} : t.valueUsage sz (some u) u.key = u.origHeapSize := by
  simp [valueUsage]

theorem valueUsage_other {u : AutoUpdater} (h : u.key ≠ k) :
    t.valueUsage sz (some u) k = sz.valueMalloc (t.valueStr k) := by
  simp [valueUsage, h]

theorem mem_keys_of_prime {s : Slot} (h : t.prime k = some s) : k ∈ t.keys :=
  (t.mem_keys k).2 (by simp [h])

/-! ### How the key set may change -/

/-- The keys stay, and the statistics move by what the value of one key `k` now counts for. -/
theorem Accounted.change (h : Accounted sz t p) (hk : k ∈ t.keys) (hkeys : t'.keys = t.keys)
    (hobj : t'.stats.objMemoryUsage =
      t.stats.objMemoryUsage + (t'.valueUsage sz p' k - t.valueUsage sz p k))
    (hinl : t'.stats.inlineKeys = t.stats.inlineKeys)
    (hv : ∀ k' ∈ t.keys, k' ≠ k → t'.valueUsage sz p' k' = t.valueUsage sz p k') :
    Accounted sz t' p' := by
  have hrest : ∑ k' ∈ t.keys.erase k, (sz.keyUsage k' + t'.valueUsage sz p' k') =
      ∑ k' ∈ t.keys.erase k, (sz.keyUsage k' + t.valueUsage sz p k') :=
    Finset.sum_congr rfl fun k' hk' => by rw [hv k' (Finset.mem_of_mem_erase hk') (Finset.ne_of_mem_erase hk')]
  refine ⟨?_, by rw [hinl, h.inlineKeys, hkeys]⟩
  rw [hkeys, ← Finset.add_sum_erase _ _ hk, hrest, hobj, h.objMemory, ← Finset.add_sum_erase _ _ hk]
  omega

/-- Keys, statistics and every value's count stay. -/
theorem Accounted.congr (h : Accounted sz t p) (hkeys : t'.keys = t.keys) (hs : t'.stats = t.stats)
    (hv : ∀ k ∈ t.keys, t'.valueUsage sz p' k = t.valueUsage sz p k) : Accounted sz t' p' :=
  ⟨by rw [hs, h.objMemory, hkeys]; exact Finset.sum_congr rfl fun k hk => by rw [hv k hk],
    by rw [hs, h.inlineKeys, hkeys]⟩

/-- Both branches of a condition keep the accounting. -/
theorem Accounted.byCases {P : Prop} [Decidable P] {a b : DbTable} (ha : P → Accounted sz a p)
    (hb : ¬P → Accounted sz b p) : Accounted sz (if P then a else b) p := by
  split
  · exact ha ‹_›
  · exact hb ‹_›

/-- The prime table and the statistics stay. -/
theorem Accounted.of_prime (h : Accounted sz t p) (hp : t'.prime = t.prime) (hs : t'.stats = t.stats) :
    Accounted sz t' p :=
  h.congr (Finset.ext fun k => by rw [t'.mem_keys, t.mem_keys, hp]) hs fun k _ =>
    valueUsage_congr (by simp [valueStr, hp])

/-- Key `k` leaves with what it counted for. -/
theorem Accounted.erase (h : Accounted sz t p) (hk : k ∈ t.keys) (hkeys : t'.keys = t.keys.erase k)
    (hobj : t'.stats.objMemoryUsage = t.stats.objMemoryUsage - (sz.keyUsage k + t.valueUsage sz p k))
    (hinl : t'.stats.inlineKeys = t.stats.inlineKeys - if sz.keyInline k then 1 else 0)
    (hv : ∀ k' ∈ t.keys, k' ≠ k → t'.valueUsage sz p k' = t.valueUsage sz p k') :
    Accounted sz t' p := by
  have hrest : ∑ k' ∈ t.keys.erase k, (sz.keyUsage k' + t'.valueUsage sz p k') =
      ∑ k' ∈ t.keys.erase k, (sz.keyUsage k' + t.valueUsage sz p k') :=
    Finset.sum_congr rfl fun k' hk' => by rw [hv k' (Finset.mem_of_mem_erase hk') (Finset.ne_of_mem_erase hk')]
  refine ⟨by rw [hkeys, hrest, hobj, h.objMemory, ← Finset.add_sum_erase _ _ hk]; omega, ?_⟩
  rw [hinl, h.inlineKeys, hkeys, Finset.filter_erase]
  split_ifs with hi
  · rw [← Finset.card_erase_add_one (Finset.mem_filter.2 ⟨hk, hi⟩)]; push_cast; omega
  · rw [Finset.erase_eq_of_not_mem (by simp [hi])]; omega

/-- Key `k` arrives with what it counts for. -/
theorem Accounted.insert (h : Accounted sz t p) (hk : k ∉ t.keys) (hkeys : t'.keys = insert k t.keys)
    (hobj : t'.stats.objMemoryUsage = t.stats.objMemoryUsage + (sz.keyUsage k + t'.valueUsage sz p' k))
    (hinl : t'.stats.inlineKeys = t.stats.inlineKeys + if sz.keyInline k then 1 else 0)
    (hv : ∀ k' ∈ t.keys, t'.valueUsage sz p' k' = t.valueUsage sz p k') : Accounted sz t' p' := by
  have hrest : ∑ k' ∈ t.keys, (sz.keyUsage k' + t'.valueUsage sz p' k') =
      ∑ k' ∈ t.keys, (sz.keyUsage k' + t.valueUsage sz p k') :=
    Finset.sum_congr rfl fun k' hk' => by rw [hv k' hk']
  refine ⟨by rw [hkeys, Finset.sum_insert hk, hrest, hobj, h.objMemory]; omega, ?_⟩
  rw [hinl, h.inlineKeys, hkeys, Finset.filter_insert]
  split_ifs with hi
  · rw [Finset.card_insert_of_not_mem (by simp [hk])]; push_cast; omega
  · omega

/-! ### Primitives -/

theorem Accounted.setExpire (h : Accounted sz t p) (k : String) (d : Option Int) :
    Accounted sz (t.setExpire k d) p := h.of_prime rfl rfl

theorem Accounted.setMcflag (h : Accounted sz t p) (k : String) (g : Option Nat) :
    Accounted sz (t.setMcflag k g) p := h.of_prime rfl rfl

/-- A change of a slot that keeps its string: its bits, its sticky flag. -/
theorem Accounted.modify_bits (h : Accounted sz t p) (k : String) {f : Slot → Slot}
    (hf : ∀ s, (f s).value.str = s.value.str) : Accounted sz (t.modify k f) p :=
  h.congr rfl rfl fun k' _ => valueUsage_congr <| by
    by_cases hk : k' = k
    · subst hk; cases hp : t.prime k' <;> simp [valueStr, hp, hf]
    · simp [valueStr, hk]

/-- Any change of the slot of the key of the live updater: the statistics still count its value at
`orig_heap_size`. -/
theorem Accounted.modify_pending {u : AutoUpdater} (h : Accounted sz t (some u)) (f : Slot → Slot) :
    Accounted sz (t.modify u.key f) (some u) :=
  h.congr rfl rfl fun k' _ => by
    by_cases hk : u.key = k'
    · subst hk; simp only [valueUsage_pending]
    · rw [valueUsage_other hk, valueUsage_other hk]; simp [valueStr, Ne.symm hk]

theorem Accounted.addExpire (h : Accounted sz t p) (k : String) (d : Int) :
    Accounted sz (t.addExpire k d) p :=
  (h.setExpire _ _).modify_bits _ fun _ => rfl

theorem Accounted.removeExpire (h : Accounted sz t p) (k : String) :
    Accounted sz (t.removeExpire k).1 p := by
  unfold DbTable.removeExpire
  split
  · split
    · exact (h.setExpire _ _).modify_bits _ fun _ => rfl
    · exact h
  · exact h

theorem Accounted.setMCFlag (h : Accounted sz t p) (k : String) (flag : Nat) :
    Accounted sz (t.setMCFlag k flag) p := by
  unfold DbTable.setMCFlag; split <;> exact h.setMcflag _ _

/-- `PerformDeletionAtomic` of a key no live updater holds. -/
theorem Accounted.performDeletionAtomic (h : Accounted sz t p) (hp : ∀ u ∈ p, u.key ≠ k) (b : Bool) :
    Accounted sz (t.performDeletionAtomic sz k b) p := by
  cases hk : t.prime k with
  | none => rwa [performDeletionAtomic_of_none _ hk]
  | some s =>
    have hv : t.valueUsage sz p k = sz.valueMalloc s.value.str := by
      cases p with
      | none => simp [valueStr_of_prime hk]
      | some u => rw [valueUsage_other (hp u rfl), valueStr_of_prime hk]
    refine h.erase (mem_keys_of_prime hk) (performDeletionAtomic_keys _ hk) ?_ ?_ fun k' _ hne =>
      valueUsage_congr ?_
    · rw [performDeletionAtomic_stats _ hk, hv]; unfold Sizes.keyUsage; split_ifs <;> simp; omega
    · rw [performDeletionAtomic_stats _ hk]; split_ifs <;> simp
    · simp [valueStr, performDeletionAtomic_prime _ hk, hne]

theorem Accounted.performDeletion (h : Accounted sz t p) (hp : ∀ u ∈ p, u.key ≠ k) :
    Accounted sz (t.performDeletion sz k) p :=
  h.performDeletionAtomic hp _

/-- `AutoUpdater::Run` on an updater whose key is still there: the statistics count the value as it
is now, and no updater is live. -/
theorem Accounted.runUpdater {u : AutoUpdater} (h : Accounted sz t (some u)) (hk : u.key ∈ t.keys) :
    Accounted sz (t.runUpdater sz u) none := by
  obtain ⟨s, hs⟩ := Option.isSome_iff_exists.1 ((t.mem_keys _).1 hk)
  have hrun : t.runUpdater sz u =
      (t.account (sz.valueMalloc s.value.str - u.origHeapSize)).postUpdate u.key := by
    simp [DbTable.runUpdater, hs]
  rw [hrun]
  refine h.change hk (by simp) ?_ (by simp) fun k' _ hne => ?_
  · simp [valueUsage_pending, valueStr, hs]
  · rw [valueUsage_none, valueUsage_other (Ne.symm hne)]; simp [valueStr]

/-- `AutoUpdater::ReduceHeapUsage`: `orig_heap_size` is taken off, and the updater now counts the
value at `0`. -/
theorem Accounted.reduceHeapUsage {u : AutoUpdater} (h : Accounted sz t (some u)) (hk : u.key ∈ t.keys) :
    Accounted sz (t.reduceHeapUsage u).1 (some (t.reduceHeapUsage u).2) := by
  refine h.change hk (by simp) ?_ (by simp [DbTable.reduceHeapUsage]) fun k' _ hne => ?_
  · simp [DbTable.reduceHeapUsage, valueUsage_pending]
  · simp [DbTable.reduceHeapUsage, valueUsage, valueStr, Ne.symm hne]

/-- A lookup's updater counts the value at its size now. -/
theorem Accounted.pend (h : Accounted sz t none) {s : Slot} (hk : t.prime k = some s) :
    Accounted sz t (some ⟨k, sz.valueMalloc s.value.str⟩) :=
  h.congr rfl rfl fun k' _ => by
    by_cases he : k = k'
    · subst he; simp [valueUsage, valueStr_of_prime hk]
    · simp [valueUsage, he]

/-! ### Lookups, insertion and deletion paths -/

variable (c : Ctx)

theorem Accounted.expireIfNeeded (h : Accounted c.sz t none) (k : String) :
    Accounted c.sz (t.expireIfNeeded c k).1 none := by
  unfold DbTable.expireIfNeeded
  split
  · exact h
  · split
    · exact h
    · exact h.performDeletionAtomic (k := k) nofun true

theorem Accounted.findInternal (h : Accounted c.sz t none) (k : String) :
    Accounted c.sz (t.findInternal c k).1 none := by
  unfold DbTable.findInternal
  split
  · exact h
  · split
    · have he := h.expireIfNeeded c k
      split <;> simp_all
    · exact h

/-- `FindMutable` leaves the updater it returns live. -/
theorem Accounted.findMutable (h : Accounted c.sz t none) (k : String) :
    Accounted c.sz (t.findMutable c k).1 (t.findMutable c k).2.2 := by
  rw [findMutable_eq]
  have hf := fun s => findInternal_found (t := t) (k := k) (s := s) c
  have ha := h.findInternal c k
  generalize t.findInternal c k = r at hf ha ⊢
  obtain ⟨t1, j, _ | s⟩ := r
  · exact ha
  · exact ha.pend (hf s rfl)

theorem Accounted.evict (h : Accounted c.sz t none) (v : Option String) :
    Accounted c.sz (t.evict c v).1 none := by
  unfold DbTable.evict
  split
  · exact h
  · split
    · split
      · exact h
      · exact h.performDeletion (k := _) nofun
    · exact h

/-- The updater `AddOrFind` returns is for the key asked. -/
theorem addOrFind_updater_key (ins : Insertion) {u : AutoUpdater}
    (hu : (t.addOrFind c ins k).2.2.updater = some u) : u.key = k := by
  unfold DbTable.addOrFind at hu
  split at hu
  · cases hu; rfl
  · split at hu
    · cases hu
    · cases hu; rfl

/-- The updater `FindMutable` returns is for the key asked, which is in the table. -/
theorem findMutable_updater_live {u : AutoUpdater} (h : (t.findMutable c k).2.2 = some u) :
    u.key = k ∧ k ∈ (t.findMutable c k).1.keys := by
  refine ⟨?_, findMutable_found c h⟩
  rw [findMutable_eq] at h
  obtain ⟨s, -, rfl⟩ := Option.map_eq_some'.1 h
  rfl

/-- The updater `AddOrFind` returns is for the key asked, which is in the table. -/
theorem addOrFind_updater_live (ins : Insertion) {u : AutoUpdater}
    (h : (t.addOrFind c ins k).2.2.updater = some u) : u.key = k ∧ k ∈ (t.addOrFind c ins k).1.keys := by
  refine ⟨addOrFind_updater_key c ins h, ?_⟩
  generalize hr : (t.addOrFind c ins k).2.2 = r at h
  cases r with
  | found u' => exact addOrFind_found c ins hr
  | new u' => exact mem_keys_of_prime (addOrFind_new c ins hr)
  | outOfMemory => cases h

/-- `AddOrFind` leaves the updater of its result live: a key found is counted at its size, a key
inserted with its key's heap and an empty value. -/
theorem Accounted.addOrFind (h : Accounted c.sz t none) (ins : Insertion) (k : String) :
    Accounted c.sz (t.addOrFind c ins k).1 (t.addOrFind c ins k).2.2.updater := by
  have ha := h.findInternal c k
  rcases hr : t.findInternal c k with ⟨t1, j, _ | s⟩ <;> rw [hr] at ha
  · have habs := findInternal_absent (t := t) (k := k) c (by rw [hr])
    rw [hr] at habs
    cases ins with
    | rejected => simpa [DbTable.addOrFind, hr, AddResult.updater] using ha
    | inserted victim =>
      have he := ha.evict c victim
      have hk := evict_absent c victim habs
      rcases he2 : t1.evict c victim with ⟨t2, j2⟩
      rw [he2] at he hk
      dsimp only at he hk
      have hnk : k ∉ t2.keys := by simp [mem_keys, hk]
      simp only [DbTable.addOrFind, hr, he2, AddResult.updater]
      refine he.insert hnk (by split <;> simp) ?_ (by split_ifs <;> simp [*]) fun k' hk' => ?_
      · simp only [valueUsage, Sizes.keyUsage]; split_ifs <;> simp
      · have hne : k ≠ k' := fun he => hnk (he ▸ hk')
        rw [valueUsage_other hne, valueUsage_none]
        split <;> simp [valueStr, Ne.symm hne]
  · have hs := findInternal_found (t := t) (k := k) (s := s) c (by rw [hr])
    rw [hr] at hs
    simp only [DbTable.addOrFind, hr, AddResult.updater]
    exact ha.pend hs

/-- `AddOrUpdateInternal` (so `AddNew` and `AddOrUpdate`): the value changes under the updater of
`AddOrFind`. -/
theorem Accounted.addOrUpdateInternal (h : Accounted c.sz t none) (ins : Insertion) (k : String)
    (obj : PrimeValue) (expireAtMs : Int) (forceUpdate : Bool) :
    Accounted c.sz (t.addOrUpdateInternal c ins k obj expireAtMs forceUpdate).1
      (t.addOrUpdateInternal c ins k obj expireAtMs forceUpdate).2.2.updater := by
  unfold DbTable.addOrUpdateInternal
  have ha := h.addOrFind c ins k
  have hkey := fun u => addOrFind_updater_key (t := t) (k := k) c ins (u := u)
  generalize t.addOrFind c ins k = r at ha hkey
  obtain ⟨t1, j, _ | _ | _⟩ := r
  case outOfMemory => exact ha
  all_goals
    obtain rfl := hkey _ rfl
    dsimp only
    split_ifs <;> first | exact ha | exact ((ha.modify_pending _).modify_pending _).setExpire _ _ |
      exact ha.modify_pending _

/-- The updater `AddOrUpdateInternal` returns is for the key asked, which is in the table. -/
theorem addOrUpdateInternal_updater_live (ins : Insertion) (obj : PrimeValue) (expireAtMs : Int)
    (forceUpdate : Bool) {u : AutoUpdater}
    (h : (t.addOrUpdateInternal c ins k obj expireAtMs forceUpdate).2.2.updater = some u) :
    u.key = k ∧ k ∈ (t.addOrUpdateInternal c ins k obj expireAtMs forceUpdate).1.keys := by
  unfold DbTable.addOrUpdateInternal at h ⊢
  have hl := fun u => addOrFind_updater_live (t := t) (k := k) c ins (u := u)
  generalize t.addOrFind c ins k = r at h hl
  obtain ⟨t1, j, r⟩ := r
  cases r
  case outOfMemory => cases h
  all_goals dsimp only at h ⊢; split_ifs at h ⊢ <;> simpa using hl u h

/-- `DbSlice::UpdateExpire`, called after the updater ran. -/
theorem Accounted.updateExpire (h : Accounted c.sz t none) (maxMs : Int) (k : String)
    (ep : ExpireParams) : Accounted c.sz (t.updateExpire c maxMs k ep).1 none := by
  unfold DbTable.updateExpire
  split
  · exact h.removeExpire k
  · generalize ep.calculate c.nowMs false maxMs = r
    obtain ⟨rel, abs⟩ := r
    dsimp only
    split
    · exact h
    · split
      · exact h.performDeletion (k := k) nofun
      · split
        · split_ifs <;> first | exact h | exact h.setExpire _ _
        · split_ifs
          · exact h
          · exact h.addExpire _ _

theorem Accounted.deleteExpiredVisit (h : Accounted c.sz t none) (k : String) :
    Accounted c.sz (t.deleteExpiredVisit c k).1 none := by
  unfold DbTable.deleteExpiredVisit
  split
  · exact h
  · split_ifs
    · split
      · exact h.setExpire _ _
      · split_ifs
        · exact h.expireIfNeeded c k
        · exact h
    · exact h

theorem Accounted.deleteExpiredStep : ∀ (ks : List String) {t : DbTable}, Accounted c.sz t none →
    Accounted c.sz (t.deleteExpiredStep c ks).1 none
  | [], _, h => h
  | k :: ks, _, h => Accounted.deleteExpiredStep ks (h.deleteExpiredVisit c k)

theorem accounted_empty : Accounted sz DbTable.empty none := ⟨by simp [DbTable.empty], by simp [DbTable.empty]⟩

end DbTable

end Dragonfly.Keys
