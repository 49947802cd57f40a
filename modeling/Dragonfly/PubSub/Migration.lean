import Dragonfly.PubSub.ChannelStore

/-!
# Unsubscribing after a slot migration, against concurrent `Apply`

`ChannelStore::UnsubscribeAfterClusterSlotMigration` runs on a thread's own store, which is the
`most_recent` store of the last broadcast that reached the thread. It records every channel of that
store whose slot was deleted. `ChannelStoreUpdater::ApplyAndUnsubscribe` then takes `update_mu`,
copies `most_recent->channels_`, and erases each recorded channel from the copy, dereferencing
`target->find(key)` without a check (`channel_store.cc`). The system is a run of three kinds of
event: an `Apply` publishing under the lock, its broadcast reaching one thread, and a migration on
one thread.

`KeySlot` and `SlotSet` are not part of this code: the slot function is a parameter, and the
deleted slots are a list.

## Main theorems

* `Mem.WF.run`: every run from a well-formed memory keeps the heap invariant.
* `step_migrate_of_fresh`: a thread that has received every broadcast finds each channel it records.
* `migration_misses_removed_channel`: a thread that has not yet received the broadcast of an
  `Apply` removing a channel's last subscriber records that channel, which the copy of the new
  `most_recent->channels_` lacks: `find` returns `end()`.
-/

namespace Dragonfly.PubSub

/-- The loop of `ApplyAndUnsubscribe` over the copy of `most_recent->channels_`: each key is found
and erased. `none` where `target->find(key)` returns `end()`, whose erase is undefined. -/
def eraseRecorded : List String → ChannelMap → Option ChannelMap
  | [], cm => some cm
  | key :: ops, cm => if key ∈ cm then eraseRecorded ops (cm.erase key) else none

namespace Mem

/-- `UnsubscribeSlotsAndUpdateChannelStore` on every thread (`AwaitFiberOnAll`): each thread's
store becomes `most_recent`. The messages to unsubscribed connections are not modelled. -/
def updateAllChannelStores (mem : Mem) : Mem := { mem with threadStore := fun _ => mem.mostRecent }

end Mem

/-- `ChannelStoreUpdater::ApplyAndUnsubscribe`, for an updater with `to_add_` and `pattern_` false
and a null `cntx_`: the recorded channels are erased from a copy of `most_recent->channels_`, the
store with the copy is published, and every thread moves to it. -/
def ChannelStoreUpdater.applyAndUnsubscribe (u : ChannelStoreUpdater) (mem : Mem) : Option Mem :=
  if u.ops.isEmpty then some mem
  else
    let store := mem.stores mem.mostRecent
    (eraseRecorded u.ops (mem.maps store.channels)).map fun target =>
      ((mem.allocMap target).publish ⟨mem.nextMap, store.patterns⟩).updateAllChannelStores

/-- The channels `UnsubscribeAfterClusterSlotMigration` records from the store at `self`: those
whose slot is in `deletedSlots`, in the order of the map. -/
def deletedChannels (keySlot : String → Nat) (deletedSlots : List Nat) (mem : Mem) (self : Nat) :
    List String :=
  (mem.maps (mem.stores self).channels).keys.filter fun ch => deletedSlots.contains (keySlot ch)

/-- `ChannelStore::UnsubscribeAfterClusterSlotMigration` on the store at `self`, from thread `tid`. -/
def unsubscribeAfterClusterSlotMigration (keySlot : String → Nat) (deletedSlots : List Nat)
    (self tid : Nat) (mem : Mem) : Option Mem :=
  if deletedSlots.isEmpty then some mem
  else
    ({ pattern := false, toAdd := false, cntx := 0, threadId := tid,
       ops := deletedChannels keySlot deletedSlots mem self } : ChannelStoreUpdater).applyAndUnsubscribe mem

/-- What happens to the store: an `Apply` under `update_mu`, its broadcast reaching thread `t`, or
a slot migration on thread `t`, which reads that thread's store. -/
inductive Event
  | apply (u : ChannelStoreUpdater)
  | updateChannelStore (t : Nat)
  | migrate (t : Nat) (deletedSlots : List Nat)

/-- One event; `none` when the code dereferences `end()`. -/
def step (keySlot : String → Nat) (mem : Mem) : Event → Option Mem
  | .apply u => some (u.apply mem)
  | .updateChannelStore t => some (mem.updateChannelStore t)
  | .migrate t deletedSlots =>
    unsubscribeAfterClusterSlotMigration keySlot deletedSlots (mem.threadStore t) t mem

/-- A run of events in order. -/
def run (keySlot : String → Nat) : List Event → Mem → Option Mem
  | [], mem => some mem
  | e :: evs, mem => (step keySlot mem e).bind (run keySlot evs)

/-! ## Lemmas -/

section EraseRecorded

variable {ops : List String} {cm cm' : ChannelMap}

/-- The loop fails as soon as it meets a recorded key the map lacks: erasing other keys never
brings it back. -/
theorem eraseRecorded_eq_none {key : String} (hk : key ∈ ops) (hn : key ∉ cm) :
    eraseRecorded ops cm = none := by
  induction ops generalizing cm with
  | nil => cases hk
  | cons k ops ih =>
    unfold eraseRecorded
    split_ifs with hkc
    · rcases List.mem_cons.1 hk with rfl | hk
      · exact absurd hkc hn
      · exact ih hk (by simp [AList.mem_erase, hn])
    · rfl

/-- Distinct keys that are all in the map are all found. -/
theorem eraseRecorded_isSome (hnd : ops.Nodup) (h : ∀ k ∈ ops, k ∈ cm) :
    (eraseRecorded ops cm).isSome := by
  induction ops generalizing cm with
  | nil => rfl
  | cons k ops ih =>
    obtain ⟨hk, hnd⟩ := List.nodup_cons.1 hnd
    rw [eraseRecorded, if_pos (h k (List.mem_cons_self _ _))]
    exact ih hnd fun k' hk' => AList.mem_erase.2
      ⟨ne_of_mem_of_not_mem hk' hk, h k' (List.mem_cons_of_mem _ hk')⟩

theorem PtrsBelow.eraseRecorded {n : Nat} (hb : PtrsBelow cm n)
    (h : eraseRecorded ops cm = some cm') : PtrsBelow cm' n := by
  induction ops generalizing cm with
  | nil => exact (Option.some.inj h) ▸ hb
  | cons k ops ih =>
    unfold Dragonfly.PubSub.eraseRecorded at h
    split_ifs at h
    exact ih (hb.erase k) h

end EraseRecorded

namespace Mem

variable {mem mem' : Mem}

theorem WF.updateAllChannelStores (h : mem.WF) : mem.updateAllChannelStores.WF where
  maps_lt := h.maps_lt
  stores_lt := h.stores_lt
  mostRecent_lt := h.mostRecent_lt
  threadStore_lt _ := h.mostRecent_lt
  sides_ne := h.sides_ne

theorem WF.applyAndUnsubscribe (h : mem.WF) {u : ChannelStoreUpdater}
    (hr : u.applyAndUnsubscribe mem = some mem') : mem'.WF := by
  unfold ChannelStoreUpdater.applyAndUnsubscribe at hr
  split_ifs at hr
  · exact Option.some.inj hr ▸ h
  · obtain ⟨target, ht, rfl⟩ := Option.map_eq_some'.1 hr
    have hlt := h.stores_lt _ h.mostRecent_lt
    refine ((h.allocMap ((h.maps_lt _ (hlt false)).eraseRecorded ht)).publish (fun b => ?_) ?_).updateAllChannelStores
    · cases b
      · exact Nat.lt_succ_self _
      · exact Nat.lt_succ_of_lt (hlt true)
    · exact (hlt true).ne'

theorem WF.step (h : mem.WF) {keySlot : String → Nat} {e : Event}
    (hs : Dragonfly.PubSub.step keySlot mem e = some mem') : mem'.WF := by
  cases e with
  | apply u => exact Option.some.inj hs ▸ h.apply u
  | updateChannelStore t => exact Option.some.inj hs ▸ h.updateChannelStore t
  | migrate t deletedSlots =>
    simp only [Dragonfly.PubSub.step, unsubscribeAfterClusterSlotMigration] at hs
    split_ifs at hs
    · exact Option.some.inj hs ▸ h
    · exact h.applyAndUnsubscribe hs

/-- Every memory a run reaches from a well-formed one is well formed. -/
theorem WF.run (h : mem.WF) {keySlot : String → Nat} {evs : List Event}
    (hr : Dragonfly.PubSub.run keySlot evs mem = some mem') : mem'.WF := by
  induction evs generalizing mem with
  | nil => exact Option.some.inj hr ▸ h
  | cons e evs ih =>
    obtain ⟨m, hm, hr⟩ := Option.bind_eq_some.1 hr
    exact ih (h.step hm) hr

end Mem

/-! ## Main theorems -/

/-- A thread whose store is `most_recent` (it has received every broadcast) finds every channel it
records: the migration does not fail. -/
theorem step_migrate_of_fresh (keySlot : String → Nat) (deletedSlots : List Nat) {mem : Mem}
    {t : Nat} (ht : mem.threadStore t = mem.mostRecent) :
    (step keySlot mem (.migrate t deletedSlots)).isSome := by
  simp only [step, unsubscribeAfterClusterSlotMigration, ht]
  split_ifs
  · rfl
  · unfold ChannelStoreUpdater.applyAndUnsubscribe
    split_ifs
    · rfl
    · simp only [Option.isSome_map']
      exact eraseRecorded_isSome ((AList.keys_nodup _).filter _)
        fun k hk => AList.mem_keys.1 (List.mem_filter.1 hk).1

/-- An `Apply` on another thread removes the only subscriber `c` of channel `ch`, so it copies the
channel map, erases the slot from the copy and publishes it. A thread `t` whose store is the one
before (its broadcast has not reached `t`) migrates a deleted slot holding `ch`. It records `ch`,
which the new `most_recent->channels_` lacks, so `ApplyAndUnsubscribe` dereferences `end()`. -/
theorem migration_misses_removed_channel {mem : Mem} (hwf : mem.WF) {ch : String} {p : Nat}
    {c : Cntx} {tc : Nat} (hp : (mem.maps (mem.stores mem.mostRecent).channels).lookup ch = some p)
    (hsub : (mem.subs p).entries = [⟨c, tc⟩]) (keySlot : String → Nat) {deletedSlots : List Nat}
    (hslot : keySlot ch ∈ deletedSlots) {t : Nat} (ht : mem.threadStore t = mem.mostRecent)
    (tid : Nat) :
    let u : ChannelStoreUpdater := ⟨false, false, c, tid, [ch]⟩
    ch ∈ deletedChannels keySlot deletedSlots (u.apply mem) ((u.apply mem).threadStore t) ∧
    ch ∉ (u.apply mem).maps ((u.apply mem).stores (u.apply mem).mostRecent).channels ∧
    run keySlot [.apply u, .migrate t deletedSlots] mem = none := by
  intro u
  have hlt := hwf.stores_lt _ hwf.mostRecent_lt
  have hne : (mem.stores mem.mostRecent).channels ≠ mem.nextMap := (hlt false).ne
  have hcopy :
      u.ops.any (u.slotChanges mem (mem.maps ((mem.stores mem.mostRecent).side u.pattern))) = true := by
    simp [u, ChannelStoreUpdater.slotChanges, ChannelStore.side, ChannelStoreUpdater.lastRemoval, hp,
      hsub]
  -- the `Apply` copies the channel map and erases the slot of `ch` from the copy
  have happ : u.apply mem = ((mem.copyMap (mem.stores mem.mostRecent).channels).eraseSlot
      mem.nextMap ch).publish ⟨mem.nextMap, (mem.stores mem.mostRecent).patterns⟩ := by
    rw [ChannelStoreUpdater.apply_of_copy hcopy]
    simp [u, ChannelStoreUpdater.modifyAll, ChannelStoreUpdater.modify, ChannelStore.side,
      ChannelStore.replaceSide, Mem.copyMap, Mem.allocMap, hp, hsub, ChannelStoreUpdater.lastRemoval]
  have hnew : ch ∉ (u.apply mem).maps ((u.apply mem).stores (u.apply mem).mostRecent).channels := by
    rw [happ]
    simp [Mem.publish, Mem.eraseSlot]
  have hold : ch ∈ deletedChannels keySlot deletedSlots (u.apply mem) ((u.apply mem).threadStore t) := by
    have hst : (u.apply mem).stores mem.mostRecent = mem.stores mem.mostRecent := by
      rw [happ]
      exact Mem.publish_stores_ne _ hwf.mostRecent_lt.ne
    have hmaps : (u.apply mem).maps (mem.stores mem.mostRecent).channels =
        mem.maps (mem.stores mem.mostRecent).channels := by
      rw [happ]
      simp [Mem.publish, Mem.eraseSlot, Mem.copyMap, Mem.allocMap, Function.update_noteq hne]
    have hts : (u.apply mem).threadStore t = mem.mostRecent := by
      rw [happ]
      exact ht
    rw [deletedChannels, hts, hst, hmaps, List.mem_filter]
    exact ⟨AList.mem_keys.2 (AList.lookup_isSome.1 (by simp [hp])), by simpa using hslot⟩
  refine ⟨hold, hnew, ?_⟩
  simp only [run, step, Option.some_bind, unsubscribeAfterClusterSlotMigration,
    ChannelStoreUpdater.applyAndUnsubscribe]
  rw [if_neg (by simpa using List.ne_nil_of_mem hslot), if_neg (by simpa using List.ne_nil_of_mem hold)]
  simp only [eraseRecorded_eq_none hold hnew, Option.map_none', Option.none_bind]

/-- From the empty store, connection `1` on thread `5` subscribes to `"k"` and the broadcast reaches
thread `0`. Then connection `1` unsubscribes, and thread `0` migrates the slot of `"k"` before the
new broadcast reaches it. -/
theorem migration_misses_removed_channel_afterSubscribe :
    let mem := ((⟨false, true, 1, 5, ["k"]⟩ : ChannelStoreUpdater).apply Mem.init).updateChannelStore 0
    run (fun _ => 7) [.apply ⟨false, false, 1, 3, ["k"]⟩, .migrate 0 [7]] mem = none :=
  (@migration_misses_removed_channel
    (((⟨false, true, 1, 5, ["k"]⟩ : ChannelStoreUpdater).apply Mem.init).updateChannelStore 0)
    ((Mem.init_wf.apply _).updateChannelStore 0) "k" 0 1 5 (by decide) (by decide) (fun _ => 7) [7]
    (by decide) 0 rfl 3).2.2

end Dragonfly.PubSub
