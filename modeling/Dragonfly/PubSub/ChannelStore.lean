import Mathlib.Data.List.AList

/-!
# The channel store and `ChannelStoreUpdater::Apply`

Readers of the pub/sub store never lock: `ChannelStore::control_block.most_recent` names the
current pair of maps, each thread keeps its own reference to a store, and a writer holding
`update_mu` publishes a new one (`ChannelStoreUpdater::Apply`, `channel_store.cc`).

The memory is three typed heaps, each with its next fresh address: subscriber maps
(`SubscribeMap`), channel maps (`ChannelMap`, where each key's `UpdatablePointer` is the address of
its subscriber map) and stores (`ChannelStore`, the addresses of its two maps). Nothing is freed:
the freelist and the deletions after the broadcast are left out.

## Main theorems

* `apply_publishes`: for distinct keys under the caller's precondition, the published store's
  relation is the previous one with `(key, cntx_, thread_id_)` added or removed for exactly the
  keys of `ops_`. No subscriber map allocated before is changed. After a copy the previous store
  still shows the previous relation. Without a copy the published store is the previous one, and
  the changed map keeps its keys.
* `apply_inPlace_visible`: without a copy, a reader of the previous control block sees the new
  relation.
* `Mem.WF.apply`, `Mem.WF.updateChannelStore`: every step keeps the heap invariant.

## Lemmas

One frame lemma per heap operation (`allocSlot`, `eraseSlot`, `allocMap`, `publish`), the effect
of `Modify` on its key and on every other key, and the loop over `ops_` by induction.
-/

namespace Dragonfly.PubSub

/-- A `ConnectionContext*`; `0` stands for `nullptr`. -/
abbrev Cntx := Nat

/-- A `SubscribeMap`: each subscriber's thread. -/
abbrev SubscribeMap := AList fun _ : Cntx => Nat

/-- A `ChannelMap`: each key's `UpdatablePointer`, the address of its `SubscribeMap`. -/
abbrev ChannelMap := AList fun _ : String => Nat

/-- Every `UpdatablePointer` of `cm` is below `n`. -/
def PtrsBelow (cm : ChannelMap) (n : Nat) : Prop := ∀ key p, cm.lookup key = some p → p < n

/-- A `ChannelStore`: the addresses of `channels_` and `patterns_`. -/
structure ChannelStore where
  channels : Nat
  patterns : Nat
  deriving DecidableEq, Repr

namespace ChannelStore

/-- The map an updater works on: `pattern_ ? store->patterns_ : store->channels_`. -/
def side (st : ChannelStore) (pattern : Bool) : Nat := if pattern then st.patterns else st.channels

/-- The store `Apply` publishes after a copy: `new_chans = pattern_ ? store->channels_ : target`,
`new_patterns = pattern_ ? target : store->patterns_`. -/
def replaceSide (st : ChannelStore) (pattern : Bool) (target : Nat) : ChannelStore :=
  ⟨if pattern then st.channels else target, if pattern then target else st.patterns⟩

@[simp] theorem side_replaceSide (st : ChannelStore) (pattern b : Bool) (target : Nat) :
    (st.replaceSide pattern target).side b = if b = pattern then target else st.side b := by
  cases b <;> cases pattern <;> rfl

theorem side_ne {st : ChannelStore} (h : st.channels ≠ st.patterns) {b pattern : Bool}
    (hb : b ≠ pattern) : st.side b ≠ st.side pattern := by
  cases b <;> cases pattern <;> simp_all [side, Ne.symm h]

end ChannelStore

/-- The memory of the pub/sub store: three heaps with their next fresh addresses,
`control_block.most_recent`, and each thread's store (`ServerState::channel_store()`). -/
structure Mem where
  subs : Nat → SubscribeMap
  nextSub : Nat
  maps : Nat → ChannelMap
  nextMap : Nat
  stores : Nat → ChannelStore
  nextStore : Nat
  mostRecent : Nat
  threadStore : Nat → Nat

namespace Mem

/-- What a reader of the map at `a` finds for subscriber `c` under `key`: the subscriber's
thread, through the key's `UpdatablePointer`. -/
def lookupIn (mem : Mem) (a : Nat) (key : String) (c : Cntx) : Option Nat :=
  ((mem.maps a).lookup key).bind fun p => (mem.subs p).lookup c

/-- The subscription relation a reader holding the store at `s` sees: in its pattern map when
`pattern` holds, in its channel map otherwise. -/
def rel (mem : Mem) (s : Nat) (pattern : Bool) (key : String) (c : Cntx) : Option Nat :=
  mem.lookupIn ((mem.stores s).side pattern) key c

/-- A new slot or a replaced one: `key` points at a fresh `SubscribeMap` holding `sm`
(`target->emplace(key, new SubscribeMap{..})`, or `it->second.Set(replacement)`). -/
def allocSlot (mem : Mem) (target : Nat) (key : String) (sm : SubscribeMap) : Mem :=
  { mem with
    subs := Function.update mem.subs mem.nextSub sm
    nextSub := mem.nextSub + 1
    maps := Function.update mem.maps target ((mem.maps target).insert key mem.nextSub) }

/-- `target->erase(it)`: the key's slot is removed. -/
def eraseSlot (mem : Mem) (target : Nat) (key : String) : Mem :=
  { mem with maps := Function.update mem.maps target ((mem.maps target).erase key) }

/-- A fresh channel map holding `cm`. -/
def allocMap (mem : Mem) (cm : ChannelMap) : Mem :=
  { mem with
    maps := Function.update mem.maps mem.nextMap cm
    nextMap := mem.nextMap + 1 }

/-- `new ChannelStore::ChannelMap{*target}`: a copy of the map at `a` at a fresh address, whose
pointers are the same `SubscribeMap`s. -/
def copyMap (mem : Mem) (a : Nat) : Mem := mem.allocMap (mem.maps a)

/-- A fresh store holding `st`, stored to `control_block.most_recent`. -/
def publish (mem : Mem) (st : ChannelStore) : Mem :=
  { mem with
    stores := Function.update mem.stores mem.nextStore st
    nextStore := mem.nextStore + 1
    mostRecent := mem.nextStore }

/-- `ServerState::UpdateChannelStore` on thread `t`: the broadcast of `Apply` reaching it, with
the value of `most_recent` at that moment. -/
def updateChannelStore (mem : Mem) (t : Nat) : Mem :=
  { mem with threadStore := Function.update mem.threadStore t mem.mostRecent }

/-- `ChannelStore::ChannelStore()`: empty channel and pattern maps at `0` and `1`, the store at `0`
as `most_recent`, and every thread holding it. -/
def init : Mem := ⟨fun _ => ∅, 0, fun _ => ∅, 2, fun _ => ⟨0, 1⟩, 1, 0, fun _ => 0⟩

/-- The heap invariant: every pointer points at an allocated object, and the published store's
two maps are different objects. -/
structure WF (mem : Mem) : Prop where
  maps_lt : ∀ a < mem.nextMap, PtrsBelow (mem.maps a) mem.nextSub
  stores_lt : ∀ s < mem.nextStore, ∀ b, (mem.stores s).side b < mem.nextMap
  mostRecent_lt : mem.mostRecent < mem.nextStore
  threadStore_lt : ∀ t, mem.threadStore t < mem.nextStore
  sides_ne : (mem.stores mem.mostRecent).channels ≠ (mem.stores mem.mostRecent).patterns

/-- `mem'` only allocated subscriber maps and changed the channel map at `target`. -/
structure Keeps (target : Nat) (mem mem' : Mem) : Prop where
  nextSub_le : mem.nextSub ≤ mem'.nextSub
  subs_eq : ∀ p < mem.nextSub, mem'.subs p = mem.subs p
  maps_eq : ∀ a, a ≠ target → mem'.maps a = mem.maps a
  nextMap_eq : mem'.nextMap = mem.nextMap
  stores_eq : mem'.stores = mem.stores
  nextStore_eq : mem'.nextStore = mem.nextStore
  mostRecent_eq : mem'.mostRecent = mem.mostRecent
  threadStore_eq : mem'.threadStore = mem.threadStore

end Mem

/-- A `ChannelStoreUpdater`: its `pattern_`, `to_add_`, `cntx_`, `thread_id_`, and the keys
`Record` put in `ops_`. -/
structure ChannelStoreUpdater where
  pattern : Bool
  toAdd : Bool
  cntx : Cntx
  threadId : Nat
  ops : List String

namespace ChannelStoreUpdater

variable (u : ChannelStoreUpdater)

/-- The test of `GetTargetMap` and `Modify` for removing a slot's last subscriber:
`!to_add_ && it->second->size() == 1`. -/
def lastRemoval (sm : SubscribeMap) : Bool := !u.toAdd && sm.entries.length == 1

/-- `GetTargetMap`'s test for one key of `ops_`: a new slot to add, or a slot to erase. A missing
key on a removal is outside the `DCHECK` and counts as no change. -/
def slotChanges (mem : Mem) (cm : ChannelMap) (key : String) : Bool :=
  match cm.lookup key with
  | none => u.toAdd
  | some p => u.lastRemoval (mem.subs p)

/-- `GetTargetMap`: the store's map on the updater's side, copied when some key of `ops_` changes
a slot. Returns the memory, the target map's address and whether it was copied. -/
def getTargetMap (mem : Mem) (store : ChannelStore) : Mem × Nat × Bool :=
  let target := store.side u.pattern
  if u.ops.any (u.slotChanges mem (mem.maps target)) then (mem.copyMap target, mem.nextMap, true)
  else (mem, target, false)

/-- The copy `Modify` makes of a slot's `SubscribeMap`: `replacement->emplace(cntx_, thread_id_)`
or `replacement->erase(cntx_)`. -/
def replacement (sm : SubscribeMap) : SubscribeMap :=
  if u.toAdd then (if u.cntx ∈ sm then sm else sm.insert u.cntx u.threadId) else sm.erase u.cntx

/-- `Modify(target, key)`. A missing key on a removal is outside the `DCHECK`s (the code
dereferences `end()`); it leaves the memory as it is. -/
def modify (mem : Mem) (target : Nat) (key : String) : Mem :=
  match (mem.maps target).lookup key with
  | none => if u.toAdd then mem.allocSlot target key (AList.singleton u.cntx u.threadId) else mem
  | some p =>
    if u.lastRemoval (mem.subs p) then mem.eraseSlot target key
    else mem.allocSlot target key (u.replacement (mem.subs p))

/-- The loop `for (auto key : ops_) Modify(target, key);`. -/
def modifyAll (target : Nat) (ops : List String) (mem : Mem) : Mem :=
  ops.foldl (fun m key => u.modify m target key) mem

/-- `Apply` while it holds `update_mu`: the target map, every `Modify`, and a new store published
when the map was copied. The broadcast that follows is `Mem.updateChannelStore`, which reaches the
threads one at a time. -/
def apply (mem : Mem) : Mem :=
  let store := mem.stores mem.mostRecent
  let r := u.getTargetMap mem store
  let mem' := u.modifyAll r.2.1 u.ops r.1
  if r.2.2 then mem'.publish (store.replaceSide u.pattern r.2.1) else mem'

/-- The relation `Apply` is meant to publish: `(key, cntx_, thread_id_)` added or removed for the
keys of `ops_` on the updater's side, every other pair as it was. -/
def applied (old : Bool → String → Cntx → Option Nat) (b : Bool) (key : String) (c : Cntx) :
    Option Nat :=
  if b = u.pattern ∧ key ∈ u.ops ∧ c = u.cntx then (if u.toAdd then some u.threadId else none)
  else old b key c

end ChannelStoreUpdater

/-! ## Lemmas -/

theorem PtrsBelow.mono {cm : ChannelMap} {n m : Nat} (h : PtrsBelow cm n) (hnm : n ≤ m) :
    PtrsBelow cm m := fun key p hp => lt_of_lt_of_le (h key p hp) hnm

theorem PtrsBelow.insert {cm : ChannelMap} {n : Nat} (h : PtrsBelow cm n) (key : String) :
    PtrsBelow (cm.insert key n) (n + 1) := by
  intro key' p hp
  by_cases hk : key' = key
  · subst hk
    rw [AList.lookup_insert, Option.some.injEq] at hp
    omega
  · rw [AList.lookup_insert_ne hk] at hp
    exact Nat.lt_succ_of_lt (h key' p hp)

theorem PtrsBelow.erase {cm : ChannelMap} {n : Nat} (h : PtrsBelow cm n) (key : String) :
    PtrsBelow (cm.erase key) n := by
  intro key' p hp
  by_cases hk : key' = key
  · subst hk
    simp at hp
  · exact h key' p (by rwa [AList.lookup_erase_ne hk] at hp)

theorem lookup_singleton_eq {a b : Cntx} (v : Nat) :
    (AList.singleton a v : SubscribeMap).lookup b = if b = a then some v else none := by
  split_ifs with h
  · subst h
    exact List.dlookup_cons_eq _ _ _
  · exact List.dlookup_cons_ne _ _ h

/-- A subscriber map with one entry holds nobody but the subscriber found in it. -/
theorem lookup_eq_none_of_length_one {s : SubscribeMap} {a b : Cntx} (h1 : s.entries.length = 1)
    (ha : (s.lookup a).isSome) (hb : b ≠ a) : s.lookup b = none := by
  obtain ⟨x, hx⟩ := List.length_eq_one.1 h1
  simp only [AList.lookup, hx] at ha ⊢
  by_cases hxa : a = x.1
  · subst hxa
    exact List.dlookup_cons_ne _ _ hb
  · simp [List.dlookup_cons_ne _ _ hxa] at ha

namespace Mem

variable {mem mem' mem'' : Mem} {target : Nat}

theorem Keeps.refl (mem : Mem) (target : Nat) : Keeps target mem mem :=
  ⟨le_rfl, fun _ _ => rfl, fun _ _ => rfl, rfl, rfl, rfl, rfl, rfl⟩

theorem Keeps.trans (h1 : Keeps target mem mem') (h2 : Keeps target mem' mem'') :
    Keeps target mem mem'' :=
  ⟨h1.nextSub_le.trans h2.nextSub_le,
    fun p hp => (h2.subs_eq p (lt_of_lt_of_le hp h1.nextSub_le)).trans (h1.subs_eq p hp),
    fun a ha => (h2.maps_eq a ha).trans (h1.maps_eq a ha), h2.nextMap_eq.trans h1.nextMap_eq,
    h2.stores_eq.trans h1.stores_eq, h2.nextStore_eq.trans h1.nextStore_eq,
    h2.mostRecent_eq.trans h1.mostRecent_eq, h2.threadStore_eq.trans h1.threadStore_eq⟩

/-- A reader of one key sees the same subscribers when the key's pointer is the same and the
subscriber maps below `nextSub` are kept. -/
theorem lookupIn_congr {a a' : Nat} {key : String}
    (hm : (mem'.maps a').lookup key = (mem.maps a).lookup key) (hb : PtrsBelow (mem.maps a) mem.nextSub)
    (hs : ∀ p < mem.nextSub, mem'.subs p = mem.subs p) (c : Cntx) :
    mem'.lookupIn a' key c = mem.lookupIn a key c := by
  unfold lookupIn
  rw [hm]
  cases h : (mem.maps a).lookup key with
  | none => rfl
  | some p => simp only [Option.some_bind, hs p (hb key p h)]

/-- Outside the changed map, a reader sees what it saw before. -/
theorem Keeps.lookupIn_eq (hk : Keeps target mem mem') {a : Nat} (ha : a ≠ target)
    (hb : PtrsBelow (mem.maps a) mem.nextSub) (key : String) (c : Cntx) :
    mem'.lookupIn a key c = mem.lookupIn a key c :=
  lookupIn_congr (by rw [hk.maps_eq a ha]) hb hk.subs_eq c

theorem allocSlot_keeps (key : String) (sm : SubscribeMap) :
    Keeps target mem (mem.allocSlot target key sm) :=
  ⟨Nat.le_succ _, fun _ hp => Function.update_noteq (Nat.ne_of_lt hp) _ _,
    fun _ ha => Function.update_noteq ha _ _, rfl, rfl, rfl, rfl, rfl⟩

theorem eraseSlot_keeps (key : String) : Keeps target mem (mem.eraseSlot target key) :=
  ⟨le_rfl, fun _ _ => rfl, fun _ ha => Function.update_noteq ha _ _, rfl, rfl, rfl, rfl, rfl⟩

@[simp] theorem allocSlot_maps_self (key : String) (sm : SubscribeMap) :
    (mem.allocSlot target key sm).maps target = (mem.maps target).insert key mem.nextSub :=
  Function.update_same _ _ _

@[simp] theorem allocSlot_subs_self (key : String) (sm : SubscribeMap) :
    (mem.allocSlot target key sm).subs mem.nextSub = sm :=
  Function.update_same _ _ _

@[simp] theorem allocSlot_nextSub (key : String) (sm : SubscribeMap) :
    (mem.allocSlot target key sm).nextSub = mem.nextSub + 1 := rfl

@[simp] theorem eraseSlot_maps_self (key : String) :
    (mem.eraseSlot target key).maps target = (mem.maps target).erase key :=
  Function.update_same _ _ _

@[simp] theorem eraseSlot_nextSub (key : String) : (mem.eraseSlot target key).nextSub = mem.nextSub :=
  rfl

theorem lookupIn_allocSlot_self (key : String) (sm : SubscribeMap) (c : Cntx) :
    (mem.allocSlot target key sm).lookupIn target key c = sm.lookup c := by
  simp [lookupIn, allocSlot]

theorem lookupIn_eraseSlot_self (key : String) (c : Cntx) :
    (mem.eraseSlot target key).lookupIn target key c = none := by
  simp [lookupIn]

@[simp] theorem publish_stores_self (st : ChannelStore) : (mem.publish st).stores mem.nextStore = st :=
  Function.update_same _ _ _

theorem publish_stores_ne (st : ChannelStore) {s : Nat} (h : s ≠ mem.nextStore) :
    (mem.publish st).stores s = mem.stores s :=
  Function.update_noteq h _ _

@[simp] theorem publish_lookupIn (st : ChannelStore) : (mem.publish st).lookupIn = mem.lookupIn :=
  rfl

/-- A reader of the published store reads the maps `st` names. -/
theorem rel_publish_self (st : ChannelStore) (b : Bool) :
    (mem.publish st).rel (mem.publish st).mostRecent b = mem.lookupIn (st.side b) := by
  show mem.lookupIn (((mem.publish st).stores mem.nextStore).side b) = _
  rw [publish_stores_self]

theorem lookupIn_copyMap (a b : Nat) (key : String) (c : Cntx) :
    (mem.copyMap a).lookupIn b key c = mem.lookupIn (if b = mem.nextMap then a else b) key c := by
  unfold lookupIn copyMap allocMap
  split_ifs with h
  · subst h
    simp
  · simp [Function.update_noteq h]

/-! ### The heap invariant -/

theorem init_wf : init.WF where
  maps_lt _ _ _ _ h := by simp [init] at h
  stores_lt _ _ b := show (ChannelStore.side ⟨0, 1⟩ b) < 2 by cases b <;> decide
  mostRecent_lt := Nat.one_pos
  threadStore_lt _ := Nat.one_pos
  sides_ne := by decide

theorem WF.of_keeps (h : mem.WF) (hk : mem.Keeps target mem')
    (hT : PtrsBelow (mem'.maps target) mem'.nextSub) : mem'.WF where
  maps_lt a ha := by
    rw [hk.nextMap_eq] at ha
    by_cases hat : a = target
    · exact hat ▸ hT
    · rw [hk.maps_eq a hat]
      exact (h.maps_lt a ha).mono hk.nextSub_le
  stores_lt := by
    rw [hk.stores_eq, hk.nextStore_eq, hk.nextMap_eq]
    exact h.stores_lt
  mostRecent_lt := by
    rw [hk.mostRecent_eq, hk.nextStore_eq]
    exact h.mostRecent_lt
  threadStore_lt := by
    rw [hk.threadStore_eq, hk.nextStore_eq]
    exact h.threadStore_lt
  sides_ne := by
    rw [hk.stores_eq, hk.mostRecent_eq]
    exact h.sides_ne

theorem WF.allocMap (h : mem.WF) {cm : ChannelMap} (hcm : PtrsBelow cm mem.nextSub) :
    (mem.allocMap cm).WF where
  maps_lt a' ha' := by
    simp only [Mem.allocMap] at ha' ⊢
    by_cases h' : a' = mem.nextMap
    · subst h'
      rwa [Function.update_same]
    · rw [Function.update_noteq h']
      exact h.maps_lt a' (by omega)
  stores_lt s hs b := Nat.lt_succ_of_lt (h.stores_lt s hs b)
  mostRecent_lt := h.mostRecent_lt
  threadStore_lt := h.threadStore_lt
  sides_ne := h.sides_ne

theorem WF.copyMap (h : mem.WF) {a : Nat} (ha : a < mem.nextMap) : (mem.copyMap a).WF :=
  h.allocMap (h.maps_lt a ha)

theorem WF.publish (h : mem.WF) {st : ChannelStore} (hs : ∀ b, st.side b < mem.nextMap)
    (hne : st.channels ≠ st.patterns) : (mem.publish st).WF where
  maps_lt := h.maps_lt
  stores_lt s hs' b := by
    by_cases h' : s = mem.nextStore
    · subst h'
      rw [publish_stores_self]
      exact hs b
    · rw [publish_stores_ne _ h']
      exact h.stores_lt s (by simp only [Mem.publish] at hs'; omega) b
  mostRecent_lt := Nat.lt_succ_self _
  threadStore_lt t := Nat.lt_succ_of_lt (h.threadStore_lt t)
  sides_ne := by simpa [Mem.publish] using hne

theorem WF.updateChannelStore (h : mem.WF) (t : Nat) : (mem.updateChannelStore t).WF where
  maps_lt := h.maps_lt
  stores_lt := h.stores_lt
  mostRecent_lt := h.mostRecent_lt
  threadStore_lt t' := by
    by_cases ht : t' = t
    · subst ht
      simp [Mem.updateChannelStore, h.mostRecent_lt]
    · simp [Mem.updateChannelStore, Function.update_noteq ht, h.threadStore_lt t']
  sides_ne := h.sides_ne

end Mem

namespace ChannelStoreUpdater

variable {u : ChannelStoreUpdater} {mem : Mem} {target : Nat} {key key' : String}

/-- What `Apply` installs for `cntx_`: its thread on an addition, nothing on a removal. -/
def newEntry (u : ChannelStoreUpdater) : Option Nat := if u.toAdd then some u.threadId else none

/-- Under the caller's precondition for one slot, its replacement differs from it only at
`cntx_`. -/
theorem replacement_lookup {sm : SubscribeMap} (h : (sm.lookup u.cntx).isSome = !u.toAdd)
    (c : Cntx) : (u.replacement sm).lookup c = if c = u.cntx then u.newEntry else sm.lookup c := by
  unfold replacement newEntry
  cases ht : u.toAdd
  · by_cases hc : c = u.cntx
    · subst hc
      simp
    · simp [hc, AList.lookup_erase_ne hc]
  · have hn : u.cntx ∉ sm := AList.lookup_eq_none.1 (by simpa [ht] using h)
    by_cases hc : c = u.cntx
    · subst hc
      simp [hn]
    · simp [hn, hc, AList.lookup_insert_ne hc]

theorem modify_keeps (u : ChannelStoreUpdater) (mem : Mem) (target : Nat) (key : String) :
    mem.Keeps target (u.modify mem target key) := by
  unfold modify
  split
  · split_ifs
    exacts [Mem.allocSlot_keeps _ _, Mem.Keeps.refl _ _]
  · split_ifs
    exacts [Mem.eraseSlot_keeps _, Mem.allocSlot_keeps _ _]

theorem modify_ptrsBelow (hb : PtrsBelow (mem.maps target) mem.nextSub) :
    PtrsBelow ((u.modify mem target key).maps target) (u.modify mem target key).nextSub := by
  unfold modify
  split
  · split_ifs
    exacts [by simpa using hb.insert key, hb]
  · split_ifs
    exacts [by simpa using hb.erase key, by simpa using hb.insert key]

theorem modify_lookup_ne (h : key' ≠ key) :
    ((u.modify mem target key).maps target).lookup key' = (mem.maps target).lookup key' := by
  unfold modify
  split
  · split_ifs <;> simp [AList.lookup_insert_ne h]
  · split_ifs <;> simp [AList.lookup_insert_ne h, AList.lookup_erase_ne h]

theorem modify_lookupIn_ne (hb : PtrsBelow (mem.maps target) mem.nextSub) (h : key' ≠ key)
    (c : Cntx) : (u.modify mem target key).lookupIn target key' c = mem.lookupIn target key' c :=
  Mem.lookupIn_congr (modify_lookup_ne h) hb (modify_keeps u mem target key).subs_eq c

/-- Under the caller's precondition, `Modify(target, key)` adds or removes exactly `cntx_` under
`key`: a new slot, the slot's last subscriber erased with the slot, or a replacement. -/
theorem modify_lookupIn_self (hpre : (mem.lookupIn target key u.cntx).isSome = !u.toAdd)
    (c : Cntx) : (u.modify mem target key).lookupIn target key c =
      if c = u.cntx then u.newEntry else mem.lookupIn target key c := by
  unfold modify
  rcases hk : (mem.maps target).lookup key with _ | p
  · have ht : u.toAdd = true := by simpa [Mem.lookupIn, hk] using hpre
    simp [ht, newEntry, Mem.lookupIn_allocSlot_self, lookup_singleton_eq, Mem.lookupIn, hk]
  · simp only [Mem.lookupIn, hk, Option.some_bind] at hpre
    dsimp only
    by_cases hl : u.lastRemoval (mem.subs p)
    · rw [if_pos hl, Mem.lookupIn_eraseSlot_self]
      simp only [lastRemoval, Bool.and_eq_true, Bool.not_eq_true', beq_iff_eq] at hl
      by_cases hc : c = u.cntx
      · simp [hc, newEntry, hl.1]
      · simp [hc, Mem.lookupIn, hk, lookup_eq_none_of_length_one hl.2 (by simp [hpre, hl.1]) hc]
    · rw [if_neg hl, Mem.lookupIn_allocSlot_self, replacement_lookup hpre]
      simp [Mem.lookupIn, hk]

/-- A key whose slot `GetTargetMap` found unchanged keeps the key set of the map. -/
theorem mem_modify_iff (hs : u.slotChanges mem (mem.maps target) key = false) :
    key' ∈ (u.modify mem target key).maps target ↔ key' ∈ mem.maps target := by
  unfold modify
  rcases hk : (mem.maps target).lookup key with _ | p
  · simp only [slotChanges, hk] at hs
    simp [hs]
  · simp only [slotChanges, hk] at hs
    have hmem : key ∈ mem.maps target := AList.lookup_isSome.1 (by simp [hk])
    simp only [hs, Bool.false_eq_true, if_false, Mem.allocSlot_maps_self, AList.mem_insert]
    exact ⟨fun h => h.elim (· ▸ hmem) id, Or.inr⟩

theorem slotChanges_modify_ne (hb : PtrsBelow (mem.maps target) mem.nextSub) (h : key' ≠ key) :
    u.slotChanges (u.modify mem target key) ((u.modify mem target key).maps target) key' =
      u.slotChanges mem (mem.maps target) key' := by
  unfold slotChanges
  rw [modify_lookup_ne h]
  rcases hk : (mem.maps target).lookup key' with _ | p
  · rfl
  · simp only [(modify_keeps u mem target key).subs_eq p (hb key' p hk)]

/-! ### The loop over `ops_` -/

@[simp] theorem modifyAll_nil : u.modifyAll target [] mem = mem := rfl

@[simp] theorem modifyAll_cons (ops : List String) :
    u.modifyAll target (key :: ops) mem = u.modifyAll target ops (u.modify mem target key) := rfl

theorem modifyAll_keeps (u : ChannelStoreUpdater) (target : Nat) (ops : List String) (mem : Mem) :
    mem.Keeps target (u.modifyAll target ops mem) := by
  induction ops generalizing mem with
  | nil => exact Mem.Keeps.refl _ _
  | cons k ops ih => exact (modify_keeps u mem target k).trans (ih _)

theorem modifyAll_ptrsBelow (ops : List String) (hb : PtrsBelow (mem.maps target) mem.nextSub) :
    PtrsBelow ((u.modifyAll target ops mem).maps target) (u.modifyAll target ops mem).nextSub := by
  induction ops generalizing mem with
  | nil => exact hb
  | cons k ops ih => exact ih (modify_ptrsBelow hb)

/-- For distinct keys under the caller's precondition, the loop adds or removes `cntx_` under
exactly the keys of `ops`. -/
theorem modifyAll_lookupIn {ops : List String} (hnd : ops.Nodup)
    (hb : PtrsBelow (mem.maps target) mem.nextSub)
    (hpre : ∀ k ∈ ops, (mem.lookupIn target k u.cntx).isSome = !u.toAdd) (key : String) (c : Cntx) :
    (u.modifyAll target ops mem).lookupIn target key c =
      if key ∈ ops ∧ c = u.cntx then u.newEntry else mem.lookupIn target key c := by
  induction ops generalizing mem with
  | nil => rfl
  | cons k ops ih =>
    obtain ⟨hk, hnd⟩ := List.nodup_cons.1 hnd
    have hpre' : ∀ k' ∈ ops, ((u.modify mem target k).lookupIn target k' u.cntx).isSome = !u.toAdd :=
      fun k' hk' => by
        rw [modify_lookupIn_ne hb (ne_of_mem_of_not_mem hk' hk)]
        exact hpre k' (List.mem_cons_of_mem _ hk')
    rw [modifyAll_cons, ih hnd (modify_ptrsBelow hb) hpre']
    by_cases hkey : key = k
    · subst hkey
      simp [hk, modify_lookupIn_self (hpre key (List.mem_cons_self _ _))]
    · simp [hkey, modify_lookupIn_ne hb hkey]

/-- When no key of `ops` changes a slot, the loop keeps the key set of the map. -/
theorem modifyAll_mem_iff {ops : List String} (hnd : ops.Nodup)
    (hb : PtrsBelow (mem.maps target) mem.nextSub)
    (hs : ∀ k ∈ ops, u.slotChanges mem (mem.maps target) k = false) (key' : String) :
    key' ∈ (u.modifyAll target ops mem).maps target ↔ key' ∈ mem.maps target := by
  induction ops generalizing mem with
  | nil => rfl
  | cons k ops ih =>
    obtain ⟨hk, hnd⟩ := List.nodup_cons.1 hnd
    rw [modifyAll_cons, ih hnd (modify_ptrsBelow hb) fun k' hk' => ?_,
      mem_modify_iff (hs k (List.mem_cons_self _ _))]
    rw [slotChanges_modify_ne hb (ne_of_mem_of_not_mem hk' hk)]
    exact hs k' (List.mem_cons_of_mem _ hk')

/-! ### `Apply` -/

theorem apply_of_copy
    (h : u.ops.any (u.slotChanges mem (mem.maps ((mem.stores mem.mostRecent).side u.pattern))) = true) :
    u.apply mem = (u.modifyAll mem.nextMap u.ops (mem.copyMap ((mem.stores mem.mostRecent).side u.pattern))).publish
      ((mem.stores mem.mostRecent).replaceSide u.pattern mem.nextMap) := by
  simp [apply, getTargetMap, h]

theorem apply_of_inPlace
    (h : u.ops.any (u.slotChanges mem (mem.maps ((mem.stores mem.mostRecent).side u.pattern))) = false) :
    u.apply mem = u.modifyAll ((mem.stores mem.mostRecent).side u.pattern) u.ops mem := by
  simp [apply, getTargetMap, h]

section Apply

variable (hwf : mem.WF) (hnd : u.ops.Nodup)
  (hpre : ∀ key ∈ u.ops, (mem.rel mem.mostRecent u.pattern key u.cntx).isSome = !u.toAdd)
include hwf hnd hpre

/-- After a copy, the published store shows the new relation and the previous store the previous
one: the copy shares every `SubscribeMap`, and `Modify` replaces them in the copy only. -/
theorem rel_apply_of_copy
    (h : u.ops.any (u.slotChanges mem (mem.maps ((mem.stores mem.mostRecent).side u.pattern))) = true) :
    (u.apply mem).rel (u.apply mem).mostRecent = u.applied (mem.rel mem.mostRecent) ∧
    (u.apply mem).rel mem.mostRecent = mem.rel mem.mostRecent := by
  rw [apply_of_copy h]
  set st := mem.stores mem.mostRecent with hst
  have hlt : ∀ b, st.side b < mem.nextMap := hwf.stores_lt _ hwf.mostRecent_lt
  have hb : ∀ b, PtrsBelow (mem.maps (st.side b)) mem.nextSub := fun b => hwf.maps_lt _ (hlt b)
  set m1 := mem.copyMap (st.side u.pattern)
  have hk : m1.Keeps mem.nextMap (u.modifyAll mem.nextMap u.ops m1) := modifyAll_keeps _ _ _ _
  have hb1 : ∀ b, PtrsBelow (m1.maps (st.side b)) m1.nextSub := fun b => by
    simpa [m1, Mem.copyMap, Mem.allocMap, Function.update_noteq (hlt b).ne] using hb b
  -- the side the updater does not touch is read through maps the loop keeps
  have hother : ∀ b key c, (u.modifyAll mem.nextMap u.ops m1).lookupIn (st.side b) key c =
      mem.lookupIn (st.side b) key c := fun b key c => by
    rw [hk.lookupIn_eq (hlt b).ne (hb1 b), Mem.lookupIn_copyMap, if_neg (hlt b).ne]
  refine ⟨funext fun b => funext fun key => funext fun c => ?_,
    funext fun b => funext fun key => funext fun c => ?_⟩
  · rw [Mem.rel_publish_self, ChannelStore.side_replaceSide]
    by_cases hbp : b = u.pattern
    · subst hbp
      have hT : PtrsBelow (m1.maps mem.nextMap) m1.nextSub := by
        simpa [m1, Mem.copyMap, Mem.allocMap] using hb u.pattern
      have hpre1 : ∀ k ∈ u.ops, (m1.lookupIn mem.nextMap k u.cntx).isSome = !u.toAdd :=
        fun k hk' => by
          rw [Mem.lookupIn_copyMap, if_pos rfl]
          exact hpre k hk'
      rw [if_pos rfl, modifyAll_lookupIn (u := u) hnd hT hpre1, Mem.lookupIn_copyMap, if_pos rfl]
      simp [applied, newEntry, Mem.rel]
    · rw [if_neg hbp, hother]
      simp [applied, hbp, Mem.rel]
  · rw [Mem.rel, Mem.publish_lookupIn, Mem.publish_stores_ne _ (by
      rw [hk.nextStore_eq]
      exact hwf.mostRecent_lt.ne), hk.stores_eq]
    exact hother b key c

/-- Without a copy, the published store is the previous one, and it shows the new relation. -/
theorem rel_apply_of_inPlace
    (h : u.ops.any (u.slotChanges mem (mem.maps ((mem.stores mem.mostRecent).side u.pattern))) = false) :
    (u.apply mem).rel (u.apply mem).mostRecent = u.applied (mem.rel mem.mostRecent) := by
  set st := mem.stores mem.mostRecent with hst
  have hb : ∀ b, PtrsBelow (mem.maps (st.side b)) mem.nextSub :=
    fun b => hwf.maps_lt _ (hwf.stores_lt _ hwf.mostRecent_lt b)
  have hk : mem.Keeps (st.side u.pattern) (u.modifyAll (st.side u.pattern) u.ops mem) :=
    modifyAll_keeps _ _ _ _
  rw [apply_of_inPlace h]
  funext b key c
  simp only [Mem.rel, hk.mostRecent_eq, hk.stores_eq, applied, ← hst]
  by_cases hbp : b = u.pattern
  · subst hbp
    rw [modifyAll_lookupIn hnd (hb _) hpre]
    simp [newEntry]
  · rw [hk.lookupIn_eq (ChannelStore.side_ne hwf.sides_ne hbp) (hb b), if_neg (fun h => hbp h.1)]

end Apply

theorem apply_subs_eq (u : ChannelStoreUpdater) (mem : Mem) :
    ∀ p < mem.nextSub, (u.apply mem).subs p = mem.subs p := by
  cases h : u.ops.any (u.slotChanges mem (mem.maps ((mem.stores mem.mostRecent).side u.pattern)))
  · rw [apply_of_inPlace h]
    exact (modifyAll_keeps _ _ _ _).subs_eq
  · rw [apply_of_copy h]
    exact (modifyAll_keeps u mem.nextMap u.ops (mem.copyMap ((mem.stores mem.mostRecent).side u.pattern))).subs_eq

end ChannelStoreUpdater

namespace Mem

/-- `Apply` keeps the heap invariant, with or without its precondition. -/
theorem WF.apply {mem : Mem} (h : mem.WF) (u : ChannelStoreUpdater) : (u.apply mem).WF := by
  have hlt : ∀ b, (mem.stores mem.mostRecent).side b < mem.nextMap :=
    h.stores_lt _ h.mostRecent_lt
  cases hc : u.ops.any (u.slotChanges mem (mem.maps ((mem.stores mem.mostRecent).side u.pattern)))
  · rw [ChannelStoreUpdater.apply_of_inPlace hc]
    exact h.of_keeps (ChannelStoreUpdater.modifyAll_keeps _ _ _ _)
      (ChannelStoreUpdater.modifyAll_ptrsBelow _ (h.maps_lt _ (hlt _)))
  · rw [ChannelStoreUpdater.apply_of_copy hc]
    have hk := ChannelStoreUpdater.modifyAll_keeps u mem.nextMap u.ops
      (mem.copyMap ((mem.stores mem.mostRecent).side u.pattern))
    refine ((h.copyMap (hlt u.pattern)).of_keeps hk
      (ChannelStoreUpdater.modifyAll_ptrsBelow _ ?_)).publish (fun b => ?_) ?_
    · simpa [Mem.copyMap, Mem.allocMap] using h.maps_lt _ (hlt u.pattern)
    · rw [ChannelStore.side_replaceSide, hk.nextMap_eq]
      split_ifs
      · exact Nat.lt_succ_self _
      · exact Nat.lt_succ_of_lt (hlt b)
    · have h0 := hlt false
      have h1 := hlt true
      simp only [ChannelStore.side, ChannelStore.replaceSide, Bool.false_eq_true, if_false,
        if_true] at h0 h1 ⊢
      split_ifs <;> omega

end Mem

/-! ## Main theorems -/

namespace ChannelStoreUpdater


/-- `Apply` for distinct keys under the caller's `DCHECK`ed precondition (for a removal `cntx_` is
subscribed under every key, for an addition under none). The published store's relation is the
previous one with `(key, cntx_, thread_id_)` added or removed for exactly the keys of `ops_`. No
`SubscribeMap` allocated before is changed, so a reader that fetched one keeps its subscribers.
After a copy the previous store still shows the previous relation. Without a copy, the published
store is the previous one, and its changed map has the same keys. -/
theorem apply_publishes {u : ChannelStoreUpdater} {mem : Mem} (hwf : mem.WF) (hnd : u.ops.Nodup)
    (hpre : ∀ key ∈ u.ops, (mem.rel mem.mostRecent u.pattern key u.cntx).isSome = !u.toAdd) :
    (u.apply mem).rel (u.apply mem).mostRecent = u.applied (mem.rel mem.mostRecent) ∧
    (∀ p < mem.nextSub, (u.apply mem).subs p = mem.subs p) ∧
    ((u.getTargetMap mem (mem.stores mem.mostRecent)).2.2 = true →
      (u.apply mem).rel mem.mostRecent = mem.rel mem.mostRecent) ∧
    ((u.getTargetMap mem (mem.stores mem.mostRecent)).2.2 = false →
      (u.apply mem).mostRecent = mem.mostRecent ∧
      (u.apply mem).stores mem.mostRecent = mem.stores mem.mostRecent ∧
      ∀ key, key ∈ (u.apply mem).maps ((mem.stores mem.mostRecent).side u.pattern) ↔
        key ∈ mem.maps ((mem.stores mem.mostRecent).side u.pattern)) := by
  have hb : PtrsBelow (mem.maps ((mem.stores mem.mostRecent).side u.pattern)) mem.nextSub :=
    hwf.maps_lt _ (hwf.stores_lt _ hwf.mostRecent_lt _)
  cases hc : u.ops.any (u.slotChanges mem (mem.maps ((mem.stores mem.mostRecent).side u.pattern)))
  · have hk := modifyAll_keeps u ((mem.stores mem.mostRecent).side u.pattern) u.ops mem
    refine ⟨rel_apply_of_inPlace hwf hnd hpre hc, apply_subs_eq u mem, fun h => ?_, fun _ => ?_⟩
    · simp [getTargetMap, hc] at h
    · rw [apply_of_inPlace hc, hk.mostRecent_eq, hk.stores_eq]
      refine ⟨rfl, rfl, modifyAll_mem_iff hnd hb fun k hk' => ?_⟩
      simpa using List.any_eq_false.1 hc k hk'
  · refine ⟨(rel_apply_of_copy hwf hnd hpre hc).1, apply_subs_eq u mem,
      fun _ => (rel_apply_of_copy hwf hnd hpre hc).2, fun h => ?_⟩
    simp [getTargetMap, hc] at h

/-- From the empty store, connection `1` subscribes to `"k"`, then connection `2` joins it. -/
theorem apply_publishes_secondSubscriber :
    let mem := (⟨false, true, 1, 5, ["k"]⟩ : ChannelStoreUpdater).apply Mem.init
    let u : ChannelStoreUpdater := ⟨false, true, 2, 6, ["k"]⟩
    (u.apply mem).rel (u.apply mem).mostRecent = u.applied (mem.rel mem.mostRecent) :=
  (apply_publishes (Mem.init_wf.apply _) (by decide) (by decide)).1

/-- Without a copy, `Modify` replaces `SubscribeMap` pointers in the published map itself, so a
reader holding the previous control block sees the new relation: removing subscriber `1` of two
under `"k"` leaves the store in place, and the reader of that store no longer finds `1`. -/
theorem apply_inPlace_visible :
    let mem : Mem := ⟨fun _ => (AList.singleton 1 0).insert 2 1, 1, fun _ => AList.singleton "k" 0,
      2, fun _ => ⟨0, 1⟩, 1, 0, fun _ => 0⟩
    let u : ChannelStoreUpdater := ⟨false, false, 1, 0, ["k"]⟩
    (u.getTargetMap mem (mem.stores mem.mostRecent)).2.2 = false ∧
      mem.rel mem.mostRecent false "k" 1 = some 0 ∧
      (u.apply mem).rel mem.mostRecent false "k" 1 = none := by
  decide

end ChannelStoreUpdater

end Dragonfly.PubSub
