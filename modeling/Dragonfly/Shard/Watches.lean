import Dragonfly.Keys.Table

/-!
# `WATCH` across the databases of a shard

Every database keeps `watched_keys`, from a key to the `ExecInfo`s of the connections that
`WATCH` it, and `ExecInfo::watched_dirty` is the connection's own flag, set through those
pointers, after which its `EXEC` aborts. On the shard:

* `RegisterWatchedKey(db, key, exec_info)` appends the connection to the key's list;
* `UnregisterConnectionWatches(exec_info)` takes the connection out of the list of every
  `(db, key)` its `exec_info->watched_keys` records, erasing a list that becomes empty;
* `PostUpdate(db, key)` marks the key's watchers dirty and erases its list;
* `FlushDbIndexes(indexes)` marks every watcher of a flushed database dirty
  (`InvalidateDbWatches`) and replaces the table by a new one, which watches nothing;
* `FlushSlots(slot_ranges)` marks the watchers in database 0 of the keys in a flushed slot
  (`InvalidateSlotWatches`) and keeps them; `FlushSlotsFb` then deletes the keys without touching
  `watched_keys`.

The maps of all databases are kept as one list of entries `(db, key, conn)` in `push_back`
order: the list of `key` in `db` is `watchers db key`. Which slot a key hashes to (`KeySlot`) is
a parameter.

## Main theorems

`watch_wakes_on_write`: once a connection registers a watch on a key, any later `PostUpdate` of the
key, flush of its database or flush of its slot marks the connection dirty, whatever else runs in
between, unless the connection unregisters that key first.

`unwatch_silences`: once `UnregisterConnectionWatches` runs with an `ExecInfo` that records every key
the connection watches, nothing writes the connection's `watched_dirty` again until it registers a
new watch: no pointer to the `ExecInfo` is left in any `watched_keys`.
-/

namespace Dragonfly.Watches

open Keys

/-! ## Algorithm -/

/-- One entry of a database's `watched_keys`: the `ExecInfo` of `conn` in the list of `key`. -/
structure Watch where
  db : Nat
  key : String
  conn : Nat
  deriving DecidableEq, Repr

/-- The watches of a shard: the entries of every `watched_keys`, and every connection's
`watched_dirty`. -/
structure State where
  watched : List Watch
  watchedDirty : Nat → Bool

/-- A shard whose connections watch nothing. -/
def init : State := ⟨[], fun _ => false⟩

namespace State

variable (s : State)

/-- `db_arr_[db]->watched_keys[key]`, empty when the key has no entry. -/
def watchers (db : Nat) (key : String) : List Nat :=
  (s.watched.filter fun w => decide (w.db = db ∧ w.key = key)).map Watch.conn

/-- `conn_ptr->watched_dirty.store(true)` for the connection of every entry `p` selects. -/
def invalidate (p : Watch → Bool) : State :=
  { s with
    watchedDirty := fun conn => s.watchedDirty conn || s.watched.any fun w => p w && w.conn == conn }

/-- The entries `p` selects leave their lists. -/
def erase (p : Watch → Bool) : State := { s with watched := s.watched.filter fun w => !p w }

/-- `DbSlice::RegisterWatchedKey`: `watched_keys[key].push_back(exec_info)`. -/
def registerWatchedKey (db : Nat) (key : String) (conn : Nat) : State :=
  { s with watched := s.watched ++ [⟨db, key, conn⟩] }

/-- `DbSlice::UnregisterConnectionWatches(exec_info)`, given `exec_info->watched_keys`: the
connection leaves the list of each key recorded there (an emptied list is erased, which
`watchers` does not tell from an absent one). -/
def unregisterConnectionWatches (conn : Nat) (watchedKeys : List (Nat × String)) : State :=
  s.erase fun w => decide (w.conn = conn ∧ (w.db, w.key) ∈ watchedKeys)

/-- The watches part of `DbSlice::PostUpdate(db_ind, key)`: the watchers are marked and the
key's list is erased. -/
def postUpdate (db : Nat) (key : String) : State :=
  (s.invalidate fun w => decide (w.db = db ∧ w.key = key)).erase
    fun w => decide (w.db = db ∧ w.key = key)

/-- `DbSlice::InvalidateDbWatches(db_indx)`. -/
def invalidateDbWatches (db : Nat) : State := s.invalidate fun w => decide (w.db = db)

/-- `DbSlice::InvalidateSlotWatches(slot_ids)`: the keys of database 0 in a slot of `slotIds`. -/
def invalidateSlotWatches (keySlot : String → Nat) (slotIds : List Nat) : State :=
  s.invalidate fun w => decide (w.db = 0 ∧ keySlot w.key ∈ slotIds)

/-- One index of `DbSlice::FlushDbIndexes`: `InvalidateDbWatches`, then `CreateDb` puts a new
table, with no watched keys, in the old one's place. -/
def flushDbIndex (index : Nat) : State :=
  (s.invalidateDbWatches index).erase fun w => decide (w.db = index)

/-- The watches part of `DbSlice::FlushDbIndexes(indexes)`. -/
def flushDbIndexes (indexes : List Nat) : State := indexes.foldl flushDbIndex s

end State

/-- The calls on a shard that read or write `watched_keys`. -/
inductive Event
  | registerWatchedKey (db : Nat) (key : String) (conn : Nat)
  | unregisterConnectionWatches (conn : Nat) (watchedKeys : List (Nat × String))
  | postUpdate (db : Nat) (key : String)
  | flushDbIndexes (indexes : List Nat)
  | flushSlots (slotIds : List Nat)
  deriving DecidableEq, Repr

section Run

variable (keySlot : String → Nat)

/-- One call; `FlushSlots` runs `InvalidateSlotWatches` before it starts `FlushSlotsFb`. -/
def step (s : State) : Event → State
  | .registerWatchedKey db key conn => s.registerWatchedKey db key conn
  | .unregisterConnectionWatches conn watchedKeys => s.unregisterConnectionWatches conn watchedKeys
  | .postUpdate db key => s.postUpdate db key
  | .flushDbIndexes indexes => s.flushDbIndexes indexes
  | .flushSlots slotIds => s.invalidateSlotWatches keySlot slotIds

/-- The calls, one after the other. -/
def run : State → List Event → State
  | s, [] => s
  | s, e :: es => run (step keySlot s e) es

/-- The entries whose connection a call marks dirty. -/
def Event.marks : Event → Watch → Bool
  | .postUpdate db key, w => decide (w.db = db ∧ w.key = key)
  | .flushDbIndexes indexes, w => decide (w.db ∈ indexes)
  | .flushSlots slotIds, w => decide (w.db = 0 ∧ keySlot w.key ∈ slotIds)
  | _, _ => false

end Run

/-- The entries a call erases. -/
def Event.erases : Event → Watch → Bool
  | .unregisterConnectionWatches conn watchedKeys, w =>
    decide (w.conn = conn ∧ (w.db, w.key) ∈ watchedKeys)
  | .postUpdate db key, w => decide (w.db = db ∧ w.key = key)
  | .flushDbIndexes indexes, w => decide (w.db ∈ indexes)
  | _, _ => false

/-- The entries a call adds. -/
def Event.added : Event → List Watch
  | .registerWatchedKey db key conn => [⟨db, key, conn⟩]
  | _ => []

/-! ## Lemmas -/

namespace State

variable {s : State} {p : Watch → Bool} {conn : Nat}

@[simp] theorem invalidate_watched : (s.invalidate p).watched = s.watched := rfl

theorem invalidate_watchedDirty :
    (s.invalidate p).watchedDirty conn = true ↔
      s.watchedDirty conn = true ∨ ∃ w ∈ s.watched, p w = true ∧ w.conn = conn := by
  simp [invalidate]

@[simp] theorem erase_watched : (s.erase p).watched = s.watched.filter fun w => !p w := rfl

@[simp] theorem erase_watchedDirty : (s.erase p).watchedDirty = s.watchedDirty := rfl

theorem flushDbIndexes_watched (indexes : List Nat) :
    (s.flushDbIndexes indexes).watched = s.watched.filter fun w => !decide (w.db ∈ indexes) := by
  induction indexes generalizing s with
  | nil => simp [flushDbIndexes]
  | cons i is ih =>
    rw [flushDbIndexes, List.foldl_cons, ← flushDbIndexes, ih]
    simp only [flushDbIndex, invalidateDbWatches, erase_watched, invalidate_watched,
      List.filter_filter, List.mem_cons]
    congr 1
    funext w
    by_cases h : w.db = i <;> simp [h]

theorem flushDbIndexes_watchedDirty (indexes : List Nat) :
    (s.flushDbIndexes indexes).watchedDirty conn = true ↔
      s.watchedDirty conn = true ∨ ∃ w ∈ s.watched, w.db ∈ indexes ∧ w.conn = conn := by
  induction indexes generalizing s with
  | nil => simp [flushDbIndexes]
  | cons i is ih =>
    rw [flushDbIndexes, List.foldl_cons, ← flushDbIndexes, ih]
    simp only [flushDbIndex, invalidateDbWatches, erase_watchedDirty, invalidate_watchedDirty,
      erase_watched, invalidate_watched, List.mem_filter, List.mem_cons]
    constructor
    · rintro ((h | ⟨w, hw, hi, rfl⟩) | ⟨w, ⟨hw, -⟩, hi, rfl⟩)
      · exact .inl h
      · exact .inr ⟨w, hw, .inl (by simpa using hi), rfl⟩
      · exact .inr ⟨w, hw, .inr hi, rfl⟩
    · rintro (h | ⟨w, hw, hi | hi, rfl⟩)
      · exact .inl (.inl h)
      · exact .inl (.inr ⟨w, hw, by simpa using hi, rfl⟩)
      · by_cases h : w.db = i
        · exact .inl (.inr ⟨w, hw, by simpa using h, rfl⟩)
        · exact .inr ⟨w, ⟨hw, by simpa using h⟩, hi, rfl⟩

end State

section Step

variable {keySlot : String → Nat} {s : State} {e : Event} {w : Watch} {conn : Nat}

/-- What a call does to the entries: it erases `e.erases` and appends `e.added`. -/
theorem step_watched : (step keySlot s e).watched = s.watched.filter (fun w => !e.erases w) ++ e.added := by
  cases e <;>
    simp [step, Event.erases, Event.added, State.registerWatchedKey,
      State.unregisterConnectionWatches, State.postUpdate, State.flushDbIndexes_watched,
      State.invalidateSlotWatches]

theorem mem_step_watched :
    w ∈ (step keySlot s e).watched ↔ (w ∈ s.watched ∧ e.erases w = false) ∨ w ∈ e.added := by
  simp [step_watched]

/-- What a call does to the flags: it marks the connections of the entries `e.marks` selects. -/
theorem step_watchedDirty :
    (step keySlot s e).watchedDirty conn = true ↔
      s.watchedDirty conn = true ∨ ∃ w ∈ s.watched, e.marks keySlot w = true ∧ w.conn = conn := by
  cases e <;>
    simp only [step, Event.marks, State.registerWatchedKey, State.unregisterConnectionWatches,
      State.erase_watchedDirty, State.postUpdate, State.invalidate_watchedDirty,
      State.flushDbIndexes_watchedDirty, State.invalidateSlotWatches, decide_eq_true_eq]
  all_goals simp

/-- A flag once set stays set. -/
theorem step_dirty (h : s.watchedDirty conn = true) : (step keySlot s e).watchedDirty conn = true :=
  step_watchedDirty.2 (.inl h)

theorem run_dirty {evs : List Event} (h : s.watchedDirty conn = true) :
    (run keySlot s evs).watchedDirty conn = true := by
  induction evs generalizing s with
  | nil => exact h
  | cons e es ih => exact ih (step_dirty h)

/-- Every call that erases an entry marks its connection, except an unregistration of that
connection from that key. -/
theorem Event.marks_of_erases (keySlot : String → Nat) (h : e.erases w = true) :
    e.marks keySlot w = true ∨ ∃ ws, e = .unregisterConnectionWatches w.conn ws ∧ (w.db, w.key) ∈ ws := by
  cases e <;> simp_all [Event.erases, Event.marks]

end Step

/-! ### No lost wake-up -/

section Armed

variable {keySlot : String → Nat} {db : Nat} {key : String} {conn : Nat}

/-- The connection still watches the key, or has been marked. -/
def Armed (db : Nat) (key : String) (conn : Nat) (s : State) : Prop :=
  ⟨db, key, conn⟩ ∈ s.watched ∨ s.watchedDirty conn = true

/-- The calls that drop the watch unmarked. -/
def Event.Unwatches (db : Nat) (key : String) (conn : Nat) (e : Event) : Prop :=
  ∃ ws, e = .unregisterConnectionWatches conn ws ∧ (db, key) ∈ ws

theorem Armed.step {s : State} {e : Event} (h : Armed db key conn s)
    (hu : ¬ e.Unwatches db key conn) : Armed db key conn (Watches.step keySlot s e) := by
  rcases h with hw | hd
  · cases he : e.erases ⟨db, key, conn⟩
    · exact .inl (mem_step_watched.2 (.inl ⟨hw, he⟩))
    · rcases Event.marks_of_erases keySlot he with hm | hun
      · exact .inr (step_watchedDirty.2 (.inr ⟨_, hw, hm, rfl⟩))
      · exact absurd hun hu
  · exact .inr (step_dirty hd)

theorem Armed.step_marks {s : State} {e : Event} (h : Armed db key conn s)
    (hm : e.marks keySlot ⟨db, key, conn⟩ = true) :
    (Watches.step keySlot s e).watchedDirty conn = true := by
  rcases h with hw | hd
  · exact step_watchedDirty.2 (.inr ⟨_, hw, hm, rfl⟩)
  · exact step_dirty hd

theorem Armed.run {s : State} {evs : List Event} (h : Armed db key conn s)
    (hu : ∀ e ∈ evs, ¬ e.Unwatches db key conn)
    (hm : ∃ e ∈ evs, e.marks keySlot ⟨db, key, conn⟩ = true) :
    (Watches.run keySlot s evs).watchedDirty conn = true := by
  induction evs generalizing s with
  | nil => simp at hm
  | cons e es ih =>
    rw [Watches.run]
    by_cases he : e.marks keySlot ⟨db, key, conn⟩ = true
    · exact run_dirty (h.step_marks he)
    · have hm' : ∃ e ∈ es, e.marks keySlot ⟨db, key, conn⟩ = true := by
        obtain ⟨e', he', hm⟩ := hm
        rcases List.mem_cons.1 he' with rfl | he'
        · exact absurd hm he
        · exact ⟨e', he', hm⟩
      exact ih (h.step (hu e (.head _))) (fun e' he' => hu e' (.tail _ he')) hm'

end Armed

theorem watch_wakes_on_write (keySlot : String → Nat) (s : State) {db : Nat} {key : String}
    {conn : Nat} {evs : List Event}
    (hun : ∀ ws, .unregisterConnectionWatches conn ws ∈ evs → (db, key) ∉ ws)
    (htouch : ∃ e ∈ evs, e.marks keySlot ⟨db, key, conn⟩ = true) :
    (run keySlot s (.registerWatchedKey db key conn :: evs)).watchedDirty conn = true := by
  have h0 : Armed db key conn (step keySlot s (.registerWatchedKey db key conn)) :=
    .inl (mem_step_watched.2 (.inr (List.mem_singleton_self _)))
  rw [run]
  exact Armed.run h0 (fun e he ⟨ws, hws, hk⟩ => hun ws (hws ▸ he) hk) htouch

/-- Connection `1` watches `k`, connection `2` watches it too, then `k` is written. -/
theorem watch_wakes_on_write_otherWatcher :
    (∀ ws, Event.unregisterConnectionWatches 1 ws ∈ [.registerWatchedKey 0 "k" 2, .postUpdate 0 "k"] →
      (0, "k") ∉ ws) ∧
    (∃ e ∈ [Event.registerWatchedKey 0 "k" 2, .postUpdate 0 "k"],
      e.marks (fun _ => 0) ⟨0, "k", 1⟩ = true) ∧
    (run (fun _ => 0) init
      (.registerWatchedKey 0 "k" 1 :: [.registerWatchedKey 0 "k" 2, .postUpdate 0 "k"])).watchedDirty 1
      = true :=
  have hun : ∀ ws, Event.unregisterConnectionWatches 1 ws ∈
      [.registerWatchedKey 0 "k" 2, .postUpdate 0 "k"] → (0, "k") ∉ ws := by simp
  have htouch : ∃ e ∈ [Event.registerWatchedKey 0 "k" 2, .postUpdate 0 "k"],
      e.marks (fun _ => 0) ⟨0, "k", 1⟩ = true := ⟨.postUpdate 0 "k", by simp, by decide⟩
  ⟨hun, htouch, watch_wakes_on_write (fun _ => 0) init hun htouch⟩

/-! ### No write after unregistration -/

section Unwatched

variable {keySlot : String → Nat} {conn : Nat}

/-- No entry of the connection is left. -/
def Unwatched (conn : Nat) (s : State) : Prop := ∀ w ∈ s.watched, w.conn ≠ conn

theorem Unwatched.step (keySlot : String → Nat) {s : State} {e : Event} (h : Unwatched conn s)
    (hr : ∀ db key, e ≠ .registerWatchedKey db key conn) :
    Unwatched conn (Watches.step keySlot s e) ∧
      (Watches.step keySlot s e).watchedDirty conn = s.watchedDirty conn := by
  refine ⟨fun w hw => ?_, Bool.eq_iff_iff.2 ⟨fun hd => ?_, step_dirty⟩⟩
  · rcases mem_step_watched.1 hw with ⟨hw, -⟩ | hw
    · exact h w hw
    · cases e <;> simp_all [Event.added]
  · rcases step_watchedDirty.1 hd with hd | ⟨w, hw, -, rfl⟩
    · exact hd
    · exact absurd rfl (h w hw)

theorem Unwatched.run {s : State} {evs : List Event} (h : Unwatched conn s)
    (hr : ∀ e ∈ evs, ∀ db key, e ≠ .registerWatchedKey db key conn) :
    (Watches.run keySlot s evs).watchedDirty conn = s.watchedDirty conn := by
  induction evs generalizing s with
  | nil => rfl
  | cons e es ih =>
    obtain ⟨h', hd⟩ := h.step keySlot (hr e (.head _))
    exact (ih h' fun e' he' => hr e' (.tail _ he')).trans hd

theorem unregisterConnectionWatches_unwatched {s : State} {ws : List (Nat × String)}
    (hrec : ∀ w ∈ s.watched, w.conn = conn → (w.db, w.key) ∈ ws) :
    Unwatched conn (s.unregisterConnectionWatches conn ws) := by
  intro w hw hc
  simp only [State.unregisterConnectionWatches, State.erase_watched, List.mem_filter,
    Bool.not_eq_true', decide_eq_false_iff_not, not_and] at hw
  exact hw.2 hc (hrec w hw.1 hc)

end Unwatched

theorem unwatch_silences (keySlot : String → Nat) {s : State} {conn : Nat}
    {ws : List (Nat × String)} {evs : List Event}
    (hrec : ∀ w ∈ s.watched, w.conn = conn → (w.db, w.key) ∈ ws)
    (hreg : ∀ e ∈ evs, ∀ db key, e ≠ .registerWatchedKey db key conn) :
    (run keySlot s (.unregisterConnectionWatches conn ws :: evs)).watchedDirty conn =
      s.watchedDirty conn :=
  (unregisterConnectionWatches_unwatched hrec).run hreg

/-- Connection `1` watches `k` and unwatches it; then `k` is written and database `0` flushed. -/
theorem unwatch_silences_thenFlush :
    let s := init.registerWatchedKey 0 "k" 1
    (∀ w ∈ s.watched, w.conn = 1 → (w.db, w.key) ∈ [(0, "k")]) ∧
    (∀ e ∈ [Event.postUpdate 0 "k", .flushDbIndexes [0]], ∀ db key,
      e ≠ .registerWatchedKey db key 1) ∧
    (run (fun _ => 0) s (.unregisterConnectionWatches 1 [(0, "k")] ::
      [.postUpdate 0 "k", .flushDbIndexes [0]])).watchedDirty 1 = s.watchedDirty 1 :=
  have hrec : ∀ w ∈ (init.registerWatchedKey 0 "k" 1).watched, w.conn = 1 →
      (w.db, w.key) ∈ [(0, "k")] := by decide
  have hreg : ∀ e ∈ [Event.postUpdate 0 "k", .flushDbIndexes [0]], ∀ db key,
      e ≠ .registerWatchedKey db key 1 := by simp
  ⟨hrec, hreg, unwatch_silences (fun _ => 0) hrec hreg⟩

/-! ### The table's `PostUpdate` is this one, on one database -/

/-- `DbTable.postUpdate`, which keeps one database's `watched_keys` and the flags, does what the
shard's `PostUpdate` does to that database's lists and to the flags. -/
theorem postUpdate_refines {s : State} {t : DbTable} {db : Nat} (hw : t.watchedKeys = s.watchers db)
    (hd : t.watchedDirty = s.watchedDirty) (key : String) :
    (t.postUpdate key).watchedKeys = (s.postUpdate db key).watchers db ∧
      (t.postUpdate key).watchedDirty = (s.postUpdate db key).watchedDirty := by
  refine ⟨funext fun k => ?_, funext fun conn => ?_⟩
  · by_cases hk : k = key
    · subst hk
      simp [DbTable.postUpdate, State.postUpdate, State.watchers, List.filter_filter]
    · simp only [DbTable.postUpdate, Function.update_noteq hk, hw, State.postUpdate, State.watchers,
        State.erase_watched, State.invalidate_watched, List.filter_filter]
      congr 1
      apply List.filter_congr
      intro w _
      by_cases h : w.key = k <;> simp [h, hk]
  · apply Bool.eq_iff_iff.2
    simp [DbTable.postUpdate, State.postUpdate, State.invalidate_watchedDirty, State.watchers, hd,
      hw, and_assoc]

end Dragonfly.Watches
