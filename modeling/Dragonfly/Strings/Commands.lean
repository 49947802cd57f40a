import Dragonfly.Keys.Accounting
import Dragonfly.Strings.Ops
import Dragonfly.Strings.Replica

/-!
# The commands on a database

`Command` lists what runs on a database between two shard callbacks, when no `AutoUpdater` is
live: the string commands, `DEL`, the heartbeat's expiry step, the deletions of the heartbeat
eviction and of a slot flush, and `FLUSHDB`. `Reachable` is the set of tables they reach from an
empty one; `ReachableAll` adds `AddOrUpdate` with its updater.

Every string command writes a value through the updater its lookup returned and runs it before it
returns (or, for `GETEX`, `GAT` and `GETDEL`, before the deletion that may follow), so each keeps
the accounting of `Keys/Accounting.lean`, and so does `AddOrUpdate`: on every table of
`ReachableAll`, `obj_memory_usage` is the heap of its keys and values and `inline_keys` the number
of inline keys (`stats_match_keys`). Each command also keeps the prime, expire and mcflag tables in
agreement (`tablesAgree_reachable`); `AddOrUpdate` does not (`Keys.addOrUpdate_orphans_deadline`).
-/

namespace Dragonfly.Strings

open Keys DbTable

/-- The deletions of the heartbeat eviction (`FreeMemWithEvictionStepAtomic`) and of a slot flush
(`FlushSlotsFb`): `PerformDeletion` of each key their traversal picked. The choice is the scan's
(`Eviction.freeMemWithEvictionStepAtomic`) or the slot and version test of `FlushSlotsFb`. -/
def deleteKeys (sz : Sizes) (t : DbTable) (ks : List String) : DbTable :=
  ks.foldl (fun t k => t.performDeletion sz k) t

/-- What runs on a database between two shard callbacks. -/
inductive Command
  | set (p : SetParams) (manualJournal : Bool) (ins : Insertion) (k v : String)
  | mset (ins : String → Insertion) (journal : Bool) (pairs : List (String × String))
  | gat (maxMs : Int) (journal : Bool) (p : ExpireParams) (ks : List String)
  | getEx (maxMs : Int) (journal : Bool) (isDefined : ExpireParams → Bool) (p : ExpireParams)
      (k : String)
  | throttle (ins : Insertion) (k : String) (limit emissionIntervalMs : Int) (quantity : Nat)
  | strLen (k : String)
  | setRange (ins : Insertion) (k : String) (start : Nat) (range : String)
  | extend (ins : Insertion) (k value : String) (prepend : Bool)
  | extendOrSkip (k value : String) (prepend : Bool)
  | incrFloat (ins : Insertion) (k : String) (val : Float)
  | incrBy (ins : Insertion) (k : String) (incr : Int) (skipOnMissing : Bool)
  | getDel (k : String)
  | del (k : String)
  | deleteExpired (ks : List String)
  | deleteKeys (ks : List String)
  | flushDb

section Run

variable (parseDouble : String → Option Float) (formatDouble : Float → String)

/-- The table a command leaves. -/
def Command.run (c : Ctx) : Command → DbTable → DbTable
  | .set p mj ins k v, t => (SetCmd.set c p mj t ins k v).1
  | .mset ins journal pairs, t => (opMSet c ins journal t pairs).1
  | .gat maxMs journal p ks, t => (opGat c maxMs journal p t ks).1
  | .getEx maxMs journal isDefined p k, t => (Strings.getEx c maxMs journal isDefined p t k).1
  | .throttle ins k limit emission quantity, t => (opThrottle c ins t k limit emission quantity).1
  | .strLen k, t => (opStrLen c t k).1
  | .setRange ins k start range, t => (opSetRange c ins t k start range).1
  | .extend ins k value prepend, t => (opExtend c ins t k value prepend).1
  | .extendOrSkip k value prepend, t => (Strings.extendOrSkip c t k value prepend).1
  | .incrFloat ins k val, t => (opIncrFloat parseDouble formatDouble c ins t k val).1
  | .incrBy ins k incr skip, t => (opIncrBy c ins t k incr skip).1
  | .getDel k, t => (Strings.getDel c t k).1
  | .del k, t => opDel c t k
  | .deleteExpired ks, t => (t.deleteExpiredStep c ks).1
  | .deleteKeys ks, t => Strings.deleteKeys c.sz t ks
  | .flushDb, _ => DbTable.empty

/-- The tables a database reaches from `CreateDb`, its sizes `sz` fixed. -/
inductive Reachable (sz : Sizes) : DbTable → Prop
  | empty : Reachable sz DbTable.empty
  | step {t : DbTable} (c : Ctx) (cmd : Command) :
      Reachable sz t → c.sz = sz → Reachable sz (cmd.run parseDouble formatDouble c t)

/-- `DbSlice::AddOrUpdate(key, obj, expire_at_ms)`, then the `AutoUpdater` it returns, run when
its caller drops it. No string command calls it. -/
def addOrUpdateRun (c : Ctx) (ins : Insertion) (t : DbTable) (k : String) (obj : PrimeValue)
    (expireAtMs : Int) : DbTable :=
  match t.addOrUpdate c ins k obj expireAtMs with
  | (t1, _, r) =>
    match r.updater with
    | some u => t1.runUpdater c.sz u
    | none => t1

/-- The tables a database reaches from `CreateDb` through the commands and `AddOrUpdate`. -/
inductive ReachableAll (sz : Sizes) : DbTable → Prop
  | empty : ReachableAll sz DbTable.empty
  | step {t : DbTable} (c : Ctx) (cmd : Command) :
      ReachableAll sz t → c.sz = sz → ReachableAll sz (cmd.run parseDouble formatDouble c t)
  | addOrUpdate {t : DbTable} (c : Ctx) (ins : Insertion) (k : String) (obj : PrimeValue)
      (expireAtMs : Int) :
      ReachableAll sz t → c.sz = sz → ReachableAll sz (addOrUpdateRun c ins t k obj expireAtMs)

theorem Reachable.reachableAll {sz : Sizes} {t : DbTable} (h : Reachable parseDouble formatDouble sz t) :
    ReachableAll parseDouble formatDouble sz t := by
  induction h with
  | empty => exact .empty
  | step c cmd _ hc ih => exact .step c cmd ih hc

end Run

end Dragonfly.Strings

/-! ## Lemmas -/

namespace Dragonfly.Keys.DbTable

open Strings

variable {t : DbTable} (c : Ctx) (p : SetParams) {k : String}

@[simp] theorem setCmdAddNew_keys (v : String) : (SetCmd.addNew c p t k v).keys = t.keys := by
  simp only [SetCmd.addNew, apply_ite DbTable.keys, modify_keys, addExpire_keys, setMCFlag_keys,
    ite_self]

@[simp] theorem setExisting_keys (v : String) (u : AutoUpdater) :
    (SetCmd.setExisting c p t k v u).1.keys = t.keys := by
  simp only [SetCmd.setExisting, modify_keys, setMCFlag_keys, reduceHeapUsage_keys,
    apply_ite DbTable.keys, removeExpire_keys, addExpire_keys, setExpire_keys, ite_self]

/-- A value written through a live updater, which then runs. -/
theorem Accounted.writeRun {sz : Sizes} {u : AutoUpdater} (h : Accounted sz t (some u))
    (hk : u.key ∈ t.keys) (v : String) : Accounted sz ((t.setString u.key v).runUpdater sz u) none :=
  (h.modify_pending _).runUpdater (by simpa [setString] using hk)

/-- `SetExisting` changes the deadline, the bits and the mcflag, takes the old value off early
(`ReduceHeapUsage`) and writes the string: the updater it leaves counts the value at `0`. -/
theorem Accounted.setExisting {u : AutoUpdater} (h : Accounted c.sz t (some u)) (hk : u.key ∈ t.keys)
    (v : String) : Accounted c.sz (SetCmd.setExisting c p t u.key v u).1
      (some (SetCmd.setExisting c p t u.key v u).2) := by
  simp only [SetCmd.setExisting]
  refine (((Accounted.reduceHeapUsage ?_ ?_).modify_pending _).setMCFlag _ _).modify_pending _
  · refine Accounted.byCases (fun _ => Accounted.modify_bits ?_ _ fun _ => rfl) fun _ => ?_ <;>
      exact Accounted.byCases (fun _ => h) fun _ => Accounted.byCases
        (fun _ => Accounted.byCases (fun _ => h.setExpire _ _) fun _ => h.addExpire _ _)
        fun _ => h.removeExpire _
  · simp only [apply_ite DbTable.keys, modify_keys, removeExpire_keys, addExpire_keys,
      setExpire_keys, ite_self]
    exact hk

theorem Accounted.setCmdAddNew {u : AutoUpdater} (h : Accounted c.sz t (some u)) (v : String) :
    Accounted c.sz (SetCmd.addNew c p t u.key v) (some u) := by
  unfold SetCmd.addNew
  dsimp only
  split_ifs <;> (try refine Accounted.modify_bits ?_ _ fun _ => rfl) <;>
    (try refine Accounted.setMCFlag ?_ _ _) <;> (try refine Accounted.modify_bits ?_ _ fun _ => rfl) <;>
    (try refine Accounted.setExpire ?_ _ _) <;> exact h.modify_pending _

theorem Accounted.setFound {u : AutoUpdater} (h : Accounted c.sz t (some u)) (hk : u.key ∈ t.keys)
    (mj : Bool) (v : String) : Accounted c.sz (SetCmd.setFound c p mj t u.key v u).1 none :=
  (h.setExisting c p hk v).runUpdater (by simpa using hk)

theorem Accounted.setAdd (h : Accounted c.sz t none) (mj : Bool) (ins : Insertion) (k v : String) :
    Accounted c.sz (SetCmd.setAdd c p mj t ins k v).1 none := by
  unfold SetCmd.setAdd
  have h1 := h.addOrFind c ins k
  have hl := fun u => addOrFind_updater_live (t := t) (k := k) c ins (u := u)
  generalize t.addOrFind c ins k = r at h1 hl
  obtain ⟨t1, j1, u | u | _⟩ := r
  · obtain ⟨rfl, hk⟩ := hl u rfl
    exact h1.setFound c p hk mj v
  · obtain ⟨rfl, hk⟩ := hl u rfl
    exact (h1.setCmdAddNew c p v).runUpdater (by simpa using hk)
  · exact h1

/-- `SetCmd::Set` keeps the accounting. -/
theorem Accounted.set (h : Accounted c.sz t none) (mj : Bool) (ins : Insertion) (k v : String) :
    Accounted c.sz (SetCmd.set c p mj t ins k v).1 none := by
  unfold SetCmd.set
  split
  · have h1 := h.findMutable c k
    have hl := fun u => findMutable_updater_live (t := t) (k := k) c (u := u)
    generalize t.findMutable c k = r at h1 hl
    obtain ⟨t1, j1, _ | u⟩ := r
    · dsimp only; split
      · exact h1
      · exact h1.setAdd c p mj ins k v
    · obtain ⟨rfl, hk⟩ := hl u rfl
      dsimp only; split
      · exact h1.setFound c p hk mj v
      · exact h1.runUpdater hk
  · exact h.setAdd c p mj ins k v

theorem Accounted.msetLoop (ins : String → Insertion) :
    ∀ (pairs : List (String × String)) {t : DbTable}, Accounted c.sz t none →
      Accounted c.sz (Strings.msetLoop c ins t pairs).1 none
  | [], _, h => h
  | (k, v) :: kvs, t, h => by
    have h1 := h.set c {} false (ins k) k v
    unfold Strings.msetLoop
    generalize SetCmd.set c {} false t (ins k) k v = r at h1
    obtain ⟨t1, j1, r⟩ := r
    cases r <;> first | exact h1 | exact Accounted.msetLoop ins kvs h1

theorem Accounted.findKeyAndSetExpiry (h : Accounted c.sz t none) (maxMs : Int) (journal : Bool)
    (ep : ExpireParams) (k : String) :
    Accounted c.sz (Strings.findKeyAndSetExpiry c maxMs journal ep t k).1 none := by
  unfold Strings.findKeyAndSetExpiry
  have h1 := h.findMutable c k
  have hl := fun u => findMutable_updater_live (t := t) (k := k) c (u := u)
  generalize t.findMutable c k = r at h1 hl
  obtain ⟨t1, j1, _ | u⟩ := r
  · exact h1
  · obtain ⟨rfl, hk⟩ := hl u rfl
    have h2 := (h1.runUpdater hk).updateExpire c maxMs u.key ep
    dsimp only
    split <;> simp_all

theorem Accounted.opGat (maxMs : Int) (journal : Bool) (ep : ExpireParams) :
    ∀ (ks : List String) {t : DbTable}, Accounted c.sz t none →
      Accounted c.sz (Strings.opGat c maxMs journal ep t ks).1 none
  | [], _, h => h
  | k :: ks, _, h => Accounted.opGat maxMs journal ep ks (h.findKeyAndSetExpiry c maxMs journal ep k)

theorem Accounted.getEx (h : Accounted c.sz t none) (maxMs : Int) (journal : Bool)
    (isDefined : ExpireParams → Bool) (ep : ExpireParams) (k : String) :
    Accounted c.sz (Strings.getEx c maxMs journal isDefined ep t k).1 none := by
  unfold Strings.getEx
  have h1 := h.findMutable c k
  have hl := fun u => findMutable_updater_live (t := t) (k := k) c (u := u)
  generalize t.findMutable c k = r at h1 hl
  obtain ⟨t1, j1, _ | u⟩ := r
  · exact h1
  · obtain ⟨rfl, hk⟩ := hl u rfl
    have h2 : Accounted c.sz (if isDefined ep then (t1.runUpdater c.sz u).updateExpire c maxMs u.key ep
        else (t1.runUpdater c.sz u, .ok 0)).1 none := by
      split
      · exact (h1.runUpdater hk).updateExpire c maxMs u.key ep
      · exact h1.runUpdater hk
    dsimp only
    split <;> simp_all

theorem Accounted.opThrottle (h : Accounted c.sz t none) (ins : Insertion) (k : String)
    (limit emissionIntervalMs : Int) (quantity : Nat) :
    Accounted c.sz (Strings.opThrottle c ins t k limit emissionIntervalMs quantity).1 none := by
  unfold Strings.opThrottle
  split_ifs
  · exact h
  · exact h
  have h1 := h.findMutable c k
  have hl := fun u => findMutable_updater_live (t := t) (k := k) c (u := u)
  generalize t.findMutable c k = r at h1 hl
  obtain ⟨t1, j1, _ | u⟩ := r
  · dsimp only
    split
    · exact h1
    · split
      · exact h1
      · rename_i newTat _ _ _ _ _
        have h2 := h1.addOrUpdateInternal c ins k ⟨toString newTat, false, false⟩ newTat false
        have hl2 := fun u => addOrUpdateInternal_updater_live (t := t1) (k := k) c ins
          ⟨toString newTat, false, false⟩ newTat false (u := u)
        unfold DbTable.addNew
        generalize t1.addOrUpdateInternal c ins k _ newTat false = r at h2 hl2 ⊢
        obtain ⟨t2, j2, u | u | _⟩ := r
        · obtain ⟨rfl, hk2⟩ := hl2 u rfl; exact h2.runUpdater hk2
        · obtain ⟨rfl, hk2⟩ := hl2 u rfl; exact h2.runUpdater hk2
        · exact h2
  · obtain ⟨rfl, hk⟩ := hl u rfl
    dsimp only
    split
    · exact h1.runUpdater hk
    · split
      · exact h1.runUpdater hk
      · refine Accounted.runUpdater (Accounted.byCases (fun _ => h1) fun _ =>
          (Accounted.byCases (fun _ => h1.setExpire _ _) fun _ => h1.addExpire _ _).modify_pending _) ?_
        simp only [apply_ite DbTable.keys, modify_keys, addExpire_keys, setExpire_keys, ite_self]
        exact hk

theorem Accounted.opStrLen (h : Accounted c.sz t none) (k : String) :
    Accounted c.sz (Strings.opStrLen c t k).1 none := by
  have h1 := h.findInternal c k
  unfold Strings.opStrLen
  split <;> simp_all

theorem Accounted.opSetRange (h : Accounted c.sz t none) (ins : Insertion) (k : String)
    (start : Nat) (range : String) : Accounted c.sz (Strings.opSetRange c ins t k start range).1 none := by
  unfold Strings.opSetRange
  split
  · exact h.opStrLen c k
  · have h1 := h.addOrFind c ins k
    have hl := fun u => addOrFind_updater_live (t := t) (k := k) c ins (u := u)
    generalize t.addOrFind c ins k = r at h1 hl
    obtain ⟨t1, j, u | u | _⟩ := r
    · obtain ⟨rfl, hk⟩ := hl u rfl; exact h1.writeRun hk _
    · obtain ⟨rfl, hk⟩ := hl u rfl; exact h1.writeRun hk _
    · exact h1

theorem Accounted.opExtend (h : Accounted c.sz t none) (ins : Insertion) (k value : String)
    (prepend : Bool) : Accounted c.sz (Strings.opExtend c ins t k value prepend).1 none := by
  have h1 := h.addOrFind c ins k
  have hl := fun u => addOrFind_updater_live (t := t) (k := k) c ins (u := u)
  unfold Strings.opExtend
  generalize t.addOrFind c ins k = r at h1 hl
  obtain ⟨t1, j, u | u | _⟩ := r
  · obtain ⟨rfl, hk⟩ := hl u rfl; exact h1.writeRun hk _
  · obtain ⟨rfl, hk⟩ := hl u rfl; exact h1.writeRun hk _
  · exact h1

theorem Accounted.extendOrSkip (h : Accounted c.sz t none) (k value : String) (prepend : Bool) :
    Accounted c.sz (Strings.extendOrSkip c t k value prepend).1 none := by
  have h1 := h.findMutable c k
  have hl := fun u => findMutable_updater_live (t := t) (k := k) c (u := u)
  unfold Strings.extendOrSkip
  generalize t.findMutable c k = r at h1 hl
  obtain ⟨t1, j, _ | u⟩ := r
  · exact h1
  · obtain ⟨rfl, hk⟩ := hl u rfl; exact h1.writeRun hk _

theorem Accounted.opIncrFloat (h : Accounted c.sz t none) (parseDouble : String → Option Float)
    (formatDouble : Float → String) (ins : Insertion) (k : String) (val : Float) :
    Accounted c.sz (Strings.opIncrFloat parseDouble formatDouble c ins t k val).1 none := by
  have h1 := h.addOrFind c ins k
  have hl := fun u => addOrFind_updater_live (t := t) (k := k) c ins (u := u)
  unfold Strings.opIncrFloat
  generalize t.addOrFind c ins k = r at h1 hl
  obtain ⟨t1, j, u | u | _⟩ := r
  · obtain ⟨rfl, hk⟩ := hl u rfl
    dsimp only
    split_ifs
    · exact h1.runUpdater hk
    · split
      · exact h1.runUpdater hk
      · split_ifs
        · exact h1.runUpdater hk
        · exact h1.writeRun hk _
  · obtain ⟨rfl, hk⟩ := hl u rfl; exact h1.writeRun hk _
  · exact h1

theorem Accounted.opIncrBy (h : Accounted c.sz t none) (ins : Insertion) (k : String) (incr : Int)
    (skipOnMissing : Bool) : Accounted c.sz (Strings.opIncrBy c ins t k incr skipOnMissing).1 none := by
  have h1 := h.findMutable c k
  have hl := fun u => findMutable_updater_live (t := t) (k := k) c (u := u)
  unfold Strings.opIncrBy
  generalize t.findMutable c k = r at h1 hl
  obtain ⟨t1, j, _ | u⟩ := r
  · dsimp only
    split
    · exact h1
    · have h2 := h1.addOrUpdateInternal c ins k ⟨toString incr, false, false⟩ 0 false
      have hl2 := fun u => addOrUpdateInternal_updater_live (t := t1) (k := k) c ins
        ⟨toString incr, false, false⟩ 0 false (u := u)
      unfold DbTable.addNew
      generalize t1.addOrUpdateInternal c ins k _ 0 false = r at h2 hl2 ⊢
      obtain ⟨t2, j2, u | u | _⟩ := r
      · obtain ⟨rfl, hk2⟩ := hl2 u rfl; exact h2.runUpdater hk2
      · obtain ⟨rfl, hk2⟩ := hl2 u rfl; exact h2.runUpdater hk2
      · exact h2
  · obtain ⟨rfl, hk⟩ := hl u rfl
    dsimp only
    split
    · exact h1.runUpdater hk
    · split_ifs
      · exact h1.runUpdater hk
      · exact h1.writeRun hk _

/-- `GETDEL` runs the updater before it deletes the key. -/
theorem Accounted.getDel (h : Accounted c.sz t none) (k : String) :
    Accounted c.sz (Strings.getDel c t k).1 none := by
  have h1 := h.findMutable c k
  have hl := fun u => findMutable_updater_live (t := t) (k := k) c (u := u)
  unfold Strings.getDel
  generalize t.findMutable c k = r at h1 hl
  obtain ⟨t1, j, _ | u⟩ := r
  · exact h1
  · obtain ⟨rfl, hk⟩ := hl u rfl; exact (h1.runUpdater hk).performDeletion (k := u.key) nofun

theorem Accounted.opDel (h : Accounted c.sz t none) (k : String) :
    Accounted c.sz (Strings.opDel c t k) none := by
  have h1 := h.findInternal c k
  unfold Strings.opDel
  generalize t.findInternal c k = r at h1
  obtain ⟨t1, j, _ | s⟩ := r
  · exact h1
  · exact h1.performDeletion (k := k) nofun

theorem Accounted.deleteKeys {sz : Sizes} :
    ∀ (ks : List String) {t : DbTable}, Accounted sz t none → Accounted sz (Strings.deleteKeys sz t ks) none
  | [], _, h => h
  | k :: ks, _, h => Accounted.deleteKeys ks (h.performDeletion (k := k) nofun)

theorem Accounted.run (parseDouble : String → Option Float) (formatDouble : Float → String)
    (h : Accounted c.sz t none) : ∀ cmd : Command, Accounted c.sz (cmd.run parseDouble formatDouble c t) none
  | .set p mj ins k v => h.set c p mj ins k v
  | .mset ins _ pairs => h.msetLoop c ins pairs
  | .gat maxMs journal ep ks => h.opGat c maxMs journal ep ks
  | .getEx maxMs journal isDefined ep k => h.getEx c maxMs journal isDefined ep k
  | .throttle ins k limit emission quantity => h.opThrottle c ins k limit emission quantity
  | .strLen k => h.opStrLen c k
  | .setRange ins k start range => h.opSetRange c ins k start range
  | .extend ins k value prepend => h.opExtend c ins k value prepend
  | .extendOrSkip k value prepend => h.extendOrSkip c k value prepend
  | .incrFloat ins k val => h.opIncrFloat c parseDouble formatDouble ins k val
  | .incrBy ins k incr skip => h.opIncrBy c ins k incr skip
  | .getDel k => h.getDel c k
  | .del k => h.opDel c k
  | .deleteExpired ks => h.deleteExpiredStep c ks
  | .deleteKeys ks => h.deleteKeys ks
  | .flushDb => accounted_empty

/-- `AddOrUpdate` with its updater run. -/
theorem Accounted.addOrUpdateRun (h : Accounted c.sz t none) (ins : Insertion) (k : String)
    (obj : PrimeValue) (expireAtMs : Int) :
    Accounted c.sz (Strings.addOrUpdateRun c ins t k obj expireAtMs) none := by
  have ha := h.addOrUpdateInternal c ins k obj expireAtMs true
  have hl := fun u => addOrUpdateInternal_updater_live (t := t) (k := k) c ins obj expireAtMs true (u := u)
  unfold Strings.addOrUpdateRun DbTable.addOrUpdate
  generalize t.addOrUpdateInternal c ins k obj expireAtMs true = r at ha hl
  obtain ⟨t1, j, r⟩ := r
  dsimp only at ha hl ⊢
  cases hu : r.updater with
  | none => rw [hu] at ha; exact ha
  | some u =>
    rw [hu] at ha
    obtain ⟨rfl, hk⟩ := hl u hu
    exact ha.runUpdater hk

end Dragonfly.Keys.DbTable

/-! ## Main theorem -/

namespace Dragonfly.Strings

open Keys DbTable

variable {t : DbTable} {parseDouble : String → Option Float} {formatDouble : Float → String} {sz : Sizes}

/-- On every table a database reaches, with no updater live, `obj_memory_usage` is the sum over
its keys of the key's `MallocUsed` (unless the key is inline) and the value's `MallocUsed`, and
`inline_keys` is the number of inline keys. -/
theorem stats_match_keys (h : ReachableAll parseDouble formatDouble sz t) :
    t.stats.objMemoryUsage = ∑ k ∈ t.keys, (sz.keyUsage k + sz.valueMalloc (t.valueStr k)) ∧
      t.stats.inlineKeys = (t.keys.filter fun k => sz.keyInline k).card := by
  suffices ha : Accounted sz t none from ⟨ha.objMemory, ha.inlineKeys⟩
  induction h with
  | empty => exact accounted_empty
  | step c cmd _ hc ih => subst hc; exact ih.run c parseDouble formatDouble cmd
  | addOrUpdate c ins k obj e _ hc ih => subst hc; exact ih.addOrUpdateRun c ins k obj e

/-- `SET k hello`, then `AddOrUpdate` of `k` to `hi`, keys and values sized by their length. -/
theorem stats_match_keys_afterSet :
    let sz : Sizes := ⟨fun _ => false, String.length, String.length, rfl⟩
    let t := addOrUpdateRun ⟨0, true, sz⟩ (.inserted none)
      ((Command.set {} false (.inserted none) "k" "hello").run (fun _ => none) (fun _ => "")
        ⟨0, true, sz⟩ DbTable.empty) "k" ⟨"hi", false, false⟩ 0
    ReachableAll (fun _ => none) (fun _ => "") sz t ∧
      (t.stats.objMemoryUsage = ∑ k ∈ t.keys, (sz.keyUsage k + sz.valueMalloc (t.valueStr k)) ∧
        t.stats.inlineKeys = (t.keys.filter fun k => sz.keyInline k).card) := by
  intro sz t
  have hr : ReachableAll (fun _ => none) (fun _ => "") sz t := .addOrUpdate _ _ _ _ _ (.step _ _ .empty rfl) rfl
  exact ⟨hr, stats_match_keys hr⟩

end Dragonfly.Strings

namespace Dragonfly.Keys

open Strings

variable {t : DbTable} (c : Ctx)

theorem TablesAgree.opDel (h : TablesAgree t) (k : String) : TablesAgree (Strings.opDel c t k) := by
  have h1 := h.findInternal c k
  unfold Strings.opDel
  generalize t.findInternal c k = r at h1
  obtain ⟨t1, j, _ | s⟩ := r
  · exact h1
  · exact h1.performDeletion _ _

theorem TablesAgree.deleteKeys {sz : Sizes} :
    ∀ (ks : List String) {t : DbTable}, TablesAgree t → TablesAgree (Strings.deleteKeys sz t ks)
  | [], _, h => h
  | k :: ks, _, h => TablesAgree.deleteKeys ks (h.performDeletion sz k)

theorem TablesAgree.run (parseDouble : String → Option Float) (formatDouble : Float → String)
    (h : TablesAgree t) : ∀ cmd : Command, TablesAgree (cmd.run parseDouble formatDouble c t)
  | .set p mj ins _ v => h.set c p mj ins v
  | .mset ins journal pairs => h.opMSet c ins journal pairs
  | .gat maxMs journal ep ks => h.opGat c maxMs journal ep ks
  | .getEx maxMs journal isDefined ep k => h.getEx c maxMs journal isDefined ep k
  | .throttle ins k limit emission quantity => h.opThrottle c ins k limit emission quantity
  | .strLen k => h.opStrLen c k
  | .setRange ins k start range => h.opSetRange c ins k start range
  | .extend ins k value prepend => h.opExtend c ins k value prepend
  | .extendOrSkip k value prepend => h.extendOrSkip c k value prepend
  | .incrFloat ins k val => h.opIncrFloat c parseDouble formatDouble ins k val
  | .incrBy ins k incr skip => h.opIncrBy c ins k incr skip
  | .getDel k => h.getDel c k
  | .del k => h.opDel c k
  | .deleteExpired ks => h.deleteExpiredStep c ks
  | .deleteKeys ks => h.deleteKeys ks
  | .flushDb => tablesAgree_empty

end Dragonfly.Keys

namespace Dragonfly.Strings

open Keys

/-- Every table a database reaches keeps its prime, expire and mcflag tables in agreement: a key
has a deadline exactly when its value has `HasExpire`, and an mcflag exactly when it has
`HasFlag`. -/
theorem tablesAgree_reachable {parseDouble : String → Option Float} {formatDouble : Float → String}
    {sz : Sizes} {t : DbTable} (h : Reachable parseDouble formatDouble sz t) : TablesAgree t := by
  induction h with
  | empty => exact tablesAgree_empty
  | step c cmd _ _ ih => exact ih.run c parseDouble formatDouble cmd

/-- `INCRBY k 5` on a new database. -/
theorem tablesAgree_reachable_afterIncrBy :
    let sz : Sizes := ⟨fun _ => false, String.length, String.length, rfl⟩
    let t := (Command.incrBy (.inserted none) "k" 5 false).run (fun _ => none) (fun _ => "")
      ⟨0, true, sz⟩ DbTable.empty
    Reachable (fun _ => none) (fun _ => "") sz t ∧ TablesAgree t := by
  intro sz t
  have hr : Reachable (fun _ => none) (fun _ => "") sz t := .step _ _ .empty rfl
  exact ⟨hr, tablesAgree_reachable hr⟩

end Dragonfly.Strings
