import Mathlib.Data.List.Perm.Basic

/-!
# Transaction locks

Each database of a `DbSlice` keeps `trans_locks`, a `LockTable` from a key's fingerprint to an
intent lock that counts its holds in each mode. `DbSlice::Acquire` and `DbSlice::Release` take a
transaction's list of fingerprints: one fingerprint goes to the lock table directly, a longer list
goes through `uniq_fps_`, so that a fingerprint listed twice is taken once.

`LockTable` and `IntentLock` are outside the sources. Here a lock counts its holds per mode, and
whether it grants a new hold is a parameter `grant` of the holds it had before.

## Main theorem

`locks_match_acquires`: over every sequence of calls where each `Release` matches an earlier
`Acquire` with the same mode and arguments, each lock holds, per mode, as many holds as there are
unmatched `Acquire` calls whose list names its fingerprint, each call counted once. So the tables
are empty once every call is matched. And `Acquire` returns true exactly when every fingerprint of
its list was grantable.
-/

namespace Dragonfly.Locks

/-- `LockFp`: a key's fingerprint. -/
abbrev LockFp := UInt64

/-- `IntentLock::Mode`. -/
inductive IntentMode
  | shared
  | exclusive
  deriving DecidableEq, Repr

/-- `KeyLockArgs`: the database and the fingerprints of a transaction's keys. -/
structure KeyLockArgs where
  dbIndex : Nat
  fps : List LockFp
  deriving DecidableEq, Repr

/-- A `LockTable`: the holds of each fingerprint's lock, per mode. -/
abbrev LockTable := LockFp → IntentMode → Nat

/-- Whether a lock with the holds `c` grants one more in mode `m`: `IntentLock::Acquire`'s answer,
outside the sources. -/
abbrev Grant := IntentMode → (IntentMode → Nat) → Bool

variable (grant : Grant)

namespace LockTable

/-- `LockTable::Acquire(fp, mode)`: one more hold, and whether it was granted. -/
def acquire (lt : LockTable) (fp : LockFp) (m : IntentMode) : LockTable × Bool :=
  (Function.update lt fp (Function.update (lt fp) m (lt fp m + 1)), grant m (lt fp))

/-- `LockTable::Release(fp, mode)`: one hold less. -/
def release (lt : LockTable) (fp : LockFp) (m : IntentMode) : LockTable :=
  Function.update lt fp (Function.update (lt fp) m (lt fp m - 1))

end LockTable

/-! ## Algorithm -/

/-- The loop of `Acquire` over a list of several fingerprints: a fingerprint not yet in `uniq_fps_`
is inserted there and acquired, and `lock_acquired &=` its answer. -/
def acquireUniq (m : IntentMode) : List LockFp → List LockFp → LockTable → LockTable × Bool
  | [], _, lt => (lt, true)
  | fp :: fps, uniq, lt =>
    if fp ∈ uniq then acquireUniq m fps uniq lt
    else
      let r1 := lt.acquire grant fp m
      let r2 := acquireUniq m fps (fp :: uniq) r1.1
      (r2.1, r1.2 && r2.2)

/-- The loop of `Release` over a list of several fingerprints, through `uniq_fps_`. -/
def releaseUniq (m : IntentMode) : List LockFp → List LockFp → LockTable → LockTable
  | [], _, lt => lt
  | fp :: fps, uniq, lt =>
    if fp ∈ uniq then releaseUniq m fps uniq lt
    else releaseUniq m fps (fp :: uniq) (lt.release fp m)

namespace DbSlice

/-- `DbSlice::Acquire` on the `trans_locks` of every database: nothing for an empty list, the lock
table directly for one fingerprint, `uniq_fps_` for more. -/
def acquire (locks : Nat → LockTable) (m : IntentMode) (a : KeyLockArgs) :
    (Nat → LockTable) × Bool :=
  match a.fps with
  | [] => (locks, true)
  | [fp] =>
    let r := (locks a.dbIndex).acquire grant fp m
    (Function.update locks a.dbIndex r.1, r.2)
  | fps =>
    let r := acquireUniq grant m fps [] (locks a.dbIndex)
    (Function.update locks a.dbIndex r.1, r.2)

/-- `DbSlice::Release`. -/
def release (locks : Nat → LockTable) (m : IntentMode) (a : KeyLockArgs) : Nat → LockTable :=
  match a.fps with
  | [] => locks
  | [fp] => Function.update locks a.dbIndex ((locks a.dbIndex).release fp m)
  | fps => Function.update locks a.dbIndex (releaseUniq m fps [] (locks a.dbIndex))

end DbSlice

/-- The mode and arguments of an `Acquire` call. -/
structure LockCall where
  mode : IntentMode
  args : KeyLockArgs
  deriving DecidableEq, Repr

/-- A call of `Acquire` or `Release` by some transaction. -/
inductive LockEvent
  | acquire (m : IntentMode) (a : KeyLockArgs)
  | release (m : IntentMode) (a : KeyLockArgs)
  deriving DecidableEq, Repr

/-- The lock tables after a sequence of calls. -/
def runLocks : (Nat → LockTable) → List LockEvent → Nat → LockTable
  | locks, [] => locks
  | locks, .acquire m a :: evs => runLocks (DbSlice.acquire grant locks m a).1 evs
  | locks, .release m a :: evs => runLocks (DbSlice.release locks m a) evs

/-- The `Acquire` calls not yet matched after a sequence of calls, or `none` when some `Release`
matches no earlier `Acquire` with its mode and arguments. -/
def unmatched : List LockCall → List LockEvent →
    Option (List LockCall)
  | held, [] => some held
  | held, .acquire m a :: evs => unmatched (⟨m, a⟩ :: held) evs
  | held, .release m a :: evs => if ⟨m, a⟩ ∈ held then unmatched (held.erase ⟨m, a⟩) evs else none

/-- Each lock counts, per mode, the unmatched calls whose list names its fingerprint, once per
call. -/
def Balanced (locks : Nat → LockTable) (held : List LockCall) : Prop :=
  ∀ db fp m, locks db fp m = held.countP fun c => m = c.mode ∧ db = c.args.dbIndex ∧ fp ∈ c.args.fps

/-! ## Lemmas -/

/-- The hold a call of mode `m` with arguments `a` adds to, or takes from, fingerprint `fp` of
database `db` in mode `m'`. -/
def bump (db : Nat) (fp : LockFp) (m' : IntentMode) (m : IntentMode) (a : KeyLockArgs) : Nat :=
  if m' = m ∧ db = a.dbIndex ∧ fp ∈ a.fps then 1 else 0

section Table

variable (lt : LockTable) (fp fp' : LockFp) (m m' : IntentMode)

theorem acquire_apply :
    (lt.acquire grant fp m).1 fp' m' = lt fp' m' + if fp' = fp ∧ m' = m then 1 else 0 := by
  by_cases h : fp' = fp <;> by_cases h' : m' = m <;> simp [LockTable.acquire, h, h']

@[simp] theorem acquire_snd : (lt.acquire grant fp m).2 = grant m (lt fp) := rfl

theorem acquire_other (h : fp' ≠ fp) : (lt.acquire grant fp m).1 fp' = lt fp' :=
  Function.update_noteq h _ _

theorem release_apply :
    (lt.release fp m) fp' m' = lt fp' m' - if fp' = fp ∧ m' = m then 1 else 0 := by
  by_cases h : fp' = fp <;> by_cases h' : m' = m <;> simp [LockTable.release, h, h']

end Table

/-- The loop of `Acquire` adds one hold to each fingerprint of the list not already in
`uniq_fps_`. -/
theorem acquireUniq_apply (m : IntentMode) :
    ∀ (fps uniq : List LockFp) (lt : LockTable) (fp' : LockFp) (m' : IntentMode),
      (acquireUniq grant m fps uniq lt).1 fp' m' =
        lt fp' m' + if fp' ∈ fps ∧ fp' ∉ uniq ∧ m' = m then 1 else 0
  | [], uniq, lt, fp', m' => by simp [acquireUniq]
  | fp :: fps, uniq, lt, fp', m' => by
    by_cases hu : fp ∈ uniq
    · simp only [acquireUniq, hu, if_true, acquireUniq_apply m fps uniq lt]
      by_cases h : fp' = fp
      · subst h; simp [hu]
      · simp [h]
    · simp only [acquireUniq, hu, if_false, acquireUniq_apply m fps (fp :: uniq), acquire_apply]
      by_cases h : fp' = fp
      · subst h; by_cases h' : m' = m <;> simp [hu, h']
      · simp [h]

/-- The loop of `Acquire` answers whether each fingerprint of the list not already in `uniq_fps_`
was grantable in the table it started from: the earlier ones of the loop are other fingerprints. -/
theorem acquireUniq_granted (m : IntentMode) :
    ∀ (fps uniq : List LockFp) (lt : LockTable),
      (acquireUniq grant m fps uniq lt).2 = true ↔ ∀ fp ∈ fps, fp ∉ uniq → grant m (lt fp) = true
  | [], _, _ => by simp [acquireUniq]
  | fp :: fps, uniq, lt => by
    by_cases hu : fp ∈ uniq
    · simp [acquireUniq, hu, acquireUniq_granted m fps uniq lt]
    · simp only [acquireUniq, hu, if_false, Bool.and_eq_true, acquire_snd,
        acquireUniq_granted m fps (fp :: uniq), List.mem_cons, not_or]
      constructor
      · rintro ⟨h0, h1⟩ fp' (rfl | hmem) hnu
        · exact h0
        · by_cases he : fp' = fp
          · subst he; exact h0
          · rw [← acquire_other grant lt fp fp' m he]; exact h1 fp' hmem ⟨he, hnu⟩
      · intro h
        exact ⟨h fp (.inl rfl) hu, fun fp' hmem hn => by
          rw [acquire_other grant lt fp fp' m hn.1]; exact h fp' (.inr hmem) hn.2⟩

/-- The loop of `Release` takes one hold from each fingerprint of the list not already in
`uniq_fps_`. -/
theorem releaseUniq_apply (m : IntentMode) :
    ∀ (fps uniq : List LockFp) (lt : LockTable) (fp' : LockFp) (m' : IntentMode),
      releaseUniq m fps uniq lt fp' m' = lt fp' m' - if fp' ∈ fps ∧ fp' ∉ uniq ∧ m' = m then 1 else 0
  | [], uniq, lt, fp', m' => by simp [releaseUniq]
  | fp :: fps, uniq, lt, fp', m' => by
    by_cases hu : fp ∈ uniq
    · simp only [releaseUniq, hu, if_true, releaseUniq_apply m fps uniq lt]
      by_cases h : fp' = fp
      · subst h; simp [hu]
      · simp [h]
    · simp only [releaseUniq, hu, if_false, releaseUniq_apply m fps (fp :: uniq), release_apply]
      by_cases h : fp' = fp
      · subst h; by_cases h' : m' = m <;> simp [hu, h']
      · simp [h]

/-- `Acquire` adds one hold to each fingerprint of its list, in its database and mode, however
often the list names it. -/
theorem acquire_apply_all (locks : Nat → LockTable) (m : IntentMode) (a : KeyLockArgs)
    (db : Nat) (fp : LockFp) (m' : IntentMode) :
    (DbSlice.acquire grant locks m a).1 db fp m' = locks db fp m' + bump db fp m' m a := by
  rcases a with ⟨db₀, _ | ⟨fp₀, _ | ⟨fp₁, fps⟩⟩⟩ <;> by_cases hd : db = db₀ <;>
    by_cases hm : m' = m <;> simp [DbSlice.acquire, bump, acquire_apply, acquireUniq_apply, hd, hm]

theorem release_apply_all (locks : Nat → LockTable) (m : IntentMode) (a : KeyLockArgs)
    (db : Nat) (fp : LockFp) (m' : IntentMode) :
    DbSlice.release locks m a db fp m' = locks db fp m' - bump db fp m' m a := by
  rcases a with ⟨db₀, _ | ⟨fp₀, _ | ⟨fp₁, fps⟩⟩⟩ <;> by_cases hd : db = db₀ <;>
    by_cases hm : m' = m <;> simp [DbSlice.release, bump, release_apply, releaseUniq_apply, hd, hm]

/-- `Acquire` returns true exactly when every fingerprint of its list was grantable in its mode:
`uniq_fps_` asks each distinct fingerprint once, against the table the call started from. -/
theorem acquire_granted (locks : Nat → LockTable) (m : IntentMode) (a : KeyLockArgs) :
    (DbSlice.acquire grant locks m a).2 = true ↔
      ∀ fp ∈ a.fps, grant m (locks a.dbIndex fp) = true := by
  rcases a with ⟨db₀, _ | ⟨fp₀, _ | ⟨fp₁, fps⟩⟩⟩ <;>
    simp [DbSlice.acquire, acquireUniq_granted]

theorem Balanced.acquire {locks : Nat → LockTable} {held : List LockCall}
    (h : Balanced locks held) (m : IntentMode) (a : KeyLockArgs) :
    Balanced (DbSlice.acquire grant locks m a).1 (⟨m, a⟩ :: held) := fun db fp m' => by
  rw [acquire_apply_all, h, List.countP_cons, bump]
  simp

theorem Balanced.release {locks : Nat → LockTable} {held : List LockCall}
    (h : Balanced locks held) {m : IntentMode} {a : KeyLockArgs} (hmem : ⟨m, a⟩ ∈ held) :
    Balanced (DbSlice.release locks m a) (held.erase ⟨m, a⟩) := fun db fp m' => by
  rw [release_apply_all, h, (List.perm_cons_erase hmem).countP_eq, List.countP_cons, bump]
  simp

/-- The run lemma: a sequence of calls keeps the balance from any balanced start. -/
theorem Balanced.run : ∀ (evs : List LockEvent) {locks : Nat → LockTable}
    {held held' : List LockCall}, Balanced locks held →
    unmatched held evs = some held' → Balanced (runLocks grant locks evs) held'
  | [], _, _, _, h, hu => by cases hu; exact h
  | .acquire m a :: evs, _, _, _, h, hu => Balanced.run evs (h.acquire grant m a) hu
  | .release m a :: evs, _, held, _, h, hu => by
    simp only [unmatched] at hu
    split at hu
    · exact Balanced.run evs (h.release ‹_›) hu
    · cases hu

/-! ## Main theorem -/

/-- Over every sequence of `Acquire` and `Release` calls from empty lock tables in which each
`Release` matches an earlier unmatched `Acquire` with the same mode and arguments, every lock
holds, per mode, as many holds as the unmatched calls whose list names its fingerprint, each call
once; with every call matched the tables are empty; and `Acquire` returns true exactly when every
fingerprint of its list was grantable. -/
theorem locks_match_acquires (evs : List LockEvent) {held : List LockCall}
    (hu : unmatched [] evs = some held) :
    (∀ db fp m, runLocks grant (fun _ _ _ => 0) evs db fp m =
      held.countP fun c => m = c.mode ∧ db = c.args.dbIndex ∧ fp ∈ c.args.fps) ∧
    (held = [] → ∀ db fp m, runLocks grant (fun _ _ _ => 0) evs db fp m = 0) ∧
    (∀ locks m a, (DbSlice.acquire grant locks m a).2 = true ↔
      ∀ fp ∈ a.fps, grant m (locks a.dbIndex fp) = true) := by
  have hb := Balanced.run grant evs (show Balanced (fun _ _ _ => 0) [] from fun _ _ _ => rfl) hu
  exact ⟨hb, fun he db fp m => by rw [hb, he]; rfl, acquire_granted grant⟩

/-- Two transactions on database 0: an exclusive `Acquire` of `[1, 2, 1]`, a shared one of `[2]`,
then the first is released: one shared hold of fingerprint 2 is left. -/
theorem locks_match_acquires_twoTx :
    let grant : Grant := fun m c => m = .shared && c .exclusive = 0 || c .shared + c .exclusive = 0
    let evs := [LockEvent.acquire .exclusive ⟨0, [1, 2, 1]⟩, .acquire .shared ⟨0, [2]⟩,
      .release .exclusive ⟨0, [1, 2, 1]⟩]
    unmatched [] evs = some [⟨.shared, ⟨0, [2]⟩⟩] ∧
    runLocks grant (fun _ _ _ => 0) evs 0 2 .shared = 1 ∧
    runLocks grant (fun _ _ _ => 0) evs 0 1 .exclusive = 0 :=
  let grant : Grant := fun m c => m = .shared && c .exclusive = 0 || c .shared + c .exclusive = 0
  let evs := [LockEvent.acquire .exclusive ⟨0, [1, 2, 1]⟩, .acquire .shared ⟨0, [2]⟩,
    .release .exclusive ⟨0, [1, 2, 1]⟩]
  have hu : unmatched [] evs = some [⟨.shared, ⟨0, [2]⟩⟩] := by decide
  ⟨hu, ((locks_match_acquires grant evs hu).1 0 2 .shared).trans (by decide),
    ((locks_match_acquires grant evs hu).1 0 1 .exclusive).trans (by decide)⟩

end Dragonfly.Locks
