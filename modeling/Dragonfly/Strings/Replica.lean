import Dragonfly.Strings.SetCmd

/-!
# Replaying the journal on a replica

A replica executes the records of the journal protocol as commands: `SET` through the option
parser of `StringFamily::Set` and `SetCmd::Set`, `MSET` through `OpMSet`, and `DEL`, `PERSIST`,
`PEXPIREAT` and the expiry records through the generic commands. `replay` runs a list of records
from a table.

The master's records do not always say what the master did: `GAT 0` persists a key on the master
and journals `PEXPIREAT key 0`, which deletes it on the replica (`gat_persist_replay_deletes`).
-/

namespace Dragonfly.Strings

open Keys

/-- The errors of `SET`'s option parser: `kSyntaxErr` and `InvalidExpireTime("set")`. -/
inductive SetError
  | kSyntaxErr
  | invalidExpireTime
  deriving DecidableEq, Repr

/-- Where the option loop of `StringFamily::Set` ends: an error reply, the deletion of a key whose
deadline has passed, or the parameters of `SetCmd::Set`. -/
inductive SetParsed
  | error (e : SetError)
  | deleted
  | params (p : SetParams)
  deriving DecidableEq, Repr

/-! ## Algorithm -/

/-- One of `EX`, `PX`, `EXAT`, `PXAT` with its argument: only one is allowed, the argument must be
positive, the absolute deadline must not overflow, and a deadline already passed deletes the key;
otherwise `expire_after_ms` is the capped relative time. -/
def parseExpiry (nowMs maxMs : Int) (p : SetParams) (n : Int) (unit : TimeUnit) (absolute : Bool) :
    Except SetParsed SetParams :=
  if p.expireAfter then .error (.error .kSyntaxErr)
  else if n ≤ 0 then .error (.error .invalidExpireTime)
  else
    let e : ExpireParams := ⟨n, unit, absolute, false, false, false, false, false⟩
    let (rel, abs) := e.calculate nowMs false maxMs
    if abs < 0 then .error (.error .invalidExpireTime)
    else if rel < 0 then .error .deleted
    else .ok { p with expireAfter := true, expireAfterMs := (e.calculate nowMs true maxMs).1 }

/-- One option of `SET`. -/
def parseSetArg (nowMs maxMs : Int) (p : SetParams) : SetArg → Except SetParsed SetParams
  | .ex n => parseExpiry nowMs maxMs p n .sec false
  | .px n => parseExpiry nowMs maxMs p n .msec false
  | .exat n => parseExpiry nowMs maxMs p n .sec true
  | .pxat n => parseExpiry nowMs maxMs p n .msec true
  | .mcflags n => .ok { p with memcacheFlags := n }
  | .get => .ok { p with get := true }
  | .stick => .ok { p with stick := true }
  | .keepTtl => .ok { p with keepExpire := true }
  | .xx => .ok { p with ifExists := true }
  | .nx => .ok { p with ifNotExist := true }

/-- The option loop of `StringFamily::Set`, then its check that `NX` and `XX`, or `KEEPTTL` and an
expiry, are not given together. -/
def parseSet (nowMs maxMs : Int) : SetParams → List SetArg → SetParsed
  | p, [] =>
    if (p.ifExists && p.ifNotExist) || (p.keepExpire && p.expireAfter) then .error .kSyntaxErr
    else .params p
  | p, a :: as =>
    match parseSetArg nowMs maxMs p a with
    | .error r => r
    | .ok p' => parseSet nowMs maxMs p' as

/-- Modelled from the spec: `DEL key` (and an expiry record) deletes the key when a lookup finds
it; `GenericFamily::OpDel` is outside the sources. -/
def opDel (c : Ctx) (t : DbTable) (k : String) : DbTable :=
  match t.findInternal c k with
  | (t1, _, some _) => t1.del c.sz k
  | (t1, _, none) => t1

/-- Modelled from the spec: `PEXPIREAT key ms` gives a key found the absolute deadline `ms`
through `DbSlice::UpdateExpire`, as the expiry commands do (their code is outside the sources). -/
def opPexpireAt (c : Ctx) (maxMs : Int) (t : DbTable) (k : String) (ms : Int) : DbTable :=
  match t.findMutable c k with
  | (t1, _, some u) =>
    ((t1.runUpdater c.sz u).updateExpire c maxMs k ⟨ms, .msec, true, false, false, false, false, false⟩).1
  | (t1, _, none) => t1

/-- Modelled from the spec: `PERSIST key` removes the deadline of a key found. -/
def opPersist (c : Ctx) (t : DbTable) (k : String) : DbTable :=
  match t.findMutable c k with
  | (t1, _, some u) => ((t1.runUpdater c.sz u).removeExpire k).1
  | (t1, _, none) => t1

/-- The replica executes one record. `ins` says what each insertion does, `connFlags` is the
connection's `memcache_flag`. -/
def replayEntry (c : Ctx) (maxMs : Int) (ins : String → Insertion) (connFlags : Nat) (t : DbTable) :
    JournalEntry → DbTable
  | .set k v args =>
    match parseSet c.nowMs maxMs { memcacheFlags := connFlags } args with
    | .error _ => t
    | .deleted => opDel c t k
    | .params p => (SetCmd.set c p false t (ins k) k v).1
  | .del k => opDel c t k
  | .expired k => opDel c t k
  | .pexpireat k ms => opPexpireAt c maxMs t k ms
  | .persist k => opPersist c t k
  | .mset pairs => (opMSet c ins false t pairs).1

/-- The replica executes the records in order. -/
def replay (c : Ctx) (maxMs : Int) (ins : String → Insertion) (connFlags : Nat) (t : DbTable)
    (js : List JournalEntry) : DbTable :=
  js.foldl (replayEntry c maxMs ins connFlags) t

/-! ## Lemmas -/

open DbTable

variable {t : DbTable} {k : String}

@[simp] theorem replay_nil (c : Ctx) (maxMs : Int) (ins : String → Insertion) (connFlags : Nat) :
    replay c maxMs ins connFlags t [] = t := rfl

@[simp] theorem replay_cons (c : Ctx) (maxMs : Int) (ins : String → Insertion) (connFlags : Nat)
    (e : JournalEntry) (js : List JournalEntry) :
    replay c maxMs ins connFlags t (e :: js) =
      replay c maxMs ins connFlags (replayEntry c maxMs ins connFlags t e) js := rfl

/-- `UpdateExpire` with an absolute deadline `0`, at a nonnegative time: the relative time is not
positive, so the key is deleted. -/
theorem updateExpire_zero_deletes (c : Ctx) {maxMs : Int} (hmax : 0 ≤ maxMs) (hnow : 0 ≤ c.nowMs)
    (k : String) : (t.updateExpire c maxMs k ⟨0, .msec, true, false, false, false, false, false⟩) =
      (t.del c.sz k, .ok (-1)) := by
  have hu : ¬(TimeUnit.msec = .sec) := by decide
  simp only [updateExpire, ExpireParams.calculate, hu, false_and, if_false, Bool.false_eq_true,
    if_true]
  split_ifs <;> first | rfl | omega

/-- `DbSlice::Del` removes the key. -/
theorem del_absent (sz : Sizes) (k : String) : (t.del sz k).prime k = none := by
  unfold del performDeletion
  cases hp : t.prime k with
  | none => rw [performDeletionAtomic_of_none _ hp]; exact hp
  | some s => simp [performDeletionAtomic_prime _ hp]

/-- On the replica, `PEXPIREAT key 0` leaves no key `k`, whether the lookup finds it (then
`UpdateExpire` deletes it) or not. -/
theorem opPexpireAt_zero_absent (c : Ctx) {maxMs : Int} (hmax : 0 ≤ maxMs) (hnow : 0 ≤ c.nowMs)
    (k : String) : (opPexpireAt c maxMs t k 0).prime k = none := by
  unfold opPexpireAt
  have habs := findInternal_absent (t := t) (k := k) c
  rw [findMutable_eq]
  generalize t.findInternal c k = r at habs
  obtain ⟨t1, j1, _ | s⟩ := r
  · exact habs rfl
  · simp only [Option.map_some']
    rw [updateExpire_zero_deletes c hmax hnow]
    exact del_absent _ _

/-- `FindKeyAndSetExpiry` with `GAT`'s parameters for `exptime = 0`, on a key whose deadline has not
passed: the key stays and loses its deadline (after the updater's `PostUpdate`), and the record is
`PEXPIREAT key 0`. -/
theorem findKeyAndSetExpiry_persist (c : Ctx) (maxMs : Int) (unit : TimeUnit) {s : Slot}
    (hk : t.prime k = some s) (hlive : ∀ d, t.expire k = some d → c.nowMs < d) :
    findKeyAndSetExpiry c maxMs true (gatParams unit 0) t k =
      (((t.postUpdate k).removeExpire k).1, [.pexpireat k 0], .ok ()) := by
  have hrun : t.runUpdater c.sz ⟨k, c.sz.valueMalloc s.value.str⟩ = t.postUpdate k := by
    simp [runUpdater, hk, account]
  simp [findKeyAndSetExpiry, findMutable_eq, findInternal_live c hk hlive, hrun, gatParams,
    updateExpire]

/-- `GAT 0` on the master and the replay of its journal on a replica that starts from the same
table do not end with the same keys: on the master the key stays (without a deadline), the
record is `PEXPIREAT key 0`, and on the replica that record deletes the key. -/
theorem gat_persist_replay_deletes (c c' : Ctx) {maxMs : Int} (unit : TimeUnit)
    (ins : String → Insertion) (connFlags : Nat) {s : Slot} (hk : t.prime k = some s)
    (hlive : ∀ d, t.expire k = some d → c.nowMs < d) (hmax : 0 ≤ maxMs) (hnow : 0 ≤ c'.nowMs) :
    (findKeyAndSetExpiry c maxMs true (gatParams unit 0) t k).2.1 = [.pexpireat k 0] ∧
      k ∈ (findKeyAndSetExpiry c maxMs true (gatParams unit 0) t k).1.keys ∧
      k ∉ (replay c' maxMs ins connFlags t
        (findKeyAndSetExpiry c maxMs true (gatParams unit 0) t k).2.1).keys := by
  rw [findKeyAndSetExpiry_persist c maxMs unit hk hlive]
  refine ⟨rfl, by simp [mem_keys, hk], ?_⟩
  simp [mem_keys, replayEntry, opPexpireAt_zero_absent c' hmax hnow]

/-- The table with one key `k` and no deadline, both clocks at `0`, `kMaxExpireDeadlineMs` taken
as `2^40`. -/
theorem gat_persist_replay_deletes_oneKey :
    let c : Ctx := ⟨0, true, ⟨fun _ => true, fun _ => 0, fun _ => 0, rfl⟩⟩
    let t0 := (DbTable.empty.addNew c (.inserted none) "k" ⟨"v", false, false⟩ 0).1
    (findKeyAndSetExpiry c (2 ^ 40) true (gatParams .sec 0) t0 "k").2.1 = [.pexpireat "k" 0] ∧
      "k" ∈ (findKeyAndSetExpiry c (2 ^ 40) true (gatParams .sec 0) t0 "k").1.keys ∧
      "k" ∉ (replay c (2 ^ 40) (fun _ => .inserted none) 0 t0
        (findKeyAndSetExpiry c (2 ^ 40) true (gatParams .sec 0) t0 "k").2.1).keys :=
  gat_persist_replay_deletes _ _ .sec _ 0 (s := ⟨false, ⟨"v", false, false⟩⟩) (by decide)
    (by decide) (by decide) (by decide)

end Dragonfly.Strings
