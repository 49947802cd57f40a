import Dragonfly.Keys.Consistency

/-!
# The writes of the string family

`SET`, `SETEX`, `PSETEX`, `SETNX` and `MSET` run `SetCmd::Set`; `GETEX` and `GAT` change a key's
deadline through `DbSlice::UpdateExpire`; `CL.THROTTLE` runs `OpThrottle`. Each is translated over
the key-level tables of `Keys/Table.lean`, with the journal records it writes:
`SetCmd::RecordJournal`, the `PERSIST`, `PEXPIREAT` and `DEL` records of `GETEX` and `GAT`, the
`MSET` record of `OpMSet`.

All of them keep `TablesAgree` (`TablesAgree.set`, `TablesAgree.opMSet`, `TablesAgree.getEx`,
`TablesAgree.opGat`, `TablesAgree.opThrottle`).

Values have no type here, so the `WRONG_TYPE` answers are left out, and so is the `GET` reply that
`CachePrevIfNeeded` caches; tiered storage stashes nothing.
-/

namespace Dragonfly.Strings

open Keys

/-- `SetCmd::SetParams`: the bits of `flags` (`SET_IF_NOTEXIST`, `SET_IF_EXISTS`,
`SET_KEEP_EXPIRE`, `SET_GET`, `SET_EXPIRE_AFTER_MS`, `SET_STICK`), `memcache_flags` and
`expire_after_ms` (relative to now, `0` for none). -/
structure SetParams where
  ifNotExist : Bool := false
  ifExists : Bool := false
  keepExpire : Bool := false
  get : Bool := false
  expireAfter : Bool := false
  stick : Bool := false
  memcacheFlags : Nat := 0
  expireAfterMs : Int := 0
  deriving DecidableEq, Repr

/-- `SetParams::IsConditionalSet`. -/
def SetParams.isConditionalSet (p : SetParams) : Bool := p.ifNotExist || p.ifExists

/-- `INT64_MIN`. -/
def int64Min : Int := -2 ^ 63

/-- The value of a decimal numeral, most significant digit first. -/
def decimalValue (ds : List Char) : Nat := ds.foldl (fun v d => 10 * v + (d.toNat - '0'.toNat)) 0

/-- A decimal numeral without a leading zero: a digit `1` to `9`, then digits. -/
def isCanonicalNumeral : List Char → Bool
  | d :: ds => '1' ≤ d && d ≤ '9' && ds.all Char.isDigit
  | [] => false

/-- Redis's `string2ll`, by which `CompactObj` keeps a string of at most 20 characters as an
integer, the one `TryGetInt` returns: `0`, or an optional `-` and a numeral without a leading zero,
within `long long`. Any other string (`007`, `-0`, `+1`, `-`, spaces) holds no integer. -/
def string2ll (s : String) : Option Int :=
  if s.length = 0 ∨ 20 < s.length then none
  else
    match s.data with
    | ['0'] => some 0
    | '-' :: ds =>
      if isCanonicalNumeral ds ∧ decimalValue ds ≤ 2 ^ 63 then some (-(decimalValue ds : Int))
      else none
    | ds => if isCanonicalNumeral ds ∧ decimalValue ds < 2 ^ 63 then some (decimalValue ds) else none

/-! ## Algorithm -/

namespace SetCmd

variable (c : Ctx) (p : SetParams)

/-- `SetCmd::RecordJournal`: `SET key value`, then `PXAT` with the absolute deadline or `KEEPTTL`,
then `STICK` and `_MCFLAGS`. `NX`, `XX` and `GET` are not replicated. -/
def recordJournal (k v : String) : JournalEntry :=
  .set k v ((if p.expireAfter then [.pxat (p.expireAfterMs + c.nowMs)]
      else if p.keepExpire then [.keepTtl] else []) ++
    (if p.stick then [.stick] else []) ++
    (if p.memcacheFlags ≠ 0 then [.mcflags p.memcacheFlags] else []))

/-- `SetCmd::PostEdit`: the record, when journaling is manual and the shard has a journal. -/
def postEdit (manualJournal : Bool) (k v : String) : List JournalEntry :=
  if manualJournal then [recordJournal c p k v] else []

/-- `SetCmd::SetExisting`: the deadline (kept with `KEEPTTL`, else set from `expire_after_ms` or
removed), the sticky bit, the updater's `ReduceHeapUsage`, the flag bit and the mcflag, then the
string, which keeps the value's bits. -/
def setExisting (t : DbTable) (k v : String) (u : AutoUpdater) : DbTable × AutoUpdater :=
  let atMs := if p.expireAfterMs ≠ 0 then p.expireAfterMs + c.nowMs else 0
  let t1 :=
    if p.keepExpire then t
    else if atMs ≠ 0 then
      if (t.expIt k).isSome then t.setExpire k (some atMs) else t.addExpire k atMs
    else (t.removeExpire k).1
  let t2 := if p.stick then t1.modify k fun s => { s with sticky := true } else t1
  let (t3, u') := t2.reduceHeapUsage u
  let t4 := (t3.modify k fun s => { s with value := { s.value with hasFlag := p.memcacheFlags ≠ 0 } }
    ).setMCFlag k p.memcacheFlags
  (t4.modify k fun s => { s with value := { s.value with str := v } }, u')

/-- `SetCmd::AddNew`: the new key's value, with the flag bit when there is an mcflag, its
deadline, its mcflag and its sticky bit. -/
def addNew (t : DbTable) (k v : String) : DbTable :=
  let t1 := t.modify k fun s => { s with value := ⟨v, false, p.memcacheFlags ≠ 0⟩ }
  let t2 := if p.expireAfterMs ≠ 0 then t1.addExpire k (p.expireAfterMs + c.nowMs) else t1
  let t3 := if p.memcacheFlags ≠ 0 then t2.setMCFlag k p.memcacheFlags else t2
  if p.stick then t3.modify k fun s => { s with sticky := true } else t3

/-- `SetExisting` on a key that was found, then the updater's `Run` when `Set` returns. -/
def setFound (manualJournal : Bool) (t : DbTable) (k v : String) (u : AutoUpdater) :
    DbTable × List JournalEntry :=
  let (t1, u') := setExisting c p t k v u
  (t1.runUpdater c.sz u', postEdit c p manualJournal k v)

/-- `SetCmd::Set` from `AddOrFind` on. -/
def setAdd (manualJournal : Bool) (t : DbTable) (ins : Insertion) (k v : String) :
    DbTable × List JournalEntry × OpStatus :=
  match t.addOrFind c ins k with
  | (t1, j1, .outOfMemory) => (t1, j1, .outOfMemory)
  | (t1, j1, .found u) =>
    let (t2, j2) := setFound c p manualJournal t1 k v u
    (t2, j1 ++ j2, .ok)
  | (t1, j1, .new u) => ((addNew c p t1 k v).runUpdater c.sz u, j1 ++ postEdit c p manualJournal k v, .ok)

/-- `SetCmd::Set`: with `NX` or `XX` a lookup decides first; then `AddOrFind`, and `SetExisting` on
a key found or `AddNew` on a key inserted. -/
def set (manualJournal : Bool) (t : DbTable) (ins : Insertion) (k v : String) :
    DbTable × List JournalEntry × OpStatus :=
  if p.isConditionalSet then
    match t.findMutable c k with
    | (t1, j1, some u) =>
      if p.ifExists then
        let (t2, j2) := setFound c p manualJournal t1 k v u
        (t2, j1 ++ j2, .ok)
      else (t1.runUpdater c.sz u, j1, .skipped)
    | (t1, j1, none) =>
      if p.ifExists then (t1, j1, .skipped)
      else
        let (t2, j2, r) := setAdd c p manualJournal t1 ins k v
        (t2, j1 ++ j2, r)
  else setAdd c p manualJournal t ins k v

end SetCmd

/-- The loop of `OpMSet`: `SetCmd::Set` with default parameters and automatic journaling on each
pair, until one fails; how many pairs were stored, and the failure. -/
def msetLoop (c : Ctx) (ins : String → Insertion) :
    DbTable → List (String × String) → DbTable × List JournalEntry × Nat × OpStatus
  | t, [] => (t, [], 0, .ok)
  | t, (k, v) :: kvs =>
    match SetCmd.set c {} false t (ins k) k v with
    | (t1, j1, .ok) =>
      let (t2, j2, n, r) := msetLoop c ins t1 kvs
      (t2, j1 ++ j2, n + 1, r)
    | (t1, j1, r) => (t1, j1, 0, r)

/-- `OpMSet`: the loop, then one `MSET` record of the pairs stored (all of them, or the prefix
before an `OUT_OF_MEMORY`). -/
def opMSet (c : Ctx) (ins : String → Insertion) (journal : Bool) (t : DbTable)
    (pairs : List (String × String)) : DbTable × List JournalEntry × OpStatus :=
  let (t1, j1, stored, r) := msetLoop c ins t pairs
  let jr : List JournalEntry :=
    if journal then
      if stored = pairs.length then [.mset pairs]
      else if stored > 0 then [.mset (pairs.take stored)] else []
    else []
  (t1, j1 ++ jr, r)

/-- `FindKeyAndSetExpiry`, the work of `GAT` on one key: the lookup, the updater run,
`UpdateExpire`; a key deleted by a deadline in the past is journaled as `DEL`, any other as
`PEXPIREAT` with the value `UpdateExpire` returned. -/
def findKeyAndSetExpiry (c : Ctx) (maxMs : Int) (journal : Bool) (p : ExpireParams)
    (t : DbTable) (k : String) : DbTable × List JournalEntry × Except OpStatus Unit :=
  match t.findMutable c k with
  | (t1, j1, none) => (t1, j1, .error .keyNotFound)
  | (t1, j1, some u) =>
    match (t1.runUpdater c.sz u).updateExpire c maxMs k p with
    | (t2, .error e) => (t2, j1, .error e)
    | (t2, .ok value) =>
      let jr : List JournalEntry :=
        if journal then (if value = -1 then [.del k] else [.pexpireat k value]) else []
      (t2, j1 ++ jr, if value = -1 then .error .keyNotFound else .ok ())

/-- The `ExpireParams` of `GAT exptime`: an absolute time, `0` meaning persist. `unit` is the
default of `ExpireParams::unit`, declared outside the sources. -/
def gatParams (unit : TimeUnit) (expireTs : Int) : ExpireParams :=
  ⟨expireTs, unit, true, expireTs = 0, false, false, false, false⟩

/-- `OpGAT` on the keys of one shard, one after the other. -/
def opGat (c : Ctx) (maxMs : Int) (journal : Bool) (p : ExpireParams) :
    DbTable → List String → DbTable × List JournalEntry
  | t, [] => (t, [])
  | t, k :: ks =>
    let (t1, j1, _) := findKeyAndSetExpiry c maxMs journal p t k
    let (t2, j2) := opGat c maxMs journal p t1 ks
    (t2, j1 ++ j2)

/-- The shard callback of `GETEX`: the lookup and the value read; with an option, the updater run
and `UpdateExpire`, whose failure ends the command; then `PERSIST`, or `PEXPIREAT` with the
absolute time `Calculate` gives. `isDefined` is `ExpireParams::IsDefined`, declared outside the
sources. -/
def getEx (c : Ctx) (maxMs : Int) (journal : Bool) (isDefined : ExpireParams → Bool)
    (p : ExpireParams) (t : DbTable) (k : String) :
    DbTable × List JournalEntry × Except OpStatus String :=
  match t.findMutable c k with
  | (t1, j1, none) => (t1, j1, .error .keyNotFound)
  | (t1, j1, some u) =>
    let value := match t1.prime k with
      | some s => s.value.str
      | none => ""
    let t2 := t1.runUpdater c.sz u
    match (if isDefined p then t2.updateExpire c maxMs k p else (t2, .ok 0)) with
    | (t3, .error e) => (t3, j1, .error e)
    | (t3, .ok _) =>
      let jr : List JournalEntry :=
        if journal then
          if p.persist then [.persist k] else [.pexpireat k (p.calculate c.nowMs false maxMs).2]
        else []
      (t3, j1 ++ jr, .ok value)

/-- The arithmetic of `OpThrottle` from the theoretical arrival time `tat` on, with every check
that the `int64_t` arithmetic does not overflow: whether the request is limited, the new arrival
time, and `remaining`, `retry_after_ms`, `reset_after_ms`. -/
def throttleDecision (now tat inc dvt emission : Int) :
    Except OpStatus (Bool × Int × Int × Int × Int) :=
  let newTat := max tat now
  if newTat > int64Max - inc then .error .invalidInt else
  let newTat := newTat + inc
  if newTat < int64Min + dvt then .error .invalidInt else
  let allowAt := newTat - dvt
  if (if allowAt ≥ 0 then now < int64Min + allowAt else now > int64Max + allowAt) then
    .error .invalidInt else
  let diff := now - allowAt
  let limited := decide (diff < 0)
  let retryTtl : Except OpStatus (Int × Int) :=
    if limited then
      if inc ≤ dvt ∧ diff = int64Min then .error .invalidInt
      else if (if now ≥ 0 then tat < int64Min + now else tat > int64Max + now) then
        .error .invalidInt
      else .ok (if inc ≤ dvt then -diff else -1000, tat - now)
    else if (if now ≥ 0 then newTat < int64Min + now else newTat > int64Max + now) then
      .error .invalidInt
    else .ok (-1000, newTat - now)
  match retryTtl with
  | .error e => .error e
  | .ok (retry, ttl) =>
    if ttl < dvt - int64Max then .error .invalidInt else
    let next := dvt - ttl
    .ok (limited, newTat, if next > -emission then next.tdiv emission else 0, retry, ttl)

/-- `OpThrottle`: the overflow checks of the tolerance and the increment, the lookup (the
arrival time is the value's integer, `TryGetInt`, or now for a missing key), the decision, and,
unless the request is limited, the new arrival time written as the value and the deadline, or as
a new key through `DbSlice::AddNew`. The reply is `limited, limit, remaining, retry_after_ms,
reset_after_ms`. -/
def opThrottle (c : Ctx) (ins : Insertion) (t : DbTable) (k : String) (limit emissionIntervalMs : Int)
    (quantity : Nat) : DbTable × List JournalEntry × Except OpStatus (List Int) :=
  if emissionIntervalMs > int64Max.tdiv limit then (t, [], .error .invalidInt)
  else if quantity ≠ 0 ∧ emissionIntervalMs > int64Max.tdiv quantity then (t, [], .error .invalidInt)
  else
    let dvt := emissionIntervalMs * limit
    let inc := emissionIntervalMs * quantity
    let reply (limited : Bool) (remaining retry reset : Int) : List Int :=
      [if limited then 1 else 0, limit, remaining, retry, reset]
    match t.findMutable c k with
    | (t1, j1, some u) =>
      match (t1.prime k).bind fun s => string2ll s.value.str with
      | none => (t1.runUpdater c.sz u, j1, .error .invalidValue)
      | some tat =>
        match throttleDecision c.nowMs tat inc dvt emissionIntervalMs with
        | .error e => (t1.runUpdater c.sz u, j1, .error e)
        | .ok (limited, newTat, remaining, retry, reset) =>
          let t2 :=
            if limited then t1
            else
              let t' := if (t1.expIt k).isSome then t1.setExpire k (some newTat)
                else t1.addExpire k newTat
              t'.modify k fun s => { s with value := { s.value with str := toString newTat } }
          (t2.runUpdater c.sz u, j1, .ok (reply limited remaining retry reset))
    | (t1, j1, none) =>
      match throttleDecision c.nowMs c.nowMs inc dvt emissionIntervalMs with
      | .error e => (t1, j1, .error e)
      | .ok (limited, newTat, remaining, retry, reset) =>
        if limited then (t1, j1, .ok (reply limited remaining retry reset))
        else
          match t1.addNew c ins k ⟨toString newTat, false, false⟩ newTat with
          | (t2, j2, .outOfMemory) => (t2, j1 ++ j2, .error .outOfMemory)
          | (t2, j2, .new u) | (t2, j2, .found u) =>
            (t2.runUpdater c.sz u, j1 ++ j2, .ok (reply limited remaining retry reset))

end Dragonfly.Strings

/-! ## Lemmas -/

namespace Dragonfly.Keys

section Agree

open DbTable Strings

variable {t : DbTable} (c : Ctx) (p : SetParams) {k : String}

/-- `SetExisting` keeps the invariant: the deadline step keeps it, then the flag bit and the
mcflag are set together. -/
theorem TablesAgree.setExisting (h : TablesAgree t) (hk : k ∈ t.keys) (v : String)
    (u : AutoUpdater) : TablesAgree (SetCmd.setExisting c p t k v u).1 := by
  have hs : (t.prime k).isSome := (t.mem_keys k).1 hk
  simp only [SetCmd.setExisting, DbTable.reduceHeapUsage]
  refine (TablesAgree.setFlag (TablesAgree.account ?_ _) ?_ _).modify k fun _ => ⟨rfl, rfl⟩
  · refine TablesAgree.byCases (fun _ => TablesAgree.modify ?_ k fun _ => ⟨rfl, rfl⟩) fun _ => ?_ <;>
      exact TablesAgree.byCases (fun _ => h) fun _ => TablesAgree.byCases
        (fun _ => TablesAgree.byCases (fun he => h.setExpire_some (by rwa [← h.expIt_eq]) _)
          fun _ => h.addExpire hs _)
        fun _ => h.removeExpire k
  · rw [← mem_keys]
    simp only [account_keys, apply_ite DbTable.keys, modify_keys, removeExpire_keys, addExpire_keys,
      setExpire_keys, ite_self]
    exact hk

/-- `SetCmd::AddNew` on a key whose value has neither bit keeps the invariant. -/
theorem TablesAgree.setCmdAddNew (h : TablesAgree t) {s : Slot} (hs : t.prime k = some s)
    (hb : s.value.hasExpire = false ∧ s.value.hasFlag = false) (v : String) :
    TablesAgree (SetCmd.addNew c p t k v) := by
  have hk := h k
  rw [hs] at hk
  obtain ⟨he, hm⟩ : t.expire k = none ∧ t.mcflag k = none := by
    cases he : t.expire k <;> cases hm : t.mcflag k <;> simp_all [KeyAgrees]
  unfold SetCmd.addNew
  dsimp only
  refine TablesAgree.ite_modify ?_ _ k fun _ => ⟨rfl, rfl⟩
  split_ifs <;>
    refine h.update (k := k) (fun k' hk' => ?_) (fun k' hk' => ?_) (fun k' hk' => ?_) ?_ <;>
    simp_all [DbTable.addExpire, DbTable.setMCFlag, KeyAgrees]

theorem TablesAgree.setFound (h : TablesAgree t) (hk : k ∈ t.keys) (mj : Bool) (v : String)
    (u : AutoUpdater) : TablesAgree (SetCmd.setFound c p mj t k v u).1 :=
  (h.setExisting c p hk v u).runUpdater _ _

theorem TablesAgree.setAdd (h : TablesAgree t) (mj : Bool) (ins : Insertion) (v : String) :
    TablesAgree (SetCmd.setAdd c p mj t ins k v).1 := by
  unfold SetCmd.setAdd
  have h1 := h.addOrFind c ins k
  have hfound := fun u => addOrFind_found (t := t) (k := k) c ins (u := u)
  have hnew := fun u => addOrFind_new (t := t) (k := k) c ins (u := u)
  generalize t.addOrFind c ins k = r at h1 hfound hnew
  obtain ⟨t1, j1, u | u | _⟩ := r
  · exact h1.setFound c p (hfound u rfl) mj v u
  · exact (h1.setCmdAddNew c p (hnew u rfl) ⟨rfl, rfl⟩ v).runUpdater _ _
  · exact h1

/-- `SetCmd::Set` keeps the invariant. -/
theorem TablesAgree.set (h : TablesAgree t) (mj : Bool) (ins : Insertion) (v : String) :
    TablesAgree (SetCmd.set c p mj t ins k v).1 := by
  unfold SetCmd.set
  split
  · have h1 := h.findMutable c k
    have hfound := fun u => findMutable_found (t := t) (k := k) c (u := u)
    generalize t.findMutable c k = r at h1 hfound
    obtain ⟨t1, j1, _ | u⟩ := r
    · dsimp only; split
      · exact h1
      · exact h1.setAdd c p mj ins v
    · dsimp only; split
      · exact h1.setFound c p (hfound u rfl) mj v u
      · exact h1.runUpdater _ _
  · exact h.setAdd c p mj ins v

/-- Every prefix of `OpMSet`'s loop keeps the invariant. -/
theorem TablesAgree.msetLoop (ins : String → Insertion) :
    ∀ (pairs : List (String × String)) {t : DbTable}, TablesAgree t →
      TablesAgree (Strings.msetLoop c ins t pairs).1
  | [], _, h => h
  | (k, v) :: kvs, t, h => by
    have h1 := h.set c {} false (ins k) (k := k) v
    unfold Strings.msetLoop
    generalize SetCmd.set c {} false t (ins k) k v = r at h1
    obtain ⟨t1, j1, r⟩ := r
    cases r <;> first | exact h1 | exact TablesAgree.msetLoop ins kvs h1

theorem TablesAgree.opMSet (h : TablesAgree t) (ins : String → Insertion) (journal : Bool)
    (pairs : List (String × String)) : TablesAgree (Strings.opMSet c ins journal t pairs).1 :=
  h.msetLoop c ins pairs

theorem TablesAgree.findKeyAndSetExpiry (h : TablesAgree t) (maxMs : Int) (journal : Bool)
    (p : ExpireParams) (k : String) : TablesAgree (Strings.findKeyAndSetExpiry c maxMs journal p t k).1 := by
  unfold Strings.findKeyAndSetExpiry
  have h1 := h.findMutable c k
  have hfound := fun u => findMutable_found (t := t) (k := k) c (u := u)
  generalize t.findMutable c k = r at h1 hfound
  obtain ⟨t1, j1, _ | u⟩ := r
  · exact h1
  · have h2 := (h1.runUpdater c.sz u).updateExpire c maxMs
      (by rw [← mem_keys, runUpdater_keys]; exact hfound u rfl) p
    dsimp only
    split <;> simp_all

theorem TablesAgree.opGat (maxMs : Int) (journal : Bool) (p : ExpireParams) :
    ∀ (ks : List String) {t : DbTable}, TablesAgree t → TablesAgree (Strings.opGat c maxMs journal p t ks).1
  | [], _, h => h
  | k :: ks, _, h => TablesAgree.opGat maxMs journal p ks (h.findKeyAndSetExpiry c maxMs journal p k)

theorem TablesAgree.getEx (h : TablesAgree t) (maxMs : Int) (journal : Bool)
    (isDefined : ExpireParams → Bool) (p : ExpireParams) (k : String) :
    TablesAgree (Strings.getEx c maxMs journal isDefined p t k).1 := by
  unfold Strings.getEx
  have h1 := h.findMutable c k
  have hfound := fun u => findMutable_found (t := t) (k := k) c (u := u)
  generalize t.findMutable c k = r at h1 hfound
  obtain ⟨t1, j1, _ | u⟩ := r
  · exact h1
  · have h2 : TablesAgree (if isDefined p then (t1.runUpdater c.sz u).updateExpire c maxMs k p
        else (t1.runUpdater c.sz u, .ok 0)).1 := by
      split
      · exact (h1.runUpdater c.sz u).updateExpire c maxMs
          (by rw [← mem_keys, runUpdater_keys]; exact hfound u rfl) p
      · exact h1.runUpdater c.sz u
    dsimp only
    split <;> simp_all

theorem TablesAgree.opThrottle (h : TablesAgree t) (ins : Insertion) (k : String)
    (limit emissionIntervalMs : Int) (quantity : Nat) :
    TablesAgree (Strings.opThrottle c ins t k limit emissionIntervalMs quantity).1 := by
  unfold Strings.opThrottle
  split_ifs
  · exact h
  · exact h
  have h1 := h.findMutable c k
  have hfound := fun u => findMutable_found (t := t) (k := k) c (u := u)
  generalize t.findMutable c k = r at h1 hfound
  obtain ⟨t1, j1, _ | u⟩ := r
  · dsimp only
    split
    · exact h1
    · split
      · exact h1
      · rename_i newTat _ _ _ _ _
        have h2 := @TablesAgree.addNew _ h1 c ins k ⟨toString newTat, false, false⟩ ⟨rfl, rfl⟩ newTat
        generalize t1.addNew c ins k _ newTat = r at h2 ⊢
        obtain ⟨t2, j2, u | u | _⟩ := r
        · exact h2.runUpdater _ _
        · exact h2.runUpdater _ _
        · exact h2
  · have hs : (t1.prime k).isSome := (t1.mem_keys k).1 (hfound u rfl)
    dsimp only
    split
    · exact h1.runUpdater _ _
    · split
      · exact h1.runUpdater _ _
      · refine TablesAgree.runUpdater (TablesAgree.byCases (fun _ => h1) fun _ => ?_) _ _
        refine TablesAgree.modify ?_ k fun _ => ⟨rfl, rfl⟩
        exact TablesAgree.byCases (fun he => h1.setExpire_some (by rwa [← h1.expIt_eq]) _)
          fun _ => h1.addExpire hs _

end Agree

end Dragonfly.Keys
