import Dragonfly.Strings.Replica

/-!
# `SET` from its arguments

`StringFamily::Set` reads its options with the clock of the parse (`GetCurrentTimeMs()`), deletes
the key at once when an absolute deadline has already passed, and otherwise runs `SetCmd::Set`
through `SetGeneric` in a transaction, whose clock is `db_cntx.time_now_ms`
(`StringFamily.set`). A replica runs the same code with one clock (`replayEntry_set`).

`SetParams` carries the expiry as a time relative to the first clock, and `SetCmd` adds it to the
second. So `PXAT n` given at the parse time `n` leaves the key with no deadline at all, and any
other `PXAT n` leaves `n` moved by the gap between the two clocks; and the deletion by a deadline
that has passed happens inside the option loop, before `NX` is looked at.

## Main theorem

`set_pxat_deadline`: on a key that is there, the deadline `SET k v PXAT n` leaves, and the
deletion by `SET k v NX PXAT n` with `n` in the past.
-/

namespace Dragonfly.Strings

open Keys

/-- The replies of `StringFamily::Set`: an error of the parser, `STORED` (also after the deletion
by a deadline that has passed), the `SKIPPED` of `NX` or `XX`, or `kOutOfMemory`. The `GET` reply
is left out, as in `SetCmd`. -/
inductive SetReply
  | error (e : SetError)
  | stored
  | skipped
  | outOfMemory
  deriving DecidableEq, Repr

/-! ## Algorithm -/

/-- The reply for what `SetGeneric` returned. -/
def setReply : OpStatus → SetReply
  | .ok => .stored
  | .outOfMemory => .outOfMemory
  | _ => .skipped

/-- `StringFamily::Set`: the option loop at the parse clock `parseNowMs`, starting from the
connection's `memcache_flag`; then `GenericFamily::OpDel` of the key, or `SetCmd::Set` in a
transaction at the clock `c.nowMs`. -/
def StringFamily.set (parseNowMs maxMs : Int) (c : Ctx) (connFlags : Nat) (manualJournal : Bool)
    (ins : Insertion) (t : DbTable) (k v : String) (args : List SetArg) : DbTable × SetReply :=
  match parseSet parseNowMs maxMs { memcacheFlags := connFlags } args with
  | .error e => (t, .error e)
  | .deleted => (opDel c t k, .stored)
  | .params p =>
    let (t', _, r) := SetCmd.set c p manualJournal t ins k v
    (t', setReply r)

/-! ## Lemmas -/

open DbTable

variable {t : DbTable} {c : Ctx} {k : String}

/-- A replica replays `SET` as `StringFamily::Set` whose two clocks are the same. -/
theorem replayEntry_set (maxMs : Int) (ins : String → Insertion) (connFlags : Nat) (v : String)
    (args : List SetArg) :
    replayEntry c maxMs ins connFlags t (.set k v args) =
      (StringFamily.set c.nowMs maxMs c connFlags false (ins k) t k v args).1 := by
  simp only [replayEntry, StringFamily.set]
  cases parseSet c.nowMs maxMs { memcacheFlags := connFlags } args <;> rfl

/-- `PXAT n` with `n` not before the parse clock and within `kMaxExpireDeadlineMs` of it: the
parameters carry the relative time `n - parseNowMs`. -/
theorem parseSet_pxat {parseNowMs maxMs n : Int} (connFlags : Nat) (hn : 0 < n)
    (hnow : parseNowMs ≤ n) (hmax : n - parseNowMs ≤ maxMs) :
    parseSet parseNowMs maxMs { memcacheFlags := connFlags } [.pxat n] =
      .params { memcacheFlags := connFlags, expireAfter := true, expireAfterMs := n - parseNowMs } := by
  have hu : ¬(TimeUnit.msec = .sec) := by decide
  simp only [parseSet, parseSetArg, parseExpiry, ExpireParams.calculate, hu, false_and, if_false,
    Bool.false_eq_true, if_true, not_le.2 hn, min_eq_left hmax]
  rw [if_neg (by omega), if_neg (by omega)]
  rfl

/-- `NX` then a `PXAT` already in the past: the option loop ends in the deletion of the key. -/
theorem parseSet_nx_pxat_past {parseNowMs maxMs n : Int} (connFlags : Nat) (hn : 0 < n)
    (hpast : n < parseNowMs) :
    parseSet parseNowMs maxMs { memcacheFlags := connFlags } [.nx, .pxat n] = .deleted := by
  have hu : ¬(TimeUnit.msec = .sec) := by decide
  simp only [parseSet, parseSetArg, parseExpiry, ExpireParams.calculate, hu, false_and, if_false,
    Bool.false_eq_true, if_true, not_le.2 hn]
  rw [if_neg (by omega), if_pos (by omega)]

/-- The deadline `SetExisting` leaves on a key of agreeing tables: the old one under `KEEPTTL`,
otherwise `expire_after_ms` from the transaction's clock, or none. -/
theorem setExisting_expire (h : TablesAgree t) (p : SetParams) (v : String) (u : AutoUpdater) :
    (SetCmd.setExisting c p t k v u).1.expire k =
      let atMs := if p.expireAfterMs ≠ 0 then p.expireAfterMs + c.nowMs else 0
      if p.keepExpire then t.expire k else if atMs ≠ 0 then some atMs else none := by
  simp only [SetCmd.setExisting, reduceHeapUsage, setMCFlag, apply_ite DbTable.expire,
    modify_expire, setMcflag_expire, account_expire, ite_self]
  split_ifs <;> simp [addExpire, h.removeExpire_expire k]

/-- A key that is there holds the string written into it. -/
theorem valueStr_modify_str (hk : k ∈ t.keys) (v : String) :
    (t.modify k fun s => { s with value := { s.value with str := v } }).valueStr k = v := by
  obtain ⟨s, hs⟩ := Option.isSome_iff_exists.1 ((t.mem_keys k).1 hk)
  simp [valueStr, hs]

/-- `SetExisting` stores the value. -/
theorem setExisting_valueStr (hk : k ∈ t.keys) (p : SetParams) (v : String) (u : AutoUpdater) :
    (SetCmd.setExisting c p t k v u).1.valueStr k = v := by
  refine valueStr_modify_str ?_ v
  simp only [setMCFlag_keys, modify_keys, reduceHeapUsage, account_keys, apply_ite DbTable.keys,
    removeExpire_keys, addExpire_keys, setExpire_keys, ite_self]
  exact hk

theorem runUpdater_expire (sz : Sizes) (u : AutoUpdater) : (t.runUpdater sz u).expire = t.expire := by
  unfold runUpdater; split <;> simp

theorem runUpdater_valueStr (sz : Sizes) (u : AutoUpdater) :
    (t.runUpdater sz u).valueStr k = t.valueStr k := by
  unfold runUpdater; split <;> simp [valueStr]

/-- `SetCmd::Set` without `NX` or `XX`, on a key whose deadline has not passed: `SetExisting`, then
the updater's `Run`. -/
theorem setCmd_set_live (p : SetParams) (hc : p.isConditionalSet = false) (mj : Bool)
    (ins : Insertion) {s : Slot} (hk : t.prime k = some s)
    (hlive : ∀ d, t.expire k = some d → c.nowMs < d) (v : String) :
    (SetCmd.set c p mj t ins k v).1 =
      (SetCmd.setExisting c p t k v ⟨k, c.sz.valueMalloc s.value.str⟩).1.runUpdater c.sz
        (SetCmd.setExisting c p t k v ⟨k, c.sz.valueMalloc s.value.str⟩).2 := by
  simp [SetCmd.set, hc, SetCmd.setAdd, addOrFind_live c ins hk hlive, SetCmd.setFound]

/-! ## Main theorem -/

/-- `SET k v PXAT n` on a key that is there and whose deadline has not passed, with the parse
clock at `parseNowMs` and the transaction clock at `c.nowMs`: the key holds `v` and its deadline
is `n - parseNowMs + c.nowMs`, or none when `n = parseNowMs`. So the deadline is `n` only when the
two clocks agree, and a deadline equal to the parse time leaves the key without one. With `NX`, a
`PXAT` before the parse clock deletes the key. -/
theorem set_pxat_deadline (c : Ctx) (hnow : 0 ≤ c.nowMs) (maxMs : Int) (connFlags : Nat)
    (mj : Bool) (ins : Insertion) (h : TablesAgree t) {s : Slot} (hk : t.prime k = some s)
    (hlive : ∀ d, t.expire k = some d → c.nowMs < d) (v : String) :
    (∀ n parseNowMs, 0 < n → parseNowMs ≤ n → n - parseNowMs ≤ maxMs →
      (StringFamily.set parseNowMs maxMs c connFlags mj ins t k v [.pxat n]).1.valueStr k = v ∧
      (StringFamily.set parseNowMs maxMs c connFlags mj ins t k v [.pxat n]).1.expire k =
        if n = parseNowMs then none else some (n - parseNowMs + c.nowMs)) ∧
    (∀ n parseNowMs, 0 < n → n < parseNowMs →
      (StringFamily.set parseNowMs maxMs c connFlags mj ins t k v [.nx, .pxat n]).1.prime k =
        none) := by
  refine ⟨fun n parseNowMs hn hle hmax => ?_, fun n parseNowMs hn hpast => ?_⟩
  · simp only [StringFamily.set, parseSet_pxat connFlags hn hle hmax]
    rw [setCmd_set_live
        { memcacheFlags := connFlags, expireAfter := true, expireAfterMs := n - parseNowMs } rfl mj ins
        hk hlive, runUpdater_valueStr, runUpdater_expire, setExisting_valueStr ((t.mem_keys k).2 (by simp [hk])),
      setExisting_expire h]
    refine ⟨rfl, ?_⟩
    by_cases heq : n = parseNowMs
    · simp [heq]
    · simp only [heq, if_false, Bool.false_eq_true]
      rw [if_pos (by omega), if_pos (by omega)]
  · simp only [StringFamily.set, parseSet_nx_pxat_past connFlags hn hpast, opDel,
      findInternal_live c hk hlive]
    exact del_absent _ _

/-- One key `k` without a deadline, both clocks at `5`: `SET k v PXAT 5` keeps `k`, without a
deadline; with the transaction clock at `7`, `SET k v PXAT 10` gives the deadline `12`; and
`SET k v NX PXAT 3` deletes `k`. -/
theorem set_pxat_deadline_oneKey :
    let c : Ctx := ⟨5, true, ⟨fun _ => true, fun _ => 0, fun _ => 0, rfl⟩⟩
    let c' : Ctx := ⟨7, true, ⟨fun _ => true, fun _ => 0, fun _ => 0, rfl⟩⟩
    let t0 := DbTable.empty.insertKey "k" ⟨false, ⟨"v", false, false⟩⟩
    (StringFamily.set 5 1000 c 0 false (.inserted none) t0 "k" "w" [.pxat 5]).1.expire "k" = none ∧
    (StringFamily.set 5 1000 c' 0 false (.inserted none) t0 "k" "w" [.pxat 10]).1.expire "k" =
      some 12 ∧
    (StringFamily.set 5 1000 c 0 false (.inserted none) t0 "k" "w" [.nx, .pxat 3]).1.prime "k" =
      none := by
  have hagree : TablesAgree (DbTable.empty.insertKey "k" ⟨false, ⟨"v", false, false⟩⟩) := fun k' => by
    by_cases hk : k' = "k" <;> simp [KeyAgrees, DbTable.empty, hk]
  have H := set_pxat_deadline ⟨5, true, ⟨fun _ => true, fun _ => 0, fun _ => 0, rfl⟩⟩ (by decide)
    1000 0 false (.inserted none) hagree (k := "k") (s := ⟨false, ⟨"v", false, false⟩⟩) rfl
    (fun _ h => by cases h) "w"
  have H' := set_pxat_deadline ⟨7, true, ⟨fun _ => true, fun _ => 0, fun _ => 0, rfl⟩⟩ (by decide)
    1000 0 false (.inserted none) hagree (k := "k") (s := ⟨false, ⟨"v", false, false⟩⟩) rfl
    (fun _ h => by cases h) "w"
  exact ⟨(H.1 5 5 (by decide) (by decide) (by decide)).2,
    (H'.1 10 5 (by decide) (by decide) (by decide)).2, H.2 3 5 (by decide) (by decide)⟩

end Dragonfly.Strings
