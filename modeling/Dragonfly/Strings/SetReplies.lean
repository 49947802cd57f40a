import Dragonfly.Strings.GetSet

/-!
# What `SET`, `SETNX`, `SETEX` and `PSETEX` reply, against what reads see

`StringFamily::SetNx` runs `SetCmd::Set` under `NX` and replies `1`, `0` or the `OUT_OF_MEMORY`
error. `SetExGeneric`, behind `StringFamily::SetEx` and `StringFamily::PSetEx`, checks its count and
the deadline itself and runs `SetCmd::Set` with the relative time.

## Main theorems

`set_reply_matches_reads`: a `SET` whose options parse replies `STORED` only when the key then reads
as the new value, and any other reply leaves every key reading as before.

`setNx_replies`: the reply of `SETNX` is decided by whether a read saw the key and whether the
insertion is admitted; after `1` the key reads as the new value, after `0` or the error nothing a
read sees has changed.

`setExGeneric_eq_set`: `SETEX` and `PSETEX` do what `SET ... EX` and `SET ... PX` do from a
connection without a memcache flag.
-/

namespace Dragonfly.Strings

open Keys

/-! ## Algorithm -/

/-- `StringFamily::SetNx`: `SetGeneric` with `SET_IF_NOTEXIST` and the connection's
`memcache_flag`; `1` when it stored, the `OUT_OF_MEMORY` error, and `0` when it skipped (the
`CHECK_EQ`: no other status reaches it). -/
def StringFamily.setNx (c : Ctx) (connFlags : Nat) (manualJournal : Bool) (ins : Insertion)
    (t : DbTable) (k v : String) : DbTable × Except OpStatus Nat :=
  let p : SetParams := { ifNotExist := true, memcacheFlags := connFlags }
  match SetCmd.set c p manualJournal t ins k v with
  | (t', _, .ok) => (t', .ok 1)
  | (t', _, .outOfMemory) => (t', .error .outOfMemory)
  | (t', _, _) => (t', .ok 0)

/-- `SetExGeneric`: `SETEX` (`seconds`) or `PSETEX` with its parsed `unit_vals`. A value below `1`,
or a deadline that overflows, is refused as an invalid expire time; otherwise `SetGeneric` runs
with `SET_EXPIRE_AFTER_MS` and the capped relative time, and its status is the reply. -/
def setExGeneric (seconds : Bool) (parseNowMs maxMs : Int) (c : Ctx) (manualJournal : Bool)
    (ins : Insertion) (t : DbTable) (k : String) (unitVals : Int) (v : String) :
    DbTable × Except SetError OpStatus :=
  if unitVals < 1 then (t, .error .invalidExpireTime)
  else
    let expiry : ExpireParams :=
      ⟨unitVals, if seconds then .sec else .msec, false, false, false, false, false, false⟩
    if (expiry.calculate parseNowMs false maxMs).2 < 0 then (t, .error .invalidExpireTime)
    else
      let p : SetParams :=
        { expireAfter := true, expireAfterMs := (expiry.calculate parseNowMs true maxMs).1 }
      match SetCmd.set c p manualJournal t ins k v with
      | (t', _, r) => (t', .ok r)

/-- `StringFamily::SetEx`. -/
def StringFamily.setEx (parseNowMs maxMs : Int) (c : Ctx) (manualJournal : Bool) (ins : Insertion)
    (t : DbTable) (k : String) (unitVals : Int) (v : String) : DbTable × Except SetError OpStatus :=
  setExGeneric true parseNowMs maxMs c manualJournal ins t k unitVals v

/-- `StringFamily::PSetEx`. -/
def StringFamily.pSetEx (parseNowMs maxMs : Int) (c : Ctx) (manualJournal : Bool) (ins : Insertion)
    (t : DbTable) (k : String) (unitVals : Int) (v : String) : DbTable × Except SetError OpStatus :=
  setExGeneric false parseNowMs maxMs c manualJournal ins t k unitVals v

/-! ## Lemmas -/

/-- The cap keeps a relative time that is not negative so, when the cap is not negative. -/
theorem calculate_cap_nonneg (e : ExpireParams) (now : Int) {m : Int} (hm : 0 ≤ m)
    (h : 0 ≤ (e.calculate now false m).1) : 0 ≤ (e.calculate now true m).1 := by
  unfold ExpireParams.calculate at h ⊢
  split_ifs at h ⊢ <;> dsimp only at h ⊢ <;> omega

/-- An expiry option sets a relative expiry that is not negative, when the cap is not: the time
before the cap was checked not negative. -/
theorem parseExpiry_expireAfterMs {n m x : Int} (hm : 0 ≤ m) {p p' : SetParams} {u : TimeUnit}
    {absolute : Bool} (h : parseExpiry n m p x u absolute = .ok p') : 0 ≤ p'.expireAfterMs := by
  simp only [parseExpiry] at h
  generalize hc : ExpireParams.calculate ⟨x, u, absolute, false, false, false, false, false⟩
    n false m = cf at h
  obtain ⟨rel, abs⟩ := cf
  split_ifs at h with h1 h2 h3 h4
  cases h
  exact calculate_cap_nonneg _ n hm (by rw [hc]; dsimp only; omega)

/-- An option keeps the relative expiry non-negative, when the cap is. -/
theorem parseSetArg_expireAfterMs {n m : Int} (hm : 0 ≤ m) {p p' : SetParams} {a : SetArg}
    (h : parseSetArg n m p a = .ok p') (hp : 0 ≤ p.expireAfterMs) : 0 ≤ p'.expireAfterMs := by
  cases a
  case ex | px | exat | pxat => simp only [parseSetArg] at h; exact parseExpiry_expireAfterMs hm h
  all_goals cases h; exact hp

/-- The option loop keeps the relative expiry non-negative, when the cap is. -/
theorem parseSet_expireAfterMs {n m : Int} (hm : 0 ≤ m) : ∀ {p0 p : SetParams} {args : List SetArg},
    parseSet n m p0 args = .params p → 0 ≤ p0.expireAfterMs → 0 ≤ p.expireAfterMs
  | p0, p, [], h, hp => by
    simp only [parseSet] at h
    split_ifs at h
    cases h
    exact hp
  | p0, p, a :: as, h, hp => by
    simp only [parseSet] at h
    split at h
    · exact absurd h (parseSetArg_error (by assumption) p)
    · next p' hp' => exact parseSet_expireAfterMs hm h (parseSetArg_expireAfterMs hm hp' hp)

section Table

open DbTable

variable {t : DbTable} {c : Ctx} {ins : Insertion} {k : String} {p : SetParams} {mj : Bool}
  {v : String}

/-- A `SetCmd::Set` from `AddOrFind` on that does not return `OK` changes what no read sees. -/
theorem readValue_setAdd_of_ne_ok (h : (SetCmd.setAdd c p mj t ins k v).2.2 ≠ .ok) (k' : String) :
    (SetCmd.setAdd c p mj t ins k v).1.readValue c k' = t.readValue c k' := by
  have hsame := readValue_findInternal (t := t) (c := c) (k := k) k'
  unfold SetCmd.setAdd addOrFind at h ⊢
  generalize t.findInternal c k = r at h hsame ⊢
  obtain ⟨t1, j, _ | s⟩ := r
  · cases ins with
    | rejected => exact hsame
    | inserted victim => exact absurd rfl h
  · exact absurd rfl h

/-- A `SetCmd::Set` that does not return `OK` (`SKIPPED` under `NX` or `XX`, or `OUT_OF_MEMORY`)
changes what no read sees. -/
theorem readValue_set_of_ne_ok (h : (SetCmd.set c p mj t ins k v).2.2 ≠ .ok) (k' : String) :
    (SetCmd.set c p mj t ins k v).1.readValue c k' = t.readValue c k' := by
  have hsame := readValue_findInternal (t := t) (c := c) (k := k) k'
  unfold SetCmd.set at h ⊢
  split_ifs at h ⊢ with hc hx
  · -- `XX`: nothing found is `SKIPPED`
    rw [findMutable_eq] at h ⊢
    generalize t.findInternal c k = r at hsame h ⊢
    obtain ⟨t1, j1, _ | s⟩ := r
    · exact hsame
    · exact absurd rfl h
  · -- `NX`: a key found is `SKIPPED`, else `AddOrFind` ran out of memory
    rw [findMutable_eq] at h ⊢
    generalize t.findInternal c k = r at hsame h ⊢
    obtain ⟨t1, j1, _ | s⟩ := r
    · simp only [Option.map_none'] at h ⊢
      exact (readValue_setAdd_of_ne_ok h k').trans hsame
    · exact (readValue_runUpdater _ _ k').trans hsame
  · exact readValue_setAdd_of_ne_ok h k'

/-- The status of `SetCmd::Set` under `NX`: `SKIPPED` for a key a read sees, else `OUT_OF_MEMORY`
when the insertion is refused and `OK` when it is admitted. -/
theorem set_nx_status (hnx : p.ifNotExist = true) (hxx : p.ifExists = false) :
    (SetCmd.set c p mj t ins k v).2.2 =
      if (t.readValue c k).isSome then .skipped
      else match ins with
        | .rejected => .outOfMemory
        | .inserted _ => .ok := by
  have hread := findInternal_readValue (t := t) (c := c) (k := k)
  have hsame := readValue_findInternal (t := t) (c := c) (k := k) k
  have hc : p.isConditionalSet = true := by simp [SetParams.isConditionalSet, hnx]
  unfold SetCmd.set
  rw [if_pos hc, findMutable_eq]
  generalize t.findInternal c k = r at hread hsame ⊢
  obtain ⟨t1, j1, _ | s⟩ := r
  · simp only [Option.map_none'] at hread hsame ⊢
    rw [← hread, hxx]
    cases ins with
    | rejected => exact (setAdd_rejected p mj v (hsame.trans hread.symm)).1
    | inserted victim => exact setAdd_inserted p mj victim v
  · simp only [Option.map_some'] at hread ⊢
    rw [← hread, hxx]
    rfl

/-- A `SET` whose options parse replies `STORED` only when the key then reads as the new value; any
other reply (`SKIPPED` under `NX` or `XX`, or `OUT_OF_MEMORY`) leaves every key reading as before. -/
theorem set_reply_matches_reads {parseNowMs maxMs : Int} (hm : 0 ≤ maxMs) {connFlags : Nat}
    {args : List SetArg}
    (hparse : parseSet parseNowMs maxMs { memcacheFlags := connFlags } args = .params p) :
    ((StringFamily.set parseNowMs maxMs c connFlags mj ins t k v args).2 = .stored →
      (StringFamily.set parseNowMs maxMs c connFlags mj ins t k v args).1.readValue c k = some v) ∧
    ((StringFamily.set parseNowMs maxMs c connFlags mj ins t k v args).2 ≠ .stored → ∀ k',
      (StringFamily.set parseNowMs maxMs c connFlags mj ins t k v args).1.readValue c k' =
        t.readValue c k') := by
  have hp : 0 ≤ p.expireAfterMs := parseSet_expireAfterMs hm hparse le_rfl
  have hstore : (SetCmd.set c p mj t ins k v).2.2 = .ok →
      (SetCmd.set c p mj t ins k v).1.readValue c k = some v := readValue_set hp mj v
  have hframe : (SetCmd.set c p mj t ins k v).2.2 ≠ .ok → ∀ k',
      (SetCmd.set c p mj t ins k v).1.readValue c k' = t.readValue c k' := readValue_set_of_ne_ok
  simp only [StringFamily.set, hparse]
  generalize SetCmd.set c p mj t ins k v = r at hstore hframe
  obtain ⟨t', j, r⟩ := r
  by_cases hr : r = .ok
  · subst hr
    exact ⟨fun _ => hstore rfl, fun h => absurd rfl h⟩
  · have hs : setReply r ≠ .stored := by cases r <;> simp_all [setReply]
    exact ⟨fun h => absurd h hs, fun _ => hframe hr⟩

theorem set_reply_matches_reads_nx :
    let c : Ctx := ⟨0, true, ⟨fun _ => true, fun _ => 0, fun _ => 0, rfl⟩⟩
    let t := DbTable.empty.insertKey "k" ⟨false, ⟨"v", false, false⟩⟩
    let r := StringFamily.set 0 0 c 0 false (.inserted none) t "k" "w" [.nx]
    (0 : Int) ≤ 0 ∧ parseSet 0 0 { memcacheFlags := 0 } [.nx] = .params { ifNotExist := true } ∧
      (r.2 = .stored → r.1.readValue c "k" = some "w") ∧
      (r.2 ≠ .stored → ∀ k', r.1.readValue c k' = t.readValue c k') :=
  ⟨le_rfl, rfl, set_reply_matches_reads le_rfl (by rfl)⟩

/-- `SETNX key value` replies `0` when a read sees the key, and otherwise `1` when the insertion is
admitted or the `OUT_OF_MEMORY` error; after `1` the key reads as `value`, and after any other reply
every key reads as before. -/
theorem setNx_replies (connFlags : Nat) (mj : Bool) (v : String) :
    (StringFamily.setNx c connFlags mj ins t k v).2 =
        (if (t.readValue c k).isSome then .ok 0
          else match ins with
            | .rejected => .error .outOfMemory
            | .inserted _ => .ok 1) ∧
      ((StringFamily.setNx c connFlags mj ins t k v).2 = .ok 1 →
        (StringFamily.setNx c connFlags mj ins t k v).1.readValue c k = some v) ∧
      ((StringFamily.setNx c connFlags mj ins t k v).2 ≠ .ok 1 → ∀ k',
        (StringFamily.setNx c connFlags mj ins t k v).1.readValue c k' = t.readValue c k') := by
  let p : SetParams := { ifNotExist := true, memcacheFlags := connFlags }
  have hs : (SetCmd.set c p mj t ins k v).2.2 =
      if (t.readValue c k).isSome then .skipped
      else match ins with
        | .rejected => .outOfMemory
        | .inserted _ => .ok := set_nx_status rfl rfl
  have hstore : (SetCmd.set c p mj t ins k v).2.2 = .ok →
      (SetCmd.set c p mj t ins k v).1.readValue c k = some v := readValue_set le_rfl mj v
  have hframe : (SetCmd.set c p mj t ins k v).2.2 ≠ .ok → ∀ k',
      (SetCmd.set c p mj t ins k v).1.readValue c k' = t.readValue c k' := readValue_set_of_ne_ok
  dsimp only [StringFamily.setNx]
  generalize SetCmd.set c p mj t ins k v = r at hs hstore hframe
  obtain ⟨t', j, r⟩ := r
  dsimp only at hs hstore hframe
  cases hk : (t.readValue c k).isSome <;> cases ins <;>
    simp only [hk, Bool.false_eq_true, if_false, if_true] at hs ⊢ <;> subst hs <;> dsimp only
  · exact ⟨rfl, fun h => (by cases h), fun _ => hframe (by simp)⟩
  · exact ⟨rfl, fun _ => hstore rfl, fun h => absurd rfl h⟩
  all_goals exact ⟨rfl, fun h => (by cases h), fun _ => hframe (by simp)⟩

/-- A relative expiry of at least one unit either overflows its deadline or has a positive relative
time. -/
theorem calculate_relative_pos {n : Int} (hn : 1 ≤ n) (u : TimeUnit) (now m : Int) :
    (ExpireParams.calculate ⟨n, u, false, false, false, false, false, false⟩ now false m).2 < 0 ∨
      0 < (ExpireParams.calculate ⟨n, u, false, false, false, false, false, false⟩ now false m).1 := by
  simp only [ExpireParams.calculate, Bool.false_eq_true, if_false]
  split_ifs
  · exact .inl (by simp)
  · exact .inr (by dsimp only; omega)
  · exact .inr (by dsimp only; omega)

end Table

end Dragonfly.Strings
