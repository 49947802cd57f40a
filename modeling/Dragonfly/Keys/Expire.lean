import Dragonfly.Keys.Table

/-!
# `UpdateExpire` against the semantics of `EXPIRE`

`DbSlice::UpdateExpire(cntx, prime_it, expire_it, params)` (`DbTable.updateExpire`) is compared
with the semantics of Redis `EXPIRE` (`DbTable.redisUpdateExpire`): persist first, then the range
check, then the `NX`/`XX`/`GT`/`LT` condition against the current deadline (a key without one
counts as an infinitely far deadline), and only when the condition holds the deletion by a
non-positive relative deadline or the new deadline.

## Main theorems

* `updateExpire_error_unchanged`: every `SKIPPED` or `OUT_OF_RANGE` leaves the table as it was.
* `updateExpire_of_condition`: whenever the condition holds, the code does what `EXPIRE` does.
* `updateExpire_ignores_condition`: the two places where it does not. The code deletes a key whose
  relative deadline is not positive before it looks at the condition, and on a key without a
  deadline it checks only `XX`, so `GT` installs the deadline.
-/

namespace Dragonfly.Keys

/-- Modelled from the spec: the condition of `EXPIRE`'s `NX`, `XX`, `GT`, `LT` against the current
deadline `cur` and the new one `abs`. A key without a deadline counts as an infinite one: `NX` and
`LT` hold on it, `XX` and `GT` fail. -/
def ExpireParams.condition (p : ExpireParams) (cur : Option Int) (abs : Int) : Bool :=
  match cur with
  | some d => !p.nx && !(p.gt && decide (abs ≤ d)) && !(p.lt && decide (d ≤ abs))
  | none => !p.xx && !p.gt

namespace DbTable

variable (t : DbTable)

/-- Modelled from the spec: `EXPIRE` on the key `k` of `UpdateExpire`, whose deadline is
`expIt k`. The condition is decided before the relative deadline is looked at. -/
def redisUpdateExpire (c : Ctx) (maxMs : Int) (k : String) (p : ExpireParams) :
    DbTable × Except OpStatus Int :=
  if p.persist then ((t.removeExpire k).1, .ok 0)
  else
    let (rel, abs) := p.calculate c.nowMs false maxMs
    if abs < 0 ∨ rel > maxMs then (t, .error .outOfRange)
    else if p.condition (t.expIt k) abs = false then (t, .error .skipped)
    else if rel ≤ 0 then (t.del c.sz k, .ok (-1))
    else
      match t.expIt k with
      | some _ => (t.setExpire k (some abs), .ok abs)
      | none => (t.addExpire k abs, .ok abs)

/-! ## Lemmas -/

variable {t} {c : Ctx} {maxMs : Int} {k : String} {p : ExpireParams}

/-- `UpdateExpire` past the persist branch and the range check, unfolded once for the theorems
below. -/
theorem updateExpire_inRange (hpersist : p.persist = false) {rel abs : Int}
    (hc : p.calculate c.nowMs false maxMs = (rel, abs)) (habs : 0 ≤ abs) (hrel : rel ≤ maxMs) :
    t.updateExpire c maxMs k p =
      if rel ≤ 0 then (t.del c.sz k, .ok (-1))
      else
        match t.expIt k with
        | some cur =>
          if p.nx then (t, .error .skipped)
          else if p.lt ∧ cur ≤ abs then (t, .error .skipped)
          else if p.gt ∧ cur ≥ abs then (t, .error .skipped)
          else (t.setExpire k (some abs), .ok abs)
        | none => if p.xx then (t, .error .skipped) else (t.addExpire k abs, .ok abs) := by
  simp only [updateExpire, hpersist, hc, Bool.false_eq_true, if_false]
  exact (if_neg (by omega)).trans rfl

theorem redisUpdateExpire_inRange (hpersist : p.persist = false) {rel abs : Int}
    (hc : p.calculate c.nowMs false maxMs = (rel, abs)) (habs : 0 ≤ abs) (hrel : rel ≤ maxMs) :
    t.redisUpdateExpire c maxMs k p =
      if p.condition (t.expIt k) abs = false then (t, .error .skipped)
      else if rel ≤ 0 then (t.del c.sz k, .ok (-1))
      else
        match t.expIt k with
        | some _ => (t.setExpire k (some abs), .ok abs)
        | none => (t.addExpire k abs, .ok abs) := by
  simp only [redisUpdateExpire, hpersist, hc, Bool.false_eq_true, if_false]
  rw [if_neg (by omega)]

/-! ## Main theorems -/

/-- A `SKIPPED` or `OUT_OF_RANGE` answer leaves the prime and expire tables as they were, and no
other error is returned. -/
theorem updateExpire_error_unchanged {e : OpStatus}
    (h : (t.updateExpire c maxMs k p).2 = .error e) :
    (t.updateExpire c maxMs k p).1 = t ∧ (e = .outOfRange ∨ e = .skipped) := by
  rcases hc : p.calculate c.nowMs false maxMs with ⟨rel, abs⟩
  cases hpersist : p.persist
  · by_cases hr : 0 ≤ abs ∧ rel ≤ maxMs
    · rw [updateExpire_inRange hpersist hc hr.1 hr.2] at h ⊢
      split at h
      · cases h
      split at h <;> split_ifs at h ⊢ <;> cases h <;> simp
    · simp only [updateExpire, hpersist, hc, Bool.false_eq_true, if_false] at h ⊢
      rw [if_pos (by omega)] at h ⊢
      cases h; simp
  · simp [updateExpire, hpersist] at h

/-- Whenever the condition of `EXPIRE` holds against the current deadline, `UpdateExpire` does
what `EXPIRE` does. -/
theorem updateExpire_of_condition
    (h : p.condition (t.expIt k) (p.calculate c.nowMs false maxMs).2 = true) :
    t.updateExpire c maxMs k p = t.redisUpdateExpire c maxMs k p := by
  rcases hc : p.calculate c.nowMs false maxMs with ⟨rel, abs⟩
  rw [hc] at h
  cases hpersist : p.persist
  · by_cases hr : 0 ≤ abs ∧ rel ≤ maxMs
    · rw [updateExpire_inRange hpersist hc hr.1 hr.2, redisUpdateExpire_inRange hpersist hc hr.1 hr.2,
        h]
      split
      · rfl
      cases hx : t.expIt k with
      | none => simp_all [ExpireParams.condition]
      | some d =>
        simp only [hx, ExpireParams.condition] at h ⊢
        split_ifs <;> simp_all
    · simp only [updateExpire, redisUpdateExpire, hpersist, hc, Bool.false_eq_true, if_false]
      rw [if_pos (by omega), if_pos (by omega)]
  · simp [updateExpire, redisUpdateExpire, hpersist]

/-- Where `UpdateExpire` leaves `EXPIRE`, for every table, key and parameters in range: with a
relative deadline that is not positive it deletes the key and answers `-1` although the condition
fails, where `EXPIRE` answers `SKIPPED` (`NX` on a key with a deadline, `XX` or `GT` on one
without); and on a key without a deadline `GT` installs the deadline. -/
theorem updateExpire_ignores_condition (hpersist : p.persist = false) {rel abs : Int}
    (hc : p.calculate c.nowMs false maxMs = (rel, abs)) (habs : 0 ≤ abs) (hrel : rel ≤ maxMs) :
    (rel ≤ 0 → p.condition (t.expIt k) abs = false →
      t.updateExpire c maxMs k p = (t.del c.sz k, .ok (-1)) ∧
      t.redisUpdateExpire c maxMs k p = (t, .error .skipped)) ∧
    (0 < rel → t.expIt k = none → p.gt = true → p.xx = false →
      t.updateExpire c maxMs k p = (t.addExpire k abs, .ok abs) ∧
      t.redisUpdateExpire c maxMs k p = (t, .error .skipped)) := by
  rw [updateExpire_inRange hpersist hc habs hrel, redisUpdateExpire_inRange hpersist hc habs hrel]
  refine ⟨fun hr hcond => by simp [hr, hcond], fun hr hnone hgt hxx => ?_⟩
  simp [hnone, hgt, hxx, ExpireParams.condition, not_le.2 hr]

/-- At time 50, a key with deadline 100 and `NX` with a relative deadline `0`: `UpdateExpire`
deletes it; and `GT` with a relative deadline `10` on a key without a deadline installs `60`. -/
theorem updateExpire_ignores_condition_nxAndGt :
    let c : Ctx := ⟨50, true, ⟨fun _ => true, fun _ => 0, fun _ => 0, rfl⟩⟩
    let t0 := DbTable.empty.insertKey "k" ⟨false, ⟨"v", false, false⟩⟩
    let t1 := t0.addExpire "k" 100
    let nx : ExpireParams := ⟨0, .msec, false, false, true, false, false, false⟩
    let gt : ExpireParams := ⟨10, .msec, false, false, false, false, true, false⟩
    (t1.updateExpire c 1000 "k" nx = (t1.del c.sz "k", .ok (-1)) ∧
      t1.redisUpdateExpire c 1000 "k" nx = (t1, .error .skipped)) ∧
    (t0.updateExpire c 1000 "k" gt = (t0.addExpire "k" 60, .ok 60) ∧
      t0.redisUpdateExpire c 1000 "k" gt = (t0, .error .skipped)) :=
  ⟨(updateExpire_ignores_condition rfl rfl (by decide) (by decide)).1 (by decide) rfl,
    (updateExpire_ignores_condition rfl rfl (by decide) (by decide)).2 (by decide) rfl rfl rfl⟩

end DbTable

end Dragonfly.Keys
