import Dragonfly.Strings.Int64

/-!
# `CL.THROTTLE` on `int64_t`

`OpThrottle` runs the generic cell rate algorithm (GCRA) on `int64_t` milliseconds: the delay
tolerance `emission_interval_ms * limit`, the increment `emission_interval_ms * quantity`, the new
theoretical arrival time, the allow-at time, the difference to now, the retry time, the time to
live and the next free slot. Before each signed operation that could overflow, a test answers
`INVALID_INT`.

`throttle64` is that arithmetic as the machine evaluates it (`none` on a signed overflow), from
the two tests before the lookup to the reply; `throttleArith` is the same over unbounded integers
with the same tests, as `opThrottle` runs it. `gcra` states the algorithm's quantities over
unbounded integers, and `Gcra.InRange` says that every one the code computes fits in `int64_t`.

## Main theorem

`throttle_exact`: for `limit ≥ 1` and `emission_interval_ms ≥ 1` (what `ClThrottle` passes), every
`uint64_t` quantity, every `now_ms ≥ 0` and every stored arrival time, the machine evaluates no
overflowing operation, `OpThrottle` answers `INVALID_INT` exactly when a quantity of `gcra` leaves
`int64_t`, and otherwise replies with the quantities of `gcra` and stores its new arrival time.
-/

namespace Dragonfly.Strings

open Keys

/-- The quantities of the GCRA over unbounded integers, given the delay tolerance `dvt` and the
increment `inc`. `retry` is `-diff` for a limited request whose increment fits in the tolerance,
`-1000` otherwise. -/
structure Gcra where
  dvt : Int
  inc : Int
  newTat : Int
  allowAt : Int
  diff : Int
  limited : Bool
  retry : Int
  ttl : Int
  next : Int
  remaining : Int
  deriving DecidableEq, Repr

/-- The GCRA from the tolerance and the increment on. -/
def Gcra.ofTolerance (now tat inc dvt emission : Int) : Gcra :=
  let newTat := max tat now + inc
  let allowAt := newTat - dvt
  let diff := now - allowAt
  let limited := decide (diff < 0)
  let ttl := if limited then tat - now else newTat - now
  let next := dvt - ttl
  ⟨dvt, inc, newTat, allowAt, diff, limited, if limited ∧ inc ≤ dvt then -diff else -1000, ttl,
    next, if next > -emission then next.tdiv emission else 0⟩

section Fields
variable (now tat inc dvt emission : Int)

@[simp] theorem Gcra.ofTolerance_dvt : (ofTolerance now tat inc dvt emission).dvt = dvt := rfl
@[simp] theorem Gcra.ofTolerance_inc : (ofTolerance now tat inc dvt emission).inc = inc := rfl
@[simp] theorem Gcra.ofTolerance_newTat :
    (ofTolerance now tat inc dvt emission).newTat = max tat now + inc := rfl
@[simp] theorem Gcra.ofTolerance_allowAt :
    (ofTolerance now tat inc dvt emission).allowAt = max tat now + inc - dvt := rfl
@[simp] theorem Gcra.ofTolerance_diff :
    (ofTolerance now tat inc dvt emission).diff = now - (max tat now + inc - dvt) := rfl
@[simp] theorem Gcra.ofTolerance_limited :
    (ofTolerance now tat inc dvt emission).limited = decide (now - (max tat now + inc - dvt) < 0) :=
  rfl
@[simp] theorem Gcra.ofTolerance_retry : (ofTolerance now tat inc dvt emission).retry =
    if now - (max tat now + inc - dvt) < 0 ∧ inc ≤ dvt then -(now - (max tat now + inc - dvt))
    else -1000 := by
  simp [ofTolerance]
@[simp] theorem Gcra.ofTolerance_ttl : (ofTolerance now tat inc dvt emission).ttl =
    if now - (max tat now + inc - dvt) < 0 then tat - now else max tat now + inc - now := by
  simp [ofTolerance]
@[simp] theorem Gcra.ofTolerance_next : (ofTolerance now tat inc dvt emission).next =
    dvt - (ofTolerance now tat inc dvt emission).ttl := rfl
@[simp] theorem Gcra.ofTolerance_remaining : (ofTolerance now tat inc dvt emission).remaining =
    if (ofTolerance now tat inc dvt emission).next > -emission then
      (ofTolerance now tat inc dvt emission).next.tdiv emission else 0 := rfl

end Fields

/-- The GCRA of a request of `quantity` at `now` against the arrival time `tat`. -/
def gcra (limit emission : Int) (quantity : Nat) (now tat : Int) : Gcra :=
  Gcra.ofTolerance now tat (emission * quantity) (emission * limit) emission

/-- The quantities the code computes: the retry time only for a limited request whose increment
fits in the tolerance. -/
def Gcra.intermediates (g : Gcra) : List Int :=
  [g.dvt, g.inc, g.newTat, g.allowAt, g.diff] ++ (if g.limited ∧ g.inc ≤ g.dvt then [-g.diff] else [])
    ++ [g.ttl, g.next]

/-- Every quantity the code computes fits in `int64_t`. -/
def Gcra.InRange (g : Gcra) : Prop := ∀ x ∈ g.intermediates, InInt64 x

instance (g : Gcra) : Decidable g.InRange := inferInstanceAs (Decidable (∀ _ ∈ _, _))

/-- The reply of `OpThrottle` over unbounded integers: `limited`, the new arrival time,
`remaining`, `retry_after_ms`, `reset_after_ms`. -/
def Gcra.result (g : Gcra) : Bool × Int × Int × Int × Int :=
  (g.limited, g.newTat, g.remaining, g.retry, g.ttl)

/-! ## Algorithm -/

/-- The reply of `OpThrottle`: `limited ? 1 : 0`, `limit`, `remaining`, `retry_after_ms`,
`reset_after_ms`. -/
def throttleReply (limit : Int) (r : Bool × Int × Int × Int × Int) : List Int :=
  [if r.1 then 1 else 0, limit, r.2.2.1, r.2.2.2.1, r.2.2.2.2]

/-- The arithmetic of `opThrottle`: the tests of the tolerance and the increment, then
`throttleDecision`. -/
def throttleArith (limit emission : Int) (quantity : Nat) (now tat : Int) :
    Except OpStatus (Bool × Int × Int × Int × Int) :=
  if emission > int64Max.tdiv limit then .error .invalidInt
  else if quantity ≠ 0 ∧ emission > int64Max.tdiv quantity then .error .invalidInt
  else throttleDecision now tat (emission * quantity) (emission * limit) emission

/-- The test before `now_ms - allow_at_ms`:
`allow_at_ms >= 0 ? now_ms < INT64_MIN + allow_at_ms : now_ms > INT64_MAX + allow_at_ms`. -/
def allowAtOverflows64 (now allowAt : Int) : Option Bool :=
  if allowAt ≥ 0 then (add64 int64Min allowAt).map fun b => decide (now < b)
  else (add64 int64Max allowAt).map fun b => decide (now > b)

/-- The test before `x - now_ms`:
`now_ms >= 0 ? x < INT64_MIN + now_ms : x > INT64_MAX + now_ms`. -/
def subNowOverflows64 (now x : Int) : Option Bool :=
  if now ≥ 0 then (add64 int64Min now).map fun b => decide (x < b)
  else (add64 int64Max now).map fun b => decide (x > b)

/-- The time to live `x - now_ms` after its test, with the retry time `retry`. -/
def ttl64 (now x retry : Int) : Option (Except OpStatus (Int × Int)) :=
  (subNowOverflows64 now x).bind fun bad =>
  if bad then some (.error .invalidInt) else (sub64 x now).map fun ttl => .ok (retry, ttl)

/-- The retry time and the time to live of `OpThrottle`: for a limited request, `-diff_ms` when
the increment fits in the tolerance (`INT64_MIN` is refused first), and the time to live from the
stored arrival time; otherwise from the new one. -/
def retryTtl64 (now tat newTat inc dvt diff : Int) : Option (Except OpStatus (Int × Int)) :=
  if diff < 0 then
    if inc ≤ dvt then
      if diff = int64Min then some (.error .invalidInt)
      else (neg64 diff).bind fun retry => ttl64 now tat retry
    else ttl64 now tat (-1000)
  else ttl64 now newTat (-1000)

/-- `throttleDecision` as the machine evaluates it: every `+`, `-` and negation of `int64_t`,
those of the tests included, is checked. -/
def throttleDecision64 (now tat inc dvt emission : Int) :
    Option (Except OpStatus (Bool × Int × Int × Int × Int)) :=
  (sub64 int64Max inc).bind fun room =>
  if max tat now > room then some (.error .invalidInt) else
  (add64 (max tat now) inc).bind fun newTat =>
  (add64 int64Min dvt).bind fun low =>
  if newTat < low then some (.error .invalidInt) else
  (sub64 newTat dvt).bind fun allowAt =>
  (allowAtOverflows64 now allowAt).bind fun bad =>
  if bad then some (.error .invalidInt) else
  (sub64 now allowAt).bind fun diff =>
  (retryTtl64 now tat newTat inc dvt diff).bind fun
  | .error e => some (.error e)
  | .ok (retry, ttl) =>
    (sub64 dvt int64Max).bind fun low =>
    if ttl < low then some (.error .invalidInt) else
    (sub64 dvt ttl).bind fun next =>
    (neg64 emission).bind fun floor =>
    some (.ok (decide (diff < 0), newTat, if next > floor then next.tdiv emission else 0, retry,
      ttl))

/-- The arithmetic of `OpThrottle` as the machine evaluates it: `INT64_MAX / limit` is a signed
division by a positive number, `emission_interval_ms * limit` a signed product; the test of the
quantity divides `uint64_t`s, and `emission_interval_ms * quantity` is a `uint64_t` product
converted to `int64_t`. -/
def throttle64 (limit emission : Int) (quantity : Nat) (now tat : Int) :
    Option (Except OpStatus (Bool × Int × Int × Int × Int)) :=
  if emission > int64Max.tdiv limit then some (.error .invalidInt) else
  (mul64 emission limit).bind fun dvt =>
  if quantity ≠ 0 ∧ emission % 2 ^ 64 > int64Max / quantity then some (.error .invalidInt) else
  throttleDecision64 now tat (wrap64 (emission * quantity)) dvt emission

/-! ## Lemmas -/

theorem inInt64_iff {x : Int} :
    InInt64 x ↔ -9223372036854775808 ≤ x ∧ x ≤ 9223372036854775807 := by
  rw [InInt64, int64Min_eq, int64Max_eq]

theorem checked64_bind {α : Type} {x : Int} (h : InInt64 x) (f : Int → Option α) :
    (checked64 x).bind f = f x := by
  rw [checked64_of_inInt64 h]; rfl

/-- The test of `int64Max / d` for a positive divisor: a product over `INT64_MAX`. -/
theorem gt_tdiv_iff {a d : Int} (hd : 0 < d) : a > int64Max.tdiv d ↔ a * d > int64Max := by
  rw [Int.tdiv_eq_ediv (by rw [int64Max_eq]; omega) hd.le, gt_iff_lt, Int.ediv_lt_iff_lt_mul hd]

theorem add64_of {a b : Int} (h : InInt64 (a + b)) : add64 a b = some (a + b) :=
  checked64_of_inInt64 h

theorem sub64_of {a b : Int} (h : InInt64 (a - b)) : sub64 a b = some (a - b) :=
  checked64_of_inInt64 h

theorem neg64_of {a : Int} (h : InInt64 (-a)) : neg64 a = some (-a) := checked64_of_inInt64 h

theorem mul64_of {a b : Int} (h : InInt64 (a * b)) : mul64 a b = some (a * b) :=
  checked64_of_inInt64 h

section Decision

variable {now tat inc dvt e : Int}

theorem allowAtOverflows64_eq {allowAt : Int} (h : InInt64 allowAt) :
    allowAtOverflows64 now allowAt = some (decide
      (if allowAt ≥ 0 then now < int64Min + allowAt else now > int64Max + allowAt)) := by
  rw [inInt64_iff] at h
  unfold allowAtOverflows64
  split_ifs with ha
  · rw [add64_of (inInt64_iff.2 (by rw [int64Min_eq]; omega))]; rfl
  · rw [add64_of (inInt64_iff.2 (by rw [int64Max_eq]; omega))]; rfl

theorem subNowOverflows64_eq {x : Int} (h : InInt64 now) :
    subNowOverflows64 now x = some (decide
      (if now ≥ 0 then x < int64Min + now else x > int64Max + now)) := by
  rw [inInt64_iff] at h
  unfold subNowOverflows64
  split_ifs with ha
  · rw [add64_of (inInt64_iff.2 (by rw [int64Min_eq]; omega))]; rfl
  · rw [add64_of (inInt64_iff.2 (by rw [int64Max_eq]; omega))]; rfl

theorem ttl64_eq {x retry : Int} (hnow : InInt64 now) (hx : InInt64 x) :
    ttl64 now x retry = some (if (if now ≥ 0 then x < int64Min + now else x > int64Max + now) then
      .error .invalidInt else .ok (retry, x - now)) := by
  unfold ttl64
  rw [subNowOverflows64_eq hnow, Option.some_bind]
  by_cases h : if now ≥ 0 then x < int64Min + now else x > int64Max + now
  · simp only [h, decide_True, if_true]
  · simp only [h, decide_False, if_false, Bool.false_eq_true]
    rw [inInt64_iff] at hnow hx
    rw [int64Min_eq, int64Max_eq] at h
    rw [sub64_of (inInt64_iff.2 (by split at h <;> omega))]; rfl

/-- The last test and `next_ms`, `remaining` of `OpThrottle`, after the retry time and the time
to live: an error passes through, and a time to live in `int64_t` gives what `throttleDecision`
gives. -/
theorem finish64_eq (hdvt : 1 ≤ dvt ∧ dvt ≤ int64Max) (he : 1 ≤ e ∧ e ≤ int64Max)
    (limited : Bool) (newTat : Int) (r : Except OpStatus (Int × Int)) :
    (∀ p, r = .ok p → InInt64 p.2) →
    (match r with
      | .error err => some (.error err)
      | .ok (retry, ttl) =>
        (sub64 dvt int64Max).bind fun low =>
        if ttl < low then some (.error .invalidInt) else
        (sub64 dvt ttl).bind fun next =>
        (neg64 e).bind fun floor =>
        some (.ok (limited, newTat, if next > floor then next.tdiv e else 0, retry, ttl)) :
      Option (Except OpStatus (Bool × Int × Int × Int × Int))) =
    some (match r with
      | .error err => .error err
      | .ok (retry, ttl) =>
        if ttl < dvt - int64Max then .error .invalidInt else
        .ok (limited, newTat, if dvt - ttl > -e then (dvt - ttl).tdiv e else 0, retry, ttl)) := by
  intro hr
  rcases r with err | ⟨retry, ttl⟩
  · rfl
  have httl := inInt64_iff.1 (hr _ rfl)
  dsimp only
  rw [int64Max_eq] at hdvt he ⊢
  rw [sub64_of (inInt64_iff.2 (by omega)), Option.some_bind]
  by_cases h : ttl < dvt - 9223372036854775807
  · rw [if_pos h, if_pos h]
  · rw [if_neg h, if_neg h, sub64_of (inInt64_iff.2 (by omega)), Option.some_bind,
      neg64_of (inInt64_iff.2 (by omega)), Option.some_bind]

/-- The retry time and the time to live on the machine: those of `throttleDecision`. -/
theorem retryTtl64_eq {newTat diff : Int} (hnow : InInt64 now) (htat : InInt64 tat)
    (hnewTat : InInt64 newTat) (hdiff : InInt64 diff) :
    retryTtl64 now tat newTat inc dvt diff = some
      (if decide (diff < 0) then
        if inc ≤ dvt ∧ diff = int64Min then .error .invalidInt
        else if (if now ≥ 0 then tat < int64Min + now else tat > int64Max + now) then
          .error .invalidInt
        else .ok (if inc ≤ dvt then -diff else -1000, tat - now)
      else if (if now ≥ 0 then newTat < int64Min + now else newTat > int64Max + now) then
        .error .invalidInt
      else .ok (-1000, newTat - now)) := by
  unfold retryTtl64
  by_cases hd : diff < 0
  · simp only [hd, decide_True, if_true]
    by_cases hi : inc ≤ dvt
    · by_cases hm : diff = int64Min
      · simp [hi, hm]
      · rw [if_pos hi, if_neg hm, if_neg (fun h => hm h.2), neg64_of (by
          rw [inInt64_iff] at hdiff ⊢; rw [int64Min_eq] at hm; omega), Option.some_bind,
          ttl64_eq hnow htat, if_pos hi]
    · rw [if_neg hi, if_neg (fun h => hi h.1), ttl64_eq hnow htat, if_neg hi]
  · simp only [hd, decide_False, if_false, Bool.false_eq_true, ttl64_eq hnow hnewTat]

/-- Under the tests of `OpThrottle`, its machine arithmetic evaluates no overflowing operation and
computes what `throttleDecision` computes. -/
theorem throttleDecision64_eq (hdvt : 1 ≤ dvt ∧ dvt ≤ int64Max) (hinc : 0 ≤ inc ∧ inc ≤ int64Max)
    (hnow : 0 ≤ now ∧ now ≤ int64Max) (htat : InInt64 tat) (he : 1 ≤ e ∧ e ≤ int64Max) :
    throttleDecision64 now tat inc dvt e = some (throttleDecision now tat inc dvt e) := by
  have hnow' : InInt64 now := inInt64_iff.2 (by rw [int64Max_eq] at hnow; omega)
  unfold throttleDecision64 throttleDecision
  rw [sub64_of (inInt64_iff.2 (by rw [int64Max_eq] at hinc ⊢; omega)), Option.some_bind]
  by_cases h1 : max tat now > int64Max - inc
  · simp only [h1, if_true]
  simp only [h1, if_false]
  rw [add64_of (inInt64_iff.2 (by rw [inInt64_iff] at htat; rw [int64Max_eq] at *; omega)),
    Option.some_bind, add64_of (inInt64_iff.2 (by rw [int64Min_eq, int64Max_eq] at *; omega)),
    Option.some_bind]
  by_cases h2 : max tat now + inc < int64Min + dvt
  · simp only [h2, if_true]
  simp only [h2, if_false]
  have hnt : InInt64 (max tat now + inc) :=
    inInt64_iff.2 (by rw [inInt64_iff] at htat; rw [int64Max_eq] at *; omega)
  have hat : InInt64 (max tat now + inc - dvt) :=
    inInt64_iff.2 (by rw [inInt64_iff] at hnt; rw [int64Min_eq, int64Max_eq] at *; omega)
  rw [sub64_of hat, Option.some_bind, allowAtOverflows64_eq hat, Option.some_bind]
  by_cases h3 : if max tat now + inc - dvt ≥ 0 then now < int64Min + (max tat now + inc - dvt)
      else now > int64Max + (max tat now + inc - dvt)
  · simp only [h3, decide_True, if_true]
  simp only [h3, decide_False, Bool.false_eq_true, if_false]
  have hdiff : InInt64 (now - (max tat now + inc - dvt)) :=
    inInt64_iff.2 (by rw [inInt64_iff] at hat; rw [int64Min_eq, int64Max_eq] at *; split at h3 <;> omega)
  rw [sub64_of hdiff, Option.some_bind, retryTtl64_eq hnow' htat hnt hdiff, Option.some_bind]
  refine finish64_eq hdvt he _ _ _ fun p hp => inInt64_iff.2 ?_
  rw [inInt64_iff] at htat hnt
  rw [int64Min_eq, int64Max_eq] at *
  simp only [if_pos hnow.1] at hp
  split_ifs at hp <;> cases hp <;> omega

/-- The quantities of `gcra`, one by one. -/
theorem Gcra.inRange_iff (g : Gcra) : g.InRange ↔
    InInt64 g.dvt ∧ InInt64 g.inc ∧ InInt64 g.newTat ∧ InInt64 g.allowAt ∧ InInt64 g.diff ∧
      (g.limited ∧ g.inc ≤ g.dvt → InInt64 (-g.diff)) ∧ InInt64 g.ttl ∧ InInt64 g.next := by
  unfold InRange intermediates
  split <;> simp_all

/-- From the tolerance and the increment on, `throttleDecision` answers `INVALID_INT` exactly
when a quantity of the GCRA leaves `int64_t`, and otherwise gives them. Each test of the code
catches the first quantity out of range. -/
theorem throttleDecision_eq_gcra (hdvt : 1 ≤ dvt ∧ dvt ≤ int64Max)
    (hinc : 0 ≤ inc ∧ inc ≤ int64Max) (hnow : 0 ≤ now ∧ now ≤ int64Max) (htat : InInt64 tat) :
    throttleDecision now tat inc dvt e =
      let g := Gcra.ofTolerance now tat inc dvt e
      if g.InRange then .ok g.result else .error .invalidInt := by
  dsimp only
  have hR := Gcra.inRange_iff (Gcra.ofTolerance now tat inc dvt e)
  simp only [Gcra.ofTolerance_dvt, Gcra.ofTolerance_inc, Gcra.ofTolerance_newTat,
    Gcra.ofTolerance_allowAt, Gcra.ofTolerance_diff, Gcra.ofTolerance_limited,
    Gcra.ofTolerance_ttl, Gcra.ofTolerance_next, inInt64_iff, decide_eq_true_eq] at hR
  rw [inInt64_iff] at htat
  rw [int64Max_eq] at hdvt hinc hnow
  unfold throttleDecision
  by_cases c1 : max tat now > int64Max - inc
  · -- the new arrival time
    rw [if_pos c1, if_neg fun hr => by have := (hR.1 hr).2.2.1; rw [int64Max_eq] at c1; omega]
  rw [if_neg c1]
  by_cases c2 : max tat now + inc < int64Min + dvt
  · -- the allow-at time
    rw [if_pos c2, if_neg fun hr => by have := (hR.1 hr).2.2.2.1; rw [int64Min_eq] at c2; omega]
  rw [if_neg c2]
  by_cases c3 : if max tat now + inc - dvt ≥ 0 then now < int64Min + (max tat now + inc - dvt)
      else now > int64Max + (max tat now + inc - dvt)
  · -- the difference to now
    rw [if_pos c3, if_neg fun hr => by
      have := (hR.1 hr).2.2.2.2.1; simp only [int64Min_eq, int64Max_eq] at c3
      split at c3 <;> omega]
  rw [if_neg c3]
  simp only [int64Min_eq, int64Max_eq] at c1 c2 c3
  have hdiff : -9223372036854775808 ≤ now - (max tat now + inc - dvt) ∧
      now - (max tat now + inc - dvt) ≤ 9223372036854775807 := by split at c3 <;> omega
  by_cases hd : now - (max tat now + inc - dvt) < 0
  · simp only [hd, decide_True, if_true, true_and] at hR ⊢
    by_cases c4 : inc ≤ dvt ∧ now - (max tat now + inc - dvt) = int64Min
    · -- the retry time
      rw [if_pos c4, if_neg fun hr => by
        have := (hR.1 hr).2.2.2.2.2.1 c4.1; rw [int64Min_eq] at c4; omega]
    rw [if_neg c4]
    by_cases c5 : if now ≥ 0 then tat < int64Min + now else tat > int64Max + now
    · -- the time to live
      rw [if_pos c5, if_neg fun hr => by
        have := (hR.1 hr).2.2.2.2.2.2.1; simp only [int64Min_eq, int64Max_eq] at c5
        split at c5 <;> omega]
    rw [if_neg c5]
    dsimp only
    by_cases c6 : tat - now < dvt - int64Max
    · -- the next free slot
      rw [if_pos c6, if_neg fun hr => by
        have := (hR.1 hr).2.2.2.2.2.2.2; rw [int64Max_eq] at c6; omega]
    rw [if_neg c6]
    simp only [int64Min_eq, int64Max_eq] at c4 c5 c6
    rw [if_pos (hR.2 ⟨by omega, by omega, by omega, by omega, hdiff,
      fun _ => by omega, by split at c5 <;> omega, by omega⟩)]
    simp [Gcra.result, hd]
  · simp only [hd, decide_False, Bool.false_eq_true, if_false, false_and] at hR ⊢
    by_cases c5 : if now ≥ 0 then max tat now + inc < int64Min + now
        else max tat now + inc > int64Max + now
    · -- the time to live
      rw [if_pos c5, if_neg fun hr => by
        have := (hR.1 hr).2.2.2.2.2.2.1; simp only [int64Min_eq, int64Max_eq] at c5
        split at c5 <;> omega]
    rw [if_neg c5]
    dsimp only
    by_cases c6 : max tat now + inc - now < dvt - int64Max
    · -- the next free slot
      rw [if_pos c6, if_neg fun hr => by
        have := (hR.1 hr).2.2.2.2.2.2.2; rw [int64Max_eq] at c6; omega]
    rw [if_neg c6]
    simp only [int64Min_eq, int64Max_eq] at c5 c6
    rw [if_pos (hR.2 ⟨by omega, by omega, by omega, by omega, hdiff,
      fun h => h.elim, by split at c5 <;> omega, by omega⟩)]
    simp [Gcra.result, hd]

end Decision

section Request

variable {limit e : Int} {q : Nat} {now tat : Int}

/-- The tolerance `emission_interval_ms * limit` fits in `int64_t` exactly when its test passes. -/
theorem dvt_le (hl : 1 ≤ limit) (c1 : ¬ e > int64Max.tdiv limit) : e * limit ≤ int64Max :=
  not_lt.1 (mt (gt_tdiv_iff (by omega)).2 c1)

/-- The increment `emission_interval_ms * quantity` fits in `int64_t` exactly when its test
passes. -/
theorem inc_le (c2 : ¬ (q ≠ 0 ∧ e > int64Max.tdiv q)) : e * q ≤ int64Max := by
  by_cases hq : q = 0
  · simp [hq, int64Max_eq]
  · exact not_lt.1 (mt (gt_tdiv_iff (by omega)).2 fun h => c2 ⟨hq, h⟩)

/-- On the domain `ClThrottle` passes, the tests before the lookup answer `INVALID_INT` exactly
when the tolerance or the increment leaves `int64_t`, and the rest is `throttleDecision_eq_gcra`. -/
theorem throttleArith_eq_gcra (hl : 1 ≤ limit) (he : 1 ≤ e ∧ e ≤ int64Max)
    (hnow : 0 ≤ now ∧ now ≤ int64Max) (htat : InInt64 tat) :
    throttleArith limit e q now tat =
      let g := gcra limit e q now tat
      if g.InRange then .ok g.result else .error .invalidInt := by
  unfold throttleArith gcra
  by_cases c1 : e > int64Max.tdiv limit
  · -- the tolerance
    rw [if_pos c1, if_neg fun hr => by
      have := ((Gcra.inRange_iff _).1 hr).1
      rw [Gcra.ofTolerance_dvt, InInt64] at this
      exact absurd this.2 (not_le.2 ((gt_tdiv_iff (by omega)).1 c1))]
  rw [if_neg c1]
  by_cases c2 : q ≠ 0 ∧ e > int64Max.tdiv q
  · -- the increment
    rw [if_pos c2, if_neg fun hr => by
      have := ((Gcra.inRange_iff _).1 hr).2.1
      rw [Gcra.ofTolerance_inc, InInt64] at this
      exact absurd this.2 (not_le.2 ((gt_tdiv_iff (by omega)).1 c2.2))]
  rw [if_neg c2]
  have h1 : 0 < e * limit := Int.mul_pos (by omega) (by omega)
  have h2 : 0 ≤ e * q := Int.mul_nonneg (by omega) (by omega)
  exact throttleDecision_eq_gcra ⟨by omega, dvt_le hl c1⟩ ⟨h2, inc_le c2⟩ hnow htat

/-- The arithmetic of `OpThrottle` on the machine: on the domain `ClThrottle` passes it evaluates
no overflowing operation, and computes what `throttleArith` computes. -/
theorem throttle64_eq (hl : 1 ≤ limit) (he : 1 ≤ e ∧ e ≤ int64Max) (hq : q < 2 ^ 64)
    (hnow : 0 ≤ now ∧ now ≤ int64Max) (htat : InInt64 tat) :
    throttle64 limit e q now tat = some (throttleArith limit e q now tat) := by
  unfold throttle64 throttleArith
  by_cases c1 : e > int64Max.tdiv limit
  · rw [if_pos c1, if_pos c1]
  have h1 : 0 < e * limit := Int.mul_pos (by omega) (by omega)
  have hdvt := dvt_le hl c1
  rw [if_neg c1, if_neg c1, mul64_of (inInt64_iff.2 (by rw [int64Max_eq] at hdvt; omega)),
    Option.some_bind]
  have he' : e % 2 ^ 64 = e := Int.emod_eq_of_lt (by omega) (by rw [int64Max_eq] at he; omega)
  have hq' : int64Max / (q : Int) = int64Max.tdiv q :=
    (Int.tdiv_eq_ediv (by rw [int64Max_eq]; omega) (by omega)).symm
  rw [he', hq']
  by_cases c2 : q ≠ 0 ∧ e > int64Max.tdiv q
  · rw [if_pos c2, if_pos c2]
  have h2 : 0 ≤ e * q := Int.mul_nonneg (by omega) (by omega)
  have hinc := inc_le c2
  rw [if_neg c2, if_neg c2,
    wrap64_of_inInt64 (inInt64_iff.2 (by rw [int64Max_eq] at hinc; omega)),
    throttleDecision64_eq ⟨by omega, hdvt⟩ ⟨h2, hinc⟩ hnow htat he]

end Request

section Op

variable (c : Ctx) (ins : Insertion) {t : DbTable} {k : String} (limit e : Int) (q : Nat)

/-- `OpThrottle` on a live key holding the arrival time `tat`: the reply of `throttleArith`, and
for a request let through, `tat` and the deadline set to the new arrival time. -/
theorem opThrottle_live {s : Slot} {tat : Int} (hp : t.prime k = some s)
    (hlive : ∀ d, t.expire k = some d → c.nowMs < d) (hv : string2ll s.value.str = some tat) :
    (opThrottle c ins t k limit e q).2.2 = (throttleArith limit e q c.nowMs tat).map (throttleReply limit) ∧
    ∀ r, throttleArith limit e q c.nowMs tat = .ok r → r.1 = false →
      (opThrottle c ins t k limit e q).1.valueStr k = toString r.2.1 ∧
        (opThrottle c ins t k limit e q).1.expire k = some r.2.1 := by
  unfold opThrottle throttleArith
  by_cases c1 : e > int64Max.tdiv limit
  · simp only [if_pos c1]; exact ⟨rfl, fun r h => by cases h⟩
  by_cases c2 : q ≠ 0 ∧ e > int64Max.tdiv q
  · simp only [if_neg c1, if_pos c2]; exact ⟨rfl, fun r h => by cases h⟩
  simp only [if_neg c1, if_neg c2, DbTable.findMutable_eq, DbTable.findInternal_live c hp hlive,
    Option.map_some', hp, Option.some_bind, hv]
  cases hd : throttleDecision c.nowMs tat (e * q) (e * limit) e with
  | error err => exact ⟨rfl, fun r h => by cases h⟩
  | ok r =>
    obtain ⟨limited, newTat, remaining, retry, reset⟩ := r
    refine ⟨rfl, fun r h hl => ?_⟩
    cases h
    subst hl
    simp only [Bool.false_eq_true, if_false, runUpdater_valueStr, runUpdater_expire]
    split <;> simp [DbTable.valueStr, DbTable.addExpire, hp]

/-- `OpThrottle` on a missing key: the arrival time is now; a request let through makes the key
through `DbSlice::AddNew`, with the new arrival time as its value and, unless it is `0`, its
deadline. -/
theorem opThrottle_absent (hk : t.prime k = none) (v : Option String) :
    (opThrottle c (.inserted v) t k limit e q).2.2 =
        (throttleArith limit e q c.nowMs c.nowMs).map (throttleReply limit) ∧
    ∀ r, throttleArith limit e q c.nowMs c.nowMs = .ok r → r.1 = false →
      (opThrottle c (.inserted v) t k limit e q).1.valueStr k = toString r.2.1 ∧
        (r.2.1 ≠ 0 → (opThrottle c (.inserted v) t k limit e q).1.expire k = some r.2.1) := by
  have hf : t.findMutable c k = (t, [], none) := by
    simp [DbTable.findMutable, DbTable.findInternal, hk]
  unfold opThrottle throttleArith
  by_cases c1 : e > int64Max.tdiv limit
  · simp only [if_pos c1]; exact ⟨rfl, fun r h => by cases h⟩
  by_cases c2 : q ≠ 0 ∧ e > int64Max.tdiv q
  · simp only [if_neg c1, if_pos c2]; exact ⟨rfl, fun r h => by cases h⟩
  simp only [if_neg c1, if_neg c2, hf]
  cases hd : throttleDecision c.nowMs c.nowMs (e * q) (e * limit) e with
  | error err => exact ⟨rfl, fun r h => by cases h⟩
  | ok r =>
    obtain ⟨limited, newTat, remaining, retry, reset⟩ := r
    cases limited
    · simp [DbTable.addNew, DbTable.addOrUpdateInternal, DbTable.addOrFind, DbTable.findInternal, hk,
        runUpdater_valueStr, runUpdater_expire]
      split_ifs <;> simp only [runUpdater_valueStr, runUpdater_expire] <;>
        simp_all [DbTable.valueStr, throttleReply, Except.map]
    · exact ⟨rfl, fun r h hl => by cases h; cases hl⟩

/-- `CL.THROTTLE` on every request `ClThrottle` passes (`limit ≥ 1`, `emission_interval_ms ≥ 1`,
a `uint64_t` quantity, `now_ms ≥ 0`) and every `int64_t` arrival time: the machine evaluates no
overflowing operation; the answer is `INVALID_INT` exactly when a quantity of the GCRA leaves
`int64_t`, and otherwise the GCRA's reply; `OpThrottle` replies with it, on a live key holding
the arrival time as on a missing key (arrival time now), and a request let through stores the new
arrival time as the value and the deadline (for a new key, a deadline `0` means none). -/
theorem throttle_exact (tat : Int) (hl : 1 ≤ limit) (he : 1 ≤ e ∧ e ≤ int64Max) (hq : q < 2 ^ 64)
    (hnow : 0 ≤ c.nowMs ∧ c.nowMs ≤ int64Max) (htat : InInt64 tat) :
    throttle64 limit e q c.nowMs tat = some (throttleArith limit e q c.nowMs tat) ∧
    throttleArith limit e q c.nowMs tat =
      (if (gcra limit e q c.nowMs tat).InRange then .ok (gcra limit e q c.nowMs tat).result
        else .error .invalidInt) ∧
    (∀ s, t.prime k = some s → (∀ d, t.expire k = some d → c.nowMs < d) →
      string2ll s.value.str = some tat →
      (opThrottle c ins t k limit e q).2.2 =
          (throttleArith limit e q c.nowMs tat).map (throttleReply limit) ∧
        ∀ r, throttleArith limit e q c.nowMs tat = .ok r → r.1 = false →
          (opThrottle c ins t k limit e q).1.valueStr k = toString r.2.1 ∧
            (opThrottle c ins t k limit e q).1.expire k = some r.2.1) ∧
    (t.prime k = none → tat = c.nowMs → ∀ v,
      (opThrottle c (.inserted v) t k limit e q).2.2 =
          (throttleArith limit e q c.nowMs tat).map (throttleReply limit) ∧
        ∀ r, throttleArith limit e q c.nowMs tat = .ok r → r.1 = false →
          (opThrottle c (.inserted v) t k limit e q).1.valueStr k = toString r.2.1 ∧
            (r.2.1 ≠ 0 → (opThrottle c (.inserted v) t k limit e q).1.expire k = some r.2.1)) :=
  ⟨throttle64_eq hl he hq hnow htat, throttleArith_eq_gcra hl he hnow htat,
    fun _ hp hlive hv => opThrottle_live c ins limit e q hp hlive hv,
    fun hk htn v => htn ▸ opThrottle_absent c limit e q hk v⟩

/-- A first request of one unit at one token per second on an empty database. -/
theorem throttle_exact_firstRequest :
    let c : Ctx := ⟨1000, true, ⟨fun _ => false, String.length, String.length, rfl⟩⟩
    1 ≤ (1 : Int) ∧ (1 ≤ (1000 : Int) ∧ (1000 : Int) ≤ int64Max) ∧ 1 < 2 ^ 64 ∧
      (0 ≤ c.nowMs ∧ c.nowMs ≤ int64Max) ∧ InInt64 1000 ∧
      (opThrottle c (.inserted none) DbTable.empty "k" 1 1000 1).2.2 =
        (throttleArith 1 1000 1 c.nowMs 1000).map (throttleReply 1) :=
  ⟨by decide, ⟨by decide, by decide⟩, by decide, ⟨by decide, by decide⟩, by decide,
    ((throttle_exact ⟨1000, true, ⟨fun _ => false, String.length, String.length, rfl⟩⟩
      (.inserted none) (t := DbTable.empty) (k := "k") 1 1000 1 1000 (by decide)
      ⟨by decide, by decide⟩ (by decide) ⟨by decide, by decide⟩ (by decide)).2.2.2 rfl rfl none).1⟩

end Op

end Dragonfly.Strings
