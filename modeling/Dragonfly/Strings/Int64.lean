import Dragonfly.Strings.Ops
import Dragonfly.Strings.Set

/-!
# The `int64_t` arithmetic of deadlines and counters

`ExpireParams::Calculate`, `OpIncrBy` and `DecrBy` compute with `int64_t` and `uint64_t`. A signed
`+`, `-`, `*` or negation whose exact result leaves `[INT64_MIN, INT64_MAX]` is undefined
behaviour: the checked operations `add64`, `sub64`, `mul64` and `neg64` return `none` there.
Unsigned arithmetic is taken modulo `2^64`, and the conversion of its result back to `int64_t`
is `wrap64`. The machine models below return `none` exactly when the code evaluates an
overflowing signed operation; elsewhere they are compared with the models over unbounded integers
(`ExpireParams.calculate`, `opIncrBy`).

## Main theorems

* `calculate_overflows`: `Calculate` overflows on the `SEC` values whose product with `1000` is
  below `INT64_MIN`, and on no other input. Where it does not, the absolute time is negative or the
  pair is the exact one, except for an absolute time so far in the past that `msec - now_ms` wraps
  and the cap then turns it into a deadline `kMaxExpireDeadlineMs` from now.
* `incrBy_exact`: `OpIncrBy` answers `OUT_OF_RANGE` exactly when the exact sum leaves `int64_t`,
  evaluates no overflowing operation, and otherwise stores the sum; `DecrBy` negates every value
  but `INT64_MIN`.
-/

namespace Dragonfly.Keys

open Strings

/-- The values of `int64_t`. -/
def InInt64 (x : Int) : Prop := int64Min ≤ x ∧ x ≤ int64Max

instance : DecidablePred InInt64 := fun _ => inferInstanceAs (Decidable (_ ∧ _))

/-- A signed operation whose exact result is `x`: `none` when it overflows. -/
def checked64 (x : Int) : Option Int := if InInt64 x then some x else none

/-- `a + b` on `int64_t`. -/
def add64 (a b : Int) : Option Int := checked64 (a + b)

/-- `a - b` on `int64_t`. -/
def sub64 (a b : Int) : Option Int := checked64 (a - b)

/-- `a * b` on `int64_t`. -/
def mul64 (a b : Int) : Option Int := checked64 (a * b)

/-- `-a` on `int64_t`. -/
def neg64 (a : Int) : Option Int := checked64 (-a)

/-- A `uint64_t` result converted to `int64_t`: two's complement. -/
def wrap64 (x : Int) : Int := (x + 2 ^ 63) % 2 ^ 64 - 2 ^ 63

/-! ## Algorithm -/

/-- `ExpireParams::Calculate(now_ms, cap)` as the machine evaluates it: `value * 1000` is an
`int64_t` product; `now_ms` is a `uint64_t`, so `msec - now_ms` and `now_ms + rel_msec` are
unsigned and wrap when converted back; `Cap` is the minimum with `maxMs`
(`kMaxExpireDeadlineMs`). -/
def ExpireParams.calculate64 (p : ExpireParams) (nowMs : Int) (cap : Bool) (maxMs : Int) :
    Option (Int × Int) :=
  if p.persist then some (0, 0)
  else if p.unit = .sec ∧ p.value > int64Max / 1000 then some (0, -1)
  else
    (if p.unit = .sec then mul64 p.value 1000 else some p.value).bind fun msec =>
      let rel := if p.absolute then wrap64 (msec - nowMs) else msec
      let rel := if cap then min rel maxMs else rel
      some (rel, wrap64 (nowMs + rel))

/-- The test and the sum of `OpIncrBy` on `long long`: `LLONG_MIN - prev` and `LLONG_MAX - prev`
are evaluated only when the signs before them hold (`&&` short-circuits). -/
def incrBy64 (prev incr : Int) : Option (Except OpStatus Int) :=
  (if incr < 0 ∧ prev < 0 then (sub64 int64Min prev).map (fun d => decide (incr < d))
    else some false).bind fun under =>
  (if incr > 0 ∧ prev > 0 then (sub64 int64Max prev).map (fun d => decide (incr > d))
    else some false).bind fun over =>
  if under || over then some (.error .outOfRange) else (add64 prev incr).map .ok

/-- What `DecrBy` does with its parsed argument: `INT64_MIN` is answered with `kIncrOverflow`
(`none`); any other value is negated on `int64_t` and passed to `IncrByGeneric`. -/
def decrBy (val : Int) : Option (Option Int) :=
  if val = int64Min then some none else (neg64 val).map some

/-! ## Lemmas -/

theorem int64Max_eq : int64Max = 9223372036854775807 := rfl

theorem int64Min_eq : int64Min = -9223372036854775808 := rfl

/-- What `TryGetInt` returns is a `long long`. -/
theorem inInt64_of_string2ll {str : String} {x : Int} (h : string2ll str = some x) : InInt64 x := by
  unfold string2ll at h
  split_ifs at h
  split at h
  · cases h; decide
  -- a numeral with or without its sign, within the bound its branch checks
  all_goals
    split_ifs at h
    cases h
    exact ⟨by simp only [int64Min]; omega, by simp only [int64Max]; omega⟩

theorem checked64_of_inInt64 {x : Int} (h : InInt64 x) : checked64 x = some x := if_pos h

theorem checked64_eq_none {x : Int} : checked64 x = none ↔ ¬ InInt64 x := by
  unfold checked64; split <;> simp_all

/-- `wrap64` changes nothing in `int64_t`. -/
theorem wrap64_of_inInt64 {x : Int} (h : InInt64 x) : wrap64 x = x := by
  unfold InInt64 at h; rw [int64Min_eq, int64Max_eq] at h; unfold wrap64; omega

/-- Past `INT64_MIN`, by less than `2^64`, `wrap64` adds `2^64`. -/
theorem wrap64_of_lt {x : Int} (h : x < int64Min) (h' : -2 ^ 63 - 2 ^ 64 ≤ x) :
    wrap64 x = x + 2 ^ 64 := by
  rw [int64Min_eq] at h; unfold wrap64; omega

/-- Past `INT64_MAX`, by less than `2^64`, `wrap64` takes `2^64` off. -/
theorem wrap64_of_gt {x : Int} (h : int64Max < x) (h' : x < 2 ^ 63 + 2 ^ 64) :
    wrap64 x = x - 2 ^ 64 := by
  rw [int64Max_eq] at h; unfold wrap64; omega

section Calculate

variable (p : ExpireParams) (nowMs : Int) (cap : Bool) (maxMs : Int)

/-- The milliseconds of a `SEC` value that passed the test of `Calculate`: the product overflows
only downwards. -/
theorem mul64_sec {v : Int} (hv : ¬ v > int64Max / 1000) :
    mul64 v 1000 = if v * 1000 < int64Min then none else some (v * 1000) := by
  unfold mul64 checked64 InInt64
  simp only [int64Max_eq, int64Min_eq] at *
  split_ifs <;> first | rfl | (exfalso; omega)

/-- The milliseconds of `Calculate`, when the product does not overflow, are the exact ones. -/
theorem msec_exact (hv : InInt64 p.value) {msec : Int}
    (hm : (if p.unit = .sec then mul64 p.value 1000 else some p.value) = some msec) :
    (if p.unit = .sec then p.value * 1000 else p.value) = msec ∧ InInt64 msec := by
  split at hm
  · simp only [mul64, checked64] at hm; split at hm <;> simp_all
  · simp_all

/-- `Calculate` overflows exactly on the `SEC` values whose milliseconds are below `INT64_MIN`. -/
theorem calculate64_eq_none :
    p.calculate64 nowMs cap maxMs = none ↔
      p.persist = false ∧ p.unit = .sec ∧ p.value * 1000 < int64Min := by
  unfold ExpireParams.calculate64
  by_cases hp : p.persist
  · simp [hp]
  by_cases hs : p.unit = .sec ∧ p.value > int64Max / 1000
  · rw [if_neg hp, if_pos hs]
    simp only [int64Min_eq, int64Max_eq] at hs ⊢
    simp only [reduceCtorEq, false_iff, not_and, not_lt]
    intros; omega
  rw [if_neg hp, if_neg hs]
  simp only [Bool.not_eq_true] at hp
  cases hu : p.unit
  · have hv : ¬ p.value > int64Max / 1000 := fun h => hs ⟨hu, h⟩
    rw [if_pos rfl, mul64_sec hv]
    split_ifs with hlt <;> simp [hp, hlt]
  · simp [hp]

/-- Where `Calculate` does not overflow, the absolute time is negative, or the pair is the one of
exact arithmetic, or `msec - now_ms` wrapped and the cap gave `(maxMs, now_ms + maxMs)`, where the
exact absolute time is negative. -/
theorem calculate64_sound (hv : InInt64 p.value) (hnow : 0 ≤ nowMs ∧ nowMs < 2 ^ 62)
    (hmax : 0 ≤ maxMs ∧ maxMs ≤ int64Max) {rel abs : Int}
    (h : p.calculate64 nowMs cap maxMs = some (rel, abs)) :
    abs < 0 ∨ (rel, abs) = p.calculate nowMs cap maxMs ∨
      (cap ∧ p.absolute ∧ rel = maxMs ∧ abs = nowMs + maxMs ∧ (p.calculate nowMs cap maxMs).2 < 0) := by
  unfold ExpireParams.calculate64 at h
  unfold ExpireParams.calculate
  by_cases hp : p.persist
  · rw [if_pos hp] at h ⊢
    cases h
    exact .inr (.inl rfl)
  by_cases hs : p.unit = .sec ∧ p.value > int64Max / 1000
  · rw [if_neg hp, if_pos hs] at h
    cases h
    exact .inl (by decide)
  rw [if_neg hp, if_neg hs] at h ⊢
  obtain ⟨msec, hm, h⟩ := Option.bind_eq_some.1 h
  obtain ⟨hme, hmr⟩ := msec_exact p hv hm
  simp only [Option.some.injEq, Prod.mk.injEq] at h
  obtain ⟨rfl, rfl⟩ := h
  rw [hme]
  unfold InInt64 at hmr
  simp only [int64Min_eq, int64Max_eq] at hmr hmax
  unfold wrap64
  cases cap <;> cases p.absolute <;> simp only [Bool.false_eq_true, if_true, if_false,
    Prod.mk.injEq, true_and, false_and, or_false] <;> omega

/-- `ExpireParams::Calculate` on every `int64_t` value, every unit, absolute flag and cap, and
every `now_ms` in `[0, 2^62)`: it overflows exactly on the `SEC` values whose milliseconds are
below `INT64_MIN`; otherwise the absolute time is negative, or the pair is the one of exact
arithmetic, or `msec - now_ms` wrapped and the cap made a deadline `kMaxExpireDeadlineMs` from now
where the exact absolute time is negative. -/
theorem calculate_overflows (hv : InInt64 p.value) (hnow : 0 ≤ nowMs ∧ nowMs < 2 ^ 62)
    (hmax : 0 ≤ maxMs ∧ maxMs ≤ int64Max) :
    (p.calculate64 nowMs cap maxMs = none ↔
      p.persist = false ∧ p.unit = .sec ∧ p.value * 1000 < int64Min) ∧
    ∀ rel abs, p.calculate64 nowMs cap maxMs = some (rel, abs) →
      abs < 0 ∨ (rel, abs) = p.calculate nowMs cap maxMs ∨
        (cap ∧ p.absolute ∧ rel = maxMs ∧ abs = nowMs + maxMs ∧
          (p.calculate nowMs cap maxMs).2 < 0) :=
  ⟨calculate64_eq_none p nowMs cap maxMs, fun _ _ => calculate64_sound p nowMs cap maxMs hv hnow hmax⟩

/-- An absolute time in milliseconds below `INT64_MIN + now_ms`: `msec - now_ms` wraps to a
large positive value, which the cap turns into `kMaxExpireDeadlineMs`. -/
example : (⟨int64Min, .msec, true, false, false, false, false, false⟩ : ExpireParams).calculate64
    1 true 1000 = some (1000, 1001) := by decide

/-- `GAT` with `exptime = 2^63`: the cast gives `INT64_MIN` seconds, whose product with `1000`
overflows. -/
theorem calculate_overflows_gatMin :
    InInt64 int64Min ∧ (0 ≤ (0 : Int) ∧ (0 : Int) < 2 ^ 62) ∧ (0 ≤ (0 : Int) ∧ (0 : Int) ≤ int64Max) ∧
      (gatParams .sec int64Min).calculate64 0 false 0 = none :=
  ⟨by decide, by decide, by decide,
    (calculate_overflows (gatParams .sec int64Min) 0 false 0 (by decide) (by decide)
      (by decide)).1.2 ⟨rfl, rfl, by decide⟩⟩

end Calculate

section IncrBy

variable {prev incr : Int}

/-- The test of `OpIncrBy` over exact integers holds exactly when the sum leaves `int64_t`. -/
theorem incrOverflow_iff (hp : InInt64 prev) (hi : InInt64 incr) :
    ((incr < 0 ∧ prev < 0 ∧ incr < int64Min - prev) ∨ (incr > 0 ∧ prev > 0 ∧ incr > int64Max - prev))
      ↔ ¬ InInt64 (prev + incr) := by
  unfold InInt64 at *; rw [int64Min_eq, int64Max_eq] at *; omega

/-- On `int64_t` operands `OpIncrBy` evaluates no overflowing operation, and answers
`OUT_OF_RANGE` exactly when the sum leaves `int64_t`. -/
theorem incrBy64_eq (hp : InInt64 prev) (hi : InInt64 incr) :
    incrBy64 prev incr =
      some (if InInt64 (prev + incr) then .ok (prev + incr) else .error .outOfRange) := by
  have hr := incrOverflow_iff hp hi
  unfold InInt64 at hp hi
  rw [int64Min_eq, int64Max_eq] at hp hi
  have hu : (if incr < 0 ∧ prev < 0 then (sub64 int64Min prev).map (fun d => decide (incr < d))
      else some false) = some (decide (incr < 0 ∧ prev < 0 ∧ incr < int64Min - prev)) := by
    split_ifs with h
    · rw [sub64, checked64_of_inInt64 (by unfold InInt64; rw [int64Min_eq, int64Max_eq]; omega)]
      simp [h]
    · rw [decide_eq_false fun hc => h ⟨hc.1, hc.2.1⟩]
  have ho : (if incr > 0 ∧ prev > 0 then (sub64 int64Max prev).map (fun d => decide (incr > d))
      else some false) = some (decide (incr > 0 ∧ prev > 0 ∧ incr > int64Max - prev)) := by
    split_ifs with h
    · rw [sub64, checked64_of_inInt64 (by unfold InInt64; rw [int64Min_eq, int64Max_eq]; omega)]
      simp [h]
    · rw [decide_eq_false fun hc => h ⟨hc.1, hc.2.1⟩]
  simp only [incrBy64, hu, ho, Option.some_bind, ← Bool.decide_or, hr, decide_eq_true_eq]
  split_ifs with h
  · rw [add64, checked64_of_inInt64 h]; rfl
  · rfl

/-- `DecrBy` negates every `int64_t` but `INT64_MIN`, without overflow. -/
theorem decrBy_eq (hv : InInt64 incr) :
    decrBy incr = some (if incr = int64Min then none else some (-incr)) := by
  unfold decrBy neg64 checked64 InInt64 at *
  split_ifs <;> simp only [int64Min_eq, int64Max_eq] at * <;> first | rfl | omega

end IncrBy

end Dragonfly.Keys

namespace Dragonfly.Strings

open Keys

variable (c : Ctx) (ins : Insertion) {t : DbTable} {k : String} (incr : Int) (skip : Bool)

/-- `OpIncrBy` on a live key whose value is the integer `prev`. -/
theorem opIncrBy_live {s : Slot} {prev : Int} (hp : t.prime k = some s)
    (hlive : ∀ d, t.expire k = some d → c.nowMs < d) (hv : string2ll s.value.str = some prev) :
    opIncrBy c ins t k incr skip =
      let u : AutoUpdater := ⟨k, c.sz.valueMalloc s.value.str⟩
      if (incr < 0 ∧ prev < 0 ∧ incr < int64Min - prev) ∨
          (incr > 0 ∧ prev > 0 ∧ incr > int64Max - prev) then
        (t.runUpdater c.sz u, [], .error .outOfRange)
      else ((t.setString k (toString (prev + incr))).runUpdater c.sz u, [], .ok (prev + incr)) := by
  have hs : t.valueStr k = s.value.str := by simp [DbTable.valueStr, hp]
  simp only [opIncrBy, DbTable.findMutable_eq, DbTable.findInternal_live c hp hlive, Option.map_some',
    hs, hv]

/-- `OpIncrBy` on a missing key: `KEY_NOTFOUND` for memcache, otherwise the key made by `AddNew`
with the value `incr`, unless the insertion is rejected. -/
theorem opIncrBy_absent (hk : t.prime k = none) :
    (opIncrBy c ins t k incr skip).2.2 =
      if skip then .error .keyNotFound else if ins = .rejected then .error .outOfMemory else .ok incr := by
  have hf : t.findMutable c k = (t, [], none) := by
    simp [DbTable.findMutable, DbTable.findInternal, hk]
  simp only [opIncrBy, hf]
  cases skip
  · cases ins with
    | rejected => simp [DbTable.addNew, DbTable.addOrUpdateInternal, DbTable.addOrFind,
        DbTable.findInternal, hk]
    | inserted v => simp [DbTable.addNew, DbTable.addOrUpdateInternal, DbTable.addOrFind,
        DbTable.findInternal, hk]
  · rfl

/-- The key `OpIncrBy` makes for a missing key holds `incr`. -/
theorem opIncrBy_absent_value (hk : t.prime k = none) (v : Option String) :
    (opIncrBy c (.inserted v) t k incr false).1.valueStr k = toString incr := by
  have hf : t.findMutable c k = (t, [], none) := by
    simp [DbTable.findMutable, DbTable.findInternal, hk]
  simp [opIncrBy, hf, DbTable.addNew, DbTable.addOrUpdateInternal, DbTable.addOrFind,
    DbTable.findInternal, hk, runUpdater_valueStr]
  split <;> simp [DbTable.valueStr]

/-- `INCR`, `DECR`, `INCRBY` and `DECRBY` on `int64_t`: the test and the sum of `OpIncrBy`
overflow on no `int64_t` operands and answer `OUT_OF_RANGE` exactly when the exact sum leaves
`int64_t`; a live key holding `prev` then gets the sum; a missing key is made with `incr`, or
answered `KEY_NOTFOUND` for memcache; `DecrBy` rejects `INT64_MIN` and passes `-val` otherwise. -/
theorem incrBy_exact (hi : InInt64 incr) :
    (∀ prev, InInt64 prev → incrBy64 prev incr =
      some (if InInt64 (prev + incr) then .ok (prev + incr) else .error .outOfRange)) ∧
    (∀ s prev, t.prime k = some s → (∀ d, t.expire k = some d → c.nowMs < d) →
      string2ll s.value.str = some prev →
      (opIncrBy c ins t k incr skip).2.2 =
          (if InInt64 (prev + incr) then .ok (prev + incr) else .error .outOfRange) ∧
        (opIncrBy c ins t k incr skip).1.valueStr k =
          (if InInt64 (prev + incr) then toString (prev + incr) else s.value.str)) ∧
    (t.prime k = none →
      (opIncrBy c ins t k incr skip).2.2 =
          (if skip then .error .keyNotFound else if ins = .rejected then .error .outOfMemory
            else .ok incr) ∧
        ∀ v, (opIncrBy c (.inserted v) t k incr false).1.valueStr k = toString incr) ∧
    decrBy incr = some (if incr = int64Min then none else some (-incr)) := by
  refine ⟨fun prev hp => incrBy64_eq hp hi, fun s prev hp hlive hv => ?_,
    fun hk => ⟨opIncrBy_absent c ins incr skip hk, opIncrBy_absent_value c incr hk⟩, decrBy_eq hi⟩
  have hs : t.valueStr k = s.value.str := by simp [DbTable.valueStr, hp]
  have hprev := inInt64_of_string2ll hv
  rw [opIncrBy_live c ins incr skip hp hlive hv]
  by_cases ho : InInt64 (prev + incr)
  · have hn := mt (incrOverflow_iff hprev hi).1 (not_not.2 ho)
    simp only [if_neg hn, if_pos ho, runUpdater_valueStr]
    simp [DbTable.setString, DbTable.valueStr, hp]
  · simp only [if_pos ((incrOverflow_iff hprev hi).2 ho), if_neg ho, runUpdater_valueStr, hs,
      and_self]

/-- `INCRBY k 5` on a missing key of an empty database. -/
theorem incrBy_exact_five :
    InInt64 5 ∧ (opIncrBy ⟨0, true, ⟨fun _ => false, String.length, String.length, rfl⟩⟩
      (.inserted none) DbTable.empty "k" 5 false).2.2 = .ok 5 :=
  ⟨by decide, ((incrBy_exact ⟨0, true, ⟨fun _ => false, String.length, String.length, rfl⟩⟩
    (.inserted none) (t := DbTable.empty) (k := "k") 5 false (by decide)).2.2.1 rfl).1⟩

end Dragonfly.Strings
