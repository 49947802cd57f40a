import Mathlib.Data.List.FinRange
import Dragonfly.Keys.Budget
import Dragonfly.Keys.Consistency

/-!
# Expiry sweeps: `ExpireAllIfNeeded` and `GarbageCollect`

`DbSlice::ExpireAllIfNeeded` goes through the databases in order and traverses each expire table
(`db.expire.Traverse` until the cursor comes back to `0`). At every entry its callback looks the
key up in the prime table (a miss is logged with `DFATAL` and skipped) and runs `ExpireIfNeeded`
at `GetCurrentTimeMs()`, read afresh at each entry; `ExpireIfNeeded` in turn skips a value
without `HasExpire`, and deletes the key through `PerformDeletionAtomic` when its deadline has
passed and expiry is allowed.

`PrimeEvictionPolicy::GarbageCollect`, which the prime table calls when an insertion finds its
buckets full, runs `ExpireIfNeeded` at the policy's fixed `cntx_` on every slot of the first
`kRegularBuckets` hot buckets whose value has `HasExpire`, counting those in `checked_` and the
deleted ones in its result; it does nothing when a journal write would block.

Which entries a traversal visits, and in which order, belongs to the dash table, outside the
sources: here it is a list of visits `(key, time)` per database; the hot buckets are lists of
keys. The databases' tables are those of `Keys/Table.lean` and the memory budget that of
`Keys/Budget.lean`.

## Main theorem

`expireAllIfNeeded_sweeps`: when every traversal visits every key its expire table holds at the
start, no later than time `T`, and expiry is allowed, `ExpireAllIfNeeded` leaves no key whose
deadline is at or before `T`, keeps every key whose deadline is after each of its database's
visits, keeps the tables agreeing, and keeps the memory total.

`garbageCollect_counts`: `GarbageCollect` deletes exactly the scanned keys whose deadline has
passed, returns their number and keeps the memory total.
-/

namespace Dragonfly.Keys

/-! ## Algorithm -/

namespace DbTable

/-- The traversal callback of `ExpireAllIfNeeded` on one table, at the expire entry of `k` and at
time `now`. -/
def expireAllVisit (t : DbTable) (c : Ctx) (k : String) (now : Int) : DbTable × List JournalEntry :=
  match t.prime k with
  | none => (t, [])
  | some sl =>
    if sl.value.hasExpire then
      let (t', j, _) := t.expireIfNeeded { c with nowMs := now } k
      (t', j)
    else (t, [])

/-- The traversal of one expire table, through its visits in order. -/
def expireAllDb (t : DbTable) (c : Ctx) : List (String × Int) → DbTable × List JournalEntry
  | [] => (t, [])
  | (k, now) :: vs =>
    let (t1, j1) := t.expireAllVisit c k now
    let (t2, j2) := expireAllDb t1 c vs
    (t2, j1 ++ j2)

/-- Whether `ExpireIfNeeded` at `c` deletes `k`: expiry is allowed and the deadline is at or before
`c.nowMs`. -/
def deadlinePassed (t : DbTable) (c : Ctx) (k : String) : Bool :=
  c.expireAllowed && (t.expire k).any fun d => decide (d ≤ c.nowMs)

end DbTable

namespace Shard

variable {n : Nat}

/-- The traversal callback of `ExpireAllIfNeeded` in database `i`, with the memory budget. -/
def expireAllVisit (s : Shard n) (i : Fin n) (c : Ctx) (k : String) (now : Int) : Shard n :=
  match (s.dbArr i).prime k with
  | none => s
  | some sl => if sl.value.hasExpire then (s.expireIfNeeded i { c with nowMs := now } k).1 else s

/-- The traversal of database `i`'s expire table. -/
def expireAllDb (s : Shard n) (i : Fin n) (c : Ctx) : List (String × Int) → Shard n
  | [] => s
  | (k, now) :: vs => expireAllDb (s.expireAllVisit i c k now) i c vs

/-- `DbSlice::ExpireAllIfNeeded`: database after database, each through its traversal's visits. -/
def expireAllIfNeeded (s : Shard n) (c : Ctx) (visits : Fin n → List (String × Int)) : Shard n :=
  (List.finRange n).foldl (fun s i => s.expireAllDb i c (visits i)) s

/-- One slot of `PrimeEvictionPolicy::GarbageCollect`'s loop over database `i`, with the result so
far and `checked_`: a value with `HasExpire` is counted in `checked_` and goes through
`ExpireIfNeeded`, and the result counts the keys it deleted (`prime_it.is_done()`). -/
def gcVisit (i : Fin n) (c : Ctx) : Shard n × Nat × Nat → String → Shard n × Nat × Nat
  | (s, res, checked), k =>
    match (s.dbArr i).prime k with
    | none => (s, res, checked)
    | some sl =>
      if sl.value.hasExpire then
        match s.expireIfNeeded i c k with
        | (s', true) => (s', res, checked + 1)
        | (s', false) => (s', res + 1, checked + 1)
      else (s, res, checked)

/-- `PrimeEvictionPolicy::GarbageCollect` on database `i` (the policy's `cntx_`), given the keys of
the hot buckets `eb` in order and `checked_`: nothing when a journal write would block, otherwise
the slots of the first `kRegularBuckets` buckets (`regularBuckets`, a constant of the dash table).
The new state, the result and `checked_`. -/
def garbageCollect (s : Shard n) (i : Fin n) (c : Ctx) (willBlockOnJournalWrite : Bool)
    (regularBuckets : Nat) (buckets : List (List String)) (checked : Nat) : Shard n × Nat × Nat :=
  if willBlockOnJournalWrite then (s, 0, checked)
  else ((buckets.take regularBuckets).flatten).foldl (gcVisit i c) (s, 0, checked)

end Shard

/-! ## Lemmas -/

section Table

open DbTable

variable {t : DbTable} {c : Ctx} {k k' : String} {now : Int}

/-- A visit deletes the key, when its deadline has passed and expiry is allowed, or does
nothing. -/
theorem expireAllVisit_cases (t : DbTable) (c : Ctx) (k : String) (now : Int) :
    (t.expireAllVisit c k now).1 = t ∨
      ∃ d, t.expire k = some d ∧ d ≤ now ∧ c.expireAllowed = true ∧
        (t.expireAllVisit c k now).1 = t.performDeletionAtomic c.sz k true := by
  unfold expireAllVisit
  cases t.prime k with
  | none => exact .inl rfl
  | some sl =>
    dsimp only
    split_ifs
    · unfold expireIfNeeded
      cases he : t.expire k with
      | none => exact .inl rfl
      | some d =>
        dsimp only
        split_ifs with hd
        · exact .inl rfl
        · simp only [not_or, not_lt, Bool.not_eq_false] at hd
          exact .inr ⟨d, rfl, hd.1, hd.2, rfl⟩
    · exact .inl rfl

/-- A key with a deadline that has passed is deleted by its visit. -/
theorem expireAllVisit_of_le (h : TablesAgree t) {d : Int} (he : t.expire k = some d)
    (hd : d ≤ now) (ha : c.expireAllowed = true) :
    (t.expireAllVisit c k now).1.prime k = none ∧ (t.expireAllVisit c k now).1.expire k = none := by
  cases hp : t.prime k with
  | none => have := (h.absent hp).1; rw [he] at this; cases this
  | some sl =>
  have hk := h k
  simp only [hp, he, KeyAgrees, Option.isSome_some] at hk
  have hx : sl.value.hasExpire = true := hk.1
  have hv : (t.expireAllVisit c k now).1 = t.performDeletionAtomic c.sz k true := by
    simp [expireAllVisit, expireIfNeeded, hp, hx, he, ha, not_lt.2 hd]
  rw [hv, performDeletionAtomic_prime _ hp, performDeletionAtomic_expire _ hp]
  simp

/-- Entries only leave: what a visit leaves at a key was there before. -/
theorem expireAllVisit_prime {sl : Slot} (h : (t.expireAllVisit c k now).1.prime k' = some sl) :
    t.prime k' = some sl := by
  rcases expireAllVisit_cases t c k now with hv | ⟨d, -, -, -, hv⟩
  · rwa [hv] at h
  · rw [hv] at h
    cases hp : t.prime k with
    | none => rwa [performDeletionAtomic_of_none _ hp] at h
    | some s =>
      rw [performDeletionAtomic_prime _ hp] at h
      by_cases hk : k' = k
      · subst hk; simp at h
      · simpa [hk] using h

theorem expireAllVisit_expire {d : Int} (h : (t.expireAllVisit c k now).1.expire k' = some d) :
    t.expire k' = some d := by
  rcases expireAllVisit_cases t c k now with hv | ⟨d', -, -, -, hv⟩
  · rwa [hv] at h
  · rw [hv] at h
    cases hp : t.prime k with
    | none => rwa [performDeletionAtomic_of_none _ hp] at h
    | some s =>
      rw [performDeletionAtomic_expire _ hp] at h
      by_cases hk : k' = k
      · subst hk; simp at h
      · simpa [hk] using h

theorem TablesAgree.expireAllVisit (h : TablesAgree t) (c : Ctx) (k : String) (now : Int) :
    TablesAgree (t.expireAllVisit c k now).1 := by
  rcases expireAllVisit_cases t c k now with hv | ⟨d, he, -, -, hv⟩
  · rwa [hv]
  · rw [hv]; simpa [he] using h.performDeletionAtomic c.sz k

/-- A visit keeps every key whose deadline, if any, is after the visit. -/
theorem expireAllVisit_prime_of_lt (hl : ∀ d, t.expire k' = some d → now < d) :
    (t.expireAllVisit c k now).1.prime k' = t.prime k' := by
  rcases expireAllVisit_cases t c k now with hv | ⟨d, he, hd, -, hv⟩
  · rw [hv]
  · by_cases hk : k' = k
    · subst hk; exact absurd (hl d he) (not_lt.2 hd)
    · rw [hv]
      cases hp : t.prime k with
      | none => rw [performDeletionAtomic_of_none _ hp]
      | some s => simp [performDeletionAtomic_prime _ hp, hk]

/-! ### The traversal of one table -/

variable {vs : List (String × Int)}

theorem expireAllDb_prime {sl : Slot} (h : (t.expireAllDb c vs).1.prime k' = some sl) :
    t.prime k' = some sl := by
  induction vs generalizing t with
  | nil => exact h
  | cons v vs ih => exact expireAllVisit_prime (ih h)

theorem expireAllDb_expire {d : Int} (h : (t.expireAllDb c vs).1.expire k' = some d) :
    t.expire k' = some d := by
  induction vs generalizing t with
  | nil => exact h
  | cons v vs ih => exact expireAllVisit_expire (ih h)

theorem TablesAgree.expireAllDb (h : TablesAgree t) (c : Ctx) (vs : List (String × Int)) :
    TablesAgree (t.expireAllDb c vs).1 := by
  induction vs generalizing t with
  | nil => exact h
  | cons v vs ih => exact ih (h.expireAllVisit c v.1 v.2)

/-- A key visited at or after its deadline is gone at the end of the traversal. -/
theorem expireAllDb_of_le (h : TablesAgree t) (ha : c.expireAllowed = true) {d : Int}
    (hv : (k, now) ∈ vs) (he : t.expire k = some d) (hd : d ≤ now) :
    (t.expireAllDb c vs).1.expire k = none := by
  induction vs generalizing t with
  | nil => simp at hv
  | cons v vs ih =>
    show ((t.expireAllVisit c v.1 v.2).1.expireAllDb c vs).1.expire k = none
    cases hx : (t.expireAllVisit c v.1 v.2).1.expire k with
    | none =>
      cases hf : ((t.expireAllVisit c v.1 v.2).1.expireAllDb c vs).1.expire k with
      | none => rfl
      | some d' => rw [expireAllDb_expire hf] at hx; cases hx
    | some d' =>
      rcases List.mem_cons.1 hv with rfl | hv
      · rw [(expireAllVisit_of_le h he hd ha).2] at hx; cases hx
      · rw [expireAllVisit_expire hx] at he
        cases he
        exact ih (h.expireAllVisit c v.1 v.2) hv hx

/-- A key whose deadline, if any, is after every visit keeps its slot. -/
theorem expireAllDb_prime_of_lt (hl : ∀ d, t.expire k' = some d → ∀ v ∈ vs, v.2 < d) :
    (t.expireAllDb c vs).1.prime k' = t.prime k' := by
  induction vs generalizing t with
  | nil => rfl
  | cons v vs ih =>
    show ((t.expireAllVisit c v.1 v.2).1.expireAllDb c vs).1.prime k' = _
    rw [ih fun d hd w hw => hl d (expireAllVisit_expire hd) w (.tail _ hw),
      expireAllVisit_prime_of_lt fun d hd => hl d hd v (.head _)]

end Table

namespace Shard

variable {n : Nat} {s : Shard n} {i : Fin n} {c : Ctx} {k : String} {now : Int}

/-- The databases of the shard's traversal are those of the table's. -/
theorem expireAllVisit_dbArr :
    (s.expireAllVisit i c k now).dbArr =
      Function.update s.dbArr i ((s.dbArr i).expireAllVisit c k now).1 := by
  unfold expireAllVisit DbTable.expireAllVisit
  split
  · next hp => simp [hp]
  · next sl hp =>
    simp only [hp]
    split
    · exact (expireIfNeeded_eq _).1
    · simp

theorem expireAllDb_dbArr (vs : List (String × Int)) :
    (s.expireAllDb i c vs).dbArr = Function.update s.dbArr i ((s.dbArr i).expireAllDb c vs).1 := by
  induction vs generalizing s with
  | nil => simp [expireAllDb, DbTable.expireAllDb]
  | cons v vs ih =>
    show (expireAllDb (s.expireAllVisit i c v.1 v.2) i c vs).dbArr = _
    rw [ih, expireAllVisit_dbArr, Function.update_same, Function.update_idem]
    rfl

/-- Database `j` after the traversals of the databases `is`, each once. -/
theorem foldl_expireAllDb_dbArr (visits : Fin n → List (String × Int)) (j : Fin n) :
    ∀ (is : List (Fin n)) (s : Shard n), is.Nodup →
      (is.foldl (fun s i => s.expireAllDb i c (visits i)) s).dbArr j =
        if j ∈ is then ((s.dbArr j).expireAllDb c (visits j)).1 else s.dbArr j
  | [], _, _ => by simp
  | i :: is, s, hnd => by
    rw [List.foldl_cons, foldl_expireAllDb_dbArr visits j is _ (List.nodup_cons.1 hnd).2,
      expireAllDb_dbArr]
    by_cases hj : j = i
    · subst hj
      simp [(List.nodup_cons.1 hnd).1]
    · simp [hj]

section InlineFree

variable (hinl : ∀ k, c.sz.keyInline k = true → c.sz.keyMalloc k = 0)
include hinl

theorem total_expireAllVisit : (s.expireAllVisit i c k now).total = s.total := by
  unfold expireAllVisit
  split
  · rfl
  · split
    · exact total_expireIfNeeded (c := { c with nowMs := now }) hinl
    · rfl

theorem total_expireAllDb (vs : List (String × Int)) : (s.expireAllDb i c vs).total = s.total := by
  induction vs generalizing s with
  | nil => rfl
  | cons v vs ih => exact (ih).trans (total_expireAllVisit hinl)

theorem total_foldl_expireAllDb (visits : Fin n → List (String × Int)) :
    ∀ (is : List (Fin n)) (s : Shard n),
      (is.foldl (fun s i => s.expireAllDb i c (visits i)) s).total = s.total
  | [], _ => rfl
  | _ :: is, _ => (total_foldl_expireAllDb visits is _).trans (total_expireAllDb hinl _)

end InlineFree

theorem expireAllIfNeeded_dbArr (visits : Fin n → List (String × Int)) (j : Fin n) :
    (s.expireAllIfNeeded c visits).dbArr j = ((s.dbArr j).expireAllDb c (visits j)).1 := by
  rw [expireAllIfNeeded, foldl_expireAllDb_dbArr visits j _ s (List.nodup_finRange n),
    if_pos (List.mem_finRange j)]

end Shard

theorem expireAllIfNeeded_sweeps {n : Nat} (s : Shard n) (c : Ctx) (visits : Fin n → List (String × Int))
    (T : Int) (hinl : ∀ k, c.sz.keyInline k = true → c.sz.keyMalloc k = 0)
    (hagree : ∀ i, TablesAgree (s.dbArr i)) (ha : c.expireAllowed = true)
    (hcover : ∀ i k d, (s.dbArr i).expire k = some d → ∃ now, (k, now) ∈ visits i)
    (hnow : ∀ i, ∀ v ∈ visits i, T ≤ v.2) :
    let s' := s.expireAllIfNeeded c visits
    s'.total = s.total ∧ (∀ i, TablesAgree (s'.dbArr i)) ∧
      (∀ i k d, (s'.dbArr i).expire k = some d → T < d) ∧
      (∀ i k, (∀ d, (s.dbArr i).expire k = some d → ∀ v ∈ visits i, v.2 < d) →
        (s'.dbArr i).prime k = (s.dbArr i).prime k) := by
  intro s'
  refine ⟨Shard.total_foldl_expireAllDb hinl visits _ s, fun i => ?_, fun i k d h => ?_,
    fun i k hl => ?_⟩
  · rw [Shard.expireAllIfNeeded_dbArr]; exact (hagree i).expireAllDb c (visits i)
  · rw [Shard.expireAllIfNeeded_dbArr] at h
    have he := expireAllDb_expire h
    obtain ⟨now, hv⟩ := hcover i k d he
    by_contra hd
    have hgone := expireAllDb_of_le (hagree i) ha hv he (le_trans (not_lt.1 hd) (hnow i _ hv))
    rw [hgone] at h
    cases h
  · rw [Shard.expireAllIfNeeded_dbArr]; exact expireAllDb_prime_of_lt hl

/-- A table holding `k`, whose value has `HasExpire`, with deadline `5`. -/
def oneKeyTable : DbTable :=
  (DbTable.empty.insertKey "k" ⟨false, ⟨"v", true, false⟩⟩).setExpire "k" (some 5)

theorem tablesAgree_oneKeyTable : TablesAgree oneKeyTable := fun k => by
  by_cases hk : k = "k" <;> simp [oneKeyTable, KeyAgrees, DbTable.empty, hk]

/-- One database holding `k` with deadline `5`, swept at time `10`. -/
theorem expireAllIfNeeded_sweeps_oneKey :
    let s : Shard 1 := ⟨fun _ => oneKeyTable, 0, 0⟩
    let s' := s.expireAllIfNeeded ⟨0, true, ⟨fun _ => false, fun _ => 0, fun _ => 0, rfl⟩⟩
      fun _ => [("k", 10)]
    s'.total = s.total ∧ (∀ i, TablesAgree (s'.dbArr i)) ∧
      (∀ i k d, (s'.dbArr i).expire k = some d → 10 < d) ∧
      (∀ i k, (∀ d, (s.dbArr i).expire k = some d → ∀ v ∈ [("k", (10 : Int))], v.2 < d) →
        (s'.dbArr i).prime k = (s.dbArr i).prime k) :=
  have hcover : ∀ (i : Fin 1) k d, oneKeyTable.expire k = some d →
      ∃ now, (k, now) ∈ [("k", (10 : Int))] := fun _ k d h => by
    by_cases hk : k = "k"
    · exact ⟨10, by simp [hk]⟩
    · simp [oneKeyTable, DbTable.empty, hk] at h
  expireAllIfNeeded_sweeps _ _ _ 10 (fun _ h => Bool.noConfusion h)
    (fun _ => tablesAgree_oneKeyTable) rfl hcover (by simp)

/-! ### `GarbageCollect` -/

namespace Shard

variable {n : Nat} {s : Shard n} {i : Fin n} {c : Ctx} {k : String} {res checked : Nat}

/-- A slot whose key has a deadline is checked; its key is deleted and counted when the deadline
has passed. -/
theorem gcVisit_eq {sl : Slot} (h : TablesAgree (s.dbArr i)) (hp : (s.dbArr i).prime k = some sl) :
    gcVisit i c (s, res, checked) k =
      if ((s.dbArr i).expire k).isSome then
        if (s.dbArr i).deadlinePassed c k then
          (s.performDeletionAtomic i c.sz k true, res + 1, checked + 1)
        else (s, res, checked + 1)
      else (s, res, checked) := by
  have hk := h k
  simp only [hp, KeyAgrees] at hk
  simp only [gcVisit, hp, hk.1]
  cases he : (s.dbArr i).expire k with
  | none => rfl
  | some d =>
    by_cases hd : d ≤ c.nowMs
    · cases ha : c.expireAllowed <;>
        simp [expireIfNeeded, DbTable.deadlinePassed, he, hd, ha, not_lt.2 hd]
    · cases ha : c.expireAllowed <;>
        simp [expireIfNeeded, DbTable.deadlinePassed, he, hd, ha, lt_of_not_le hd]

theorem deadlinePassed_congr {t t' : DbTable} (h : t'.expire k = t.expire k) :
    t'.deadlinePassed c k = t.deadlinePassed c k := by
  simp [DbTable.deadlinePassed, h]

section InlineFree

variable (hinl : ∀ k, c.sz.keyInline k = true → c.sz.keyMalloc k = 0)
include hinl

/-- One slot: the result and `checked_` count its key, the database loses the key exactly when its
deadline has passed, and nothing else changes. -/
theorem gcVisit_spec (acc : Shard n × Nat × Nat) {sl : Slot} (h : TablesAgree (acc.1.dbArr i))
    (hp : (acc.1.dbArr i).prime k = some sl) :
    let r := gcVisit i c acc k
    r.2.1 = acc.2.1 + (if (acc.1.dbArr i).deadlinePassed c k then 1 else 0) ∧
    r.2.2 = acc.2.2 + (if ((acc.1.dbArr i).expire k).isSome then 1 else 0) ∧
    r.1.total = acc.1.total ∧ (∀ j, j ≠ i → r.1.dbArr j = acc.1.dbArr j) ∧
    TablesAgree (r.1.dbArr i) ∧
    (∀ k', k' ≠ k → (r.1.dbArr i).prime k' = (acc.1.dbArr i).prime k' ∧
      (r.1.dbArr i).expire k' = (acc.1.dbArr i).expire k') ∧
    (r.1.dbArr i).prime k = if (acc.1.dbArr i).deadlinePassed c k then none else some sl := by
  obtain ⟨s, res, checked⟩ := acc
  dsimp only at h hp ⊢
  rw [gcVisit_eq h hp]
  by_cases hd : (s.dbArr i).deadlinePassed c k
  · have he : ((s.dbArr i).expire k).isSome := by
      cases he : (s.dbArr i).expire k <;> simp_all [DbTable.deadlinePassed]
    simp only [he, hd, if_true, performDeletionAtomic_dbArr, Function.update_same]
    refine ⟨by simp, by simp, total_performDeletionAtomic_of_inline hinl true,
      fun j hj => Function.update_noteq hj _ _, ?_, fun k' hk' => ?_, ?_⟩
    · simpa [he] using h.performDeletionAtomic c.sz k
    · rw [DbTable.performDeletionAtomic_prime _ hp, DbTable.performDeletionAtomic_expire _ hp]
      simp [hk']
    · simp [DbTable.performDeletionAtomic_prime _ hp]
  · rw [if_neg hd]
    split <;> exact ⟨by simp [hd], by simp [*], rfl, fun _ _ => rfl, h, fun _ _ => ⟨rfl, rfl⟩,
      by simp [hd, hp]⟩

/-- The loop over the scanned slots, when they hold distinct keys of the database. -/
theorem foldl_gcVisit : ∀ (ks : List String) (acc : Shard n × Nat × Nat), ks.Nodup →
    TablesAgree (acc.1.dbArr i) → (∀ k ∈ ks, ((acc.1.dbArr i).prime k).isSome) →
    let r := ks.foldl (gcVisit i c) acc
    r.2.1 = acc.2.1 + (ks.filter ((acc.1.dbArr i).deadlinePassed c)).length ∧
    r.2.2 = acc.2.2 + (ks.filter fun k => ((acc.1.dbArr i).expire k).isSome).length ∧
    r.1.total = acc.1.total ∧ (∀ j, j ≠ i → r.1.dbArr j = acc.1.dbArr j) ∧
    ∀ k', (r.1.dbArr i).prime k' =
      if k' ∈ ks ∧ (acc.1.dbArr i).deadlinePassed c k' = true then none else (acc.1.dbArr i).prime k'
  | [], _, _, _, _ => by simp
  | k :: ks, acc, hnd, h, hks => by
    obtain ⟨hk, hnd⟩ := List.nodup_cons.1 hnd
    obtain ⟨sl, hp⟩ := Option.isSome_iff_exists.1 (hks k (.head _))
    obtain ⟨v1, v2, v3, v4, v5, v6, v7⟩ := gcVisit_spec hinl acc h hp
    have hsame : ∀ k' ∈ ks, _ := fun k' hk' => v6 k' fun he => hk (he ▸ hk')
    obtain ⟨h1, h2, h3, h4, h5⟩ := foldl_gcVisit ks (gcVisit i c acc k) hnd v5
      fun k' hk' => (hsame k' hk').1 ▸ hks k' (.tail _ hk')
    have hf : ks.filter (((gcVisit i c acc k).1.dbArr i).deadlinePassed c) =
        ks.filter ((acc.1.dbArr i).deadlinePassed c) :=
      List.filter_congr fun k' hk' => deadlinePassed_congr (hsame k' hk').2
    have hg : ks.filter (fun k' => (((gcVisit i c acc k).1.dbArr i).expire k').isSome) =
        ks.filter (fun k' => ((acc.1.dbArr i).expire k').isSome) :=
      List.filter_congr fun k' hk' => congrArg Option.isSome (hsame k' hk').2
    refine ⟨?_, ?_, h3.trans v3, fun j hj => (h4 j hj).trans (v4 j hj), fun k' => ?_⟩
    · rw [List.foldl_cons, h1, hf, v1, List.filter_cons]
      by_cases hd : (acc.1.dbArr i).deadlinePassed c k <;> simp [hd]
      omega
    · rw [List.foldl_cons, h2, hg, v2, List.filter_cons]
      by_cases he : ((acc.1.dbArr i).expire k).isSome <;> simp [he]
      omega
    · rw [List.foldl_cons, h5 k']
      by_cases hk' : k' = k
      · subst hk'; simp [hk, v7, hp]
      · have hk'' := v6 k' hk'
        simp [hk', hk''.1, deadlinePassed_congr hk''.2]

end InlineFree

end Shard

/-- `GarbageCollect`, when no journal write would block and the scanned slots hold distinct keys
of the database, deletes exactly the scanned keys whose deadline has passed and returns how many
they are, counts in `checked_` every scanned key with a deadline, keeps the tables agreeing, leaves
the other databases as they are and keeps the memory total. -/
theorem garbageCollect_counts {n : Nat} (s : Shard n) (i : Fin n) (c : Ctx) (regularBuckets : Nat)
    (buckets : List (List String)) (checked : Nat)
    (hinl : ∀ k, c.sz.keyInline k = true → c.sz.keyMalloc k = 0) (h : TablesAgree (s.dbArr i))
    (hnd : ((buckets.take regularBuckets).flatten).Nodup)
    (hks : ∀ k ∈ (buckets.take regularBuckets).flatten, ((s.dbArr i).prime k).isSome) :
    let g := s.garbageCollect i c false regularBuckets buckets checked
    let scanned := (buckets.take regularBuckets).flatten
    g.2.1 = (scanned.filter ((s.dbArr i).deadlinePassed c)).length ∧
    g.2.2 = checked + (scanned.filter fun k => ((s.dbArr i).expire k).isSome).length ∧
    g.1.total = s.total ∧ (∀ j, j ≠ i → g.1.dbArr j = s.dbArr j) ∧
    ∀ k, (g.1.dbArr i).prime k =
      if k ∈ scanned ∧ (s.dbArr i).deadlinePassed c k = true then none else (s.dbArr i).prime k := by
  intro g scanned
  obtain ⟨h1, h2, h3, h4, h5⟩ := Shard.foldl_gcVisit hinl scanned (s, 0, checked) hnd h hks
  exact ⟨h1.trans (zero_add _), h2, h3, h4, h5⟩

/-- The same database at time `10`, with `k` in the first of two hot buckets. -/
theorem garbageCollect_counts_oneKey :
    let s : Shard 1 := ⟨fun _ => oneKeyTable, 0, 0⟩
    let c : Ctx := ⟨10, true, ⟨fun _ => false, fun _ => 0, fun _ => 0, rfl⟩⟩
    let g := s.garbageCollect 0 c false 1 [["k"], ["x"]] 0
    let scanned := ([["k"], ["x"]].take 1).flatten
    g.2.1 = (scanned.filter ((s.dbArr 0).deadlinePassed c)).length ∧
    g.2.2 = 0 + (scanned.filter fun k => ((s.dbArr 0).expire k).isSome).length ∧
    g.1.total = s.total ∧ (∀ j, j ≠ 0 → g.1.dbArr j = s.dbArr j) ∧
    ∀ k, (g.1.dbArr 0).prime k =
      if k ∈ scanned ∧ (s.dbArr 0).deadlinePassed c k = true then none else (s.dbArr 0).prime k :=
  garbageCollect_counts _ _ _ _ _ _ (fun _ h => Bool.noConfusion h) tablesAgree_oneKeyTable
    (by simp) (by simp [oneKeyTable])

end Dragonfly.Keys
