import Dragonfly.Keys.Table

/-!
# The prime, expire and mcflag tables agree

`TablesAgree`: at every key, the value has `HasExpire` exactly when the expire table holds a
deadline for it, `HasFlag` exactly when the mcflag table holds a flag, and neither table holds a key
the prime table lacks. Every operation of `Keys/Table.lean` that acts on one key changes the three
tables at that key only (`TablesAgree.update`), so each keeps the invariant once it keeps it at
its key: `AddExpire`, `RemoveExpire`, `UpdateExpire`, `PerformDeletion`, `ExpireIfNeeded`,
`FindInternal`, eviction, `AddOrFind`, `AddNew` of a fresh value, `DeleteExpiredStep`, `FlushDb`.

`AddOrUpdate` does not: on a key with a deadline it replaces the value by one without
`HasExpire` and, with `expire_at_ms = 0`, leaves the deadline in the expire table
(`addOrUpdate_orphans_deadline`).
-/

namespace Dragonfly.Keys

/-- One key's slot, deadline and mcflag agree. -/
def KeyAgrees : Option Slot → Option Int → Option Nat → Prop
  | some s, d, f => s.value.hasExpire = d.isSome ∧ s.value.hasFlag = f.isSome
  | none, d, f => d = none ∧ f = none

/-- The three tables agree at every key. -/
def TablesAgree (t : DbTable) : Prop := ∀ k, KeyAgrees (t.prime k) (t.expire k) (t.mcflag k)

/-! ## Lemmas -/

open DbTable

variable {t t' : DbTable}

/-- A change confined to key `k` keeps the invariant when it holds at `k` afterwards. -/
theorem TablesAgree.update (h : TablesAgree t) {k : String}
    (hp : ∀ k', k' ≠ k → t'.prime k' = t.prime k') (he : ∀ k', k' ≠ k → t'.expire k' = t.expire k')
    (hm : ∀ k', k' ≠ k → t'.mcflag k' = t.mcflag k')
    (hk : KeyAgrees (t'.prime k) (t'.expire k) (t'.mcflag k)) : TablesAgree t' := fun k' => by
  by_cases hk' : k' = k
  · subst hk'; exact hk
  · rw [hp k' hk', he k' hk', hm k' hk']; exact h k'

theorem TablesAgree.congr (h : TablesAgree t) (hp : t'.prime = t.prime) (he : t'.expire = t.expire)
    (hm : t'.mcflag = t.mcflag) : TablesAgree t' := fun k => by rw [hp, he, hm]; exact h k

/-- Both branches of a condition keep the invariant. -/
theorem TablesAgree.byCases {P : Prop} [Decidable P] {a b : DbTable} (ha : P → TablesAgree a)
    (hb : ¬P → TablesAgree b) : TablesAgree (if P then a else b) := by
  split
  · exact ha ‹_›
  · exact hb ‹_›

theorem TablesAgree.account (h : TablesAgree t) (n : Int) : TablesAgree (t.account n) :=
  h.congr (by simp) (by simp) (by simp)

theorem TablesAgree.addInlineKeys (h : TablesAgree t) (n : Int) : TablesAgree (t.addInlineKeys n) :=
  h.congr rfl rfl rfl

theorem TablesAgree.runUpdater (h : TablesAgree t) (sz : Sizes) (u : AutoUpdater) :
    TablesAgree (t.runUpdater sz u) := by
  unfold DbTable.runUpdater; split
  · exact h.account _
  · exact h

theorem TablesAgree.reduceHeapUsage (h : TablesAgree t) (u : AutoUpdater) :
    TablesAgree (t.reduceHeapUsage u).1 := h.account _

/-- An absent key has neither a deadline nor a flag. -/
theorem TablesAgree.absent (h : TablesAgree t) {k : String} (hk : t.prime k = none) :
    t.expire k = none ∧ t.mcflag k = none := by
  simpa [KeyAgrees, hk] using h k

/-- Under the invariant, the `ExpIterator` of a lookup is the deadline. -/
theorem TablesAgree.expIt_eq (h : TablesAgree t) (k : String) : t.expIt k = t.expire k := by
  have hk := h k
  cases hp : t.prime k with
  | none => simp only [hp, KeyAgrees] at hk; simp [DbTable.expIt, hp, hk.1]
  | some s =>
    simp only [hp, KeyAgrees] at hk
    cases he : t.expire k <;> simp_all [DbTable.expIt]

/-- A change of a slot that keeps its two bits keeps the invariant. -/
theorem TablesAgree.modify (h : TablesAgree t) (k : String) {f : Slot → Slot}
    (hf : ∀ s, (f s).value.hasExpire = s.value.hasExpire ∧ (f s).value.hasFlag = s.value.hasFlag) :
    TablesAgree (t.modify k f) :=
  h.update (k := k) (fun k' hk' => by simp [hk']) (fun _ _ => rfl) (fun _ _ => rfl) (by
    have := h k
    cases hp : t.prime k <;> simp_all [KeyAgrees])

/-- The sticky bit, set or not, keeps the invariant. -/
theorem TablesAgree.ite_modify (h : TablesAgree t) (b : Bool) (k : String) {f : Slot → Slot}
    (hf : ∀ s, (f s).value.hasExpire = s.value.hasExpire ∧ (f s).value.hasFlag = s.value.hasFlag) :
    TablesAgree (if b then t.modify k f else t) :=
  TablesAgree.byCases (fun _ => h.modify k hf) fun _ => h

theorem TablesAgree.addExpire (h : TablesAgree t) {k : String} (hk : (t.prime k).isSome)
    (atMs : Int) : TablesAgree (t.addExpire k atMs) :=
  h.update (k := k) (fun k' hk' => by simp [DbTable.addExpire, hk'])
    (fun k' hk' => by simp [DbTable.addExpire, hk']) (fun _ _ => rfl) (by
      have := h k
      obtain ⟨s, hs⟩ := Option.isSome_iff_exists.1 hk
      simp_all [DbTable.addExpire, KeyAgrees])

theorem TablesAgree.removeExpire (h : TablesAgree t) (k : String) :
    TablesAgree (t.removeExpire k).1 := by
  unfold DbTable.removeExpire
  cases hp : t.prime k with
  | none => exact h
  | some s =>
    dsimp only
    split
    · refine h.update (k := k) (fun k' hk' => by simp [hk']) (fun k' hk' => by simp [hk'])
        (fun _ _ => rfl) ?_
      have := h k
      simp_all [KeyAgrees]
    · exact h

/-- `RemoveExpire` leaves no deadline on a key of agreeing tables. -/
theorem TablesAgree.removeExpire_expire (h : TablesAgree t) (k : String) :
    (t.removeExpire k).1.expire k = none := by
  have hk := h k
  unfold DbTable.removeExpire
  split
  · split
    · simp
    · simp_all [KeyAgrees]
  · simp_all [KeyAgrees]

theorem TablesAgree.updateExpireAt (h : TablesAgree t) (k : String) (atMs : Int) :
    TablesAgree (t.updateExpireAt k atMs).1 := by
  unfold DbTable.updateExpireAt
  split
  · exact h.removeExpire k
  · cases hp : t.prime k with
    | none => exact h
    | some s =>
      dsimp only
      split
      · exact h
      · exact h.addExpire (by simp [hp]) atMs

/-- `SetFlag(flag != 0)` on the value, then `SetMCFlag(key, flag)`, as `SetExisting` does. -/
theorem TablesAgree.setFlag (h : TablesAgree t) {k : String} (hk : (t.prime k).isSome) (flag : Nat) :
    TablesAgree ((t.modify k fun s => { s with value := { s.value with hasFlag := flag ≠ 0 } }).setMCFlag
      k flag) := by
  obtain ⟨s, hs⟩ := Option.isSome_iff_exists.1 hk
  refine h.update (k := k) (fun k' hk' => by simp [DbTable.setMCFlag, hk']; split <;> simp [hk'])
    (fun k' _ => by unfold DbTable.setMCFlag; split <;> rfl) (fun k' hk' => by
      unfold DbTable.setMCFlag; split <;> simp [hk']) ?_
  have := h k
  unfold DbTable.setMCFlag
  split <;> simp_all [KeyAgrees]

/-- `PerformDeletionAtomic` with `exp_it` valid exactly when the key has a deadline. -/
theorem TablesAgree.performDeletionAtomic (h : TablesAgree t) (sz : Sizes) (k : String) :
    TablesAgree (t.performDeletionAtomic sz k (t.expire k).isSome) := by
  cases hp : t.prime k with
  | none => rwa [performDeletionAtomic_of_none _ hp]
  | some s =>
    have hk := h k
    simp only [hp, KeyAgrees] at hk
    refine h.update (k := k) (fun k' hk' => ?_) (fun k' hk' => ?_) (fun k' hk' => ?_) ?_
    · simp [performDeletionAtomic_prime _ hp, hk']
    · rw [performDeletionAtomic_expire _ hp]; split <;> simp [hk']
    · rw [performDeletionAtomic_mcflag _ hp]; split <;> simp [hk']
    · rw [performDeletionAtomic_prime _ hp, performDeletionAtomic_expire _ hp,
        performDeletionAtomic_mcflag _ hp]
      cases he : t.expire k <;> cases hm : t.mcflag k <;> simp_all [KeyAgrees]

theorem TablesAgree.performDeletion (h : TablesAgree t) (sz : Sizes) (k : String) :
    TablesAgree (t.performDeletion sz k) := by
  unfold DbTable.performDeletion; rw [h.expIt_eq]; exact h.performDeletionAtomic sz k

theorem TablesAgree.expireIfNeeded (h : TablesAgree t) (c : Ctx) (k : String) :
    TablesAgree (t.expireIfNeeded c k).1 := by
  unfold DbTable.expireIfNeeded
  cases he : t.expire k with
  | none => exact h
  | some d =>
    dsimp only
    split
    · exact h
    · simpa [he] using h.performDeletionAtomic c.sz k

theorem TablesAgree.findInternal (h : TablesAgree t) (c : Ctx) (k : String) :
    TablesAgree (t.findInternal c k).1 := by
  unfold DbTable.findInternal
  cases t.prime k with
  | none => exact h
  | some s =>
    dsimp only
    split
    · have := h.expireIfNeeded c k
      split <;> simp_all
    · exact h

theorem TablesAgree.findMutable (h : TablesAgree t) (c : Ctx) (k : String) :
    TablesAgree (t.findMutable c k).1 := by
  rw [findMutable_eq]; exact h.findInternal c k

theorem TablesAgree.evict (h : TablesAgree t) (c : Ctx) (v : Option String) :
    TablesAgree (t.evict c v).1 := by
  unfold DbTable.evict
  split
  · exact h
  · split
    · split
      · exact h
      · exact h.performDeletion c.sz _
    · exact h

/-- `AddOrFind` keeps the invariant: a new key enters with neither bit, and had neither a deadline
nor a flag. -/
theorem TablesAgree.addOrFind (h : TablesAgree t) (c : Ctx) (ins : Insertion) (k : String) :
    TablesAgree (t.addOrFind c ins k).1 := by
  unfold DbTable.addOrFind
  have h1 := h.findInternal c k
  have habs := findInternal_absent (t := t) (k := k) c
  generalize t.findInternal c k = r at h1 habs
  obtain ⟨t1, j, _ | s⟩ := r
  · cases ins with
    | rejected => exact h1
    | inserted victim =>
      have h2 := h1.evict c victim
      have ⟨he, hm⟩ := h2.absent (evict_absent c victim (habs rfl))
      have h3 : TablesAgree ((t1.evict c victim).1.insertKey k ⟨false, ⟨"", false, false⟩⟩) :=
        h2.update (k := k) (fun k' hk' => by simp [hk']) (fun _ _ => rfl) (fun _ _ => rfl)
          (by simp [KeyAgrees, he, hm])
      dsimp only
      split
      · exact h3.addInlineKeys 1
      · exact h3.account _
  · exact h1

theorem TablesAgree.setExpire_some (h : TablesAgree t) {k : String} (hk : (t.expire k).isSome)
    (d : Int) : TablesAgree (t.setExpire k (some d)) :=
  h.update (k := k) (fun _ _ => rfl) (fun k' hk' => by simp [hk']) (fun _ _ => rfl) (by
    have := h k
    cases hp : t.prime k <;> simp_all [KeyAgrees])

/-- `UpdateExpire(cntx, prime_it, expire_it, params)` on a key of the table. -/
theorem TablesAgree.updateExpire (h : TablesAgree t) (c : Ctx) (maxMs : Int) {k : String}
    (hk : (t.prime k).isSome) (p : ExpireParams) : TablesAgree (t.updateExpire c maxMs k p).1 := by
  unfold DbTable.updateExpire
  split
  · exact h.removeExpire k
  generalize p.calculate c.nowMs false maxMs = r
  obtain ⟨rel, abs⟩ := r
  dsimp only
  rw [h.expIt_eq]
  cases he : t.expire k <;> dsimp only <;> split_ifs <;>
    first
    | exact h
    | exact h.performDeletion c.sz k
    | exact h.setExpire_some (by simp [he]) abs
    | exact h.addExpire hk abs

/-- One visit of `DeleteExpiredStep`; an expire entry of a missing key is erased. -/
theorem TablesAgree.deleteExpiredVisit (h : TablesAgree t) (c : Ctx) (k : String) :
    TablesAgree (t.deleteExpiredVisit c k).1 := by
  unfold DbTable.deleteExpiredVisit
  cases he : t.expire k with
  | none => exact h
  | some d =>
    dsimp only
    split
    · cases hp : t.prime k with
      | none =>
        dsimp only
        exact h.update (k := k) (fun _ _ => rfl) (fun k' hk' => by simp [hk']) (fun _ _ => rfl)
          (by simp [KeyAgrees, hp, (h.absent hp).2])
      | some s =>
        dsimp only
        split
        · exact h.expireIfNeeded c k
        · exact h
    · exact h

theorem TablesAgree.deleteExpiredStep (c : Ctx) :
    ∀ (ks : List String) (t : DbTable), TablesAgree t → TablesAgree (t.deleteExpiredStep c ks).1
  | [], _, h => h
  | k :: ks, _, h => TablesAgree.deleteExpiredStep c ks _ (h.deleteExpiredVisit c k)

/-- `FlushDb` leaves an empty table. -/
theorem tablesAgree_empty : TablesAgree DbTable.empty := fun _ => by simp [KeyAgrees, DbTable.empty]

/-- `AddNew` of a value without bits keeps the invariant. -/
theorem TablesAgree.addNew (h : TablesAgree t) (c : Ctx) (ins : Insertion) (k : String)
    {obj : PrimeValue} (hobj : obj.hasExpire = false ∧ obj.hasFlag = false) (expireAtMs : Int) :
    TablesAgree (t.addNew c ins k obj expireAtMs).1 := by
  unfold DbTable.addNew DbTable.addOrUpdateInternal
  have h1 := h.addOrFind c ins k
  have hnew : ∀ u, (t.addOrFind c ins k).2.2 = .new u → _ := fun u => addOrFind_new (u := u) c ins
  generalize t.addOrFind c ins k = r at h1 hnew
  obtain ⟨t1, j, u | u | _⟩ := r
  · exact h1
  · have hs : t1.prime k = some ⟨false, ⟨"", false, false⟩⟩ := hnew u rfl
    have hk := h1 k
    simp only [hs, KeyAgrees] at hk
    obtain ⟨he, hf⟩ := hk
    have h2 : TablesAgree (t1.modify k fun s => { s with value := obj }) :=
      h1.update (k := k) (fun k' hk' => by simp [hk']) (fun _ _ => rfl) (fun _ _ => rfl) (by
        simp [KeyAgrees, hs, hobj, ← he, ← hf])
    dsimp only
    rw [if_neg (by simp)]
    split
    · refine h2.update (k := k) (fun k' hk' => by simp [hk']) (fun k' hk' => by simp [hk'])
        (fun _ _ => rfl) ?_
      simp [KeyAgrees, hs, hobj, ← hf]
    · exact h2
  · exact h1

/-- `AddOrUpdate` of a key whose deadline has not passed, with a value lacking `HasExpire` and
`expire_at_ms = 0`: the value loses `HasExpire` while the deadline stays in the expire table. -/
theorem addOrUpdate_orphans_deadline (c : Ctx) (ins : Insertion) {k : String}
    {s : Slot} {d : Int} (hp : t.prime k = some s) (hd : t.expire k = some d) (hlive : c.nowMs < d)
    {obj : PrimeValue} (hobj : obj.hasExpire = false) :
    ¬ TablesAgree (t.addOrUpdate c ins k obj 0).1 := fun h' => by
  have hk := h' k
  simp [DbTable.addOrUpdate, DbTable.addOrUpdateInternal,
    addOrFind_live c ins hp (fun d' hd' => by simp_all), hp, hd, KeyAgrees, hobj] at hk

/-- Both steps from an empty table: `AddNew` of `k` with deadline 100 (the invariant holds), then,
at time 0, `AddOrUpdate` of `k` with a plain value and `expire_at_ms = 0`. -/
theorem addOrUpdate_orphans_deadline_afterAddNew :
    let c : Ctx := ⟨0, true, ⟨fun _ => true, fun _ => 0, fun _ => 0, rfl⟩⟩
    let t0 := (DbTable.empty.addNew c (.inserted none) "k" ⟨"v", false, false⟩ 100).1
    TablesAgree t0 ∧ ¬ TablesAgree (t0.addOrUpdate c (.inserted none) "k" ⟨"w", false, false⟩ 0).1 :=
  ⟨tablesAgree_empty.addNew _ _ _ ⟨rfl, rfl⟩ _,
    addOrUpdate_orphans_deadline _ _ (s := ⟨false, ⟨"v", true, false⟩⟩) (d := 100) (by decide)
      (by decide) (by decide) rfl⟩

end Dragonfly.Keys
