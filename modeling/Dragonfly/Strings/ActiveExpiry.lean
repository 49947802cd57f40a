import Dragonfly.Strings.Replication

/-!
# The active expiry sweep

`DbSlice::DeleteExpiredStep` walks the expire table and, for each key it visits whose deadline
passed, runs `ExpireIfNeeded`, which deletes the key and journals its expiry; an expire entry whose
key is missing is erased (`DbTable.deleteExpiredVisit`, `DbTable.deleteExpiredStep`). Reads expire
keys lazily on their own, so the sweep only reclaims memory.

**One visit** (`deleteExpiredVisit_cases`): a visit changes nothing, erases the deadline of a
missing key, or deletes a key that a read at its clock already misses, journaling that key alone.

**The sweep** over any list of visited keys:
  - `deleteExpiredStep_invisible`: a read at the sweep's clock sees at every key what it saw
    before, and where keys may expire, every visited key whose deadline passed is gone;
  - `deleteExpiredStep_replica_agrees`: a replica that holds at a key what the master holds still
    does after the sweep and the replay of its journal, at any context of the replica.
-/

namespace Dragonfly.Strings

open Keys DbTable

/-! ## One visit -/

section Visit

variable {t : DbTable} {c : Ctx} {k k' : String}

/-- Everything one visit of `DeleteExpiredStep` can do. -/
theorem deleteExpiredVisit_cases :
    t.deleteExpiredVisit c k = (t, []) ∨
    (t.prime k = none ∧ t.deleteExpiredVisit c k = (t.setExpire k none, [])) ∨
    (∃ s, t.prime k = some s ∧ t.readValue c k = none ∧
      t.deleteExpiredVisit c k = (t.performDeletionAtomic c.sz k true, [.expired k])) := by
  unfold deleteExpiredVisit
  cases he : t.expire k with
  | none => exact .inl rfl
  | some d =>
    dsimp only
    split_ifs with hd
    · cases hp : t.prime k with
      | none => exact .inr (.inl ⟨rfl, rfl⟩)
      | some s =>
        dsimp only
        split_ifs with hb
        · by_cases hl : c.nowMs < d ∨ c.expireAllowed = false
          · exact .inl (by simp [expireIfNeeded, he, hl])
          · simp only [not_or, not_lt, Bool.not_eq_false] at hl
            refine .inr (.inr ⟨s, rfl, by simp [readValue, expired, hp, hb, he, hl], ?_⟩)
            simp [expireIfNeeded, he, hl.2, not_lt.2 hl.1]
        · exact .inl rfl
    · exact .inl rfl

/-- A visit changes nothing a read at its clock sees, at any key. -/
theorem readValue_deleteExpiredVisit (k' : String) :
    (t.deleteExpiredVisit c k).1.readValue c k' = t.readValue c k' := by
  rcases deleteExpiredVisit_cases (t := t) (c := c) (k := k) with h | ⟨hp, h⟩ | ⟨s, hp, hr, h⟩ <;>
    rw [h]
  · by_cases hk : k' = k
    · subst hk; simp [readValue, hp]
    · simp [readValue, expired, hk]
  · exact readValue_performDeletionAtomic hp hr k'

/-- A visit adds no key. -/
theorem deleteExpiredVisit_absent (h : t.prime k' = none) (k : String) :
    (t.deleteExpiredVisit c k).1.prime k' = none := by
  rcases deleteExpiredVisit_cases (t := t) (c := c) (k := k) with h' | ⟨-, h'⟩ | ⟨s, hp, -, h'⟩ <;>
    rw [h']
  · exact h
  · exact h
  · by_cases hk : k' = k
    · subst hk; simp [performDeletionAtomic_prime _ hp]
    · simp [performDeletionAtomic_prime _ hp, hk, h]

/-- Where keys may expire, a visit deletes a key whose deadline passed. -/
theorem deleteExpiredVisit_reclaims (ht : TablesAgree t) (hallow : c.expireAllowed = true) {d : Int}
    (he : t.expire k = some d) (hd : d ≤ c.nowMs) : (t.deleteExpiredVisit c k).1.prime k = none := by
  obtain ⟨s, hp, hb⟩ : ∃ s, t.prime k = some s ∧ s.value.hasExpire = true := by
    have hk := ht k
    cases hp : t.prime k with
    | none => simp [KeyAgrees, hp, he] at hk
    | some s =>
      simp only [KeyAgrees, hp, he, Option.isSome_some] at hk
      exact ⟨s, rfl, hk.1⟩
  have hl : ¬(c.nowMs < d ∨ c.expireAllowed = false) := by simp [hallow, hd]
  simp [deleteExpiredVisit, expireIfNeeded, he, hp, hb, hl, performDeletionAtomic_prime _ hp,
    show d - c.nowMs ≤ 0 by omega]

/-- A replica that holds at `k` what the master holds still does after one visit and the replay of
what it journaled. -/
theorem deleteExpiredVisit_replica {t' : DbTable} (ht : TablesAgree t) (ht' : TablesAgree t')
    (h : AgreeOn k t t') (c' : Ctx) (maxMs : Int) (ins : String → Insertion) (cf : Nat) (x : String) :
    TablesAgree (replay c' maxMs ins cf t' (t.deleteExpiredVisit c x).2) ∧
      AgreeOn k (t.deleteExpiredVisit c x).1 (replay c' maxMs ins cf t' (t.deleteExpiredVisit c x).2) := by
  have hta := ht.deleteExpiredVisit c x
  have hfr := sameOutside_deleteExpiredVisit (t := t) c x
  rcases deleteExpiredVisit_cases (t := t) (c := c) (k := x) with h1 | ⟨hp, h1⟩ | ⟨s, hp, -, h1⟩ <;>
    rw [h1] at hta hfr ⊢
  · exact ⟨ht', h⟩
  · -- the deadline of a missing key: there was none
    have he : t.expire x = none := (ht.absent hp).1
    refine ⟨ht', h.1, ?_⟩
    by_cases hk : k = x
    · subst hk; simp [he, h.2]
    · simp [hk, h.2]
  · -- a key deleted as expired, and deleted on the replica by its record
    simp only [replay_cons, replay_nil, replayEntry]
    refine ⟨ht'.opDel c' x, ?_⟩
    by_cases hk : k = x
    · subst hk
      exact AgreeOn.of_absent hta (ht'.opDel c' k) (by simp [performDeletionAtomic_prime _ hp])
        opDel_absent
    · exact ((AgreeOn.of_entry (hfr k hk)).symm.trans h).trans
        (AgreeOn.of_entry (sameOutside_opDel c' x k hk))

end Visit

/-! ## The sweep -/

section Sweep

variable {c : Ctx} {k : String}

/-- The sweep changes nothing a read at its clock sees. -/
theorem readValue_deleteExpiredStep : ∀ (t : DbTable) (ks : List String) (k' : String),
    (t.deleteExpiredStep c ks).1.readValue c k' = t.readValue c k'
  | _, [], _ => rfl
  | _, _ :: ks, k' => (readValue_deleteExpiredStep _ ks k').trans (readValue_deleteExpiredVisit k')

/-- The sweep adds no key. -/
theorem deleteExpiredStep_absent : ∀ (t : DbTable) (ks : List String), t.prime k = none →
    (t.deleteExpiredStep c ks).1.prime k = none
  | _, [], h => h
  | _, x :: ks, h => deleteExpiredStep_absent _ ks (deleteExpiredVisit_absent h x)

/-- Where keys may expire, the sweep deletes every visited key whose deadline passed. -/
theorem deleteExpiredStep_reclaims (hallow : c.expireAllowed = true) : ∀ (t : DbTable)
    (ks : List String), TablesAgree t → k ∈ ks → ∀ d, t.expire k = some d → d ≤ c.nowMs →
      (t.deleteExpiredStep c ks).1.prime k = none
  | t, [], _, hk, _, _, _ => absurd hk (List.not_mem_nil _)
  | t, x :: ks, ht, hk, d, he, hd => by
    by_cases hx : k = x
    · subst hx
      exact deleteExpiredStep_absent _ ks (deleteExpiredVisit_reclaims ht hallow he hd)
    · have he' : (t.deleteExpiredVisit c x).1.expire k = some d := by
        rw [← he]; exact congrArg (·.2.1) (sameOutside_deleteExpiredVisit c x k hx)
      exact deleteExpiredStep_reclaims hallow _ ks (ht.deleteExpiredVisit c x)
        ((List.mem_cons.1 hk).resolve_left hx) d he' hd

/-- The active expiry sweep, over any keys it visits, changes nothing a read at its clock sees at
any key; and where keys may expire, it leaves none of the visited keys whose deadline passed. -/
theorem deleteExpiredStep_invisible (t : DbTable) (ks : List String) :
    (∀ k', (t.deleteExpiredStep c ks).1.readValue c k' = t.readValue c k') ∧
    (TablesAgree t → c.expireAllowed = true → ∀ k ∈ ks, ∀ d, t.expire k = some d → d ≤ c.nowMs →
      (t.deleteExpiredStep c ks).1.prime k = none) :=
  ⟨readValue_deleteExpiredStep t ks,
    fun ht hallow _ hk d he hd => deleteExpiredStep_reclaims hallow t ks ht hk d he hd⟩

/-- One key `k` with the deadline `5`, swept at the clock `10`: the sweep deletes it, and a read at
`10`, which missed it before, misses it after. -/
theorem deleteExpiredStep_invisible_oneKey :
    let c : Ctx := ⟨10, true, ⟨fun _ => true, fun _ => 0, fun _ => 0, rfl⟩⟩
    let t0 := (DbTable.empty.insertKey "k" ⟨false, ⟨"v", true, false⟩⟩).setExpire "k" (some 5)
    TablesAgree t0 ∧ (t0.deleteExpiredStep c ["k"]).1.prime "k" = none ∧
      (t0.deleteExpiredStep c ["k"]).1.readValue c "k" = t0.readValue c "k" := by
  have hagree : TablesAgree ((DbTable.empty.insertKey "k" ⟨false, ⟨"v", true, false⟩⟩).setExpire
      "k" (some 5)) := fun k' => by
    by_cases hk : k' = "k" <;> simp [KeyAgrees, DbTable.empty, hk]
  have H := deleteExpiredStep_invisible (c := ⟨10, true, ⟨fun _ => true, fun _ => 0, fun _ => 0, rfl⟩⟩)
    ((DbTable.empty.insertKey "k" ⟨false, ⟨"v", true, false⟩⟩).setExpire "k" (some 5)) ["k"]
  exact ⟨hagree, H.2 hagree rfl "k" (List.mem_singleton_self _) 5 rfl (by decide), H.1 "k"⟩

/-- A replica that holds at `k` what the master holds still does after the master's sweep over
any keys and the replay of the expiries it journaled, at any context of the replica. -/
theorem deleteExpiredStep_replica_agrees {maxMs : Int} {ins : String → Insertion} {cf : Nat}
    (c' : Ctx) : ∀ (t t' : DbTable) (ks : List String), TablesAgree t → TablesAgree t' →
      AgreeOn k t t' →
      AgreeOn k (t.deleteExpiredStep c ks).1 (replay c' maxMs ins cf t' (t.deleteExpiredStep c ks).2)
  | t, t', [], _, _, h => h
  | t, t', x :: ks, ht, ht', h => by
    obtain ⟨ht1, h1⟩ := deleteExpiredVisit_replica ht ht' h c' maxMs ins cf x
    show AgreeOn k _ (replay c' maxMs ins cf t' ((t.deleteExpiredVisit c x).2 ++ _))
    rw [replay_append]
    exact deleteExpiredStep_replica_agrees c' _ _ ks (ht.deleteExpiredVisit c x) ht1 h1

/-- One key `k` with the deadline `5`, swept at the clock `10` on the master, and a replica that
expires nothing: after the replay of the sweep's journal both are without `k`. -/
theorem deleteExpiredStep_replica_agrees_oneKey :
    let c : Ctx := ⟨10, true, ⟨fun _ => true, fun _ => 0, fun _ => 0, rfl⟩⟩
    let c' : Ctx := ⟨10, false, ⟨fun _ => true, fun _ => 0, fun _ => 0, rfl⟩⟩
    let t0 := (DbTable.empty.insertKey "k" ⟨false, ⟨"v", true, false⟩⟩).setExpire "k" (some 5)
    TablesAgree t0 ∧ AgreeOn "k" (t0.deleteExpiredStep c ["k"]).1
      (replay c' 10000 (fun _ => .inserted none) 0 t0 (t0.deleteExpiredStep c ["k"]).2) := by
  have hagree : TablesAgree ((DbTable.empty.insertKey "k" ⟨false, ⟨"v", true, false⟩⟩).setExpire
      "k" (some 5)) := fun k' => by
    by_cases hk : k' = "k" <;> simp [KeyAgrees, DbTable.empty, hk]
  exact ⟨hagree, deleteExpiredStep_replica_agrees ⟨10, false, ⟨fun _ => true, fun _ => 0, fun _ => 0, rfl⟩⟩
    _ _ ["k"] hagree hagree ⟨rfl, rfl⟩⟩

end Sweep

end Dragonfly.Strings
