import Dragonfly.Strings.SetReplies
import Dragonfly.Strings.Footprint
import Dragonfly.Strings.Commands

/-!
# Replicating `SET`

`SET` is registered `NO_AUTOJOURNAL`, so the master journals it itself: the lookups of
`SetCmd::Set` journal the keys they find expired or evict, and `PostEdit` journals
`SetCmd::RecordJournal`, the key and the value with the deadline made absolute, `KEEPTTL`, `STICK`
and `_MCFLAGS`. A replica replays the records in order (`replay`), from a connection with no
memcache flag, and never expires a key itself (`ExpireIfNeeded` returns early on a replica): its
context has the master's clock and expires keys at most where the master's does.

The record decodes back to the master's parameters less `NX`, `XX` and `GET`
(`replayEntry_recordJournal`); the lookups journal the expiry of the key itself exactly when the
master's lookup deleted it, and evictions of other keys (`set_journal`). So a replica whose table
holds at a key what the master's holds (the same string and the same deadline: `AgreeOn`) still
does after any `SET` of that key the master parses and the replay of its journal, whether the
master stored the value, skipped it or ran out of memory:

    parseSet parseNowMs maxMs { memcacheFlags := connFlags } args = .params p → AgreeOn k t t' →
      AgreeOn k (SetCmd.set c p true t ins k v).1
        (replay c' maxMs ins' 0 t' (SetCmd.set c p true t ins k v).2.1)     (set_replica_agrees)
-/

namespace Dragonfly.Strings

open Keys DbTable

/-- The replica's table `t'` holds at `k` what the master's `t` holds: the same string when the
key is there, and the same deadline. -/
def AgreeOn (k : String) (t t' : DbTable) : Prop :=
  (t'.prime k).map (·.value.str) = (t.prime k).map (·.value.str) ∧ t'.expire k = t.expire k

/-- What the option loop of `SET` leaves of the expiry: a relative time only with an expiry option,
within `[0, maxMs]`. -/
structure SetParams.ExpiryInRange (maxMs : Int) (p : SetParams) : Prop where
  unset : p.expireAfter = false → p.expireAfterMs = 0
  nonneg : 0 ≤ p.expireAfterMs
  le_max : p.expireAfterMs ≤ maxMs

/-! ## The record and its decoding -/

section Parse

variable {n m : Int}

/-- The capped relative time is at most the cap. -/
theorem calculate_cap_le (e : ExpireParams) (now : Int) (hm : 0 ≤ m) :
    (e.calculate now true m).1 ≤ m := by
  simp only [ExpireParams.calculate, if_true]
  split_ifs <;> dsimp only <;> omega

theorem parseExpiry_inRange (hm : 0 ≤ m) {p p' : SetParams} {x : Int} {u : TimeUnit}
    {absolute : Bool} (h : parseExpiry n m p x u absolute = .ok p') : p'.ExpiryInRange m := by
  have hnn := parseExpiry_expireAfterMs hm h
  have hle := calculate_cap_le ⟨x, u, absolute, false, false, false, false, false⟩ n hm
  simp only [parseExpiry] at h
  generalize ExpireParams.calculate ⟨x, u, absolute, false, false, false, false, false⟩
    n false m = cf at h
  obtain ⟨rel, abs⟩ := cf
  split_ifs at h
  cases h
  exact ⟨fun h => (by cases h), hnn, hle⟩

theorem parseSetArg_inRange (hm : 0 ≤ m) {p p' : SetParams} {a : SetArg}
    (h : parseSetArg n m p a = .ok p') (hp : p.ExpiryInRange m) : p'.ExpiryInRange m := by
  cases a
  case ex | px | exat | pxat => simp only [parseSetArg] at h; exact parseExpiry_inRange hm h
  all_goals cases h; exact ⟨hp.unset, hp.nonneg, hp.le_max⟩

/-- Parameters the option loop accepts keep the expiry in range, and have no `KEEPTTL` beside an
expiry option. -/
theorem parseSet_inRange (hm : 0 ≤ m) : ∀ {p0 p : SetParams} {args : List SetArg},
    parseSet n m p0 args = .params p → p0.ExpiryInRange m →
      p.ExpiryInRange m ∧ ¬(p.keepExpire = true ∧ p.expireAfter = true)
  | p0, p, [], h, hp => by
    simp only [parseSet] at h
    split_ifs at h with hc
    cases h
    exact ⟨hp, fun hk => by simp [hk.1, hk.2] at hc⟩
  | p0, p, a :: as, h, hp => by
    simp only [parseSet] at h
    split at h
    · exact absurd h (parseSetArg_error (by assumption) p)
    · next p' hp' => exact parseSet_inRange hm h (parseSetArg_inRange hm hp' hp)

/-- `PXAT` of a deadline `ms` after a positive clock, with `ms` within the cap, parses back to the
relative time `ms`. -/
theorem parseExpiry_pxat {q : SetParams} (hq : q.expireAfter = false) (hn : 0 < n) {ms : Int}
    (h0 : 0 ≤ ms) (hm : ms ≤ m) :
    parseExpiry n m q (ms + n) .msec true = .ok { q with expireAfter := true, expireAfterMs := ms } := by
  have hu : ¬(TimeUnit.msec = .sec) := by decide
  simp only [parseExpiry, ExpireParams.calculate, hq, hu, false_and, if_false, Bool.false_eq_true,
    if_true, add_sub_cancel_right, min_eq_left hm]
  rw [if_neg (by omega), if_neg (by omega), if_neg (by omega)]

end Parse

section Record

variable {t : DbTable} {c : Ctx} {maxMs : Int} {p : SetParams}

/-- A replica decodes the master's `SET` record into `SetCmd::Set` with the master's parameters
less `NX`, `XX` and `GET`, for every parameters the option loop accepts and a positive clock. -/
theorem replayEntry_recordJournal (hnow : 0 < c.nowMs) (hp : p.ExpiryInRange maxMs)
    (hk : ¬(p.keepExpire = true ∧ p.expireAfter = true)) (ins : String → Insertion) (k v : String) :
    replayEntry c maxMs ins 0 t (SetCmd.recordJournal c p k v) =
      (SetCmd.set c { p with ifNotExist := false, ifExists := false, get := false } false t (ins k)
        k v).1 := by
  obtain ⟨nx, xx, keep, get, ea, st, mcf, ms⟩ := p
  obtain ⟨hunset, h0, hm⟩ := hp
  dsimp only at hunset h0 hm hk ⊢
  cases ea
  · cases hunset rfl
    cases keep <;> cases st <;> by_cases hf : mcf = 0 <;>
      simp [replayEntry, SetCmd.recordJournal, parseSet, parseSetArg, hf]
  · obtain rfl : keep = false := by simpa using hk
    cases st <;> by_cases hf : mcf = 0 <;>
      simp [replayEntry, SetCmd.recordJournal, parseSet, parseSetArg, parseExpiry_pxat, hf, hnow, h0, hm]

end Record

/-! ## Agreement on a key -/

section Agree

variable {k : String} {t t' t1 : DbTable}

theorem AgreeOn.trans (h1 : AgreeOn k t t1) (h2 : AgreeOn k t1 t') : AgreeOn k t t' :=
  ⟨h2.1.trans h1.1, h2.2.trans h1.2⟩

theorem AgreeOn.symm (h : AgreeOn k t t') : AgreeOn k t' t := ⟨h.1.symm, h.2.symm⟩

theorem AgreeOn.of_entry (h : t'.entry k = t.entry k) : AgreeOn k t t' := by
  simp only [DbTable.entry, Prod.mk.injEq] at h
  exact ⟨by rw [h.1], h.2.1⟩

/-- Two agreeing tables without the key agree on it. -/
theorem AgreeOn.of_absent (ht : TablesAgree t) (ht' : TablesAgree t') (hp : t.prime k = none)
    (hp' : t'.prime k = none) : AgreeOn k t t' :=
  ⟨by rw [hp, hp'], by rw [(ht'.absent hp').1, (ht.absent hp).1]⟩

/-- A key a read at `c` sees on the master is seen on an agreeing replica at a context with the
same clock that expires keys at most where `c` does. -/
theorem AgreeOn.isSome_readValue (h : AgreeOn k t t') (ht : TablesAgree t) (ht' : TablesAgree t')
    {c c' : Ctx} (hclock : c'.nowMs = c.nowMs) (hexp : c'.expireAllowed = true → c.expireAllowed = true)
    (hr : (t.readValue c k).isSome) : (t'.readValue c' k).isSome := by
  have h1 := ht k
  have h2 := ht' k
  unfold readValue expired at hr ⊢
  rw [h.2, hclock]
  rw [h.2] at h2
  cases hp : t.prime k with
  | none => simp [hp] at hr
  | some s =>
    obtain ⟨s', hp', -⟩ : ∃ s', t'.prime k = some s' ∧ s'.value.str = s.value.str := by
      simpa [hp] using h.1
    simp only [hp, hp', KeyAgrees] at h1 h2 hr ⊢
    rw [h2.1, ← h1.1]
    cases hc : c'.expireAllowed
    · cases t.expire k <;> simp
    · simpa [hexp hc] using hr

/-- What a read sees is the string held. -/
theorem str_of_readValue {c : Ctx} {x : String} (h : t.readValue c k = some x) :
    (t.prime k).map (·.value.str) = some x := by
  unfold readValue at h
  split at h
  · cases h
  · next s hs =>
    split at h
    · cases h
    · rw [hs]; exact congrArg some (Option.some.inj h)

end Agree

/-! ## What `SET` leaves at its key -/

section Effect

variable {t : DbTable} {c : Ctx} {k : String} {p : SetParams} {mj : Bool} {ins : Insertion}
  {v : String}

/-- A lookup that finds the key changes nothing. -/
theorem findInternal_found_eq {s : Slot} (h : (t.findInternal c k).2.2 = some s) :
    (t.findInternal c k).1 = t := by
  rcases findInternal_cases (t := t) (c := c) (k := k) with ⟨hf, -⟩ | ⟨s', hf, -⟩ | ⟨s', -, hf, -⟩
  · simp [hf] at h
  · rw [hf]
  · simp [hf] at h

/-- `AddOrFind` that finds the key changes nothing. -/
theorem addOrFind_found_eq {u : AutoUpdater} (h : (t.addOrFind c ins k).2.2 = .found u) :
    (t.addOrFind c ins k).1 = t := by
  have hf := fun s => findInternal_found_eq (t := t) (c := c) (k := k) (s := s)
  unfold addOrFind at h ⊢
  generalize t.findInternal c k = r at h hf ⊢
  obtain ⟨t1, j, _ | s⟩ := r
  · cases ins <;> simp at h
  · exact hf s rfl

/-- The deadline `SetExisting` and the updater leave, under a positive clock: the old one under
`KEEPTTL`, else `expire_after_ms` from now, or none. -/
theorem setFound_expire (ht : TablesAgree t) (hnow : 0 < c.nowMs) (hp : 0 ≤ p.expireAfterMs)
    (mj : Bool) (v : String) (u : AutoUpdater) : (SetCmd.setFound c p mj t k v u).1.expire k =
      if p.keepExpire then t.expire k
      else if p.expireAfterMs ≠ 0 then some (p.expireAfterMs + c.nowMs) else none := by
  show ((SetCmd.setExisting c p t k v u).1.runUpdater c.sz (SetCmd.setExisting c p t k v u).2).expire k = _
  rw [runUpdater_expire, setExisting_expire ht]
  dsimp only
  split_ifs <;> first | rfl | omega

/-- `AddNew` gives the key `expire_after_ms` from now, when it is not zero. -/
theorem addNew_expire : (SetCmd.addNew c p t k v).expire k =
    if p.expireAfterMs ≠ 0 then some (p.expireAfterMs + c.nowMs) else t.expire k := by
  simp only [SetCmd.addNew, setMCFlag, apply_ite DbTable.expire, modify_expire, setMcflag_expire,
    ite_self]
  split_ifs <;> simp [addExpire]

/-- A key `AddOrFind` inserts has no deadline, in agreeing tables. -/
theorem addOrFind_new_expire (ht : TablesAgree t) {u : AutoUpdater}
    (h : (t.addOrFind c ins k).2.2 = .new u) : (t.addOrFind c ins k).1.expire k = none := by
  have hk := ht.addOrFind c ins k k
  rw [addOrFind_new c ins h] at hk
  simpa [KeyAgrees] using hk.1.symm

/-- The deadline `SetCmd::Set` from `AddOrFind` on leaves when it returns `OK`. -/
theorem setAdd_expire (ht : TablesAgree t) (hnow : 0 < c.nowMs) (hp : 0 ≤ p.expireAfterMs)
    (h : (SetCmd.setAdd c p mj t ins k v).2.2 = .ok) :
    (SetCmd.setAdd c p mj t ins k v).1.expire k =
      if p.keepExpire = true ∧ (t.readValue c k).isSome then t.expire k
      else if p.expireAfterMs ≠ 0 then some (p.expireAfterMs + c.nowMs) else none := by
  have hfound := fun u (h : (t.addOrFind c ins k).2.2 = .found u) =>
    And.intro (addOrFind_found_eq h) (addOrFind_found_readValue h).2
  have hnew := fun u (h : (t.addOrFind c ins k).2.2 = .new u) =>
    And.intro (addOrFind_new_expire ht h) (addOrFind_new_readValue h)
  unfold SetCmd.setAdd at h ⊢
  generalize t.addOrFind c ins k = r at h hfound hnew ⊢
  obtain ⟨t1, j1, u | u | _⟩ := r <;> dsimp only at h hfound hnew ⊢
  · obtain ⟨rfl, hr⟩ := hfound u rfl
    exact (setFound_expire ht hnow hp mj v u).trans (by simp [hr])
  · obtain ⟨he, hr⟩ := hnew u rfl
    exact (congrFun (runUpdater_expire _ u) k).trans (addNew_expire.trans (by simp [he, hr]))
  · simp at h

/-- The deadline `SetCmd::Set` leaves when it returns `OK`, under every option: the old one under
`KEEPTTL` on a key a read saw, else `expire_after_ms` from now, or none. -/
theorem set_expire (ht : TablesAgree t) (hnow : 0 < c.nowMs) (hp : 0 ≤ p.expireAfterMs)
    (h : (SetCmd.set c p mj t ins k v).2.2 = .ok) :
    (SetCmd.set c p mj t ins k v).1.expire k =
      if p.keepExpire = true ∧ (t.readValue c k).isSome then t.expire k
      else if p.expireAfterMs ≠ 0 then some (p.expireAfterMs + c.nowMs) else none := by
  have hread := findInternal_readValue (t := t) (c := c) (k := k)
  have hsame := readValue_findInternal (t := t) (c := c) (k := k) k
  have hfound := fun s => findInternal_found_eq (t := t) (c := c) (k := k) (s := s)
  have h1 := ht.findInternal c k
  unfold SetCmd.set at h ⊢
  by_cases hc : p.isConditionalSet = true
  · simp only [hc, if_true, findMutable_eq] at h ⊢
    generalize t.findInternal c k = r at hread hsame hfound h1 h ⊢
    obtain ⟨t1, j1, _ | s⟩ := r
    · -- not found: `XX` skips, `NX` goes through `AddOrFind`
      by_cases hx : p.ifExists = true
      · simp [hx] at h
      · simp only [hx, Option.map_none', if_false, Bool.false_eq_true] at h hread ⊢
        exact (setAdd_expire h1 hnow hp h).trans (by simp [hsame, ← hread])
    · -- found: `XX` sets, `NX` skips
      obtain rfl := hfound s rfl
      by_cases hx : p.ifExists = true
      · simp only [hx, Option.map_some', if_true] at hread ⊢
        exact (setFound_expire ht hnow hp mj v _).trans (by simp [hx, ← hread])
      · simp [hx] at h
  · simp only [hc, if_false, Bool.false_eq_true] at h ⊢
    exact setAdd_expire ht hnow hp h

/-- With the insertion admitted, a `SET` without `NX` or `XX` returns `OK`. -/
theorem set_unconditional_ok (mj : Bool) (hins : ins ≠ .rejected) :
    (SetCmd.set c { p with ifNotExist := false, ifExists := false, get := false } mj t ins k v).2.2 =
      .ok := by
  obtain ⟨victim, rfl⟩ : ∃ victim, ins = .inserted victim := by
    cases ins with
    | rejected => exact absurd rfl hins
    | inserted victim => exact ⟨victim, rfl⟩
  exact setAdd_inserted _ mj victim v

/-- `SetCmd::Set` from `AddOrFind` on that does not return `OK` leaves what its lookup left. -/
theorem setAdd_eq_of_ne_ok (h : (SetCmd.setAdd c p mj t ins k v).2.2 ≠ .ok) :
    (SetCmd.setAdd c p mj t ins k v).1 = (t.findInternal c k).1 := by
  unfold SetCmd.setAdd addOrFind at h ⊢
  generalize t.findInternal c k = r at h ⊢
  obtain ⟨t1, j, _ | s⟩ := r
  · cases ins with
    | rejected => rfl
    | inserted victim => exact absurd rfl h
  · exact absurd rfl h

/-- A `SET` that does not return `OK` holds at its key what its lookup left. -/
theorem set_agreeOn_of_ne_ok (h : (SetCmd.set c p mj t ins k v).2.2 ≠ .ok) :
    AgreeOn k (t.findInternal c k).1 (SetCmd.set c p mj t ins k v).1 := by
  have habs := findInternal_absent (t := t) (k := k) c
  unfold SetCmd.set at h ⊢
  by_cases hc : p.isConditionalSet = true
  · simp only [hc, if_true, findMutable_eq] at h ⊢
    generalize t.findInternal c k = r at habs h ⊢
    obtain ⟨t1, j1, _ | s⟩ := r
    · -- not found: `XX` skips, `NX` runs out of memory
      by_cases hx : p.ifExists = true
      · simp only [hx, Option.map_none', if_true]
        exact ⟨rfl, rfl⟩
      · simp only [hx, Option.map_none', if_false, Bool.false_eq_true] at h ⊢
        have h0 : t1.prime k = none := habs rfl
        have ht1 : t1.findInternal c k = (t1, [], none) := by simp [findInternal, h0]
        rw [setAdd_eq_of_ne_ok h, ht1]
        exact ⟨rfl, rfl⟩
    · -- found: `NX` skips and runs the updater
      by_cases hx : p.ifExists = true
      · simp [hx] at h
      · simp only [hx, Option.map_some', if_false, Bool.false_eq_true]
        exact AgreeOn.of_entry (sameOutside_runUpdater (K := fun _ => False) c.sz _ k id)
  · simp only [hc, if_false, Bool.false_eq_true] at h ⊢
    rw [setAdd_eq_of_ne_ok h]
    exact ⟨rfl, rfl⟩

end Effect

/-! ## What `SET` journals -/

section Journal

variable {t : DbTable} {c : Ctx} {k : String}

/-- `PrimeEvictionPolicy::Evict` journals at most the eviction of a key that is there. -/
theorem evict_expiries (hk : t.prime k = none) (victim : Option String) :
    ∀ e ∈ (t.evict c victim).2, ∃ x, x ≠ k ∧ e = .expired x := by
  cases victim with
  | none => simp [evict]
  | some x =>
    cases hp : t.prime x with
    | none => simp [evict, hp]
    | some s =>
      have hx : x ≠ k := by rintro rfl; simp [hk] at hp
      simp only [evict, hp]
      split <;> simp [hx]

/-- `AddOrFind` journals what its lookup journals, then evictions of other keys. -/
theorem addOrFind_journal (ins : Insertion) : ∃ rest, (∀ e ∈ rest, ∃ x, x ≠ k ∧ e = .expired x) ∧
    (t.addOrFind c ins k).2.1 = (t.findInternal c k).2.1 ++ rest := by
  have habs := findInternal_absent (t := t) (k := k) c
  unfold addOrFind
  generalize t.findInternal c k = r at habs
  obtain ⟨t1, j, _ | s⟩ := r
  · cases ins with
    | rejected => exact ⟨[], by simp, by simp⟩
    | inserted victim => exact ⟨_, evict_expiries (habs rfl) victim, rfl⟩
  · exact ⟨[], by simp, by simp⟩

/-- `SetCmd::Set` from `AddOrFind` on journals what its lookup journals, evictions of other keys,
then its record when it returns `OK`. -/
theorem setAdd_journal (p : SetParams) (ins : Insertion) (v : String) :
    ∃ rest, (∀ e ∈ rest, ∃ x, x ≠ k ∧ e = .expired x) ∧ (SetCmd.setAdd c p true t ins k v).2.1 =
      (t.findInternal c k).2.1 ++ rest ++
        if (SetCmd.setAdd c p true t ins k v).2.2 = .ok then [SetCmd.recordJournal c p k v] else [] := by
  obtain ⟨rest, hrest, hj⟩ := addOrFind_journal (t := t) (c := c) (k := k) ins
  unfold SetCmd.setAdd
  generalize t.addOrFind c ins k = r at hj
  obtain ⟨t1, j1, u | u | _⟩ := r <;> dsimp only at hj
  · exact ⟨rest, hrest, by rw [← hj]; rfl⟩
  · exact ⟨rest, hrest, by rw [← hj]; rfl⟩
  · exact ⟨rest, hrest, by simp [hj]⟩

/-- `SetCmd::Set` with manual journaling journals what its lookup of the key journals, evictions of
other keys, then its record when it returns `OK`. -/
theorem set_journal (p : SetParams) (ins : Insertion) (v : String) :
    ∃ rest, (∀ e ∈ rest, ∃ x, x ≠ k ∧ e = .expired x) ∧ (SetCmd.set c p true t ins k v).2.1 =
      (t.findInternal c k).2.1 ++ rest ++
        if (SetCmd.set c p true t ins k v).2.2 = .ok then [SetCmd.recordJournal c p k v] else [] := by
  have habs := findInternal_absent (t := t) (k := k) c
  unfold SetCmd.set
  by_cases hc : p.isConditionalSet = true
  · simp only [hc, if_true, findMutable_eq]
    generalize t.findInternal c k = r at habs
    obtain ⟨t1, j1, _ | s⟩ := r
    · by_cases hx : p.ifExists = true
      · exact ⟨[], by simp, by simp [hx]⟩
      · obtain ⟨rest, hrest, hj⟩ := setAdd_journal (t := t1) (c := c) (k := k) p ins v
        have h0 : t1.prime k = none := habs rfl
        have ht1 : t1.findInternal c k = (t1, [], none) := by simp [findInternal, h0]
        exact ⟨rest, hrest, by simp [hx, hj, ht1]⟩
    · by_cases hx : p.ifExists = true
      · exact ⟨[], by simp, by simp [hx, SetCmd.setFound, SetCmd.postEdit]⟩
      · exact ⟨[], by simp, by simp [hx]⟩
  · simp only [hc, if_false, Bool.false_eq_true]
    exact setAdd_journal p ins v

end Journal

/-! ## Replaying the journal -/

section Replay

variable {t t' : DbTable} {c : Ctx} {k : String} {maxMs : Int} {ins : String → Insertion} {cf : Nat}

theorem replay_append (js js' : List JournalEntry) :
    replay c maxMs ins cf t (js ++ js') = replay c maxMs ins cf (replay c maxMs ins cf t js) js' :=
  List.foldl_append _ _ _ _

/-- After `DEL k` the key is gone. -/
theorem opDel_absent : (opDel c t k).prime k = none := by
  have habs := findInternal_absent (t := t) (k := k) c
  unfold opDel
  generalize t.findInternal c k = r at habs
  obtain ⟨t1, j, _ | s⟩ := r
  · exact habs rfl
  · exact del_absent _ _

/-- Replaying evictions of other keys keeps the tables agreeing and what the replica holds at `k`. -/
theorem replay_evictions {t0 : DbTable} {js : List JournalEntry}
    (hj : ∀ e ∈ js, ∃ x, x ≠ k ∧ e = .expired x) :
    ∀ {t' : DbTable}, TablesAgree t' → AgreeOn k t0 t' →
      TablesAgree (replay c maxMs ins cf t' js) ∧ AgreeOn k t0 (replay c maxMs ins cf t' js) := by
  induction js with
  | nil => exact fun ht h => ⟨ht, h⟩
  | cons e js ih =>
    intro t' ht h
    obtain ⟨x, hx, rfl⟩ := hj e (List.mem_cons_self _ _)
    exact ih (fun e he => hj e (List.mem_cons_of_mem _ he)) (ht.opDel c x)
      (h.trans (AgreeOn.of_entry (sameOutside_opDel c x k (Ne.symm hx))))

/-- The replica, after the records of the master's lookups, holds at `k` what the master's lookup
left: the key, or nothing when the lookup deleted it as expired. -/
theorem replay_lookups (ht : TablesAgree t) (ht' : TablesAgree t') (h : AgreeOn k t t') (c' : Ctx)
    (maxMs : Int) (ins : String → Insertion) (cf : Nat) {rest : List JournalEntry} (hrest : ∀ e ∈ rest, ∃ x, x ≠ k ∧ e = .expired x) :
    TablesAgree (replay c' maxMs ins cf t' ((t.findInternal c k).2.1 ++ rest)) ∧
      AgreeOn k (t.findInternal c k).1 (replay c' maxMs ins cf t' ((t.findInternal c k).2.1 ++ rest)) := by
  rw [replay_append]
  refine replay_evictions hrest ?_ ?_ <;>
    rcases findInternal_cases (t := t) (c := c) (k := k) with ⟨hf, -⟩ | ⟨s, hf, -⟩ | ⟨s, hs, hf, -⟩ <;>
    simp only [hf, replay_nil, replay_cons, replay_nil]
  · exact ht'
  · exact ht'
  · exact ht'.opDel c' k
  · exact h
  · exact h
  · have h0 : (t.performDeletionAtomic c.sz k true).prime k = none := by
      simp [performDeletionAtomic_prime _ hs]
    have h1 := ht.findInternal c k
    rw [hf] at h1
    exact AgreeOn.of_absent h1 (ht'.opDel c' k) h0 opDel_absent

end Replay

/-! ## Main theorem -/

variable {k : String}

/-- The replica keeps holding at `k` what the master holds across a `SET` of `k` whose parameters
have the expiry in range and no `KEEPTTL` beside an expiry option. -/
theorem set_agreeOn_replay {maxMs : Int} {p : SetParams} {c c' : Ctx} (hnow : 0 < c.nowMs)
    (hclock : c'.nowMs = c.nowMs) (hexp : c'.expireAllowed = true → c.expireAllowed = true)
    (hp : p.ExpiryInRange maxMs) (hkeep : ¬(p.keepExpire = true ∧ p.expireAfter = true))
    {t t' : DbTable} (ht : TablesAgree t) (ht' : TablesAgree t') (hagree : AgreeOn k t t')
    (ins : Insertion) (ins' : String → Insertion) (hins : ins' k ≠ .rejected) (v : String) :
    AgreeOn k (SetCmd.set c p true t ins k v).1
      (replay c' maxMs ins' 0 t' (SetCmd.set c p true t ins k v).2.1) := by
  obtain ⟨rest, hrest, hj⟩ := set_journal (c := c) (t := t) (k := k) p ins v
  obtain ⟨ht1, hagree1⟩ := replay_lookups ht ht' hagree c' maxMs ins' 0 hrest
  rw [hj, replay_append]
  generalize replay c' maxMs ins' 0 t' ((t.findInternal c k).2.1 ++ rest) = t1 at ht1 hagree1
  split_ifs with hok
  · -- stored: the replica runs the same `SET` without its conditions
    have hok' := set_unconditional_ok (c := c') (p := p) (t := t1) (k := k) (v := v) false hins
    have hnn : 0 ≤ ({ p with ifNotExist := false, ifExists := false, get := false } : SetParams).expireAfterMs :=
      hp.nonneg
    have hrec : SetCmd.recordJournal c p k v = SetCmd.recordJournal c' p k v := by
      simp only [SetCmd.recordJournal, hclock]
    -- the replica sees the key exactly when the master's lookup found it, with its deadline
    obtain ⟨hsome, hlive⟩ : (t1.readValue c' k).isSome = (t.readValue c k).isSome ∧
        ((t.readValue c k).isSome → t1.expire k = t.expire k) := by
      have hread := findInternal_readValue (t := t) (c := c) (k := k)
      have hfound := fun s => findInternal_found_eq (t := t) (c := c) (k := k) (s := s)
      have habs := findInternal_absent (t := t) (k := k) c
      cases hr : (t.findInternal c k).2.2 with
      | none =>
        have hp1 : t1.prime k = none := by simpa [habs hr] using hagree1.1
        have hnone : t.readValue c k = none := by rw [← hread, hr]; rfl
        refine ⟨?_, fun h => by simp [hnone] at h⟩
        rw [hnone]
        simp [readValue, hp1]
      | some s =>
        rw [hfound s hr] at hagree1
        have hts : (t.readValue c k).isSome := by rw [← hread, hr]; rfl
        exact ⟨by rw [hts]; exact hagree1.isSome_readValue ht ht1 hclock hexp hts, fun _ => hagree1.2⟩
    rw [replay_cons, replay_nil, hrec, replayEntry_recordJournal (hclock ▸ hnow) hp hkeep]
    refine ⟨(str_of_readValue (readValue_set hnn _ _ hok')).trans
      (str_of_readValue (readValue_set hp.nonneg _ _ hok)).symm, ?_⟩
    rw [set_expire ht1 (hclock ▸ hnow) hnn hok', set_expire ht hnow hp.nonneg hok, hsome, hclock]
    dsimp only
    split_ifs with hk
    · exact hlive hk.2
    all_goals rfl
  · -- not stored: the master holds what its lookup left, and the replica replays no record
    rw [replay_nil]
    exact (set_agreeOn_of_ne_ok hok).symm.trans hagree1

/-- A replica that holds at a key what the master holds, both with agreeing tables, still does
after any `SET` of that key the master parses, run with manual journaling, and the replay of
everything it journaled; the replica's context has the master's clock and expires keys at most
where the master's does, and its insertion of the key is admitted. -/
theorem set_replica_agrees {parseNowMs maxMs : Int} {connFlags : Nat} {args : List SetArg}
    {p : SetParams} {c c' : Ctx} (hnow : 0 < c.nowMs) (hclock : c'.nowMs = c.nowMs)
    (hexp : c'.expireAllowed = true → c.expireAllowed = true) (hm : 0 ≤ maxMs)
    (hparse : parseSet parseNowMs maxMs { memcacheFlags := connFlags } args = .params p)
    {t t' : DbTable} (ht : TablesAgree t) (ht' : TablesAgree t') (hagree : AgreeOn k t t')
    (ins : Insertion) (ins' : String → Insertion) (hins : ins' k ≠ .rejected) (v : String) :
    AgreeOn k (SetCmd.set c p true t ins k v).1
      (replay c' maxMs ins' 0 t' (SetCmd.set c p true t ins k v).2.1) := by
  obtain ⟨hp, hkeep⟩ := parseSet_inRange hm hparse ⟨fun _ => rfl, le_refl 0, hm⟩
  exact set_agreeOn_replay hnow hclock hexp hp hkeep ht ht' hagree ins ins' hins v

/-- A key `k` held alike by master and replica, both clocks at `1000`, the replica expiring
nothing: `SET k w XX PX 500` and the replay of its journal leave the two holding the same at `k`. -/
theorem set_replica_agrees_xx :
    let c : Ctx := ⟨1000, true, ⟨fun _ => true, fun _ => 0, fun _ => 0, rfl⟩⟩
    let c' : Ctx := ⟨1000, false, ⟨fun _ => true, fun _ => 0, fun _ => 0, rfl⟩⟩
    let t0 := DbTable.empty.insertKey "k" ⟨false, ⟨"v", false, false⟩⟩
    let p : SetParams := { ifExists := true, expireAfter := true, expireAfterMs := 500 }
    parseSet 1000 10000 { memcacheFlags := 0 } [.xx, .px 500] = .params p ∧
      AgreeOn "k" (SetCmd.set c p true t0 (.inserted none) "k" "w").1
        (replay c' 10000 (fun _ => .inserted none) 0 t0
          (SetCmd.set c p true t0 (.inserted none) "k" "w").2.1) := by
  have hagree : TablesAgree (DbTable.empty.insertKey "k" ⟨false, ⟨"v", false, false⟩⟩) := fun k' => by
    by_cases hk : k' = "k" <;> simp [KeyAgrees, DbTable.empty, hk]
  have hparse : parseSet 1000 10000 { memcacheFlags := 0 } [.xx, .px 500] =
      .params { ifExists := true, expireAfter := true, expireAfterMs := 500 } := by rfl
  exact ⟨hparse, set_replica_agrees (by decide) (by rfl) (by decide) (by decide) hparse hagree hagree
    ⟨rfl, rfl⟩ (.inserted none) (fun _ => .inserted none) (by decide) "w"⟩

end Dragonfly.Strings
