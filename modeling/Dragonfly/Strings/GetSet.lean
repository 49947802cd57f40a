import Dragonfly.Strings.Range

/-!
# The `GET` of `SET`, and `GETSET`

`SetCmd::Set` calls `CachePrevIfNeeded` on the key a lookup found, before it changes it: under
`NX` or `XX` on what `FindMutable` found, and otherwise (also under `NX` when nothing was found) on
what `AddOrFind` found when the key is not new. When the parameters carry `prev_val`, the string of
that key is stored there (`SetCmd.prevVal`). `StringFamily::Set` with `GET` sends that value
whatever `SetGeneric` returned, `WRONG_TYPE` apart (`StringFamily.setGetReply`);
`StringFamily::GetSet` sends it only when the status is `OK`, and the status as an error otherwise
(`StringFamily.getSet`).

## Main theorems

`setGet_replies_prior_read`: under every option `SET` accepts, the reply of `SET key value ... GET`
is what a read of the key saw before the command.

`getSet_swaps`: with the insertion admitted, `GETSET key value` replies with what a read of the key
saw before, and the key then reads as `value`.

`setGet_outOfMemory_replies_nil`: on a key a read does not see, with the insertion refused,
`SET key value GET` stores nothing and replies nil, which is also its reply when it stores;
`GETSET key value` replies `OUT_OF_MEMORY`.

The lemmas on the way say that a `SetCmd::Set` returning `OK` leaves the key reading as the new
value, under every option (`readValue_set`).
-/

namespace Dragonfly.Strings

open Keys

/-! ## Algorithm -/

namespace SetCmd

variable (c : Ctx) (p : SetParams)

/-- `CachePrevIfNeeded` on what `AddOrFind` returned: the string of a key that is not new. -/
def cachePrevAdded (t : DbTable) (ins : Insertion) (k : String) : Option String :=
  match t.addOrFind c ins k with
  | (t1, _, .found _) => some (t1.valueStr k)
  | _ => none

/-- What `*params.prev_val` holds when `SetCmd::Set` returns, for parameters with `prev_val`
(`p.get`): under `NX` or `XX` the key `FindMutable` found, and under `NX` with nothing found the
key `AddOrFind` found; otherwise the key `AddOrFind` found. -/
def prevVal (t : DbTable) (ins : Insertion) (k : String) : Option String :=
  if p.get then
    if p.isConditionalSet then
      match t.findMutable c k with
      | (t1, _, some _) => some (t1.valueStr k)
      | (t1, _, none) => if p.ifExists then none else cachePrevAdded c t1 ins k
    else cachePrevAdded c t ins k
  else none

end SetCmd

/-- What `StringFamily::Set` sends: with `GET`, once the options are read and `SetGeneric` ran,
the value `CachePrevIfNeeded` cached (`GetReplies::Send(prev)`, as `ok`); otherwise the reply of
`StringFamily.set` (as `error`). -/
def StringFamily.setGetReply (parseNowMs maxMs : Int) (c : Ctx) (connFlags : Nat)
    (manualJournal : Bool) (ins : Insertion) (t : DbTable) (k v : String) (args : List SetArg) :
    Except SetReply (Option String) :=
  match parseSet parseNowMs maxMs { memcacheFlags := connFlags } args with
  | .params p =>
    if p.get then .ok (SetCmd.prevVal c p t ins k)
    else .error (StringFamily.set parseNowMs maxMs c connFlags manualJournal ins t k v args).2
  | _ => .error (StringFamily.set parseNowMs maxMs c connFlags manualJournal ins t k v args).2

/-- `StringFamily::GetSet`: `SetGeneric` with `prev_val` and no flag; a status other than `OK` is
sent as an error, else the cached value. -/
def StringFamily.getSet (c : Ctx) (manualJournal : Bool) (ins : Insertion) (t : DbTable)
    (k v : String) : DbTable × Except OpStatus (Option String) :=
  let p : SetParams := { get := true }
  match SetCmd.set c p manualJournal t ins k v with
  | (t', _, .ok) => (t', .ok (SetCmd.prevVal c p t ins k))
  | (t', _, r) => (t', .error r)

/-! ## Lemmas -/

/-- An option other than `GET` leaves `SET_GET` as it was. -/
theorem parseSetArg_get {n m : Int} {p p' : SetParams} {a : SetArg}
    (h : parseSetArg n m p a = .ok p') : p'.get = (p.get || decide (a = .get)) := by
  cases a <;> simp only [parseSetArg, parseExpiry] at h <;> (try split_ifs at h) <;> cases h <;> simp

/-- An option the loop refuses ends it in an error or a deletion, never in parameters. -/
theorem parseSetArg_error {n m : Int} {p : SetParams} {a : SetArg} {r : SetParsed}
    (h : parseSetArg n m p a = .error r) (p' : SetParams) : r ≠ .params p' := by
  rintro rfl
  cases a <;> simp only [parseSetArg, parseExpiry] at h <;> (try split_ifs at h) <;> cases h

/-- `GET` among the options of a `SET` that parses sets `SET_GET`. -/
theorem parseSet_get {n m : Int} : ∀ {p0 p : SetParams} {args : List SetArg},
    parseSet n m p0 args = .params p → (p0.get = true ∨ SetArg.get ∈ args) → p.get = true
  | p0, p, [], h, hg => by
    simp only [parseSet] at h
    split_ifs at h
    cases h
    simpa using hg
  | p0, p, a :: as, h, hg => by
    simp only [parseSet] at h
    split at h
    · exact absurd h (parseSetArg_error (by assumption) p)
    · next p' hp' =>
      refine parseSet_get h ?_
      rw [parseSetArg_get hp']
      rcases hg with hg | hg
      · simp [hg]
      · rcases List.mem_cons.1 hg with rfl | hg
        · simp
        · exact .inr hg

section Table

open DbTable

variable {t : DbTable} {c : Ctx} {ins : Insertion} {k : String}

theorem readValue_setMCFlag (k : String) (flag : Nat) (k' : String) :
    (t.setMCFlag k flag).readValue c k' = t.readValue c k' := by
  unfold setMCFlag; split <;> rfl

theorem readValue_account (n : Int) (k' : String) :
    (t.account n).readValue c k' = t.readValue c k' := by
  unfold account; split <;> rfl

/-- A change of the slot that keeps the string and `HasExpire` keeps what reads see. -/
theorem readValue_modify (f : Slot → Slot)
    (hf : ∀ s, (f s).value.str = s.value.str ∧ (f s).value.hasExpire = s.value.hasExpire)
    (k' : String) : (t.modify k f).readValue c k' = t.readValue c k' := by
  unfold readValue expired
  rw [modify_prime, modify_expire]
  split_ifs with h
  · subst h
    cases t.prime k' <;> simp [hf]
  · rfl

theorem readValue_setExpire_later {s : Slot} (hs : t.prime k = some s) {d : Int}
    (hd : c.nowMs < d) : (t.setExpire k (some d)).readValue c k = some s.value.str := by
  simp [readValue, expired, hs, not_le.2 hd]

theorem readValue_addExpire_later {s : Slot} (hs : t.prime k = some s) {d : Int}
    (hd : c.nowMs < d) : (t.addExpire k d).readValue c k = some s.value.str := by
  simp [readValue, expired, addExpire, hs, not_le.2 hd]

theorem readValue_removeExpire {s : Slot} (hs : t.prime k = some s) :
    (t.removeExpire k).1.readValue c k = some s.value.str := by
  unfold removeExpire
  simp only [hs]
  split_ifs with he
  · simp [readValue, hs]
  · simp [readValue, hs, he]

/-- A key `AddOrFind` does not find reads as missing. -/
theorem addOrFind_readValue_none (h : ∀ u, (t.addOrFind c ins k).2.2 ≠ .found u) :
    t.readValue c k = none := by
  have hread := findInternal_readValue (t := t) (c := c) (k := k)
  unfold addOrFind at h
  generalize t.findInternal c k = r at h hread
  obtain ⟨t1, j, _ | s⟩ := r
  · exact hread.symm
  · exact absurd rfl (h _)

/-- What `CachePrevIfNeeded` takes from `AddOrFind` is what a read sees. -/
theorem cachePrevAdded_eq : SetCmd.cachePrevAdded c t ins k = t.readValue c k := by
  have hfound := fun u (h : (t.addOrFind c ins k).2.2 = .found u) =>
    (addOrFind_found_readValue h).2
  have hnone : (∀ u, (t.addOrFind c ins k).2.2 ≠ .found u) → t.readValue c k = none :=
    addOrFind_readValue_none
  unfold SetCmd.cachePrevAdded
  generalize t.addOrFind c ins k = r at hfound hnone ⊢
  obtain ⟨t1, j, u | u | _⟩ := r
  · exact (hfound u rfl).symm
  all_goals exact (hnone fun _ => by simp).symm

/-- The value `CachePrevIfNeeded` caches is what a read of the key saw before `SetCmd::Set`,
under every option. -/
theorem prevVal_eq_readValue {p : SetParams} (hg : p.get = true) :
    SetCmd.prevVal c p t ins k = t.readValue c k := by
  have hread := findInternal_readValue (t := t) (c := c) (k := k)
  have hsame := readValue_findInternal (t := t) (c := c) (k := k) k
  have hfound := fun s => findInternal_found (t := t) (k := k) (s := s) c
  unfold SetCmd.prevVal
  rw [if_pos hg, findMutable_eq]
  split
  · generalize t.findInternal c k = r at hread hsame hfound ⊢
    obtain ⟨t1, j, _ | s⟩ := r
    · simp only [Option.map_none'] at hread hsame ⊢
      rw [cachePrevAdded_eq, hsame, ← hread]
      exact ite_self _
    · have hp : t1.prime k = some s := hfound s rfl
      rw [← hread]
      simp [valueStr, hp]
  · exact cachePrevAdded_eq

/-- `SetExisting` on a key a read sees, with a relative expiry that is not negative, leaves the key
reading as the new string: a deadline it keeps had not passed, and one it sets is later than now. -/
theorem readValue_setExisting {p : SetParams} (hp : 0 ≤ p.expireAfterMs)
    (h : (t.readValue c k).isSome) (v : String) (u : AutoUpdater) :
    (SetCmd.setExisting c p t k v u).1.readValue c k = some v := by
  obtain ⟨s, hs, hlive⟩ : ∃ s, t.prime k = some s ∧ (s.value.hasExpire && t.expired c k) = false := by
    unfold readValue at h
    split at h
    · simp at h
    · next s hs => exact ⟨s, hs, by simpa using h⟩
  have hread : t.readValue c k = some s.value.str := by simp [readValue, hs, hlive]
  refine readValue_setString (x := s.value.str) v ?_
  simp only [SetCmd.setExisting, reduceHeapUsage, readValue_setMCFlag, readValue_account,
    readValue_modify, and_self, implies_true, apply_ite (readValue · c k), ite_self]
  have hlt : (if p.expireAfterMs ≠ 0 then p.expireAfterMs + c.nowMs else 0) ≠ 0 →
      c.nowMs < if p.expireAfterMs ≠ 0 then p.expireAfterMs + c.nowMs else 0 := by
    split_ifs <;> omega
  generalize (if p.expireAfterMs ≠ 0 then p.expireAfterMs + c.nowMs else 0) = atMs at hlt ⊢
  split_ifs with hk hat
  · exact hread
  · exact readValue_setExpire_later hs (hlt hat)
  · exact readValue_addExpire_later hs (hlt hat)
  · exact readValue_removeExpire hs

/-- `AddNew` on the key just inserted, with a relative expiry that is not negative, leaves it
reading as the new string. -/
theorem readValue_addNew {p : SetParams} (hp : 0 ≤ p.expireAfterMs) {s : Slot}
    (hs : t.prime k = some s) (v : String) : (SetCmd.addNew c p t k v).readValue c k = some v := by
  have hs1 : (t.modify k fun s => { s with value := ⟨v, false, p.memcacheFlags ≠ 0⟩ }).prime k =
      some { s with value := ⟨v, false, p.memcacheFlags ≠ 0⟩ } := by simp [hs]
  simp only [SetCmd.addNew, readValue_setMCFlag, readValue_modify, and_self, implies_true,
    apply_ite (readValue · c k), ite_self]
  split_ifs with he
  · exact readValue_addExpire_later hs1 (by omega)
  · unfold readValue; rw [hs1]; rfl

/-- `SetCmd::Set` from `AddOrFind` on: when it returns `OK`, the key reads as the new string. -/
theorem readValue_setAdd {p : SetParams} (hp : 0 ≤ p.expireAfterMs) (mj : Bool) (v : String)
    (h : (SetCmd.setAdd c p mj t ins k v).2.2 = .ok) :
    (SetCmd.setAdd c p mj t ins k v).1.readValue c k = some v := by
  have hfound := fun u (h : (t.addOrFind c ins k).2.2 = .found u) => (addOrFind_found_readValue h).1
  have hnew := fun u => addOrFind_new (t := t) (k := k) c ins (u := u)
  unfold SetCmd.setAdd at h ⊢
  generalize t.addOrFind c ins k = r at h hfound hnew ⊢
  obtain ⟨t1, j1, u | u | _⟩ := r
  · exact (readValue_runUpdater _ _ k).trans (readValue_setExisting hp (by simp [hfound u rfl]) v u)
  · exact (readValue_runUpdater _ _ k).trans (readValue_addNew hp (hnew u rfl) v)
  · simp at h

/-- When `SetCmd::Set` returns `OK`, the key reads as the new string, under every option and every
relative expiry that is not negative. -/
theorem readValue_set {p : SetParams} (hp : 0 ≤ p.expireAfterMs) (mj : Bool) (v : String)
    (h : (SetCmd.set c p mj t ins k v).2.2 = .ok) :
    (SetCmd.set c p mj t ins k v).1.readValue c k = some v := by
  have hread := findInternal_readValue (t := t) (c := c) (k := k)
  have hsame := readValue_findInternal (t := t) (c := c) (k := k) k
  unfold SetCmd.set at h ⊢
  split_ifs at h ⊢ with hc hx
  · -- `XX`: a key found is set, else `SKIPPED`
    rw [findMutable_eq] at h ⊢
    generalize t.findInternal c k = r at hread hsame h ⊢
    obtain ⟨t1, j1, _ | s⟩ := r
    · simp at h
    · simp only [Option.map_some'] at hread hsame ⊢
      exact (readValue_runUpdater _ _ k).trans
        (readValue_setExisting hp (by rw [hsame, ← hread]; rfl) v _)
  · -- `NX`: a key found is `SKIPPED`, else `AddOrFind`
    rw [findMutable_eq] at h ⊢
    generalize t.findInternal c k = r at hread hsame h ⊢
    obtain ⟨t1, j1, _ | s⟩ := r
    · simp only [Option.map_none'] at h ⊢
      exact readValue_setAdd hp mj v h
    · simp at h
  · exact readValue_setAdd hp mj v h

/-- With the insertion admitted, `SetCmd::Set` from `AddOrFind` on returns `OK`. -/
theorem setAdd_inserted (p : SetParams) (mj : Bool) (victim : Option String) (v : String) :
    (SetCmd.setAdd c p mj t (.inserted victim) k v).2.2 = .ok := by
  unfold SetCmd.setAdd addOrFind
  generalize t.findInternal c k = r
  obtain ⟨t1, j, _ | s⟩ := r <;> rfl

/-- On a key a read does not see, with the insertion refused, `SetCmd::Set` from `AddOrFind` on
returns `OUT_OF_MEMORY` and the key still reads as missing. -/
theorem setAdd_rejected (p : SetParams) (mj : Bool) (v : String) (h : t.readValue c k = none) :
    (SetCmd.setAdd c p mj t .rejected k v).2.2 = .outOfMemory ∧
      (SetCmd.setAdd c p mj t .rejected k v).1.readValue c k = none := by
  have hread := findInternal_readValue (t := t) (c := c) (k := k)
  have hsame := readValue_findInternal (t := t) (c := c) (k := k) k
  unfold SetCmd.setAdd addOrFind
  generalize t.findInternal c k = r at hread hsame
  obtain ⟨t1, j, _ | s⟩ := r
  · exact ⟨rfl, hsame.trans h⟩
  · simp [h] at hread

/-- The reply of `SET key value ... GET`, under every option `SET` accepts and whatever
`SetCmd::Set` then did, is what a read of the key saw before the command. -/
theorem setGet_replies_prior_read {parseNowMs maxMs : Int} {connFlags : Nat} {args : List SetArg}
    {p : SetParams} (hparse : parseSet parseNowMs maxMs { memcacheFlags := connFlags } args = .params p)
    (hget : SetArg.get ∈ args) (mj : Bool) (ins : Insertion) (v : String) :
    StringFamily.setGetReply parseNowMs maxMs c connFlags mj ins t k v args = .ok (t.readValue c k) := by
  have hg := parseSet_get hparse (.inr hget)
  simp only [StringFamily.setGetReply, hparse, hg, if_true, prevVal_eq_readValue hg]

theorem setGet_replies_prior_read_nx :
    let c : Ctx := ⟨0, true, ⟨fun _ => true, fun _ => 0, fun _ => 0, rfl⟩⟩
    let t := DbTable.empty.insertKey "k" ⟨false, ⟨"v", false, false⟩⟩
    parseSet 0 0 { memcacheFlags := 0 } [.nx, .get] = .params { ifNotExist := true, get := true } ∧
      StringFamily.setGetReply 0 0 c 0 false (.inserted none) t "k" "w" [.nx, .get] =
        .ok (t.readValue c "k") :=
  ⟨rfl, setGet_replies_prior_read (by rfl) (by decide) false (.inserted none) "w"⟩

/-- `GETSET key value` with the insertion admitted swaps: it replies with what a read of the key saw
before, and the key then reads as `value`. -/
theorem getSet_swaps (mj : Bool) (victim : Option String) (v : String) :
    (StringFamily.getSet c mj (.inserted victim) t k v).2 = .ok (t.readValue c k) ∧
      (StringFamily.getSet c mj (.inserted victim) t k v).1.readValue c k = some v := by
  have hok : (SetCmd.set c { get := true } mj t (.inserted victim) k v).2.2 = .ok :=
    setAdd_inserted _ mj victim v
  have hread := readValue_set (p := { get := true }) le_rfl mj v hok
  dsimp only [StringFamily.getSet]
  generalize SetCmd.set c { get := true } mj t (.inserted victim) k v = r at hok hread
  obtain ⟨t', j, r⟩ := r
  cases hok
  exact ⟨by rw [prevVal_eq_readValue rfl], hread⟩

/-- On a key a read does not see, with the insertion refused, `SET key value GET` stores nothing
and replies nil, which is also its reply when the insertion is admitted and the value stored;
`GETSET key value` replies `OUT_OF_MEMORY`. -/
theorem setGet_outOfMemory_replies_nil (h : t.readValue c k = none) (parseNowMs maxMs : Int)
    (connFlags : Nat) (mj : Bool) (victim : Option String) (v : String) :
    (StringFamily.set parseNowMs maxMs c connFlags mj .rejected t k v [.get]).1.readValue c k = none ∧
      StringFamily.setGetReply parseNowMs maxMs c connFlags mj .rejected t k v [.get] = .ok none ∧
      (StringFamily.set parseNowMs maxMs c connFlags mj (.inserted victim) t k v [.get]).1.readValue
        c k = some v ∧
      StringFamily.setGetReply parseNowMs maxMs c connFlags mj (.inserted victim) t k v [.get] =
        .ok none ∧
      (StringFamily.getSet c mj .rejected t k v).2 = .error .outOfMemory := by
  let p : SetParams := { memcacheFlags := connFlags, get := true }
  have hparse : parseSet parseNowMs maxMs { memcacheFlags := connFlags } [.get] = .params p := rfl
  have hoom : (SetCmd.set c { get := true } mj t .rejected k v).2.2 = .outOfMemory :=
    (setAdd_rejected _ mj v h).1
  refine ⟨(setAdd_rejected p mj v h).2, ?_,
    readValue_setAdd le_rfl mj v (setAdd_inserted p mj victim v), ?_, ?_⟩
  · simp only [StringFamily.setGetReply, hparse, if_true, prevVal_eq_readValue (p := p) rfl, h]
  · simp only [StringFamily.setGetReply, hparse, if_true, prevVal_eq_readValue (p := p) rfl, h]
  · dsimp only [StringFamily.getSet]
    generalize SetCmd.set c { get := true } mj t .rejected k v = r at hoom
    obtain ⟨t', j, r⟩ := r
    cases hoom
    rfl

theorem setGet_outOfMemory_replies_nil_empty :
    let c : Ctx := ⟨0, true, ⟨fun _ => true, fun _ => 0, fun _ => 0, rfl⟩⟩
    DbTable.empty.readValue c "k" = none ∧
      (StringFamily.set 0 0 c 0 false .rejected DbTable.empty "k" "v" [.get]).1.readValue c "k" =
        none ∧
      StringFamily.setGetReply 0 0 c 0 false .rejected DbTable.empty "k" "v" [.get] = .ok none ∧
      (StringFamily.set 0 0 c 0 false (.inserted none) DbTable.empty "k" "v" [.get]).1.readValue
        c "k" = some "v" ∧
      StringFamily.setGetReply 0 0 c 0 false (.inserted none) DbTable.empty "k" "v" [.get] =
        .ok none ∧
      (StringFamily.getSet c false .rejected DbTable.empty "k" "v").2 = .error .outOfMemory :=
  ⟨rfl, setGet_outOfMemory_replies_nil (by rfl) 0 0 0 false none "v"⟩

end Table

end Dragonfly.Strings
