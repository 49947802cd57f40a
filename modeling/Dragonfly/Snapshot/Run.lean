import Dragonfly.Snapshot.Updates

/-!
# Runs of a shard with concurrent snapshots

A `Step` is one operation of the shard, run to completion between two fiber switches (the
callbacks hold `big_value_mu_`, so a serialization that yields is not interleaved with another
change of the same snapshot): a callback registers or unregisters, a snapshot or a slot flush
moves its cursor one bucket, a key is written, inserted or bumped up through the callbacks, or an
entry is deleted without them (expiry, heartbeat eviction).

Every step keeps `ShardInv` and raises no bucket's version (`Step.keeps`), so along every run
from an initial shard:

    (∀ b, ver s b ≤ ver t b) ∧ versions below next_version_ ∧ change_cb_ sorted
                                                              (versions_monotone_run)
    a snapshot whose cursor reached the end wrote exactly the registration image minus its
    callback-free losses, one record per key                  (snapshot_emits_image)
-/

namespace Dragonfly.Snapshot.DbSlice

/-- What `PrimeTable::InsertNew` does in the table `s` for a `key` it does not hold: the buckets
`touched` (those `CVCUponInsert` enumerates) take the contents `nc`, which hold the new entry, in
bucket `target`, and entries the touched buckets held (an insertion may evict some of them). -/
structure InsertOk (s : DbSlice) (touched : List Nat) (target : Nat) (key : String) (r : Record)
    (nc : Nat → List Entry) : Prop where
  touched_lt : ∀ b ∈ touched, b < s.size
  nodup : touched.Nodup
  target_mem : target ∈ touched
  absent : key ∉ s.entries.map Entry.key
  placed : ⟨s.nextUid, key, r⟩ ∈ nc target
  moved : (touched.flatMap nc).Subperm
    ((touched.flatMap fun b => (s.buckets b).entries) ++ [⟨s.nextUid, key, r⟩])

/-- What `PrimeTable::BumpUp` does in the table `s`: the buckets `touched` (those `CVCUponBump`
enumerates) exchange their entries. -/
structure BumpOk (s : DbSlice) (touched : List Nat) (nc : Nat → List Entry) : Prop where
  touched_lt : ∀ b ∈ touched, b < s.size
  nodup : touched.Nodup
  moved : (touched.flatMap nc).Perm (touched.flatMap fun b => (s.buckets b).entries)

/-- One operation of the shard. -/
inductive Step : DbSlice → DbSlice → Prop
  /-- `RegisterOnChange`: a snapshot or a slot flush starts. -/
  | register {s : DbSlice} (l : Listener) : Step s (s.registerOnChange l)
  /-- `UnregisterOnChange`: a snapshot or a slot flush ends. -/
  | unregister {s : DbSlice} (id : Nat) : Step s (s.unregisterOnChange id)
  /-- `IterateBucketsFb` gives the bucket under the cursor to `BucketSaveCb`. -/
  | snapshot {s : DbSlice} {v : Nat} : s.IsSnapshot v → (s.passes v).cursor < s.size →
      Step s (s.snapshotStep v)
  /-- `FlushSlotsFb` flushes the bucket under its cursor. -/
  | flushSlots {s : DbSlice} {f : Nat} {fl : String → Bool} : (f, .flushSlots fl) ∈ s.changeCb →
      (s.passes f).cursor < s.size → Step s (s.flushSlotsStep f fl)
  /-- `FindMutable` or `AddOrFind` of a present key, then a new record or `Del`. -/
  | write {s : DbSlice} {b : Nat} {e : Entry} (r : Option Record) : b < s.size →
      e ∈ (s.buckets b).entries → Step s (s.writeKey b e r)
  /-- `AddOrFind` or `AddNew` of an absent key. -/
  | insert {s : DbSlice} {touched : List Nat} {target : Nat} {key : String} {r : Record}
      {nc : Nat → List Entry} : InsertOk (s.callChangeCallbacksInsert touched) touched target key r nc →
      Step s (s.insertNew touched target nc)
  /-- An insertion rejected with `OUT_OF_MEMORY` after its callbacks ran. -/
  | insertRejected {s : DbSlice} {touched : List Nat} : (∀ b ∈ touched, b < s.size) →
      touched.Nodup → Step s (s.callChangeCallbacksInsert touched)
  /-- A bump-up of `OnCbFinishBlocking`. -/
  | bumpUp {s : DbSlice} {touched : List Nat} {nc : Nat → List Entry} :
      BumpOk (s.cvcUponBump touched) touched nc → Step s (s.bumpUp touched nc)
  /-- A deletion without callbacks: `ExpireIfNeeded`, `DeleteExpiredStep`, heartbeat eviction. -/
  | expire {s : DbSlice} {b : Nat} {e : Entry} : b < s.size → e ∈ (s.buckets b).entries →
      Step s (s.performDeletion b e)

/-- A shard before any callback is registered. -/
structure Init (s : DbSlice) : Prop where
  changeCb : s.changeCb = []
  version_lt : ∀ b < s.size, (s.buckets b).version < s.nextVersion
  keys : s.KeysUnique
  uid_lt : ∀ e, s.InTable e → e.uid < s.nextUid

/-- The states a shard reaches from an initial one. -/
inductive Reachable : DbSlice → Prop
  | init {s : DbSlice} : s.Init → Reachable s
  | step {s t : DbSlice} : Reachable s → Step s t → Reachable t

/-- `t` keeps the invariant and no bucket of `s` lost version on the way. -/
structure Keeps (s t : DbSlice) : Prop where
  inv : t.ShardInv
  version : ∀ b, (s.buckets b).version ≤ (t.buckets b).version

/-! ## Lemmas -/

variable {s t : DbSlice}

theorem Keeps.trans {u : DbSlice} (h : Keeps s t) (h' : Keeps t u) : Keeps s u :=
  ⟨h'.inv, fun b => (h.version b).trans (h'.version b)⟩

theorem Effects.keeps (h : Effects s t) (hs : s.ShardInv) : Keeps s t :=
  ⟨h.inv hs, h.frame.version⟩

theorem Init.inv (h : s.Init) : s.ShardInv where
  version_lt := h.version_lt
  cb_lt l hl := by simp [h.changeCb] at hl
  sorted := by simp [h.changeCb]
  keys := h.keys
  uid_lt := h.uid_lt
  snap _ := fun ⟨l, hl, _⟩ => by simp [h.changeCb] at hl

theorem rewrite_keeps (hs : s.ShardInv) {T : List Nat} {nc : Nat → List Entry} {n : Nat}
    (hT : ∀ b ∈ T, b < s.size) (hW : ∀ b ∈ T, s.Written b) (hn : s.nextUid ≤ n)
    (hplace : ∀ b ∈ T, ∀ e ∈ nc b, (s.nextUid ≤ e.uid ∧ e.uid < n) ∨
      ∃ b' ∈ T, e ∈ (s.buckets b').entries)
    (hkeys : (s.rewrite T nc).KeysUnique) : Keeps s { s.rewrite T nc with nextUid := n } :=
  ⟨hs.rewrite hT hW hn hplace hkeys, fun b => by simp⟩

theorem setNextVersion_keeps (hs : s.ShardInv) {b : Nat} (hb : b < s.size) (hW : s.Written b) :
    Keeps s (s.setNextVersion b) :=
  ⟨hs.setNextVersion hb hW, version_le_setNextVersion hs hb⟩

/-- `NextVersion()` for buckets every snapshot has written, one after the other. -/
theorem setNextVersions_keeps :
    ∀ {bs : List Nat} {s : DbSlice}, s.ShardInv → (∀ b ∈ bs, b < s.size ∧ s.Written b) →
      Keeps s (s.setNextVersions bs)
  | [], _, hs, _ => ⟨hs, fun _ => le_rfl⟩
  | b :: _, _, hs, hbs =>
    have hb := hbs b (List.mem_cons_self _ _)
    have h1 := setNextVersion_keeps hs hb.1 hb.2
    h1.trans (setNextVersions_keeps h1.inv fun b' hb' =>
      have h := hbs b' (List.mem_cons_of_mem _ hb')
      ⟨h.1, h.2.setNextVersion hs⟩)

/-- A bucket every snapshot has written stays written while versions only rise and the callbacks
stay. -/
theorem Keeps.written (h : Keeps s t) (hcb : t.changeCb = s.changeCb) {b : Nat} (hW : s.Written b) :
    t.Written b :=
  fun w hw => (hW w (by simpa [IsSnapshot, hcb] using hw)).trans (h.version b)

/-- `PreUpdateBlocking`: the callbacks, then `NextVersion()`; afterwards every snapshot has written
the bucket. -/
theorem preUpdateBlocking_spec (hs : s.ShardInv) {b : Nat} (hb : b < s.size) :
    Keeps s (s.preUpdateBlocking b) ∧ (s.preUpdateBlocking b).Written b ∧
      (s.preUpdateBlocking b).size = s.size := by
  obtain ⟨hc, hw⟩ := callChangeCallbacks_spec hs hb
  exact ⟨(hc.keeps hs).trans (setNextVersion_keeps (hc.inv hs) (hc.frame.size ▸ hb) hw),
    written_setNextVersion (hc.inv hs), hc.frame.size⟩

/-- A write replaces the entry's record by a freshly stamped one, or deletes it. -/
theorem writeKey_keeps (hs : s.ShardInv) {b : Nat} (hb : b < s.size) (e : Entry)
    (r : Option Record) : Keeps s (s.writeKey b e r) := by
  obtain ⟨hk, hw, hsize⟩ := preUpdateBlocking_spec hs hb
  unfold writeKey
  dsimp only
  generalize s.preUpdateBlocking b = t at *
  have ht := hk.inv
  have hT : ∀ b' ∈ [b], b' < t.size := by simpa [hsize] using hb
  have hW : ∀ b' ∈ [b], t.Written b' := by simpa using hw
  cases r with
  | some r =>
    split
    · rename_i he
      refine hk.trans (rewrite_keeps ht hT hW (Nat.le_succ _) (fun _ _ x hx => ?_) ?_)
      · rcases List.mem_append.1 hx with hx | hx
        · exact .inr ⟨b, List.mem_singleton_self b, List.mem_of_mem_erase hx⟩
        · rw [List.mem_singleton.1 hx]; exact .inl ⟨le_rfl, Nat.lt_succ_self _⟩
      · refine ht.keys.rewrite hT (List.nodup_singleton b) (K := []) List.nodup_nil nofun ?_
        simp only [List.flatMap_singleton, List.append_nil, List.map_append, List.map_cons,
          List.map_nil]
        exact ((List.perm_append_singleton _ _).trans
          ((List.perm_cons_erase he).map Entry.key).symm).subperm
    · exact hk
  | none =>
    split
    · refine hk.trans (rewrite_keeps (n := t.nextUid) ht hT hW le_rfl
        (fun _ _ x hx => .inr ⟨b, List.mem_singleton_self b, List.mem_of_mem_erase hx⟩) ?_)
      refine ht.keys.rewrite hT (List.nodup_singleton b) (K := []) List.nodup_nil nofun ?_
      simpa using ((List.erase_sublist e _).map Entry.key).subperm
    · exact hk

theorem foldl_size {α : Type} {f : DbSlice → α → DbSlice} (hf : ∀ t a, (f t a).size = t.size) :
    ∀ (L : List α) (t : DbSlice), (L.foldl f t).size = t.size
  | [], _ => rfl
  | a :: L, t => (foldl_size hf L (f t a)).trans (hf t a)

/-- Callbacks never change the number of buckets. -/
theorem callChangeCallbacksInsert_size (T : List Nat) :
    (s.callChangeCallbacksInsert T).size = s.size := by
  refine foldl_size (fun t l => ?_) _ _
  obtain ⟨v, _ | fl⟩ := l <;> simp only [fireInsert, cvcUponInsert]
  · exact foldl_size (fun _ b => serializeBucket_size v b) _ _
  · refine foldl_size (fun t b => ?_) _ _
    simp only [iterateBucket]
    split
    · exact foldl_size (fun _ e => performDeletion_size b e) _ _
    · rfl

theorem cvcUponBump_size (T : List Nat) : (s.cvcUponBump T).size = s.size := by
  unfold cvcUponBump
  split
  · rfl
  · exact foldl_size (fun t b => by rw [callChangeCallbacks_eq]; exact callChangeCallbacksInsert_size _)
      _ _

/-- An insertion: the callbacks, `InsertNew` with `NextVersion()` for every bucket it changes, then
`NextVersion()` for the new entry's bucket. -/
theorem insertNew_keeps (hs : s.ShardInv) {T : List Nat} {target : Nat} {key : String}
    {r : Record} {nc : Nat → List Entry}
    (h : InsertOk (s.callChangeCallbacksInsert T) T target key r nc) :
    Keeps s (s.insertNew T target nc) := by
  have hT : ∀ b ∈ T, b < s.size := fun b hb =>
    callChangeCallbacksInsert_size (s := s) T ▸ h.touched_lt b hb
  obtain ⟨hc, hW⟩ := callChangeCallbacksInsert_spec hs hT h.nodup
  unfold insertNew mutate
  dsimp only
  generalize s.callChangeCallbacksInsert T = u at *
  have hu := hc.inv hs
  have h1 : Keeps u { u.rewrite T nc with nextUid := u.nextUid + 1 } := by
    refine rewrite_keeps hu h.touched_lt hW (Nat.le_succ _) (fun b hb e he => ?_) ?_
    · rcases List.mem_append.1 (h.moved.subset (List.mem_flatMap.2 ⟨b, hb, he⟩)) with he' | he'
      · exact .inr (by simpa [List.mem_flatMap] using he')
      · rw [List.mem_singleton.1 he']; exact .inl ⟨le_rfl, Nat.lt_succ_self _⟩
    · refine hu.keys.rewrite h.touched_lt h.nodup (List.nodup_singleton key)
        (by simpa using h.absent) ?_
      simpa using subperm_map Entry.key h.moved
  have h2 := @setNextVersions_keeps (u.changed T nc) _ h1.inv fun b hb =>
    have hbT := (List.mem_filter.1 hb).1
    ⟨h.touched_lt b hbT, (hW b hbT).rewrite⟩
  exact (hc.keeps hs).trans (h1.trans (h2.trans (setNextVersion_keeps h2.inv
    (by simpa using h.touched_lt _ h.target_mem)
    (h2.written (by simp) (hW _ h.target_mem).rewrite))))

/-- A bump-up: `CVCUponBump`'s callbacks, then the touched buckets exchange entries and every one
that changes takes `NextVersion()`. -/
theorem bumpUp_keeps (hs : s.ShardInv) {T : List Nat} {nc : Nat → List Entry}
    (h : BumpOk (s.cvcUponBump T) T nc) : Keeps s (s.bumpUp T nc) := by
  have hT : ∀ b ∈ T, b < s.size := fun b hb => cvcUponBump_size (s := s) T ▸ h.touched_lt b hb
  obtain ⟨hc, hW⟩ := cvcUponBump_spec hs hT
  unfold bumpUp mutate
  generalize s.cvcUponBump T = u at *
  have hu := hc.inv hs
  have h1 : Keeps u (u.rewrite T nc) := by
    refine rewrite_keeps (n := u.nextUid) hu h.touched_lt hW le_rfl (fun b hb e he => .inr ?_) ?_
    · simpa [List.mem_flatMap] using h.moved.subset (List.mem_flatMap.2 ⟨b, hb, he⟩)
    · refine hu.keys.rewrite h.touched_lt h.nodup (K := []) List.nodup_nil nofun ?_
      simpa using (h.moved.map Entry.key).subperm
  exact (hc.keeps hs).trans (h1.trans (setNextVersions_keeps h1.inv fun b hb =>
    have hbT := (List.mem_filter.1 hb).1
    ⟨h.touched_lt b hbT, (hW b hbT).rewrite⟩))

/-- One round of a snapshot's traversal. -/
theorem snapshotStep_keeps (hs : s.ShardInv) {v : Nat} (hv : s.IsSnapshot v)
    (hc : (s.passes v).cursor < s.size) : Keeps s (s.snapshotStep v) := by
  obtain ⟨h1, h2⟩ := bucketSaveCb_spec hs hv hc
  refine (h1.keeps hs).trans ⟨(h1.inv hs).advance fun _ => ⟨?_, ?_⟩, fun _ => le_rfl⟩
  · rw [h1.frame.cursor, h1.frame.size]; exact hc
  · rw [h1.frame.cursor]; exact h2

/-- One round of a slot flush's traversal. -/
theorem flushSlotsStep_keeps (hs : s.ShardInv) {f : Nat} {fl : String → Bool}
    (hf : (f, .flushSlots fl) ∈ s.changeCb) (hc : (s.passes f).cursor < s.size) :
    Keeps s (s.flushSlotsStep f fl) := by
  have h1 : Effects s (s.iterateBucket f fl _) := iterateBucket_effects hs hc
  exact (h1.keeps hs).trans ⟨(h1.inv hs).advance fun hv =>
    absurd (h1.frame.isSnapshot.1 hv) (hs.not_isSnapshot hf), fun _ => le_rfl⟩

/-- Every step keeps the invariant and raises no version. -/
theorem Step.keeps (h : Step s t) (hs : s.ShardInv) : Keeps s t := by
  cases h with
  | register => exact ⟨hs.register, fun _ => le_rfl⟩
  | unregister id => exact ⟨hs.unregister id, fun _ => le_rfl⟩
  | snapshot hv hc => exact snapshotStep_keeps hs hv hc
  | flushSlots hf hc => exact flushSlotsStep_keeps hs hf hc
  | write r hb _ => exact writeKey_keeps hs hb _ r
  | insert h => exact insertNew_keeps hs h
  | insertRejected hT hnd => exact (callChangeCallbacksInsert_spec hs hT hnd).1.keeps hs
  | bumpUp h => exact bumpUp_keeps hs h
  | expire hb he => exact ⟨hs.delete hb he, fun _ => by simp⟩

theorem steps_keeps (h : Relation.ReflTransGen Step s t) (hs : s.ShardInv) : Keeps s t := by
  induction h with
  | refl => exact ⟨hs, fun _ => le_rfl⟩
  | tail _ h ih => exact ih.trans (h.keeps ih.inv)

theorem Reachable.inv (h : Reachable s) : s.ShardInv := by
  induction h with
  | init h => exact h.inv
  | step _ h ih => exact (h.keeps ih).inv

theorem Reachable.steps (hr : Reachable s) (h : Relation.ReflTransGen Step s t) : Reachable t := by
  induction h with
  | refl => exact hr
  | tail _ h ih => exact ih.step h

/-! ## Main theorems -/

/-- A shard of one bucket holding one key. -/
def oneKeyShard : DbSlice :=
  ⟨1, fun _ => ⟨0, [⟨0, "k", ⟨"v", 0, 0⟩⟩]⟩, 1, [], fun _ => ⟨0, [], [], []⟩, 1⟩

theorem oneKeyShard_init : oneKeyShard.Init where
  changeCb := rfl
  version_lt _ _ := Nat.zero_lt_one
  keys := ⟨fun _ _ => by simp [oneKeyShard], fun b hb b' hb' hne => absurd hne (by
    simp only [oneKeyShard] at hb hb'; omega)⟩
  uid_lt _ := fun ⟨_, _, he⟩ => by simp only [oneKeyShard, List.mem_singleton] at he; simp [he, oneKeyShard]

/-- Along every run from a reachable shard no bucket's version goes down, every version held by a
bucket or by `change_cb_` stays below `next_version_`, and `change_cb_` stays sorted by version. -/
theorem versions_monotone_run (hr : Reachable s) (h : Relation.ReflTransGen Step s t) :
    (∀ b, (s.buckets b).version ≤ (t.buckets b).version) ∧
      (∀ b < t.size, (t.buckets b).version < t.nextVersion) ∧
      (∀ l ∈ t.changeCb, l.1 < t.nextVersion) ∧ t.changeCb.Pairwise fun l l' => l.1 < l'.1 := by
  have hk := steps_keeps h hr.inv
  exact ⟨hk.version, hk.inv.version_lt, hk.inv.cb_lt, hk.inv.sorted⟩

theorem versions_monotone_run_oneKey :
    let t := (oneKeyShard.registerOnChange .snapshot).snapshotStep 1
    (∀ b, (oneKeyShard.buckets b).version ≤ (t.buckets b).version) ∧
      (∀ b < t.size, (t.buckets b).version < t.nextVersion) ∧
      (∀ l ∈ t.changeCb, l.1 < t.nextVersion) ∧ t.changeCb.Pairwise fun l l' => l.1 < l'.1 :=
  versions_monotone_run (.init oneKeyShard_init)
    (.tail (.single (.register .snapshot))
      (.snapshot ⟨_, List.mem_append_right _ (List.mem_singleton_self _), rfl, rfl⟩ (by decide)))

/-- A snapshot that has traversed every bucket wrote each entry of the table as it was at its
registration exactly once, except those deleted without a callback before it reached them, and
nothing else; each key of that image is written at most once. -/
theorem snapshot_emits_image (hr : Reachable s) {v : Nat} (hv : s.IsSnapshot v)
    (hdone : (s.passes v).cursor = s.size) :
    (s.passes v).out.Perm ((s.passes v).image.filter fun e => e ∉ (s.passes v).lost) ∧
      ((s.passes v).image.map Entry.key).Nodup := by
  have hi := hr.inv.snap v hv
  have hnp : ∀ e, ¬ s.Pending v e := fun e ⟨b, hb, hlt, _⟩ =>
    absurd (hi.visited b (hdone ▸ hb)) (by omega)
  refine ⟨(List.perm_ext_iff_of_nodup hi.out_nodup ((hi.image_keys.of_map _).filter _)).2
    fun e => ?_, hi.image_keys⟩
  simp only [List.mem_filter, decide_eq_true_eq]
  constructor
  · intro he; exact ⟨hi.out_image e he, fun hl => (hi.lost e hl).2.1 he⟩
  · rintro ⟨himg, hl⟩
    rcases hi.cover e himg with h | h | h
    · exact h
    · exact absurd h hl
    · exact absurd h (hnp e)

theorem snapshot_emits_image_oneKey :
    let t := (oneKeyShard.registerOnChange .snapshot).snapshotStep 1
    (t.passes 1).out.Perm ((t.passes 1).image.filter fun e => e ∉ (t.passes 1).lost) ∧
      ((t.passes 1).image.map Entry.key).Nodup :=
  have hv : (oneKeyShard.registerOnChange .snapshot).IsSnapshot 1 :=
    ⟨_, List.mem_append_right _ (List.mem_singleton_self _), rfl, rfl⟩
  snapshot_emits_image (.step (.step (.init oneKeyShard_init) (.register .snapshot))
    (.snapshot hv (by decide))) ⟨_, List.mem_append_right _ (List.mem_singleton_self _), rfl, rfl⟩
    (by decide)

end Dragonfly.Snapshot.DbSlice
