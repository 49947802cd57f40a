import Dragonfly.Snapshot.Invariant

/-!
# Callback chains are runs of effects

Every chain of callbacks the code runs is a run of `Effect`s (so it keeps `ShardInv`), and it
leaves the buckets it was run for written by every registered snapshot (`Written`):

* `CallChangeCallbacks` for a bucket (`callChangeCallbacks_spec`) and for an insertion
  (`callChangeCallbacksInsert_spec`): `change_cb_` is sorted by version, so when a snapshot's
  callback runs, every older snapshot's callback has already run on the same buckets;
* `FlushChangeToEarlierCallbacks` before a traversal writes a bucket (`bucketSaveCb_spec`);
* `CVCUponBump` before a bump-up (`cvcUponBump_spec`), whose threshold is the newest version.
-/

namespace Dragonfly.Snapshot.DbSlice

variable {s : DbSlice}

/-- A registered callback older than an entry of the sorted list comes before it. -/
theorem mem_prefix_of_lt {P L : List (Nat × Listener)} {l l' : Nat × Listener}
    (hsort : (P ++ l :: L).Pairwise fun a b => a.1 < b.1) (hl' : l' ∈ P ++ l :: L)
    (hlt : l'.1 < l.1) : l' ∈ P := by
  rcases List.mem_append.1 hl' with h | h
  · exact h
  rcases List.mem_cons.1 h with rfl | h
  · omega
  have := (List.pairwise_cons.1 (List.pairwise_append.1 hsort).2.1).1 l' h
  omega

/-! ## Deletions of `FlushSlotsFb` -/

theorem foldl_performDeletion {b : Nat} (hb : b < s.size) :
    ∀ (L : List Entry) (t : DbSlice), Effects s t → L.Nodup →
      (∀ e ∈ L, e ∈ (t.buckets b).entries) →
      Effects s (L.foldl (fun t e => t.performDeletion b e) t)
  | [], _, h, _, _ => h
  | e :: L, t, h, hnd, hL => by
    rw [List.foldl_cons]
    have hbt : b < t.size := h.frame.size ▸ hb
    refine foldl_performDeletion hb L _ (h.tail (.delete hbt (hL e (List.mem_cons_self _ _))))
      (List.nodup_cons.1 hnd).2 fun x hx => ?_
    rw [performDeletion_entries, if_pos rfl]
    exact (List.mem_erase_of_ne fun h => (List.nodup_cons.1 hnd).1 (by subst h; exact hx)).2
      (hL x (List.mem_cons_of_mem _ hx))

theorem iterateBucket_effects (hs : s.ShardInv) {f b : Nat} {fl : String → Bool}
    (hb : b < s.size) : Effects s (s.iterateBucket f fl b) := by
  unfold iterateBucket
  split
  · exact foldl_performDeletion hb _ s .refl ((hs.keys.nodup hb).filter _)
      fun e he => (List.mem_filter.1 he).1
  · exact .refl

theorem foldl_iterateBucket (hs : s.ShardInv) {f : Nat} {fl : String → Bool} :
    ∀ (L : List Nat) (t : DbSlice), Effects s t → (∀ b ∈ L, b < s.size) →
      Effects s (L.foldl (fun t b => t.iterateBucket f fl b) t)
  | [], _, h, _ => h
  | b :: L, t, h, hL => by
    rw [List.foldl_cons]
    exact foldl_iterateBucket hs L _
      (h.trans (iterateBucket_effects (h.inv hs) (h.frame.size ▸ hL b (List.mem_cons_self _ _))))
      fun b' hb' => hL b' (List.mem_cons_of_mem _ hb')

theorem foldl_performDeletion_version {b b' : Nat} :
    ∀ (L : List Entry) (t : DbSlice),
      ((L.foldl (fun t e => t.performDeletion b e) t).buckets b').version = (t.buckets b').version
  | [], _ => rfl
  | e :: L, t => by rw [List.foldl_cons, foldl_performDeletion_version L]; simp

theorem iterateBucket_version {f b b' : Nat} {fl : String → Bool} :
    ((s.iterateBucket f fl b).buckets b').version = (s.buckets b').version := by
  unfold iterateBucket
  split
  · exact foldl_performDeletion_version _ _
  · rfl

theorem foldl_performDeletion_entries_of_ne {b b' : Nat} (h : b' ≠ b) :
    ∀ (L : List Entry) (t : DbSlice),
      ((L.foldl (fun t e => t.performDeletion b e) t).buckets b').entries = (t.buckets b').entries
  | [], _ => rfl
  | e :: L, t => by
    rw [List.foldl_cons, foldl_performDeletion_entries_of_ne h L, performDeletion_entries, if_neg h]

theorem foldl_performDeletion_size {b : Nat} :
    ∀ (L : List Entry) (t : DbSlice), (L.foldl (fun t e => t.performDeletion b e) t).size = t.size
  | [], _ => rfl
  | _ :: L, _ => foldl_performDeletion_size L _

@[simp] theorem iterateBucket_size {f b : Nat} {fl : String → Bool} :
    (s.iterateBucket f fl b).size = s.size := by
  unfold iterateBucket
  split
  · exact foldl_performDeletion_size _ _
  · rfl

/-- `iterate_bucket` deletes only from the bucket it is given. -/
theorem iterateBucket_entries_of_ne {f b b' : Nat} {fl : String → Bool} (h : b' ≠ b) :
    ((s.iterateBucket f fl b).buckets b').entries = (s.buckets b').entries := by
  unfold iterateBucket
  split
  · exact foldl_performDeletion_entries_of_ne h _ _
  · rfl

theorem Frame.written {t : DbSlice} (h : s.Frame t) {b : Nat} (hw : s.Written b) : t.Written b :=
  fun w hsnap => (hw w (h.isSnapshot.1 hsnap)).trans (h.version b)

/-! ## Serializations of one snapshot -/

theorem foldl_serializeBucket {v : Nat} :
    ∀ (L : List Nat) (t : DbSlice), t.IsSnapshot v → L.Nodup →
      (∀ b ∈ L, b < t.size ∧ (t.buckets b).version < v ∧ t.OlderDone v b) →
      Effects t (L.foldl (fun t b => t.serializeBucket v b) t) ∧
        ∀ b ∈ L, v ≤ ((L.foldl (fun t b => t.serializeBucket v b) t).buckets b).version
  | [], _, _, _, _ => ⟨.refl, nofun⟩
  | b :: L, t, hv, hnd, hL => by
    obtain ⟨hb, hlt, hold⟩ := hL b (List.mem_cons_self _ _)
    have hstep : Effect t (t.serializeBucket v b) := .serialize hv hb hlt hold
    obtain ⟨hb1, hb2⟩ := List.nodup_cons.1 hnd
    obtain ⟨ih1, ih2⟩ := foldl_serializeBucket L _ (hstep.frame.isSnapshot.2 hv) hb2 fun b' hb' => by
      have hne : b' ≠ b := fun e => hb1 (e ▸ hb')
      obtain ⟨h1, h2, h3⟩ := hL b' (List.mem_cons_of_mem _ hb')
      refine ⟨h1, by simpa [serializeBucket_version, hne] using h2, fun w hw hwv => ?_⟩
      simpa [serializeBucket_version, hne] using h3 w (hstep.frame.isSnapshot.1 hw) hwv
    refine ⟨.head hstep ih1, fun b' hb' => ?_⟩
    rcases List.mem_cons.1 hb' with rfl | hb'
    · exact (by simp [serializeBucket_version] : v ≤ _).trans (ih1.frame.version b')
    · exact ih2 b' hb'

/-! ## `CallChangeCallbacks` -/

theorem fireInsert_effects (hs : s.ShardInv) {T : List Nat} (hT : ∀ b ∈ T, b < s.size)
    (hnd : T.Nodup) {l : Nat × Listener} (hl : l ∈ s.changeCb)
    (hold : l.2.isSnapshot = true → ∀ b ∈ T, s.OlderDone l.1 b) :
    Effects s (s.fireInsert T l) ∧
      (l.2.isSnapshot = true → ∀ b ∈ T, l.1 ≤ ((s.fireInsert T l).buckets b).version) := by
  obtain ⟨v, _ | fl⟩ := l
  · obtain ⟨h1, h2⟩ := foldl_serializeBucket (v := v) (T.filter fun b => (s.buckets b).version < v) s
      ⟨_, hl, rfl, rfl⟩ (hnd.filter _) fun b hb => by
        obtain ⟨hbT, hlt⟩ := List.mem_filter.1 hb
        exact ⟨hT b hbT, by simpa using hlt, hold rfl b hbT⟩
    refine ⟨h1, fun _ b hb => ?_⟩
    by_cases hlt : (s.buckets b).version < v
    · exact h2 b (List.mem_filter.2 ⟨hb, by simpa using hlt⟩)
    · exact (Nat.le_of_not_lt hlt).trans (h1.frame.version b)
  · exact ⟨foldl_iterateBucket hs _ s .refl fun b hb => hT b (List.mem_filter.1 hb).1, nofun⟩

theorem foldl_fireInsert (hs : s.ShardInv) {T : List Nat} (hT : ∀ b ∈ T, b < s.size)
    (hnd : T.Nodup) :
    ∀ (L P : List (Nat × Listener)) (t : DbSlice), Effects s t → t.changeCb = P ++ L →
      (∀ l ∈ P, l.2.isSnapshot = true → ∀ b ∈ T, l.1 ≤ (t.buckets b).version) →
      Effects s (L.foldl (fun t l => t.fireInsert T l) t) ∧
        ∀ b ∈ T, (L.foldl (fun t l => t.fireInsert T l) t).Written b
  | [], P, t, h, hcb, hP => ⟨h, fun b hb w ⟨l, hl, hw, hsnap⟩ =>
      hw ▸ hP l (by simpa [hcb] using hl) hsnap b hb⟩
  | l :: L, P, t, h, hcb, hP => by
    have ht := h.inv hs
    have hsort : (P ++ l :: L).Pairwise fun a b => a.1 < b.1 := hcb ▸ ht.sorted
    obtain ⟨h1, h2⟩ := fireInsert_effects ht (fun b hb => h.frame.size ▸ hT b hb) hnd (l := l)
      (by simp [hcb]) fun _ b hb w ⟨l', hl', hw, hsnap⟩ hlt =>
        hw ▸ hP l' (mem_prefix_of_lt hsort (hcb ▸ hl') (hw ▸ hlt)) hsnap b hb
    refine foldl_fireInsert hs hT hnd L (P ++ [l]) _ (h.trans h1)
      (by simp [h1.frame.changeCb, hcb]) fun l' hl' hsnap b hb => ?_
    rcases List.mem_append.1 hl' with hl' | hl'
    · exact (hP l' hl' hsnap b hb).trans (h1.frame.version b)
    · rw [List.mem_singleton.1 hl'] at hsnap ⊢; exact h2 hsnap b hb

/-- `CallChangeCallbacks(ChangeReq{key})` is a run of effects after which every registered
snapshot has written every bucket the insertion touches. -/
theorem callChangeCallbacksInsert_spec (hs : s.ShardInv) {T : List Nat}
    (hT : ∀ b ∈ T, b < s.size) (hnd : T.Nodup) :
    Effects s (s.callChangeCallbacksInsert T) ∧ ∀ b ∈ T, (s.callChangeCallbacksInsert T).Written b :=
  foldl_fireInsert hs hT hnd s.changeCb [] s .refl rfl nofun

/-- A callback run for a bucket is the callback run for an insertion touching only it. -/
theorem fireUpdate_eq (b : Nat) (l : Nat × Listener) : s.fireUpdate b l = s.fireInsert [b] l := by
  obtain ⟨v, _ | fl⟩ := l <;>
    by_cases h : (s.buckets b).version < v <;> simp [fireUpdate, fireInsert, cvcUponInsert, h]

theorem callChangeCallbacks_eq (b : Nat) : s.callChangeCallbacks b = s.callChangeCallbacksInsert [b] := by
  simp only [callChangeCallbacks, callChangeCallbacksInsert, fireUpdate_eq]

/-- `CallChangeCallbacks(ChangeReq{bucket})` is a run of effects after which every registered
snapshot has written the bucket. -/
theorem callChangeCallbacks_spec (hs : s.ShardInv) {b : Nat} (hb : b < s.size) :
    Effects s (s.callChangeCallbacks b) ∧ (s.callChangeCallbacks b).Written b := by
  rw [callChangeCallbacks_eq]
  obtain ⟨h1, h2⟩ := callChangeCallbacksInsert_spec hs (T := [b]) (by simpa using hb)
    (List.nodup_singleton b)
  exact ⟨h1, h2 b (List.mem_singleton_self b)⟩

/-! ## `FlushChangeToEarlierCallbacks` and `BucketSaveCb` -/

theorem flushEarlier_spec (hs : s.ShardInv) {b v : Nat} (hb : b < s.size) (bv : Nat) :
    ∀ (L P : List (Nat × Listener)) (t : DbSlice), Effects s t → t.changeCb = P ++ L →
      (∃ l ∈ L, l.1 = v) → bv ≤ (t.buckets b).version → (t.buckets b).version < v →
      (∀ l ∈ P, l.2.isSnapshot = true → l.1 ≤ (t.buckets b).version) →
      Effects s (flushEarlier b v bv L t) ∧ ((flushEarlier b v bv L t).buckets b).version < v ∧
        (flushEarlier b v bv L t).OlderDone v b
  | [], _, _, _, _, hv, _, _, _ => by simp at hv
  | l :: L, P, t, h, hcb, hv, hbv, hlt, hP => by
    have ht := h.inv hs
    have hsort : (P ++ l :: L).Pairwise fun a b => a.1 < b.1 := hcb ▸ ht.sorted
    simp only [flushEarlier]
    split
    · refine ⟨h, hlt, fun w ⟨l', hl', hw, hsnap⟩ hwv => ?_⟩
      exact hw ▸ hP l' (mem_prefix_of_lt hsort (hcb ▸ hl') (by omega)) hsnap
    have hlv : l.1 < v := by
      obtain ⟨l', hl', rfl⟩ := hv
      rcases List.mem_cons.1 hl' with rfl | hl'
      · contradiction
      · exact (List.pairwise_cons.1 (List.pairwise_append.1 hsort).2.1).1 l' hl'
    have hv' : ∃ l' ∈ L, l'.1 = v := by
      obtain ⟨l', hl', hl'v⟩ := hv
      rcases List.mem_cons.1 hl' with rfl | hl'
      · omega
      · exact ⟨l', hl', hl'v⟩
    have hbt : b < t.size := h.frame.size ▸ hb
    -- the callback runs, or is skipped because the bucket already was at its version
    obtain ⟨h1, h2, h3⟩ : Effects t (if bv < l.1 then t.fireUpdate b l else t) ∧
        (l.2.isSnapshot = true → l.1 ≤ ((if bv < l.1 then t.fireUpdate b l else t).buckets b).version) ∧
        ((if bv < l.1 then t.fireUpdate b l else t).buckets b).version < v := by
      split
      · obtain ⟨v', _ | fl⟩ := l
        · simp only [fireUpdate]
          split
          · exact ⟨.single (.serialize ⟨(v', .snapshot), by simp [hcb], rfl, rfl⟩ hbt ‹_›
              fun w ⟨l', hl', hw, hsnap⟩ hwv =>
                hw ▸ hP l' (mem_prefix_of_lt hsort (hcb ▸ hl') (hw ▸ hwv)) hsnap),
              fun _ => by simp [serializeBucket_version], by simpa [serializeBucket_version] using hlv⟩
          · exact ⟨.refl, fun _ => by omega, hlt⟩
        · simp only [fireUpdate]
          split
          · exact ⟨iterateBucket_effects ht hbt, nofun, by rwa [iterateBucket_version]⟩
          · exact ⟨.refl, nofun, hlt⟩
      · exact ⟨.refl, fun _ => by omega, hlt⟩
    refine flushEarlier_spec hs hb bv L (P ++ [l]) _ (h.trans h1) (by simp [h1.frame.changeCb, hcb]) hv'
      (hbv.trans (h1.frame.version b)) h3 fun l' hl' hsnap => ?_
    rcases List.mem_append.1 hl' with hl' | hl'
    · exact (hP l' hl' hsnap).trans (h1.frame.version b)
    · rw [List.mem_singleton.1 hl'] at hsnap ⊢; exact h2 hsnap

/-- The loop of `FlushChangeToEarlierCallbacks` over a sorted list holding `upper`: the callbacks
newer than `bv` and older than `upper`, in list order. -/
theorem flushEarlier_eq_filter {b upper bv : Nat} :
    ∀ (L : List (Nat × Listener)) (t : DbSlice), L.Pairwise (fun l l' => l.1 < l'.1) →
      (∃ l ∈ L, l.1 = upper) →
      flushEarlier b upper bv L t =
        (L.filter fun l => bv < l.1 ∧ l.1 < upper).foldl (fun t l => t.fireUpdate b l) t
  | [], _, _, hu => by simp at hu
  | l :: L, t, hs, hu => by
    obtain ⟨hlt, hs⟩ := List.pairwise_cons.1 hs
    simp only [flushEarlier]
    split
    · -- `upper` itself: every later callback is newer
      rename_i hl
      rw [List.filter_eq_nil_iff.2 fun l' hl' => by
        rcases List.mem_cons.1 hl' with rfl | hl'
        · simp [hl]
        · have := hlt l' hl'; simp only [decide_eq_true_eq]; omega]
      rfl
    · rename_i hl
      have hu' : ∃ l' ∈ L, l'.1 = upper := by
        obtain ⟨l', hl', rfl⟩ := hu
        rcases List.mem_cons.1 hl' with rfl | hl'
        · contradiction
        · exact ⟨l', hl', rfl⟩
      have hlu : l.1 < upper := by obtain ⟨l', hl', rfl⟩ := hu'; exact hlt l' hl'
      rw [flushEarlier_eq_filter L _ hs hu', List.filter_cons]
      by_cases hbv : bv < l.1
      · simp [hbv, hlu]
      · simp [hbv]

/-- `BucketSaveCb` is a run of effects after which the snapshot has written the bucket. -/
theorem bucketSaveCb_spec (hs : s.ShardInv) {v b : Nat} (hv : s.IsSnapshot v) (hb : b < s.size) :
    Effects s (s.bucketSaveCb v b) ∧ v ≤ ((s.bucketSaveCb v b).buckets b).version := by
  unfold bucketSaveCb
  split
  · exact ⟨.refl, ‹_›⟩
  obtain ⟨h1, h2, h3⟩ := flushEarlier_spec hs hb _ s.changeCb [] s .refl rfl
    (let ⟨l, hl, hlv, _⟩ := hv; ⟨l, hl, hlv⟩) le_rfl (by omega) nofun
  refine ⟨h1.tail (.serialize (h1.frame.isSnapshot.2 hv) (h1.frame.size ▸ hb) h2 h3), ?_⟩
  simp [serializeBucket_version]

/-! ## `CVCUponBump` -/

theorem foldl_callChangeCallbacks :
    ∀ (L : List Nat) (t : DbSlice), t.ShardInv → (∀ b ∈ L, b < t.size) →
      Effects t (L.foldl (fun t b => t.callChangeCallbacks b) t) ∧
        ∀ b ∈ L, (L.foldl (fun t b => t.callChangeCallbacks b) t).Written b
  | [], _, _, _ => ⟨.refl, nofun⟩
  | b :: L, t, ht, hL => by
    obtain ⟨h1, h2⟩ := callChangeCallbacks_spec ht (hL b (List.mem_cons_self _ _))
    obtain ⟨ih1, ih2⟩ := foldl_callChangeCallbacks L _ (h1.inv ht)
      fun b' hb' => h1.frame.size ▸ hL b' (List.mem_cons_of_mem _ hb')
    refine ⟨h1.trans ih1, fun b' hb' => ?_⟩
    rcases List.mem_cons.1 hb' with rfl | hb'
    · exact ih1.frame.written h2
    · exact ih2 b' hb'

/-- `CVCUponBump(change_cb_.back().first, ...)`: every bucket the bump-up touches is written by every
registered snapshot afterwards, since the threshold is the newest callback's version. -/
theorem cvcUponBump_spec (hs : s.ShardInv) {T : List Nat} (hT : ∀ b ∈ T, b < s.size) :
    Effects s (s.cvcUponBump T) ∧ ∀ b ∈ T, (s.cvcUponBump T).Written b := by
  unfold cvcUponBump
  split
  · rename_i hnone
    refine ⟨.refl, fun b _ w ⟨l, hl, _⟩ => ?_⟩
    simp [List.getLast?_eq_none_iff.1 hnone] at hl
  · rename_i th x hlast
    obtain ⟨ys, hys⟩ := List.getLast?_eq_some_iff.1 hlast
    obtain ⟨h1, h2⟩ := foldl_callChangeCallbacks (T.filter fun b => (s.buckets b).version < th) s hs
      fun b hb => hT b (List.mem_filter.1 hb).1
    refine ⟨h1, fun b hb => ?_⟩
    by_cases hlt : (s.buckets b).version < th
    · exact h2 b (List.mem_filter.2 ⟨hb, by simpa using hlt⟩)
    · refine h1.frame.written fun w ⟨l, hl, hw, _⟩ => ?_
      have hle : l.1 ≤ th := by
        rw [hys] at hl
        rcases List.mem_append.1 hl with hl | hl
        · have := hs.sorted
          rw [hys, List.pairwise_append] at this
          exact (this.2.2 l hl _ (List.mem_singleton_self _)).le
        · rw [List.mem_singleton.1 hl]
      omega

end Dragonfly.Snapshot.DbSlice
