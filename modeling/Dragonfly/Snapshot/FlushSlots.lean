import Dragonfly.Snapshot.Fetched

/-!
# What `FlushSlotsFb` deletes

`DbSlice::FlushSlotsFb(S)` registers `on_change` at version `f`, then traverses the table. Both
the traversal and `on_change` run `iterate_bucket`, which deletes the entries of the flushed slots
from buckets older than `f`, and never raises a bucket's version.

An entry of the table at registration (the image) whose slot is flushed is *dirty*. `Flushing`
says that every dirty entry sits in a bucket older than `f` which the traversal has not passed.
A bucket rises to `f` or beyond only after the callbacks have run on it, in `change_cb_` order,
so `on_change` has cleaned it first. Entries move only between buckets the callbacks have just
run on. So every step keeps `Flushing` (`Flushing.step`), and a traversal that reaches the end has
deleted the whole image of the flushed slots (`flushSlots_deletes_image`).

Conversely, `OldImage` says that a bucket older than `f` holds only image entries. An entry
written after registration lands in a bucket that has just taken `NextVersion()`: the bucket of
a write or of a new key, and every bucket an insertion or a bump-up changes (spec I3). Every step,
and every callback inside it, keeps `OldImage` (`OldImage.step`, `OldImage.effects`), so wherever
`iterate_bucket` runs it deletes only image entries.

## Main theorems

* `flushSlots_deletes_exactly_image`: along every run after the registration, `iterate_bucket`
  deletes only entries present at registration, and once the traversal has reached the end, no
  entry of the registration image in a flushed slot is left.
-/

namespace Dragonfly.Snapshot.DbSlice

section Flushing

variable (f : Nat) (fl : String → Bool) (I : List Entry)

/-- Bucket `b` holds no entry of the image `I` in a flushed slot. -/
def Clean (t : DbSlice) (b : Nat) : Prop :=
  ∀ e ∈ (t.buckets b).entries, e ∈ I → fl e.key = true → False

/-- The invariant of the slot flush registered at `f` with registration image `I`. Later writes
get stamps outside `I`. A bucket holding an image entry of a flushed slot is older than `f`, and
the flush's cursor has not passed it. -/
structure Flushing (t : DbSlice) : Prop where
  uid_lt : ∀ e ∈ I, e.uid < t.nextUid
  dirty : ∀ b < t.size, ¬ Clean fl I t b → (t.buckets b).version < f ∧ (t.passes f).cursor ≤ b

/-- What a callback may do to a state under the slot flush: entries only leave buckets, the counters,
the callbacks and the flush's cursor stay, and a bucket older than `f` stays older unless it is
clean. -/
structure Sub (t t' : DbSlice) : Prop where
  size : t'.size = t.size
  changeCb : t'.changeCb = t.changeCb
  nextUid : t'.nextUid = t.nextUid
  cursor : (t'.passes f).cursor = (t.passes f).cursor
  entries : ∀ b, (t'.buckets b).entries.Sublist (t.buckets b).entries
  version : ∀ b, (t.buckets b).version < f → (t'.buckets b).version < f ∨ Clean fl I t' b

/-- Every bucket older than `f` holds only entries of the image `I`, and `next_version_` has passed
`f`. -/
structure OldImage (t : DbSlice) : Prop where
  le_next : f ≤ t.nextVersion
  old : ∀ b < t.size, (t.buckets b).version < f → ∀ e ∈ (t.buckets b).entries, e ∈ I

end Flushing

/-! ## Lemmas -/

section Frame

variable {t : DbSlice} {g : Nat} {fl' : String → Bool} {T : List Nat} {nc : Nat → List Entry}

theorem foldl_changeCb {α : Type} {op : DbSlice → α → DbSlice} (hop : ∀ t a, (op t a).changeCb = t.changeCb) :
    ∀ (L : List α) (t : DbSlice), (L.foldl op t).changeCb = t.changeCb
  | [], _ => rfl
  | a :: L, t => (foldl_changeCb hop L (op t a)).trans (hop t a)

@[simp] theorem iterateBucket_changeCb (b : Nat) : (t.iterateBucket g fl' b).changeCb = t.changeCb := by
  unfold iterateBucket
  split
  · exact foldl_changeCb (fun _ e => performDeletion_changeCb b e) _ _
  · rfl

@[simp] theorem flushSlotsStep_changeCb : (t.flushSlotsStep g fl').changeCb = t.changeCb :=
  iterateBucket_changeCb _

/-- No callback changes `change_cb_`. -/
theorem callChangeCallbacksInsert_changeCb : (t.callChangeCallbacksInsert T).changeCb = t.changeCb := by
  refine foldl_changeCb (fun t l => ?_) _ _
  obtain ⟨v, _ | fl⟩ := l <;> simp only [fireInsert, cvcUponInsert]
  · exact foldl_changeCb (fun _ b => serializeBucket_changeCb v b) _ _
  · exact foldl_changeCb (fun _ _ => iterateBucket_changeCb _) _ _

@[simp] theorem mutate_changeCb : (t.mutate T nc).changeCb = t.changeCb := by
  simp [mutate, rewrite]

@[simp] theorem insertNew_changeCb {target : Nat} : (t.insertNew T target nc).changeCb = t.changeCb := by
  simp [insertNew, callChangeCallbacksInsert_changeCb]

@[simp] theorem bumpUp_changeCb : (t.bumpUp T nc).changeCb = t.changeCb := by
  unfold bumpUp cvcUponBump
  rw [mutate_changeCb]
  split
  · rfl
  · exact foldl_changeCb (fun _ _ => by rw [callChangeCallbacks_eq]; exact callChangeCallbacksInsert_changeCb) _ _

end Frame

section Sub

variable {f : Nat} {fl : String → Bool} {I : List Entry} {t t' t'' : DbSlice} {b : Nat}

theorem Clean.sublist (hc : Clean fl I t b) (h : (t'.buckets b).entries.Sublist (t.buckets b).entries) :
    Clean fl I t' b := fun e he => hc e (h.subset he)

theorem Sub.refl (t : DbSlice) : Sub f fl I t t :=
  ⟨rfl, rfl, rfl, rfl, fun _ => List.Sublist.refl _, fun _ h => .inl h⟩

theorem Sub.trans (h : Sub f fl I t t') (h' : Sub f fl I t' t'') : Sub f fl I t t'' where
  size := h'.size.trans h.size
  changeCb := h'.changeCb.trans h.changeCb
  nextUid := h'.nextUid.trans h.nextUid
  cursor := h'.cursor.trans h.cursor
  entries b := (h'.entries b).trans (h.entries b)
  version b hb := (h.version b hb).elim (h'.version b) fun hc => .inr (hc.sublist (h'.entries b))

theorem Clean.sub (hc : Clean fl I t b) (h : Sub f fl I t t') : Clean fl I t' b := hc.sublist (h.entries b)

theorem Flushing.sub (hF : Flushing f fl I t) (h : Sub f fl I t t') : Flushing f fl I t' where
  uid_lt e he := h.nextUid ▸ hF.uid_lt e he
  dirty b hb hnc := by
    have hnc' : ¬ Clean fl I t b := fun hc => hnc (hc.sub h)
    obtain ⟨hv, hcur⟩ := hF.dirty b (h.size ▸ hb) hnc'
    exact ⟨(h.version b hv).resolve_right hnc, h.cursor ▸ hcur⟩

/-- A bucket that is not clean is older than `f`. -/
theorem Flushing.clean_of_le (hF : Flushing f fl I t) (hb : b < t.size) (hv : f ≤ (t.buckets b).version) :
    Clean fl I t b :=
  Classical.byContradiction fun hnc => absurd (hF.dirty b hb hnc).1 (Nat.not_lt.2 hv)

/-- A fold whose every step is a `Sub` from the states where `Q` holds, and `Q` survives `Sub`. -/
theorem sub_foldl {α : Type} (Q : DbSlice → Prop) (hQ : ∀ t t', Q t → Sub f fl I t t' → Q t')
    (op : DbSlice → α → DbSlice) :
    ∀ (L : List α) (t : DbSlice), (∀ t a, a ∈ L → Q t → Sub f fl I t (op t a)) → Q t →
      Sub f fl I t (L.foldl op t)
  | [], t, _, _ => Sub.refl t
  | a :: L, t, hop, hq => by
    rw [List.foldl_cons]
    have h1 := hop t a (List.mem_cons_self _ _) hq
    exact h1.trans (sub_foldl Q hQ op L _ (fun t a ha => hop t a (List.mem_cons_of_mem _ ha)) (hQ _ _ hq h1))

theorem sub_performDeletion (e : Entry) : Sub f fl I t (t.performDeletion b e) :=
  ⟨rfl, rfl, rfl, by simp, performDeletion_sublist, fun b' h => .inl (by simpa using h)⟩

theorem sub_iterateBucket (g : Nat) (fl' : String → Bool) : Sub f fl I t (t.iterateBucket g fl' b) := by
  unfold iterateBucket
  split
  · exact sub_foldl (fun _ => True) (fun _ _ _ _ => trivial) _ _ t
      (fun _ e _ _ => sub_performDeletion e) trivial
  · exact Sub.refl t

theorem iterateBucket_sublist (g : Nat) (fl' : String → Bool) (b' : Nat) :
    ((t.iterateBucket g fl' b).buckets b').entries.Sublist (t.buckets b').entries :=
  (@sub_iterateBucket 0 fl' [] t b g fl').entries b'

theorem sub_serializeBucket {v : Nat} (h : v < f ∨ Clean fl I t b) : Sub f fl I t (t.serializeBucket v b) where
  size := rfl
  changeCb := rfl
  nextUid := rfl
  cursor := by rw [serializeBucket_passes]; split <;> subst_vars <;> rfl
  entries b' := by rw [serializeBucket_entries]
  version b' hb' := by
    rw [serializeBucket_version]
    split
    · subst b'
      exact h.imp id fun hc e he => hc e (by simpa using he)
    · exact .inl hb'

theorem sub_setNextVersion (hc : Clean fl I t b) : Sub f fl I t (t.setNextVersion b) where
  size := rfl
  changeCb := rfl
  nextUid := rfl
  cursor := rfl
  entries b' := by by_cases h : b' = b <;> simp [setNextVersion, Function.update_apply, h]
  version b' hb' := by
    by_cases h : b' = b
    · subst b'
      exact .inr fun e he => hc e (by simpa [setNextVersion] using he)
    · exact .inl (by rwa [setNextVersion_version, if_neg h])

theorem sub_setNextVersions {bs : List Nat} (hc : ∀ b ∈ bs, Clean fl I t b) :
    Sub f fl I t (t.setNextVersions bs) :=
  sub_foldl (fun t => ∀ b ∈ bs, Clean fl I t b) (fun _ _ hq hs b hb => (hq b hb).sub hs) _ bs t
    (fun _ b hb hq => sub_setNextVersion (hq b hb)) hc

theorem sub_advance {v : Nat} (hv : v ≠ f) : Sub f fl I t (t.advance v) :=
  ⟨rfl, rfl, rfl, by rw [advance_passes, if_neg hv.symm], fun _ => List.Sublist.refl _, fun _ h => .inl h⟩

/-- Any callback on the buckets `T` of an insertion, provided a snapshot callback newer than `f` finds
them clean. -/
theorem sub_fireInsert {T : List Nat} {l : Nat × Listener}
    (h : l.2.isSnapshot = true → l.1 < f ∨ ∀ b ∈ T, Clean fl I t b) : Sub f fl I t (t.fireInsert T l) := by
  obtain ⟨v, _ | fl'⟩ := l
  · exact sub_foldl (fun t => v < f ∨ ∀ b ∈ T, Clean fl I t b)
      (fun _ _ hq hs => hq.imp id fun hc b hb => (hc b hb).sub hs) _ _ t
      (fun _ b hb hq => sub_serializeBucket (hq.imp id fun hc => hc b (List.mem_filter.1 hb).1)) (h rfl)
  · exact sub_foldl (fun _ => True) (fun _ _ _ _ => trivial) _ _ t
      (fun _ _ _ _ => sub_iterateBucket _ _) trivial

/-- A callback run for bucket `b`, provided a snapshot callback newer than `f` finds it clean. -/
theorem sub_fireUpdate {l : Nat × Listener} (h : l.2.isSnapshot = true → l.1 < f ∨ Clean fl I t b) :
    Sub f fl I t (t.fireUpdate b l) := by
  rw [fireUpdate_eq]
  exact sub_fireInsert fun hs => (h hs).imp_right fun hc b' hb' => List.mem_singleton.1 hb' ▸ hc

/-- The slot flush's own `iterate_bucket` on a bucket older than `f` leaves it clean. -/
theorem clean_iterateBucket (hv : (t.buckets b).version < f) (hnd : (t.buckets b).entries.Nodup) :
    Clean fl I (t.iterateBucket f fl b) b := by
  intro e he _ hfl
  unfold iterateBucket at he
  rw [if_pos hv] at he
  have het := (foldl_performDeletion_sublist _ t).subset he
  exact foldl_performDeletion_not_mem _ t hnd (List.mem_filter.2 ⟨het, hfl⟩) he

/-- The slot flush's `CVCUponInsert` callback leaves every bucket of `T` clean. -/
theorem clean_fireInsert_self (hF : Flushing f fl I t) {T : List Nat} (hT : ∀ b ∈ T, b < t.size)
    (hnd : ∀ b ∈ T, (t.buckets b).entries.Nodup) :
    ∀ b ∈ T, Clean fl I (t.fireInsert T (f, .flushSlots fl)) b := by
  -- the buckets the callback visits, one after the other
  have hfold : ∀ (L : List Nat) (t : DbSlice),
      (∀ b ∈ L, (t.buckets b).version < f ∧ (t.buckets b).entries.Nodup) →
      ∀ b ∈ L, Clean fl I (L.foldl (fun t b => t.iterateBucket f fl b) t) b := by
    intro L
    induction L with
    | nil => exact fun _ _ _ h => absurd h (List.not_mem_nil _)
    | cons b0 L ih =>
      intro t hL b hb
      rw [List.foldl_cons]
      have hrest := ih (t.iterateBucket f fl b0) fun b' hb' => by
        obtain ⟨hv, hnd⟩ := hL b' (List.mem_cons_of_mem _ hb')
        exact ⟨by rwa [iterateBucket_version], hnd.sublist (iterateBucket_sublist f fl b')⟩
      rcases List.mem_cons.1 hb with rfl | hb
      · obtain ⟨hv, hnd⟩ := hL b (List.mem_cons_self _ _)
        exact (clean_iterateBucket hv hnd).sub (f := f) (sub_foldl (fun _ => True) (fun _ _ _ _ => trivial) _ L _
          (fun _ _ _ _ => sub_iterateBucket _ _) trivial)
      · exact hrest b hb
  intro b hb
  by_cases hv : (t.buckets b).version < f
  · exact hfold _ t (fun b hb => ⟨(decide_eq_true_iff.1 (List.mem_filter.1 hb).2), hnd b (List.mem_filter.1 hb).1⟩)
      b (List.mem_filter.2 ⟨hb, decide_eq_true hv⟩)
  · exact (hF.clean_of_le (hT b hb) (Nat.le_of_not_lt hv)).sub (f := f) (sub_fireInsert nofun)

/-! ### The callbacks of a change -/

/-- `CallChangeCallbacks(ChangeReq{key})` with the slot flush registered: the callbacks older than
`f` keep the touched buckets older than `f`, `on_change` cleans them, and the newer ones find them
clean. -/
theorem callChangeCallbacksInsert_flushing (hsort : t.changeCb.Pairwise fun l l' => l.1 < l'.1)
    (hreg : (f, .flushSlots fl) ∈ t.changeCb) (hF : Flushing f fl I t) {T : List Nat}
    (hT : ∀ b ∈ T, b < t.size) (hnd : ∀ b ∈ T, (t.buckets b).entries.Nodup) :
    Sub f fl I t (t.callChangeCallbacksInsert T) ∧ ∀ b ∈ T, Clean fl I (t.callChangeCallbacksInsert T) b := by
  obtain ⟨P, Q, hcb⟩ := List.append_of_mem hreg
  have hP : ∀ l ∈ P, l.1 < f := fun l hl =>
    (List.pairwise_append.1 (hcb ▸ hsort)).2.2 l hl _ (List.mem_cons_self _ _)
  unfold callChangeCallbacksInsert
  rw [hcb, List.foldl_append, List.foldl_cons]
  -- the callbacks older than `f`
  have h1 : Sub f fl I t (P.foldl (fun t l => t.fireInsert T l) t) :=
    sub_foldl (fun _ => True) (fun _ _ _ _ => trivial) _ P t
      (fun _ l hl _ => sub_fireInsert fun _ => .inl (hP l hl)) trivial
  generalize P.foldl (fun t l => t.fireInsert T l) t = t1 at h1
  -- `on_change`
  have hc2 := clean_fireInsert_self (hF.sub h1) (fun b hb => h1.size ▸ hT b hb)
    fun b hb => (hnd b hb).sublist (h1.entries b)
  have h2 : Sub f fl I t1 (t1.fireInsert T (f, .flushSlots fl)) := sub_fireInsert nofun
  generalize t1.fireInsert T (f, .flushSlots fl) = t2 at h2 hc2
  -- the newer callbacks
  have h3 : Sub f fl I t2 (Q.foldl (fun t l => t.fireInsert T l) t2) :=
    sub_foldl (fun t => ∀ b ∈ T, Clean fl I t b) (fun _ _ hq hs b hb => (hq b hb).sub hs) _ Q t2
      (fun _ _ _ hq => sub_fireInsert fun _ => .inr hq) hc2
  exact ⟨h1.trans (h2.trans h3), fun b hb => (hc2 b hb).sub h3⟩

/-- `CVCUponBump`'s callbacks with the slot flush registered leave every touched bucket clean: a
bucket below the newest callback's version goes through all callbacks, and one at or above it is
clean already, since that version is at least `f`. -/
theorem cvcUponBump_flushing (hsort : t.changeCb.Pairwise fun l l' => l.1 < l'.1)
    (hreg : (f, .flushSlots fl) ∈ t.changeCb) (hF : Flushing f fl I t) {T : List Nat}
    (hT : ∀ b ∈ T, b < t.size) (hnd : ∀ b ∈ T, (t.buckets b).entries.Nodup) :
    Sub f fl I t (t.cvcUponBump T) ∧ ∀ b ∈ T, Clean fl I (t.cvcUponBump T) b := by
  -- the callbacks for each bucket, on a state the earlier buckets' callbacks left
  have hfold : ∀ (L : List Nat) (t' : DbSlice), Sub f fl I t t' → (∀ b ∈ L, b ∈ T) →
      Sub f fl I t' (L.foldl (fun t b => t.callChangeCallbacks b) t') ∧
        ∀ b ∈ L, Clean fl I (L.foldl (fun t b => t.callChangeCallbacks b) t') b := by
    intro L
    induction L with
    | nil => exact fun t' _ _ => ⟨Sub.refl t', nofun⟩
    | cons b L ih =>
      intro t' ht' hL
      have hb := hL b (List.mem_cons_self _ _)
      rw [List.foldl_cons, callChangeCallbacks_eq]
      obtain ⟨h1, hc1⟩ := callChangeCallbacksInsert_flushing (T := [b]) (ht'.changeCb ▸ hsort)
        (ht'.changeCb ▸ hreg) (hF.sub ht') (by simpa [ht'.size] using hT b hb)
        (by simpa using (hnd b hb).sublist (ht'.entries b))
      obtain ⟨h2, hc2⟩ := ih _ (ht'.trans h1) fun b' hb' => hL b' (List.mem_cons_of_mem _ hb')
      refine ⟨h1.trans h2, fun b' hb' => ?_⟩
      rcases List.mem_cons.1 hb' with rfl | hb'
      · exact (hc1 b' (List.mem_singleton_self _)).sub h2
      · exact hc2 b' hb'
  unfold cvcUponBump
  split
  · rename_i hnone
    simp [List.getLast?_eq_none_iff.1 hnone] at hreg
  · rename_i th x hlast
    have hth : f ≤ th := by
      obtain ⟨ys, hys⟩ := List.getLast?_eq_some_iff.1 hlast
      rw [hys] at hreg hsort
      rcases List.mem_append.1 hreg with h | h
      · exact (List.pairwise_append.1 hsort).2.2 _ h _ (List.mem_singleton_self _) |>.le
      · exact (congrArg Prod.fst (List.mem_singleton.1 h)).le
    obtain ⟨h1, hc1⟩ := hfold _ t (Sub.refl t) fun b hb => (List.mem_filter.1 hb).1
    refine ⟨h1, fun b hb => ?_⟩
    by_cases hlt : (t.buckets b).version < th
    · exact hc1 b (List.mem_filter.2 ⟨hb, decide_eq_true hlt⟩)
    · exact (hF.clean_of_le (hT b hb) (by omega)).sub h1

/-- The loop of `FlushChangeToEarlierCallbacks` for bucket `b`, read at version `bv`: every callback
it runs is a `Sub`, and once it passes `f` the bucket is clean. Either the bucket is clean already,
or it is older than `f` and `on_change` is still ahead in the loop. -/
theorem flushEarlier_flushing {b upper bv : Nat} :
    ∀ (L : List (Nat × Listener)) (t : DbSlice), L.Pairwise (fun l l' => l.1 < l'.1) →
      (∃ l ∈ L, l.1 = upper) →
      (Clean fl I t b ∨ bv < f ∧ (t.buckets b).version < f ∧ (t.buckets b).entries.Nodup ∧
        (f, .flushSlots fl) ∈ L) →
      Sub f fl I t (flushEarlier b upper bv L t) ∧ (f < upper → Clean fl I (flushEarlier b upper bv L t) b)
  | [], _, _, hup, _ => by simp at hup
  | l :: L, t, hsort, hup, hI => by
    obtain ⟨hl, hsort⟩ := List.pairwise_cons.1 hsort
    simp only [flushEarlier]
    split
    · -- `l` is the bound: the loop stops, before `on_change` if the bucket is not clean
      refine ⟨Sub.refl t, fun hfu => hI.resolve_right fun ⟨_, _, _, hr⟩ => ?_⟩
      rcases List.mem_cons.1 hr with rfl | hr
      · omega
      · have := hl _ hr; omega
    rename_i hne
    have hup' : ∃ l' ∈ L, l'.1 = upper := by
      obtain ⟨l', hl', h⟩ := hup
      exact ⟨l', (List.mem_cons.1 hl').resolve_left (by rintro rfl; exact hne h), h⟩
    -- the callback `l`, run when it is newer than `bv`
    obtain ⟨h1, hI'⟩ : Sub f fl I t (if bv < l.1 then t.fireUpdate b l else t) ∧
        (Clean fl I (if bv < l.1 then t.fireUpdate b l else t) b ∨
          bv < f ∧ ((if bv < l.1 then t.fireUpdate b l else t).buckets b).version < f ∧
          ((if bv < l.1 then t.fireUpdate b l else t).buckets b).entries.Nodup ∧
          (f, .flushSlots fl) ∈ L) := by
      rcases hI with hc | ⟨hbv, hv, hnd, hr⟩
      · have hs : Sub f fl I t (if bv < l.1 then t.fireUpdate b l else t) := by
          split_ifs
          exacts [sub_fireUpdate fun _ => .inr hc, Sub.refl t]
        exact ⟨hs, .inl (hc.sub hs)⟩
      rcases List.mem_cons.1 hr with rfl | hr
      · -- `on_change` itself cleans the bucket
        rw [if_pos hbv]
        simp only [fireUpdate, if_pos hv]
        exact ⟨sub_iterateBucket f fl, .inl (clean_iterateBucket hv hnd)⟩
      · -- a callback older than `on_change` keeps the bucket older than `f`
        have hlt := hl _ hr
        split_ifs
        · exact ⟨sub_fireUpdate fun _ => .inl hlt, .inr ⟨hbv, fireUpdate_version_lt hlt hv,
            hnd.sublist (fireUpdate_sublist t b b l), hr⟩⟩
        · exact ⟨Sub.refl t, .inr ⟨hbv, hv, hnd, hr⟩⟩
    obtain ⟨h2, hc2⟩ := flushEarlier_flushing L _ hsort hup' hI'
    exact ⟨h1.trans h2, hc2⟩

/-- `BucketSaveCb` of a snapshot `v`, which is not `f`: a snapshot older than `f` keeps the bucket
older than `f`, and for a newer one `FlushChangeToEarlierCallbacks` ran `on_change` first. -/
theorem bucketSaveCb_sub (hs : t.ShardInv) (hreg : (f, .flushSlots fl) ∈ t.changeCb)
    (hF : Flushing f fl I t) {v : Nat} (hv : t.IsSnapshot v) (hb : b < t.size) :
    Sub f fl I t (t.bucketSaveCb v b) := by
  have hvf : v ≠ f := fun h => hs.not_isSnapshot hreg (h ▸ hv)
  unfold bucketSaveCb flushChangeToEarlierCallbacks
  split
  · exact Sub.refl t
  obtain ⟨l, hl, hlv, _⟩ := hv
  have hI : Clean fl I t b ∨ (t.buckets b).version < f ∧ (t.buckets b).version < f ∧
      (t.buckets b).entries.Nodup ∧ (f, .flushSlots fl) ∈ t.changeCb := by
    by_cases hlt : (t.buckets b).version < f
    · exact .inr ⟨hlt, hlt, hs.keys.nodup hb, hreg⟩
    · exact .inl (hF.clean_of_le hb (Nat.le_of_not_lt hlt))
  obtain ⟨h1, hc1⟩ := flushEarlier_flushing _ t hs.sorted ⟨l, hl, hlv⟩ hI
  refine h1.trans (sub_serializeBucket ?_)
  rcases Nat.lt_or_gt_of_ne hvf with h | h
  · exact .inl h
  · exact .inr (hc1 h)

/-! ### The steps of a run -/

/-- Buckets rewritten with contents free of dirty entries, and a stamp counter that does not go
back. -/
theorem Flushing.rewrite (hF : Flushing f fl I t) (T : List Nat) (nc : Nat → List Entry) {n : Nat}
    (hn : t.nextUid ≤ n) (hc : ∀ b ∈ T, ∀ x ∈ nc b, x ∈ I → fl x.key = true → False) :
    Flushing f fl I { t.rewrite T nc with nextUid := n } ∧
      ∀ b ∈ T, Clean fl I { t.rewrite T nc with nextUid := n } b := by
  have hT : ∀ b ∈ T, Clean fl I { t.rewrite T nc with nextUid := n } b := fun b hb x hx =>
    hc b hb x (by simpa [rewrite_entries, hb] using hx)
  refine ⟨⟨fun e he => (hF.uid_lt e he).trans_le hn, fun b hb hnc => ?_⟩, hT⟩
  have hbT : b ∉ T := fun h => hnc (hT b h)
  have := hF.dirty b hb fun hcl => hnc fun x hx => hcl x (by simpa [rewrite_entries, hbT] using hx)
  exact ⟨by simpa using this.1, this.2⟩

/-- A round of the slot flush's own traversal cleans the bucket under its cursor, then moves past
it. -/
theorem Flushing.flushSlotsStep (hF : Flushing f fl I t) (hc : (t.passes f).cursor < t.size)
    (hnd : (t.buckets (t.passes f).cursor).entries.Nodup) : Flushing f fl I (t.flushSlotsStep f fl) := by
  have h1 : Sub f fl I t (t.iterateBucket f fl (t.passes f).cursor) := sub_iterateBucket f fl
  have hclean : Clean fl I (t.iterateBucket f fl (t.passes f).cursor) (t.passes f).cursor := by
    by_cases hv : (t.buckets (t.passes f).cursor).version < f
    · exact clean_iterateBucket hv hnd
    · exact (hF.clean_of_le hc (Nat.le_of_not_lt hv)).sub h1
  have hF1 := hF.sub h1
  refine ⟨hF1.uid_lt, fun b hb hnc => ?_⟩
  obtain ⟨hv, hcur⟩ := hF1.dirty b hb hnc
  have hbc : b ≠ (t.passes f).cursor := fun h => hnc (h ▸ hclean)
  refine ⟨hv, ?_⟩
  simp only [DbSlice.flushSlotsStep, advance_passes, if_true]
  have := h1.cursor
  omega

section Registered

variable (hs : t.ShardInv) (hreg : (f, .flushSlots fl) ∈ t.changeCb) (hF : Flushing f fl I t)
include hs hreg hF

/-- A write: the callbacks clean the bucket, it takes `NextVersion()`, and the new record has a
fresh stamp. -/
theorem Flushing.writeKey (hb : b < t.size) (e : Entry) (r : Option Record) :
    Flushing f fl I (t.writeKey b e r) := by
  obtain ⟨h1, hc1⟩ := callChangeCallbacksInsert_flushing (T := [b]) hs.sorted hreg hF
    (by simpa using hb) (by simpa using hs.keys.nodup hb)
  rw [← callChangeCallbacks_eq] at h1 hc1
  have hc1 := hc1 b (List.mem_singleton_self b)
  have hF2 := hF.sub (h1.trans (sub_setNextVersion hc1))
  have hc2 := hc1.sub (sub_setNextVersion (f := f) hc1)
  unfold DbSlice.writeKey preUpdateBlocking
  generalize (t.callChangeCallbacks b).setNextVersion b = t2 at hF2 hc2 ⊢
  dsimp only
  split
  · cases r with
    | some r =>
      refine (hF2.rewrite _ _ (Nat.le_succ _) fun _ _ x hx hxI hfl => ?_).1
      rcases List.mem_append.1 hx with hx | hx
      · exact hc2 x (List.mem_of_mem_erase hx) hxI hfl
      · rw [List.mem_singleton.1 hx] at hxI
        exact lt_irrefl _ (hF2.uid_lt _ hxI)
    | none => exact (hF2.rewrite _ _ le_rfl fun _ _ x hx => hc2 x (List.mem_of_mem_erase hx)).1
  · exact hF2

/-- An insertion: the callbacks clean the touched buckets, the new entry has a fresh stamp, and
the buckets that change and the new entry's bucket take `NextVersion()` clean. -/
theorem Flushing.insertNew {T : List Nat} {target : Nat} {key : String} {r : Record}
    {nc : Nat → List Entry} (h : InsertOk (t.callChangeCallbacksInsert T) T target key r nc) :
    Flushing f fl I (t.insertNew T target nc) := by
  have hT : ∀ b ∈ T, b < t.size := fun b hb =>
    callChangeCallbacksInsert_size (s := t) T ▸ h.touched_lt b hb
  obtain ⟨h1, hc1⟩ := callChangeCallbacksInsert_flushing hs.sorted hreg hF hT
    fun b hb => hs.keys.nodup (hT b hb)
  unfold DbSlice.insertNew mutate
  generalize t.callChangeCallbacksInsert T = t1 at h h1 hc1 ⊢
  have hF1 := hF.sub h1
  obtain ⟨hF2, hc2⟩ := hF1.rewrite T nc (Nat.le_succ _) fun b hb x hx hxI hfl => by
    rcases List.mem_append.1 (h.moved.subset (List.mem_flatMap.2 ⟨b, hb, hx⟩)) with hx' | hx'
    · obtain ⟨b', hb', hx'⟩ := List.mem_flatMap.1 hx'
      exact hc1 b' hb' x hx' hxI hfl
    · rw [List.mem_singleton.1 hx'] at hxI
      exact lt_irrefl _ (hF1.uid_lt _ hxI)
  have h3 : Sub f fl I _ (DbSlice.setNextVersions _ (t1.changed T nc)) := sub_setNextVersions fun b hb =>
    hc2 b (List.mem_filter.1 hb).1
  exact (hF2.sub h3).sub (sub_setNextVersion ((hc2 target h.target_mem).sub h3))

/-- A bump-up: `CVCUponBump`'s callbacks clean the touched buckets, and the bump-up only exchanges
their entries. -/
theorem Flushing.bumpUp {T : List Nat} {nc : Nat → List Entry} (h : BumpOk (t.cvcUponBump T) T nc) :
    Flushing f fl I (t.bumpUp T nc) := by
  have hT : ∀ b ∈ T, b < t.size := fun b hb => cvcUponBump_size (s := t) T ▸ h.touched_lt b hb
  obtain ⟨h1, hc1⟩ := cvcUponBump_flushing hs.sorted hreg hF hT fun b hb => hs.keys.nodup (hT b hb)
  unfold DbSlice.bumpUp mutate
  generalize t.cvcUponBump T = t1 at h h1 hc1 ⊢
  obtain ⟨hF2, hc2⟩ := (hF.sub h1).rewrite T nc le_rfl fun b hb x hx => by
    obtain ⟨b', hb', hx'⟩ := List.mem_flatMap.1 (h.moved.subset (List.mem_flatMap.2 ⟨b, hb, hx⟩))
    exact hc1 b' hb' x hx'
  exact hF2.sub (sub_setNextVersions fun b hb => hc2 b (List.mem_filter.1 hb).1)

/-- Every step of the shard keeps the slot flush's invariant while the flush is registered. -/
theorem Flushing.step {u : DbSlice} (h : Step t u) : Flushing f fl I u := by
  cases h with
  | register l =>
    refine ⟨hF.uid_lt, fun b hb hnc => ?_⟩
    rw [registerOnChange_passes, if_neg (hs.cb_lt _ hreg).ne]
    exact hF.dirty b hb hnc
  | unregister id => exact ⟨hF.uid_lt, hF.dirty⟩
  | snapshot hv hc =>
    exact hF.sub ((bucketSaveCb_sub hs hreg hF hv hc).trans
      (sub_advance fun h => hs.not_isSnapshot hreg (h ▸ hv)))
  | @flushSlots g fl' hg hc =>
    by_cases hgf : g = f
    · subst hgf
      obtain rfl : fl' = fl := by simpa using eq_of_version_eq hs.sorted hg hreg rfl
      exact hF.flushSlotsStep hc (hs.keys.nodup hc)
    · exact hF.sub ((sub_iterateBucket _ _).trans (sub_advance hgf))
  | write r hb _ => exact Flushing.writeKey hs hreg hF hb _ r
  | insert h => exact Flushing.insertNew hs hreg hF h
  | insertRejected hT _ =>
    exact hF.sub (callChangeCallbacksInsert_flushing hs.sorted hreg hF hT
      fun b hb => hs.keys.nodup (hT b hb)).1
  | bumpUp h => exact Flushing.bumpUp hs hreg hF h
  | expire _ _ => exact hF.sub (sub_performDeletion _)

end Registered

/-- A step adds to `change_cb_` only the callback it registers, at `next_version_`, and
`next_version_` does not go down. -/
theorem Step.changeCb_subset {u : DbSlice} (h : Step t u) (hs : t.ShardInv) :
    t.nextVersion ≤ u.nextVersion ∧ ∀ x ∈ u.changeCb, x ∈ t.changeCb ∨ x.1 = t.nextVersion := by
  -- callbacks change neither
  have hE : ∀ {t'}, Effects t t' →
      t.nextVersion ≤ t'.nextVersion ∧ ∀ x ∈ t'.changeCb, x ∈ t.changeCb ∨ x.1 = t.nextVersion :=
    fun he => ⟨he.frame.nextVersion.ge, fun x hx => .inl (he.frame.changeCb ▸ hx)⟩
  cases h with
  | register l =>
    refine ⟨Nat.le_succ _, fun x hx => ?_⟩
    rcases List.mem_append.1 hx with hx | hx
    · exact .inl hx
    · exact .inr (congrArg Prod.fst (List.mem_singleton.1 hx))
  | unregister id => exact ⟨le_rfl, fun x hx => .inl (List.mem_of_mem_eraseP hx)⟩
  | snapshot hv hc => exact (hE (bucketSaveCb_spec hs hv hc).1 :)
  | flushSlots _ hc => exact (hE (iterateBucket_effects hs hc) :)
  | @write b e r hb _ =>
    obtain ⟨h1, h2⟩ := hE (callChangeCallbacks_spec hs hb).1
    have : (t.writeKey b e r).nextVersion = (t.callChangeCallbacks b).nextVersion + 1 ∧
        (t.writeKey b e r).changeCb = (t.callChangeCallbacks b).changeCb := by
      unfold writeKey preUpdateBlocking
      dsimp only
      split
      · cases r <;> exact ⟨rfl, rfl⟩
      · exact ⟨rfl, rfl⟩
    exact ⟨this.1 ▸ h1.trans (Nat.le_succ _), this.2 ▸ h2⟩
  | @insert T _ _ _ _ h =>
    have hT : ∀ b ∈ T, b < t.size := fun b hb =>
      callChangeCallbacksInsert_size (s := t) T ▸ h.touched_lt b hb
    obtain ⟨h1, h2⟩ := hE (callChangeCallbacksInsert_spec hs hT h.nodup).1
    refine ⟨h1.trans ?_, fun x hx => .inl (by simpa using hx)⟩
    simp only [insertNew, mutate, setNextVersion_nextVersion, setNextVersions_nextVersion]
    exact Nat.le_add_right_of_le (Nat.le_add_right _ _)
  | insertRejected hT hnd => exact hE (callChangeCallbacksInsert_spec hs hT hnd).1
  | @bumpUp T _ h =>
    have h1 := (hE (cvcUponBump_spec hs fun b hb => cvcUponBump_size (s := t) T ▸ h.touched_lt b hb).1).1
    refine ⟨h1.trans ?_, fun x hx => .inl (by simpa using hx)⟩
    simp only [DbSlice.bumpUp, mutate, setNextVersions_nextVersion]
    exact Nat.le_add_right _ _
  | expire _ _ => exact ⟨le_rfl, fun x hx => .inl hx⟩

/-- Along a run, a slot flush registered at its end was registered at every state of it (it cannot
come back once unregistered, since it is older than `next_version_`), so its invariant holds all
along. -/
theorem Flushing.run {s u : DbSlice} (hr : Reachable s) (h : Relation.ReflTransGen Step s u)
    (hf : f < s.nextVersion) (hF : (f, .flushSlots fl) ∈ s.changeCb → Flushing f fl I s) :
    Reachable u ∧ f < u.nextVersion ∧ ((f, .flushSlots fl) ∈ u.changeCb → Flushing f fl I u) := by
  induction h with
  | refl => exact ⟨hr, hf, hF⟩
  | tail _ htu ih =>
    obtain ⟨hr', hf', hF'⟩ := ih
    have hs := hr'.inv
    obtain ⟨hnv, hcb⟩ := htu.changeCb_subset hs
    refine ⟨hr'.step htu, hf'.trans_le hnv, fun hreg => ?_⟩
    have hreg' : (f, Listener.flushSlots fl) ∈ _ := (hcb _ hreg).resolve_right hf'.ne
    exact (hF' hreg').step hs hreg' htu

end Sub

/-! ### Buckets older than the flush hold only the image -/

section OldImage

variable {f : Nat} {I : List Entry} {t u : DbSlice}

/-- `OldImage` survives a change after which a bucket older than `f` was older than `f` before and
holds only entries it held then. -/
theorem OldImage.of_old (hO : OldImage f I t) (hsize : u.size = t.size)
    (hnv : t.nextVersion ≤ u.nextVersion)
    (hb : ∀ b < t.size, (u.buckets b).version < f →
      (t.buckets b).version < f ∧ ∀ e ∈ (u.buckets b).entries, e ∈ (t.buckets b).entries) :
    OldImage f I u :=
  ⟨hO.le_next.trans hnv, fun b hbs hv e he =>
    have h := hb b (hsize ▸ hbs) hv
    hO.old b (hsize ▸ hbs) h.1 e (h.2 e he)⟩

/-- A change of bookkeeping only: the buckets stay as they were. -/
theorem OldImage.of_buckets (hO : OldImage f I t) (hnv : t.nextVersion ≤ u.nextVersion)
    (hb : u.buckets = t.buckets) (hsize : u.size = t.size) : OldImage f I u :=
  hO.of_old hsize hnv fun _ _ hv => by rw [hb] at hv ⊢; exact ⟨hv, fun _ he => he⟩

/-- The stamp counter is ghost. -/
theorem OldImage.withUid (hO : OldImage f I t) (n : Nat) : OldImage f I { t with nextUid := n } :=
  hO.of_buckets le_rfl rfl rfl

theorem Effects.entries_sublist (h : Effects t u) (b : Nat) :
    (u.buckets b).entries.Sublist (t.buckets b).entries := by
  induction h with
  | refl => exact List.Sublist.refl _
  | tail _ h ih =>
    refine List.Sublist.trans ?_ ih
    cases h with
    | serialize => rw [serializeBucket_entries]
    | delete => exact performDeletion_sublist _

/-- Callbacks only delete entries and raise versions. -/
theorem OldImage.effects (hO : OldImage f I t) (h : Effects t u) : OldImage f I u :=
  hO.of_old h.frame.size h.frame.nextVersion.ge fun b _ hv =>
    ⟨lt_of_le_of_lt (h.frame.version b) hv, fun _ he => (h.entries_sublist b).subset he⟩

/-- The bucket takes a version at least `f`. -/
theorem OldImage.setNextVersion (hO : OldImage f I t) (b : Nat) : OldImage f I (t.setNextVersion b) :=
  hO.of_old rfl (Nat.le_succ _) fun b' _ hv => by
    rw [setNextVersion_version] at hv
    split at hv
    · exact absurd hv (Nat.not_lt.2 hO.le_next)
    · exact ⟨hv, fun e he => by simpa using he⟩

/-- A rewrite of buckets no older than `f`. -/
theorem OldImage.rewrite (hO : OldImage f I t) {T : List Nat} {nc : Nat → List Entry}
    (hT : ∀ b ∈ T, f ≤ (t.buckets b).version) : OldImage f I (t.rewrite T nc) :=
  hO.of_old rfl le_rfl fun b _ hv => by
    rw [rewrite_version] at hv
    have hbT : b ∉ T := fun h => absurd hv (Nat.not_lt.2 (hT b h))
    exact ⟨hv, fun e he => by rwa [rewrite_entries, if_neg hbT] at he⟩

/-- A change of the table: a bucket it changes takes `NextVersion()`, and one it leaves as it was
keeps its entries. -/
theorem OldImage.mutate (hO : OldImage f I t) (T : List Nat) (nc : Nat → List Entry) :
    OldImage f I (t.mutate T nc) :=
  hO.of_old (by simp [DbSlice.mutate, DbSlice.rewrite]) (by simp [DbSlice.mutate, DbSlice.rewrite])
    fun b _ hv => by
    unfold DbSlice.mutate at hv ⊢
    by_cases hc : b ∈ t.changed T nc
    · exact absurd hv (Nat.not_lt.2 (hO.le_next.trans (le_setNextVersions_version (s := t.rewrite T nc) hc)))
    rw [setNextVersions_version_of_not_mem hc, rewrite_version] at hv
    refine ⟨hv, fun e he => ?_⟩
    rw [setNextVersions_entries, rewrite_entries] at he
    split at he
    · rename_i hbT
      simp only [changed, List.mem_filter, hbT, true_and, decide_eq_true_eq, not_not] at hc
      rwa [← hc]
    · exact he

variable (hs : t.ShardInv) (hO : OldImage f I t)
include hs hO

/-- A write: its bucket takes `NextVersion()` before the new record enters it. -/
theorem OldImage.writeKey {b : Nat} (hb : b < t.size) (e : Entry) (r : Option Record) :
    OldImage f I (t.writeKey b e r) := by
  have h1 := hO.effects (callChangeCallbacks_spec hs hb).1
  have h2 := h1.setNextVersion b
  have hT : ∀ b' ∈ [b], f ≤ (((t.callChangeCallbacks b).setNextVersion b).buckets b').version := by
    simpa [setNextVersion_version] using h1.le_next
  unfold DbSlice.writeKey preUpdateBlocking
  dsimp only
  split
  · cases r with
    | some r => exact (h2.rewrite hT).withUid _
    | none => exact h2.rewrite hT
  · exact h2

/-- Every step keeps `OldImage`. -/
theorem OldImage.step (h : Step t u) : OldImage f I u := by
  cases h with
  | register l => exact hO.of_buckets (Nat.le_succ _) rfl rfl
  | unregister id => exact hO.of_buckets le_rfl rfl rfl
  | snapshot hv hc => exact (hO.effects (bucketSaveCb_spec hs hv hc).1).of_buckets le_rfl rfl rfl
  | flushSlots _ hc => exact (hO.effects (iterateBucket_effects hs hc)).of_buckets le_rfl rfl rfl
  | write r hb _ => exact hO.writeKey hs hb _ r
  | @insert T _ _ _ _ h =>
    have hT : ∀ b ∈ T, b < t.size := fun b hb =>
      callChangeCallbacksInsert_size (s := t) T ▸ h.touched_lt b hb
    exact (((hO.effects (callChangeCallbacksInsert_spec hs hT h.nodup).1).withUid _).mutate _ _).setNextVersion _
  | insertRejected hT hnd => exact hO.effects (callChangeCallbacksInsert_spec hs hT hnd).1
  | @bumpUp T _ h =>
    exact (hO.effects (cvcUponBump_spec hs fun b hb =>
      cvcUponBump_size (s := t) T ▸ h.touched_lt b hb).1).mutate _ _
  | expire hb he => exact hO.effects (.single (.delete hb he))

omit hs hO in
/-- `iterate_bucket` of the flush registered at `f` keeps every entry outside the image. -/
theorem OldImage.mem_of_iterateBucket (hO : OldImage f I t) (fl : String → Bool) (b : Nat)
    {e : Entry} (he : t.InTable e) (hgone : ¬ (t.iterateBucket f fl b).InTable e) : e ∈ I := by
  obtain ⟨b0, hb0, heb⟩ := he
  refine Classical.byContradiction fun hI => hgone ⟨b0, by simpa using hb0, ?_⟩
  have hv : f ≤ (t.buckets b0).version := Nat.le_of_not_lt fun hv => hI (hO.old b0 hb0 hv e heb)
  by_cases hbb : b0 = b
  · subst hbb; unfold DbSlice.iterateBucket; rwa [if_neg (Nat.not_lt.2 hv)]
  · rwa [iterateBucket_entries_of_ne hbb]

omit hs hO in
theorem OldImage.run (hr : Reachable t) (h : Relation.ReflTransGen Step t u) (hO : OldImage f I t) :
    OldImage f I u := by
  induction h with
  | refl => exact hO
  | tail hrun hstep ih => exact ih.step (hr.steps hrun).inv hstep

end OldImage

/-! ## Main theorems -/

/-- Once the traversal of `FlushSlotsFb` registered on a reachable shard has reached the end, with
the slot flush still registered, whatever ran in between, every entry of the table at registration
whose slot is flushed is gone. -/
theorem flushSlots_deletes_image {s : DbSlice} (hr : Reachable s) {fl : String → Bool} {t : DbSlice}
    (h : Relation.ReflTransGen Step (s.registerOnChange (.flushSlots fl)) t)
    (hreg : (s.nextVersion, .flushSlots fl) ∈ t.changeCb)
    (hdone : (t.passes s.nextVersion).cursor = t.size) :
    ∀ e ∈ s.entries, fl e.key = true → ¬ t.InTable e := by
  have hs := hr.inv
  -- at registration every bucket is older than `f` and the cursor is at the first bucket
  have h0 : Flushing s.nextVersion fl s.entries (s.registerOnChange (.flushSlots fl)) :=
    ⟨fun e he => hs.uid_lt e ((mem_entries s).1 he),
      fun b hb _ => ⟨hs.version_lt b hb, by simp [registerOnChange_passes]⟩⟩
  have hF := (Flushing.run (.step hr (.register _)) h (Nat.lt_succ_self _) fun _ => h0).2.2 hreg
  rintro e he hfl ⟨b, hb, heb⟩
  have := (hF.dirty b hb fun hc => hc e heb he hfl).2
  omega

/-- Along every run from the registration of `FlushSlotsFb`'s callback on a reachable shard,
`iterate_bucket` deletes only entries of the table at registration, wherever it runs: at a state
of the run, or after the callbacks a step runs before it. Once the traversal has reached the end
with the callback still registered, every entry of the table at registration whose slot is
flushed is gone. -/
theorem flushSlots_deletes_exactly_image {s : DbSlice} (hr : Reachable s) {fl : String → Bool}
    {t : DbSlice} (h : Relation.ReflTransGen Step (s.registerOnChange (.flushSlots fl)) t) :
    (∀ u, Effects t u → ∀ b e, u.InTable e → ¬ (u.iterateBucket s.nextVersion fl b).InTable e →
      e ∈ s.entries) ∧
    ((s.nextVersion, .flushSlots fl) ∈ t.changeCb → (t.passes s.nextVersion).cursor = t.size →
      ∀ e ∈ s.entries, fl e.key = true → ¬ t.InTable e) := by
  -- at registration every bucket is older than the flush and holds only the image
  have h0 : OldImage s.nextVersion s.entries (s.registerOnChange (.flushSlots fl)) :=
    ⟨Nat.le_succ _, fun b hb _ e he => (mem_entries s).2 ⟨b, hb, he⟩⟩
  have hO := h0.run (.step hr (.register _)) h
  exact ⟨fun u hu b _ he hgone => (hO.effects hu).mem_of_iterateBucket fl b he hgone,
    flushSlots_deletes_image hr h⟩

/-- One key, a slot flush of every slot, one round of its traversal: the key is gone, and
whatever `iterate_bucket` deletes afterwards was there at registration. -/
theorem flushSlots_deletes_exactly_image_oneKey :
    let t := (oneKeyShard.registerOnChange (.flushSlots fun _ => true)).flushSlotsStep 1 fun _ => true
    (∀ u, Effects t u → ∀ b e, u.InTable e → ¬ (u.iterateBucket 1 (fun _ => true) b).InTable e →
      e ∈ oneKeyShard.entries) ∧ ∀ e ∈ oneKeyShard.entries, ¬ t.InTable e :=
  have h := flushSlots_deletes_exactly_image (.init oneKeyShard_init)
    (.single (.flushSlots (List.mem_append_right _ (List.mem_singleton_self _)) (by decide)))
  ⟨h.1, fun e he => h.2 (List.mem_append_right _ (List.mem_singleton_self _)) (by decide) e he rfl⟩

end Dragonfly.Snapshot.DbSlice
