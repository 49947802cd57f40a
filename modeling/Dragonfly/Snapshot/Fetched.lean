import Dragonfly.Snapshot.Run

/-!
# Iterators held across change callbacks

`FindMutableInternal` and `AddOrFindInternal` run `PreUpdateBlocking` on the slot they found and
then check `res->it.IsOccupied()` (`writeKey` writes only when the entry is still there).
`DbSlice::OnCbFinishBlocking` does not: it finds a fetched item with `FindFirst`, runs the change
callbacks of `CVCUponBump`, and hands the same iterator to `PrimeTable::BumpUp`. When a slot flush
is registered, its `on_change` deletes the entries of the flushed slots from every bucket older
than its version, so the entry the iterator designated can be gone before the bump-up
(`cvcUponBump_deletes_fetched`).

Callbacks only ever remove entries from a bucket (`fireUpdate_sublist`), and a bucket they visit
keeps a version below the newest callback's (`fireUpdate_version_lt`).
-/

namespace Dragonfly.Snapshot.DbSlice

/-! ## Lemmas -/

theorem foldl_performDeletion_sublist {b b' : Nat} :
    ∀ (L : List Entry) (t : DbSlice),
      ((L.foldl (fun t e => t.performDeletion b e) t).buckets b').entries.Sublist (t.buckets b').entries
  | [], _ => List.Sublist.refl _
  | e :: L, t => by
    rw [List.foldl_cons]
    refine (foldl_performDeletion_sublist L _).trans ?_
    rw [performDeletion_entries]
    split
    · subst b'; exact List.erase_sublist _ _
    · exact List.Sublist.refl _

/-- Deleting the entries of `L` from bucket `b`, whose entries are distinct, leaves none of them. -/
theorem foldl_performDeletion_not_mem {b : Nat} {e : Entry} :
    ∀ (L : List Entry) (t : DbSlice), (t.buckets b).entries.Nodup → e ∈ L →
      e ∉ ((L.foldl (fun t e => t.performDeletion b e) t).buckets b).entries
  | x :: L, t, hnd, he => by
    rw [List.foldl_cons]
    have hnd' : ((t.performDeletion b x).buckets b).entries.Nodup := by
      rw [performDeletion_entries, if_pos rfl]; exact hnd.sublist (List.erase_sublist _ _)
    rcases List.mem_cons.1 he with rfl | he
    · intro h
      have := (foldl_performDeletion_sublist L _).subset h
      rw [performDeletion_entries, if_pos rfl] at this
      exact hnd.not_mem_erase this
    · exact foldl_performDeletion_not_mem L _ hnd' he

/-- A callback never adds an entry to a bucket. -/
theorem fireUpdate_sublist (t : DbSlice) (b b' : Nat) :
    ∀ l : Nat × Listener, ((t.fireUpdate b l).buckets b').entries.Sublist (t.buckets b').entries
  | (v, .snapshot) => by
    dsimp only [fireUpdate]; split
    · rw [serializeBucket_entries]
    · exact List.Sublist.refl _
  | (v, .flushSlots fl) => by
    dsimp only [fireUpdate, iterateBucket]; split_ifs
    · exact foldl_performDeletion_sublist _ _
    · exact List.Sublist.refl _

/-- A callback older than `f` leaves every bucket older than `f`. -/
theorem fireUpdate_version_lt {t : DbSlice} {b b' f : Nat} :
    ∀ {l : Nat × Listener}, l.1 < f → (t.buckets b').version < f →
      ((t.fireUpdate b l).buckets b').version < f
  | (v, .snapshot), hl, h => by
    dsimp only [fireUpdate]; split
    · rw [serializeBucket_version]; split <;> assumption
    · exact h
  | (v, .flushSlots fl), _, h => by
    dsimp only [fireUpdate]; split
    · rwa [iterateBucket_version]
    · exact h

/-- The callbacks of a list older than `f`, one after the other on bucket `b`. -/
theorem foldl_fireUpdate {b b' f : Nat} :
    ∀ (P : List (Nat × Listener)) (t : DbSlice), (∀ l ∈ P, l.1 < f) → (t.buckets b').version < f →
      ((P.foldl (fun t l => t.fireUpdate b l) t).buckets b').version < f ∧
        ((P.foldl (fun t l => t.fireUpdate b l) t).buckets b').entries.Sublist (t.buckets b').entries
  | [], _, _, h => ⟨h, List.Sublist.refl _⟩
  | l :: P, t, hP, h => by
    rw [List.foldl_cons]
    obtain ⟨h1, h2⟩ := foldl_fireUpdate P _ (fun l' hl' => hP l' (List.mem_cons_of_mem _ hl'))
      (fireUpdate_version_lt (hP l (List.mem_cons_self _ _)) h)
    exact ⟨h1, h2.trans (fireUpdate_sublist t b b' l)⟩

/-! ## Main theorem -/

/-- In a reachable shard whose newest callback is a slot flush registered at `f`, no entry of a
flushed slot is left in a bucket older than `f` once `CVCUponBump`'s callbacks have run for it: an
iterator `OnCbFinishBlocking` found there before and passes to `BumpUp` designates an entry that
is gone. -/
theorem cvcUponBump_deletes_fetched {s : DbSlice} (hr : Reachable s) {b f : Nat}
    {fl : String → Bool} {e : Entry} (hlast : s.changeCb.getLast? = some (f, .flushSlots fl))
    (hb : b < s.size) (hv : (s.buckets b).version < f) (hfl : fl e.key = true) : e ∉ ((s.cvcUponBump [b]).buckets b).entries := by
  have hs := hr.inv
  have hcb := List.dropLast_append_getLast? _ hlast
  have hP : ∀ l ∈ s.changeCb.dropLast, l.1 < f := fun l hl =>
    (List.pairwise_append.1 (hcb ▸ hs.sorted)).2.2 l hl _ (List.mem_singleton_self _)
  obtain ⟨hv', hsub⟩ := @foldl_fireUpdate b b f _ s hP hv
  have hc : s.cvcUponBump [b] = (s.changeCb.dropLast.foldl (fun t l => t.fireUpdate b l) s).fireUpdate
      b (f, .flushSlots fl) := by
    simp only [cvcUponBump, hlast, List.filter_cons, hv, decide_eq_true_eq, if_true, List.filter_nil,
      List.foldl_cons, List.foldl_nil, callChangeCallbacks]
    conv_lhs => rw [← hcb]
    rw [List.foldl_append, List.foldl_cons, List.foldl_nil]
  rw [hc]
  generalize s.changeCb.dropLast.foldl (fun t l => t.fireUpdate b l) s = t at hv' hsub
  have hnd := (hs.keys.nodup hb).sublist hsub
  dsimp only [fireUpdate, iterateBucket]
  rw [if_pos hv', if_pos hv']
  by_cases het : e ∈ (t.buckets b).entries
  · exact foldl_performDeletion_not_mem _ _ hnd (List.mem_filter.2 ⟨het, hfl⟩)
  · exact fun h => het ((foldl_performDeletion_sublist _ _).subset h)

/-- One key, then a slot flush of every slot registered: its bump-up callbacks delete the key. -/
theorem cvcUponBump_deletes_fetched_oneKey :
    let s1 := oneKeyShard.registerOnChange (.flushSlots fun _ => true)
    Reachable s1 ∧ (⟨0, "k", ⟨"v", 0, 0⟩⟩ : Entry) ∈ (s1.buckets 0).entries ∧
      (⟨0, "k", ⟨"v", 0, 0⟩⟩ : Entry) ∉ ((s1.cvcUponBump [0]).buckets 0).entries :=
  ⟨.step (.init oneKeyShard_init) (.register _), List.mem_singleton_self _,
    cvcUponBump_deletes_fetched (.step (.init oneKeyShard_init) (.register _)) rfl (by decide)
      (by decide) rfl⟩

end Dragonfly.Snapshot.DbSlice
