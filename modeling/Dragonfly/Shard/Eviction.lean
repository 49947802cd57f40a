import Mathlib.Data.List.Basic

/-!
# Eviction

The two ways cache mode deletes keys to make room:

* `PrimeEvictionPolicy::Evict`, called by `InsertNew` on a full segment, looks at the last slot of
  one stash bucket and deletes its entry unless it is sticky or locked, then shifts the bucket;
* `DbSlice::FreeMemWithEvictionStepAtomic`, on the heartbeat, scans slot by slot, bucket by bucket
  (the bucket id clamped to each segment's bucket count), over `max_segment_to_consider`
  segments, and deletes busy, non-sticky, allocated, unlocked entries until
  `max_eviction_per_heartbeat` entries or the byte goal are reached.

`evictions_safe` says what they delete: at most one entry per `Evict` and only when `can_evict_`;
nothing outside cache mode or when expiry is off; never a sticky, unallocated or locked entry;
at most `max_eviction_per_heartbeat` entries per heartbeat when that flag is at least 1. The
heartbeat scan keeps a ghost list of the positions it emptied.
-/

namespace Dragonfly.Eviction

/-- What eviction reads of an occupied slot: the key, `IsSticky()`, whether key or value
`HasAllocated()`, and the `MallocUsed()` of both. -/
structure Entry where
  key : String
  sticky : Bool
  allocated : Bool
  mallocUsed : Nat
  deriving DecidableEq, Repr

/-- A slot of the prime table: segment, bucket, slot. -/
abbrev Pos := Nat × Nat × Nat

/-- The layout the heartbeat scan walks: `segment->num_buckets()` (never 0) and
`GetNextSegmentForEviction`. -/
structure Layout where
  numBuckets : Nat → Nat
  numBuckets_pos : ∀ seg, 0 < numBuckets seg
  nextSeg : Nat → Nat

/-- The constants and flags of the scan: `Segment_t::kSlotNum`, `PrimeTable::LargestBucketId()`,
`max_eviction_per_heartbeat`, `max_segment_to_consider`. -/
structure ScanParams where
  numSlots : Nat
  largestBucketId : Nat
  maxEvictionPerHb : Nat
  maxSegmentToConsider : Nat

/-- The scan's state: the slots, `evicted_items`, `evicted_bytes`, `keys_to_journal`, and the
ghost list of the positions emptied. -/
structure ScanState where
  slots : Pos → Option Entry
  items : Nat
  bytes : Nat
  journal : List String
  removed : List Pos

section Scan

variable (lay : Layout) (sp : ScanParams) (locked : String → Bool) (recordKeys : Bool)
  (goal : Nat)

/-! ## Algorithm -/

/-- `bucket_id` clamped to the segment's last bucket. -/
def clamp (seg b : Nat) : Nat := if b ≥ lay.numBuckets seg then lay.numBuckets seg - 1 else b

/-- The body of the innermost loop of `FreeMemWithEvictionStepAtomic` at segment `seg`: clamp
`bucket_id`; a busy slot whose entry is not sticky, is allocated and is not locked is deleted
with `PerformDeletion`; the loop ends at `max_eviction_per_heartbeat` entries or at the goal.
Returns the state, the (clamped) `bucket_id`, and whether the scan is finished. -/
def visit (slot seg b : Nat) (st : ScanState) : ScanState × Nat × Bool :=
  let b := clamp lay seg b
  match st.slots (seg, b, slot) with
  | none => (st, b, false)
  | some e =>
    if e.sticky ∨ e.allocated = false then (st, b, false)
    else if locked e.key then (st, b, false)
    else
      let st' : ScanState :=
        { slots := Function.update st.slots (seg, b, slot) none
          items := st.items + 1
          bytes := st.bytes + e.mallocUsed
          journal := if recordKeys then st.journal ++ [e.key] else st.journal
          removed := st.removed ++ [(seg, b, slot)] }
      (st', b, st'.items = sp.maxEvictionPerHb ∨ st'.bytes ≥ goal)

/-- The segment loop: `n` more segments from `seg`, with `bucket_id` `b`. -/
def segLoop (slot : Nat) : Nat → Nat → Nat → ScanState → ScanState × Nat × Bool
  | 0, _, b, st => (st, b, false)
  | n + 1, seg, b, st =>
    match visit lay sp locked recordKeys goal slot seg b st with
    | (st', b', true) => (st', b', true)
    | (st', b', false) => segLoop slot n (lay.nextSeg seg) b' st'

theorem clamp_le (seg b : Nat) : clamp lay seg b ≤ b := by
  unfold clamp; split <;> omega

theorem visit_bucket (slot seg b : Nat) (st : ScanState) :
    (visit lay sp locked recordKeys goal slot seg b st).2.1 = clamp lay seg b := by
  simp only [visit]; split <;> (try split_ifs) <;> rfl

theorem segLoop_le (slot : Nat) :
    ∀ n seg b st, (segLoop lay sp locked recordKeys goal slot n seg b st).2.1 ≤ b
  | 0, _, _, _ => le_rfl
  | n + 1, seg, b, st => by
    have hv : (visit lay sp locked recordKeys goal slot seg b st).2.1 ≤ b :=
      (visit_bucket lay sp locked recordKeys goal slot seg b st).trans_le (clamp_le lay seg b)
    unfold segLoop
    generalize visit lay sp locked recordKeys goal slot seg b st = r at hv
    obtain ⟨st', b', _ | _⟩ := r
    · exact (segLoop_le slot n _ b' st').trans hv
    · exact hv

/-- The bucket loop: `bucket_id` from `b` down to 0, each round going through `segLoop` from
`starting_segment_id`; the clamps inside lower the loop's own `bucket_id`. -/
def bucketLoop (slot startSeg b : Nat) (st : ScanState) : ScanState × Bool :=
  let r := segLoop lay sp locked recordKeys goal slot sp.maxSegmentToConsider startSeg b st
  if r.2.2 then (r.1, true)
  else if h : r.2.1 = 0 then (r.1, false)
  else bucketLoop slot startSeg (r.2.1 - 1) r.1
termination_by b
decreasing_by
  exact Nat.lt_of_lt_of_le (Nat.sub_lt (Nat.pos_of_ne_zero h) Nat.one_pos)
    (segLoop_le lay sp locked recordKeys goal slot sp.maxSegmentToConsider startSeg b st)

/-- The slot loop: `slot_id` from `n - 1` down to 0. -/
def slotLoop (startSeg : Nat) : Nat → ScanState → ScanState × Bool
  | 0, st => (st, false)
  | n + 1, st =>
    match bucketLoop lay sp locked recordKeys goal n startSeg sp.largestBucketId st with
    | (st', true) => (st', true)
    | (st', false) => slotLoop startSeg n st'

/-- `DbSlice::FreeMemWithEvictionStepAtomic(db_ind, starting_segment_id, increase_goal_bytes)`:
tiered storage reclaims first (`reclaimed`, when there is tiered storage); outside cache mode or
with expiry off nothing is evicted; otherwise the scan. -/
def freeMemWithEvictionStepAtomic (cacheMode expireAllowed : Bool) (reclaimed : Option Nat)
    (slots : Pos → Option Entry) (startSeg : Nat) : ScanState :=
  let r := reclaimed.getD 0
  if reclaimed.isSome ∧ r ≥ goal then ⟨slots, 0, r, [], []⟩
  else if cacheMode = false ∨ expireAllowed = false then ⟨slots, 0, 0, [], []⟩
  else (slotLoop lay sp locked recordKeys goal startSeg sp.numSlots ⟨slots, 0, r, [], []⟩).1

/-! ## Lemmas -/

/-- What the scan may have done to the slots `slots0` it started from: a slot that changed is now
empty, is in `removed`, and held an entry that was not sticky, was allocated and was not locked;
`removed` has one position per evicted item. -/
structure Good (slots0 : Pos → Option Entry) (st : ScanState) : Prop where
  changed : ∀ p, st.slots p ≠ slots0 p → st.slots p = none ∧ p ∈ st.removed ∧
    ∃ e, slots0 p = some e ∧ e.sticky = false ∧ e.allocated = true ∧ locked e.key = false
  count : st.removed.length = st.items

/-- `Good`, and, when `max_eviction_per_heartbeat` is at least 1, at most that many items, fewer
while the scan goes on. -/
def Ok (slots0 : Pos → Option Entry) (st : ScanState) (fin : Bool) : Prop :=
  Good locked slots0 st ∧
    (1 ≤ sp.maxEvictionPerHb → st.items ≤ sp.maxEvictionPerHb ∧ (fin = false → st.items < sp.maxEvictionPerHb))

variable {sp locked} {slots0 : Pos → Option Entry}

theorem visit_ok (slot seg b : Nat) {st : ScanState} (h : Ok sp locked slots0 st false) :
    Ok sp locked slots0 (visit lay sp locked recordKeys goal slot seg b st).1
      (visit lay sp locked recordKeys goal slot seg b st).2.2 := by
  obtain ⟨hg, hb⟩ := h
  simp only [visit]
  split
  · exact ⟨hg, hb⟩
  next e he =>
  by_cases h1 : e.sticky = true ∨ e.allocated = false
  · rw [if_pos h1]; exact ⟨hg, hb⟩
  rw [if_neg h1]
  by_cases h2 : locked e.key = true
  · rw [if_pos h2]; exact ⟨hg, hb⟩
  rw [if_neg h2]
  simp only [not_or, Bool.not_eq_true] at h1 h2
  refine ⟨⟨fun p hp => ?_, by simp [hg.count]⟩, fun hm => ⟨?_, fun hf => ?_⟩⟩
  · by_cases hpe : p = (seg, clamp lay seg b, slot)
    · subst hpe
      have h0 : st.slots (seg, clamp lay seg b, slot) = slots0 (seg, clamp lay seg b, slot) := by
        by_contra hne; rw [(hg.changed _ hne).1] at he; cases he
      exact ⟨Function.update_same _ _ _, List.mem_append_right _ (List.mem_singleton_self _),
        e, h0 ▸ he, h1.1, by simpa using h1.2, h2⟩
    · simp only [Function.update_noteq hpe] at hp ⊢
      obtain ⟨h3, h4, h5⟩ := hg.changed p hp
      exact ⟨h3, List.mem_append_left _ h4, h5⟩
  · have := (hb hm).2 rfl
    dsimp only; omega
  · have := (hb hm).2 rfl
    simp only [decide_eq_false_iff_not, not_or] at hf
    dsimp only; omega

theorem segLoop_ok (slot : Nat) :
    ∀ n seg b st, Ok sp locked slots0 st false →
      Ok sp locked slots0 (segLoop lay sp locked recordKeys goal slot n seg b st).1
        (segLoop lay sp locked recordKeys goal slot n seg b st).2.2
  | 0, _, _, _, h => h
  | n + 1, seg, b, st, h => by
    have hv := visit_ok lay recordKeys goal slot seg b h
    unfold segLoop
    generalize visit lay sp locked recordKeys goal slot seg b st = r at hv
    obtain ⟨st', b', _ | _⟩ := r
    · exact segLoop_ok slot n _ b' st' hv
    · exact hv

theorem bucketLoop_ok (slot startSeg b : Nat) :
    ∀ st, Ok sp locked slots0 st false →
      Ok sp locked slots0 (bucketLoop lay sp locked recordKeys goal slot startSeg b st).1
        (bucketLoop lay sp locked recordKeys goal slot startSeg b st).2 := by
  induction b using Nat.strong_induction_on with
  | _ b ih =>
    intro st h
    have hs := segLoop_ok lay recordKeys goal slot sp.maxSegmentToConsider startSeg b st h
    have hle := segLoop_le lay sp locked recordKeys goal slot sp.maxSegmentToConsider startSeg b st
    rw [bucketLoop]
    split_ifs with h1 h2
    · simpa [h1] using hs
    · simpa [h1] using hs
    · exact ih _ (by omega) _ (by simpa [h1] using hs)

theorem slotLoop_ok (startSeg : Nat) :
    ∀ n st, Ok sp locked slots0 st false →
      Ok sp locked slots0 (slotLoop lay sp locked recordKeys goal startSeg n st).1
        (slotLoop lay sp locked recordKeys goal startSeg n st).2
  | 0, _, h => h
  | n + 1, st, h => by
    have hb := bucketLoop_ok lay recordKeys goal n startSeg sp.largestBucketId st h
    unfold slotLoop
    generalize bucketLoop lay sp locked recordKeys goal n startSeg sp.largestBucketId st = r at hb
    obtain ⟨st', _ | _⟩ := r
    · exact slotLoop_ok startSeg n st' hb
    · exact hb

theorem freeMem_ok (cacheMode expireAllowed : Bool) (reclaimed : Option Nat)
    (slots : Pos → Option Entry) (startSeg : Nat) :
    Ok sp locked slots (freeMemWithEvictionStepAtomic lay sp locked recordKeys goal cacheMode
      expireAllowed reclaimed slots startSeg) true := by
  have h0 : ∀ r, Ok sp locked slots ⟨slots, 0, r, [], []⟩ false := fun _ =>
    ⟨⟨fun _ hp => absurd rfl hp, rfl⟩, fun hm => ⟨Nat.zero_le _, fun _ => hm⟩⟩
  unfold freeMemWithEvictionStepAtomic
  dsimp only
  split_ifs
  · exact ⟨(h0 _).1, fun hm => ⟨Nat.zero_le _, nofun⟩⟩
  · exact ⟨(h0 _).1, fun hm => ⟨Nat.zero_le _, nofun⟩⟩
  · have := slotLoop_ok lay recordKeys goal startSeg sp.numSlots _ (h0 (reclaimed.getD 0))
    exact ⟨this.1, fun hm => ⟨(this.2 hm).1, nofun⟩⟩

end Scan

/-- `PrimeTable::ShiftRight` of a bucket: every slot moves one to the right, the first is free. -/
def shiftRight (bucket : List (Option Entry)) : List (Option Entry) := none :: bucket.dropLast

/-- `PrimeEvictionPolicy::Evict` on the stash bucket it picks: nothing unless `can_evict_` and the
journal would not block; a sticky or locked entry in the last slot is kept; otherwise that entry
(if any) is deleted and the bucket shifted. Returns the bucket, the entry deleted, and the count
returned. -/
def evict (canEvict willBlock : Bool) (locked : String → Bool) (bucket : List (Option Entry)) :
    List (Option Entry) × Option Entry × Nat :=
  if canEvict = false ∨ willBlock then (bucket, none, 0)
  else
    match bucket.getLast? with
    | some (some e) =>
      if e.sticky then (bucket, none, 0)
      else if locked e.key then (bucket, none, 0)
      else (shiftRight bucket, some e, 1)
    | _ => (shiftRight bucket, none, 1)

theorem filterMap_shiftRight (bucket : List (Option Entry)) :
    (shiftRight bucket).filterMap id = bucket.dropLast.filterMap id := by
  simp [shiftRight]

theorem filterMap_of_getLast {bucket : List (Option Entry)} {x : Option Entry}
    (h : bucket.getLast? = some x) : bucket.filterMap id = bucket.dropLast.filterMap id ++ x.toList := by
  conv_lhs => rw [← List.dropLast_append_getLast? x h]
  cases x <;> simp

/-- `Evict` removes at most the entry it returns, and returns one only when it may evict and the
entry is neither sticky nor locked. -/
theorem evict_spec (canEvict willBlock : Bool) (locked : String → Bool)
    (bucket : List (Option Entry)) :
    bucket.filterMap id = (evict canEvict willBlock locked bucket).1.filterMap id ++
        (evict canEvict willBlock locked bucket).2.1.toList ∧
      ∀ e, (evict canEvict willBlock locked bucket).2.1 = some e →
        canEvict = true ∧ e.sticky = false ∧ locked e.key = false := by
  unfold evict
  split_ifs with h0
  · simp
  · simp only [not_or, Bool.not_eq_true] at h0
    split
    · next e hl =>
      split_ifs with h1 h2
      · simp
      · simp
      · refine ⟨by rw [filterMap_shiftRight, filterMap_of_getLast hl], ?_⟩
        rintro _ ⟨⟩
        simp_all
    · next hl =>
      refine ⟨?_, nofun⟩
      rw [filterMap_shiftRight]
      cases h : bucket.getLast? with
      | none => simp [List.getLast?_eq_none_iff.1 h]
      | some x =>
        rw [filterMap_of_getLast h]
        cases x with
        | none => rfl
        | some e => exact absurd h (hl e)

/-- The heartbeat scan changes nothing outside cache mode or when expiry is off. -/
theorem freeMem_unchanged (lay : Layout) (sp : ScanParams) (locked : String → Bool)
    (recordKeys : Bool) (goal : Nat) {cacheMode expireAllowed : Bool}
    (h : cacheMode = false ∨ expireAllowed = false) (reclaimed : Option Nat)
    (slots : Pos → Option Entry) (startSeg : Nat) :
    (freeMemWithEvictionStepAtomic lay sp locked recordKeys goal cacheMode expireAllowed reclaimed
      slots startSeg).slots = slots := by
  unfold freeMemWithEvictionStepAtomic
  dsimp only
  split_ifs <;> rfl

/-! ## Main theorem -/

/-- No eviction deletes a sticky or locked key. `Evict` deletes at most the one entry it returns,
only when `can_evict_`. The heartbeat scan deletes nothing outside cache mode or with expiry off;
every slot it changes it empties, and held an entry that was not sticky, was allocated and was not
locked; with `max_eviction_per_heartbeat` at least 1 it empties at most that many slots. -/
theorem evictions_safe :
    (∀ (canEvict willBlock : Bool) (locked : String → Bool) (bucket : List (Option Entry)),
      bucket.filterMap id = (evict canEvict willBlock locked bucket).1.filterMap id ++
          (evict canEvict willBlock locked bucket).2.1.toList ∧
        ∀ e, (evict canEvict willBlock locked bucket).2.1 = some e →
          canEvict = true ∧ e.sticky = false ∧ locked e.key = false) ∧
    (∀ (lay : Layout) (sp : ScanParams) (locked : String → Bool) (recordKeys : Bool) (goal : Nat)
      (cacheMode expireAllowed : Bool) (reclaimed : Option Nat) (slots : Pos → Option Entry)
      (startSeg : Nat),
      let st := freeMemWithEvictionStepAtomic lay sp locked recordKeys goal cacheMode expireAllowed
        reclaimed slots startSeg
      ((cacheMode = false ∨ expireAllowed = false) → st.slots = slots) ∧
      (∀ p, st.slots p ≠ slots p → st.slots p = none ∧ p ∈ st.removed ∧
        ∃ e, slots p = some e ∧ e.sticky = false ∧ e.allocated = true ∧ locked e.key = false) ∧
      (1 ≤ sp.maxEvictionPerHb → st.removed.length ≤ sp.maxEvictionPerHb)) :=
  ⟨evict_spec, fun lay sp locked recordKeys goal cacheMode expireAllowed reclaimed slots startSeg =>
    have h := freeMem_ok lay recordKeys goal cacheMode expireAllowed reclaimed slots startSeg
    ⟨fun hc => freeMem_unchanged lay sp locked recordKeys goal hc reclaimed slots startSeg,
      h.1.changed, fun hm => h.1.count ▸ (h.2 hm).1⟩⟩

end Dragonfly.Eviction
