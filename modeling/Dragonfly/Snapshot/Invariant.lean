import Dragonfly.Snapshot.Table
import Mathlib.Logic.Relation

/-!
# The invariant of the version protocol

`ShardInv` is what holds in every reachable state:

* versions: every bucket version and every callback version is below `next_version_`, and
  `change_cb_` is strictly increasing by version (the part `DbSlice` promises with DCHECKs);
* the table holds each key once, and every ghost stamp is below the stamp counter;
* `SnapInv` for every registered snapshot `v`. An entry is *pending* for `v` when its bucket is
  still older than `v`. Pending entries are image entries not yet written; every image entry is
  written, lost, or pending; the output is duplicate-free and inside the image; lost entries are
  gone from the table; the buckets behind the cursor are at `v` or newer.

Callbacks act on the state through two `Effect`s only: a snapshot serializes a bucket that every
older snapshot has already written (`OlderDone`), or an entry is deleted without a callback. Both
keep `ShardInv` (`Effect.inv`).
-/

namespace Dragonfly.Snapshot

namespace DbSlice

variable (s : DbSlice)

/-- `e` sits in some bucket of the table. -/
def InTable (e : Entry) : Prop := ∃ b < s.size, e ∈ (s.buckets b).entries

/-- Every registered snapshot older than `v` has written bucket `b`. -/
def OlderDone (v b : Nat) : Prop := ∀ w, s.IsSnapshot w → w < v → w ≤ (s.buckets b).version

/-- Every registered snapshot has written bucket `b`. -/
def Written (b : Nat) : Prop := ∀ w, s.IsSnapshot w → w ≤ (s.buckets b).version

/-- A key sits in at most one slot. -/
structure KeysUnique : Prop where
  bucket : ∀ b < s.size, ((s.buckets b).entries.map Entry.key).Nodup
  across : ∀ b < s.size, ∀ b' < s.size, b ≠ b' →
    ∀ e ∈ (s.buckets b).entries, ∀ e' ∈ (s.buckets b').entries, e.key ≠ e'.key

/-- The invariant of the snapshot registered at `v` (see the module doc). -/
structure SnapInv (v : Nat) : Prop where
  pending : ∀ e, s.Pending v e → e ∈ (s.passes v).image ∧ e ∉ (s.passes v).out
  cover : ∀ e ∈ (s.passes v).image,
    e ∈ (s.passes v).out ∨ e ∈ (s.passes v).lost ∨ s.Pending v e
  out_image : ∀ e ∈ (s.passes v).out, e ∈ (s.passes v).image
  out_nodup : (s.passes v).out.Nodup
  lost : ∀ e ∈ (s.passes v).lost, ¬ s.InTable e ∧ e ∉ (s.passes v).out ∧ e ∈ (s.passes v).image
  image_uid : ∀ e ∈ (s.passes v).image, e.uid < s.nextUid
  image_keys : ((s.passes v).image.map Entry.key).Nodup
  visited : ∀ b < (s.passes v).cursor, v ≤ (s.buckets b).version
  cursor_le : (s.passes v).cursor ≤ s.size

/-- The invariant of every reachable state. -/
structure ShardInv : Prop where
  version_lt : ∀ b < s.size, (s.buckets b).version < s.nextVersion
  cb_lt : ∀ l ∈ s.changeCb, l.1 < s.nextVersion
  sorted : s.changeCb.Pairwise fun l l' => l.1 < l'.1
  keys : s.KeysUnique
  uid_lt : ∀ e, s.InTable e → e.uid < s.nextUid
  snap : ∀ v, s.IsSnapshot v → s.SnapInv v

/-- What a callback may do to the state. -/
inductive Effect : DbSlice → DbSlice → Prop
  | serialize {s : DbSlice} {v b : Nat} : s.IsSnapshot v → b < s.size →
      (s.buckets b).version < v → s.OlderDone v b → Effect s (s.serializeBucket v b)
  | delete {s : DbSlice} {b : Nat} {e : Entry} : b < s.size → e ∈ (s.buckets b).entries →
      Effect s (s.performDeletion b e)

/-- Runs of effects. -/
abbrev Effects : DbSlice → DbSlice → Prop := Relation.ReflTransGen Effect

/-! ## Lemmas -/

section Access
variable {s} (v b b' w : Nat) (e : Entry)

@[simp] theorem serializeBucket_size : (s.serializeBucket v b).size = s.size := rfl
@[simp] theorem serializeBucket_changeCb : (s.serializeBucket v b).changeCb = s.changeCb := rfl
@[simp] theorem serializeBucket_nextVersion :
    (s.serializeBucket v b).nextVersion = s.nextVersion := rfl
@[simp] theorem serializeBucket_nextUid : (s.serializeBucket v b).nextUid = s.nextUid := rfl
@[simp] theorem serializeBucket_entries :
    ((s.serializeBucket v b).buckets b').entries = (s.buckets b').entries := by
  by_cases h : b' = b <;> simp [serializeBucket, Function.update_apply, h]
theorem serializeBucket_version : ((s.serializeBucket v b).buckets b').version =
    if b' = b then v else (s.buckets b').version := by
  by_cases h : b' = b <;> simp [serializeBucket, Function.update_apply, h]
theorem serializeBucket_passes : (s.serializeBucket v b).passes w =
    if w = v then { s.passes v with out := (s.passes v).out ++ (s.buckets b).entries }
    else s.passes w := by
  by_cases h : w = v <;> simp [serializeBucket, Function.update_apply, h]

@[simp] theorem performDeletion_size : (s.performDeletion b e).size = s.size := rfl
@[simp] theorem performDeletion_changeCb : (s.performDeletion b e).changeCb = s.changeCb := rfl
@[simp] theorem performDeletion_nextVersion :
    (s.performDeletion b e).nextVersion = s.nextVersion := rfl
@[simp] theorem performDeletion_nextUid : (s.performDeletion b e).nextUid = s.nextUid := rfl
@[simp] theorem performDeletion_version :
    ((s.performDeletion b e).buckets b').version = (s.buckets b').version := by
  by_cases h : b' = b <;> simp [performDeletion, Function.update_apply, h]
theorem performDeletion_entries : ((s.performDeletion b e).buckets b').entries =
    if b' = b then (s.buckets b).entries.erase e else (s.buckets b').entries := by
  by_cases h : b' = b <;> simp [performDeletion, Function.update_apply, h]
@[simp] theorem performDeletion_passes :
    (s.performDeletion b e).passes w = (s.passes w).noteLoss e := rfl

@[simp] theorem noteLoss_out (p : Pass) : (p.noteLoss e).out = p.out := by
  unfold Pass.noteLoss; split <;> rfl
@[simp] theorem noteLoss_image (p : Pass) : (p.noteLoss e).image = p.image := by
  unfold Pass.noteLoss; split <;> rfl
@[simp] theorem noteLoss_cursor (p : Pass) : (p.noteLoss e).cursor = p.cursor := by
  unfold Pass.noteLoss; split <;> rfl
theorem mem_noteLoss_lost (p : Pass) (x : Entry) :
    x ∈ (p.noteLoss e).lost ↔ x ∈ p.lost ∨ (x = e ∧ e ∈ p.image ∧ e ∉ p.out) := by
  unfold Pass.noteLoss; split <;> simp_all

end Access

theorem mem_entries {e : Entry} : e ∈ s.entries ↔ s.InTable e := by
  simp [entries, InTable, List.mem_flatMap]

section Keys
variable {s}

theorem KeysUnique.nodup (hk : s.KeysUnique) {b : Nat} (hb : b < s.size) :
    (s.buckets b).entries.Nodup :=
  (hk.bucket b hb).of_map _

theorem KeysUnique.eq_of_mem (hk : s.KeysUnique) {b b' : Nat} (hb : b < s.size) (hb' : b' < s.size)
    {e : Entry} (he : e ∈ (s.buckets b).entries) (he' : e ∈ (s.buckets b').entries) : b = b' :=
  Classical.byContradiction fun hne => hk.across b hb b' hb' hne e he e he' rfl

/-- Key uniqueness only reads the bucket contents. -/
theorem KeysUnique.congr {t : DbSlice} (hk : s.KeysUnique) (hsize : t.size = s.size)
    (hent : ∀ b, (t.buckets b).entries = (s.buckets b).entries) : t.KeysUnique where
  bucket b hb := by rw [hent]; exact hk.bucket b (hsize ▸ hb)
  across b hb b' hb' hne := by rw [hent, hent]; exact hk.across b (hsize ▸ hb) b' (hsize ▸ hb') hne

end Keys

section Serialize
variable {s} {v b : Nat}

theorem pending_serializeBucket {w : Nat} {e : Entry} :
    (s.serializeBucket v b).Pending w e ↔
      ∃ b' < s.size, (if b' = b then v else (s.buckets b').version) < w ∧
        e ∈ (s.buckets b').entries := by
  simp [Pending, serializeBucket_version]

theorem version_le_serializeBucket (hlt : (s.buckets b).version < v) (b' : Nat) :
    (s.buckets b').version ≤ ((s.serializeBucket v b).buckets b').version := by
  rw [serializeBucket_version]
  split
  · subst_vars; omega
  · exact le_rfl

theorem inTable_serializeBucket {e : Entry} : (s.serializeBucket v b).InTable e ↔ s.InTable e := by
  simp [InTable]

/-- The serializing snapshot's own invariant. -/
theorem SnapInv.serialize_self (hs : s.ShardInv) (hi : s.SnapInv v) (hb : b < s.size)
    (hlt : (s.buckets b).version < v) : (s.serializeBucket v b).SnapInv v := by
  have hown : ∀ e ∈ (s.buckets b).entries, s.Pending v e := fun e he => ⟨b, hb, hlt, he⟩
  constructor
  · rintro e ⟨b', hb', hv', he'⟩
    rw [serializeBucket_version] at hv'
    split at hv'
    · omega
    obtain ⟨himg, hout⟩ := hi.pending e ⟨b', hb', hv', by simpa using he'⟩
    simp only [serializeBucket_passes, if_pos, List.mem_append, not_or]
    refine ⟨himg, hout, fun hb'' => ?_⟩
    exact ‹¬b' = b› (hs.keys.eq_of_mem hb' hb (by simpa using he') hb'')
  · intro e he
    simp only [serializeBucket_passes, if_pos] at he ⊢
    rcases hi.cover e he with h | h | ⟨b', hb', hv', he'⟩
    · exact .inl (List.mem_append_left _ h)
    · exact .inr (.inl h)
    · by_cases hbb : b' = b
      · subst hbb; exact .inl (List.mem_append_right _ he')
      · exact .inr (.inr (pending_serializeBucket.2 ⟨b', hb', by simpa [hbb] using hv', he'⟩))
  · intro e he
    simp only [serializeBucket_passes, if_pos, List.mem_append] at he ⊢
    exact he.elim (hi.out_image e) fun h => (hi.pending e (hown e h)).1
  · simp only [serializeBucket_passes, if_pos]
    exact List.nodup_append.2 ⟨hi.out_nodup, hs.keys.nodup hb,
      fun e h1 h2 => (hi.pending e (hown e h2)).2 h1⟩
  · intro e he
    simp only [serializeBucket_passes, if_pos, List.mem_append, not_or,
      inTable_serializeBucket] at he ⊢
    obtain ⟨hnot, hout, himg⟩ := hi.lost e he
    exact ⟨hnot, ⟨hout, fun h => hnot ⟨b, hb, h⟩⟩, himg⟩
  · simpa [serializeBucket_passes] using hi.image_uid
  · simpa [serializeBucket_passes] using hi.image_keys
  · intro b' hb'
    simp only [serializeBucket_passes, if_pos] at hb'
    have := hi.visited b' hb'
    rw [serializeBucket_version]; split <;> omega
  · simpa [serializeBucket_passes] using hi.cursor_le

/-- A snapshot's invariant survives raising bucket versions, as long as every bucket still pending
for it stays pending and nothing else it reads changes. -/
theorem SnapInv.raise {t : DbSlice} {w : Nat} (hi : s.SnapInv w) (hsize : t.size = s.size)
    (hent : ∀ b, (t.buckets b).entries = (s.buckets b).entries) (hp : t.passes w = s.passes w)
    (hu : s.nextUid ≤ t.nextUid) (hup : ∀ b, (s.buckets b).version ≤ (t.buckets b).version)
    (hpend : ∀ b, (s.buckets b).version < w → (t.buckets b).version < w) : t.SnapInv w := by
  have hP : ∀ e, t.Pending w e ↔ s.Pending w e := fun e =>
    ⟨fun ⟨b, hb, hv, he⟩ => ⟨b, hsize ▸ hb, (hup b).trans_lt hv, hent b ▸ he⟩,
      fun ⟨b, hb, hv, he⟩ => ⟨b, hsize ▸ hb, hpend b hv, (hent b).symm ▸ he⟩⟩
  have hT : ∀ e, t.InTable e ↔ s.InTable e := fun e =>
    ⟨fun ⟨b, hb, he⟩ => ⟨b, hsize ▸ hb, hent b ▸ he⟩,
      fun ⟨b, hb, he⟩ => ⟨b, hsize ▸ hb, (hent b).symm ▸ he⟩⟩
  obtain ⟨h1, h2, h3, h4, h5, h6, h7, h8, h9⟩ := hi
  refine ⟨fun e he => ?_, fun e he => ?_, ?_, ?_, fun e he => ?_, fun e he => ?_, ?_,
    fun b hb => ?_, ?_⟩ <;> rw [hp] at * <;> simp only [hP, hT] at *
  · exact h1 e he
  · exact h2 e he
  · exact h3
  · exact h4
  · exact h5 e he
  · exact (h6 e he).trans_le hu
  · exact h7
  · exact (h8 b hb).trans (hup b)
  · exact hsize ▸ h9

/-- Another snapshot's invariant: the bucket was already written by every older snapshot, and
for a newer one it stays pending. -/
theorem SnapInv.serialize_other {w : Nat} (hi : s.SnapInv w) (hw : s.IsSnapshot w) (hwv : w ≠ v)
    (hlt : (s.buckets b).version < v) (hold : s.OlderDone v b) :
    (s.serializeBucket v b).SnapInv w := by
  refine hi.raise rfl (fun _ => serializeBucket_entries ..) (by simp [serializeBucket_passes, hwv])
    le_rfl (version_le_serializeBucket hlt) fun b' hb' => ?_
  rw [serializeBucket_version]
  split
  · subst_vars
    rcases Nat.lt_or_gt_of_ne hwv with h | h
    · exact absurd (hold w hw h) (by omega)
    · exact h
  · exact hb'

theorem ShardInv.serialize (hs : s.ShardInv) (hv : s.IsSnapshot v) (hb : b < s.size)
    (hlt : (s.buckets b).version < v) (hold : s.OlderDone v b) : (s.serializeBucket v b).ShardInv where
  version_lt b' hb' := by
    obtain ⟨l, hl, rfl, -⟩ := hv
    rw [serializeBucket_version]
    split
    · exact hs.cb_lt l hl
    · exact hs.version_lt b' hb'
  cb_lt := hs.cb_lt
  sorted := hs.sorted
  keys := hs.keys.congr rfl fun _ => serializeBucket_entries ..
  uid_lt e he := hs.uid_lt e (inTable_serializeBucket.1 he)
  snap w hw := by
    by_cases hwv : w = v
    · subst hwv; exact (hs.snap w hw).serialize_self hs hb hlt
    · exact (hs.snap w hw).serialize_other hw hwv hlt hold

end Serialize

section Delete
variable {s} {b : Nat} {e0 : Entry}

theorem performDeletion_sublist (b' : Nat) :
    ((s.performDeletion b e0).buckets b').entries.Sublist (s.buckets b').entries := by
  rw [performDeletion_entries]
  split
  · subst_vars; exact List.erase_sublist _ _
  · exact List.Sublist.refl _

theorem inTable_performDeletion {x : Entry} (h : (s.performDeletion b e0).InTable x) :
    s.InTable x :=
  let ⟨b', hb', hx⟩ := h
  ⟨b', hb', (performDeletion_sublist b').subset hx⟩

theorem pending_performDeletion {w : Nat} {x : Entry} (h : (s.performDeletion b e0).Pending w x) :
    s.Pending w x :=
  let ⟨b', hb', hv, hx⟩ := h
  ⟨b', hb', by simpa using hv, (performDeletion_sublist b').subset hx⟩

theorem KeysUnique.performDeletion (hk : s.KeysUnique) : (s.performDeletion b e0).KeysUnique where
  bucket b' hb' := ((performDeletion_sublist b').map _).nodup (hk.bucket b' hb')
  across b1 hb1 b2 hb2 hne x hx y hy :=
    hk.across b1 hb1 b2 hb2 hne x ((performDeletion_sublist b1).subset hx) y
      ((performDeletion_sublist b2).subset hy)

theorem not_inTable_performDeletion (hk : s.KeysUnique) (hb : b < s.size)
    (he : e0 ∈ (s.buckets b).entries) : ¬ (s.performDeletion b e0).InTable e0 := by
  rintro ⟨b', hb', hx⟩
  rw [performDeletion_entries] at hx
  split at hx
  · subst_vars; exact (hk.nodup hb).not_mem_erase hx
  · exact ‹¬b' = b› (hk.eq_of_mem hb' hb hx he)

theorem SnapInv.delete {w : Nat} (hs : s.ShardInv) (hi : s.SnapInv w) (hb : b < s.size)
    (he : e0 ∈ (s.buckets b).entries) : (s.performDeletion b e0).SnapInv w := by
  constructor
  · intro x hx; simpa using hi.pending x (pending_performDeletion hx)
  · intro x hx
    simp only [performDeletion_passes, noteLoss_image, noteLoss_out, mem_noteLoss_lost] at hx ⊢
    rcases hi.cover x hx with h | h | ⟨b', hb', hv', hx'⟩
    · exact .inl h
    · exact .inr (.inl (.inl h))
    · by_cases hxe : b' = b ∧ x = e0
      · obtain ⟨rfl, rfl⟩ := hxe
        exact .inr (.inl (.inr ⟨rfl, hi.pending x ⟨b', hb', hv', hx'⟩⟩))
      · refine .inr (.inr ⟨b', hb', by simpa using hv', ?_⟩)
        rw [performDeletion_entries]
        split
        · subst_vars; exact (List.mem_erase_of_ne fun h => hxe ⟨rfl, h⟩).2 hx'
        · exact hx'
  · simpa using hi.out_image
  · simpa using hi.out_nodup
  · intro x hx
    simp only [performDeletion_passes, noteLoss_image, noteLoss_out, mem_noteLoss_lost] at hx ⊢
    rcases hx with hx | ⟨rfl, himg, hout⟩
    · obtain ⟨h1, h2, h3⟩ := hi.lost x hx
      exact ⟨fun h => h1 (inTable_performDeletion h), h2, h3⟩
    · exact ⟨not_inTable_performDeletion hs.keys hb he, hout, himg⟩
  · simpa using hi.image_uid
  · simpa using hi.image_keys
  · simpa using hi.visited
  · simpa using hi.cursor_le

theorem ShardInv.delete (hs : s.ShardInv) (hb : b < s.size) (he : e0 ∈ (s.buckets b).entries) :
    (s.performDeletion b e0).ShardInv where
  version_lt b' hb' := by simpa using hs.version_lt b' hb'
  cb_lt := hs.cb_lt
  sorted := hs.sorted
  keys := hs.keys.performDeletion
  uid_lt x hx := hs.uid_lt x (inTable_performDeletion hx)
  snap w hw := (hs.snap w hw).delete hs hb he

end Delete

section Runs
variable {s}

/-- Both effects keep the invariant. -/
theorem Effect.inv {t : DbSlice} (h : Effect s t) (hs : s.ShardInv) : t.ShardInv := by
  cases h with
  | serialize hv hb hlt hold => exact hs.serialize hv hb hlt hold
  | delete hb he => exact hs.delete hb he

theorem Effects.inv {t : DbSlice} (h : Effects s t) (hs : s.ShardInv) : t.ShardInv := by
  induction h with
  | refl => exact hs
  | tail _ h ih => exact h.inv ih

/-- What no effect changes: the table size, the callbacks, the counters and the cursors; bucket
versions only grow. -/
structure Frame (t : DbSlice) : Prop where
  size : t.size = s.size
  changeCb : t.changeCb = s.changeCb
  nextVersion : t.nextVersion = s.nextVersion
  nextUid : t.nextUid = s.nextUid
  cursor : ∀ w, (t.passes w).cursor = (s.passes w).cursor
  version : ∀ b, (s.buckets b).version ≤ (t.buckets b).version

theorem Frame.refl : s.Frame s := ⟨rfl, rfl, rfl, rfl, fun _ => rfl, fun _ => le_rfl⟩

theorem Frame.trans {t u : DbSlice} (h : s.Frame t) (h' : t.Frame u) : s.Frame u :=
  ⟨h'.size.trans h.size, h'.changeCb.trans h.changeCb, h'.nextVersion.trans h.nextVersion,
    h'.nextUid.trans h.nextUid, fun w => (h'.cursor w).trans (h.cursor w),
    fun b => (h.version b).trans (h'.version b)⟩

theorem Effect.frame {t : DbSlice} (h : Effect s t) : s.Frame t := by
  cases h with
  | serialize _ _ hlt =>
    refine ⟨rfl, rfl, rfl, rfl, fun w => ?_, version_le_serializeBucket hlt⟩
    rw [serializeBucket_passes]; split <;> simp_all
  | delete => exact ⟨rfl, rfl, rfl, rfl, fun _ => by simp, fun _ => by simp⟩

theorem Effects.frame {t : DbSlice} (h : Effects s t) : s.Frame t := by
  induction h with
  | refl => exact Frame.refl
  | tail _ h ih => exact ih.trans h.frame

theorem Frame.isSnapshot {t : DbSlice} (h : s.Frame t) {w : Nat} : t.IsSnapshot w ↔ s.IsSnapshot w := by
  simp [IsSnapshot, h.changeCb]

end Runs

end DbSlice

end Dragonfly.Snapshot
