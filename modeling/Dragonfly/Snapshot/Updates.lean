import Dragonfly.Snapshot.Callbacks
import Mathlib.Data.List.Pairwise

/-!
# The invariant under writes, version bumps, registration and traversal

What a mutation does once its callbacks have run keeps `ShardInv`: rewriting buckets that every
registered snapshot has written (`ShardInv.rewrite`), giving a written bucket `NextVersion()`
(`ShardInv.setNextVersion`), registering and unregistering a callback (`ShardInv.register`,
`ShardInv.unregister`), and moving a cursor past a bucket its snapshot has written
(`ShardInv.advance`).
-/

namespace Dragonfly.Snapshot.DbSlice

variable {s : DbSlice}

/-- `SnapInv` reads only the table, the pass and the stamp counter. -/
theorem SnapInv.congr {t : DbSlice} {v : Nat} (h : s.SnapInv v) (hsize : t.size = s.size)
    (hb : t.buckets = s.buckets) (hp : t.passes v = s.passes v) (hu : t.nextUid = s.nextUid) :
    t.SnapInv v :=
  h.raise hsize (by simp [hb]) hp hu.ge (by simp [hb]) (by simp [hb])

/-- The keys held by distinct buckets of the table are distinct. -/
theorem KeysUnique.touched_keys (hk : s.KeysUnique) {T : List Nat} (hT : ∀ b ∈ T, b < s.size)
    (hnd : T.Nodup) : ((T.flatMap fun b => (s.buckets b).entries).map Entry.key).Nodup := by
  rw [List.map_flatMap, List.nodup_flatMap]
  refine ⟨fun b hb => hk.bucket b (hT b hb), hnd.pairwise_of_forall_ne
    fun b hb b' hb' hne x hx hx' => ?_⟩
  obtain ⟨e, he, rfl⟩ := List.mem_map.1 hx
  obtain ⟨e', he', hkey⟩ := List.mem_map.1 hx'
  exact hk.across b (hT b hb) b' (hT b' hb') hne e he e' he' hkey.symm

theorem KeysUnique.entries_keys (hk : s.KeysUnique) : (s.entries.map Entry.key).Nodup :=
  hk.touched_keys (fun _ hb => List.mem_range.1 hb) (List.nodup_range _)

/-- Two callbacks of a list sorted by version with the same version are the same. -/
theorem eq_of_version_eq {L : List (Nat × Listener)} (hsort : L.Pairwise fun l l' => l.1 < l'.1)
    {l l' : Nat × Listener} (hl : l ∈ L) (hl' : l' ∈ L) (h : l.1 = l'.1) : l = l' := by
  induction L with
  | nil => simp at hl
  | cons a L ih =>
    obtain ⟨ha, hL⟩ := List.pairwise_cons.1 hsort
    rcases List.mem_cons.1 hl with rfl | hlL <;> rcases List.mem_cons.1 hl' with rfl | hlL'
    · rfl
    · exact absurd h (ha l' hlL').ne
    · exact absurd h (ha l hlL).ne'
    · exact ih hL hlL hlL'

/-- The version of a registered slot flush is not a snapshot's. -/
theorem ShardInv.not_isSnapshot (hs : s.ShardInv) {f : Nat} {fl : String → Bool}
    (hf : (f, .flushSlots fl) ∈ s.changeCb) : ¬ s.IsSnapshot f := fun ⟨l, hl, hlf, hsnap⟩ => by
  rw [eq_of_version_eq hs.sorted hl hf hlf] at hsnap
  exact Bool.false_ne_true hsnap

/-! ## Rewriting written buckets -/

section Rewrite
variable {T : List Nat} {nc : Nat → List Entry} {n : Nat}

theorem rewrite_entries (b : Nat) :
    ((s.rewrite T nc).buckets b).entries = if b ∈ T then nc b else (s.buckets b).entries := by
  by_cases h : b ∈ T <;> simp [rewrite, h]

@[simp] theorem rewrite_version (b : Nat) :
    ((s.rewrite T nc).buckets b).version = (s.buckets b).version := by
  by_cases h : b ∈ T <;> simp [rewrite, h]

theorem subperm_map {α β : Type} (f : α → β) {l l' : List α} (h : l.Subperm l') :
    (l.map f).Subperm (l'.map f) :=
  let ⟨m, hp, hs⟩ := h; ⟨m.map f, hp.map f, hs.map f⟩

/-- A rewrite keeps keys unique when the keys it leaves in the touched buckets are some of the keys
they held plus keys `K` absent from the table. -/
theorem KeysUnique.rewrite (hk : s.KeysUnique) (hT : ∀ b ∈ T, b < s.size) (hnd : T.Nodup)
    {K : List String} (hK : K.Nodup) (hfresh : ∀ k ∈ K, k ∉ s.entries.map Entry.key)
    (hsub : ((T.flatMap nc).map Entry.key).Subperm
      ((T.flatMap fun b => (s.buckets b).entries).map Entry.key ++ K)) :
    (s.rewrite T nc).KeysUnique := by
  have hold : ∀ k ∈ (T.flatMap fun b => (s.buckets b).entries).map Entry.key,
      k ∈ s.entries.map Entry.key := by
    simp only [List.mem_map, List.mem_flatMap]
    rintro k ⟨e, ⟨b, hb, he⟩, rfl⟩
    exact ⟨e, s.mem_entries.2 ⟨b, hT b hb, he⟩, rfl⟩
  have hnew : ((T.flatMap nc).map Entry.key).Nodup := by
    obtain ⟨l, hp, hsl⟩ := hsub
    exact hp.nodup_iff.1 (hsl.nodup (List.nodup_append.2 ⟨hk.touched_keys hT hnd, hK,
      fun k hk1 hk2 => hfresh k hk2 (hold k hk1)⟩))
  rw [List.map_flatMap, List.nodup_flatMap] at hnew
  -- a key left in a touched bucket was held by a touched bucket, or is in `K`
  have hfrom : ∀ b ∈ T, ∀ e ∈ nc b,
      (∃ e', (∃ b' ∈ T, e' ∈ (s.buckets b').entries) ∧ e'.key = e.key) ∨ e.key ∈ K := by
    intro b hb e he
    have := hsub.subset (List.mem_map_of_mem Entry.key (List.mem_flatMap.2 ⟨b, hb, he⟩))
    simpa [List.mem_flatMap] using this
  have hcross : ∀ b ∈ T, ∀ b' < s.size, b' ∉ T → ∀ e ∈ nc b, ∀ e' ∈ (s.buckets b').entries,
      e.key ≠ e'.key := by
    intro b hb b' hb' hbT e he e' he' hkey
    rcases hfrom b hb e he with ⟨e'', ⟨b'', hb'', he''⟩, hk''⟩ | hK'
    · exact hk.across b'' (hT b'' hb'') b' hb' (fun h => hbT (h ▸ hb'')) e'' he'' e' he'
        (hk''.trans hkey)
    · exact hfresh _ hK' (hkey ▸ List.mem_map_of_mem _ (s.mem_entries.2 ⟨b', hb', he'⟩))
  constructor
  · intro b hb
    rw [rewrite_entries]
    split
    · exact hnew.1 b ‹_›
    · exact hk.bucket b hb
  · intro b hb b' hb' hne e he e' he'
    rw [rewrite_entries] at he he'
    split_ifs at he he' with hbT hbT' hbT'
    · exact fun h => hnew.2.forall (by intro _ _ h _ h1 h2; exact h h2 h1) hbT hbT' hne
        (List.mem_map_of_mem _ he) (h ▸ List.mem_map_of_mem _ he')
    · exact hcross b hbT b' hb' hbT' e he e' he'
    · exact (hcross b' hbT' b hb hbT e' he' e he).symm
    · exact hk.across b hb b' hb' hne e he e' he'

theorem Written.rewrite {b : Nat} (hW : s.Written b) : (s.rewrite T nc).Written b :=
  fun w hw => by simpa using hW w hw

/-- Rewriting buckets every snapshot has written keeps the invariant, when each entry left in them
is fresh (stamped in `[nextUid, n)`) or was already in one of them. -/
theorem ShardInv.rewrite (hs : s.ShardInv) (hT : ∀ b ∈ T, b < s.size)
    (hW : ∀ b ∈ T, s.Written b) (hn : s.nextUid ≤ n)
    (hplace : ∀ b ∈ T, ∀ e ∈ nc b, (s.nextUid ≤ e.uid ∧ e.uid < n) ∨
      ∃ b' ∈ T, e ∈ (s.buckets b').entries)
    (hkeys : (s.rewrite T nc).KeysUnique) : { s.rewrite T nc with nextUid := n }.ShardInv := by
  -- an entry of the new table is fresh or was in the old one
  have hsrc : ∀ e, (s.rewrite T nc).InTable e → (s.nextUid ≤ e.uid ∧ e.uid < n) ∨ s.InTable e := by
    rintro e ⟨b, hb, he⟩
    rw [rewrite_entries] at he
    split at he
    · exact (hplace b ‹_› e he).imp_right fun ⟨b', hb', he'⟩ => ⟨b', hT b' hb', he'⟩
    · exact .inr ⟨b, hb, he⟩
  -- a bucket some snapshot has not written is left alone
  have hpend : ∀ w e, s.IsSnapshot w → ((s.rewrite T nc).Pending w e ↔ s.Pending w e) := by
    intro w e hw
    refine exists_congr fun b => and_congr_right fun _ => ?_
    rw [rewrite_version]
    refine and_congr_right fun hv => ?_
    have hbT : b ∉ T := fun h => absurd (hW b h w hw) (by omega)
    rw [rewrite_entries, if_neg hbT]
  refine ⟨fun b hb => by simpa using hs.version_lt b hb, hs.cb_lt, hs.sorted,
    hkeys.congr rfl fun _ => rfl, fun e he => ?_, fun w hw => ?_⟩
  · rcases hsrc e he with h | h
    · exact h.2
    · exact (hs.uid_lt e h).trans_le hn
  have hi := hs.snap w hw
  exact
    { pending := fun e he => hi.pending e ((hpend w e hw).1 he)
      cover := fun e he => (hi.cover e he).imp_right (Or.imp_right (hpend w e hw).2)
      out_image := hi.out_image
      out_nodup := hi.out_nodup
      lost := fun e he => by
        obtain ⟨hnot, hrest⟩ := hi.lost e he
        refine ⟨fun h => ?_, hrest⟩
        rcases hsrc e h with h | h
        · exact absurd (hi.image_uid e hrest.2) (by omega)
        · exact hnot h
      image_uid := fun e he => (hi.image_uid e he).trans_le hn
      image_keys := hi.image_keys
      visited := fun b hb => by simpa using hi.visited b hb
      cursor_le := hi.cursor_le }

end Rewrite

/-! ## `NextVersion()` for a written bucket -/

section SetNextVersion
variable {b : Nat}

@[simp] theorem setNextVersion_size : (s.setNextVersion b).size = s.size := rfl
@[simp] theorem setNextVersion_changeCb : (s.setNextVersion b).changeCb = s.changeCb := rfl
@[simp] theorem setNextVersion_nextVersion :
    (s.setNextVersion b).nextVersion = s.nextVersion + 1 := rfl
@[simp] theorem setNextVersion_nextUid : (s.setNextVersion b).nextUid = s.nextUid := rfl
@[simp] theorem setNextVersion_passes : (s.setNextVersion b).passes = s.passes := rfl
@[simp] theorem setNextVersion_entries (b' : Nat) :
    ((s.setNextVersion b).buckets b').entries = (s.buckets b').entries := by
  by_cases h : b' = b <;> simp [setNextVersion, Function.update_apply, h]
theorem setNextVersion_version (b' : Nat) : ((s.setNextVersion b).buckets b').version =
    if b' = b then s.nextVersion else (s.buckets b').version := by
  by_cases h : b' = b <;> simp [setNextVersion, Function.update_apply, h]

theorem version_le_setNextVersion (hs : s.ShardInv) (hb : b < s.size) (b' : Nat) :
    (s.buckets b').version ≤ ((s.setNextVersion b).buckets b').version := by
  rw [setNextVersion_version]
  split
  · subst_vars; exact (hs.version_lt _ hb).le
  · exact le_rfl

/-- After `NextVersion()`, every registered snapshot has written the bucket. -/
theorem written_setNextVersion (hs : s.ShardInv) : (s.setNextVersion b).Written b :=
  fun w ⟨l, hl, hw, _⟩ => by rw [setNextVersion_version, if_pos rfl]; exact (hw ▸ hs.cb_lt l hl).le

/-- Bucket `b` takes a version newer than every callback; a snapshot that had not written it would
miss its entries, so every snapshot must have. -/
theorem ShardInv.setNextVersion (hs : s.ShardInv) (hb : b < s.size) (hW : s.Written b) :
    (s.setNextVersion b).ShardInv := by
  refine ⟨fun b' hb' => ?_, fun l hl => Nat.lt_succ_of_lt (hs.cb_lt l hl), hs.sorted,
    hs.keys.congr rfl setNextVersion_entries, fun e he => hs.uid_lt e ?_, fun w hw => ?_⟩
  · rw [setNextVersion_version]
    split
    · exact Nat.lt_succ_self _
    · exact Nat.lt_succ_of_lt (hs.version_lt b' hb')
  · obtain ⟨b', hb', he⟩ := he; exact ⟨b', hb', by simpa using he⟩
  · refine (hs.snap w hw).raise rfl setNextVersion_entries rfl le_rfl
      (version_le_setNextVersion hs hb) fun b' hb' => ?_
    rw [setNextVersion_version, if_neg]
    · exact hb'
    · rintro rfl; exact absurd (hW w hw) (by omega)

/-- A bucket every snapshot has written stays written when a bucket takes `NextVersion()`. -/
theorem Written.setNextVersion (hs : s.ShardInv) {b' : Nat} (hW : s.Written b') :
    (s.setNextVersion b).Written b' := by
  by_cases h : b' = b
  · subst h; exact written_setNextVersion hs
  · intro w hw; rw [setNextVersion_version, if_neg h]; exact hW w hw

end SetNextVersion

/-! ## `NextVersion()` for several buckets -/

section SetNextVersions
variable {bs : List Nat}

@[simp] theorem setNextVersions_nil : s.setNextVersions [] = s := rfl
@[simp] theorem setNextVersions_cons (b : Nat) :
    s.setNextVersions (b :: bs) = (s.setNextVersion b).setNextVersions bs := rfl

@[simp] theorem setNextVersions_size : (s.setNextVersions bs).size = s.size := by
  induction bs generalizing s <;> simp [*]
@[simp] theorem setNextVersions_changeCb : (s.setNextVersions bs).changeCb = s.changeCb := by
  induction bs generalizing s <;> simp [*]
@[simp] theorem setNextVersions_nextUid : (s.setNextVersions bs).nextUid = s.nextUid := by
  induction bs generalizing s <;> simp [*]
@[simp] theorem setNextVersions_passes : (s.setNextVersions bs).passes = s.passes := by
  induction bs generalizing s <;> simp [*]
@[simp] theorem setNextVersions_entries (b : Nat) :
    ((s.setNextVersions bs).buckets b).entries = (s.buckets b).entries := by
  induction bs generalizing s <;> simp [*]
@[simp] theorem setNextVersions_nextVersion :
    (s.setNextVersions bs).nextVersion = s.nextVersion + bs.length := by
  induction bs generalizing s <;> simp [*]; omega

theorem setNextVersions_version_of_not_mem {b : Nat} (hb : b ∉ bs) :
    ((s.setNextVersions bs).buckets b).version = (s.buckets b).version := by
  induction bs generalizing s with
  | nil => rfl
  | cons b' bs ih =>
    rw [List.mem_cons, not_or] at hb
    rw [setNextVersions_cons, ih hb.2, setNextVersion_version, if_neg hb.1]

/-- A bucket of `bs` ends at least at the `next_version_` the first bump found. -/
theorem le_setNextVersions_version {b : Nat} (hb : b ∈ bs) :
    s.nextVersion ≤ ((s.setNextVersions bs).buckets b).version := by
  induction bs generalizing s with
  | nil => simp at hb
  | cons b' bs ih =>
    rw [setNextVersions_cons]
    by_cases h : b ∈ bs
    · exact (Nat.le_succ _).trans (ih (s := s.setNextVersion b') h)
    · rw [setNextVersions_version_of_not_mem h, setNextVersion_version,
        if_pos ((List.mem_cons.1 hb).resolve_right h)]

end SetNextVersions

/-! ## Registration -/

section Register
variable {l : Listener}

theorem registerOnChange_passes (w : Nat) : (s.registerOnChange l).passes w =
    if w = s.nextVersion then ⟨0, [], s.entries, []⟩ else s.passes w := by
  by_cases h : w = s.nextVersion <;> simp [registerOnChange, Function.update_apply, h]

/-- A new snapshot's pass: nothing written yet, and every entry of the table is pending, since every
bucket is older than the new version. -/
theorem SnapInv.register (hs : s.ShardInv) : (s.registerOnChange l).SnapInv s.nextVersion := by
  have hp : (s.registerOnChange l).passes s.nextVersion = ⟨0, [], s.entries, []⟩ := by
    simp [registerOnChange_passes]
  constructor <;> simp only [hp]
  · rintro e ⟨b, hb, -, he⟩; exact ⟨s.mem_entries.2 ⟨b, hb, he⟩, List.not_mem_nil e⟩
  · intro e he
    obtain ⟨b, hb, he⟩ := s.mem_entries.1 he
    exact .inr (.inr ⟨b, hb, hs.version_lt b hb, he⟩)
  · exact nofun
  · exact List.nodup_nil
  · exact nofun
  · exact fun e he => hs.uid_lt e (s.mem_entries.1 he)
  · exact hs.keys.entries_keys
  · exact nofun
  · exact Nat.zero_le _

/-- `RegisterOnChange` keeps the invariant: the new version is the largest, and the older
snapshots' passes are untouched. -/
theorem ShardInv.register (hs : s.ShardInv) : (s.registerOnChange l).ShardInv := by
  refine ⟨fun b hb => Nat.lt_succ_of_lt (hs.version_lt b hb), fun l' hl' => ?_, ?_,
    hs.keys.congr rfl fun _ => rfl, hs.uid_lt, fun w ⟨l', hl', hw, hsnap⟩ => ?_⟩
  · rcases List.mem_append.1 hl' with hl' | hl'
    · exact Nat.lt_succ_of_lt (hs.cb_lt l' hl')
    · rw [List.mem_singleton.1 hl']; exact Nat.lt_succ_self _
  · exact List.pairwise_append.2 ⟨hs.sorted, List.pairwise_singleton _ _,
      fun a ha b hb => List.mem_singleton.1 hb ▸ hs.cb_lt a ha⟩
  · rcases List.mem_append.1 hl' with hl' | hl'
    · have hwv : w ≠ s.nextVersion := (hw ▸ hs.cb_lt l' hl').ne
      exact (hs.snap w ⟨l', hl', hw, hsnap⟩).congr rfl rfl (by simp [registerOnChange_passes, hwv]) rfl
    · rw [List.mem_singleton.1 hl'] at hw
      exact hw ▸ SnapInv.register hs

/-- `UnregisterOnChange` keeps the invariant: it only drops a callback. -/
theorem ShardInv.unregister (hs : s.ShardInv) (id : Nat) : (s.unregisterOnChange id).ShardInv := by
  have hsub : (s.unregisterOnChange id).changeCb.Sublist s.changeCb := List.eraseP_sublist _
  refine ⟨hs.version_lt, fun l hl => hs.cb_lt l (hsub.subset hl), hs.sorted.sublist hsub,
    hs.keys.congr rfl fun _ => rfl, hs.uid_lt, fun w ⟨l, hl, hw, hsnap⟩ => ?_⟩
  exact (hs.snap w ⟨l, hsub.subset hl, hw, hsnap⟩).congr rfl rfl rfl rfl

end Register

/-! ## Traversal -/

section Advance
variable {v : Nat}

@[simp] theorem advance_size : (s.advance v).size = s.size := rfl
@[simp] theorem advance_buckets : (s.advance v).buckets = s.buckets := rfl
@[simp] theorem advance_changeCb : (s.advance v).changeCb = s.changeCb := rfl
@[simp] theorem advance_nextVersion : (s.advance v).nextVersion = s.nextVersion := rfl
@[simp] theorem advance_nextUid : (s.advance v).nextUid = s.nextUid := rfl
theorem advance_passes (w : Nat) : (s.advance v).passes w =
    if w = v then { s.passes v with cursor := (s.passes v).cursor + 1 } else s.passes w := by
  by_cases h : w = v <;> simp [advance, Function.update_apply, h]

/-- The snapshot moves past a bucket it has written. -/
theorem SnapInv.advance (hi : s.SnapInv v) (hc : (s.passes v).cursor < s.size)
    (hver : v ≤ (s.buckets (s.passes v).cursor).version) : (s.advance v).SnapInv v := by
  have hp : (s.advance v).passes v = { s.passes v with cursor := (s.passes v).cursor + 1 } := by
    simp [advance_passes]
  obtain ⟨h1, h2, h3, h4, h5, h6, h7, h8, -⟩ := hi
  refine ⟨?_, ?_, ?_, ?_, ?_, ?_, ?_, fun b hb => ?_, ?_⟩ <;> simp only [hp] at *
  · exact h1
  · exact h2
  · exact h3
  · exact h4
  · exact h5
  · exact h6
  · exact h7
  · rcases Nat.lt_succ_iff_lt_or_eq.1 hb with hb | rfl
    · exact h8 b hb
    · exact hver
  · exact hc

/-- Moving a cursor keeps the invariant when a snapshot's cursor moves past a bucket it has written;
a slot flush's cursor is no snapshot's. -/
theorem ShardInv.advance (hs : s.ShardInv)
    (h : s.IsSnapshot v → (s.passes v).cursor < s.size ∧ v ≤ (s.buckets (s.passes v).cursor).version) :
    (s.advance v).ShardInv := by
  refine ⟨hs.version_lt, hs.cb_lt, hs.sorted, hs.keys.congr rfl fun _ => rfl, hs.uid_lt,
    fun w hw => ?_⟩
  by_cases hwv : w = v
  · subst hwv; exact (hs.snap w hw).advance (h hw).1 (h hw).2
  · exact (hs.snap w hw).congr rfl rfl (by simp [advance_passes, hwv]) rfl

end Advance

end Dragonfly.Snapshot.DbSlice
