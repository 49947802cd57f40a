import Mathlib.Data.List.Basic

/-!
# Snapshots that are not point-in-time: the traversal and the moved keys

With `point_in_time_snapshot` off, a replication snapshot (`SliceSnapshot::Start` with
`stream_journal`) does not use bucket versions: `BucketSaveCb` serializes every bucket the
traversal reaches, `OnDbChange` only takes the mutex, and the journal carries every later write.
What the journal does not carry is a bump-up: in cache mode `DbSlice::OnCbFinishBlocking` moves a
read key toward the front of its bucket group (`PrimeTable::BumpUp`) and `CallMovedCallbacks`
reports each move, as a pair of cursors, to `OnMoved`. A key moved from a bucket the traversal has
not reached to one it has passed would never be met, so `OnMoved` serializes the destination
bucket when `IsPositionSerialized` holds of the destination and not of the source.

`IsPositionSerialized(id, cursor)` compares `id` with the member `snapshot_db_index_` and the
cursor with `snapshot_cursor_`. `IterateBucketsFb` walks the databases with a loop variable of the
same name, `for (DbIndex snapshot_db_index_ = 0; ...)`, which shadows the member: the member keeps
the value the header initialises it with, `0`, for the whole snapshot. Here `loopDb` is the loop's
variable and `memberDb` the member.

The prime table is seen through what the snapshot relies on. The physical buckets of a database
are the cursors `(bucket_id, segment_id)` of its table; `TraverseBuckets` visits them bucket id by
bucket id and, within one, segment by segment (the order `IsPositionSerialized` compares in), and
returns the zero cursor after the last. Only `BumpUp` moves a key to another bucket, swapping it
with the key in the destination slot if there is one. Segment splits, the stash buckets' place in
a logical bucket and the values are left out: the statements are about which keys reach the
stream.

## Main theorems

`iterateBuckets_covers_firstDb`: in every run, every key that database 0 held when the snapshot
started and that was not deleted since is serialized by the time the traversal leaves database 0,
whatever bump-ups, insertions and deletions ran in between.

`onMoved_misses_laterDb`: in every database after the first, `OnMoved` serializes nothing. A key
that a bump-up moves into a bucket the traversal has passed, before it was serialized, stays in
the table and is never serialized, in every continuation of the run that does not touch it again.
-/

namespace Dragonfly.Snapshot.Moves

/-- A `PrimeTable::Cursor`: a bucket id and a segment id (the table's depth is fixed). -/
structure Cursor where
  bucketId : Nat
  segmentId : Nat
  deriving DecidableEq, Repr

/-- The zero cursor, where a traversal starts and what `TraverseBuckets` returns after the last
bucket. -/
def Cursor.zero : Cursor := ⟨0, 0⟩

/-- `c` comes before `d` in the order `IsPositionSerialized` compares cursors in. -/
def Cursor.before (c d : Cursor) : Bool :=
  c.bucketId < d.bucketId || (c.bucketId == d.bucketId && c.segmentId < d.segmentId)

/-- The databases a snapshot walks: `db_array_.size()`, which entries of `db_array_` are set, the
buckets of a segment, and the segments of each database's prime table. -/
structure Geometry where
  numDbs : Nat
  present : Nat → Bool
  buckets : Nat
  segments : Nat → Nat
  buckets_pos : 0 < buckets
  segments_pos : ∀ d, 0 < segments d

namespace Geometry

variable (g : Geometry)

/-- A cursor of database `d`'s table. -/
def Valid (d : Nat) (c : Cursor) : Prop := c.bucketId < g.buckets ∧ c.segmentId < g.segments d

instance (d : Nat) (c : Cursor) : Decidable (g.Valid d c) :=
  inferInstanceAs (Decidable (_ ∧ _))

/-- The cursor `TraverseBuckets` returns after the bucket at `c` of database `d`. -/
def next (d : Nat) (c : Cursor) : Cursor :=
  if c.segmentId + 1 < g.segments d then ⟨c.bucketId, c.segmentId + 1⟩
  else if c.bucketId + 1 < g.buckets then ⟨c.bucketId + 1, 0⟩
  else .zero

end Geometry

/-- A shard during a snapshot that is not point-in-time: the keys in each physical bucket of each
database, the loop's database, `snapshot_cursor_`, the member `snapshot_db_index_`, and the keys
serialized so far, with their database. -/
structure State where
  table : Nat → Cursor → List String
  loopDb : Nat
  cursor : Cursor
  memberDb : Nat
  out : List (Nat × String)

/-- `SliceSnapshot::Start`: the traversal at database 0 and the zero cursor, nothing serialized;
the header initialises `snapshot_db_index_` to `0`. -/
def start (table : Nat → Cursor → List String) : State := ⟨table, 0, .zero, 0, []⟩

/-- `BumpUp` in one table: `a` leaves `p` for `q`, and the key `b` of the destination slot, if
any, takes its place at `p`. -/
def swapTable (t : Cursor → List String) (p q : Cursor) (a : String) (b : Option String) :
    Cursor → List String := fun c =>
  if c = p then (t p).erase a ++ b.toList
  else if c = q then b.elim (t q) (t q).erase ++ [a]
  else t c

namespace State

variable (s : State)

/-- `SliceSnapshot::IsPositionSerialized`. -/
def isPositionSerialized (id : Nat) (c : Cursor) : Bool :=
  id < s.memberDb || (id == s.memberDb && c.before s.cursor)

/-- `SliceSnapshot::SerializeBucket` of bucket `c` of database `id` (not point-in-time: no
version is set). -/
def serializeBucket (id : Nat) (c : Cursor) : State :=
  { s with out := s.out ++ (s.table id c).map fun k => (id, k) }

/-- One reported move in `SliceSnapshot::OnMoved`. -/
def onMovedItem (id : Nat) (m : Cursor × Cursor) : State :=
  if s.isPositionSerialized id m.2 && !s.isPositionSerialized id m.1 then s.serializeBucket id m.2
  else s

/-- `SliceSnapshot::OnMoved(id, items)`. -/
def onMoved (id : Nat) (items : List (Cursor × Cursor)) : State :=
  items.foldl (fun t m => t.onMovedItem id m) s

/-- One round of the loop of `IterateBucketsFb`: a database that is not set is skipped; otherwise
`TraverseBuckets` hands the bucket under `snapshot_cursor_` to `BucketSaveCb`, which serializes
it, and the cursor moves on; back at zero, the loop goes to the next database. -/
def traverse (g : Geometry) : State :=
  if g.present s.loopDb then
    if g.next s.loopDb s.cursor = .zero then
      { s.serializeBucket s.loopDb s.cursor with cursor := .zero, loopDb := s.loopDb + 1 }
    else { s.serializeBucket s.loopDb s.cursor with cursor := g.next s.loopDb s.cursor }
  else { s with loopDb := s.loopDb + 1 }

/-- A bump-up in database `id` (`OnCbFinishBlocking`): `BumpUp` swaps `a` at `p` with the key `b`
at `q`, and `CallMovedCallbacks` hands `PrimeBumpPolicy`'s moves to `OnMoved`. -/
def bumpUp (id : Nat) (p q : Cursor) (a : String) (b : Option String) : State :=
  ({ s with table := Function.update s.table id (swapTable (s.table id) p q a b) }).onMoved id
    ((p, q) :: b.toList.map fun _ => (q, p))

/-- A key inserted into bucket `c` of database `id` (`AddOrFind`, `AddNew`). -/
def insert (id : Nat) (c : Cursor) (k : String) : State :=
  { s with table := Function.update s.table id (Function.update (s.table id) c (s.table id c ++ [k])) }

/-- A key deleted from bucket `c` of database `id` (`Del`, expiry, eviction). -/
def delete (id : Nat) (c : Cursor) (k : String) : State :=
  { s with
    table := Function.update s.table id (Function.update (s.table id) c ((s.table id c).erase k)) }

/-- The traversal has passed bucket `c` of database `id`. -/
def Traversed (id : Nat) (c : Cursor) : Prop :=
  id < s.loopDb ∨ (id = s.loopDb ∧ c.before s.cursor = true)

end State

/-- What can happen while the snapshot runs. -/
inductive Event
  | traverse
  | bumpUp (id : Nat) (p q : Cursor) (a : String) (b : Option String)
  | insert (id : Nat) (c : Cursor) (k : String)
  | delete (id : Nat) (c : Cursor) (k : String)
  deriving DecidableEq, Repr

/-- The event moves, inserts or deletes key `k` of database `d`. -/
def Event.Touches (d : Nat) (k : String) : Event → Prop
  | .traverse => False
  | .bumpUp id _ _ a b => id = d ∧ (a = k ∨ b = some k)
  | .insert id _ k' => id = d ∧ k' = k
  | .delete id _ k' => id = d ∧ k' = k

/-- One event, when it can happen: the traversal before the last database, a bump-up between two
buckets of the table that hold the keys it swaps, an insertion into a bucket of the table, a
deletion of a key its bucket holds. -/
inductive Step (g : Geometry) : Event → State → State → Prop
  | traverse {s : State} : s.loopDb < g.numDbs → Step g .traverse s (s.traverse g)
  | bumpUp {s : State} {id : Nat} {p q : Cursor} {a : String} {b : Option String} :
      g.Valid id p → g.Valid id q → p ≠ q → a ∈ s.table id p → (∀ k ∈ b, k ∈ s.table id q) →
      Step g (.bumpUp id p q a b) s (s.bumpUp id p q a b)
  | insert {s : State} {id : Nat} {c : Cursor} {k : String} :
      g.Valid id c → Step g (.insert id c k) s (s.insert id c k)
  | delete {s : State} {id : Nat} {c : Cursor} {k : String} :
      k ∈ s.table id c → Step g (.delete id c k) s (s.delete id c k)

/-- A run: the events, one after the other. -/
inductive Run (g : Geometry) : List Event → State → State → Prop
  | nil {s : State} : Run g [] s s
  | cons {e : Event} {es : List Event} {s t u : State} :
      Step g e s t → Run g es t u → Run g (e :: es) s u

/-- A state some run from `Start` reaches. -/
def Reachable (g : Geometry) (s : State) : Prop :=
  ∃ table evs, Run g evs (start table) s

/-! ### Cursors and the traversal order -/

namespace Cursor

theorem before_eq_true {c d : Cursor} : c.before d = true ↔
    c.bucketId < d.bucketId ∨ (c.bucketId = d.bucketId ∧ c.segmentId < d.segmentId) := by
  simp [before]

@[simp] theorem before_self (c : Cursor) : c.before c = false := by
  simp [before]

@[simp] theorem before_zero (c : Cursor) : c.before .zero = false := by
  simp [before, zero]

end Cursor

namespace Geometry

variable (g : Geometry) {d : Nat} {c cur : Cursor}

theorem valid_zero (d : Nat) : g.Valid d .zero := ⟨g.buckets_pos, g.segments_pos d⟩

/-- Leaving the cursor, `TraverseBuckets` keeps every passed bucket passed. -/
theorem before_next (h : c.before cur = true) (hn : g.next d cur ≠ .zero) :
    c.before (g.next d cur) = true := by
  rw [Cursor.before_eq_true] at h ⊢
  unfold next at hn ⊢
  split_ifs at hn ⊢
  · dsimp only; omega
  · dsimp only; omega
  · exact absurd rfl hn

/-- A bucket of the table not yet passed is the one under the cursor, or is still not passed
when the cursor moves on; after the last bucket, it can only be the one under the cursor. -/
theorem eq_or_not_before_next (hc : g.Valid d c) (h : c.before cur = false) :
    c = cur ∨ (g.next d cur ≠ .zero ∧ c.before (g.next d cur) = false) := by
  obtain ⟨b, i⟩ := c
  obtain ⟨b', i'⟩ := cur
  simp only [Valid, Cursor.before, Bool.or_eq_false_iff, decide_eq_false_iff_not,
    Bool.and_eq_false_imp, beq_iff_eq] at hc h ⊢
  unfold next
  dsimp only
  split_ifs <;> simp only [Cursor.zero, Cursor.mk.injEq, ne_eq] <;> omega

end Geometry

/-! ### What a swap does to the buckets -/

section Swap

variable {t : Cursor → List String} {p q c : Cursor} {a k : String} {b : Option String}

theorem mem_swapTable_dest (hpq : p ≠ q) : a ∈ swapTable t p q a b q := by
  simp [swapTable, hpq.symm]

theorem mem_swapTable_src (hk : k ∈ b) : k ∈ swapTable t p q a b p := by
  simp [swapTable, Option.mem_toList.2 hk]

/-- A key of a bucket stays there through a swap, unless it is the key the swap moves out. -/
theorem mem_swapTable_of_mem (hk : k ∈ t c) :
    k ∈ swapTable t p q a b c ∨ (c = p ∧ k = a) ∨ (c = q ∧ b = some k) := by
  unfold swapTable
  split_ifs with hp hq
  · rcases eq_or_ne k a with rfl | hka
    · exact .inr (.inl ⟨hp, rfl⟩)
    · exact .inl (List.mem_append_left _ (List.mem_erase_of_ne hka |>.2 (hp ▸ hk)))
  · subst hq
    cases b with
    | none => exact .inl (List.mem_append_left _ hk)
    | some b =>
      rcases eq_or_ne k b with rfl | hkb
      · exact .inr (.inr ⟨rfl, rfl⟩)
      · exact .inl (List.mem_append_left _ (List.mem_erase_of_ne hkb |>.2 hk))
  · exact .inl hk

/-- A swap moves only the two keys it swaps. -/
theorem mem_swapTable_iff (hka : k ≠ a) (hkb : b ≠ some k) :
    k ∈ swapTable t p q a b c ↔ k ∈ t c := by
  have hb : k ∉ b.toList := by cases b <;> simp_all [eq_comm]
  unfold swapTable
  split_ifs with hp hq
  · simp [hb, List.mem_erase_of_ne hka, hp]
  · cases b <;> simp_all [List.mem_erase_of_ne, eq_comm]
  · rfl

/-- After a swap, a key that was in one bucket only, once, is in the destination only. -/
theorem eq_of_mem_swapTable (hpq : p ≠ q) (honly : ∀ c, a ∈ t c → c = p)
    (hone : a ∉ (t p).erase a) (hb : ∀ k ∈ b, k ∈ t q) (h : a ∈ swapTable t p q a b c) :
    c = q := by
  have hba : a ∉ b := fun hab => hpq (honly q (hb a hab)).symm
  unfold swapTable at h
  split_ifs at h with hp hq
  · rcases List.mem_append.1 h with h | h
    · exact absurd h hone
    · exact absurd (Option.mem_toList.1 h) hba
  · exact hq
  · exact absurd (honly c h) hp

end Swap

/-! ### What each operation does to the state -/

namespace State

variable (s : State) {id d : Nat} {c p q : Cursor} {k a : String} {b : Option String}

@[simp] theorem serializeBucket_table (c : Cursor) : (s.serializeBucket id c).table = s.table :=
  rfl

@[simp] theorem serializeBucket_loopDb (c : Cursor) :
    (s.serializeBucket id c).loopDb = s.loopDb := rfl

@[simp] theorem serializeBucket_cursor (c : Cursor) :
    (s.serializeBucket id c).cursor = s.cursor := rfl

@[simp] theorem serializeBucket_memberDb (c : Cursor) :
    (s.serializeBucket id c).memberDb = s.memberDb := rfl

@[simp] theorem serializeBucket_out (c : Cursor) :
    (s.serializeBucket id c).out = s.out ++ (s.table id c).map fun k => (id, k) := rfl

@[simp] theorem serializeBucket_isPositionSerialized (c : Cursor) :
    (s.serializeBucket id c).isPositionSerialized = s.isPositionSerialized := rfl

/-- What `OnMoved` does: it serializes the destination bucket of every move that
`IsPositionSerialized` lets through, all against the table and the cursor it was called with. -/
theorem onMoved_eq (id : Nat) (items : List (Cursor × Cursor)) : s.onMoved id items =
    { s with
      out := s.out ++ (items.filter fun m =>
        s.isPositionSerialized id m.2 && !s.isPositionSerialized id m.1).flatMap fun m =>
          (s.table id m.2).map fun k => (id, k) } := by
  induction items generalizing s with
  | nil => simp [onMoved]
  | cons m items ih =>
    rw [onMoved, List.foldl_cons, ← onMoved, ih]
    unfold onMovedItem
    split <;> simp_all [List.filter_cons]

@[simp] theorem onMoved_table (items : List (Cursor × Cursor)) :
    (s.onMoved id items).table = s.table := by rw [onMoved_eq]

@[simp] theorem onMoved_loopDb (items : List (Cursor × Cursor)) :
    (s.onMoved id items).loopDb = s.loopDb := by rw [onMoved_eq]

@[simp] theorem onMoved_cursor (items : List (Cursor × Cursor)) :
    (s.onMoved id items).cursor = s.cursor := by rw [onMoved_eq]

@[simp] theorem onMoved_memberDb (items : List (Cursor × Cursor)) :
    (s.onMoved id items).memberDb = s.memberDb := by rw [onMoved_eq]

theorem mem_onMoved_out {items : List (Cursor × Cursor)} {x : Nat × String} :
    x ∈ (s.onMoved id items).out ↔ x ∈ s.out ∨ ∃ m ∈ items,
      (s.isPositionSerialized id m.2 = true ∧ s.isPositionSerialized id m.1 = false) ∧
        ∃ k ∈ s.table id m.2, (id, k) = x := by
  rw [onMoved_eq]; simp [and_assoc]

/-- `IsPositionSerialized` of a database before the member `snapshot_db_index_` is `true` and of
one after it `false`, whatever the cursor. -/
theorem isPositionSerialized_le (h : s.isPositionSerialized id c = true) : id ≤ s.memberDb := by
  simp only [isPositionSerialized, Bool.or_eq_true, decide_eq_true_eq, Bool.and_eq_true,
    beq_iff_eq] at h
  omega

theorem isPositionSerialized_zero (h : s.memberDb = 0) :
    s.isPositionSerialized 0 c = c.before s.cursor := by
  simp [isPositionSerialized, h]

@[simp] theorem bumpUp_table (p q : Cursor) (a : String) (b : Option String) :
    (s.bumpUp id p q a b).table = Function.update s.table id (swapTable (s.table id) p q a b) := by
  simp [bumpUp]

@[simp] theorem bumpUp_loopDb (p q : Cursor) (a : String) (b : Option String) :
    (s.bumpUp id p q a b).loopDb = s.loopDb := by simp [bumpUp]

@[simp] theorem bumpUp_cursor (p q : Cursor) (a : String) (b : Option String) :
    (s.bumpUp id p q a b).cursor = s.cursor := by simp [bumpUp]

@[simp] theorem bumpUp_memberDb (p q : Cursor) (a : String) (b : Option String) :
    (s.bumpUp id p q a b).memberDb = s.memberDb := by simp [bumpUp]

/-- A bump-up serializes the destination of each move `IsPositionSerialized` lets through, as the
table is after the swap. -/
theorem mem_bumpUp_out {m : Cursor × Cursor} (hm : m ∈ (p, q) :: b.toList.map fun _ => (q, p))
    (h2 : s.isPositionSerialized id m.2 = true) (h1 : s.isPositionSerialized id m.1 = false)
    (hk : k ∈ swapTable (s.table id) p q a b m.2) : (id, k) ∈ (s.bumpUp id p q a b).out :=
  (mem_onMoved_out _).2 (.inr ⟨m, hm, ⟨h2, h1⟩, k, by simpa using hk, rfl⟩)

/-- A bump-up serializes keys of its own database only, and only of a database no later than the
member `snapshot_db_index_`. -/
theorem mem_bumpUp_out_imp {x : Nat × String} (h : x ∈ (s.bumpUp id p q a b).out) :
    x ∈ s.out ∨ (x.1 = id ∧ id ≤ s.memberDb) := by
  rcases (mem_onMoved_out _).1 h with h | ⟨m, -, ⟨hser, -⟩, k, -, rfl⟩
  · exact .inl h
  · exact .inr ⟨rfl, isPositionSerialized_le _ hser⟩

theorem mem_insert_table (id : Nat) (c' : Cursor) (k' : String) (h : k ∈ s.table d c) :
    k ∈ (s.insert id c' k').table d c := by
  rcases eq_or_ne d id with rfl | hd
  · rcases eq_or_ne c c' with rfl | hc <;> simp [insert, *]
  · simp [insert, hd, h]

/-- An insertion or a deletion of another key, or in another database, leaves every bucket's
keys as they were. -/
theorem mem_insert_table_iff {c' : Cursor} {k' : String} (hne : ¬(id = d ∧ k' = k)) :
    k ∈ (s.insert id c' k').table d c ↔ k ∈ s.table d c := by
  rcases eq_or_ne d id with rfl | hd
  · rcases eq_or_ne c c' with rfl | hc <;> simp_all [insert, eq_comm]
  · simp [insert, hd]

theorem mem_delete_table_iff {c' : Cursor} {k' : String} (hne : ¬(id = d ∧ k' = k)) :
    k ∈ (s.delete id c' k').table d c ↔ k ∈ s.table d c := by
  rcases eq_or_ne d id with rfl | hd
  · rcases eq_or_ne c c' with rfl | hc <;> simp_all [delete, List.mem_erase_of_ne, eq_comm]
  · simp [delete, hd]

@[simp] theorem traverse_table (g : Geometry) : (s.traverse g).table = s.table := by
  unfold traverse; split_ifs <;> rfl

@[simp] theorem traverse_memberDb (g : Geometry) : (s.traverse g).memberDb = s.memberDb := by
  unfold traverse; split_ifs <;> rfl

/-- A round of the loop serializes the bucket under the cursor, in a database that is set. -/
theorem traverse_out (g : Geometry) : (s.traverse g).out = s.out ++
    if g.present s.loopDb then (s.table s.loopDb s.cursor).map fun k => (s.loopDb, k) else [] := by
  unfold traverse; split_ifs <;> simp

theorem traverse_of_next_ne {g : Geometry} (hp : g.present s.loopDb = true)
    (hn : g.next s.loopDb s.cursor ≠ .zero) :
    (s.traverse g).loopDb = s.loopDb ∧ (s.traverse g).cursor = g.next s.loopDb s.cursor := by
  simp [traverse, hp, hn]

/-- The traversal never goes back. -/
theorem Traversed.traverse {g : Geometry} (h : s.Traversed d c) : (s.traverse g).Traversed d c := by
  unfold State.traverse Traversed at *
  split_ifs with hp hn
  · simp only; omega
  · rcases h with h | ⟨rfl, h⟩
    · exact .inl h
    · exact .inr ⟨rfl, g.before_next h hn⟩
  · simp only; omega

end State

/-! ### Steps and runs -/

section Steps

variable {g : Geometry} {e : Event} {evs : List Event} {s t : State}

/-- No step writes the member `snapshot_db_index_`. -/
theorem Step.memberDb (h : Step g e s t) : t.memberDb = s.memberDb := by
  cases h <;> simp [State.insert, State.delete]

theorem Step.out_mono (h : Step g e s t) {x : Nat × String} (hx : x ∈ s.out) : x ∈ t.out := by
  cases h with
  | traverse _ => simp [State.traverse_out, hx]
  | bumpUp => exact (State.mem_onMoved_out _).2 (.inl hx)
  | insert _ => exact hx
  | delete _ => exact hx

theorem Run.memberDb (h : Run g evs s t) : t.memberDb = s.memberDb := by
  induction h with
  | nil => rfl
  | cons hs _ ih => rw [ih, hs.memberDb]

/-- The member `snapshot_db_index_` stays `0` for the whole snapshot. -/
theorem Reachable.memberDb (h : Reachable g s) : s.memberDb = 0 := by
  obtain ⟨_, _, hrun⟩ := h
  exact hrun.memberDb

end Steps

/-! ### Database 0: every key is serialized -/

/-- Key `k` of database 0 is serialized, or the traversal is still in database 0 and `k` sits in
a bucket of the table that the cursor has not passed. -/
def Covered (g : Geometry) (k : String) (s : State) : Prop :=
  (0, k) ∈ s.out ∨ s.loopDb = 0 ∧ ∃ c, g.Valid 0 c ∧ k ∈ s.table 0 c ∧ c.before s.cursor = false

section Covered

variable {g : Geometry} {e : Event} {evs : List Event} {s t : State} {k : String}

/-- A key a bump-up in database 0 moves out of a bucket the cursor has not passed stays covered:
the destination is either not passed either, or `OnMoved` serializes it. -/
theorem Covered.of_move {p q : Cursor} {a : String} {b : Option String} {m : Cursor × Cursor}
    (hm : s.memberDb = 0) (hloop : s.loopDb = 0)
    (hmove : m ∈ (p, q) :: b.toList.map fun _ => (q, p)) (hsrc : m.1.before s.cursor = false)
    (hv : g.Valid 0 m.2) (hk : k ∈ swapTable (s.table 0) p q a b m.2) :
    Covered g k (s.bumpUp 0 p q a b) := by
  cases hdst : m.2.before s.cursor
  · exact .inr ⟨by simpa using hloop, m.2, hv, by simpa using hk, by simpa using hdst⟩
  · refine .inl (s.mem_bumpUp_out hmove ?_ ?_ hk) <;>
      rwa [State.isPositionSerialized_zero _ hm]

theorem Covered.step (hpres : g.present 0 = true) (hm : s.memberDb = 0) (hstep : Step g e s t)
    (hdel : ∀ c, e ≠ .delete 0 c k) (h : Covered g k s) : Covered g k t := by
  rcases h with hout | ⟨hloop, c, hv, hk, hc⟩
  · exact .inl (hstep.out_mono hout)
  cases hstep with
  | traverse _ =>
    rcases g.eq_or_not_before_next hv hc with rfl | ⟨hn, hc'⟩
    · left
      simp [State.traverse_out, hloop, hpres, hk]
    · obtain ⟨h1, h2⟩ := s.traverse_of_next_ne (hloop ▸ hpres) (hloop ▸ hn)
      exact .inr ⟨h1.trans hloop, c, hv, by simpa using hk, h2 ▸ hloop ▸ hc'⟩
  | @bumpUp _ id p q a b hp hq hpq _ _ =>
    rcases eq_or_ne id 0 with rfl | hid
    · rcases mem_swapTable_of_mem (p := p) (q := q) (a := a) (b := b) hk with
        hk' | ⟨rfl, rfl⟩ | ⟨rfl, rfl⟩
      · exact .inr ⟨by simpa using hloop, c, hv, by simpa using hk', by simpa using hc⟩
      · exact Covered.of_move hm hloop (.head _) hc hq (mem_swapTable_dest hpq)
      · exact Covered.of_move (m := (c, p)) hm hloop (by simp) hc hp (mem_swapTable_src rfl)
    · exact .inr ⟨by simpa using hloop, c, hv, by simp [Function.update_noteq hid.symm, hk],
        by simpa using hc⟩
  | insert _ => exact .inr ⟨hloop, c, hv, s.mem_insert_table _ _ _ hk, hc⟩
  | @delete _ id c' k' _ =>
    have hne : ¬(id = 0 ∧ k' = k) := by rintro ⟨rfl, rfl⟩; exact hdel c' rfl
    exact .inr ⟨hloop, c, hv, (s.mem_delete_table_iff hne).2 hk, hc⟩

theorem Covered.run (hpres : g.present 0 = true) (hrun : Run g evs s t) (hm : s.memberDb = 0)
    (hdel : ∀ e ∈ evs, ∀ c, e ≠ .delete 0 c k) (h : Covered g k s) : Covered g k t := by
  induction hrun with
  | nil => exact h
  | cons hs _ ih =>
    exact ih (hs.memberDb ▸ hm) (fun e he => hdel e (.tail _ he))
      (h.step hpres hm hs (hdel _ (.head _)))

end Covered

theorem iterateBuckets_covers_firstDb {g : Geometry} {T : Nat → Cursor → List String}
    {evs : List Event} {t : State} {c : Cursor} {k : String} (hpres : g.present 0 = true)
    (hrun : Run g evs (start T) t) (hc : g.Valid 0 c) (hk : k ∈ T 0 c)
    (hdel : ∀ e ∈ evs, ∀ c', e ≠ .delete 0 c' k) (hdone : 0 < t.loopDb) : (0, k) ∈ t.out := by
  rcases Covered.run hpres hrun rfl hdel (.inr ⟨rfl, c, hc, hk, Cursor.before_zero c⟩) with
    h | ⟨h, -⟩
  · exact h
  · omega

/-- Two databases of one bucket id and two segments each. -/
def twoDbs : Geometry := ⟨2, fun _ => true, 1, fun _ => 2, Nat.one_pos, fun _ => Nat.two_pos⟩

/-- In each database, `x` in the first bucket and `a` in the second. -/
def sampleTable : Nat → Cursor → List String := fun _ c =>
  if c = ⟨0, 0⟩ then ["x"] else if c = ⟨0, 1⟩ then ["a"] else []

/-- In database 0, `a` is bumped from the bucket under the cursor into the bucket just
serialized, swapping with `x`; `OnMoved` serializes it. -/
theorem iterateBuckets_covers_movedKey : (0, "a") ∈
    ((((start sampleTable).traverse twoDbs).bumpUp 0 ⟨0, 1⟩ ⟨0, 0⟩ "a" (some "x")).traverse
      twoDbs).out :=
  iterateBuckets_covers_firstDb (c := ⟨0, 1⟩) rfl
    (.cons (.traverse (by decide))
      (.cons (.bumpUp (by decide) (by decide) (by decide) (by decide)
          fun _ hk => by cases hk; decide)
        (.cons (.traverse (by decide)) .nil)))
    (by decide) (by decide) (by simp) (by decide)

/-! ### Later databases: a key moved into a passed bucket is lost -/

/-- Key `a` of database `d` is not serialized and sits in bucket `q` only, which the traversal has
passed. -/
def Missed (d : Nat) (a : String) (q : Cursor) (s : State) : Prop :=
  (d, a) ∉ s.out ∧ a ∈ s.table d q ∧ (∀ c, a ∈ s.table d c → c = q) ∧ s.Traversed d q

section Missed

variable {g : Geometry} {e : Event} {evs : List Event} {s t : State} {d : Nat} {a : String}
  {q : Cursor}

/-- A step that writes no `(d, a)` and leaves the traversal where it was and `a` where it was
keeps `a` missed. -/
theorem Missed.of_frame (hout : (d, a) ∉ t.out) (htab : ∀ c, a ∈ t.table d c ↔ a ∈ s.table d c)
    (hloop : t.loopDb = s.loopDb) (hcur : t.cursor = s.cursor) (h : Missed d a q s) :
    Missed d a q t := by
  obtain ⟨-, hq, honly, htr⟩ := h
  refine ⟨hout, (htab q).2 hq, fun c hc => honly c ((htab c).1 hc), ?_⟩
  rwa [State.Traversed, hloop, hcur]

theorem Missed.step (hd : 0 < d) (hm : s.memberDb = 0) (hstep : Step g e s t)
    (hnt : ¬ e.Touches d a) (h : Missed d a q s) : Missed d a q t := by
  cases hstep with
  | traverse _ =>
    obtain ⟨hout, hq, honly, htr⟩ := h
    refine ⟨?_, by simpa using hq, by simpa using honly, htr.traverse⟩
    simp only [State.traverse_out, List.mem_append, hout, false_or]
    split_ifs
    · simp only [List.mem_map, Prod.mk.injEq, not_exists, not_and]
      rintro k hk rfl rfl
      rcases htr with htr | ⟨-, htr⟩
      · omega
      · simp [honly _ hk] at htr
    · simp
  | @bumpUp _ id p q' a' b' =>
    refine h.of_frame (fun hx => ?_) (fun c => ?_) (by simp) (by simp)
    · rcases s.mem_bumpUp_out_imp hx with hx | ⟨rfl, hle⟩
      · exact h.1 hx
      · omega
    · rcases eq_or_ne d id with rfl | hid
      · simp only [State.bumpUp_table, Function.update_same]
        exact mem_swapTable_iff (fun h' => hnt ⟨rfl, .inl h'.symm⟩)
          (fun h' => hnt ⟨rfl, .inr h'⟩)
      · simp [Function.update_noteq hid]
  | insert _ => exact h.of_frame h.1 (fun c => s.mem_insert_table_iff hnt) rfl rfl
  | delete _ => exact h.of_frame h.1 (fun c => s.mem_delete_table_iff hnt) rfl rfl

theorem Missed.run (hd : 0 < d) (hrun : Run g evs s t) (hm : s.memberDb = 0)
    (hnt : ∀ e ∈ evs, ¬ e.Touches d a) (h : Missed d a q s) : Missed d a q t := by
  induction hrun with
  | nil => exact h
  | cons hs _ ih =>
    exact ih (hs.memberDb ▸ hm) (fun e he => hnt e (.tail _ he))
      (h.step hd hm hs (hnt _ (.head _)))

end Missed

theorem onMoved_misses_laterDb {g : Geometry} {s t : State} {d : Nat} {p q : Cursor}
    {a : String} {b : Option String} {evs : List Event} (hr : Reachable g s) (hd : 0 < d)
    (hq : s.Traversed d q) (hout : (d, a) ∉ s.out) (honly : ∀ c, a ∈ s.table d c → c = p)
    (hone : a ∉ (s.table d p).erase a) (hrun : Run g (.bumpUp d p q a b :: evs) s t)
    (hnt : ∀ e ∈ evs, ¬ e.Touches d a) : a ∈ t.table d q ∧ (d, a) ∉ t.out := by
  have hm := hr.memberDb
  rcases hrun with _ | ⟨(hstep : Step g _ s _), hrest⟩
  cases hstep with
  | bumpUp _ _ hpq _ hb =>
    have hmissed : Missed d a q (s.bumpUp d p q a b) := by
      refine ⟨fun hx => ?_, by simpa using mem_swapTable_dest hpq,
        fun c hc => eq_of_mem_swapTable hpq honly hone hb (by simpa using hc),
        by simpa [State.Traversed] using hq⟩
      rcases s.mem_bumpUp_out_imp hx with hx | ⟨-, hle⟩
      · exact hout hx
      · omega
    obtain ⟨hout', hq', -, -⟩ := hmissed.run hd hrest (by simpa using hm) hnt
    exact ⟨hq', hout'⟩

/-- The move of `iterateBuckets_covers_movedKey` made in database 1: `a` stays in the table and
is never serialized. -/
theorem onMoved_misses_movedKey :
    let s := (((start sampleTable).traverse twoDbs).traverse twoDbs).traverse twoDbs
    let t := (s.bumpUp 1 ⟨0, 1⟩ ⟨0, 0⟩ "a" (some "x")).traverse twoDbs
    "a" ∈ t.table 1 ⟨0, 0⟩ ∧ (1, "a") ∉ t.out :=
  onMoved_misses_laterDb (g := twoDbs)
    ⟨sampleTable, [.traverse, .traverse, .traverse],
      .cons (.traverse (by decide)) (.cons (.traverse (by decide))
        (.cons (.traverse (by decide)) .nil))⟩
    Nat.one_pos (.inr ⟨rfl, rfl⟩) (by decide)
    (fun c hc => by
      simp only [State.traverse_table, start, sampleTable] at hc
      split_ifs at hc <;> simp_all)
    (by decide)
    (.cons (.bumpUp (by decide) (by decide) (by decide) (by decide)
        fun _ hk => by cases hk; decide)
      (.cons (.traverse (by decide)) .nil))
    (by simp [Event.Touches])

end Dragonfly.Snapshot.Moves
