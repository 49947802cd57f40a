import Mathlib.Data.List.Sort
import Mathlib.Logic.Function.Basic

/-!
# The versioned prime table and the change-callback list

The state that `DbSlice` and its `SliceSnapshot`s share: every physical bucket of the prime table
carries a version (`bucket_iterator::GetVersion`), `next_version_` hands out fresh versions, and
`change_cb_` lists `(version, callback)` pairs in registration order. A callback is a snapshot's
`OnDbChange` or the `on_change` lambda of `FlushSlotsFb`.

The prime table is seen through `PrimeTable`'s documented guarantees only: a fixed array of
buckets, an operation touches the buckets the table names, and an entry is identified by a ghost
stamp `uid`, fresh for every write, so that a record written before a change differs from one
written after it. Each traversal fiber (a snapshot, a slot flush) keeps a `Pass`: its cursor, the
records it wrote, and ghost bookkeeping for the statements about it.

This module holds the state and the functions of `db_slice.cc` and `snapshot.cc` that act on it;
`Snapshot/Run.lean` puts them together into the steps of a run.
-/

namespace Dragonfly.Snapshot

/-- What a snapshot writes for a key: its value, its deadline (`0`: none) and its mcflag. -/
structure Record where
  value : String
  deadline : Nat
  mcflag : Nat
  deriving DecidableEq, Repr

/-- An occupied slot: the key, its record, and the ghost stamp of the write that produced it. -/
structure Entry where
  uid : Nat
  key : String
  record : Record
  deriving DecidableEq, Repr

/-- A physical bucket: its version and the entries in its slots. -/
structure Bucket where
  version : Nat
  entries : List Entry

/-- The callbacks `change_cb_` holds. -/
inductive Listener
  /-- `SliceSnapshot::OnDbChange` of a point-in-time snapshot. -/
  | snapshot
  /-- `on_change` of `DbSlice::FlushSlotsFb`; `flushed k` is `slot_ids.Contains(KeySlot(k))`. -/
  | flushSlots (flushed : String → Bool)

/-- Whether a callback is a snapshot's. -/
def Listener.isSnapshot : Listener → Bool
  | .snapshot => true
  | .flushSlots _ => false

/-- A traversal fiber: `cursor` is `snapshot_cursor_` (the next bucket), `out` the entries written
so far; `image` (the entries present at registration) and `lost` (image entries deleted without a
callback before this pass wrote them) are ghost. -/
structure Pass where
  cursor : Nat
  out : List Entry
  image : List Entry
  lost : List Entry

/-- The ghost side of a deletion for one pass: an image entry not yet written is lost. -/
def Pass.noteLoss (e : Entry) (p : Pass) : Pass :=
  if e ∈ p.image ∧ e ∉ p.out then { p with lost := p.lost ++ [e] } else p

/-- The shard: `size` buckets, `next_version_`, `change_cb_`, the passes by registration version,
and the ghost stamp counter. -/
structure DbSlice where
  size : Nat
  buckets : Nat → Bucket
  nextVersion : Nat
  changeCb : List (Nat × Listener)
  passes : Nat → Pass
  nextUid : Nat

namespace DbSlice

variable (s : DbSlice)

/-- Every entry of the table, bucket by bucket. -/
def entries : List Entry := (List.range s.size).flatMap fun b => (s.buckets b).entries

/-- `v` is the version of a registered snapshot. -/
def IsSnapshot (v : Nat) : Prop := ∃ l ∈ s.changeCb, l.1 = v ∧ l.2.isSnapshot = true

/-- `e` sits in a bucket the snapshot registered at `v` has not written yet. -/
def Pending (v : Nat) (e : Entry) : Prop :=
  ∃ b < s.size, (s.buckets b).version < v ∧ e ∈ (s.buckets b).entries

/-! ## Algorithm -/

/-- `SliceSnapshot::SerializeBucket` of the snapshot registered at `v`: the bucket takes
`snapshot_version_`, then every entry in it is written. -/
def serializeBucket (v b : Nat) : DbSlice :=
  { s with
    buckets := Function.update s.buckets b { s.buckets b with version := v }
    passes := Function.update s.passes v
      { s.passes v with out := (s.passes v).out ++ (s.buckets b).entries } }

/-- `DbSlice::PerformDeletion` of entry `e` of bucket `b`, reached without any change callback
(`ExpireIfNeeded`, `DeleteExpiredStep`, `FreeMemWithEvictionStepAtomic`, `FlushSlotsFb`). -/
def performDeletion (b : Nat) (e : Entry) : DbSlice :=
  { s with
    buckets := Function.update s.buckets b
      { s.buckets b with entries := (s.buckets b).entries.erase e }
    passes := fun v => (s.passes v).noteLoss e }

/-- `iterate_bucket` of `DbSlice::FlushSlotsFb` registered at `f`: in a bucket older than `f`,
every entry of a flushed slot is deleted. -/
def iterateBucket (f : Nat) (flushed : String → Bool) (b : Nat) : DbSlice :=
  if (s.buckets b).version < f then
    ((s.buckets b).entries.filter fun e => flushed e.key).foldl
      (fun t e => t.performDeletion b e) s
  else s

/-- A callback run with `ChangeReq{bucket_iterator}` for bucket `b`. -/
def fireUpdate (b : Nat) : Nat × Listener → DbSlice
  | (v, .snapshot) => if (s.buckets b).version < v then s.serializeBucket v b else s
  | (v, .flushSlots fl) => if (s.buckets b).version < v then s.iterateBucket v fl b else s

/-- `DbSlice::CallChangeCallbacks(id, ChangeReq{bucket})`: every callback, in list order. -/
def callChangeCallbacks (b : Nat) : DbSlice :=
  s.changeCb.foldl (fun t l => t.fireUpdate b l) s

/-- `PrimeTable::CVCUponInsert(ver, key, cb)`: `cb` on every bucket the insertion touches (the
table names them: `touched`) whose version is below `ver`. -/
def cvcUponInsert (ver : Nat) (touched : List Nat) (cb : Nat → DbSlice → DbSlice) : DbSlice :=
  (touched.filter fun b => (s.buckets b).version < ver).foldl (fun t b => cb b t) s

/-- A callback run with `ChangeReq{key}` for an insertion touching `touched`. -/
def fireInsert (touched : List Nat) : Nat × Listener → DbSlice
  | (v, .snapshot) => s.cvcUponInsert v touched fun b t => t.serializeBucket v b
  | (v, .flushSlots fl) => s.cvcUponInsert v touched fun b t => t.iterateBucket v fl b

/-- `DbSlice::CallChangeCallbacks(id, ChangeReq{key})`. -/
def callChangeCallbacksInsert (touched : List Nat) : DbSlice :=
  s.changeCb.foldl (fun t l => t.fireInsert touched l) s

/-- `NextVersion()` given to bucket `b`. -/
def setNextVersion (b : Nat) : DbSlice :=
  { s with
    buckets := Function.update s.buckets b { s.buckets b with version := s.nextVersion }
    nextVersion := s.nextVersion + 1 }

/-- `DbSlice::PreUpdateBlocking`: the callbacks, then the bucket takes `NextVersion()`. -/
def preUpdateBlocking (b : Nat) : DbSlice :=
  (s.callChangeCallbacks b).setNextVersion b

/-- The loop of `DbSlice::FlushChangeToEarlierCallbacks` over the callbacks before `upper`: those
newer than the bucket's version `bv` (read once, before the loop) run. -/
def flushEarlier (b upper bv : Nat) : List (Nat × Listener) → DbSlice → DbSlice
  | [], t => t
  | l :: rest, t =>
    if l.1 = upper then t else flushEarlier b upper bv rest (if bv < l.1 then t.fireUpdate b l else t)

/-- `DbSlice::FlushChangeToEarlierCallbacks(db, it, upper_bound)`. -/
def flushChangeToEarlierCallbacks (b upper : Nat) : DbSlice :=
  flushEarlier b upper (s.buckets b).version s.changeCb s

/-- `SliceSnapshot::BucketSaveCb` in point-in-time mode: a bucket at or past `snapshot_version_`
is skipped; otherwise older callbacks see it first, then it is serialized. -/
def bucketSaveCb (v b : Nat) : DbSlice :=
  if v ≤ (s.buckets b).version then s
  else (s.flushChangeToEarlierCallbacks b v).serializeBucket v b

/-- `DbSlice::RegisterOnChange`: the callback is tagged with `NextVersion()`; its fiber starts at
cursor 0 with nothing written, and the ghost image is the table as it is now. -/
def registerOnChange (l : Listener) : DbSlice :=
  { s with
    changeCb := s.changeCb ++ [(s.nextVersion, l)]
    nextVersion := s.nextVersion + 1
    passes := Function.update s.passes s.nextVersion ⟨0, [], s.entries, []⟩ }

/-- `DbSlice::UnregisterOnChange(id)`: the first callback with version `id` is erased. -/
def unregisterOnChange (id : Nat) : DbSlice :=
  { s with changeCb := s.changeCb.eraseP fun l => l.1 == id }

/-- The cursor of the pass registered at `v` moves to the next bucket. -/
def advance (v : Nat) : DbSlice :=
  { s with
    passes := Function.update s.passes v { s.passes v with cursor := (s.passes v).cursor + 1 } }

/-- One round of `SliceSnapshot::IterateBucketsFb`: `TraverseBuckets` gives the bucket under the
cursor to `BucketSaveCb`. -/
def snapshotStep (v : Nat) : DbSlice :=
  (s.bucketSaveCb v (s.passes v).cursor).advance v

/-- One round of the traversal loop of `DbSlice::FlushSlotsFb` registered at `f`. -/
def flushSlotsStep (f : Nat) (flushed : String → Bool) : DbSlice :=
  (s.iterateBucket f flushed (s.passes f).cursor).advance f

/-- Buckets in `touched` take the contents `nc` (what an insertion or a bump-up leaves). -/
def rewrite (touched : List Nat) (nc : Nat → List Entry) : DbSlice :=
  { s with
    buckets := fun b => if b ∈ touched then { s.buckets b with entries := nc b } else s.buckets b }

/-- A write through `FindMutable` (or `AddOrFind` of a present key) to entry `e` of bucket `b`:
`PreUpdateBlocking`, then, when the slot is still occupied (`res->it.IsOccupied()`), the new
record (`some r`) or `Del` (`none`). -/
def writeKey (b : Nat) (e : Entry) (r : Option Record) : DbSlice :=
  let t := s.preUpdateBlocking b
  if e ∈ (t.buckets b).entries then
    match r with
    | some r =>
      { t.rewrite [b] (fun _ => (t.buckets b).entries.erase e ++ [⟨t.nextUid, e.key, r⟩]) with
        nextUid := t.nextUid + 1 }
    | none => t.rewrite [b] fun _ => (t.buckets b).entries.erase e
  else t

/-- `NextVersion()` given to each bucket of `bs` in turn. -/
def setNextVersions (bs : List Nat) : DbSlice := bs.foldl (fun t b => t.setNextVersion b) s

/-- The buckets of `touched` whose contents `nc` changes. -/
def changed (touched : List Nat) (nc : Nat → List Entry) : List Nat :=
  touched.filter fun b => nc b ≠ (s.buckets b).entries

/-- A change of `PrimeTable`: the buckets `touched` take the contents `nc`, and each one whose
contents change takes `NextVersion()`, so that a bucket an entry moves into is newer than every
callback registered before (spec I3: the table itself is outside the sources). -/
def mutate (touched : List Nat) (nc : Nat → List Entry) : DbSlice :=
  (s.rewrite touched nc).setNextVersions (s.changed touched nc)

/-- The insertion path of `DbSlice::AddOrFindInternal`: `CallChangeCallbacks(ChangeReq{key})`,
then `InsertNew` leaves `nc` in the touched buckets, and the new entry's bucket `target` takes
`NextVersion()` (`it.SetVersion(NextVersion())`). -/
def insertNew (touched : List Nat) (target : Nat) (nc : Nat → List Entry) : DbSlice :=
  let t := s.callChangeCallbacksInsert touched
  ({ t with nextUid := t.nextUid + 1 }.mutate touched nc).setNextVersion target

/-- The callbacks `DbSlice::OnCbFinishBlocking` runs before a bump-up: `CVCUponBump` with the
newest callback's version, each touched bucket below it going through `CallChangeCallbacks`. -/
def cvcUponBump (touched : List Nat) : DbSlice :=
  match s.changeCb.getLast? with
  | none => s
  | some (th, _) =>
    (touched.filter fun b => (s.buckets b).version < th).foldl (fun t b => t.callChangeCallbacks b) s

/-- A bump-up of `DbSlice::OnCbFinishBlocking`: the callbacks, then `PrimeTable::BumpUp`
rearranges the touched buckets into `nc`. -/
def bumpUp (touched : List Nat) (nc : Nat → List Entry) : DbSlice :=
  (s.cvcUponBump touched).mutate touched nc

end DbSlice

end Dragonfly.Snapshot
