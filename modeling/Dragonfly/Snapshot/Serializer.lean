import Mathlib.Data.List.Range
import Mathlib.Data.List.Chain

/-!
# The serializer's byte stream

A `SliceSnapshot` writes into one `RdbSerializer` from several fibers of its shard thread: the
snapshot fiber in `BucketSaveCb`, mutation fibers in `OnDbChange`, journal writes in
`ConsumeJournalChange`, and every fiber that calls `PushSerialized` (the traversal loop,
`ThrottleIfNeeded`), which serializes the delayed entries of tiered values. The fibers are
cooperative: one runs until it suspends, in `FlushSerialized` (`seq_cond_`, `ConsumeData`,
`SleepFor`), in the `Get()` of a tiered read, or at `big_value_mu_` while another fiber holds it.

## Model

Bytes are abstracted to pieces: a record (an RDB entry or a journal record) is written as pieces
`0, …, count - 1`. An entry bigger than `serialization_max_chunk_size` has several, and `flush_fun`
flushes the serializer between them (`FlushSerialized` with `kFlushMidEntry`). `FlushSerialized`
moves the whole buffer to the consumer; its ids and `seq_cond_` make the consumer receive the
buffers in the order they were taken, so taking and pushing are one step here, followed by a
suspension. Each fiber's code is a list of instructions; a schedule lists the fibers that take a
step, and a fiber that runs keeps the thread until it suspends.

## Results

`BucketSaveCb`, `OnDbChange` and `ConsumeJournalChange` write under `big_value_mu_`, but
`PushSerialized` serializes the delayed entries without it: a delayed entry's record lands between
the pieces of an entry that another fiber flushes mid-entry, and no stream that follows is made of
whole records (`pushSerialized_splits_entry`). And `OnDbChange` only defers the record of a tiered
value: the journal record of the change that follows reaches the consumer while the key's snapshot
record is still a delayed entry (`journal_before_external_entry`).
-/

namespace Dragonfly.Serializer

/-- A record of the stream: an RDB entry of a key (`SaveEntry`), written in `n + 1` pieces, or a
journal record about a key (`WriteJournalEntry`). -/
inductive Record
  | entry (key : String) (n : Nat)
  | journal (key : String)
  deriving DecidableEq, Repr

/-- The number of pieces of a record. -/
def Record.count : Record → Nat
  | .entry _ n => n + 1
  | .journal _ => 1

/-- Piece `idx` of a record's bytes. -/
structure Piece where
  record : Record
  idx : Nat
  deriving DecidableEq, Repr

/-- The pieces of a whole record, in order. -/
def Record.pieces (r : Record) : List Piece := (List.range r.count).map (Piece.mk r)

/-- A stream made of whole records, one after the other. -/
def Whole (s : List Piece) : Prop := ∃ rs : List Record, s = rs.flatMap Record.pieces

/-- A value as `SerializeEntry` finds it: in memory, or external (tiered, read later). Its entry
has `n + 1` pieces. -/
inductive Value
  | memory (n : Nat)
  | external (n : Nat)
  deriving DecidableEq, Repr

/-- The serializer's state: `serializer_`'s buffer, what `consumer_->ConsumeData` received,
`delayed_entries_` (key and pieces of the value once read), and the fiber holding
`big_value_mu_`. -/
structure State where
  buf : List Piece
  out : List Piece
  delayed : List (String × Nat)
  holder : Option Nat
  deriving DecidableEq, Repr

/-- What a fiber has left to run. -/
inductive Instr
  /-- `std::lock_guard` on `big_value_mu_`. -/
  | lock
  | unlock
  /-- Piece `i` of a record into the buffer; the later pieces follow, each after a flush. -/
  | piece (r : Record) (i : Nat)
  /-- `FlushSerialized`. -/
  | flush
  /-- `SerializeExternal`: a tiered read is scheduled and the entry delayed. -/
  | defer (key : String) (n : Nat)
  | pushSerialized (force : Bool)
  /-- The loop of `PushSerialized` over `delayed_entries_`; `again` after the first round. -/
  | drainDelayed (again : Bool)
  /-- `Get()` of a tiered read's future. -/
  | get
  deriving DecidableEq, Repr

/-- `kMinBlobSize`. -/
def kMinBlobSize : Nat := 8192

/-- The fibers: each one's code, and the fiber that runs and keeps the thread until it
suspends. -/
structure System where
  state : State
  fibers : List (List Instr)
  running : Option Nat
  deriving DecidableEq, Repr

/-! ## Algorithm -/

section Exec

variable (serializedLen : List Piece → Nat)

/-- One instruction of fiber `me`: the state after it, the code left, and whether the fiber
suspends there. A `lock` of a mutex another fiber holds waits, suspended. `FlushSerialized` of an
empty buffer returns at once. `serializedLen` is `serializer_->SerializedLen()` of a buffer, the
byte size its pieces stand for. -/
def exec (me : Nat) (s : State) : Instr → List Instr → State × List Instr × Bool
  | .lock, rest =>
    match s.holder with
    | none => ({ s with holder := some me }, rest, false)
    | some _ => (s, .lock :: rest, true)
  | .unlock, rest => ({ s with holder := none }, rest, false)
  | .piece r i, rest =>
    ({ s with buf := s.buf ++ [⟨r, i⟩] },
      if i + 1 < r.count then .flush :: .piece r (i + 1) :: rest else rest, false)
  | .flush, rest =>
    if s.buf = [] then (s, rest, false) else ({ s with buf := [], out := s.out ++ s.buf }, rest, true)
  | .defer k n, rest => ({ s with delayed := s.delayed ++ [(k, n)] }, rest, false)
  | .pushSerialized force, rest =>
    if force = false ∧ serializedLen s.buf < kMinBlobSize ∧ s.delayed.length < 32 then
      (s, rest, false)
    else (s, .flush :: .drainDelayed false :: rest, false)
  | .drainDelayed again, rest =>
    match s.delayed.getLast? with
    | some (k, n) =>
      ({ s with delayed := s.delayed.dropLast },
        .get :: .piece (.entry k n) 0 :: .drainDelayed true :: rest, false)
    | none => (s, if again then .flush :: rest else rest, false)
  | .get, rest => (s, rest, true)

/-- Fiber `i` runs one instruction, if the thread is free or is its own. -/
def System.step (sys : System) (i : Nat) : System :=
  match sys.fibers[i]? with
  | some (ins :: rest) =>
    if sys.running = none ∨ sys.running = some i then
      let r := exec serializedLen i sys.state ins rest
      ⟨r.1, sys.fibers.set i r.2.1, if r.2.2 ∨ r.2.1 = [] then none else some i⟩
    else sys
  | _ => sys

/-- A schedule: the fibers that take a step, one after the other. -/
def System.run (sys : System) (sched : List Nat) : System :=
  sched.foldl (System.step serializedLen) sys

end Exec

/-- `SerializeEntry`: an in-memory value is written, a tiered one deferred. -/
def serializeEntry : String × Value → Instr
  | (k, .memory n) => .piece (.entry k n) 0
  | (k, .external n) => .defer k n

/-- `SerializeBucket`. -/
def serializeBucket (b : List (String × Value)) : List Instr := b.map serializeEntry

/-- `BucketSaveCb` on a bucket older than the snapshot's version: the bucket, serialized under
`big_value_mu_`. -/
def bucketSaveCb (b : List (String × Value)) : List Instr := .lock :: serializeBucket b ++ [.unlock]

/-- `OnDbChange` on a bucket older than the snapshot's version serializes it as `BucketSaveCb`
does. -/
def onDbChange (b : List (String × Value)) : List Instr := bucketSaveCb b

/-- `ConsumeJournalChange`: the journal record, under `big_value_mu_`. -/
def consumeJournalChange (k : String) : List Instr := [.lock, .piece (.journal k) 0, .unlock]

/-- `ThrottleIfNeeded`. -/
def throttleIfNeeded : List Instr := [.pushSerialized false]

/-! ## Lemmas -/

/-- In a stream of whole records, a piece that does not end its record is followed by the next
piece of the same record. -/
def Continues (p q : Piece) : Prop := p.idx + 1 < p.record.count → q = ⟨p.record, p.idx + 1⟩

theorem count_pos (r : Record) : 0 < r.count := by
  cases r <;> simp [Record.count]

theorem chain_pieces (r : Record) : (r.pieces).Chain' Continues := by
  obtain ⟨n, hn⟩ : ∃ n, r.count = n + 1 := ⟨r.count - 1, by have := count_pos r; omega⟩
  rw [Record.pieces, List.chain'_map, hn, List.chain'_range_succ]
  intro m _ _
  rfl

theorem getLast_pieces (r : Record) : (r.pieces).getLast? = some ⟨r, r.count - 1⟩ := by
  simp [Record.pieces, List.getLast?_range, (count_pos r).ne']

/-- A stream of whole records continues every unfinished piece. -/
theorem Whole.chain {s : List Piece} (h : Whole s) : s.Chain' Continues := by
  obtain ⟨rs, rfl⟩ := h
  induction rs with
  | nil => exact List.chain'_nil
  | cons r rs ih =>
    rw [List.flatMap_cons, List.chain'_append]
    refine ⟨chain_pieces r, ih, fun x hx y _ hlt => ?_⟩
    rw [getLast_pieces, Option.mem_def, Option.some_inj] at hx
    subst hx
    dsimp only at hlt
    omega

/-- A stream in which an unfinished piece is followed by a piece of another record, or by another
piece of its own, is not made of whole records, whatever follows. -/
theorem not_whole_of_split {p q : Piece} {s : List Piece} (hs : [p, q] <:+: s)
    (hp : p.idx + 1 < p.record.count) (hq : q ≠ ⟨p.record, p.idx + 1⟩) (more : List Piece) :
    ¬ Whole (s ++ more) := fun h =>
  have hc := List.Chain'.infix h.chain (hs.trans (List.infix_append [] s more))
  hq (List.chain'_pair.1 hc hp)

section Runs

variable (serializedLen : List Piece → Nat)

@[simp] theorem run_nil (sys : System) : sys.run serializedLen [] = sys := rfl

@[simp] theorem run_cons (sys : System) (i : Nat) (sched : List Nat) :
    sys.run serializedLen (i :: sched) = (sys.step serializedLen i).run serializedLen sched := rfl

theorem run_append (sys : System) (s1 s2 : List Nat) :
    sys.run serializedLen (s1 ++ s2) = (sys.run serializedLen s1).run serializedLen s2 :=
  List.foldl_append _ _ _ _

/-- The running fiber `0` defers the entries of `b`, one per step, keeping the thread. -/
theorem run_defers (st : State) (rest : List Instr) (hrest : rest ≠ []) (others : List (List Instr)) :
    ∀ b : List (String × Nat),
      (System.mk st (((b.map fun e => Instr.defer e.1 e.2) ++ rest) :: others) (some 0)).run
          serializedLen (List.replicate b.length 0) =
        ⟨{ st with delayed := st.delayed ++ b }, rest :: others, some 0⟩
  | [] => by simp
  | e :: b => by
    have hcode : (b.map fun e => Instr.defer e.1 e.2) ++ rest ≠ [] := by simp [hrest]
    have h1 : (System.mk st ((((e :: b).map fun e => Instr.defer e.1 e.2) ++ rest) :: others)
        (some 0)).step serializedLen 0 =
        ⟨{ st with delayed := st.delayed ++ [e] }, ((b.map fun e => Instr.defer e.1 e.2) ++ rest) :: others,
          some 0⟩ := by
      simp [System.step, exec, hcode]
    rw [List.length_cons, List.replicate_succ, run_cons, h1, run_defers _ rest hrest others b]
    simp

end Runs

theorem serializeBucket_external (b : List (String × Nat)) :
    serializeBucket (b.map fun e => (e.1, Value.external e.2)) =
      b.map fun e => Instr.defer e.1 e.2 := by
  simp [serializeBucket, serializeEntry]

/-! ## Main theorems -/

variable (serializedLen : List Piece → Nat)

/-- A fiber in `PushSerialized`'s loop suspends at the `Get()` of a delayed entry's tiered read; a
mutation fiber's `OnDbChange` then writes the first piece of a value bigger than the flush threshold
and suspends in its mid-entry flush; the first fiber resumes and writes the delayed entry. The
stream has the delayed entry's first piece right after the big entry's first, and no stream that
follows is made of whole records. -/
theorem pushSerialized_splits_entry (s : State) (hfree : s.holder = none) {r : Option Nat}
    (hr : r = none ∨ r = some 0) (a k : String) (m n : Nat) (b : List (String × Value))
    (restS restM : List Instr) (more : List Piece) :
    let sys : System := ⟨s, [.get :: .piece (.entry a m) 0 :: .drainDelayed true :: restS,
      onDbChange ((k, .memory (n + 1)) :: b) ++ restM], r⟩
    let sys' := sys.run serializedLen [0, 1, 1, 1, 0]
    ¬ Whole (sys'.state.out ++ sys'.state.buf ++ more) := by
  intro sys sys'
  have hstep : sys'.state.out ++ sys'.state.buf =
      (s.out ++ s.buf) ++ [⟨.entry k (n + 1), 0⟩, ⟨.entry a m, 0⟩] := by
    simp only [sys', sys]
    rcases hr with rfl | rfl <;>
      simp [System.run, System.step, exec, onDbChange, bucketSaveCb, serializeBucket,
        serializeEntry, Record.count, hfree]
  rw [hstep]
  exact not_whole_of_split (List.suffix_append (s.out ++ s.buf) _).isInfix (by simp [Record.count])
    (by simp) more

/-- The snapshot fiber's `BucketSaveCb` defers a tiered value `a`; its end-of-database
`PushSerialized(true)` pops it and suspends at the read, and a mutation of `b`, whose value is
flushed in two pieces, runs meanwhile. -/
theorem pushSerialized_splits_entry_tiered :
    let sys0 : System := ⟨⟨[], [], [], none⟩,
      [bucketSaveCb [("a", .external 0)] ++ [.pushSerialized true], onDbChange [("b", .memory 1)]], none⟩
    let sys1 := sys0.run (fun _ => 0) [0, 0, 0, 0, 0, 0]
    let sys2 := sys1.run (fun _ => 0) [0, 1, 1, 1, 0]
    sys1 = ⟨⟨[], [], [], none⟩, [[.get, .piece (.entry "a" 0) 0, .drainDelayed true],
      onDbChange [("b", .memory 1)]], some 0⟩ ∧ ¬ Whole (sys2.state.out ++ sys2.state.buf ++ []) := by
  intro sys0 sys1 sys2
  have h1 : sys1 = ⟨⟨[], [], [], none⟩, [[.get, .piece (.entry "a" 0) 0, .drainDelayed true],
      onDbChange [("b", .memory 1)]], some 0⟩ := by decide
  refine ⟨h1, ?_⟩
  simp only [sys2, h1]
  exact pushSerialized_splits_entry (fun _ => 0) _ rfl (.inr rfl) "a" "b" 0 0 [] [] [] []

/-- A mutation fiber's `OnDbChange` on a bucket of tiered values defers their records, and its
journal record about a key `k` of the bucket goes to the buffer; the next `PushSerialized` flushes
the buffer before it reads the delayed entries. The stream then holds the journal record about `k`
and no snapshot record of `k`, which is still a delayed entry and can only come after it. -/
theorem journal_before_external_entry (s : State) (hfree : s.holder = none) {k : String} {n : Nat}
    (b : List (String × Nat)) (hk : (k, n) ∈ b)
    (hnot : ∀ m i, (⟨.entry k m, i⟩ : Piece) ∉ s.out ++ s.buf) (rest : List Instr) :
    let sys : System := ⟨s, [onDbChange (b.map fun e => (e.1, .external e.2)) ++ consumeJournalChange k,
      .pushSerialized true :: rest], none⟩
    let sys' := sys.run serializedLen (0 :: List.replicate b.length 0 ++ [0, 0, 0, 0, 1, 1])
    (⟨.journal k, 0⟩ : Piece) ∈ sys'.state.out ∧ (∀ m i, (⟨.entry k m, i⟩ : Piece) ∉ sys'.state.out) ∧
      (k, n) ∈ sys'.state.delayed := by
  intro sys sys'
  have h1 : sys.step serializedLen 0 = ⟨{ s with holder := some 0 },
      [(b.map fun e => Instr.defer e.1 e.2) ++ (.unlock :: consumeJournalChange k),
        .pushSerialized true :: rest], some 0⟩ := by
    simp [sys, System.step, exec, hfree, onDbChange, bucketSaveCb, serializeBucket_external]
  have h2 := run_defers serializedLen { s with holder := some 0 } (.unlock :: consumeJournalChange k)
    (List.cons_ne_nil _ _) [.pushSerialized true :: rest] b
  simp only [sys', List.cons_append, run_cons, run_append, h1, h2]
  simp only [List.mem_append, not_or] at hnot
  simp [System.run, System.step, exec, consumeJournalChange, Record.count, hk, hnot]

/-- One key `k` with a tiered value, mutated while the snapshot runs: the consumer receives the
journal record about `k`, then `k`'s snapshot record. -/
theorem journal_before_external_entry_oneKey :
    let sys : System := ⟨⟨[], [], [], none⟩,
      [onDbChange [("k", .external 0)] ++ consumeJournalChange "k", [.pushSerialized true]], none⟩
    let sys' := sys.run (fun _ => 0) (0 :: List.replicate 1 0 ++ [0, 0, 0, 0, 1, 1])
    ((⟨.journal "k", 0⟩ : Piece) ∈ sys'.state.out ∧
      (∀ m i, (⟨.entry "k" m, i⟩ : Piece) ∉ sys'.state.out) ∧ ("k", 0) ∈ sys'.state.delayed) ∧
      (sys'.run (fun _ => 0) [1, 1, 1, 1, 1]).state.out = [⟨.journal "k", 0⟩, ⟨.entry "k" 0, 0⟩] :=
  ⟨journal_before_external_entry (fun _ => 0) ⟨[], [], [], none⟩ rfl [("k", 0)]
    (List.mem_singleton_self _) (by simp) [], by decide⟩

end Dragonfly.Serializer
