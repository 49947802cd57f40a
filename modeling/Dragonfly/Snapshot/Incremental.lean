import Mathlib.Data.List.Basic

/-!
# Incremental snapshots: replay, full-sync cut, then streaming

`SliceSnapshot::SwitchIncrementalFb(lsn)` replays the journal from `lsn` while the entry is still
in the journal's ring buffer, with a `PushSerialized(false)` after each entry, which can suspend
the fiber. When the loop reaches `journal->GetLsn()`, it sends the full-sync cut and registers its
change callback (`ConsumeJournalChange`), with no suspension in between. Otherwise it reports an
error to `cntx_`.

The journal slice is not part of this code. It is modelled by the two facts the snapshot relies
on. An append takes the next LSN, may drop old entries from the ring buffer, and runs the
registered callbacks, all in one step. `IsLSNInBuffer(l)` holds for `lo ≤ l < GetLsn()`. Any
interleaving of appends and cancellations with the fiber's steps is a run.

## Main theorems

* `switchIncremental_replays_in_order`: in every run from `start ≤ GetLsn()`, the snapshot either
  reported an error, or is still replaying with the entries `start, …, lsn - 1` written, or has
  written `start, …, L - 1`, the cut, and then `L, …, GetLsn() - 1`. Every entry appears once and
  in order, with the cut between the last replayed entry and the first streamed one.
-/

namespace Dragonfly.Incremental

/-- What the snapshot writes into `serializer_`: a journal entry, by its LSN, or the full-sync
cut. -/
inductive Item
  | entry (lsn : Nat)
  | fullSyncCut
  deriving DecidableEq, Repr

/-- Where `SwitchIncrementalFb` is: at the `while` check for `lsn` (before its first step or after
a `PushSerialized(false)`), registered on the journal since the cut at `lsn`, or stopped with an
error. -/
inductive Pc
  | loop (lsn : Nat)
  | streaming (lsn : Nat)
  | failed
  deriving DecidableEq, Repr

/-- The journal's ring buffer (`lo` to `GetLsn()`), `cntx_->IsRunning()`, the snapshot fiber, what
it wrote, and whether it reported an error. -/
structure State where
  lo : Nat
  next : Nat
  running : Bool
  pc : Pc
  out : List Item
  error : Bool
  deriving DecidableEq, Repr

/-- `journal->IsLSNInBuffer(lsn)`. -/
def State.isLSNInBuffer (s : State) (lsn : Nat) : Bool := s.lo ≤ lsn ∧ lsn < s.next

/-- `SwitchIncrementalFb` from the `while` check at `lsn` to its next suspension: one replayed
entry then `PushSerialized(false)`; or, once the loop ends, the cut and `RegisterOnChange` when
`GetLsn() == lsn`, and `ReportError` otherwise. -/
def State.switchIncrementalFb (s : State) (lsn : Nat) : State :=
  if s.running ∧ s.isLSNInBuffer lsn then { s with out := s.out ++ [.entry lsn], pc := .loop (lsn + 1) }
  else if s.next = lsn then { s with out := s.out ++ [.fullSyncCut], pc := .streaming lsn }
  else { s with error := true, pc := .failed }

/-- `JournalSlice::AddLogRecord`: the entry takes LSN `GetLsn()`, the ring buffer keeps the entries
from `lo'`, and a registered snapshot writes the entry (`ConsumeJournalChange`). -/
def State.addLogRecord (s : State) (lo' : Nat) : State :=
  { s with
    lo := lo'
    next := s.next + 1
    out := match s.pc with
      | .streaming _ => s.out ++ [.entry s.next]
      | _ => s.out }

/-- What can happen while the fiber is suspended, and the fiber's own step. -/
inductive Event
  /-- An append that keeps the entries from `lo'` in the ring buffer. -/
  | append (lo' : Nat)
  /-- `cntx_` is cancelled. -/
  | cancel
  /-- The snapshot fiber runs to its next suspension. -/
  | resume

/-- One event; `none` for a ring buffer that would grow backwards or a fiber that has left the
loop. -/
def step (s : State) : Event → Option State
  | .append lo' => if s.lo ≤ lo' ∧ lo' ≤ s.next + 1 then some (s.addLogRecord lo') else none
  | .cancel => some { s with running := false }
  | .resume =>
    match s.pc with
    | .loop lsn => some (s.switchIncrementalFb lsn)
    | _ => none

/-- A run of events, `none` if one of them cannot happen. -/
def run : List Event → State → Option State
  | [], s => some s
  | e :: es, s => (step s e).bind (run es)

/-- `SwitchIncrementalFb(start)` about to start, on a journal holding `lo` to `next`. -/
def init (lo next start : Nat) : State := ⟨lo, next, true, .loop start, [], false⟩

/-- The journal entries `a, …, b - 1`. -/
def entries (a b : Nat) : List Item := (List.range' a (b - a)).map .entry

/-- What the snapshot has written so far, at each point of `SwitchIncrementalFb(start)`. -/
def Inv (start : Nat) (s : State) : Prop :=
  match s.pc with
  | .loop l => start ≤ l ∧ l ≤ s.next ∧ s.out = entries start l
  | .streaming l => start ≤ l ∧ l ≤ s.next ∧ s.out = entries start l ++ .fullSyncCut :: entries l s.next
  | .failed => s.error = true

/-! ## Lemmas -/

theorem entries_self (a : Nat) : entries a a = [] := by simp [entries]

theorem entries_succ {a b : Nat} (h : a ≤ b) : entries a (b + 1) = entries a b ++ [.entry b] := by
  rw [entries, entries, show b + 1 - a = b - a + 1 by omega, List.range'_concat, List.map_append]
  simp only [List.map_singleton, Nat.one_mul]
  congr 3
  omega

variable {start : Nat} {s : State}

theorem Inv.addLogRecord (h : Inv start s) (lo' : Nat) : Inv start (s.addLogRecord lo') := by
  unfold Inv at h ⊢
  simp only [State.addLogRecord]
  split at h
  next l hpc => exact ⟨h.1, Nat.le_succ_of_le h.2.1, by simp only [hpc]; exact h.2.2⟩
  next l hpc =>
    refine ⟨h.1, Nat.le_succ_of_le h.2.1, ?_⟩
    simp only [hpc, h.2.2, entries_succ h.2.1, List.append_assoc, List.cons_append]
  next hpc => simpa [hpc] using h

theorem Inv.switchIncrementalFb (h : Inv start s) {lsn : Nat} (hpc : s.pc = .loop lsn) :
    Inv start (s.switchIncrementalFb lsn) := by
  simp only [Inv, hpc] at h
  obtain ⟨h1, h2, h3⟩ := h
  unfold State.switchIncrementalFb
  split_ifs with hin hnext
  · simp only [State.isLSNInBuffer, Bool.decide_and, Bool.and_eq_true, decide_eq_true_eq] at hin
    show start ≤ lsn + 1 ∧ lsn + 1 ≤ s.next ∧ s.out ++ [.entry lsn] = entries start (lsn + 1)
    exact ⟨by omega, by omega, by rw [h3, entries_succ h1]⟩
  · exact ⟨h1, h2, by rw [h3, hnext, entries_self]⟩
  · rfl

theorem Inv.step (h : Inv start s) {e : Event} {s' : State} (hs : step s e = some s') :
    Inv start s' := by
  cases e with
  | append lo' =>
    simp only [Dragonfly.Incremental.step] at hs
    split_ifs at hs
    exact Option.some.inj hs ▸ h.addLogRecord lo'
  | cancel => exact Option.some.inj hs ▸ h
  | resume =>
    simp only [Dragonfly.Incremental.step] at hs
    split at hs
    · exact Option.some.inj hs ▸ h.switchIncrementalFb ‹_›
    · cases hs

theorem Inv.run (h : Inv start s) {es : List Event} {s' : State}
    (hr : Dragonfly.Incremental.run es s = some s') : Inv start s' := by
  induction es generalizing s with
  | nil => exact Option.some.inj hr ▸ h
  | cons e es ih =>
    obtain ⟨t, ht, hr⟩ := Option.bind_eq_some.1 hr
    exact ih (h.step ht) hr

/-! ## Main theorems -/

/-- In every run of `SwitchIncrementalFb(start)` with `start ≤ GetLsn()`, against any appends
(which may drop entries from the ring buffer) and cancellation: an error was reported, or the
snapshot is still replaying and has written `start, …, lsn - 1`, or it has written
`start, …, L - 1`, the full-sync cut, and every entry appended since, `L, …, GetLsn() - 1`. -/
theorem switchIncremental_replays_in_order {lo next start : Nat} (hstart : start ≤ next)
    {evs : List Event} {s : State} (hr : run evs (init lo next start) = some s) :
    s.error = true ∨
    (∃ l, s.pc = .loop l ∧ start ≤ l ∧ l ≤ s.next ∧ s.out = entries start l) ∨
    (∃ l, s.pc = .streaming l ∧ start ≤ l ∧ l ≤ s.next ∧
      s.out = entries start l ++ .fullSyncCut :: entries l s.next) := by
  have h : Inv start s := Inv.run (s := init lo next start) ⟨le_rfl, hstart, (entries_self _).symm⟩ hr
  unfold Inv at h
  split at h
  next l hpc => exact .inr (.inl ⟨l, hpc, h⟩)
  next l hpc => exact .inr (.inr ⟨l, hpc, h⟩)
  next => exact .inl h

/-- Entries `3` to `4` in the buffer, replay from `4`: entry `5` is appended during the first
`PushSerialized`, replayed, then the cut, and entry `6` is streamed. -/
theorem switchIncremental_replays_in_order_appendDuringReplay :
    let evs : List Event := [.resume, .append 3, .resume, .resume, .append 3]
    let s : State := ⟨3, 7, true, .streaming 6, [.entry 4, .entry 5, .fullSyncCut, .entry 6], false⟩
    run evs (init 3 5 4) = some s ∧
    (s.error = true ∨
      (∃ l, s.pc = .loop l ∧ 4 ≤ l ∧ l ≤ s.next ∧ s.out = entries 4 l) ∨
      (∃ l, s.pc = .streaming l ∧ 4 ≤ l ∧ l ≤ s.next ∧
        s.out = entries 4 l ++ .fullSyncCut :: entries l s.next)) := by
  intro evs s
  exact ⟨rfl, @switchIncremental_replays_in_order 3 5 4 (by decide) evs s rfl⟩

end Dragonfly.Incremental
