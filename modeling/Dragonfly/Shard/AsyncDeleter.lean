import Mathlib.Data.List.Basic

/-!
# Asynchronous deletion of large sets

`PerformDeletionAtomic` does not free a large set marked for async deletion at once: it clears
its first 512 buckets (`DenseSet::ClearStep`) and, if buckets are left, hands the set to
`AsyncDeleter::EnqueDeletion`. The deleter keeps the sets of its thread in a linked list
(`head_`) and clears them during idle time: `IdleCb`, registered with `AddOnIdleTask`, clears
1024 buckets of the set at the head and frees it (`CompactObj::DeleteMR`) when its cursor reaches
`BucketCount()`. `EnqueDeletion` registers `IdleCb` when it finds the list empty, and `IdleCb`
unregisters itself (returns `-1`) when it finds the list empty. `Shutdown` drops the list without
freeing.

`DenseSet` is outside the repository: a set is seen through `BucketCount()` and `ClearStep`, of
which only two laws are used (`DenseSets`). The proactor's idle loop is seen through the number
of `IdleCb` registrations, any one of which may run when the thread is idle.

## Main theorem

`idleCb_frees_all`: from every reachable state, the idle callbacks alone empty the list and free
every set in it, in at most as many calls as there are buckets left to clear, each call made by
a registered `IdleCb`.
-/

namespace Dragonfly.AsyncDeleter

/-- What the deleter reads of the `DenseSet`s it clears, by set: `BucketCount()` and
`ClearStep(start, count)`, the cursor after clearing up to `count` buckets from `start`. A step
never passes the bucket count, and moves on while there are buckets left. -/
structure DenseSets where
  bucketCount : Nat → Nat
  clearStep : Nat → Nat → Nat → Nat
  clearStep_le : ∀ ds start count, clearStep ds start count ≤ bucketCount ds
  lt_clearStep : ∀ ds start count, 0 < count → start < bucketCount ds →
    start < clearStep ds start count

/-- `AsyncDeleter::kClearStepSize`. -/
def kClearStepSize : Nat := 1024

/-- The buckets `PerformDeletionAtomic` clears before it hands a set over (`kClearStepSize` there). -/
def kFirstClearStepSize : Nat := 512

/-- An `AsyncDeleter::ClearNode`: the set and the cursor its clearing resumes from. -/
structure ClearNode where
  ds : Nat
  cursor : Nat
  deriving DecidableEq, Repr

/-- The deleter of one thread: the list from `head_` on, the `IdleCb` registrations of the
thread's proactor, and the sets freed so far. -/
structure State where
  head : List ClearNode
  idleTasks : Nat
  freed : List Nat
  deriving DecidableEq, Repr

/-- No set waits, no `IdleCb` is registered. -/
def init : State := ⟨[], 0, []⟩

namespace State

variable (s : State) (D : DenseSets)

/-- `AsyncDeleter::EnqueDeletion(next, ds)`: the set goes to the head of the list; `IdleCb` is
registered if the list was empty. -/
def enqueDeletion (next ds : Nat) : State :=
  { s with
    head := ⟨ds, next⟩ :: s.head
    idleTasks := if s.head = [] then s.idleTasks + 1 else s.idleTasks }

/-- `AsyncDeleter::IdleCb`, run by one registration: with an empty list it unregisters itself;
otherwise it clears a step of the set at the head, freeing it and popping the head at the end. -/
def idleCb : State :=
  match s.head with
  | [] => { s with idleTasks := s.idleTasks - 1 }
  | current :: rest =>
    if D.clearStep current.ds current.cursor kClearStepSize = D.bucketCount current.ds then
      { s with head := rest, freed := s.freed ++ [current.ds] }
    else
      { s with head := ⟨current.ds, D.clearStep current.ds current.cursor kClearStepSize⟩ :: rest }

/-- `AsyncDeleter::Shutdown`: the nodes go, the sets are not freed. -/
def shutdown : State := { s with head := [] }

/-- The end of `DbSlice::PerformDeletionAtomic` for a set marked for async deletion: a first
step of clearing, then the set is freed or handed to the deleter. -/
def performDeletionAtomic (ds : Nat) : State :=
  if D.clearStep ds 0 kFirstClearStepSize < D.bucketCount ds then
    s.enqueDeletion (D.clearStep ds 0 kFirstClearStepSize) ds
  else { s with freed := s.freed ++ [ds] }

end State

/-- What can happen on the thread. -/
inductive Event
  | performDeletionAtomic (ds : Nat)
  | idleCb
  | shutdown
  deriving DecidableEq, Repr

/-- One event; the idle loop runs `IdleCb` only while a registration exists. -/
inductive Step (D : DenseSets) : Event → State → State → Prop
  | performDeletionAtomic {s : State} {ds : Nat} :
      Step D (.performDeletionAtomic ds) s (s.performDeletionAtomic D ds)
  | idleCb {s : State} : 0 < s.idleTasks → Step D .idleCb s (s.idleCb D)
  | shutdown {s : State} : Step D .shutdown s s.shutdown

/-- A run: the events, one after the other. -/
inductive Run (D : DenseSets) : List Event → State → State → Prop
  | nil {s : State} : Run D [] s s
  | cons {e : Event} {es : List Event} {s t u : State} :
      Step D e s t → Run D es t u → Run D (e :: es) s u

/-- A state some run from `init` reaches. -/
def Reachable (D : DenseSets) (s : State) : Prop := ∃ evs, Run D evs init s

/-! ### The invariant -/

/-- While a set waits, an `IdleCb` is registered, and every waiting set has buckets left. -/
structure Inv (D : DenseSets) (s : State) : Prop where
  registered : s.head ≠ [] → 0 < s.idleTasks
  cursor_lt : ∀ n ∈ s.head, n.cursor < D.bucketCount n.ds

section Inv

variable {D : DenseSets} {s t : State} {e : Event} {evs : List Event}

theorem inv_init : Inv D init := ⟨fun h => absurd rfl h, fun _ h => absurd h (List.not_mem_nil _)⟩

theorem Inv.enqueDeletion {next ds : Nat} (h : Inv D s) (hn : next < D.bucketCount ds) :
    Inv D (s.enqueDeletion next ds) := by
  refine ⟨fun _ => ?_, fun n hn' => ?_⟩
  · by_cases h0 : s.head = []
    · simp [State.enqueDeletion, h0]
    · simpa [State.enqueDeletion, h0] using h.registered h0
  · rcases List.mem_cons.1 hn' with rfl | hn'
    · exact hn
    · exact h.cursor_lt n hn'

theorem Inv.idleCb (h : Inv D s) : Inv D (s.idleCb D) := by
  unfold State.idleCb
  split
  · next h0 => exact ⟨fun h' => absurd h0 h', fun _ hn => by simp [h0] at hn⟩
  · next current rest h0 =>
    have hreg := h.registered (by simp [h0])
    have hcur := fun n hn => h.cursor_lt n (h0 ▸ hn)
    split_ifs with hend
    · exact ⟨fun _ => hreg, fun n hn => hcur n (.tail _ hn)⟩
    · refine ⟨fun _ => hreg, fun n hn => ?_⟩
      rcases List.mem_cons.1 hn with rfl | hn
      · exact lt_of_le_of_ne (D.clearStep_le _ _ _) hend
      · exact hcur n (.tail _ hn)

theorem Inv.step (h : Step D e s t) (hi : Inv D s) : Inv D t := by
  cases h with
  | @performDeletionAtomic _ ds =>
    unfold State.performDeletionAtomic
    split_ifs with hn
    · exact hi.enqueDeletion hn
    · exact ⟨hi.registered, hi.cursor_lt⟩
  | idleCb _ => exact hi.idleCb
  | shutdown => exact ⟨fun h => absurd rfl h, fun _ h => absurd h (List.not_mem_nil _)⟩

theorem Inv.run (h : Run D evs s t) (hi : Inv D s) : Inv D t := by
  induction h with
  | nil => exact hi
  | cons hs _ ih => exact ih (hi.step hs)

theorem Reachable.inv (h : Reachable D s) : Inv D s := by
  obtain ⟨_, hrun⟩ := h
  exact inv_init.run hrun

theorem Step.freed_mono (h : Step D e s t) {ds : Nat} (hds : ds ∈ s.freed) : ds ∈ t.freed := by
  cases h with
  | performDeletionAtomic =>
    unfold State.performDeletionAtomic
    split_ifs
    · exact hds
    · exact List.mem_append_left _ hds
  | idleCb _ =>
    unfold State.idleCb
    split
    · exact hds
    · split_ifs
      · exact List.mem_append_left _ hds
      · exact hds
  | shutdown => exact hds

theorem Run.freed_mono (h : Run D evs s t) {ds : Nat} (hds : ds ∈ s.freed) : ds ∈ t.freed := by
  induction h with
  | nil => exact hds
  | cons hs _ ih => exact ih (hs.freed_mono hds)

end Inv

/-! ### Every set is freed -/

/-- The buckets left to clear in the list. -/
def work (D : DenseSets) : List ClearNode → Nat
  | [] => 0
  | n :: ns => (D.bucketCount n.ds - n.cursor) + work D ns

section Work

variable {D : DenseSets} {s : State}

/-- An `IdleCb` on a non-empty list clears some buckets, and each set of the list is either
still in it or freed. -/
theorem idleCb_progress (h : Inv D s) (hne : s.head ≠ []) :
    work D (s.idleCb D).head < work D s.head ∧
      ∀ n ∈ s.head, n.ds ∈ (s.idleCb D).freed ∨ ∃ n' ∈ (s.idleCb D).head, n'.ds = n.ds := by
  obtain ⟨current, rest⟩ := s
  cases current with
  | nil => exact absurd rfl hne
  | cons current rest' =>
    have hlt := h.cursor_lt current (.head _)
    have hstep := D.lt_clearStep current.ds current.cursor kClearStepSize (by decide) hlt
    simp only [State.idleCb]
    split_ifs with hend
    · refine ⟨by simp [work]; omega, fun n hn => ?_⟩
      rcases List.mem_cons.1 hn with rfl | hn
      · exact .inl (List.mem_append_right _ (.head _))
      · exact .inr ⟨n, hn, rfl⟩
    · have hle := D.clearStep_le current.ds current.cursor kClearStepSize
      refine ⟨by simp [work]; omega, fun n hn => .inr ?_⟩
      rcases List.mem_cons.1 hn with rfl | hn
      · exact ⟨_, .head _, rfl⟩
      · exact ⟨n, .tail _ hn, rfl⟩

end Work

theorem idleCb_frees_all {D : DenseSets} {s : State} (hr : Reachable D s) :
    ∃ m t, m ≤ work D s.head ∧ Run D (List.replicate m .idleCb) s t ∧ t.head = [] ∧
      ∀ n ∈ s.head, n.ds ∈ t.freed := by
  have hi := hr.inv
  clear hr
  generalize hw : work D s.head = w
  induction w using Nat.strong_induction_on generalizing s with
  | _ w ih =>
    by_cases hne : s.head = []
    · exact ⟨0, s, Nat.zero_le _, .nil, hne, fun n hn => by simp [hne] at hn⟩
    obtain ⟨hlt, hds⟩ := idleCb_progress hi hne
    obtain ⟨m, t, hm, hrun, hend, hfreed⟩ := ih _ (hw ▸ hlt) hi.idleCb rfl
    refine ⟨m + 1, t, hw ▸ by omega, .cons (.idleCb (hi.registered hne)) hrun, hend, fun n hn => ?_⟩
    rcases hds n hn with h | ⟨n', hn', heq⟩
    · exact hrun.freed_mono h
    · exact heq ▸ hfreed n' hn'

/-- Sets of 2000 buckets, cleared up to `count` buckets at a time and stopping at the end. -/
def sampleSets : DenseSets where
  bucketCount _ := 2000
  clearStep _ start count := min (start + count) 2000
  clearStep_le _ _ _ := Nat.min_le_right _ _
  lt_clearStep _ start _ hc hs := Nat.lt_min.2 ⟨by omega, hs⟩

/-- A set of 2000 buckets deleted: 512 buckets cleared at once, the rest in idle time. -/
theorem idleCb_frees_all_oneSet :
    ∃ m t, m ≤ work sampleSets (init.performDeletionAtomic sampleSets 7).head ∧
      Run sampleSets (List.replicate m .idleCb) (init.performDeletionAtomic sampleSets 7) t ∧
      t.head = [] ∧ ∀ n ∈ (init.performDeletionAtomic sampleSets 7).head, n.ds ∈ t.freed :=
  idleCb_frees_all ⟨[.performDeletionAtomic 7], .cons .performDeletionAtomic .nil⟩

end Dragonfly.AsyncDeleter
