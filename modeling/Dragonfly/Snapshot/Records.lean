import Dragonfly.Snapshot.Serializer

/-!
# Whole records under `big_value_mu_`

Without tiered values, `big_value_mu_` is all the serializer needs: `BucketSaveCb`, `OnDbChange` and
`ConsumeJournalChange` write every piece while they hold it, and `PushSerialized` finds no delayed
entry to write without it. A fiber's remaining code then has one of two shapes:

* `Clean`: the fiber does not hold the mutex, and writes only in critical sections
  `lock … unlock` whose body (`Locked`) is whole in-memory records and flushes;
* `Held`: the fiber holds the mutex and is inside a critical section, perhaps in the middle of a
  record that it flushes piece by piece.

`owed` is what the holder writes before it unlocks. Every instruction of every fiber keeps `Inv`:
the stream (what the consumer received, then the buffer) followed by what the holder owes is made of
whole records (`Inv.step`). So under every schedule, the stream is whole records whenever no fiber
holds the mutex, and in particular once every fiber has finished (`records_whole_of_memory`).
A record is split only by a piece written without the mutex, which is what the tiered path of
`PushSerialized` does (`pushSerialized_splits_entry`).
-/

namespace Dragonfly.Serializer

/-! ## Code shapes -/

/-- The body of a critical section without tiered values: records, each written from its first
piece, and flushes. -/
inductive Locked : List Instr → Prop
  | nil : Locked []
  | piece (r : Record) {rest : List Instr} : Locked rest → Locked (.piece r 0 :: rest)
  | flush {rest : List Instr} : Locked rest → Locked (.flush :: rest)

/-- The code of a fiber that does not hold `big_value_mu_`: it writes only inside critical sections
and defers nothing. -/
inductive Clean : List Instr → Prop
  | nil : Clean []
  | critical {body rest : List Instr} : Locked body → Clean rest →
      Clean (.lock :: (body ++ .unlock :: rest))
  | flush {rest : List Instr} : Clean rest → Clean (.flush :: rest)
  | pushSerialized (force : Bool) {rest : List Instr} : Clean rest →
      Clean (.pushSerialized force :: rest)
  | drainDelayed (again : Bool) {rest : List Instr} : Clean rest → Clean (.drainDelayed again :: rest)
  | get {rest : List Instr} : Clean rest → Clean (.get :: rest)

/-- The code of the fiber that holds `big_value_mu_`: pieces and flushes (the first piece may
continue a record the fiber is in the middle of), then `unlock`, then clean code. -/
inductive Held : List Instr → Prop
  | unlock {rest : List Instr} : Clean rest → Held (.unlock :: rest)
  | piece {r : Record} {i : Nat} {rest : List Instr} : i < r.count → Held rest →
      Held (.piece r i :: rest)
  | flush {rest : List Instr} : Held rest → Held (.flush :: rest)

/-- The pieces of `r` from piece `i` on. -/
def Record.piecesFrom (r : Record) (i : Nat) : List Piece :=
  (List.range' i (r.count - i)).map (Piece.mk r)

/-- What a fiber holding the mutex writes before it releases it. -/
def owed : List Instr → List Piece
  | [] => []
  | .unlock :: _ => []
  | .piece r i :: rest => r.piecesFrom i ++ owed rest
  | .lock :: rest | .flush :: rest | .defer _ _ :: rest | .pushSerialized _ :: rest
  | .drainDelayed _ :: rest | .get :: rest => owed rest

/-- The stream as the consumer will have it: what it received, then the buffer. -/
def State.stream (s : State) : List Piece := s.out ++ s.buf

/-- What the fiber holding the mutex, if one does, writes before it releases it. -/
def System.pending (sys : System) : List Piece :=
  match sys.state.holder with
  | some h => owed (sys.fibers[h]?.getD [])
  | none => []

/-- The shape of fiber `j`'s code while `holder` holds the mutex. -/
def Shaped (holder : Option Nat) (j : Nat) (code : List Instr) : Prop :=
  if holder = some j then Held code else Clean code

/-- What every instruction keeps: no delayed entry, every fiber's code shaped, a holder that is a
fiber, and whole records in the stream followed by what the holder owes. -/
structure Inv (sys : System) : Prop where
  noDelayed : sys.state.delayed = []
  shaped : ∀ j code, sys.fibers[j]? = some code → Shaped sys.state.holder j code
  holderLive : ∀ h, sys.state.holder = some h → h < sys.fibers.length
  whole : Whole (sys.state.stream ++ sys.pending)

/-! ## Lemmas -/

theorem Whole.append {s t : List Piece} (hs : Whole s) (ht : Whole t) : Whole (s ++ t) := by
  obtain ⟨rs, rfl⟩ := hs
  obtain ⟨ts, rfl⟩ := ht
  exact ⟨rs ++ ts, (List.flatMap_append rs ts _).symm⟩

theorem Record.piecesFrom_zero (r : Record) : r.piecesFrom 0 = r.pieces := by
  rw [Record.piecesFrom, Record.pieces, List.range_eq_range', Nat.sub_zero]

/-- Writing piece `i` of `r` leaves the pieces from `i + 1` on owed. -/
theorem Record.piecesFrom_succ {r : Record} {i : Nat} (hi : i < r.count) :
    r.piecesFrom i = ⟨r, i⟩ :: r.piecesFrom (i + 1) := by
  rw [Record.piecesFrom, show r.count - i = r.count - (i + 1) + 1 by omega, List.range'_succ]
  rfl

/-- The code a `piece` instruction leaves owes what it owed, less the piece written. -/
theorem owed_piece {r : Record} {i : Nat} (hi : i < r.count) (rest : List Instr) :
    ⟨r, i⟩ :: owed (if i + 1 < r.count then .flush :: .piece r (i + 1) :: rest else rest) =
      owed (.piece r i :: rest) := by
  rw [owed, Record.piecesFrom_succ hi]
  split_ifs with h
  · rfl
  · simp [owed, Record.piecesFrom, show r.count - (i + 1) = 0 by omega]

/-- A critical section owes whole records. -/
theorem Locked.owed_whole {body : List Instr} (h : Locked body) (rest : List Instr) :
    Whole (owed (body ++ .unlock :: rest)) := by
  induction h with
  | nil => exact ⟨[], rfl⟩
  | piece r _ ih =>
    rw [List.cons_append, owed, Record.piecesFrom_zero]
    exact Whole.append ⟨[r], (List.flatMap_singleton _ _).symm⟩ ih
  | flush _ ih => exact ih

/-- A fiber that takes the mutex holds a critical section. -/
theorem Locked.held {body rest : List Instr} (h : Locked body) (hr : Clean rest) :
    Held (body ++ .unlock :: rest) := by
  induction h with
  | nil => exact .unlock hr
  | piece r _ ih => exact .piece (count_pos r) ih
  | flush _ ih => exact .flush ih

theorem Held.ne_nil {code : List Instr} (h : Held code) : code ≠ [] := by
  cases h <;> exact List.cons_ne_nil _ _

/-! ### One instruction

A fiber that does not hold the mutex changes neither the stream nor the holder; the holder keeps
the stream followed by what it owes. -/

section Step

variable {sys : System} {i : Nat} {code : List Instr}

theorem shaped_holder {j : Nat} {c : List Instr} : Shaped (some j) j c ↔ Held c := by
  simp [Shaped]

theorem shaped_none {j : Nat} {c : List Instr} : Shaped none j c ↔ Clean c := by
  simp [Shaped]

theorem shaped_other {holder : Option Nat} {j : Nat} {c : List Instr} (h : holder ≠ some j) :
    Shaped holder j c ↔ Clean c := by
  simp [Shaped, h]

/-- What holds of every fiber's code still holds after fiber `i` gets code that satisfies it. -/
theorem forall_getElem?_set {α : Type} {P : Nat → α → Prop} {l : List α} {a : α}
    (h : ∀ j c, j ≠ i → l[j]? = some c → P j c) (ha : P i a) :
    ∀ j c, (l.set i a)[j]? = some c → P j c := by
  intro j c hj
  rw [List.getElem?_set] at hj
  split_ifs at hj with e
  · obtain rfl := e
    obtain rfl := Option.some_inj.1 hj
    exact ha
  · exact h j c (Ne.symm e) hj

theorem pending_of_holder (hi : sys.state.holder = some i) (hf : sys.fibers[i]? = some code) :
    sys.pending = owed code := by
  simp [System.pending, hi, hf]

/-- A fiber other than the holder leaves what the holder owes unchanged. -/
theorem pending_set (hi : sys.state.holder ≠ some i) (out buf : List Piece) (c : List Instr)
    (run : Option Nat) :
    (System.mk { sys.state with out := out, buf := buf } (sys.fibers.set i c) run).pending =
      sys.pending := by
  simp only [System.pending]
  split
  · next j hj => rw [List.getElem?_set_ne (by rintro rfl; exact hi hj)]
  · rfl

/-- A step of a fiber that does not hold the mutex: it may move the buffer to the consumer. -/
theorem Inv.other (h : Inv sys) (hi : sys.state.holder ≠ some i) {out buf : List Piece}
    {code' : List Instr} (hc : Clean code') (hs : out ++ buf = sys.state.stream)
    {run : Option Nat} :
    Inv ⟨{ sys.state with out := out, buf := buf }, sys.fibers.set i code', run⟩ where
  noDelayed := h.noDelayed
  shaped := forall_getElem?_set (fun j c _ hj => h.shaped j c hj) ((shaped_other hi).2 hc)
  holderLive j hj := (List.length_set ..).symm ▸ h.holderLive j hj
  whole := by
    rw [pending_set hi, State.stream, hs]
    exact h.whole

/-- A step of the holder other than `unlock`: it writes a piece or moves the buffer to the
consumer, and owes that much less. -/
theorem Inv.holder (h : Inv sys) (hf : sys.fibers[i]? = some code) (hi : sys.state.holder = some i)
    {out buf : List Piece} {code' : List Instr} (hc : Held code')
    (hs : out ++ buf ++ owed code' = sys.state.stream ++ owed code) {run : Option Nat} :
    Inv ⟨{ sys.state with out := out, buf := buf }, sys.fibers.set i code', run⟩ where
  noDelayed := h.noDelayed
  shaped := forall_getElem?_set (fun j c _ hj => h.shaped j c hj) (hi ▸ shaped_holder.2 hc)
  holderLive j hj := (List.length_set ..).symm ▸ h.holderLive j hj
  whole := by
    have hw := h.whole
    rw [pending_of_holder hi hf] at hw
    simp only [System.pending, hi, List.getElem?_set_self (h.holderLive i hi), Option.getD_some,
      State.stream, hs]
    exact hw

/-- The holder's `unlock`. -/
theorem Inv.unlock (h : Inv sys) {rest : List Instr}
    (hf : sys.fibers[i]? = some (.unlock :: rest)) (hi : sys.state.holder = some i)
    (hr : Clean rest) {run : Option Nat} :
    Inv ⟨{ sys.state with holder := none }, sys.fibers.set i rest, run⟩ where
  noDelayed := h.noDelayed
  shaped := forall_getElem?_set (fun j c hji hj => by
      have hs := h.shaped j c hj
      rw [hi, shaped_other fun e => hji (Option.some_inj.1 e).symm] at hs
      exact shaped_none.2 hs) (shaped_none.2 hr)
  holderLive := nofun
  whole := by
    have hw := h.whole
    rwa [pending_of_holder hi hf, owed] at hw

/-- A `lock` of the free mutex. -/
theorem Inv.lock (h : Inv sys) {body rest : List Instr}
    (hf : sys.fibers[i]? = some (.lock :: (body ++ .unlock :: rest))) (hi : sys.state.holder = none)
    (hb : Locked body) (hr : Clean rest) {run : Option Nat} :
    Inv ⟨{ sys.state with holder := some i }, sys.fibers.set i (body ++ .unlock :: rest), run⟩ where
  noDelayed := h.noDelayed
  shaped := forall_getElem?_set (fun j c hji hj => by
      have hs := h.shaped j c hj
      rw [hi, shaped_none] at hs
      exact (shaped_other fun e => hji (Option.some_inj.1 e).symm).2 hs)
    (shaped_holder.2 (hb.held hr))
  holderLive j hj := by
    obtain rfl := Option.some_inj.1 hj
    exact (List.length_set ..).symm ▸ (List.getElem?_eq_some_iff.1 hf).1
  whole := by
    have hw := h.whole
    rw [System.pending, hi, List.append_nil] at hw
    rw [pending_of_holder rfl (List.getElem?_set_self (List.getElem?_eq_some_iff.1 hf).1)]
    exact hw.append (hb.owed_whole rest)

variable (serializedLen : List Piece → Nat)

/-- Every instruction of every fiber keeps `Inv`. -/
theorem Inv.exec (h : Inv sys) {ins : Instr} {rest : List Instr}
    (hf : sys.fibers[i]? = some (ins :: rest)) {run : Option Nat} :
    Inv ⟨(exec serializedLen i sys.state ins rest).1,
      sys.fibers.set i (exec serializedLen i sys.state ins rest).2.1, run⟩ := by
  by_cases hi : sys.state.holder = some i
  · have hheld := h.shaped i _ hf
    rw [hi, shaped_holder] at hheld
    cases hheld with
    | unlock hr => exact h.unlock hf hi hr
    | piece hlt hr =>
      refine h.holder hf hi ?_ ?_
      · simp only [Serializer.exec]
        split_ifs
        · exact .flush (.piece ‹_› hr)
        · exact hr
      · simp only [Serializer.exec, State.stream, List.append_assoc, List.singleton_append]
        rw [owed_piece hlt]
    | flush hr =>
      simp only [Serializer.exec]
      split_ifs with hb
      · exact h.holder hf hi hr rfl
      · exact h.holder hf hi hr (by simp [State.stream, owed])
  · have hc := (shaped_other hi).1 (h.shaped i _ hf)
    cases hc with
    | critical hb hr =>
      cases hh : sys.state.holder with
      | none =>
        simp only [Serializer.exec, hh]
        exact h.lock hf hh hb hr
      | some j =>
        simp only [Serializer.exec, hh]
        exact h.other hi (.critical hb hr) rfl
    | flush hr =>
      simp only [Serializer.exec]
      split_ifs with hb
      · exact h.other hi hr rfl
      · exact h.other hi hr (by simp [State.stream])
    | pushSerialized force hr =>
      simp only [Serializer.exec]
      split_ifs
      · exact h.other hi hr rfl
      · exact h.other hi (.flush (.drainDelayed false hr)) rfl
    | drainDelayed again hr =>
      simp only [Serializer.exec, h.noDelayed, List.getLast?_nil]
      exact h.other hi (by cases again <;> [exact hr; exact .flush hr]) rfl
    | get hr => exact h.other hi hr rfl

theorem Inv.step (h : Inv sys) (i : Nat) : Inv (sys.step serializedLen i) := by
  unfold System.step
  split
  · next ins rest hf =>
    split_ifs
    · exact h.exec serializedLen hf
    · exact h
  · exact h

theorem Inv.run (h : Inv sys) (sched : List Nat) : Inv (sys.run serializedLen sched) := by
  induction sched generalizing sys with
  | nil => exact h
  | cons i sched ih => exact ih (h.step serializedLen i)

end Step

theorem Inv.init (fibers : List (List Instr)) (hc : ∀ c ∈ fibers, Clean c) (run : Option Nat) :
    Inv ⟨⟨[], [], [], none⟩, fibers, run⟩ :=
  ⟨rfl, fun _ c hj => shaped_none.2 (hc c (List.getElem?_mem hj)), nofun, ⟨[], rfl⟩⟩

/-- When no fiber holds the mutex, the stream is whole records. -/
theorem Inv.whole_of_free {sys : System} (h : Inv sys) (hfree : sys.state.holder = none) :
    Whole sys.state.stream := by
  have hw := h.whole
  rwa [System.pending, hfree, List.append_nil] at hw

/-- A fiber that has finished holds no mutex. -/
theorem Inv.free_of_done {sys : System} (h : Inv sys) (hdone : ∀ c ∈ sys.fibers, c = []) :
    sys.state.holder = none := by
  cases hh : sys.state.holder with
  | none => rfl
  | some j =>
    have hc := List.getElem?_eq_getElem (h.holderLive j hh)
    have hheld := h.shaped j _ hc
    rw [hh, shaped_holder] at hheld
    exact absurd (hdone _ (List.getElem?_mem hc)) hheld.ne_nil

/-! ### The source's procedures -/

theorem Locked.serializeBucket {b : List (String × Value)} (hb : ∀ e ∈ b, ∃ n, e.2 = .memory n) :
    Locked (serializeBucket b) := by
  induction b with
  | nil => exact .nil
  | cons e b ih =>
    obtain ⟨n, hn⟩ := hb e (List.mem_cons_self _ _)
    obtain ⟨k, v⟩ := e
    subst hn
    exact .piece _ (ih fun e he => hb e (List.mem_cons_of_mem _ he))

/-- `BucketSaveCb` (and `OnDbChange`) on a bucket of in-memory values. -/
theorem Clean.bucketSaveCb {b : List (String × Value)} {rest : List Instr}
    (hb : ∀ e ∈ b, ∃ n, e.2 = .memory n) (hr : Clean rest) : Clean (bucketSaveCb b ++ rest) := by
  simp only [Serializer.bucketSaveCb, List.cons_append, List.append_assoc, List.singleton_append]
  exact .critical (Locked.serializeBucket hb) hr

theorem Clean.consumeJournalChange (k : String) {rest : List Instr} (hr : Clean rest) :
    Clean (consumeJournalChange k ++ rest) :=
  .critical (.piece _ .nil) hr

theorem Clean.throttleIfNeeded {rest : List Instr} (hr : Clean rest) :
    Clean (throttleIfNeeded ++ rest) :=
  .pushSerialized false hr

/-! ## Main theorem -/

variable (serializedLen : List Piece → Nat)

/-- Fibers that write only under `big_value_mu_` and defer nothing, run under any schedule: the
stream followed by what the mutex's holder is yet to write is whole records, and once every fiber
has finished, the stream is. -/
theorem records_whole_of_memory (fibers : List (List Instr)) (hc : ∀ c ∈ fibers, Clean c)
    (sched : List Nat) :
    let sys := (System.mk ⟨[], [], [], none⟩ fibers none).run serializedLen sched
    Whole (sys.state.stream ++ sys.pending) ∧
      ((∀ c ∈ sys.fibers, c = []) → Whole sys.state.stream) := by
  intro sys
  have h : Inv sys := (Inv.init fibers hc none).run serializedLen sched
  exact ⟨h.whole, fun hdone => h.whole_of_free (h.free_of_done hdone)⟩

/-- The snapshot fiber saves a bucket with a value of two pieces and throttles, while a mutation
fiber's `OnDbChange` saves another bucket and its journal record follows. -/
theorem records_whole_of_memory_twoFibers :
    let fibers := [bucketSaveCb [("a", .memory 1)] ++ throttleIfNeeded,
      onDbChange [("b", .memory 0)] ++ consumeJournalChange "b"]
    (∀ c ∈ fibers, Clean c) ∧
      let sys := (System.mk ⟨[], [], [], none⟩ fibers none).run (fun _ => 0)
        [0, 0, 1, 0, 0, 0, 0, 1, 1, 1, 1, 1, 1]
      Whole (sys.state.stream ++ sys.pending) ∧
        ((∀ c ∈ sys.fibers, c = []) → Whole sys.state.stream) := by
  intro fibers
  have hm : ∀ (k : String) (n : Nat), ∀ e ∈ [(k, Value.memory n)], ∃ m, e.2 = .memory m := by
    simp
  have hc : ∀ c ∈ fibers, Clean c := by
    simp only [fibers, List.mem_cons, List.mem_singleton, List.not_mem_nil, or_false]
    rintro c (rfl | rfl)
    · exact .bucketSaveCb (hm "a" 1) (.throttleIfNeeded .nil)
    · exact .bucketSaveCb (hm "b" 0) (.consumeJournalChange "b" .nil)
  exact ⟨hc, records_whole_of_memory (fun _ => 0) fibers hc _⟩

end Dragonfly.Serializer
