import Mathlib.Data.List.Basic

/-!
# Ordered delivery of `FlushSerialized`

Several fibers of a shard thread call `SliceSnapshot::FlushSerialized`: the traversal fiber,
mutation fibers through `flush_fun`, and every caller of `PushSerialized`. Each call cuts the
serializer's buffer (`FlushToSink`) and takes an id `rec_id_++`, both with no suspension in
between. It then waits on `seq_cond_` until `id == last_pushed_id_ + 1`, hands the chunk to
`consumer_->ConsumeData` (a blocking point), and sets `last_pushed_id_ = id` before
`notify_all`.

Every fiber is `idle`, `waiting` with its id and chunk, or `consuming`. An event is a write into
the buffer, or one step of one fiber. Any interleaving of events is a run. `cuts` records the
chunks in the order `FlushToSink` cut them.

## Main theorems

* `flushSerialized_in_order`: from `rec_id_ = last_pushed_id_ + 1`, under every interleaving,
  `ConsumeData` receives consecutive ids from `last_pushed_id_ + 1`, and its chunks are the cut
  chunks in the order they were cut, none of them empty. The `DCHECK_EQ` after `ConsumeData`
  holds, and while a fiber is inside `FlushSerialized` some fiber can move. Once no fiber is
  inside, every cut chunk has been consumed exactly once. This is what the serializer model
  (`Snapshot/Serializer.lean`) relies on when it takes a flush and its push as one step.

## Lemmas

`Inv` is the bookkeeping that ties the ids to the chunks. Each event keeps it (`Inv.write`,
`Inv.flush`, `Inv.wake`, `Inv.consumed`), so every run keeps it (`Inv.run`).
-/

namespace Dragonfly.Flush

variable {β : Type}

/-- Where a fiber is in `FlushSerialized`. -/
inductive Stage (β : Type)
  | idle
  /-- Blocked in `seq_cond_.wait`, with its id and the chunk `FlushToSink` cut. -/
  | waiting (id : Nat) (chunk : List β)
  /-- Inside `consumer_->ConsumeData`. -/
  | consuming (id : Nat)
  deriving DecidableEq, Repr

/-- The state of the flush protocol: `serializer_`'s buffer, `rec_id_`, `last_pushed_id_`, each
fiber's stage, the calls of `ConsumeData` with their ids, and the chunks cut so far. -/
structure State (β : Type) where
  buf : List β
  recId : Nat
  lastPushed : Nat
  fibers : Nat → Stage β
  consumed : List (Nat × List β)
  cuts : List (List β)

/-- What can happen next: a write into the serializer (`SaveEntry`, `WriteJournalEntry`), or one
step of fiber `f` in `FlushSerialized`. -/
inductive Event (β : Type)
  | write (xs : List β)
  /-- The call: `FlushToSink`, then `rec_id_++` for a non-empty chunk. -/
  | flush (f : Nat)
  /-- `seq_cond_` lets the fiber through, and `ConsumeData` starts. -/
  | wake (f : Nat)
  /-- `ConsumeData` returns: `last_pushed_id_ = id`, `notify_all`. -/
  | consumed (f : Nat)

/-- One event, `none` when the fiber cannot take that step. -/
def step (s : State β) : Event β → Option (State β)
  | .write xs => some { s with buf := s.buf ++ xs }
  | .flush f =>
    match s.fibers f with
    | .idle =>
      if s.buf.isEmpty then some s
      else
        some { s with
          buf := []
          recId := s.recId + 1
          fibers := Function.update s.fibers f (.waiting s.recId s.buf)
          cuts := s.cuts ++ [s.buf] }
    | _ => none
  | .wake f =>
    match s.fibers f with
    | .waiting id chunk =>
      if id = s.lastPushed + 1 then
        some { s with
          fibers := Function.update s.fibers f (.consuming id)
          consumed := s.consumed ++ [(id, chunk)] }
      else none
    | _ => none
  | .consumed f =>
    match s.fibers f with
    | .consuming id =>
      some { s with lastPushed := id, fibers := Function.update s.fibers f .idle }
    | _ => none

/-- A run of events, `none` if one of them cannot happen. -/
def run : List (Event β) → State β → Option (State β)
  | [], s => some s
  | e :: es, s => (step s e).bind (run es)

/-- The start of a snapshot: `rec_id_ = last_pushed_id_ + 1`, no fiber in `FlushSerialized`. -/
def start (base : Nat) (buf : List β) : State β := ⟨buf, base + 1, base, fun _ => .idle, [], []⟩

/-- The bookkeeping of the protocol, for ids counted from `base + 1`. Chunk `j` of `cuts` has id
`base + 1 + j`. The first `consumed.length` chunks went to `ConsumeData` in order. Each later one
is held by exactly one waiting fiber. The fiber inside `ConsumeData`, if any, holds the last
consumed id. -/
structure Inv (base : Nat) (s : State β) : Prop where
  ids : s.consumed.map Prod.fst = List.range' (base + 1) s.consumed.length
  chunks : s.consumed.map Prod.snd = s.cuts.take s.consumed.length
  cuts_ne : ∀ c ∈ s.cuts, c ≠ []
  recId_eq : s.recId = base + 1 + s.cuts.length
  consumed_le : s.consumed.length ≤ s.cuts.length
  waiting : ∀ f id chunk, s.fibers f = .waiting id chunk →
    ∃ j, id = base + 1 + j ∧ s.consumed.length ≤ j ∧ s.cuts[j]? = some chunk
  waiting_inj : ∀ f g id c c', s.fibers f = .waiting id c → s.fibers g = .waiting id c' → f = g
  held : ∀ j, s.consumed.length ≤ j → j < s.cuts.length → ∃ f c, s.fibers f = .waiting (base + 1 + j) c
  consuming : ∀ f id, s.fibers f = .consuming id →
    id = base + s.consumed.length ∧ s.lastPushed + 1 = id ∧
      ∀ g id', s.fibers g = .consuming id' → g = f
  lastPushed_eq : (∀ f id, s.fibers f ≠ .consuming id) → s.lastPushed = base + s.consumed.length

/-! ## Lemmas -/

/-- A fiber found in stage `x` after the stage of fiber `f` was set to `v ≠ x` is not `f`, and was in
stage `x` before. -/
theorem eq_of_update_eq {fib : Nat → Stage β} {f g : Nat} {v x : Stage β}
    (h : Function.update fib f v g = x) (hx : v ≠ x) : g ≠ f ∧ fib g = x := by
  by_cases hgf : g = f
  · subst hgf
    exact absurd ((Function.update_same _ _ _).symm.trans h) hx
  · exact ⟨hgf, (Function.update_noteq hgf _ _).symm.trans h⟩

namespace Inv

variable {base : Nat} {s : State β} {f : Nat}

theorem init (base : Nat) (buf : List β) : Inv base (start base buf) where
  ids := rfl
  chunks := rfl
  cuts_ne _ h := by cases h
  recId_eq := rfl
  consumed_le := le_rfl
  waiting _ _ _ h := by cases h
  waiting_inj _ _ _ _ _ h := by cases h
  held _ _ h := by cases h
  consuming _ _ h := by cases h
  lastPushed_eq _ := rfl

/-- A waiting fiber's id was taken: it is below `rec_id_`. -/
theorem waiting_lt (h : Inv base s) {g id : Nat} {c : List β} (hg : s.fibers g = .waiting id c) :
    id < s.recId := by
  obtain ⟨j, rfl, -, hc⟩ := h.waiting g id c hg
  have := (List.getElem?_eq_some_iff.1 hc).1
  rw [h.recId_eq]
  omega

theorem write (h : Inv base s) (xs : List β) : Inv base { s with buf := s.buf ++ xs } :=
  ⟨h.1, h.2, h.3, h.4, h.5, h.6, h.7, h.8, h.9, h.10⟩

/-- `FlushSerialized` on a non-empty buffer: the chunk is cut with the next id, and the fiber
waits. -/
theorem flush (h : Inv base s) (hf : s.fibers f = .idle) (hne : s.buf ≠ []) :
    Inv base { s with
      buf := []
      recId := s.recId + 1
      fibers := Function.update s.fibers f (.waiting s.recId s.buf)
      cuts := s.cuts ++ [s.buf] } where
  ids := h.ids
  chunks := by
    show _ = (s.cuts ++ [s.buf]).take _
    rw [List.take_append_of_le_length h.consumed_le]
    exact h.chunks
  cuts_ne c hc := by
    rcases List.mem_append.1 hc with hc | hc
    · exact h.cuts_ne c hc
    · exact List.mem_singleton.1 hc ▸ hne
  recId_eq := by
    show s.recId + 1 = _
    simp [h.recId_eq]
    omega
  consumed_le := by
    show _ ≤ (s.cuts ++ [s.buf]).length
    simpa using Nat.le_succ_of_le h.consumed_le
  waiting g id c hg := by
    simp only [Function.update_apply] at hg
    split_ifs at hg
    · cases hg
      exact ⟨s.cuts.length, h.recId_eq, h.consumed_le, List.getElem?_concat_length _ _⟩
    · obtain ⟨j, rfl, hj, hc⟩ := h.waiting g id c hg
      exact ⟨j, rfl, hj, by rwa [List.getElem?_append_left (List.getElem?_eq_some_iff.1 hc).1]⟩
  waiting_inj g g' id c c' hg hg' := by
    simp only [Function.update_apply] at hg hg'
    split_ifs at hg hg' with h1 h2 h2
    · exact h1.trans h2.symm
    · cases hg
      exact absurd (h.waiting_lt hg') (lt_irrefl _)
    · cases hg'
      exact absurd (h.waiting_lt hg) (lt_irrefl _)
    · exact h.waiting_inj g g' id c c' hg hg'
  held j hj hlt := by
    simp only [List.length_append, List.length_singleton] at hlt
    by_cases hjc : j = s.cuts.length
    · exact ⟨f, s.buf, (Function.update_same _ _ _).trans (by rw [h.recId_eq, hjc])⟩
    · obtain ⟨g, c, hg⟩ := h.held j hj (by omega)
      have hgf : g ≠ f := fun hgf => by rw [hgf, hf] at hg; cases hg
      exact ⟨g, c, (Function.update_noteq hgf _ _).trans hg⟩
  consuming g id hg := by
    obtain ⟨h1, h2, h3⟩ := h.consuming g id (eq_of_update_eq hg nofun).2
    exact ⟨h1, h2, fun g' id' hg' => h3 g' id' (eq_of_update_eq hg' nofun).2⟩
  lastPushed_eq hno := h.lastPushed_eq fun g id hg => by
    by_cases hgf : g = f
    · rw [hgf, hf] at hg
      cases hg
    · exact hno g id ((Function.update_noteq hgf _ _).trans hg)

/-- `seq_cond_` lets through the fiber whose id follows `last_pushed_id_`: it holds the first
chunk not consumed, and no fiber is inside `ConsumeData`. -/
theorem wake (h : Inv base s) {id : Nat} {chunk : List β} (hf : s.fibers f = .waiting id chunk)
    (hid : id = s.lastPushed + 1) :
    Inv base { s with
      fibers := Function.update s.fibers f (.consuming id)
      consumed := s.consumed ++ [(id, chunk)] } := by
  have hnc : ∀ g id', s.fibers g ≠ .consuming id' := fun g id' hg => by
    obtain ⟨h1, h2, -⟩ := h.consuming g id' hg
    obtain ⟨j, hj, hjn, -⟩ := h.waiting f id chunk hf
    omega
  have hlp := h.lastPushed_eq hnc
  obtain ⟨j, hj, hjn, hc⟩ := h.waiting f id chunk hf
  obtain rfl : j = s.consumed.length := by omega
  have hlen := (List.getElem?_eq_some_iff.1 hc).1
  -- every other waiting fiber holds a later chunk
  have hother : ∀ g id' c, s.fibers g = .waiting id' c → g ≠ f → base + 1 + s.consumed.length ≠ id' :=
    fun g id' c hg hgf he => hgf (h.waiting_inj g f id' c chunk hg (by rw [← he, ← hj]; exact hf))
  exact {
    ids := by simp [h.ids, List.range'_concat, hj, Nat.add_comm]
    chunks := by rw [List.map_append, h.chunks, List.length_append, List.length_singleton,
      List.take_succ, hc]; rfl
    cuts_ne := h.cuts_ne
    recId_eq := h.recId_eq
    consumed_le := by simpa using hlen
    waiting := fun g id' c hg => by
      obtain ⟨hgf, hg⟩ := eq_of_update_eq hg nofun
      obtain ⟨j', rfl, hj', hc'⟩ := h.waiting g _ c hg
      have := hother g _ c hg hgf
      exact ⟨j', rfl, by simp only [List.length_append, List.length_singleton]; omega, hc'⟩
    waiting_inj := fun g g' id' c c' hg hg' =>
      h.waiting_inj g g' id' c c' (eq_of_update_eq hg nofun).2 (eq_of_update_eq hg' nofun).2
    held := fun j' hj' hlt => by
      simp only [List.length_append, List.length_singleton] at hj'
      obtain ⟨g, c, hg⟩ := h.held j' (by omega) hlt
      have hgf : g ≠ f := fun hgf => by
        rw [hgf, hf] at hg
        cases hg
        omega
      exact ⟨g, c, (Function.update_noteq hgf _ _).trans hg⟩
    consuming := fun g id' hg => by
      simp only [Function.update_apply] at hg
      split_ifs at hg with hgf
      · cases hg
        refine ⟨by simp only [List.length_append, List.length_singleton]; omega, hid.symm,
          fun g' id'' hg' => ?_⟩
        simp only [Function.update_apply] at hg'
        split_ifs at hg' with hg'f
        · exact hg'f.trans hgf.symm
        · exact absurd hg' (hnc g' id'')
      · exact absurd hg (hnc g id')
    lastPushed_eq := fun hno => absurd (Function.update_same _ _ _) (hno f id) }

/-- `ConsumeData` returns: `last_pushed_id_` becomes the id the fiber consumed. -/
theorem consumed (h : Inv base s) {id : Nat} (hf : s.fibers f = .consuming id) :
    Inv base { s with lastPushed := id, fibers := Function.update s.fibers f .idle } := by
  obtain ⟨h1, -, h3⟩ := h.consuming f id hf
  have hne : ∀ g id' c, s.fibers g = .waiting id' c → g ≠ f := fun g id' c hg hgf => by
    rw [hgf, hf] at hg
    cases hg
  exact {
    ids := h.ids
    chunks := h.chunks
    cuts_ne := h.cuts_ne
    recId_eq := h.recId_eq
    consumed_le := h.consumed_le
    waiting := fun g id' c hg => h.waiting g id' c (eq_of_update_eq hg nofun).2
    waiting_inj := fun g g' id' c c' hg hg' =>
      h.waiting_inj g g' id' c c' (eq_of_update_eq hg nofun).2 (eq_of_update_eq hg' nofun).2
    held := fun j hj hlt => by
      obtain ⟨g, c, hg⟩ := h.held j hj hlt
      exact ⟨g, c, (Function.update_noteq (hne g _ c hg) _ _).trans hg⟩
    consuming := fun g id' hg =>
      absurd (h3 g id' (eq_of_update_eq hg nofun).2) (eq_of_update_eq hg nofun).1
    lastPushed_eq := fun _ => h1 }

theorem step (h : Inv base s) {e : Event β} {s' : State β} (hs : Dragonfly.Flush.step s e = some s') :
    Inv base s' := by
  cases e with
  | write xs => exact Option.some.inj hs ▸ h.write xs
  | flush f =>
    simp only [Dragonfly.Flush.step] at hs
    split at hs
    · split_ifs at hs with hb
      · exact Option.some.inj hs ▸ h
      · exact Option.some.inj hs ▸ h.flush ‹_› (by simpa using hb)
    · cases hs
  | wake f =>
    simp only [Dragonfly.Flush.step] at hs
    split at hs
    · split_ifs at hs with hid
      exact Option.some.inj hs ▸ h.wake ‹_› hid
    · cases hs
  | consumed f =>
    simp only [Dragonfly.Flush.step] at hs
    split at hs
    · exact Option.some.inj hs ▸ h.consumed ‹_›
    · cases hs

theorem run (h : Inv base s) {es : List (Event β)} {s' : State β}
    (hr : Dragonfly.Flush.run es s = some s') : Inv base s' := by
  induction es generalizing s with
  | nil => exact Option.some.inj hr ▸ h
  | cons e es ih =>
    obtain ⟨t, ht, hr⟩ := Option.bind_eq_some.1 hr
    exact ih (h.step ht) hr

/-- No deadlock: while a fiber is inside `FlushSerialized`, the fiber inside `ConsumeData` can
return, or else the holder of the first chunk not consumed can be woken. -/
theorem progress (h : Inv base s) (hf : s.fibers f ≠ .idle) :
    ∃ g, (Dragonfly.Flush.step s (.wake g)).isSome ∨ (Dragonfly.Flush.step s (.consumed g)).isSome := by
  by_cases hc : ∃ g id, s.fibers g = .consuming id
  · obtain ⟨g, id, hg⟩ := hc
    exact ⟨g, .inr (by simp [Dragonfly.Flush.step, hg])⟩
  · push_neg at hc
    have hlp := h.lastPushed_eq hc
    cases hff : s.fibers f with
    | idle => exact absurd hff hf
    | consuming id => exact absurd hff (hc f id)
    | waiting id c =>
      obtain ⟨j, -, hj, hcj⟩ := h.waiting f id c hff
      have := (List.getElem?_eq_some_iff.1 hcj).1
      obtain ⟨g, c', hg⟩ := h.held s.consumed.length le_rfl (by omega)
      exact ⟨g, .inl (by simp [Dragonfly.Flush.step, hg, hlp]; omega)⟩

/-- Once no fiber is inside `FlushSerialized`, every chunk cut was consumed. -/
theorem consumed_eq_cuts (h : Inv base s) (hidle : ∀ f, s.fibers f = .idle) :
    s.consumed.map Prod.snd = s.cuts := by
  have hlen : s.consumed.length = s.cuts.length := by
    refine le_antisymm h.consumed_le (not_lt.1 fun hlt => ?_)
    obtain ⟨g, c, hg⟩ := h.held s.consumed.length le_rfl hlt
    rw [hidle g] at hg
    cases hg
  rw [h.chunks, hlen, List.take_length]

end Inv

/-! ## Main theorems -/

/-- From `rec_id_ = last_pushed_id_ + 1`, under every interleaving of writes and of fibers in
`FlushSerialized`: `ConsumeData` receives the ids `last_pushed_id_ + 1, + 2, …` in order, and its
chunks are the chunks `FlushToSink` cut, in the order they were cut, none of them empty. The
`DCHECK_EQ(last_pushed_id_ + 1, id)` after `ConsumeData` holds. While a fiber is inside
`FlushSerialized` some fiber can move, and once none is, every cut chunk was consumed exactly
once. -/
theorem flushSerialized_in_order {base : Nat} {buf : List β} {evs : List (Event β)} {s : State β}
    (hr : run evs (start base buf) = some s) :
    s.consumed.map Prod.fst = List.range' (base + 1) s.consumed.length ∧
    s.consumed.map Prod.snd = s.cuts.take s.consumed.length ∧
    (∀ c ∈ s.cuts, c ≠ []) ∧
    (∀ f id, s.fibers f = .consuming id → s.lastPushed + 1 = id) ∧
    ((∃ f, s.fibers f ≠ .idle) → ∃ g, (step s (.wake g)).isSome ∨ (step s (.consumed g)).isSome) ∧
    ((∀ f, s.fibers f = .idle) → s.consumed.map Prod.snd = s.cuts) := by
  have h := (Inv.init base buf).run hr
  exact ⟨h.ids, h.chunks, h.cuts_ne, fun f id hf => (h.consuming f id hf).2.1,
    fun ⟨_, hf⟩ => h.progress hf, h.consumed_eq_cuts⟩

/-- Fiber `0` cuts `[1]` with id `6`, fiber `1` cuts `[2]` with id `7` and waits behind it. -/
theorem flushSerialized_in_order_twoFibers :
    let evs : List (Event Nat) :=
      [.write [1], .flush 0, .write [2], .flush 1, .wake 0, .consumed 0, .wake 1, .consumed 1]
    ∃ s, run evs (start 5 []) = some s ∧ s.consumed = [(6, [1]), (7, [2])] ∧
      s.consumed.map Prod.fst = List.range' 6 s.consumed.length ∧
      s.consumed.map Prod.snd = s.cuts.take s.consumed.length := by
  intro evs
  refine ⟨_, rfl, rfl, ?_⟩
  exact ⟨(@flushSerialized_in_order Nat 5 [] evs _ rfl).1,
    (@flushSerialized_in_order Nat 5 [] evs _ rfl).2.1⟩

end Dragonfly.Flush
