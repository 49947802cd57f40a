import Dragonfly.PubSub.ChannelStore
import Mathlib.Data.List.Nodup

/-!
# Publishing: `FetchSubscribers` and `SendMessages`

`PUBLISH` runs `ChannelStore::SendMessages` on the store its thread holds. `FetchSubscribers`
collects one `Subscriber` per entry of the channel's `SubscribeMap`, with an empty pattern, and one
per entry of the map of every pattern that glob-matches the channel, with that pattern; then it
sorts them by `LastKnownThreadId`. `SendMessages` dispatches one task to every thread of the pool
(`DispatchBrief`). The task on thread `idx` finds the first subscriber of its thread with
`lower_bound` and, while the thread id is `idx`, hands every message to each subscriber whose
connection is still there. It returns the number of subscribers.

`GlobMatcher`, `Connection::WeakRef` (`LastKnownThreadId`, `Get`) and `SendPubMessageAsync` are
outside the sources. The glob match, each connection's thread and whether its connection is still
there are parameters, and a delivery is recorded as the thread, the connection and the message
(what the connection is handed with it, the pattern among it, is `Sender.send`'s, in
`PubSub/Sender.lean`). `std::sort` is not stable, so `SendMessages` is stated for every order the sort may leave:
a permutation of what was collected, sorted by thread. `EnsureMemoryBudget` only waits, and is
left out.

## Main theorem

`sendMessages_delivers`: the subscribers hold each (connection, pattern) of the store's relation
once, and `SendMessages` hands every message to every subscriber whose connection is there, once,
on that subscriber's thread, and returns their number.
-/

namespace Dragonfly.PubSub

/-- A `ChannelStore::Subscriber`: the connection, its `LastKnownThreadId`, and the pattern it
matched (empty for a channel). -/
structure Subscriber where
  cntx : Cntx
  thread : Nat
  pattern : String
  deriving DecidableEq, Repr

/-- A message handed to a connection by `SendPubMessageAsync`: the thread that sent it, the
connection and the message. -/
structure Delivery where
  thread : Nat
  cntx : Cntx
  message : String
  deriving DecidableEq, Repr

/-! ## Algorithm -/

section Fetch

variable (threadOf : Cntx → Nat) (globMatch : String → String → Bool)

/-- `Fill(src, pattern, out)`: one subscriber per connection of the map, with its thread. -/
def fill (src : SubscribeMap) (pattern : String) : List Subscriber :=
  src.keys.map fun c => ⟨c, threadOf c, pattern⟩

/-- The first part of `FetchSubscribers(channel)` on the store at `s`: `Fill` of the channel's map
with an empty pattern, when the channel is in `channels_`. -/
def channelSubscribers (mem : Mem) (s : Nat) (channel : String) : List Subscriber :=
  match (mem.maps (mem.stores s).channels).lookup channel with
  | some p => fill threadOf (mem.subs p) ""
  | none => []

/-- The loop of `FetchSubscribers(channel)` over `patterns_`: `Fill` of the map of every pattern
that glob-matches the channel (`GlobMatcher{pat, true}.Matches(channel)`), in the map's order. -/
def patternSubscribers (mem : Mem) (s : Nat) (channel : String) : List Subscriber :=
  ((mem.maps (mem.stores s).patterns).entries.filter fun e => globMatch e.1 channel).flatMap
    fun e => fill threadOf (mem.subs e.2) e.1

/-- `FetchSubscribers(channel)` before its `sort`. -/
def fetchSubscribers (mem : Mem) (s : Nat) (channel : String) : List Subscriber :=
  channelSubscribers threadOf mem s channel ++ patternSubscribers threadOf globMatch mem s channel

end Fetch

/-- The subscribers the task on thread `idx` scans: from `lower_bound(idx)` on the list sorted by
thread, while the thread id is `idx`. -/
def threadBlock (subs : List Subscriber) (idx : Nat) : List Subscriber :=
  (subs.dropWhile fun s => s.thread < idx).takeWhile fun s => s.thread = idx

/-- The task of `SendMessages` on thread `idx`: every subscriber of its block whose connection is
there (`Get()` and `cntx()`) is handed every message. -/
def sendTask (live : Cntx → Bool) (subs : List Subscriber) (messages : List String) (idx : Nat) :
    List Delivery :=
  ((threadBlock subs idx).filter fun s => live s.cntx).flatMap
    fun s => messages.map fun m => ⟨idx, s.cntx, m⟩

/-- `SendMessages` on the sorted subscribers: nothing without subscribers; otherwise the task on
each of the `poolSize` threads, and the number of subscribers. -/
def sendMessages (poolSize : Nat) (live : Cntx → Bool) (subs : List Subscriber)
    (messages : List String) : List Delivery × Nat :=
  if subs = [] then ([], 0)
  else ((List.range poolSize).flatMap (sendTask live subs messages), subs.length)

/-! ## Lemmas -/

section Blocks

/-- On a list sorted by thread whose threads are at least `a`, the subscribers past the leading
ones of thread `a` have threads above `a`. -/
theorem lt_of_mem_dropWhile {a : Nat} : ∀ {l : List Subscriber},
    l.Pairwise (fun x y => x.thread ≤ y.thread) → (∀ x ∈ l, a ≤ x.thread) →
    ∀ x ∈ l.dropWhile (fun s => s.thread = a), a < x.thread
  | [], _, _, _, hx => nomatch hx
  | y :: l, hs, ha, x, hx => by
    rw [List.pairwise_cons] at hs
    by_cases hy : y.thread = a
    · rw [List.dropWhile_cons_of_pos (by simpa using hy)] at hx
      exact lt_of_mem_dropWhile hs.2 (fun z hz => ha z (List.mem_cons_of_mem _ hz)) x hx
    · rw [List.dropWhile_cons_of_neg (by simpa using hy)] at hx
      have hya : a < y.thread := lt_of_le_of_ne (ha y (List.mem_cons_self _ _)) (Ne.symm hy)
      rcases List.mem_cons.1 hx with rfl | hx
      · exact hya
      · exact lt_of_lt_of_le hya (hs.1 x hx)

/-- Past the subscribers of thread `a`, the block of a later thread is the same. -/
theorem threadBlock_dropWhile {l : List Subscriber} {a idx : Nat} (h : a < idx) :
    threadBlock l idx = threadBlock (l.dropWhile fun s => s.thread = a) idx := by
  unfold threadBlock
  conv_lhs => rw [← List.takeWhile_append_dropWhile (fun s => decide (s.thread = a)) l]
  rw [List.dropWhile_append_of_pos fun x hx => by
    have := List.mem_takeWhile_imp hx; simp only [decide_eq_true_eq] at this ⊢; omega]

/-- On a list sorted by thread whose threads are in `[a, a + k)`, the blocks the tasks of the
threads `a, ..., a + k - 1` scan, one after the other, are the list. -/
theorem flatMap_threadBlock : ∀ (k a : Nat) (l : List Subscriber),
    l.Pairwise (fun x y => x.thread ≤ y.thread) → (∀ x ∈ l, a ≤ x.thread ∧ x.thread < a + k) →
    (List.range' a k).flatMap (threadBlock l) = l
  | 0, _, [], _, _ => rfl
  | 0, _, x :: _, _, h => by have := h x (List.mem_cons_self _ _); omega
  | k + 1, a, l, hs, h => by
    have hl : l.dropWhile (fun s => s.thread < a) = l := by
      cases l with
      | nil => rfl
      | cons x _ =>
        exact List.dropWhile_cons_of_neg (by simpa using (h x (List.mem_cons_self _ _)).1)
    rw [List.range'_succ, List.flatMap_cons, List.flatMap_congr fun idx hidx =>
      threadBlock_dropWhile (a := a) (by rw [List.mem_range'_1] at hidx; omega),
      flatMap_threadBlock k (a + 1) _ (hs.sublist (List.dropWhile_sublist _)) fun x hx =>
        ⟨lt_of_mem_dropWhile hs (fun y hy => (h y hy).1) x hx,
          by have := (h x ((List.dropWhile_sublist _).subset hx)).2; omega⟩]
    simp only [threadBlock, hl, Nat.add_one, List.takeWhile_append_dropWhile]

/-- The task on thread `idx` delivers on the thread of each subscriber it finds. -/
theorem sendTask_eq (live : Cntx → Bool) (subs : List Subscriber) (messages : List String) :
    sendTask live subs messages = fun idx =>
      ((threadBlock subs idx).filter fun s => live s.cntx).flatMap
        fun s => messages.map fun m => ⟨s.thread, s.cntx, m⟩ := by
  funext idx
  refine List.flatMap_congr fun s hs => ?_
  have := List.mem_takeWhile_imp (List.mem_filter.1 hs).1
  simp only [decide_eq_true_eq] at this
  rw [this]

/-- `SendMessages` on a list sorted by thread whose threads are threads of the pool: every message
goes, once, to every subscriber whose connection is there, on that subscriber's thread, and the
answer is the number of subscribers. -/
theorem sendMessages_eq {poolSize : Nat} (live : Cntx → Bool) {subs : List Subscriber}
    (hs : subs.Pairwise fun x y => x.thread ≤ y.thread) (ht : ∀ x ∈ subs, x.thread < poolSize)
    (messages : List String) :
    sendMessages poolSize live subs messages =
      ((subs.filter fun x => live x.cntx).flatMap
        fun x => messages.map fun m => ⟨x.thread, x.cntx, m⟩, subs.length) := by
  unfold sendMessages
  split
  · rename_i h; subst h; rfl
  · simp only [sendTask_eq, ← List.filter_flatMap, ← List.flatMap_assoc, List.range_eq_range',
      flatMap_threadBlock poolSize 0 subs hs fun x hx => ⟨Nat.zero_le _, by simpa using ht x hx⟩]

end Blocks

section Fetch

variable {threadOf : Cntx → Nat} {globMatch : String → String → Bool} {mem : Mem} {s : Nat}
  {channel : String}

theorem mem_fill {src : SubscribeMap} {pattern : String} {x : Subscriber} :
    x ∈ fill threadOf src pattern ↔ x.cntx ∈ src ∧ x.thread = threadOf x.cntx ∧ x.pattern = pattern := by
  obtain ⟨c, t, q⟩ := x
  simp only [fill, List.mem_map, Subscriber.mk.injEq, ← AList.mem_keys]
  constructor
  · rintro ⟨c', hc, rfl, rfl, rfl⟩; exact ⟨hc, rfl, rfl⟩
  · rintro ⟨hc, rfl, rfl⟩; exact ⟨c, hc, rfl, rfl, rfl⟩

theorem fill_nodup (src : SubscribeMap) (pattern : String) : (fill threadOf src pattern).Nodup :=
  src.keys_nodup.map fun _ _ h => (Subscriber.mk.inj h).1

/-- The channel's subscribers are the connections of the store's relation for the channel, each
once, with an empty pattern. -/
theorem count_channelSubscribers (x : Subscriber) :
    (channelSubscribers threadOf mem s channel).count x =
      if x.pattern = "" ∧ x.thread = threadOf x.cntx ∧ (mem.rel s false channel x.cntx).isSome
      then 1 else 0 := by
  simp only [channelSubscribers, Mem.rel, Mem.lookupIn, ChannelStore.side, Bool.false_eq_true,
    if_false]
  cases (mem.maps (mem.stores s).channels).lookup channel with
  | none => simp
  | some p =>
    simp only [List.count_eq_of_nodup (fill_nodup _ _), Option.some_bind, AList.lookup_isSome,
      mem_fill]
    exact if_congr ⟨fun ⟨h1, h2, h3⟩ => ⟨h3, h2, h1⟩, fun ⟨h3, h2, h1⟩ => ⟨h1, h2, h3⟩⟩ rfl rfl

/-- The patterns' subscribers are the pairs of the store's pattern relation whose pattern
glob-matches the channel, each once. -/
theorem count_patternSubscribers (x : Subscriber) :
    (patternSubscribers threadOf globMatch mem s channel).count x =
      if x.thread = threadOf x.cntx ∧ globMatch x.pattern channel = true ∧
        (mem.rel s true x.pattern x.cntx).isSome then 1 else 0 := by
  have hnd : (patternSubscribers threadOf globMatch mem s channel).Nodup := by
    refine List.nodup_flatMap.2 ⟨fun e _ => fill_nodup _ _, ?_⟩
    refine (List.nodupKeys_iff_pairwise.1 (mem.maps _).nodupKeys).filter _ |>.imp fun hne => ?_
    exact List.disjoint_left.2 fun _ hx hy =>
      hne ((mem_fill.1 hx).2.2.symm.trans (mem_fill.1 hy).2.2)
  rw [List.count_eq_of_nodup hnd]
  refine if_congr ?_ rfl rfl
  simp only [patternSubscribers, List.mem_flatMap, List.mem_filter, mem_fill, Mem.rel,
    Mem.lookupIn, ChannelStore.side, if_true]
  constructor
  · rintro ⟨⟨q, p⟩, ⟨he, hg⟩, hc, ht, rfl⟩
    refine ⟨ht, hg, ?_⟩
    rw [AList.mem_lookup_iff.2 he, Option.some_bind]
    exact AList.lookup_isSome.2 hc
  · rintro ⟨ht, hg, h⟩
    cases hp : (mem.maps (mem.stores s).patterns).lookup x.pattern with
    | none => rw [hp] at h; cases h
    | some p =>
      rw [hp, Option.some_bind] at h
      exact ⟨⟨x.pattern, p⟩, ⟨AList.mem_lookup_iff.1 hp, hg⟩, AList.lookup_isSome.1 h, ht, rfl⟩

/-- A subscriber `FetchSubscribers` collects carries its connection's thread. -/
theorem thread_of_mem_fetchSubscribers {x : Subscriber}
    (hx : x ∈ fetchSubscribers threadOf globMatch mem s channel) : x.thread = threadOf x.cntx := by
  rcases List.mem_append.1 hx with hx | hx
  · unfold channelSubscribers at hx
    split at hx
    · exact (mem_fill.1 hx).2.1
    · cases hx
  · obtain ⟨_, -, hx⟩ := List.mem_flatMap.1 hx
    exact (mem_fill.1 hx).2.1

end Fetch

/-- `FetchSubscribers` then `SendMessages` on the store at `s`, for every order the `sort` may
leave (a permutation of what was collected, sorted by thread): the subscribers hold once each
connection of the store's relation for the channel, with an empty pattern, and once each
(connection, pattern) of its pattern relation whose pattern glob-matches the channel; and when the
connections live on the pool's threads, `SendMessages` hands every message to every subscriber
whose connection is there, once, on that subscriber's thread, and answers the number of
subscribers. -/
theorem sendMessages_delivers {threadOf : Cntx → Nat} {globMatch : String → String → Bool}
    {mem : Mem} {s : Nat} {channel : String} {poolSize : Nat} (live : Cntx → Bool)
    {subs : List Subscriber} (hperm : subs.Perm (fetchSubscribers threadOf globMatch mem s channel))
    (hsorted : subs.Pairwise fun x y => x.thread ≤ y.thread)
    (hthreads : ∀ c, threadOf c < poolSize) (messages : List String) :
    (∀ x, subs.count x =
      (if x.pattern = "" ∧ x.thread = threadOf x.cntx ∧ (mem.rel s false channel x.cntx).isSome
        then 1 else 0) +
      (if x.thread = threadOf x.cntx ∧ globMatch x.pattern channel = true ∧
        (mem.rel s true x.pattern x.cntx).isSome then 1 else 0)) ∧
    sendMessages poolSize live subs messages =
      ((subs.filter fun x => live x.cntx).flatMap
        fun x => messages.map fun m => ⟨x.thread, x.cntx, m⟩, subs.length) := by
  refine ⟨fun x => ?_, sendMessages_eq live hsorted (fun x hx => ?_) messages⟩
  · rw [hperm.count_eq, fetchSubscribers, List.count_append, count_channelSubscribers,
      count_patternSubscribers]
  · rw [thread_of_mem_fetchSubscribers (hperm.subset hx)]
    exact hthreads _

/-- Connection `7` on thread `1` subscribes to `news`, connection `8` on thread `0` to the pattern
`n*`: `PUBLISH news hi` hands `hi` to `8` on thread `0`, then to `7` on thread `1`. -/
theorem sendMessages_delivers_twoThreads :
    let mem0 : Mem := ⟨fun p => if p = 0 then AList.singleton 7 0 else AList.singleton 8 1, 2,
      fun a => if a = 0 then (∅ : ChannelMap).insert "news" 0 else (∅ : ChannelMap).insert "n*" 1,
      2, fun _ => ⟨0, 1⟩, 1, 0, fun _ => 0⟩
    let subs : List Subscriber := [⟨8, 0, "n*"⟩, ⟨7, 1, ""⟩]
    subs.Perm (fetchSubscribers (· % 2) (fun p _ => p = "n*") mem0 0 "news") ∧
      subs.Pairwise (fun x y => x.thread ≤ y.thread) ∧ (∀ c, c % 2 < 2) ∧
      sendMessages 2 (fun _ => true) subs ["hi"] =
        ([⟨0, 8, "hi"⟩, ⟨1, 7, "hi"⟩], 2) := by
  intro mem0 subs
  have hperm : subs.Perm (fetchSubscribers (· % 2) (fun p _ => p = "n*") mem0 0 "news") := by
    decide
  have hsorted : subs.Pairwise (fun x y => x.thread ≤ y.thread) := by decide
  have ht : ∀ c, c % 2 < 2 := fun c => Nat.mod_lt c (by decide)
  refine ⟨hperm, hsorted, ht, ?_⟩
  rw [(sendMessages_delivers (fun _ => true) hperm hsorted ht ["hi"]).2]
  rfl

end Dragonfly.PubSub
