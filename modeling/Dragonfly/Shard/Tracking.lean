import Mathlib.Data.Finset.Basic

/-!
# Client-side caching: the invalidation messages of a shard

`CLIENT TRACKING` registers a connection in `DbSlice::client_tracking_map_` under each key it
reads (`TrackKey`, in the header). A write of the key (`PostUpdate`) or its deletion
(`PerformDeletionAtomic`) calls `QueueInvalidationTrackingMessageAtomic`, which moves the key's
connections out of `client_tracking_map_` into `pending_send_map_`, merging with a set already
pending there. `SendQueuedInvalidationMessages` loops while `pending_send_map_` is not empty: it
moves the map out and `AwaitBrief` runs `SendQueuedInvalidationMessagesCb` over it on every
thread of the pool; `SendQueuedInvalidationMessagesAsync` does one such pass with `DispatchBrief`.
The callback on thread `t` sends an invalidation of the key to each connection whose weak
reference is not expired, whose `LastKnownThreadId` is `t`, and whose tracking is on. `FlushDb`
clears `client_tracking_map_`.

A `TrackingMap` maps a key to a `ConnectionHashSet`; it is seen here as the set of its
(key, connection) pairs, which is what the callback iterates over. A callback that `AwaitBrief`
or `DispatchBrief` has handed to a thread and that has not run yet is a `BriefCall`; the threads
run them in any order, interleaved with everything else. A connection can migrate to another
thread, close, or switch tracking at any point.

## Main theorems

* `invalidations_le_trackKey`: in every run in which no connection migrates, a connection is sent
  at most one invalidation of a key per `TrackKey` of it, whatever the interleaving of writes,
  flushes and sends.
* `postUpdate_delivers`: a write of a key invalidates every connection tracking it that stays put
  with tracking on, once the pending map and the callbacks have drained.
* `flushDb_drops_tracking`: `FlushDb` of any database forgets every registration, so no later
  write of the key invalidates it.
-/

namespace Dragonfly.Tracking

/-- What the shard reads of a connection through its `facade::Connection::WeakRef`: `IsExpired`,
`LastKnownThreadId`, and whether it has a context whose `tracking_info_` is on. -/
structure Conn where
  expired : Bool
  lastKnownThreadId : Nat
  trackingOn : Bool
  deriving DecidableEq, Repr

/-- The test of `SendQueuedInvalidationMessagesCb` on thread `t`: the connection is not expired,
did not migrate away from `t`, and tracks. -/
def Conn.reached (c : Conn) (t : Nat) : Bool :=
  !c.expired && c.lastKnownThreadId == t && c.trackingOn

/-- `DbSlice::SendQueuedInvalidationMessagesCb(track_map, calling_thread_id)`: the invalidations,
as (key, connection) pairs, that `SendInvalidationMessageAsync` is called with. -/
def sendQueuedInvalidationMessagesCb (conns : Nat → Conn) (trackMap : Finset (String × Nat))
    (callingThreadId : Nat) : Multiset (String × Nat) :=
  (trackMap.filter fun e => (conns e.2).reached callingThreadId).val

/-- The callback a brief dispatch runs on one thread of the pool, over the map it moved out. -/
structure BriefCall where
  trackMap : Finset (String × Nat)
  threadId : Nat
  deriving DecidableEq

/-- A shard's tracking state: the connections, `client_tracking_map_`, `pending_send_map_`, the
callbacks handed to threads and not yet run, and the invalidations sent. -/
structure State where
  conns : Nat → Conn
  clientTrackingMap : Finset (String × Nat)
  pendingSendMap : Finset (String × Nat)
  calls : List BriefCall
  sent : Multiset (String × Nat)

/-- Nothing tracked, pending or sent. -/
def init (conns : Nat → Conn) : State := ⟨conns, ∅, ∅, [], 0⟩

namespace State

variable (s : State)

/-- `DbSlice::TrackKey`: the connection joins the key's set. -/
def trackKey (key : String) (conn : Nat) : State :=
  { s with clientTrackingMap := insert (key, conn) s.clientTrackingMap }

/-- `DbSlice::QueueInvalidationTrackingMessageAtomic(key)`: nothing if the key is not tracked;
otherwise its set leaves `client_tracking_map_` and is emplaced in `pending_send_map_`, or merged
into the set already there. -/
def queueInvalidationTrackingMessageAtomic (key : String) : State :=
  if s.clientTrackingMap.filter (·.1 = key) = ∅ then s
  else
    { s with
      clientTrackingMap := s.clientTrackingMap.filter (·.1 ≠ key)
      pendingSendMap := s.pendingSendMap ∪ s.clientTrackingMap.filter (·.1 = key) }

/-- The tail of `DbSlice::PostUpdate` and of `DbSlice::PerformDeletionAtomic`. -/
def postUpdate (key : String) : State :=
  if s.clientTrackingMap = ∅ then s else s.queueInvalidationTrackingMessageAtomic key

/-- What `DbSlice::FlushDb(db_ind)` does to tracking, for any `db_ind`. -/
def flushDb : State := { s with clientTrackingMap := ∅ }

/-- One pass of the loop of `SendQueuedInvalidationMessages` (or
`SendQueuedInvalidationMessagesAsync`): `pending_send_map_` moves out and each of the `poolSize`
threads gets a callback over it. -/
def sendQueued (poolSize : Nat) : State :=
  { s with
    pendingSendMap := ∅
    calls := s.calls ++ (List.range poolSize).map fun t => ⟨s.pendingSendMap, t⟩ }

/-- A thread runs its callback. -/
def runCall (call : BriefCall) : State :=
  { s with
    calls := s.calls.erase call
    sent := s.sent + sendQueuedInvalidationMessagesCb s.conns call.trackMap call.threadId }

/-- The connection moves to another thread (`LastKnownThreadId` changes). -/
def migrate (conn thread : Nat) : State :=
  { s with conns := Function.update s.conns conn { s.conns conn with lastKnownThreadId := thread } }

/-- The connection closes: its weak reference expires. -/
def close (conn : Nat) : State :=
  { s with conns := Function.update s.conns conn { s.conns conn with expired := true } }

/-- `CLIENT TRACKING ON` or `OFF` on the connection. -/
def setTracking (conn : Nat) (enabled : Bool) : State :=
  { s with conns := Function.update s.conns conn { s.conns conn with trackingOn := enabled } }

end State

/-- What can happen on the shard and around it. -/
inductive Event
  | trackKey (key : String) (conn : Nat)
  | postUpdate (key : String)
  | flushDb (dbInd : Nat)
  | sendQueued
  | runCall (call : BriefCall)
  | migrate (conn thread : Nat)
  | close (conn : Nat)
  | setTracking (conn : Nat) (enabled : Bool)
  deriving DecidableEq

/-- The event changes what the shard reads of connection `conn`. -/
def Event.Changes (conn : Nat) : Event → Prop
  | .migrate c _ => c = conn
  | .close c => c = conn
  | .setTracking c _ => c = conn
  | _ => False

/-- One event: a pass of the send loop runs only on a pending map that is not empty, and a
thread runs only a callback it was handed. -/
inductive Step (poolSize : Nat) : Event → State → State → Prop
  | trackKey {s : State} {key : String} {conn : Nat} :
      Step poolSize (.trackKey key conn) s (s.trackKey key conn)
  | postUpdate {s : State} {key : String} : Step poolSize (.postUpdate key) s (s.postUpdate key)
  | flushDb {s : State} {d : Nat} : Step poolSize (.flushDb d) s s.flushDb
  | sendQueued {s : State} : s.pendingSendMap ≠ ∅ →
      Step poolSize .sendQueued s (s.sendQueued poolSize)
  | runCall {s : State} {call : BriefCall} : call ∈ s.calls →
      Step poolSize (.runCall call) s (s.runCall call)
  | migrate {s : State} {conn thread : Nat} :
      Step poolSize (.migrate conn thread) s (s.migrate conn thread)
  | close {s : State} {conn : Nat} : Step poolSize (.close conn) s (s.close conn)
  | setTracking {s : State} {conn : Nat} {enabled : Bool} :
      Step poolSize (.setTracking conn enabled) s (s.setTracking conn enabled)

/-- A run: the events, one after the other. -/
inductive Run (poolSize : Nat) : List Event → State → State → Prop
  | nil {s : State} : Run poolSize [] s s
  | cons {e : Event} {es : List Event} {s t u : State} :
      Step poolSize e s t → Run poolSize es t u → Run poolSize (e :: es) s u

/-! ### What each operation does -/

theorem Conn.thread_eq_of_reached {c : Conn} {t : Nat} (h : c.reached t = true) :
    c.lastKnownThreadId = t := by
  simp only [Conn.reached, Bool.and_eq_true, Bool.not_eq_true', beq_iff_eq] at h
  exact h.1.2

/-- A callback sends a connection at most one invalidation of a key: the map is a set. -/
theorem count_sendQueuedInvalidationMessagesCb (conns : Nat → Conn) (m : Finset (String × Nat))
    (t : Nat) (x : String × Nat) : (sendQueuedInvalidationMessagesCb conns m t).count x =
      if x ∈ m ∧ (conns x.2).reached t = true then 1 else 0 := by
  rw [sendQueuedInvalidationMessagesCb, Multiset.count_eq_of_nodup (Finset.nodup _)]
  simp [Finset.mem_filter]

namespace State

variable (s : State) {x : String × Nat} {key : String} {conn : Nat}

/-- A write of `key` moves its registrations to the pending map, whether the map was empty or
the key tracked or not. -/
theorem mem_postUpdate_clientTrackingMap :
    x ∈ (s.postUpdate key).clientTrackingMap ↔ x ∈ s.clientTrackingMap ∧ x.1 ≠ key := by
  unfold postUpdate queueInvalidationTrackingMessageAtomic
  split_ifs with h0 h1
  · simp [h0]
  · refine ⟨fun hx => ⟨hx, fun hk => ?_⟩, And.left⟩
    exact (Finset.eq_empty_iff_forall_not_mem.1 h1) x (Finset.mem_filter.2 ⟨hx, hk⟩)
  · simp [Finset.mem_filter]

theorem mem_postUpdate_pendingSendMap : x ∈ (s.postUpdate key).pendingSendMap ↔
    x ∈ s.pendingSendMap ∨ (x ∈ s.clientTrackingMap ∧ x.1 = key) := by
  unfold postUpdate queueInvalidationTrackingMessageAtomic
  split_ifs with h0 h1
  · simp [h0]
  · refine ⟨.inl, fun hx => hx.elim id fun hx => ?_⟩
    exact absurd (Finset.mem_filter.2 hx) (Finset.eq_empty_iff_forall_not_mem.1 h1 x)
  · simp [Finset.mem_filter]

@[simp] theorem postUpdate_conns : (s.postUpdate key).conns = s.conns := by
  unfold postUpdate queueInvalidationTrackingMessageAtomic; split_ifs <;> rfl

@[simp] theorem postUpdate_calls : (s.postUpdate key).calls = s.calls := by
  unfold postUpdate queueInvalidationTrackingMessageAtomic; split_ifs <;> rfl

@[simp] theorem postUpdate_sent : (s.postUpdate key).sent = s.sent := by
  unfold postUpdate queueInvalidationTrackingMessageAtomic; split_ifs <;> rfl

/-- Closing a connection or switching its tracking leaves its thread. -/
@[simp] theorem close_thread (c : Nat) :
    ((s.close c).conns conn).lastKnownThreadId = (s.conns conn).lastKnownThreadId := by
  by_cases h : conn = c <;> simp [close, Function.update_apply, h]

@[simp] theorem setTracking_thread (c : Nat) (b : Bool) :
    ((s.setTracking c b).conns conn).lastKnownThreadId = (s.conns conn).lastKnownThreadId := by
  by_cases h : conn = c <;> simp [setTracking, Function.update_apply, h]

end State

/-! ### At most one invalidation per registration -/

/-- Everything a connection is sent of a key, or may still be sent: the invalidations sent, its
registration, its pending entry, and every callback not run yet, over the key, on the thread the
connection is on. -/
def State.owed (s : State) (key : String) (conn : Nat) : Nat :=
  s.sent.count (key, conn) + (if (key, conn) ∈ s.clientTrackingMap then 1 else 0) +
    (if (key, conn) ∈ s.pendingSendMap then 1 else 0) +
    s.calls.countP fun call =>
      (key, conn) ∈ call.trackMap ∧ (s.conns conn).lastKnownThreadId = call.threadId

section Owed

variable {n : Nat} {e : Event} {evs : List Event} {s t : State} (key : String) (conn : Nat)

/-- The callbacks of one pass owe a connection at most one invalidation: one thread only is the
one it is on. -/
theorem countP_sendQueued_le (m : Finset (String × Nat)) (th : Nat) :
    (((List.range n).map fun t => (⟨m, t⟩ : BriefCall)).countP fun call =>
      (key, conn) ∈ call.trackMap ∧ th = call.threadId) ≤ if (key, conn) ∈ m then 1 else 0 := by
  rw [List.countP_map]
  split_ifs with hm
  · calc _ = (List.range n).count th := by
          rw [List.count]; congr 1; funext t
          rw [Bool.eq_iff_iff, beq_iff_eq]; simp [hm, eq_comm]
      _ ≤ 1 := List.nodup_iff_count_le_one.1 (List.nodup_range n) th
  · simp [hm]

/-- Running a callback moves at most what it owed into the invalidations sent. -/
theorem owed_runCall {call : BriefCall} (h : call ∈ s.calls) :
    (s.runCall call).owed key conn ≤ s.owed key conn := by
  have hperm := (List.perm_cons_erase h).countP_eq fun call : BriefCall =>
    decide ((key, conn) ∈ call.trackMap ∧ (s.conns conn).lastKnownThreadId = call.threadId)
  have hsent : (sendQueuedInvalidationMessagesCb s.conns call.trackMap call.threadId).count
      (key, conn) ≤ if (key, conn) ∈ call.trackMap ∧
        (s.conns conn).lastKnownThreadId = call.threadId then 1 else 0 := by
    rw [count_sendQueuedInvalidationMessagesCb]
    split_ifs with h1 h2
    · exact le_rfl
    · exact absurd ⟨h1.1, Conn.thread_eq_of_reached h1.2⟩ h2
    all_goals omega
  simp only [State.owed, State.runCall, Multiset.count_add, List.countP_cons] at hperm ⊢
  split_ifs at hperm hsent <;> simp_all; omega

/-- Only `TrackKey` adds to what a connection is owed, and by one; a migration is left out. -/
theorem Step.owed_le (h : Step n e s t) (hm : ∀ c th, e ≠ .migrate c th) :
    t.owed key conn ≤ s.owed key conn + if e = .trackKey key conn then 1 else 0 := by
  cases h with
  | @trackKey _ k c =>
    simp only [State.owed, State.trackKey, Finset.mem_insert, Prod.mk.injEq, Event.trackKey.injEq]
    split_ifs <;> simp_all <;> omega
  | @postUpdate _ k =>
    simp only [State.owed, State.mem_postUpdate_clientTrackingMap,
      State.mem_postUpdate_pendingSendMap, State.postUpdate_sent, State.postUpdate_calls,
      State.postUpdate_conns, reduceCtorEq, if_false]
    split_ifs <;> simp_all
  | flushDb => simp only [State.owed, State.flushDb]; split_ifs <;> simp_all
  | sendQueued _ =>
    have := countP_sendQueued_le (n := n) key conn s.pendingSendMap
      (s.conns conn).lastKnownThreadId
    simp only [State.owed, State.sendQueued, List.countP_append, Finset.not_mem_empty, if_false,
      reduceCtorEq]
    omega
  | runCall hc => simpa using owed_runCall key conn hc
  | migrate => exact absurd rfl (hm _ _)
  | close => simp [State.owed, State.close_thread]; rfl
  | setTracking => simp [State.owed, State.setTracking_thread]; rfl

theorem Run.owed_le (h : Run n evs s t) (hm : ∀ c th, .migrate c th ∉ evs) :
    t.owed key conn ≤ s.owed key conn + evs.count (.trackKey key conn) := by
  induction h with
  | nil => simp
  | @cons e _ _ _ _ hs _ ih =>
    have h1 := hs.owed_le key conn fun c th he => hm c th (he ▸ .head _)
    have h2 := ih fun c th hc => hm c th (.tail _ hc)
    rw [List.count_cons]
    split_ifs at h1 <;> simp_all <;> omega

end Owed

theorem invalidations_le_trackKey {n : Nat} {conns : Nat → Conn} {evs : List Event} {t : State}
    (hrun : Run n evs (init conns) t) (hm : ∀ c th, .migrate c th ∉ evs) (key : String)
    (conn : Nat) : t.sent.count (key, conn) ≤ evs.count (.trackKey key conn) := by
  have h := hrun.owed_le key conn hm
  simp only [State.owed, init, Multiset.count_zero, Finset.not_mem_empty, if_false,
    List.countP_nil] at h
  omega

/-- Every connection on thread 0, open, tracking. -/
def sampleConns : Nat → Conn := fun _ => ⟨false, 0, true⟩

/-- The pass a write of `k`, tracked by connection 1, gives a pool of two threads. -/
def samplePass : State :=
  ((((init sampleConns).trackKey "k" 1).postUpdate "k").sendQueued 2)

/-- One registration, one write, one pass over two threads: one invalidation. -/
theorem invalidations_le_trackKey_onePass :
    ((samplePass.runCall ⟨{("k", 1)}, 0⟩).runCall ⟨{("k", 1)}, 1⟩).sent.count ("k", 1) ≤
      [Event.trackKey "k" 1, .postUpdate "k", .sendQueued, .runCall ⟨{("k", 1)}, 0⟩,
        .runCall ⟨{("k", 1)}, 1⟩].count (.trackKey "k" 1) :=
  invalidations_le_trackKey
    (.cons .trackKey (.cons .postUpdate (.cons (.sendQueued (by decide))
      (.cons (.runCall (by decide)) (.cons (.runCall (by decide)) .nil)))))
    (by simp) "k" 1

/-! ### Delivery -/

/-- Since the write, connection `conn` (which the shard reads as `x`) has been sent an
invalidation of `key`, or one is pending, or a callback not run yet over the key is on its
thread. -/
def Owes (base : Nat) (key : String) (conn : Nat) (x : Conn) (s : State) : Prop :=
  s.conns conn = x ∧ base ≤ s.sent.count (key, conn) ∧
    (base < s.sent.count (key, conn) ∨ (key, conn) ∈ s.pendingSendMap ∨
      ∃ call ∈ s.calls, (key, conn) ∈ call.trackMap ∧ call.threadId = x.lastKnownThreadId)

section Owes

variable {n base : Nat} {e : Event} {evs : List Event} {s t : State} {key : String} {conn : Nat}
  {x : Conn}

theorem Owes.runCall {call : BriefCall} (hx : x.reached x.lastKnownThreadId = true)
    (h : Owes base key conn x s) : Owes base key conn x (s.runCall call) := by
  obtain ⟨hconn, hle, h⟩ := h
  have hcount : (s.runCall call).sent.count (key, conn) = s.sent.count (key, conn) +
      if (key, conn) ∈ call.trackMap ∧ (s.conns conn).reached call.threadId = true then 1
      else 0 := by
    simp [State.runCall, count_sendQueuedInvalidationMessagesCb]
  refine ⟨hconn, by omega, ?_⟩
  rcases h with h | h | ⟨c, hc, hk, hth⟩
  · exact .inl (by omega)
  · exact .inr (.inl h)
  · by_cases hcall : c = call
    · subst hcall
      exact .inl (by rw [hcount, if_pos ⟨hk, hconn ▸ hth ▸ hx⟩]; omega)
    · exact .inr (.inr ⟨c, (List.mem_erase_of_ne hcall).2 hc, hk, hth⟩)

theorem Owes.step (hx : x.reached x.lastKnownThreadId = true) (hth : x.lastKnownThreadId < n)
    (h : Step n e s t) (hc : ¬ e.Changes conn) (ho : Owes base key conn x s) :
    Owes base key conn x t := by
  cases h with
  | trackKey => exact ho
  | postUpdate =>
    obtain ⟨h1, h2, h3⟩ := ho
    refine ⟨by simpa using h1, by simpa using h2, ?_⟩
    simp only [State.postUpdate_sent, State.postUpdate_calls, State.mem_postUpdate_pendingSendMap]
    tauto
  | flushDb => exact ho
  | sendQueued _ =>
    obtain ⟨h1, h2, h3 | h3 | h3⟩ := ho
    · exact ⟨h1, h2, .inl h3⟩
    · exact ⟨h1, h2, .inr (.inr ⟨⟨s.pendingSendMap, x.lastKnownThreadId⟩,
        List.mem_append_right _ (List.mem_map.2 ⟨_, List.mem_range.2 hth, rfl⟩), h3, rfl⟩)⟩
    · obtain ⟨c, hc, hk⟩ := h3
      exact ⟨h1, h2, .inr (.inr ⟨c, List.mem_append_left _ hc, hk⟩)⟩
  | runCall _ => exact ho.runCall hx
  | migrate =>
    have hne : _ ≠ conn := hc
    exact ⟨by simp [State.migrate, Function.update_noteq hne.symm, ho.1], ho.2⟩
  | close =>
    have hne : _ ≠ conn := hc
    exact ⟨by simp [State.close, Function.update_noteq hne.symm, ho.1], ho.2⟩
  | setTracking =>
    have hne : _ ≠ conn := hc
    exact ⟨by simp [State.setTracking, Function.update_noteq hne.symm, ho.1], ho.2⟩

theorem Owes.run (hx : x.reached x.lastKnownThreadId = true) (hth : x.lastKnownThreadId < n)
    (h : Run n evs s t) (hc : ∀ e ∈ evs, ¬ e.Changes conn) (ho : Owes base key conn x s) :
    Owes base key conn x t := by
  induction h with
  | nil => exact ho
  | cons hs _ ih =>
    exact ih (fun e he => hc e (.tail _ he)) (ho.step hx hth hs (hc _ (.head _)))

end Owes

theorem postUpdate_delivers {n : Nat} {s t : State} {key : String} {conn : Nat}
    {evs : List Event} (hk : (key, conn) ∈ s.clientTrackingMap)
    (hlive : (s.conns conn).expired = false) (hon : (s.conns conn).trackingOn = true)
    (hth : (s.conns conn).lastKnownThreadId < n) (hrun : Run n (.postUpdate key :: evs) s t)
    (hc : ∀ e ∈ evs, ¬ e.Changes conn) (hdone : t.pendingSendMap = ∅) (hcalls : t.calls = []) :
    s.sent.count (key, conn) < t.sent.count (key, conn) := by
  have hx : (s.conns conn).reached (s.conns conn).lastKnownThreadId = true := by
    simp [Conn.reached, hlive, hon]
  rcases hrun with _ | ⟨(hstep : Step n _ s _), hrest⟩
  cases hstep
  have ho : Owes (s.sent.count (key, conn)) key conn (s.conns conn) (s.postUpdate key) :=
    ⟨by simp, by simp, .inr (.inl ((s.mem_postUpdate_pendingSendMap).2 (.inr ⟨hk, rfl⟩)))⟩
  obtain ⟨-, -, h | h | ⟨c, hc, -⟩⟩ := ho.run hx hth hrest hc
  · exact h
  · simp [hdone] at h
  · simp [hcalls] at hc

/-- The write of `invalidations_le_trackKey_onePass`, delivered. -/
theorem postUpdate_delivers_onePass :
    ((init sampleConns).trackKey "k" 1).sent.count ("k", 1) <
      (((((init sampleConns).trackKey "k" 1).postUpdate "k").sendQueued 2).runCall
        ⟨{("k", 1)}, 0⟩ |>.runCall ⟨{("k", 1)}, 1⟩).sent.count ("k", 1) :=
  postUpdate_delivers (by decide) rfl rfl (by decide)
    (.cons .postUpdate (.cons (.sendQueued (by decide))
      (.cons (.runCall (by decide)) (.cons (.runCall (by decide)) .nil))))
    (by simp [Event.Changes]) (by decide) (by decide)

/-! ### `FlushDb` -/

/-- Connection `conn` is not registered for `key`, not pending, and in no callback not run yet;
it has been sent `base` invalidations of it. -/
def Forgotten (base : Nat) (key : String) (conn : Nat) (s : State) : Prop :=
  (key, conn) ∉ s.clientTrackingMap ∧ (key, conn) ∉ s.pendingSendMap ∧
    (∀ call ∈ s.calls, (key, conn) ∉ call.trackMap) ∧ s.sent.count (key, conn) = base

section Forgotten

variable {n base : Nat} {e : Event} {evs : List Event} {s t : State} {key : String} {conn : Nat}

theorem Forgotten.step (h : Step n e s t) (ht : e ≠ .trackKey key conn)
    (hf : Forgotten base key conn s) : Forgotten base key conn t := by
  obtain ⟨h1, h2, h3, h4⟩ := hf
  cases h with
  | trackKey =>
    refine ⟨?_, h2, h3, h4⟩
    simp only [State.trackKey, Finset.mem_insert, Prod.mk.injEq, not_or]
    exact ⟨fun h => ht (by rw [h.1, h.2]), h1⟩
  | postUpdate =>
    refine ⟨?_, ?_, by simpa using h3, by simpa using h4⟩ <;>
      simp [State.mem_postUpdate_clientTrackingMap, State.mem_postUpdate_pendingSendMap, h1, h2]
  | flushDb => exact ⟨Finset.not_mem_empty _, h2, h3, h4⟩
  | sendQueued _ =>
    refine ⟨h1, Finset.not_mem_empty _, fun call hc => ?_, h4⟩
    rcases List.mem_append.1 hc with hc | hc
    · exact h3 call hc
    · obtain ⟨_, -, rfl⟩ := List.mem_map.1 hc
      exact h2
  | runCall hc =>
    refine ⟨h1, h2, fun call hc' => h3 call (List.mem_of_mem_erase hc'), ?_⟩
    simp [State.runCall, count_sendQueuedInvalidationMessagesCb, h3 _ hc, h4]
  | migrate => exact ⟨h1, h2, h3, h4⟩
  | close => exact ⟨h1, h2, h3, h4⟩
  | setTracking => exact ⟨h1, h2, h3, h4⟩

theorem Forgotten.run (h : Run n evs s t) (ht : .trackKey key conn ∉ evs)
    (hf : Forgotten base key conn s) : Forgotten base key conn t := by
  induction h with
  | nil => exact hf
  | cons hs _ ih =>
    exact ih (fun h => ht (.tail _ h)) (hf.step hs fun h => ht (h ▸ .head _))

end Forgotten

theorem flushDb_drops_tracking {n d : Nat} {s t : State} {key : String} {conn : Nat}
    {evs : List Event} (hp : (key, conn) ∉ s.pendingSendMap)
    (hc : ∀ call ∈ s.calls, (key, conn) ∉ call.trackMap) (hrun : Run n (.flushDb d :: evs) s t)
    (ht : .trackKey key conn ∉ evs) : t.sent.count (key, conn) = s.sent.count (key, conn) := by
  rcases hrun with _ | ⟨(hstep : Step n _ s _), hrest⟩
  cases hstep
  exact (Forgotten.run hrest ht ⟨Finset.not_mem_empty _, hp, hc, rfl⟩).2.2.2

/-- Connection 1 tracks `k`; `FLUSHDB` of database 3; the write of `k` sends nothing. -/
theorem flushDb_drops_tracking_otherDb :
    ((((init sampleConns).trackKey "k" 1).flushDb).postUpdate "k").sent.count ("k", 1) =
      ((init sampleConns).trackKey "k" 1).sent.count ("k", 1) :=
  flushDb_drops_tracking (n := 2) (d := 3) (by decide) (by simp [init, State.trackKey])
    (.cons .flushDb (.cons .postUpdate .nil)) (by simp)

end Dragonfly.Tracking
