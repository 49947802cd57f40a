import Mathlib.Algebra.Order.Ring.Nat
import Mathlib.Algebra.Group.Int
import Dragonfly.PubSub.Publish

/-!
# `BuildSender`: the buffer every published message is copied into

`SendMessages` and `UnsubscribeConnectionsFromDeletedSlots` hand their messages to connections
through the functor `BuildSender` returns. It sums the message sizes with `std::accumulate`,
allocates one buffer of `channel.size() + messages_size` bytes, copies the channel and then every
message into it, and keeps a `string_view` of each message. Called on a connection with a pattern,
the functor hands one `PubMessage` per message to `SendPubMessageAsync`, all sharing the buffer.

The seed of `std::accumulate` is the `int` `0`, so its accumulator is an `int`: the lambda adds in
`size_t` and each partial sum is stored back into the `int`. `messages_size` is that `int`
converted to `size_t`, and the buffer's size is a `size_t` sum. The conversions are `toInt` and
`toSizeT`, with explicit powers of two. `new char[n]` throws above what the allocator can give
(`allocMax`, a parameter), and a `memcpy` past the end of the buffer is reported as `overflow`.
Bytes are characters, as everywhere in this model. `PubMessage`'s pattern is a `std::string`
moved into each message in turn; what a moved-from string holds is unspecified by the standard
(libstdc++ leaves it empty), so it is the parameter `movedFrom`.

## Main theorems

`buildSender_copies`: `messages_size` is the sum of the sizes converted to `int` and back, which
is the sum exactly when the sum is below 2^31 or within 2^31 below 2^64. The functor is built
exactly when the allocation succeeds and the channel and the messages fit in the buffer, and it
then hands out the channel and every message as given.

`senderTask_refines_sendTask`: with the functor built, the task of `SendMessages` hands each
connection the channel and the messages that `sendTask` records.
-/

namespace Dragonfly.PubSub

/-- A value converted to `int`: two's complement on 32 bits. -/
def toInt (x : Int) : Int := (x + 2 ^ 31) % 2 ^ 32 - 2 ^ 31

/-- A value converted to `size_t`: modulo 2^64. -/
def toSizeT (x : Int) : Nat := (x % 2 ^ 64).toNat

/-- Why `BuildSender` stops: `new char[]` throws, or a `memcpy` would write past the buffer. -/
inductive SenderError
  | badAlloc
  | overflow
  deriving DecidableEq, Repr

/-- A buffer from `new char[size]`: its size and its bytes, initially what `new` leaves there. -/
structure Buffer where
  size : Nat
  bytes : Nat → Char

/-- The functor `BuildSender` returns, with what it captured: the buffer, the channel's size, the
view (offset and size) of each message, and `unsubscribe`. -/
structure Sender where
  buf : Buffer
  channelSize : Nat
  views : List (Nat × Nat)
  unsubscribe : Bool

/-- What `SendPubMessageAsync` is handed (`PubMessage`): the pattern, what the channel and message
views read, and whether to unsubscribe. -/
structure PubMessage where
  pattern : String
  channel : String
  message : String
  shouldUnsubscribe : Bool
  deriving DecidableEq, Repr

/-! ## Algorithm -/

/-- The lambda `[](int sum, string_view str) { return sum + str.size(); }`: `sum` is converted to
`size_t` for the addition, and the `size_t` sum is returned. -/
def addSize (sum : Int) (str : String) : Nat := (toSizeT sum + str.length) % 2 ^ 64

/-- `size_t messages_size = accumulate(messages.begin(), messages.end(), 0, lambda)`: the seed is
the `int` `0`, so each result of the lambda is stored back into an `int`, and the final `int` is
converted to `size_t`. -/
def messagesSize (messages : List String) : Nat :=
  toSizeT (messages.foldl (fun sum str => toInt (addSize sum str)) 0)

/-- The bytes after `src` is copied to offset `off`. -/
def Buffer.write (b : Buffer) (off : Nat) (src : String) : Buffer :=
  { b with
    bytes := fun i => if off ≤ i ∧ i < off + src.length then src.data.getD (i - off) default
      else b.bytes i }

/-- `memcpy(buf + off, src.data(), src.size())`. -/
def Buffer.memcpy (b : Buffer) (off : Nat) (src : String) : Except SenderError Buffer :=
  if off + src.length ≤ b.size then .ok (b.write off src) else .error .overflow

/-- What a `string_view{buf + off, n}` reads. -/
def Buffer.view (b : Buffer) (off n : Nat) : String :=
  String.mk ((List.range n).map fun i => b.bytes (off + i))

/-- The copy loop of `BuildSender`: each message to `ptr`, its view, then
`ptr += message.size()`. -/
def copyMessages (buf : Buffer) (ptr : Nat) :
    List String → Except SenderError (Buffer × List (Nat × Nat))
  | [] => .ok (buf, [])
  | m :: ms => do
    let buf ← buf.memcpy ptr m
    let (buf, views) ← copyMessages buf (ptr + m.length) ms
    pure (buf, (ptr, m.length) :: views)

/-- `BuildSender(channel, messages, unsubscribe)`, the buffer's bytes from `new` being `init`. -/
def buildSender (allocMax : Nat) (init : Nat → Char) (channel : String) (messages : List String)
    (unsubscribe : Bool) : Except SenderError Sender :=
  let size := (channel.length + messagesSize messages) % 2 ^ 64
  if allocMax < size then .error .badAlloc else do
    let buf ← Buffer.memcpy ⟨size, init⟩ 0 channel
    let (buf, views) ← copyMessages buf channel.length messages
    pure ⟨buf, channel.length, views, unsubscribe⟩

/-- The functor's loop: one message per view, each handed `std::move(pattern)`, so every message
after the first gets the moved-from string. -/
def sendViews (movedFrom : String) (buf : Buffer) (channelView : String) (unsubscribe : Bool) :
    String → List (Nat × Nat) → List PubMessage
  | _, [] => []
  | pattern, v :: vs => ⟨pattern, channelView, buf.view v.1 v.2, unsubscribe⟩ ::
      sendViews movedFrom buf channelView unsubscribe movedFrom vs

/-- The functor called on a connection with its pattern. -/
def Sender.send (movedFrom : String) (s : Sender) (pattern : String) : List PubMessage :=
  sendViews movedFrom s.buf (s.buf.view 0 s.channelSize) s.unsubscribe pattern s.views

/-- The task of `SendMessages` on thread `idx`, with the functor built: `send(ptr, it->pattern)`
for each subscriber of its block whose connection is there. -/
def senderTask (movedFrom : String) (live : Cntx → Bool) (s : Sender) (subs : List Subscriber)
    (idx : Nat) : List (Cntx × PubMessage) :=
  ((threadBlock subs idx).filter fun x => live x.cntx).flatMap
    fun x => (s.send movedFrom x.pattern).map (x.cntx, ·)

/-! ## Lemmas -/

section Accumulate

theorem toInt_toInt_add (x : Int) (n : Nat) : toInt (toInt x + n) = toInt (x + n) := by
  unfold toInt; omega

theorem toInt_addSize (x : Int) (str : String) :
    toInt (addSize x str) = toInt (x + str.length) := by
  unfold toInt addSize toSizeT; omega

/-- The `int` accumulator holds the running sum modulo 2^32, whatever it started from. -/
theorem foldl_addSize (ms : List String) (x : Int) :
    ms.foldl (fun sum str => toInt (addSize sum str)) (toInt x) =
      toInt (x + (ms.map String.length).sum) := by
  induction ms generalizing x with
  | nil => simp
  | cons m ms ih =>
    rw [List.foldl_cons, toInt_addSize, toInt_toInt_add, ih, List.map_cons, List.sum_cons]
    congr 1
    omega

theorem messagesSize_eq (ms : List String) :
    messagesSize ms = toSizeT (toInt (ms.map String.length).sum) := by
  have h := foldl_addSize ms 0
  rw [show toInt 0 = 0 from rfl, Int.zero_add] at h
  rw [messagesSize, h]

/-- The sum survives the two conversions exactly when it is below 2^31, or within 2^31 below
2^64. -/
theorem toSizeT_toInt_eq_iff (n : Nat) :
    toSizeT (toInt n) = n ↔ n < 2 ^ 31 ∨ 2 ^ 64 - 2 ^ 31 ≤ n ∧ n < 2 ^ 64 := by
  unfold toSizeT toInt
  constructor <;> intro h <;> omega

end Accumulate

section Buffer

variable {b : Buffer} {off n : Nat} {src : String}

@[simp] theorem Buffer.write_size : (b.write off src).size = b.size := rfl

/-- The copy reads back at its offset. -/
theorem Buffer.view_write_self : (b.write off src).view off src.length = src := by
  have hlen : ((b.write off src).view off src.length).data.length = src.length := by
    simp only [Buffer.view, List.length_map, List.length_range]
  refine String.ext (List.ext_getElem hlen fun i h₁ h₂ => ?_)
  simp only [Buffer.view, Buffer.write, List.getElem_map, List.getElem_range]
  rw [if_pos ⟨Nat.le_add_right _ _, by omega⟩, Nat.add_sub_cancel_left,
    List.getD_eq_getElem?_getD, List.getElem?_eq_getElem h₂, Option.getD_some]

/-- A copy leaves every view that ends at or before its offset. -/
theorem Buffer.view_write_of_le {off' : Nat} (h : off + n ≤ off') :
    (b.write off' src).view off n = b.view off n :=
  congrArg String.mk <| List.map_congr_left fun i hi => by
    rw [List.mem_range] at hi
    simp only [Buffer.write]
    rw [if_neg (by omega)]

theorem Buffer.memcpy_of_le (h : off + src.length ≤ b.size) :
    b.memcpy off src = .ok (b.write off src) := if_pos h

end Buffer

section Copy

theorem copyMessages_cons_of_le {buf : Buffer} {ptr : Nat} {m : String} (ms : List String)
    (h : ptr + m.length ≤ buf.size) :
    copyMessages buf ptr (m :: ms) = (copyMessages (buf.write ptr m) (ptr + m.length) ms).bind
      fun r => .ok (r.1, (ptr, m.length) :: r.2) := by
  simp only [copyMessages, Buffer.memcpy_of_le h]
  rfl

/-- The copies fit: every message is read back through its view, and the views before `ptr` are
left alone. -/
theorem copyMessages_ok : ∀ (ms : List String) (buf : Buffer) (ptr : Nat),
    ptr + (ms.map String.length).sum ≤ buf.size →
    ∃ buf' views, copyMessages buf ptr ms = .ok (buf', views) ∧ buf'.size = buf.size ∧
      (∀ off n, off + n ≤ ptr → buf'.view off n = buf.view off n) ∧
      views.map (fun v => buf'.view v.1 v.2) = ms
  | [], buf, _, _ => ⟨buf, [], rfl, rfl, fun _ _ _ => rfl, rfl⟩
  | m :: ms, buf, ptr, h => by
    rw [List.map_cons, List.sum_cons] at h
    obtain ⟨buf', views, hc, hsize, hframe, hviews⟩ :=
      copyMessages_ok ms (buf.write ptr m) (ptr + m.length) (by rw [Buffer.write_size]; omega)
    refine ⟨buf', (ptr, m.length) :: views, ?_, hsize, fun off n hn => ?_, ?_⟩
    · rw [copyMessages_cons_of_le ms (by omega), hc]
      rfl
    · rw [hframe off n (by omega), Buffer.view_write_of_le hn]
    · rw [List.map_cons, hviews, hframe ptr m.length le_rfl, Buffer.view_write_self]

/-- The copies do not fit: some `memcpy` would write past the end. -/
theorem copyMessages_overflow : ∀ (ms : List String) (buf : Buffer) (ptr : Nat),
    ptr ≤ buf.size → buf.size < ptr + (ms.map String.length).sum →
    copyMessages buf ptr ms = .error .overflow
  | [], _, _, hp, h => absurd h (by simpa using hp)
  | m :: ms, buf, ptr, _, h => by
    rw [List.map_cons, List.sum_cons] at h
    by_cases hm : ptr + m.length ≤ buf.size
    · rw [copyMessages_cons_of_le ms hm, copyMessages_overflow ms (buf.write ptr m)
        (ptr + m.length) hm (by rw [Buffer.write_size]; omega)]
      rfl
    · simp only [copyMessages, Buffer.memcpy, if_neg hm]
      rfl

end Copy

section Send

variable (movedFrom : String) (buf : Buffer) (channelView : String) (unsubscribe : Bool)

theorem sendViews_contents : ∀ (pattern : String) (vs : List (Nat × Nat)),
    (sendViews movedFrom buf channelView unsubscribe pattern vs).map
        (fun p => (p.channel, p.message, p.shouldUnsubscribe)) =
      vs.map fun v => (channelView, buf.view v.1 v.2, unsubscribe)
  | _, [] => rfl
  | _, _ :: vs => congrArg _ (sendViews_contents movedFrom vs)

end Send

section Build

variable {allocMax : Nat} {init : Nat → Char} {channel : String} {messages : List String}
  {unsubscribe : Bool}

theorem buildSender_of_lt_alloc
    (halloc : allocMax < (channel.length + messagesSize messages) % 2 ^ 64) :
    buildSender allocMax init channel messages unsubscribe = .error .badAlloc :=
  if_pos halloc

theorem buildSender_of_lt_channel
    (halloc : ¬ allocMax < (channel.length + messagesSize messages) % 2 ^ 64)
    (hc : (channel.length + messagesSize messages) % 2 ^ 64 < channel.length) :
    buildSender allocMax init channel messages unsubscribe = .error .overflow := by
  have hm : Buffer.memcpy ⟨(channel.length + messagesSize messages) % 2 ^ 64, init⟩ 0 channel =
      .error .overflow :=
    if_neg (show ¬ 0 + channel.length ≤ (channel.length + messagesSize messages) % 2 ^ 64 by omega)
  simp only [buildSender, if_neg halloc, hm]
  rfl

theorem buildSender_of_le (halloc : ¬ allocMax < (channel.length + messagesSize messages) % 2 ^ 64)
    (hc : channel.length ≤ (channel.length + messagesSize messages) % 2 ^ 64) :
    buildSender allocMax init channel messages unsubscribe =
      (copyMessages (Buffer.write ⟨(channel.length + messagesSize messages) % 2 ^ 64, init⟩ 0
        channel) channel.length messages).bind
        fun r => .ok ⟨r.1, channel.length, r.2, unsubscribe⟩ := by
  have hm : Buffer.memcpy ⟨(channel.length + messagesSize messages) % 2 ^ 64, init⟩ 0 channel =
      .ok (Buffer.write ⟨_, init⟩ 0 channel) :=
    if_pos (show 0 + channel.length ≤ (channel.length + messagesSize messages) % 2 ^ 64 by omega)
  simp only [buildSender, if_neg halloc, hm]
  rfl

/-- What a built functor captured: the channel at offset 0, a view of every message, its
`unsubscribe`, and a buffer of `channel.size() + messages_size` bytes. -/
theorem buildSender_ok {s : Sender}
    (h : buildSender allocMax init channel messages unsubscribe = .ok s) :
    s.buf.view 0 s.channelSize = channel ∧ s.views.map (fun v => s.buf.view v.1 v.2) = messages ∧
      s.unsubscribe = unsubscribe ∧
      s.buf.size = (channel.length + messagesSize messages) % 2 ^ 64 := by
  by_cases halloc : allocMax < (channel.length + messagesSize messages) % 2 ^ 64
  · rw [buildSender_of_lt_alloc halloc] at h
    cases h
  by_cases hc : channel.length ≤ (channel.length + messagesSize messages) % 2 ^ 64
  · rw [buildSender_of_le halloc hc] at h
    let buf : Buffer :=
      Buffer.write ⟨(channel.length + messagesSize messages) % 2 ^ 64, init⟩ 0 channel
    by_cases hfit : channel.length + (messages.map String.length).sum ≤ buf.size
    · obtain ⟨buf', views, hcopy, hsize, hframe, hviews⟩ := copyMessages_ok messages buf _ hfit
      rw [hcopy] at h
      cases h
      exact ⟨(hframe 0 channel.length (by omega)).trans Buffer.view_write_self, hviews, rfl, hsize⟩
    · rw [copyMessages_overflow messages buf _ hc (not_le.1 hfit)] at h
      cases h
  · rw [buildSender_of_lt_channel halloc (not_le.1 hc)] at h
    cases h

/-- A built functor hands out, on every call, the channel and every message as given. -/
theorem send_of_buildSender {s : Sender}
    (h : buildSender allocMax init channel messages unsubscribe = .ok s)
    (movedFrom pattern : String) :
    (s.send movedFrom pattern).map (fun p => (p.channel, p.message, p.shouldUnsubscribe)) =
      messages.map fun m => (channel, m, unsubscribe) := by
  obtain ⟨hch, hviews, hunsub, -⟩ := buildSender_ok h
  rw [Sender.send, sendViews_contents, ← hviews, List.map_map, hch, hunsub]
  rfl

end Build

/-- `BuildSender` on every channel and every list of messages: `messages_size` is the sum of the
sizes converted to `int` and back to `size_t`, which is the sum itself exactly when the sum is
below 2^31 or within 2^31 below 2^64. The buffer has `channel.size() + messages_size` bytes,
modulo 2^64. `new` throws above `allocMax`; otherwise, if the channel and the messages do not fit,
a `memcpy` writes past the end; and if they fit, the functor is built and hands out, on every
call, the channel and every message as given. -/
theorem buildSender_copies (allocMax : Nat) (init : Nat → Char) (channel : String)
    (messages : List String) (unsubscribe : Bool) (movedFrom : String) :
    let total := (messages.map String.length).sum
    let size := (channel.length + messagesSize messages) % 2 ^ 64
    messagesSize messages = toSizeT (toInt total) ∧
      (messagesSize messages = total ↔
        total < 2 ^ 31 ∨ 2 ^ 64 - 2 ^ 31 ≤ total ∧ total < 2 ^ 64) ∧
      (allocMax < size →
        buildSender allocMax init channel messages unsubscribe = .error .badAlloc) ∧
      (size ≤ allocMax → size < channel.length + total →
        buildSender allocMax init channel messages unsubscribe = .error .overflow) ∧
      (size ≤ allocMax → channel.length + total ≤ size →
        ∃ s, buildSender allocMax init channel messages unsubscribe = .ok s ∧
          s.buf.size = size ∧
          ∀ pattern, (s.send movedFrom pattern).map
              (fun p => (p.channel, p.message, p.shouldUnsubscribe)) =
            messages.map fun m => (channel, m, unsubscribe)) := by
  intro total size
  have hsize := messagesSize_eq messages
  refine ⟨hsize, hsize ▸ toSizeT_toInt_eq_iff total, buildSender_of_lt_alloc,
    fun halloc hover => ?_, fun halloc hfit => ?_⟩
  · by_cases hc : channel.length ≤ size
    · rw [buildSender_of_le (not_lt.2 halloc) hc,
        copyMessages_overflow messages (Buffer.write ⟨size, init⟩ 0 channel) _ hc hover]
      rfl
    · exact buildSender_of_lt_channel (not_lt.2 halloc) (not_le.1 hc)
  · obtain ⟨buf', views, hcopy, -⟩ :=
      copyMessages_ok messages (Buffer.write ⟨size, init⟩ 0 channel) _ hfit
    have hok : buildSender allocMax init channel messages unsubscribe =
        .ok ⟨buf', channel.length, views, unsubscribe⟩ := by
      rw [buildSender_of_le (not_lt.2 halloc) (by omega), hcopy]
      rfl
    exact ⟨_, hok, (buildSender_ok hok).2.2.2, send_of_buildSender hok movedFrom⟩

/-- `PUBLISH` of two messages of 2^32 and 1 bytes on channel `ch`: the `int` accumulator wraps to
1, the buffer gets 3 bytes, and copying the first message writes past its end. -/
theorem buildSender_copies_wrapped :
    let big : String := ⟨List.replicate (2 ^ 32) 'a'⟩
    messagesSize [big, "b"] = 1 ∧
      buildSender (2 ^ 40) (fun _ => ' ') "ch" [big, "b"] false = .error .overflow := by
  intro big
  have htotal : ([big, "b"].map String.length).sum = 2 ^ 32 + 1 := by
    rw [List.map_cons, List.map_cons, List.map_nil, List.sum_cons, List.sum_cons, List.sum_nil,
      String.length_mk, List.length_replicate]
    rfl
  obtain ⟨hsize, -, -, hover, -⟩ :=
    buildSender_copies (2 ^ 40) (fun _ => ' ') "ch" [big, "b"] false ""
  rw [htotal] at hsize hover
  have h1 : messagesSize [big, "b"] = 1 := hsize.trans (by decide)
  rw [h1] at hover
  exact ⟨h1, hover (by decide) (by decide)⟩

/-- With the functor built for `SendMessages`, the task on each thread hands every live subscriber
of its block the channel and every message, which is what `sendTask` records. -/
theorem senderTask_refines_sendTask {allocMax : Nat} {init : Nat → Char} {channel : String}
    {messages : List String} {s : Sender}
    (h : buildSender allocMax init channel messages false = .ok s) (movedFrom : String)
    (live : Cntx → Bool) (subs : List Subscriber) (idx : Nat) :
    (senderTask movedFrom live s subs idx).map (fun q => (q.1, q.2.channel, q.2.message)) =
      (sendTask live subs messages idx).map fun d => (d.cntx, channel, d.message) := by
  simp only [senderTask, sendTask, List.map_flatMap]
  refine List.flatMap_congr fun x _ => ?_
  simpa only [List.map_map] using congrArg (List.map fun t => (x.cntx, t.1, t.2.1))
    (send_of_buildSender h movedFrom x.pattern)

end Dragonfly.PubSub
