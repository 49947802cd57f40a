import Dragonfly.Strings.Ops
import Dragonfly.Strings.Set
import Dragonfly.Strings.MultiKey

/-!
# `GETRANGE` and `SETRANGE`

`StringFamily::GetRange` parses its bounds as `int32_t` and runs `OpGetRange`, whose `read` lambda
takes `int32_t strlen = slice.size()`, counts negative bounds from the end (clamped at `0`),
clamps a non-negative end to the last byte, and answers `slice.substr(start, end - start + 1)`, or
nothing when the bounds cross; a missing key reads as empty. `StringFamily::SetRange` refuses a
negative offset (`offset is out of range`) and a string that would pass `kMaxStrLen`
(`string exceeds maximum allowed size`), then runs `OpSetRange` (modelled in `Strings.Ops`).

## Main theorem

`setRange_getRange`: after a `SETRANGE` the handler accepts and `OpSetRange` performs, a
`GETRANGE` over the bytes written reads them back, and `GETRANGE key 0 -1` reads the old value
(padded with zero bytes up to the offset) with those bytes in place, for every table and every
value shorter than `2^31` bytes.
-/

namespace Dragonfly.Strings

open Keys

/-! ## Algorithm -/

/-- `kMaxStrLen`, `1 << 28`. -/
def kMaxStrLen : Nat := 268435456

/-- The `int32_t` a size converts to: the size modulo `2^32`, read in `[-2^31, 2^31)`. -/
def toInt32 (n : Nat) : Int := ((n + 2147483648) % 4294967296 : Nat) - 2147483648

/-- The `read` lambda of `OpGetRange(op_args, key, start, end)` on the value `slice`. -/
def getRangeRead (start end' : Int) (slice : String) : String :=
  let strlen := toInt32 slice.length
  if strlen = 0 then ""
  else if start < 0 ∧ end' < start then ""
  else
    let start := if start < 0 then max (strlen + start) 0 else start
    let end' := if end' < 0 then max (strlen + end') 0 else min end' (strlen - 1)
    if start > end' then ""
    else String.mk ((slice.data.drop start.toNat).take (end' - start + 1).toNat)

/-- `OpGetRange` on an in-memory value: `FindReadOnly`, then `read` of the value; a missing key
reads as empty. -/
def opGetRange (c : Ctx) (t : DbTable) (k : String) (start end' : Int) :
    DbTable × List JournalEntry × String :=
  match t.findInternal c k with
  | (t1, j, some s) => (t1, j, getRangeRead start end' s.value.str)
  | (t1, j, none) => (t1, j, "")

/-- The checks of `StringFamily::SetRange` on its parsed offset and value: the error it sends, or
none when it schedules `OpSetRange`. -/
def setRangeError (start : Int) (value : String) : Option String :=
  if start < 0 then some "offset is out of range"
  else if start.toNat + value.length > kMaxStrLen then some "string exceeds maximum allowed size"
  else none

/-! ## Lemmas -/

theorem toInt32_of_lt {n : Nat} (h : n < 2 ^ 31) : toInt32 n = n := by
  rw [toInt32, Nat.mod_eq_of_lt (by omega)]
  push_cast
  omega

@[simp] theorem getRangeRead_empty (start end' : Int) : getRangeRead start end' "" = "" := rfl

/-- The zero-padded old value `SetRange` writes into. -/
theorem setRange_data (old : String) (start : Nat) (range : String) :
    (setRange old start range).1.data =
      (old.data ++ List.replicate (start + range.length - old.length) (Char.ofNat 0)).take start ++
        range.data ++
      (old.data ++ List.replicate (start + range.length - old.length) (Char.ofNat 0)).drop
        (start + range.length) := rfl

theorem length_setRange (old : String) (start : Nat) (range : String) :
    (setRange old start range).1.length = max old.length (start + range.length) := by
  have ho : old.data.length = old.length := rfl
  have hr : range.data.length = range.length := rfl
  change (setRange old start range).1.data.length = _
  rw [setRange_data]
  simp only [List.length_append, List.length_take, List.length_drop, List.length_replicate, ho, hr]
  omega

/-- `GETRANGE` over the bytes `SetRange` wrote reads them back. -/
theorem getRangeRead_setRange {old range : String} {start : Nat} (hr : range ≠ "")
    (hlen : max old.length (start + range.length) < 2 ^ 31) :
    getRangeRead start (start + range.length - 1) (setRange old start range).1 = range := by
  have ho : old.data.length = old.length := rfl
  have hrl : range.data.length = range.length := rfl
  have hpos : 0 < range.length := by
    rw [← hrl]; exact List.length_pos.2 fun h => hr (String.ext h)
  have h32 : toInt32 (setRange old start range).1.length =
      (max old.length (start + range.length) : Nat) := by
    rw [length_setRange]; exact toInt32_of_lt hlen
  simp only [getRangeRead, h32]
  rw [if_neg (by omega), if_neg (by omega), if_neg (by omega), if_neg (by omega),
    min_eq_left (by omega), if_neg (by omega)]
  have hn : (start + range.length - 1 - start + 1 : Int).toNat = range.data.length := by
    rw [hrl]; omega
  have htake : ((old.data ++ List.replicate (start + range.length - old.length)
      (Char.ofNat 0)).take start).length = start := by
    simp only [List.length_take, List.length_append, List.length_replicate, ho]; omega
  rw [setRange_data, List.append_assoc, hn, Int.toNat_ofNat, List.drop_left' htake,
    List.take_left]

/-- `GETRANGE key 0 -1` reads the whole value. -/
theorem getRangeRead_whole {s : String} (hs : s.length < 2 ^ 31) : getRangeRead 0 (-1) s = s := by
  have hl : s.data.length = s.length := rfl
  rcases Nat.eq_zero_or_pos s.length with h0 | hpos
  · rw [← hl, List.length_eq_zero] at h0
    obtain ⟨d⟩ := s
    subst h0
    rfl
  · simp only [getRangeRead, toInt32_of_lt hs]
    rw [if_neg (by omega), if_neg (by omega), if_neg (by omega), if_pos (by omega),
      max_eq_left (by omega), if_neg (by omega)]
    simp only [show ((s.length : Int) + -1 - 0 + 1).toNat = s.data.length by rw [hl]; omega,
      Int.toNat_zero, List.drop_zero, List.take_length]

/-- `SetRange` in plain terms: the old bytes before `start` (zero bytes past the old end), the
range, then the old bytes after it. -/
theorem setRange_eq (old : String) (start : Nat) (range : String) :
    (setRange old start range).1 = String.mk
      ((old.data ++ List.replicate (start - old.length) (Char.ofNat 0)).take start ++ range.data ++
        old.data.drop (start + range.length)) := by
  have ho : old.data.length = old.length := rfl
  apply String.ext
  rw [setRange_data]
  simp only [List.take_append_eq_append_take, List.drop_append_eq_append_drop, List.take_replicate,
    List.drop_replicate, ho, List.append_assoc]
  rw [min_self, min_eq_left (by omega : start - old.length ≤ start + range.length - old.length),
    Nat.sub_self, List.replicate_zero, List.append_nil]

theorem isEmpty_eq_false {s : String} (h : s ≠ "") : s.isEmpty = false := by
  obtain ⟨_ | ⟨c, cs⟩⟩ := s
  · exact absurd rfl h
  · have := c.utf8Size_pos
    simp only [String.isEmpty, String.endPos, String.utf8ByteSize, String.utf8ByteSize.go,
      beq_eq_false_iff_ne, ne_eq, String.Pos.ext_iff, String.Pos.byteIdx_zero]
    omega

section Table

open DbTable

variable {t : DbTable} {c : Ctx} {ins : Insertion} {k : String}

/-- `GETRANGE` reads what a read of the key sees; a missing key reads as empty. -/
theorem opGetRange_eq (start end' : Int) :
    (opGetRange c t k start end').2.2 = getRangeRead start end' ((t.readValue c k).getD "") := by
  rw [← findInternal_readValue (t := t) (c := c) (k := k)]
  unfold opGetRange
  generalize t.findInternal c k = r
  obtain ⟨t1, j, _ | s⟩ := r
  · exact (getRangeRead_empty start end').symm
  · dsimp only
    rw [Option.map_some', Option.getD_some]

theorem readValue_runUpdater (sz : Sizes) (u : AutoUpdater) (k' : String) :
    (t.runUpdater sz u).readValue c k' = t.readValue c k' := by
  have hp : (t.runUpdater sz u).prime = t.prime := by unfold runUpdater; split <;> simp
  unfold readValue expired
  rw [hp, runUpdater_expire]

/-- A key a read sees, written in place, reads as what was written. -/
theorem readValue_setString {x : String} (v : String) (h : t.readValue c k = some x) :
    (t.setString k v).readValue c k = some v := by
  simp only [readValue, setString, modify_prime, if_true, expired, modify_expire] at h ⊢
  cases hp : t.prime k <;> simp_all

/-- `AddOrFind` finds exactly the keys a read sees, and returns them as they read. -/
theorem addOrFind_found_readValue {u : AutoUpdater}
    (h : (t.addOrFind c ins k).2.2 = .found u) :
    (t.addOrFind c ins k).1.readValue c k = some ((t.addOrFind c ins k).1.valueStr k) ∧
      t.readValue c k = some ((t.addOrFind c ins k).1.valueStr k) := by
  have hread := findInternal_readValue (t := t) (c := c) (k := k)
  have hsame := readValue_findInternal (t := t) (c := c) (k := k) k
  have hfound := fun s => findInternal_found (t := t) (k := k) (s := s) c
  unfold addOrFind at h ⊢
  generalize t.findInternal c k = r at h hread hsame hfound ⊢
  obtain ⟨t1, j, _ | s⟩ := r
  · cases ins <;> simp at h
  · have hp : t1.prime k = some s := hfound s rfl
    have hv : t1.valueStr k = s.value.str := by simp [valueStr, hp]
    simp only [hv]
    exact ⟨hsame.trans hread.symm, hread.symm⟩

theorem addOrFind_new_readValue {u : AutoUpdater} (h : (t.addOrFind c ins k).2.2 = .new u) :
    t.readValue c k = none := by
  have hread := findInternal_readValue (t := t) (c := c) (k := k)
  unfold addOrFind at h
  generalize t.findInternal c k = r at h hread
  obtain ⟨t1, j, _ | s⟩ := r
  · exact hread.symm
  · simp at h

/-- A `SETRANGE` that `OpSetRange` performs leaves the key reading as `SetRange` of what it read
before (empty for a missing key). -/
theorem opSetRange_readValue {start n : Nat} {range : String} (hr : range ≠ "")
    (hok : (opSetRange c ins t k start range).2.2 = .ok n) :
    (opSetRange c ins t k start range).1.readValue c k =
      some (setRange ((t.readValue c k).getD "") start range).1 := by
  simp only [opSetRange, isEmpty_eq_false hr, Bool.false_eq_true, if_false] at hok ⊢
  generalize hres : t.addOrFind c ins k = res at hok ⊢
  obtain ⟨t1, j, u | u | _⟩ := res
  · obtain ⟨h1, h2⟩ := addOrFind_found_readValue (hres ▸ rfl : (t.addOrFind c ins k).2.2 = .found u)
    rw [hres] at h1 h2
    rw [readValue_runUpdater, readValue_setString _ h1, h2]
    rfl
  · have hp : t1.prime k = some ⟨false, ⟨"", false, false⟩⟩ := by
      have := addOrFind_new (t := t) (k := k) c ins (u := u) (by rw [hres])
      rwa [hres] at this
    rw [readValue_runUpdater, readValue_setString _ (x := "") (by unfold readValue; rw [hp]; simp),
      addOrFind_new_readValue (hres ▸ rfl : (t.addOrFind c ins k).2.2 = .new u)]
    rfl
  · simp at hok

end Table

theorem setRange_getRange {c : Ctx} {ins : Insertion} {t : DbTable} {k range : String}
    {start : Int} {n : Nat} (hchk : setRangeError start range = none) (hr : range ≠ "")
    (hold : ((t.readValue c k).getD "").length < 2 ^ 31)
    (hok : (opSetRange c ins t k start.toNat range).2.2 = .ok n) :
    let t' := (opSetRange c ins t k start.toNat range).1
    let old := (t.readValue c k).getD ""
    (opGetRange c t' k start (start + range.length - 1)).2.2 = range ∧
    (opGetRange c t' k 0 (-1)).2.2 = String.mk
      ((old.data ++ List.replicate (start.toNat - old.length) (Char.ofNat 0)).take start.toNat ++
        range.data ++ old.data.drop (start.toNat + range.length)) := by
  intro t' old
  have h0 : 0 ≤ start ∧ start.toNat + range.length ≤ kMaxStrLen := by
    unfold setRangeError at hchk
    split_ifs at hchk with h1 h2
    exact ⟨by omega, by omega⟩
  have hold' : old.length < 2 ^ 31 := hold
  have hlen : max old.length (start.toNat + range.length) < 2 ^ 31 := by
    simp only [kMaxStrLen] at h0; omega
  have hread : t'.readValue c k = some (setRange old start.toNat range).1 :=
    opSetRange_readValue hr hok
  refine ⟨?_, ?_⟩
  · have h := getRangeRead_setRange hr hlen
    rw [Int.toNat_of_nonneg h0.1] at h
    rw [opGetRange_eq, hread, Option.getD_some, h]
  · rw [opGetRange_eq, hread, Option.getD_some,
      getRangeRead_whole (by rw [length_setRange]; exact hlen), setRange_eq]

/-- `SETRANGE k 2 abc` on a missing key, then `GETRANGE k 2 4` and `GETRANGE k 0 -1`. -/
theorem setRange_getRange_newKey :
    let c : Ctx := ⟨0, true, ⟨fun _ => true, fun _ => 0, fun _ => 0, rfl⟩⟩
    let t' := (opSetRange c (.inserted none) DbTable.empty "k" (2 : Int).toNat "abc").1
    let old := (DbTable.empty.readValue c "k").getD ""
    (opGetRange c t' "k" 2 (2 + ("abc".length : Int) - 1)).2.2 = "abc" ∧
    (opGetRange c t' "k" 0 (-1)).2.2 = String.mk
      ((old.data ++ List.replicate ((2 : Int).toNat - old.length) (Char.ofNat 0)).take
          (2 : Int).toNat ++ "abc".data ++ old.data.drop ((2 : Int).toNat + "abc".length)) :=
  setRange_getRange (n := 5) (by decide) (by decide) (by decide) rfl

end Dragonfly.Strings
