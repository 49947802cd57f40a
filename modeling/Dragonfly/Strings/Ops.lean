import Dragonfly.Strings.SetCmd

/-!
# The other string commands

The shard callbacks of `string_family.cc` that change a value in place: `SETRANGE` (`OpSetRange`),
`APPEND` and `PREPEND` (`OpExtend`, and `ExtendOrSkip` for memcache), `INCRBYFLOAT`
(`OpIncrFloat`), `INCR`, `INCRBY`, `DECR`, `DECRBY` (`OpIncrBy`), `GETDEL`, and `STRLEN`
(`OpStrLen`), whose lookup may expire the key. Each writes through the `AutoUpdater` its lookup
returned, which runs when the callback returns. Values in tiered storage (`IsExternal`) are not
modelled. `ParseDouble` and `RedisReplyBuilder::FormatDouble` are parameters: their code is outside
the sources.

Every one of them keeps the prime, expire and mcflag tables in agreement (`TablesAgree`).
-/

namespace Dragonfly.Strings

open Keys

/-! ## Algorithm -/

/-- `SetRange(value, start, range)`: the value grows with zero bytes to
`max(size, start + range.size())`, then `range` is copied at `start`; the new size. -/
def setRange (value : String) (start : Nat) (range : String) : String × Nat :=
  let v := value.data ++ List.replicate (start + range.length - value.length) (Char.ofNat 0)
  let v := v.take start ++ range.data ++ v.drop (start + range.length)
  (String.mk v, v.length)

/-- `OpStrLen`: the lookup (`FindReadOnly`), then the length of the value, `0` for a missing key. -/
def opStrLen (c : Ctx) (t : DbTable) (k : String) : DbTable × List JournalEntry × Nat :=
  match t.findInternal c k with
  | (t1, j, some s) => (t1, j, s.value.str.length)
  | (t1, j, none) => (t1, j, 0)

/-- `OpSetRange`: an empty range only reads the length; otherwise `AddOrFind`, the range written
into the value (empty for a new key), and the updater run. -/
def opSetRange (c : Ctx) (ins : Insertion) (t : DbTable) (k : String) (start : Nat)
    (range : String) : DbTable × List JournalEntry × Except OpStatus Nat :=
  if range.isEmpty then
    let (t1, j, n) := opStrLen c t k
    (t1, j, .ok n)
  else
    match t.addOrFind c ins k with
    | (t1, j, .outOfMemory) => (t1, j, .error .outOfMemory)
    | (t1, j, .found u) =>
      let (v, n) := setRange (t1.valueStr k) start range
      ((t1.setString k v).runUpdater c.sz u, j, .ok n)
    | (t1, j, .new u) =>
      let (v, n) := setRange "" start range
      ((t1.setString k v).runUpdater c.sz u, j, .ok n)

/-- `ExtendExisting`'s new value: `val` before or after the old one. -/
def extendExisting (old val : String) (prepend : Bool) : String :=
  if prepend then val ++ old else old ++ val

/-- `OpExtend` (`APPEND`, `PREPEND`): a new key takes `value`, a key found is extended; the
size of the value. -/
def opExtend (c : Ctx) (ins : Insertion) (t : DbTable) (k value : String) (prepend : Bool) :
    DbTable × List JournalEntry × Except OpStatus Nat :=
  match t.addOrFind c ins k with
  | (t1, j, .outOfMemory) => (t1, j, .error .outOfMemory)
  | (t1, j, .new u) => ((t1.setString k value).runUpdater c.sz u, j, .ok value.length)
  | (t1, j, .found u) =>
    let v := extendExisting (t1.valueStr k) value prepend
    ((t1.setString k v).runUpdater c.sz u, j, .ok v.length)

/-- `ExtendOrSkip`, memcache's `append` and `prepend`: a missing key is skipped; the result is the
new size converted to `bool`. -/
def extendOrSkip (c : Ctx) (t : DbTable) (k value : String) (prepend : Bool) :
    DbTable × List JournalEntry × Bool :=
  match t.findMutable c k with
  | (t1, j, none) => (t1, j, false)
  | (t1, j, some u) =>
    let v := extendExisting (t1.valueStr k) value prepend
    ((t1.setString k v).runUpdater c.sz u, j, v.length ≠ 0)

section Float

variable (parseDouble : String → Option Float) (formatDouble : Float → String)

/-- `OpIncrFloat`: a new key takes `val`; an existing value must be non-empty and parse as a
double, and the sum must be finite. -/
def opIncrFloat (c : Ctx) (ins : Insertion) (t : DbTable) (k : String) (val : Float) :
    DbTable × List JournalEntry × Except OpStatus Float :=
  match t.addOrFind c ins k with
  | (t1, j, .outOfMemory) => (t1, j, .error .outOfMemory)
  | (t1, j, .new u) => ((t1.setString k (formatDouble val)).runUpdater c.sz u, j, .ok val)
  | (t1, j, .found u) =>
    if (t1.valueStr k).isEmpty then (t1.runUpdater c.sz u, j, .error .invalidFloat)
    else
      match parseDouble (t1.valueStr k) with
      | none => (t1.runUpdater c.sz u, j, .error .invalidFloat)
      | some base =>
        let base := base + val
        if base.isNaN || base.isInf then (t1.runUpdater c.sz u, j, .error .invalidFloat)
        else ((t1.setString k (formatDouble base)).runUpdater c.sz u, j, .ok base)

end Float

/-- `OpIncrBy`: a missing key is skipped for memcache or added with `incr` through
`DbSlice::AddNew`; an existing value must be an integer (`TryGetInt`), and the sum must not
overflow `long long`. -/
def opIncrBy (c : Ctx) (ins : Insertion) (t : DbTable) (k : String) (incr : Int)
    (skipOnMissing : Bool) : DbTable × List JournalEntry × Except OpStatus Int :=
  match t.findMutable c k with
  | (t1, j, none) =>
    if skipOnMissing then (t1, j, .error .keyNotFound)
    else
      match t1.addNew c ins k ⟨toString incr, false, false⟩ 0 with
      | (t2, j2, .outOfMemory) => (t2, j ++ j2, .error .outOfMemory)
      | (t2, j2, .new u) | (t2, j2, .found u) => (t2.runUpdater c.sz u, j ++ j2, .ok incr)
  | (t1, j, some u) =>
    match string2ll (t1.valueStr k) with
    | none => (t1.runUpdater c.sz u, j, .error .invalidValue)
    | some prev =>
      if (incr < 0 ∧ prev < 0 ∧ incr < int64Min - prev) ∨
          (incr > 0 ∧ prev > 0 ∧ incr > int64Max - prev) then
        (t1.runUpdater c.sz u, j, .error .outOfRange)
      else ((t1.setString k (toString (prev + incr))).runUpdater c.sz u, j, .ok (prev + incr))

/-- The shard callback of `GETDEL`: the value is read, the updater run, then `DbSlice::Del`. -/
def getDel (c : Ctx) (t : DbTable) (k : String) :
    DbTable × List JournalEntry × Except OpStatus String :=
  match t.findMutable c k with
  | (t1, j, none) => (t1, j, .error .keyNotFound)
  | (t1, j, some u) => ((t1.runUpdater c.sz u).del c.sz k, j, .ok (t1.valueStr k))

end Dragonfly.Strings

/-! ## Lemmas -/

namespace Dragonfly.Keys

open DbTable Strings

variable {t : DbTable} (c : Ctx) {k : String}

theorem TablesAgree.setString (h : TablesAgree t) (k v : String) : TablesAgree (t.setString k v) :=
  h.modify k fun _ => ⟨rfl, rfl⟩

/-- A value written through the updater of `FindMutable` or `AddOrFind`, which then runs. -/
theorem TablesAgree.writeRun (h : TablesAgree t) (k v : String) (u : AutoUpdater) :
    TablesAgree ((t.setString k v).runUpdater c.sz u) :=
  (h.setString k v).runUpdater _ _

theorem TablesAgree.opStrLen (h : TablesAgree t) (k : String) :
    TablesAgree (Strings.opStrLen c t k).1 := by
  have h1 := h.findInternal c k
  unfold Strings.opStrLen
  split <;> simp_all

theorem TablesAgree.opSetRange (h : TablesAgree t) (ins : Insertion) (k : String) (start : Nat)
    (range : String) : TablesAgree (Strings.opSetRange c ins t k start range).1 := by
  unfold Strings.opSetRange
  split
  · exact h.opStrLen c k
  · have h1 := h.addOrFind c ins k
    generalize t.addOrFind c ins k = r at h1
    obtain ⟨t1, j, u | u | _⟩ := r
    · exact h1.writeRun c _ _ u
    · exact h1.writeRun c _ _ u
    · exact h1

theorem TablesAgree.opExtend (h : TablesAgree t) (ins : Insertion) (k value : String)
    (prepend : Bool) : TablesAgree (Strings.opExtend c ins t k value prepend).1 := by
  have h1 := h.addOrFind c ins k
  unfold Strings.opExtend
  generalize t.addOrFind c ins k = r at h1
  obtain ⟨t1, j, u | u | _⟩ := r
  · exact h1.writeRun c _ _ u
  · exact h1.writeRun c _ _ u
  · exact h1

theorem TablesAgree.extendOrSkip (h : TablesAgree t) (k value : String) (prepend : Bool) :
    TablesAgree (Strings.extendOrSkip c t k value prepend).1 := by
  have h1 := h.findMutable c k
  unfold Strings.extendOrSkip
  generalize t.findMutable c k = r at h1
  obtain ⟨t1, j, _ | u⟩ := r
  · exact h1
  · exact h1.writeRun c _ _ u

theorem TablesAgree.opIncrFloat (h : TablesAgree t) (parseDouble : String → Option Float)
    (formatDouble : Float → String) (ins : Insertion) (k : String) (val : Float) :
    TablesAgree (Strings.opIncrFloat parseDouble formatDouble c ins t k val).1 := by
  have h1 := h.addOrFind c ins k
  unfold Strings.opIncrFloat
  generalize t.addOrFind c ins k = r at h1
  obtain ⟨t1, j, u | u | _⟩ := r
  · dsimp only
    split_ifs
    · exact h1.runUpdater _ _
    · split
      · exact h1.runUpdater _ _
      · split_ifs
        · exact h1.runUpdater _ _
        · exact h1.writeRun c _ _ u
  · exact h1.writeRun c _ _ u
  · exact h1

theorem TablesAgree.opIncrBy (h : TablesAgree t) (ins : Insertion) (k : String) (incr : Int)
    (skipOnMissing : Bool) : TablesAgree (Strings.opIncrBy c ins t k incr skipOnMissing).1 := by
  have h1 := h.findMutable c k
  unfold Strings.opIncrBy
  generalize t.findMutable c k = r at h1
  obtain ⟨t1, j, _ | u⟩ := r
  · dsimp only
    split
    · exact h1
    · have h2 := @TablesAgree.addNew _ h1 c ins k ⟨toString incr, false, false⟩ ⟨rfl, rfl⟩ 0
      generalize t1.addNew c ins k _ 0 = r at h2 ⊢
      obtain ⟨t2, j2, u | u | _⟩ := r
      · exact h2.runUpdater _ _
      · exact h2.runUpdater _ _
      · exact h2
  · dsimp only
    split
    · exact h1.runUpdater _ _
    · split_ifs
      · exact h1.runUpdater _ _
      · exact h1.writeRun c _ _ u

theorem TablesAgree.getDel (h : TablesAgree t) (k : String) :
    TablesAgree (Strings.getDel c t k).1 := by
  have h1 := h.findMutable c k
  unfold Strings.getDel
  generalize t.findMutable c k = r at h1
  obtain ⟨t1, j, _ | u⟩ := r
  · exact h1
  · exact (h1.runUpdater _ _).performDeletion _ _

end Dragonfly.Keys
