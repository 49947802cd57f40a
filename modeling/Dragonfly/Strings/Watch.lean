import Dragonfly.Strings.Ops
import Dragonfly.Keys.Expire

/-!
# `WATCH` and the writes that fail

`WATCH` registers a connection in the database's `watched_keys`. `DbSlice::PostUpdate` marks every
connection watching a key dirty (`watched_dirty`, after which its `EXEC` aborts) and forgets the
key's watchers. `PostUpdate` is called by `AutoUpdater::Run`, which the updater's destructor runs:
a shard callback that got an updater from `FindMutable` or `AddOrFind` runs it when it returns,
whether it wrote through it or failed.

So on a live key the callbacks of the string family that fail without writing (`OpIncrBy` with
`INVALID_VALUE` or `OUT_OF_RANGE`, `OpIncrFloat` with `INVALID_FLOAT`, `OpThrottle` with an error
or a limited verdict, `SetCmd::Set` with `NX` answering `SKIPPED`, `GETEX` and `GAT` whose
`UpdateExpire` fails) leave the prime, expire and mcflag tables as they were, and still run
`PostUpdate` on the key. Values have no type here, so the `WRONG_TYPE` answers are left out.

## Main theorem

`failedWrites_postUpdate`: on a live key, each of those failures leaves the table that
`PostUpdate` makes of it: the same values, deadlines and mcflags, and every connection that
watched the key dirty.
-/

namespace Dragonfly.Strings

open Keys DbTable

variable {t : DbTable} {c : Ctx} {k : String} {s : Slot}

/-! ## Lemmas -/

/-- `PostUpdate` marks every connection that watched the key. -/
theorem postUpdate_watchedDirty {conn : Nat} (h : conn ∈ t.watchedKeys k) :
    (t.postUpdate k).watchedDirty conn = true := by
  simp [DbTable.postUpdate, h]

/-- The updater of a lookup, run with nothing written: the size did not change, so `Run` is only
`PostUpdate`. -/
theorem runUpdater_unchanged (sz : Sizes) (hk : t.prime k = some s) :
    t.runUpdater sz ⟨k, sz.valueMalloc s.value.str⟩ = t.postUpdate k := by
  simp [runUpdater, hk, account]

section Live

variable (hk : t.prime k = some s) (hlive : ∀ d, t.expire k = some d → c.nowMs < d)
include hk hlive

theorem findMutable_live : t.findMutable c k = (t, [], some ⟨k, c.sz.valueMalloc s.value.str⟩) := by
  rw [findMutable_eq, findInternal_live c hk hlive]; rfl

theorem opIncrBy_error_live (ins : Insertion) (incr : Int) (skip : Bool) {e : OpStatus}
    (h : (opIncrBy c ins t k incr skip).2.2 = .error e) :
    (opIncrBy c ins t k incr skip).1 = t.postUpdate k := by
  simp only [opIncrBy, findMutable_live hk hlive] at h ⊢
  split at h
  · exact runUpdater_unchanged c.sz hk
  · split_ifs at h ⊢
    exact runUpdater_unchanged c.sz hk

theorem opIncrFloat_error_live (parseDouble : String → Option Float) (formatDouble : Float → String)
    (ins : Insertion) (val : Float) {e : OpStatus}
    (h : (opIncrFloat parseDouble formatDouble c ins t k val).2.2 = .error e) :
    (opIncrFloat parseDouble formatDouble c ins t k val).1 = t.postUpdate k := by
  simp only [opIncrFloat, addOrFind_live c ins hk hlive] at h ⊢
  split_ifs at h ⊢
  · exact runUpdater_unchanged c.sz hk
  · cases hp : parseDouble (t.valueStr k) <;> simp only [hp] at h ⊢
    · exact runUpdater_unchanged c.sz hk
    · split_ifs at h ⊢
      exact runUpdater_unchanged c.sz hk

/-- `OpThrottle` failing: before the lookup on its arguments, or after it. -/
theorem opThrottle_error_live (ins : Insertion) (limit em : Int) (q : Nat) {e : OpStatus}
    (h : (opThrottle c ins t k limit em q).2.2 = .error e) :
    (opThrottle c ins t k limit em q).1 = t ∨ (opThrottle c ins t k limit em q).1 = t.postUpdate k := by
  unfold opThrottle at h ⊢
  split_ifs at h ⊢
  · exact .inl rfl
  · exact .inl rfl
  refine .inr ?_
  simp only [findMutable_live hk hlive, hk, Option.some_bind] at h ⊢
  split at h
  · exact runUpdater_unchanged c.sz hk
  · split at h
    · exact runUpdater_unchanged c.sz hk
    · cases h

/-- A limited verdict of `OpThrottle` writes nothing, and still runs the updater. -/
theorem opThrottle_limited_live (ins : Insertion) (limit em : Int) (q : Nat) {r : List Int}
    (h : (opThrottle c ins t k limit em q).2.2 = .ok r) (hr : r.head? = some 1) :
    (opThrottle c ins t k limit em q).1 = t.postUpdate k := by
  unfold opThrottle at h ⊢
  split_ifs at h ⊢
  simp only [findMutable_live hk hlive, hk, Option.some_bind] at h ⊢
  split at h
  · cases h
  · split at h
    · cases h
    · rename_i limited _ _ _ _ _
      cases limited
      · cases h; simp at hr
      · exact runUpdater_unchanged c.sz hk

/-- `SetCmd::Set` answers `SKIPPED` on a live key only for `NX`, after its lookup. -/
theorem set_skipped_live (p : SetParams) (manualJournal : Bool) (ins : Insertion) (v : String)
    (h : (SetCmd.set c p manualJournal t ins k v).2.2 = .skipped) :
    (SetCmd.set c p manualJournal t ins k v).1 = t.postUpdate k := by
  unfold SetCmd.set at h ⊢
  split_ifs at h ⊢ with hc hx
  · simp only [findMutable_live hk hlive, if_pos hx] at h
    cases h
  · simp only [findMutable_live hk hlive, if_neg hx]
    exact runUpdater_unchanged c.sz hk
  · simp only [SetCmd.setAdd, addOrFind_live c ins hk hlive] at h
    cases h

/-- `GETEX` failing on a live key: `UpdateExpire` failed after the updater ran. -/
theorem getEx_error_live (maxMs : Int) (journal : Bool) (isDefined : ExpireParams → Bool)
    (p : ExpireParams) {e : OpStatus} (h : (getEx c maxMs journal isDefined p t k).2.2 = .error e) :
    (getEx c maxMs journal isDefined p t k).1 = t.postUpdate k := by
  simp only [getEx, findMutable_live hk hlive, runUpdater_unchanged c.sz hk] at h ⊢
  split at h
  · rename_i t3 e' hu
    split_ifs at hu
    · rw [← (updateExpire_error_unchanged (congrArg Prod.snd hu)).1, hu]
    · simp at hu
  · cases h

/-- `GAT` failing on a live key other than by a deadline in the past: `UpdateExpire` failed after
the updater ran. -/
theorem findKeyAndSetExpiry_error_live (maxMs : Int) (journal : Bool) (p : ExpireParams)
    {e : OpStatus} (he : e ≠ .keyNotFound)
    (h : (findKeyAndSetExpiry c maxMs journal p t k).2.2 = .error e) :
    (findKeyAndSetExpiry c maxMs journal p t k).1 = t.postUpdate k := by
  simp only [findKeyAndSetExpiry, findMutable_live hk hlive, runUpdater_unchanged c.sz hk] at h ⊢
  split at h
  · rename_i t2 e' hu
    rw [← (updateExpire_error_unchanged (congrArg Prod.snd hu)).1, hu]
  · split_ifs at h <;> cases h <;> exact absurd rfl he

end Live

/-- On a live key, each callback of the string family that fails without writing leaves the table
`PostUpdate` makes of it (`OpThrottle`'s checks of its arguments, made before the lookup, leave
the table itself): the values, deadlines and mcflags are unchanged, and every connection that
watched the key is dirty. -/
theorem failedWrites_postUpdate (hk : t.prime k = some s)
    (hlive : ∀ d, t.expire k = some d → c.nowMs < d) (ins : Insertion) (incr : Int) (skip : Bool)
    (parseDouble : String → Option Float) (formatDouble : Float → String) (val : Float)
    (limit em : Int) (q : Nat) (p : SetParams) (manualJournal : Bool) (v : String) (maxMs : Int)
    (journal : Bool) (isDefined : ExpireParams → Bool) (xp : ExpireParams) :
    (∀ e, (opIncrBy c ins t k incr skip).2.2 = .error e →
      (opIncrBy c ins t k incr skip).1 = t.postUpdate k) ∧
    (∀ e, (opIncrFloat parseDouble formatDouble c ins t k val).2.2 = .error e →
      (opIncrFloat parseDouble formatDouble c ins t k val).1 = t.postUpdate k) ∧
    (∀ e, (opThrottle c ins t k limit em q).2.2 = .error e →
      (opThrottle c ins t k limit em q).1 = t ∨
        (opThrottle c ins t k limit em q).1 = t.postUpdate k) ∧
    (∀ r, (opThrottle c ins t k limit em q).2.2 = .ok r → r.head? = some 1 →
      (opThrottle c ins t k limit em q).1 = t.postUpdate k) ∧
    ((SetCmd.set c p manualJournal t ins k v).2.2 = .skipped →
      (SetCmd.set c p manualJournal t ins k v).1 = t.postUpdate k) ∧
    (∀ e, (getEx c maxMs journal isDefined xp t k).2.2 = .error e →
      (getEx c maxMs journal isDefined xp t k).1 = t.postUpdate k) ∧
    (∀ e, e ≠ .keyNotFound → (findKeyAndSetExpiry c maxMs journal xp t k).2.2 = .error e →
      (findKeyAndSetExpiry c maxMs journal xp t k).1 = t.postUpdate k) ∧
    ((t.postUpdate k).prime = t.prime ∧ (t.postUpdate k).expire = t.expire ∧
      (t.postUpdate k).mcflag = t.mcflag ∧
      ∀ conn ∈ t.watchedKeys k, (t.postUpdate k).watchedDirty conn = true) :=
  ⟨fun _ => opIncrBy_error_live hk hlive ins incr skip,
    fun _ => opIncrFloat_error_live hk hlive parseDouble formatDouble ins val,
    fun _ => opThrottle_error_live hk hlive ins limit em q,
    fun _ => opThrottle_limited_live hk hlive ins limit em q,
    set_skipped_live hk hlive p manualJournal ins v,
    fun _ => getEx_error_live hk hlive maxMs journal isDefined xp,
    fun _ he => findKeyAndSetExpiry_error_live hk hlive maxMs journal xp he,
    rfl, rfl, rfl, fun _ => postUpdate_watchedDirty⟩

/-- Connection `7` watches the key `k`: `SET k v NX` answers `SKIPPED`, and connection `7` is
dirty. -/
theorem failedWrites_postUpdate_setNxWatched :
    let t0 : DbTable :=
      { DbTable.empty.insertKey "k" ⟨false, ⟨"abc", false, false⟩⟩ with watchedKeys := fun _ => [7] }
    let c0 : Ctx := ⟨0, true, ⟨fun _ => true, fun _ => 0, fun _ => 0, rfl⟩⟩
    t0.prime "k" = some ⟨false, ⟨"abc", false, false⟩⟩ ∧ (∀ d, t0.expire "k" = some d → c0.nowMs < d) ∧
      (SetCmd.set c0 { ifNotExist := true } false t0 (.inserted none) "k" "v").2.2 = .skipped ∧
      (SetCmd.set c0 { ifNotExist := true } false t0 (.inserted none) "k" "v").1.watchedDirty 7 =
        true := by
  intro t0 c0
  have hk : t0.prime "k" = some ⟨false, ⟨"abc", false, false⟩⟩ := rfl
  have hlive : ∀ d, t0.expire "k" = some d → c0.nowMs < d := fun _ h => nomatch h
  have hr : (SetCmd.set c0 { ifNotExist := true } false t0 (.inserted none) "k" "v").2.2 =
      .skipped := rfl
  refine ⟨hk, hlive, hr, ?_⟩
  rw [(failedWrites_postUpdate hk hlive (.inserted none) 1 false (fun _ => none) (fun _ => "")
    0 1 1 1 { ifNotExist := true } false "v" 0 false (fun _ => false) (gatParams .sec 0)).2.2.2.2.1 hr]
  exact postUpdate_watchedDirty (List.mem_singleton_self 7)

end Dragonfly.Strings
