import Dragonfly.Strings.Replica

/-!
# What a table operation can change

`SameOutside K t t'` says that `t'` holds the slot, the deadline and the mcflag `t` holds at every
key outside `K`. Each operation of `DbTable` keeps to the keys it is given (`sameOutside_*`): a
lookup may expire its key, an insertion may evict its victim, a deletion removes its key. These
are the frame lemmas of the replication statements (`Strings/Replication.lean`,
`Strings/ActiveExpiry.lean`): what happens at one key leaves every other key as it was.

`PrimeTable::InsertNew` may also run `PrimeEvictionPolicy::GarbageCollect`, which deletes expired
keys of the buckets it scans; `DbTable.addOrFind` leaves that out (see `Keys/ExpireAll.lean` for
`garbageCollect` on its own), so the frame of an insertion here is the key and the victim.
-/

namespace Dragonfly.Keys

/-- What a table holds for a key: its slot, its deadline and its mcflag. -/
def DbTable.entry (t : DbTable) (k : String) : Option Slot × Option Int × Option Nat :=
  (t.prime k, t.expire k, t.mcflag k)

/-- `t'` holds what `t` holds at every key outside `K`. -/
def SameOutside (K : String → Prop) (t t' : DbTable) : Prop :=
  ∀ k, ¬K k → t'.entry k = t.entry k

namespace SameOutside

variable {K : String → Prop} {t t1 t2 : DbTable}

theorem refl (K : String → Prop) (t : DbTable) : SameOutside K t t := fun _ _ => rfl

theorem trans (h1 : SameOutside K t t1) (h2 : SameOutside K t1 t2) : SameOutside K t t2 :=
  fun k hk => (h2 k hk).trans (h1 k hk)

end SameOutside

namespace DbTable

variable {t : DbTable} {K : String → Prop}

theorem sameOutside_of_entry {t' : DbTable} (hp : t'.prime = t.prime) (he : t'.expire = t.expire)
    (hm : t'.mcflag = t.mcflag) : SameOutside K t t' := by
  intro k _
  simp [entry, hp, he, hm]

theorem sameOutside_setExpire (k : String) (d : Option Int) :
    SameOutside (· = k) t (t.setExpire k d) := by
  intro k' hk'
  simp [entry, Function.update_noteq hk']

theorem sameOutside_runUpdater (sz : Sizes) (u : AutoUpdater) : SameOutside K t (t.runUpdater sz u) := by
  unfold runUpdater
  split
  · exact sameOutside_of_entry (by simp) (by simp) (by simp)
  · exact SameOutside.refl _ _

theorem sameOutside_performDeletionAtomic (sz : Sizes) (k : String) (b : Bool) :
    SameOutside (· = k) t (t.performDeletionAtomic sz k b) := by
  intro k' hk'
  cases hp : t.prime k with
  | none => rw [performDeletionAtomic_of_none _ hp]
  | some s =>
    simp only [entry, performDeletionAtomic_prime _ hp, performDeletionAtomic_expire _ hp,
      performDeletionAtomic_mcflag _ hp, apply_ite (fun f : String → _ => f k'),
      Function.update_noteq hk', ite_self]

theorem sameOutside_performDeletion (sz : Sizes) (k : String) :
    SameOutside (· = k) t (t.performDeletion sz k) :=
  sameOutside_performDeletionAtomic sz k _

theorem sameOutside_expireIfNeeded (c : Ctx) (k : String) :
    SameOutside (· = k) t (t.expireIfNeeded c k).1 := by
  unfold expireIfNeeded
  split
  · exact SameOutside.refl _ _
  · split
    · exact SameOutside.refl _ _
    · exact sameOutside_performDeletionAtomic c.sz k true

theorem sameOutside_findInternal (c : Ctx) (k : String) :
    SameOutside (· = k) t (t.findInternal c k).1 := by
  unfold findInternal
  split
  · exact SameOutside.refl _ _
  · split
    · have h := sameOutside_expireIfNeeded (t := t) c k
      split <;> simp_all
    · exact SameOutside.refl _ _

theorem sameOutside_del (sz : Sizes) (k : String) : SameOutside (· = k) t (t.del sz k) :=
  sameOutside_performDeletion sz k

theorem sameOutside_deleteExpiredVisit (c : Ctx) (k : String) :
    SameOutside (· = k) t (t.deleteExpiredVisit c k).1 := by
  unfold deleteExpiredVisit
  split
  · exact SameOutside.refl _ _
  · split_ifs
    · split
      · exact sameOutside_setExpire k none
      · split_ifs
        · exact sameOutside_expireIfNeeded c k
        · exact SameOutside.refl _ _
    · exact SameOutside.refl _ _

end DbTable

end Dragonfly.Keys

namespace Dragonfly.Strings

open Keys DbTable

variable {t : DbTable} (c : Ctx)

theorem sameOutside_opDel (k : String) : SameOutside (· = k) t (opDel c t k) := by
  have h1 := sameOutside_findInternal (t := t) c k
  unfold opDel
  generalize t.findInternal c k = r at h1
  obtain ⟨t1, j1, _ | s⟩ := r
  · exact h1
  · exact h1.trans (sameOutside_del _ k)

end Dragonfly.Strings
