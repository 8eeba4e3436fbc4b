import SpendabilityPir.Nullifier.SpendServer
import SpendabilityPir.Nullifier.TableEviction
import SpendabilityPir.Shared.EvictionLog

/-!
# The totals at which blocks are evicted

The eviction loop compares the counter with its built-in target size only.  Another
limit is honoured exactly when the loop, dropping the oldest blocks one by one, would
stop at the same place for it.
-/

namespace SpendabilityPir
namespace Nullifier

open Foundation Shared

namespace HashTableDb

/-- The totals at which the eviction loop evicts a block. -/
def evictedAt (db : HashTableDb) : List Nat :=
  if db.numEntries > targetSize then
    match _h : evictOldestBlock db with
    | none => []
    | some (_, none) => []
    | some (db', some _) => db.numEntries :: evictedAt db'
  else []
termination_by db.blockIndex.size
decreasing_by exact evictOldestBlock_size_lt _h

theorem evictedAt_of_le {db : HashTableDb} (h : db.numEntries ≤ targetSize) :
    db.evictedAt = [] := by
  rw [evictedAt, if_neg (Nat.not_lt_of_le h)]

theorem evictedAt_of_gt {db : HashTableDb} (h : db.numEntries > targetSize) :
    db.evictedAt =
      match db.evictOldestBlock with
      | none => []
      | some (_, none) => []
      | some (db', some _) => db.numEntries :: db'.evictedAt := by
  rw [evictedAt, if_pos h]
  split <;> next hevict => rw [hevict]

/-- The total that is left once some oldest blocks are dropped. -/
def left (db : HashTableDb) (front : List (Nat × BlockRecord)) : Nat :=
  db.len - totalSlots front

theorem left_nil (db : HashTableDb) : db.left [] = db.numEntries := rfl

theorem left_le (db : HashTableDb) (front : List (Nat × BlockRecord)) :
    db.left front ≤ db.numEntries :=
  Nat.sub_le _ _

/-- With these blocks dropped the eviction loop stops. -/
def StopsAt (db : HashTableDb) (front back : List (Nat × BlockRecord)) : Prop :=
  db.left front ≤ targetSize ∨ back = []

/-- The eviction loop goes on above `limit` only. -/
def EvictsOnlyAbove (limit : Nat) (db : HashTableDb) : Prop :=
  forall front back, db.blockIndex.entries = front ++ back ->
    db.left front ≤ limit -> db.StopsAt front back

/-- Where the eviction loop stops, at most `limit` are left. -/
def TrimsTo (limit : Nat) (db : HashTableDb) : Prop :=
  forall front back, db.blockIndex.entries = front ++ back ->
    db.StopsAt front back -> db.left front ≤ limit

/-- Dropping oldest blocks, `limit` and the target size are reached at once. -/
structure EvictsWithin (limit : Nat) (db : HashTableDb) : Prop where
  onlyAbove : db.EvictsOnlyAbove limit
  trims : db.TrimsTo limit

/-!
## One eviction
-/

theorem entries_of_evictOldestBlock_none {db db' : HashTableDb}
    (h : db.evictOldestBlock = some (db', none)) :
    db' = db ∧ db.blockIndex.entries = [] := by
  unfold evictOldestBlock at h
  split at h
  · next hfirst =>
      cases h
      exact ⟨rfl, List.head?_eq_none_iff.mp hfirst⟩
  · split at h
    · cases h
    · cases h

theorem entries_of_evictOldestBlock {db db' : HashTableDb} {height : Nat}
    (h : db.evictOldestBlock = some (db', some height)) :
    exists first rest, db.blockIndex.entries = first :: rest ∧
      db'.blockIndex.entries = rest ∧
      db'.numEntries = db.numEntries - first.2.slots.length := by
  unfold evictOldestBlock at h
  split at h
  · cases h
  · next oldestHeight record hfirst =>
      split at h
      · cases h
      · next removed hremove =>
          cases h
          rcases List.head?_eq_some_iff.mp hfirst with ⟨rest, hentries⟩
          have hcount := removeRecord_numEntries hremove
          refine ⟨(height, record), rest, hentries, ?_, hcount⟩
          rw [removeRecord_blockIndex hremove]
          exact OrderedMap.entries_erase_first hentries

theorem left_of_evictOldestBlock {db db' : HashTableDb} {first : Nat × BlockRecord}
    (hcount : db'.numEntries = db.numEntries - first.2.slots.length)
    (front : List (Nat × BlockRecord)) : db'.left front = db.left (first :: front) := by
  change db'.numEntries - _ = db.numEntries - _
  rw [hcount, Nat.sub_sub]
  rfl

theorem forall_splits_cons {P : List (Nat × BlockRecord) -> List (Nat × BlockRecord) -> Prop}
    {first : Nat × BlockRecord} {rest : List (Nat × BlockRecord)} :
    (forall front back, first :: rest = front ++ back -> P front back) ↔
      P [] (first :: rest) ∧
        forall front back, rest = front ++ back -> P (first :: front) back := by
  constructor
  · intro h
    refine ⟨h [] _ rfl, ?_⟩
    intro front back hsplit
    rw [hsplit] at h
    exact h (first :: front) back rfl
  · rintro ⟨hnil, hcons⟩ front back hsplit
    cases front with
    | nil =>
        rw [List.nil_append] at hsplit
        rw [← hsplit]
        exact hnil
    | cons other front =>
        cases hsplit
        exact hcons front back rfl

theorem evictsOnlyAbove_cons {limit : Nat} {db db' : HashTableDb} {height : Nat}
    (h : db.evictOldestBlock = some (db', some height)) (hgt : db.numEntries > targetSize) :
    db.EvictsOnlyAbove limit ↔ limit < db.numEntries ∧ db'.EvictsOnlyAbove limit := by
  rcases entries_of_evictOldestBlock h with ⟨first, rest, hentries, hrest, hcount⟩
  unfold EvictsOnlyAbove StopsAt
  rw [hentries, hrest, forall_splits_cons]
  simp only [left_of_evictOldestBlock hcount, left_nil, reduceCtorEq, or_false]
  apply and_congr_left'
  lia

theorem trimsTo_cons {limit : Nat} {db db' : HashTableDb} {height : Nat}
    (h : db.evictOldestBlock = some (db', some height)) (hgt : db.numEntries > targetSize) :
    db.TrimsTo limit ↔ db'.TrimsTo limit := by
  rcases entries_of_evictOldestBlock h with ⟨first, rest, hentries, hrest, hcount⟩
  unfold TrimsTo StopsAt
  rw [hentries, hrest, forall_splits_cons]
  simp only [left_of_evictOldestBlock hcount, left_nil, reduceCtorEq, or_false]
  apply and_iff_right
  lia

/-!
## The loop
-/

theorem evictsOnlyAbove_of_stops {limit : Nat} {db : HashTableDb}
    (h : db.numEntries ≤ targetSize ∨ db.blockIndex.entries = []) :
    db.EvictsOnlyAbove limit := by
  intro front back hsplit _
  rcases h with hle | hnil
  · exact Or.inl ((db.left_le front).trans hle)
  · rw [hnil] at hsplit
    exact Or.inr (List.append_eq_nil_iff.mp hsplit.symm).right

theorem trimsTo_iff_of_stops {limit : Nat} {db : HashTableDb}
    (h : db.numEntries ≤ targetSize ∨ db.blockIndex.entries = []) :
    db.TrimsTo limit ↔ db.numEntries ≤ limit := by
  constructor
  · intro htrims
    exact htrims [] _ rfl h
  · intro hle front back _ _
    exact (db.left_le front).trans hle

theorem EvictsOnlyAbove.evictedAt {limit : Nat} {db : HashTableDb}
    (h : db.EvictsOnlyAbove limit) {total : Nat} (hmem : total ∈ db.evictedAt) :
    limit < total := by
  induction db using evictToTarget.induct with
  | case1 db hgt hnone =>
      rw [evictedAt_of_gt hgt, hnone] at hmem
      cases hmem
  | case2 db hgt evicted hevict =>
      rw [evictedAt_of_gt hgt, hevict] at hmem
      cases hmem
  | case3 db hgt evicted height hevict ih =>
      rw [evictedAt_of_gt hgt, hevict] at hmem
      have hsplit := (evictsOnlyAbove_cons hevict hgt).mp h
      rcases List.mem_cons.mp hmem with hnow | hlater
      · rw [hnow]
        exact hsplit.left
      · exact ih hsplit.right hlater
  | case4 db hle =>
      rw [evictedAt_of_le (Nat.le_of_not_gt hle)] at hmem
      cases hmem

theorem evictsOnlyAbove_of_evictedAt {limit : Nat} {db db' : HashTableDb}
    (hloop : db.evictToTarget = some db')
    (h : forall total, total ∈ db.evictedAt -> limit < total) : db.EvictsOnlyAbove limit := by
  have hrounds := evictionRounds_of_evictToTarget hloop
  clear hloop
  induction hrounds with
  | done hle => exact evictsOnlyAbove_of_stops (Or.inl hle)
  | empty hevict =>
      exact evictsOnlyAbove_of_stops (Or.inr (entries_of_evictOldestBlock_none hevict).right)
  | round hgt hevict _ ih =>
      rw [evictedAt_of_gt hgt, hevict] at h
      apply (evictsOnlyAbove_cons hevict hgt).mpr
      refine ⟨h _ List.mem_cons_self, ih ?_⟩
      intro total hmem
      exact h total (List.mem_cons_of_mem _ hmem)

theorem trimsTo_iff {limit : Nat} {db db' : HashTableDb}
    (hloop : db.evictToTarget = some db') : db.TrimsTo limit ↔ db'.len ≤ limit := by
  have hrounds := evictionRounds_of_evictToTarget hloop
  clear hloop
  induction hrounds with
  | done hle => exact trimsTo_iff_of_stops (Or.inl hle)
  | empty hevict =>
      rcases entries_of_evictOldestBlock_none hevict with ⟨hsame, hnil⟩
      rw [hsame]
      exact trimsTo_iff_of_stops (Or.inr hnil)
  | round hgt hevict _ ih =>
      rw [trimsTo_cons hevict hgt]
      exact ih

/-- The condition is exact: where the loop ends, it evicts above the limit only and
leaves at most the limit if and only if both limits are reached at once. -/
theorem evictsWithin_iff {limit : Nat} {db db' : HashTableDb}
    (hloop : db.evictToTarget = some db') :
    db.EvictsWithin limit ↔
      (forall total, total ∈ db.evictedAt -> limit < total) ∧ db'.len ≤ limit := by
  constructor
  · intro h
    exact ⟨fun total hmem => h.onlyAbove.evictedAt hmem, (trimsTo_iff hloop).mp h.trims⟩
  · rintro ⟨habove, hle⟩
    exact ⟨evictsOnlyAbove_of_evictedAt hloop habove, (trimsTo_iff hloop).mpr hle⟩

theorem len_insertBlock_le (db : HashTableDb) (height : Nat) (blockHash : ByteVec 32)
    (nullifiers : List NullifierWithMeta) :
    (db.insertBlock height blockHash nullifiers).1.len ≤ db.len + nullifiers.length := by
  unfold insertBlock
  split <;> next hloop => exact (insertNullifiers_counts hloop).2.2.1

theorem evictsWithin_of_le {limit : Nat} {db : HashTableDb} (hlimit : db.len ≤ limit)
    (htarget : db.len ≤ targetSize) : db.EvictsWithin limit :=
  ⟨evictsOnlyAbove_of_stops (Or.inl htarget),
    (trimsTo_iff_of_stops (Or.inl htarget)).mpr hlimit⟩

theorem RepInvariant.evictsWithin_targetSize {db : HashTableDb} (h : RepInvariant db) :
    db.EvictsWithin targetSize := by
  constructor
  · intro front back _ hle
    exact Or.inl hle
  · intro front back hsplit hstops
    rcases hstops with hle | hnil
    · exact hle
    · rw [hnil, List.append_nil] at hsplit
      rw [left, h.len_eq, hsplit, Nat.sub_self]
      exact Nat.zero_le _

end HashTableDb
end Nullifier
end SpendabilityPir
