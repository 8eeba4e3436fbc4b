import Mathlib.Data.Fintype.Card
import SpendabilityPir.Nullifier.TableSafety
import SpendabilityPir.Nullifier.TableSnapshot

/-!
# Insertion and full buckets

A block fits when each of its nullifiers finds a free slot after the ones before it
took theirs.  An insertion that does not fit stops at the first full bucket and
keeps what it wrote; it is harmless exactly when it had written nothing.
-/

namespace SpendabilityPir
namespace Nullifier

open Foundation

namespace Bucket

def freeSlots (bucket : Bucket) : Nat :=
  (Finset.univ.filter (fun i => (bucket.entries i).isEmpty = true)).card

theorem findFreeSlot_eq_none_iff {bucket : Bucket} :
    bucket.findFreeSlot = none ↔ bucket.freeSlots = 0 := by
  rw [findFreeSlot, freeSlots, List.find?_eq_none, Finset.card_eq_zero,
    Finset.filter_eq_empty_iff]
  constructor
  · intro h i _
    exact h i (List.mem_finRange i)
  · intro h i _
    exact h (Finset.mem_univ i)

theorem freeSlots_new : new.freeSlots = bucketCapacity := by
  have hall : Finset.univ.filter (fun i => (new.entries i).isEmpty = true) =
      Finset.univ :=
    Finset.filter_true_of_mem (fun _ _ => NullifierEntry.isEmpty_zero)
  rw [freeSlots, hall, Finset.card_univ, Fintype.card_fin]

theorem freeSlots_put_of_occupied {bucket : Bucket} {slot : Fin bucketCapacity}
    {entry : NullifierEntry} (hslot : (bucket.entries slot).isEmpty = true)
    (hentry : entry.isEmpty = false) :
    (bucket.put slot entry).freeSlots + 1 = bucket.freeSlots := by
  have herase :
      Finset.univ.filter (fun i => ((bucket.put slot entry).entries i).isEmpty = true) =
        (Finset.univ.filter (fun i => (bucket.entries i).isEmpty = true)).erase slot := by
    apply Finset.ext
    intro i
    rw [put_entries, Finset.mem_erase, Finset.mem_filter, Finset.mem_filter]
    by_cases hi : i = slot
    · rw [hi, Function.update_self, hentry]
      simp
    · rw [Function.update_of_ne hi]
      simp [hi]
  have hmem : slot ∈ Finset.univ.filter (fun i => (bucket.entries i).isEmpty = true) :=
    Finset.mem_filter.mpr ⟨Finset.mem_univ slot, hslot⟩
  rw [freeSlots, herase, freeSlots]
  exact Finset.card_erase_add_one hmem

theorem freeSlots_put_of_empty {bucket : Bucket} {slot : Fin bucketCapacity}
    {entry : NullifierEntry} (hslot : (bucket.entries slot).isEmpty = true)
    (hentry : entry.isEmpty = true) :
    (bucket.put slot entry).freeSlots = bucket.freeSlots := by
  have hsame : forall i, ((bucket.put slot entry).entries i).isEmpty =
      (bucket.entries i).isEmpty := by
    intro i
    rw [put_entries]
    by_cases hi : i = slot
    · rw [hi, Function.update_self, hentry, hslot]
    · rw [Function.update_of_ne hi]
  simp only [freeSlots, hsame]

end Bucket

namespace HashTableDb

/-- A nullifier that takes a slot of bucket b when it is inserted. -/
def takesSlot (b : Fin numBuckets) (nwm : NullifierWithMeta) : Bool :=
  decide (hashToBucket nwm.nullifier = b) &&
    ! decide (nwm.nullifier = ByteVec.zeros 32)

/-- The number of slots of bucket b that a list of nullifiers takes. -/
def demand (b : Fin numBuckets) (nullifiers : List NullifierWithMeta) : Nat :=
  nullifiers.countP (takesSlot b)

/-- Each nullifier finds a free slot after the ones before it took theirs. -/
def RoomFor (db : HashTableDb) (nullifiers : List NullifierWithMeta) : Prop :=
  forall front nwm back, nullifiers = front ++ nwm :: back ->
    demand (hashToBucket nwm.nullifier) front <
      (db.buckets (hashToBucket nwm.nullifier)).freeSlots

def FirstBucketFull (db : HashTableDb) (nullifiers : List NullifierWithMeta) : Prop :=
  exists nwm rest, nullifiers = nwm :: rest ∧
    (db.buckets (hashToBucket nwm.nullifier)).freeSlots = 0

structure Unchanged (xxh64 : List UInt8 -> Nat -> UInt64) (db db' : HashTableDb) :
    Prop where
  entries : forall b, (db'.buckets b).entries = (db.buckets b).entries
  pirBytes : db'.toPirBytes = db.toPirBytes
  snapshot : db'.toSnapshot xxh64 = db.toSnapshot xxh64
  len : db'.len = db.len
  blockIndex : db'.blockIndex = db.blockIndex
  blockHashToHeight : db'.blockHashToHeight = db.blockHashToHeight

theorem Unchanged.refl (xxh64 : List UInt8 -> Nat -> UInt64) (db : HashTableDb) :
    Unchanged xxh64 db db :=
  { entries := fun _ => rfl
    pirBytes := rfl
    snapshot := rfl
    len := rfl
    blockIndex := rfl
    blockHashToHeight := rfl }

theorem freeSlots_putEntry {db : HashTableDb} (spendHeight : UInt32)
    {nwm : NullifierWithMeta} {slot : Fin bucketCapacity}
    (hfree : (db.buckets (hashToBucket nwm.nullifier)).findFreeSlot = some slot)
    (b : Fin numBuckets) :
    ((db.putEntry (hashToBucket nwm.nullifier) slot
        (entryOf spendHeight nwm)).buckets b).freeSlots + demand b [nwm] =
      (db.buckets b).freeSlots := by
  have hslot := findFreeSlot_isEmpty hfree
  show (Function.update db.buckets (hashToBucket nwm.nullifier) _ b).freeSlots + _ = _
  by_cases hb : hashToBucket nwm.nullifier = b
  · subst hb
    rw [Function.update_self]
    by_cases hzero : nwm.nullifier = ByteVec.zeros 32
    · have hentry : (entryOf spendHeight nwm).isEmpty = true := decide_eq_true hzero
      have hdemand : demand (hashToBucket nwm.nullifier) [nwm] = 0 := by
        simp [demand, takesSlot, hzero]
      rw [Bucket.freeSlots_put_of_empty hslot hentry, hdemand, Nat.add_zero]
    · have hentry : (entryOf spendHeight nwm).isEmpty = false := decide_eq_false hzero
      have hdemand : demand (hashToBucket nwm.nullifier) [nwm] = 1 := by
        simp [demand, takesSlot, hzero]
      rw [hdemand, Bucket.freeSlots_put_of_occupied hslot hentry]
  · have hdemand : demand b [nwm] = 0 := by
      simp [demand, takesSlot, hb]
    rw [Function.update_of_ne (fun heq => hb heq.symm), hdemand, Nat.add_zero]

theorem demand_cons (b : Fin numBuckets) (nwm : NullifierWithMeta)
    (rest : List NullifierWithMeta) :
    demand b (nwm :: rest) = demand b rest + demand b [nwm] := by
  have hsplit : nwm :: rest = [nwm] ++ rest := rfl
  rw [demand, hsplit, List.countP_append, Nat.add_comm]
  rfl

theorem roomFor_nil (db : HashTableDb) : RoomFor db [] := by
  intro front nwm back heq
  have hlength := congrArg List.length heq
  simp at hlength

theorem roomFor_singleton {db : HashTableDb} {nwm : NullifierWithMeta}
    (h : 0 < (db.buckets (hashToBucket nwm.nullifier)).freeSlots) :
    RoomFor db [nwm] := by
  intro front other back heq
  cases front with
  | nil =>
      cases heq
      exact h
  | cons first front =>
      have hlength := congrArg List.length heq
      simp at hlength

theorem roomFor_cons_iff {db : HashTableDb} (spendHeight : UInt32)
    {nwm : NullifierWithMeta} {rest : List NullifierWithMeta}
    {slot : Fin bucketCapacity}
    (hfree : (db.buckets (hashToBucket nwm.nullifier)).findFreeSlot = some slot) :
    RoomFor db (nwm :: rest) ↔
      RoomFor (db.putEntry (hashToBucket nwm.nullifier) slot
        (entryOf spendHeight nwm)) rest := by
  constructor
  · intro hroom front other back heq
    have hlt := hroom (nwm :: front) other back (by rw [heq]; rfl)
    have hput := freeSlots_putEntry spendHeight hfree
      (hashToBucket other.nullifier)
    rw [demand_cons] at hlt
    lia
  · intro hroom front other back heq
    cases front with
    | nil =>
        cases heq
        have hpositive : (db.buckets (hashToBucket nwm.nullifier)).freeSlots ≠ 0 := by
          intro hzero
          rw [Bucket.findFreeSlot_eq_none_iff.mpr hzero] at hfree
          cases hfree
        exact Nat.pos_of_ne_zero hpositive
    | cons first front =>
        cases heq
        have hlt := hroom front other back rfl
        have hput := freeSlots_putEntry spendHeight hfree
          (hashToBucket other.nullifier)
        rw [demand_cons]
        lia

/-- The insertion loop succeeds exactly when the nullifiers fit. -/
theorem insertNullifiers_ok_iff (spendHeight : UInt32) (slots : List (Nat × Nat))
    {nullifiers : List NullifierWithMeta} {db : HashTableDb} :
    (exists slots', (insertNullifiers spendHeight db slots nullifiers).2 = .ok slots') ↔
      RoomFor db nullifiers := by
  induction nullifiers generalizing db slots with
  | nil => exact ⟨fun _ => roomFor_nil db, fun _ => ⟨slots, rfl⟩⟩
  | cons nwm rest ih =>
      rw [insertNullifiers]
      cases hfree : (db.buckets (hashToBucket nwm.nullifier)).findFreeSlot with
      | none =>
          constructor
          · rintro ⟨slots', hfalse⟩
            cases hfalse
          · intro hroom
            have hpositive := hroom [] nwm rest rfl
            rw [Bucket.findFreeSlot_eq_none_iff.mp hfree] at hpositive
            exact absurd hpositive (Nat.not_lt_zero _)
      | some slot =>
          rw [roomFor_cons_iff spendHeight hfree]
          exact ih _

theorem numEntries_lt_insertNullifiers (spendHeight : UInt32) {nwm : NullifierWithMeta}
    (rest : List NullifierWithMeta) {db : HashTableDb} (slots : List (Nat × Nat))
    (h : (db.buckets (hashToBucket nwm.nullifier)).freeSlots ≠ 0) :
    db.numEntries <
      (insertNullifiers spendHeight db slots (nwm :: rest)).1.numEntries := by
  rw [insertNullifiers]
  cases hfree : (db.buckets (hashToBucket nwm.nullifier)).findFreeSlot with
  | none => exact absurd (Bucket.findFreeSlot_eq_none_iff.mp hfree) h
  | some slot =>
      have hgrow := (insertNullifiers_counts (Eq.refl (insertNullifiers spendHeight
        (db.putEntry (hashToBucket nwm.nullifier) slot (entryOf spendHeight nwm))
        (slots ++ [((hashToBucket nwm.nullifier).val, slot.val)]) rest))).2.1
      exact Nat.lt_of_lt_of_le (Nat.lt_succ_self _) hgrow

theorem insertBlock_error_iff {db db' : HashTableDb} {height : Nat}
    {blockHash : ByteVec 32} {nullifiers : List NullifierWithMeta}
    {e : HashTableError} :
    db.insertBlock height blockHash nullifiers = (db', .error e) ↔
      insertNullifiers (UInt32.ofNat height) db [] nullifiers = (db', .error e) := by
  unfold insertBlock
  cases hloop : insertNullifiers (UInt32.ofNat height) db [] nullifiers with
  | mk mid result => cases result <;> simp

theorem insertBlock_ok_iff {db : HashTableDb} {height : Nat} {blockHash : ByteVec 32}
    {nullifiers : List NullifierWithMeta} :
    (exists db', db.insertBlock height blockHash nullifiers = (db', .ok ())) ↔
      RoomFor db nullifiers := by
  rw [← insertNullifiers_ok_iff (UInt32.ofNat height) []]
  unfold insertBlock
  cases hloop : insertNullifiers (UInt32.ofNat height) db [] nullifiers with
  | mk mid result => cases result <;> simp

theorem insertBlock_of_firstBucketFull {db db' : HashTableDb} {height : Nat}
    {blockHash : ByteVec 32} {nullifiers : List NullifierWithMeta}
    {e : HashTableError} (hfull : FirstBucketFull db nullifiers)
    (h : db.insertBlock height blockHash nullifiers = (db', .error e)) : db' = db := by
  rcases hfull with ⟨nwm, rest, heq, hzero⟩
  rw [insertBlock_error_iff, heq, insertNullifiers,
    Bucket.findFreeSlot_eq_none_iff.mpr hzero] at h
  cases h
  rfl

theorem insertBlock_leaves_entries {db : HashTableDb} {nullifiers : List NullifierWithMeta}
    (height : Nat) (blockHash : ByteVec 32) (hroom : ¬ RoomFor db nullifiers)
    (hfirst : ¬ FirstBucketFull db nullifiers) :
    exists db' e, db.insertBlock height blockHash nullifiers = (db', .error e) ∧
      db.len < db'.len := by
  cases hinsert : db.insertBlock height blockHash nullifiers with
  | mk db' result =>
      cases result with
      | ok u => exact absurd (insertBlock_ok_iff.mp ⟨db', hinsert⟩) hroom
      | error e =>
          refine ⟨db', e, rfl, ?_⟩
          cases nullifiers with
          | nil => exact absurd (roomFor_nil db) hroom
          | cons nwm rest =>
              have hfree : (db.buckets (hashToBucket nwm.nullifier)).freeSlots ≠ 0 :=
                fun hzero => hfirst ⟨nwm, rest, rfl, hzero⟩
              have hgrow := numEntries_lt_insertNullifiers
                (UInt32.ofNat height) rest [] hfree
              rw [insertBlock_error_iff.mp hinsert] at hgrow
              exact hgrow

/-- A failing insertion leaves the table as it was exactly when the block fits, so
that it does not fail, or the bucket of its first nullifier is full. -/
theorem insertBlock_atomic_iff (xxh64 : List UInt8 -> Nat -> UInt64) (db : HashTableDb)
    (height : Nat) (blockHash : ByteVec 32) (nullifiers : List NullifierWithMeta) :
    (forall db' e, db.insertBlock height blockHash nullifiers = (db', .error e) ->
      Unchanged xxh64 db db') ↔
      RoomFor db nullifiers ∨ FirstBucketFull db nullifiers := by
  constructor
  · intro hatomic
    by_contra hneither
    rw [not_or] at hneither
    rcases insertBlock_leaves_entries height blockHash hneither.left hneither.right with
      ⟨db', e, hinsert, hgrow⟩
    rw [(hatomic db' e hinsert).len] at hgrow
    exact Nat.lt_irrefl _ hgrow
  · rintro (hroom | hfull) db' e hinsert
    · rcases insertBlock_ok_iff.mpr hroom with ⟨db'', hok⟩
      rw [hok] at hinsert
      cases hinsert
    · rw [insertBlock_of_firstBucketFull hfull hinsert]
      exact Unchanged.refl xxh64 db

/-- A block of distinct nullifiers ground into bucket zero, one more than it holds. -/
def groundBlock : List NullifierWithMeta :=
  (List.range (bucketCapacity + 1)).map (fun i =>
    { nullifier := ByteVec.ofBytes 32 [0, 0, 0, 0, UInt8.ofNat (i + 1)]
      firstOutputPosition := UInt32.ofNat i
      actionCount := 1 })

theorem groundBlock_not_roomFor : ¬ RoomFor new groundBlock := by
  intro hroom
  have hlast := hroom (groundBlock.take bucketCapacity)
    { nullifier := ByteVec.ofBytes 32 [0, 0, 0, 0, 113]
      firstOutputPosition := 112
      actionCount := 1 } [] (by decide +kernel)
  rw [show (new.buckets _).freeSlots = bucketCapacity from Bucket.freeSlots_new]
    at hlast
  revert hlast
  decide +kernel

theorem new_not_firstBucketFull (nullifiers : List NullifierWithMeta) :
    ¬ FirstBucketFull new nullifiers := by
  rintro ⟨nwm, rest, _, hzero⟩
  rw [show (new.buckets _).freeSlots = bucketCapacity from Bucket.freeSlots_new]
    at hzero
  exact absurd hzero (by decide)

/-- On the empty table the ground block fails and leaves entries behind. -/
theorem groundBlock_not_atomic :
    ¬ exists xxh64 : List UInt8 -> Nat -> UInt64,
      forall db' e,
        new.insertBlock 1 (ByteVec.zeros 32) groundBlock = (db', .error e) ->
          Unchanged xxh64 new db' := by
  rintro ⟨xxh64, hatomic⟩
  rcases insertBlock_leaves_entries 1 (ByteVec.zeros 32) groundBlock_not_roomFor
      (new_not_firstBucketFull _) with ⟨db', e, hinsert, hgrow⟩
  rw [(hatomic db' e hinsert).len] at hgrow
  exact Nat.lt_irrefl _ hgrow

end HashTableDb
end Nullifier
end SpendabilityPir
