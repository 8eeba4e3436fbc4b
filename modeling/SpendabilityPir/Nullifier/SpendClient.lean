import SpendabilityPir.Nullifier.TableRefinement

/-!
# The spend client

The client cuts a decoded row into 41-byte entries and decodes the metadata of the
first one that carries its nullifier.
-/

namespace SpendabilityPir
namespace Nullifier

open Foundation

def scanBucketForNf (decodedRow : List UInt8) (nf : ByteVec 32) :
    Option SpendMetadata :=
  let bucketData :=
    if decodedRow.length ≥ bucketBytes then decodedRow.take bucketBytes
    else decodedRow
  ((chunksExact entryBytes bucketData).find?
      (fun entry => decide (slice entry 0 32 = nf.toList))).map
    (fun entry => SpendMetadata.fromEntryTail (ByteVec.ofBytes 9 (slice entry 32 9)))

theorem chunksExact_bucketPirBytes (bucket : Bucket) :
    chunksExact entryBytes (HashTableDb.bucketPirBytes bucket) =
      (List.finRange bucketCapacity).map
        (fun i => (bucket.entries i).toBytes.toList) :=
  chunksExact_flatMap_const (by decide)
    (fun i => (bucket.entries i).length_toBytes) _

theorem slice_toBytes_metadata (entry : NullifierEntry) :
    SpendMetadata.fromEntryTail
      (ByteVec.ofBytes 9 (slice entry.toBytes.toList 32 9)) = entry.metadata := by
  have htail : slice entry.toBytes.toList 32 9 = entry.tailBytes := by
    have hlen : entry.tailBytes.length = 9 := by simp [NullifierEntry.tailBytes]
    have hslice := entry.slice_toBytes_tail 0 9
    rw [hslice]
    exact List.take_of_length_le (Nat.le_of_eq hlen)
  rw [htail, fromEntryTail_tailBytes]

theorem find?_entryBytes (bucket : Bucket) (slots : List (Fin bucketCapacity))
    (nf : ByteVec 32) :
    ((slots.map (fun i => (bucket.entries i).toBytes.toList)).find?
      (fun entry => decide (slice entry 0 32 = nf.toList))).map
        (fun entry => SpendMetadata.fromEntryTail (ByteVec.ofBytes 9 (slice entry 32 9))) =
      (slots.find? (fun i => decide ((bucket.entries i).nullifier = nf))).map
        (fun i => (bucket.entries i).metadata) := by
  have hmatch : forall i : Fin bucketCapacity,
      decide (slice (bucket.entries i).toBytes.toList 0 32 = nf.toList) =
        decide ((bucket.entries i).nullifier = nf) := by
    intro i
    rw [NullifierEntry.slice_toBytes_nullifier]
    apply decide_eq_decide.mpr
    constructor
    · exact List.Vector.eq _ _
    · intro heq
      rw [heq]
  simp only [List.find?_map, Option.map_map, Function.comp_def, hmatch,
    slice_toBytes_metadata]

theorem scanBucketForNf_of_take {bucket : Bucket} {row : List UInt8} {n : Nat}
    (h : row.take bucketBytes = (HashTableDb.bucketPirBytes bucket).take n)
    (nf : ByteVec 32) :
    scanBucketForNf row nf =
      (((List.finRange bucketCapacity).take (n / entryBytes)).find?
        (fun i => decide ((bucket.entries i).nullifier = nf))).map
          (fun i => (bucket.entries i).metadata) := by
  have hdata : (if row.length ≥ bucketBytes then row.take bucketBytes else row) =
      row.take bucketBytes := by
    split
    · rfl
    · next hshort => rw [List.take_of_length_le (Nat.le_of_not_le hshort)]
  have hchunks : chunksExact entryBytes ((HashTableDb.bucketPirBytes bucket).take n) =
      ((List.finRange bucketCapacity).take (n / entryBytes)).map
        (fun i => (bucket.entries i).toBytes.toList) := by
    rw [chunksExact_take (by decide), chunksExact_bucketPirBytes, List.map_take]
  unfold scanBucketForNf
  rw [hdata, h]
  simp only [hchunks]
  exact find?_entryBytes bucket _ nf

theorem scanBucketForNf_bucketPirBytes (bucket : Bucket) (nf : ByteVec 32) :
    scanBucketForNf (HashTableDb.bucketPirBytes bucket) nf =
      ((List.finRange bucketCapacity).find?
        (fun i => decide ((bucket.entries i).nullifier = nf))).map
          (fun i => (bucket.entries i).metadata) := by
  have hall : (List.finRange bucketCapacity).take (bucketBytes / entryBytes) =
      List.finRange bucketCapacity := by
    apply List.take_of_length_le
    rw [List.length_finRange]
    exact Nat.le_refl _
  rw [scanBucketForNf_of_take rfl nf, hall]

theorem scanBucketForNf_isSome_iff (bucket : Bucket) (nf : ByteVec 32) :
    (scanBucketForNf (HashTableDb.bucketPirBytes bucket) nf).isSome = true ↔
      exists i, (bucket.entries i).nullifier = nf := by
  rw [scanBucketForNf_bucketPirBytes, Option.isSome_map, List.find?_isSome]
  simp

theorem entry_of_scanBucketForNf {bucket : Bucket} {nf : ByteVec 32}
    {metadata : SpendMetadata}
    (h : scanBucketForNf (HashTableDb.bucketPirBytes bucket) nf = some metadata) :
    exists i, (bucket.entries i).nullifier = nf ∧
      metadata = (bucket.entries i).metadata := by
  rw [scanBucketForNf_bucketPirBytes] at h
  rcases Option.map_eq_some_iff.mp h with ⟨i, hfind, hmeta⟩
  exact ⟨i, by simpa using List.find?_some hfind, hmeta.symm⟩

namespace HashTableDb

theorem exists_right_of_forall₂ {α β : Type _} {R : α -> β -> Prop} {xs : List α}
    {ys : List β} (h : List.Forall₂ R xs ys) {x : α} (hx : x ∈ xs) :
    exists y, y ∈ ys ∧ R x y := by
  induction h with
  | nil => cases hx
  | cons hhead _ ih =>
      rcases List.mem_cons.mp hx with heq | hrest
      · exact ⟨_, List.mem_cons_self, heq ▸ hhead⟩
      · rcases ih hrest with ⟨y, hy, hxy⟩
        exact ⟨y, List.mem_cons_of_mem _ hy, hxy⟩

theorem Represents.inserted_of_entry {db : HashTableDb} {live : LiveBlocks}
    (hrep : Represents db live) {b : Fin numBuckets} {i : Fin bucketCapacity}
    (h : ((db.buckets b).entries i).isEmpty = false) :
    exists height nwm, live.Inserted height nwm ∧
      hashToBucket nwm.nullifier = b ∧
      (db.buckets b).entries i = entryOf (UInt32.ofNat height) nwm := by
  have hoccupied : (entryAt db.buckets (b.val, i.val)).isEmpty = false := by
    rw [entryAt_val]
    exact h
  rcases mem_slotRefs.mp ((hrep.owned.occupied _).mpr hoccupied) with
    ⟨height, record, hrecord, hslot⟩
  rcases hrep.holds hrecord with ⟨block, hblock, hholds⟩
  rcases exists_right_of_forall₂ hholds.right hslot with ⟨nwm, hnwm, hbucket, hentry⟩
  rw [entryAt_val] at hentry
  exact ⟨height, nwm, ⟨block, hblock, hnwm⟩, Fin.ext hbucket.symm, hentry⟩

theorem Represents.entry_of_inserted {db : HashTableDb} {live : LiveBlocks}
    (hrep : Represents db live) {height : Nat} {nwm : NullifierWithMeta}
    (h : live.Inserted height nwm) :
    exists i, (db.buckets (hashToBucket nwm.nullifier)).entries i =
      entryOf (UInt32.ofNat height) nwm := by
  rcases h with ⟨block, hblock, hnwm⟩
  rcases hrep.find?_record hblock with ⟨record, hrecord, hholds⟩
  rcases exists_right_of_forall₂ hholds.right.flip hnwm with
    ⟨slot, hslot, hbucket, hentry⟩
  have hoccupied := (hrep.owned.occupied slot).mp
    (mem_slotRefs.mpr ⟨height, record, hrecord, hslot⟩)
  have hrange := inRange_of_entryAt_nonempty hoccupied
  have hval : slot = ((hashToBucket nwm.nullifier).val,
      (⟨slot.2, hrange.right⟩ : Fin bucketCapacity).val) :=
    Prod.ext hbucket rfl
  rw [hval, entryAt_val] at hentry
  exact ⟨_, hentry⟩

/-- Server-side membership is membership in a live block. -/
theorem Represents.contains_iff {db : HashTableDb} {live : LiveBlocks}
    (hrep : Represents db live) {nf : ByteVec 32} (hnf : nf ≠ ByteVec.zeros 32) :
    (exists i, ((db.buckets (hashToBucket nf)).entries i).nullifier = nf) ↔
      live.ContainsNullifier nf := by
  constructor
  · rintro ⟨i, hi⟩
    have hoccupied :
        ((db.buckets (hashToBucket nf)).entries i).isEmpty = false := by
      apply decide_eq_false
      rw [hi]
      exact hnf
    rcases hrep.inserted_of_entry hoccupied with ⟨height, nwm, hlive, _, hentry⟩
    refine ⟨height, nwm, hlive, ?_⟩
    rw [hentry] at hi
    exact hi
  · rintro ⟨height, nwm, hlive, hnwm⟩
    rcases hrep.entry_of_inserted hlive with ⟨i, hi⟩
    rw [hnwm] at hi
    refine ⟨i, ?_⟩
    rw [hi]
    exact hnwm

theorem Represents.nonzero_of_inserted {db : HashTableDb} {live : LiveBlocks}
    (hrep : Represents db live) {height : Nat} {nwm : NullifierWithMeta}
    (h : live.Inserted height nwm) : nwm.nullifier ≠ ByteVec.zeros 32 := by
  rcases h with ⟨block, hblock, hnwm⟩
  rcases hrep.find?_record hblock with ⟨record, hrecord, hholds⟩
  rcases exists_right_of_forall₂ hholds.right.flip hnwm with ⟨slot, hslot, _, hentry⟩
  have hoccupied := (hrep.owned.occupied slot).mp
    (mem_slotRefs.mpr ⟨height, record, hrecord, hslot⟩)
  rw [hentry] at hoccupied
  exact of_decide_eq_false hoccupied

theorem Represents.inserted_of_scan {db : HashTableDb} {live : LiveBlocks}
    (hrep : Represents db live) {nf : ByteVec 32} (hnf : nf ≠ ByteVec.zeros 32)
    {metadata : SpendMetadata}
    (h : scanBucketForNf (bucketPirBytes (db.buckets (hashToBucket nf))) nf =
      some metadata) :
    exists height nwm, live.Inserted height nwm ∧ nwm.nullifier = nf ∧
      metadata = (entryOf (UInt32.ofNat height) nwm).metadata := by
  rcases entry_of_scanBucketForNf h with ⟨i, hi, hmeta⟩
  have hoccupied : ((db.buckets (hashToBucket nf)).entries i).isEmpty = false := by
    apply decide_eq_false
    rw [hi]
    exact hnf
  rcases hrep.inserted_of_entry hoccupied with ⟨height, nwm, hlive, _, hentry⟩
  rw [hentry] at hi hmeta
  exact ⟨height, nwm, hlive, hi, hmeta⟩

end HashTableDb
end Nullifier
end SpendabilityPir
