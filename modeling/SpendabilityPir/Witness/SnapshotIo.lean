import SpendabilityPir.Foundation.AtomicReplace
import SpendabilityPir.Witness.PublishedWitness
import SpendabilityPir.Witness.TreeRoundTrip

/-!
# The snapshot file of the witness server

A snapshot is written to a temporary file, synced and renamed.  Whatever interrupts this,
a load finds no file or a tree that was being saved, with its window and its cache.
-/

namespace SpendabilityPir
namespace Witness

open Foundation Shared

def snapshotFilename : String := "witness_snapshot.bin"
def snapshotTmpFilename : String := "witness_snapshot.bin.tmp"

inductive SnapshotIoError where
  | io
  | decode (e : TreeError)

/-- What `save_snapshot` does to the data directory, call by call, and what may happen to
it in between. -/
abbrev SaveStep : Replacing String -> ReplaceLabel -> Replacing String -> Prop :=
  ReplaceStep snapshotTmpFilename snapshotFilename

def loadSnapshot (mode : Arithmetic) (xxh64 : List UInt8 -> Nat -> UInt64)
    (fs : FileSystem String) : Outcome SnapshotIoError CommitmentTreeDb :=
  match fs.read snapshotFilename with
  | none => .error (.error .io)
  | some data => (CommitmentTreeDb.fromSnapshot mode xxh64 data).mapErr .decode

theorem snapshotFilenames_ne : snapshotTmpFilename ≠ snapshotFilename := by decide

/-!
## Records of a window
-/

theorem sum_recordsFrom (blocks : List CompactBlock) (leafOffset size : Nat)
    (hcount : (commitmentsOf blocks).length < 2 ^ 32) :
    ((recordsFrom leafOffset size blocks).map BlockRecord.numCommitments).sum +
      max size leafOffset = max (size + (commitmentsOf blocks).length) leafOffset := by
  induction blocks generalizing size with
  | nil => exact Nat.zero_add _
  | cons block rest ih =>
      rw [commitmentsOf_cons, List.length_append] at hcount ⊢
      have hrest := ih (size + (extractCommitments block).length) (by lia)
      have hrecord : (recordOf leafOffset size block).numCommitments =
          min (extractCommitments block).length
            (size + (extractCommitments block).length - leafOffset) :=
        asU32_of_lt (by lia)
      rw [recordsFrom, List.map_cons, List.sum_cons, hrecord]
      lia

theorem length_recordsFrom (leafOffset size : Nat) (blocks : List CompactBlock) :
    (recordsFrom leafOffset size blocks).length = blocks.length := by
  induction blocks generalizing size with
  | nil => rfl
  | cons block rest ih => simp [recordsFrom, ih]

theorem fits_of_mem_recordsFrom {leafOffset size : Nat} {blocks : List CompactBlock}
    {record : BlockRecord} (h : record ∈ recordsFrom leafOffset size blocks) :
    record.height < 2 ^ 64 ∧ record.numCommitments < 2 ^ 32 := by
  induction blocks generalizing size with
  | nil => cases h
  | cons block rest ih =>
      rcases List.mem_cons.mp h with heq | hrest
      · rw [heq]
        exact ⟨block.height.toNat_lt, Nat.mod_lt _ (by decide)⟩
      · exact ih hrest

section Load

variable {M : MerkleHashOrchard} {mode : Arithmetic} {xxh64 : List UInt8 -> Nat -> UInt64}
variable {w : Window} {chain : ChainView} {U : BlockUniverse} {n : Nat}
variable {tree : CommitmentTreeDb}

/-- A tree is on a window through one block only. -/
theorem OnWindow.unique {m : Nat} (h : OnWindow M w chain n tree)
    (h' : OnWindow M w chain m tree) : n = m := by
  have hlength := congrArg List.length (h.blocks.symm.trans h'.blocks)
  rw [length_recordsFrom, length_recordsFrom, List.length_drop, List.length_drop,
    h.length_take, h'.length_take] at hlength
  have hn := h.base_le
  have hm := h'.base_le
  lia

theorem OnWindow.totalCommitments_eq (h : OnWindow M w chain n tree) (hw : w.Sound M chain)
    (hchain : HonestChain U M chain) : tree.totalCommitments = tree.leaves.length := by
  have hlt := hchain.commitments.length_lt hchain.blocks.nonempty
  have hle := length_commitmentsOf_take_le chain n
  have hsplit : (commitmentsOf (chain.take w.base)).length +
      (commitmentsOf ((chain.take n).drop w.base)).length =
        (commitmentsOf (chain.take n)).length := by
    rw [← h.take_base, ← List.length_append, ← commitmentsOf_append, List.take_append_drop]
  have hsum := sum_recordsFrom ((chain.take n).drop w.base) w.leafOffset
    (commitmentsOf (chain.take w.base)).length (by lia)
  have hrecorded := hw.recorded
  have hoffset := h.offset_le
  rw [CommitmentTreeDb.totalCommitments, h.blocks, h.leaves, List.length_drop]
  lia

theorem OnWindow.inMemory (h : OnWindow M w chain n tree) (hw : w.Sound M chain)
    (hchain : HonestChain U M chain) (hshort : chain.length ≤ 2 ^ 31) :
    CommitmentTreeDb.InMemory tree := by
  have hshard : shardLeaves = 65536 := rfl
  have hmax : l0MaxShards = 32 := rfl
  have hlt := hchain.commitments.length_lt hchain.blocks.nonempty
  have hle := length_commitmentsOf_take_le chain n
  have hcapacity := hw.capacity
  have hoffset := hw.offset_le
  apply CommitmentTreeDb.inMemory_of_small
  · rw [h.blocks, length_recordsFrom, h.leaves, h.invariant.prefetched, hw.counted,
      List.length_drop, List.length_drop, h.length_take]
    have hn := h.le
    rw [hshard, hmax] at *
    lia
  · intro block hblock
    rw [h.blocks] at hblock
    exact (fits_of_mem_recordsFrom hblock).left
  · intro block hblock
    rw [h.blocks] at hblock
    exact (fits_of_mem_recordsFrom hblock).right
  · have hsize := h.treeSize_le hchain
    lia

theorem OnWindow.loadSnapshot_eq (h : OnWindow M w chain n tree) (hw : w.Sound M chain)
    (hchain : HonestChain U M chain) (hshort : chain.length ≤ 2 ^ 31)
    {fs : FileSystem String} (hread : fs.read snapshotFilename = some (tree.toSnapshot xxh64)) :
    loadSnapshot mode xxh64 fs = .ok tree := by
  have hrestored : CommitmentTreeDb.fromSnapshot mode xxh64 (tree.toSnapshot xxh64) = .ok tree :=
    CommitmentTreeDb.fromSnapshot_toSnapshot (h.inMemory hw hchain hshort)
      (h.totalCommitments_eq hw hchain) (fun _ => h.aligned hw)
  rw [loadSnapshot, hread]
  simp only [hrestored, Outcome.mapErr]

/-- The bytes are the snapshot of a tree with a record, on a window of the chain. -/
def SavedTree (M : MerkleHashOrchard) (xxh64 : List UInt8 -> Nat -> UInt64)
    (chain : ChainView) (data : List UInt8) : Prop :=
  exists w n tree, w.Sound M chain ∧ w.base < n ∧ OnWindow M w chain n tree ∧
    data = tree.toSnapshot xxh64

theorem loadSnapshot_of_offers (mode : Arithmetic) (hchain : HonestChain U M chain)
    (hshort : chain.length ≤ 2 ^ 31) {s : Replacing String} {a : AtomicFile}
    (h : StandsFor snapshotTmpFilename snapshotFilename s a)
    (hoffers : a.Offers (SavedTree M xxh64 chain)) :
    loadSnapshot mode xxh64 s.fs = .error (.error .io) ∨
      exists w n tree, w.Sound M chain ∧ w.base < n ∧ OnWindow M w chain n tree ∧
        loadSnapshot mode xxh64 s.fs = .ok tree := by
  rcases h.read_of_offers hoffers with hnone | ⟨data, hread, w, n, tree, hw, hbase, hon, heq⟩
  · left
    simp only [loadSnapshot, hnone]
  · rw [heq] at hread
    exact Or.inr ⟨w, n, tree, hw, hbase, hon, hon.loadSnapshot_eq hw hchain hshort hread⟩

end Load

end Witness
end SpendabilityPir
