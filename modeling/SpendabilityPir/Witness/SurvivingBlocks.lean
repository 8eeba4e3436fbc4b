import SpendabilityPir.Foundation.SortedList
import SpendabilityPir.Witness.TreeHistory

/-!
# Rollbacks erase history

The blocks that survive a history are those appended and not rolled back later.  The
tree holds their commitments and records and nothing else, so it answers like a tree
that only ever appended them.
-/

namespace SpendabilityPir
namespace Witness

open Foundation

/-- A block as it is appended to the tree. -/
structure AppendedBlock where
  height : UInt64
  hash : ByteVec 32
  commitments : List Hash

def AppendedBlock.record (block : AppendedBlock) : BlockRecord :=
  { height := block.height.toNat
    hash := block.hash
    numCommitments := block.commitments.length }

def TreeOp.removes (height : UInt64) : TreeOp -> Bool
  | .rollbackTo targetHeight => decide (targetHeight < height)
  | .appendCommitments _ _ _ => false
  | .build _ => false
  | .restore _ => false

/-- The blocks that a history appends and does not roll back later, in order. -/
def survivors : List TreeOp -> List AppendedBlock
  | [] => []
  | .appendCommitments height hash commitments :: later =>
      if later.any (TreeOp.removes height) then survivors later
      else
        { height := height, hash := hash, commitments := commitments } ::
          survivors later
  | .rollbackTo _ :: later => survivors later
  | .build _ :: later => survivors later
  | .restore _ :: later => survivors later

def keepSurvivors (blocks : List AppendedBlock) : TreeOp -> List AppendedBlock
  | .appendCommitments height hash commitments =>
      blocks ++ [{ height := height, hash := hash, commitments := commitments }]
  | .rollbackTo targetHeight =>
      blocks.filter (fun block => decide (block.height ≤ targetHeight))
  | .build _ => blocks
  | .restore _ => blocks

theorem survivors_append (ops : List TreeOp) (op : TreeOp) :
    survivors (ops ++ [op]) = keepSurvivors (survivors ops) op := by
  induction ops with
  | nil => cases op <;> rfl
  | cons first rest ih =>
      cases first with
      | appendCommitments height hash commitments =>
          rw [List.cons_append, survivors, survivors, List.any_append, ih]
          cases hgone : rest.any (TreeOp.removes height) with
          | true => rfl
          | false =>
              cases op with
              | rollbackTo targetHeight =>
                  by_cases hle : height ≤ targetHeight
                  · have hnot : ¬ targetHeight < height := UInt64.not_lt.mpr hle
                    simp [TreeOp.removes, keepSurvivors, hle, hnot]
                  · have hlt : targetHeight < height := UInt64.not_le.mp hle
                    simp [TreeOp.removes, keepSurvivors, hle, hlt]
              | appendCommitments _ _ _ => rfl
              | build _ => rfl
              | restore _ => rfl
      | rollbackTo _ => exact ih
      | build _ => exact ih
      | restore _ => exact ih

theorem survivors_eq_foldl (ops : List TreeOp) :
    survivors ops = ops.foldl keepSurvivors [] := by
  induction ops using List.reverseRecOn with
  | nil => rfl
  | append_singleton ops op ih =>
      rw [survivors_append, List.foldl_append, ih]
      rfl

namespace CommitmentTreeDb

def replay (leafOffset : Nat) (prefetchedShardRoots : List Hash)
    (blocks : List AppendedBlock) : CommitmentTreeDb :=
  blocks.foldl
    (fun t block => t.appendCommitments block.height.toNat block.hash block.commitments)
    (withOffset leafOffset prefetchedShardRoots)

/-- A call in a history whose appends are above all heights of the tree and have fewer
than 2 ^ 32 commitments. -/
inductive GrowingStep (M : MerkleHashOrchard) :
    CommitmentTreeDb -> TreeOp -> CommitmentTreeDb -> Prop where
  | appendCommitments (t : CommitmentTreeDb) (height : UInt64) (hash : ByteVec 32)
      (commitments : List Hash) :
      (forall record, record ∈ t.blocks -> record.height < height.toNat) ->
      commitments.length < 2 ^ 32 ->
      GrowingStep M t (.appendCommitments height hash commitments)
        (t.appendCommitments height.toNat hash commitments)
  | rollbackTo (t : CommitmentTreeDb) (targetHeight : UInt64) :
      GrowingStep M t (.rollbackTo targetHeight) (t.rollbackTo targetHeight.toNat)
  | build {t t' : CommitmentTreeDb} {anchorHeight : UInt64} {db : List UInt8}
      {broadcast : BroadcastData} :
      t.buildPirDbAndBroadcast M anchorHeight.toNat = some (t', db, broadcast) ->
      GrowingStep M t (.build anchorHeight) t'

variable {M : MerkleHashOrchard}

theorem GrowingStep.treeStep {t t' : CommitmentTreeDb} {op : TreeOp}
    (h : GrowingStep M t op t') (mode : Arithmetic)
    (xxh64 : List UInt8 -> Nat -> UInt64) : TreeStep M mode xxh64 t op t' := by
  cases h with
  | appendCommitments height hash commitments _ _ =>
      exact .appendCommitments t height hash commitments
  | rollbackTo targetHeight => exact .rollbackTo t targetHeight
  | build hbuild => exact .build hbuild

/-!
## The blocks of a tree
-/

/-- A tree holds blocks of growing heights: their commitments and their records. -/
structure HoldsBlocks (t : CommitmentTreeDb) (blocks : List AppendedBlock) : Prop where
  leaves : t.leaves = blocks.flatMap AppendedBlock.commitments
  records : t.blocks = blocks.map AppendedBlock.record
  growing : blocks.Pairwise (fun a b => a.height.toNat < b.height.toNat)
  small : forall block, block ∈ blocks -> block.commitments.length < 2 ^ 32

theorem popAbove_append {targetHeight : Nat} {kept removed : List BlockRecord}
    (hkept : forall record, record ∈ kept -> record.height ≤ targetHeight)
    (hremoved : forall record, record ∈ removed -> targetHeight < record.height)
    (toRemove : Nat) :
    popAbove targetHeight (kept ++ removed).reverse toRemove =
      (kept.reverse, toRemove + (removed.map BlockRecord.numCommitments).sum) := by
  induction removed using List.reverseRecOn generalizing toRemove with
  | nil =>
      rw [List.append_nil, List.map_nil, List.sum_nil, Nat.add_zero]
      cases hkeptEq : kept.reverse with
      | nil => rfl
      | cons last rest =>
          have hlast : last ∈ kept := by
            rw [← List.mem_reverse, hkeptEq]
            exact List.mem_cons_self
          rw [popAbove, if_neg (Nat.not_lt_of_le (hkept last hlast))]
  | append_singleton rest last ih =>
      have hlast := hremoved last (List.mem_append_right _ (List.mem_singleton.mpr rfl))
      have hrest := fun record hrecord =>
        hremoved record (List.mem_append_left _ hrecord)
      rw [← List.append_assoc, List.reverse_append, List.reverse_singleton,
        List.singleton_append, popAbove, if_pos hlast, ih hrest, List.map_append,
        List.sum_append, List.map_singleton, List.sum_singleton]
      congr 1
      lia

theorem blocks_rollbackTo {t : CommitmentTreeDb} {targetHeight : Nat}
    {kept removed : List BlockRecord} (hsplit : t.blocks = kept ++ removed)
    (hkept : forall record, record ∈ kept -> record.height ≤ targetHeight)
    (hremoved : forall record, record ∈ removed -> targetHeight < record.height) :
    (t.rollbackTo targetHeight).blocks = kept := by
  change (popAbove targetHeight t.blocks.reverse 0).1.reverse = kept
  rw [hsplit, popAbove_append hkept hremoved, List.reverse_reverse]

namespace HoldsBlocks

variable {t : CommitmentTreeDb} {blocks : List AppendedBlock}

theorem totalCommitments_eq (h : HoldsBlocks t blocks) :
    t.totalCommitments = t.leaves.length := by
  rw [totalCommitments, h.records, h.leaves, List.map_map, List.length_flatMap]
  rfl

theorem appendCommitments (h : HoldsBlocks t blocks) {height : UInt64}
    {hash : ByteVec 32} {commitments : List Hash}
    (habove : forall record, record ∈ t.blocks -> record.height < height.toNat)
    (hsmall : commitments.length < 2 ^ 32) :
    HoldsBlocks (t.appendCommitments height.toNat hash commitments)
      (blocks ++ [{ height := height, hash := hash, commitments := commitments }]) := by
  constructor
  · rw [leaves_appendCommitments, h.leaves, List.flatMap_append, List.flatMap_singleton]
  · rw [blocks_appendCommitments, h.records, List.map_append, List.map_singleton,
      AppendedBlock.record, asU32_of_lt hsmall]
  · apply List.pairwise_append.mpr
    refine ⟨h.growing, List.pairwise_singleton _ _, ?_⟩
    intro block hblock newest hnewest
    rw [List.mem_singleton.mp hnewest]
    apply habove block.record
    rw [h.records]
    exact List.mem_map_of_mem hblock
  · intro block hblock
    rcases List.mem_append.mp hblock with hold | hnew
    · exact h.small block hold
    · rw [List.mem_singleton.mp hnew]
      exact hsmall

theorem rollbackTo (h : HoldsBlocks t blocks) (targetHeight : UInt64) :
    HoldsBlocks (t.rollbackTo targetHeight.toNat)
      (blocks.filter (fun block => decide (block.height ≤ targetHeight))) := by
  let kept := blocks.filter (fun block => decide (block.height ≤ targetHeight))
  let removed := blocks.filter (fun block => decide (targetHeight < block.height))
  have hsplit : kept ++ removed = blocks :=
    filter_le_append_filter_gt h.growing targetHeight.toNat
  have hkept : forall record, record ∈ kept.map AppendedBlock.record ->
      record.height ≤ targetHeight.toNat := by
    intro record hrecord
    rcases List.mem_map.mp hrecord with ⟨block, hblock, heq⟩
    rw [← heq]
    exact UInt64.le_iff_toNat_le.mp (of_decide_eq_true (List.mem_filter.mp hblock).right)
  have hremoved : forall record, record ∈ removed.map AppendedBlock.record ->
      targetHeight.toNat < record.height := by
    intro record hrecord
    rcases List.mem_map.mp hrecord with ⟨block, hblock, heq⟩
    rw [← heq]
    exact UInt64.lt_iff_toNat_lt.mp (of_decide_eq_true (List.mem_filter.mp hblock).right)
  have hpop : popAbove targetHeight.toNat t.blocks.reverse 0 =
      ((kept.map AppendedBlock.record).reverse,
        (removed.flatMap AppendedBlock.commitments).length) := by
    have happend := popAbove_append hkept hremoved 0
    rw [← List.map_append, hsplit, Nat.zero_add, List.map_map] at happend
    rw [h.records, happend, List.length_flatMap]
    rfl
  have hleaves : t.leaves = kept.flatMap AppendedBlock.commitments ++
      removed.flatMap AppendedBlock.commitments := by
    rw [h.leaves, ← List.flatMap_append, hsplit]
  constructor
  · change t.leaves.take (t.leaves.length - _) = _
    rw [hpop, hleaves, List.length_append, Nat.add_sub_cancel, List.take_left]
  · apply blocks_rollbackTo _ hkept hremoved
    rw [h.records, ← List.map_append, hsplit]
  · exact h.growing.filter _
  · intro block hblock
    exact h.small block (List.mem_filter.mp hblock).left

theorem popAbove_le (h : HoldsBlocks t blocks) (targetHeight : Nat) :
    (popAbove targetHeight t.blocks.reverse 0).2 ≤ t.leaves.length := by
  have hsum := popAbove_sum targetHeight t.blocks.reverse 0
  rw [List.map_reverse, List.sum_reverse, Nat.add_zero] at hsum
  have htotal := h.totalCommitments_eq
  rw [totalCommitments] at htotal
  lia

/-- Only the leaves and the records matter. -/
theorem congr {t' : CommitmentTreeDb} (h : HoldsBlocks t blocks)
    (hleaves : t'.leaves = t.leaves) (hblocks : t'.blocks = t.blocks) :
    HoldsBlocks t' blocks where
  leaves := hleaves.trans h.leaves
  records := hblocks.trans h.records
  growing := h.growing
  small := h.small

end HoldsBlocks

theorem holdsBlocks_withOffset (leafOffset : Nat) (roots : List Hash) :
    HoldsBlocks (withOffset leafOffset roots) [] where
  leaves := rfl
  records := rfl
  growing := List.Pairwise.nil
  small := fun _ hfalse => nomatch hfalse

theorem holdsBlocks_step {t t' : CommitmentTreeDb} {blocks : List AppendedBlock}
    {op : TreeOp} (h : HoldsBlocks t blocks) (hstep : GrowingStep M t op t') :
    HoldsBlocks t' (keepSurvivors blocks op) := by
  cases hstep with
  | appendCommitments height hash commitments habove hsmall =>
      exact h.appendCommitments habove hsmall
  | rollbackTo targetHeight => exact h.rollbackTo targetHeight
  | build hbuild =>
      rw [build_cache_only hbuild]
      exact h.congr rfl rfl

theorem holdsBlocks_history {leafOffset : Nat} {roots : List Hash} {ops : List TreeOp}
    {t : CommitmentTreeDb}
    (h : Run (GrowingStep M) (withOffset leafOffset roots) ops t) :
    HoldsBlocks t (survivors ops) := by
  have hstep : forall s blocks op s', HoldsBlocks s blocks -> GrowingStep M s op s' ->
      HoldsBlocks s' (keepSurvivors blocks op) :=
    fun _ _ _ _ hs hop => holdsBlocks_step hs hop
  rw [survivors_eq_foldl]
  exact h.simulates hstep (holdsBlocks_withOffset leafOffset roots)

theorem window_history {leafOffset : Nat} {roots : List Hash} {ops : List TreeOp}
    {t : CommitmentTreeDb}
    (h : Run (GrowingStep M) (withOffset leafOffset roots) ops t) :
    t.leafOffset = leafOffset ∧ t.prefetchedShardRoots = roots := by
  apply h.invariant
    (P := fun s => s.leafOffset = leafOffset ∧ s.prefetchedShardRoots = roots) _
    ⟨rfl, rfl⟩
  intro s op s' hs hstep
  cases hstep with
  | appendCommitments height hash commitments _ _ =>
      rw [leafOffset_appendCommitments, prefetchedShardRoots_appendCommitments]
      exact hs
  | rollbackTo targetHeight => exact hs
  | build hbuild =>
      rw [build_cache_only hbuild]
      exact hs

/-!
## The fresh tree
-/

theorem replay_append (leafOffset : Nat) (roots : List Hash)
    (blocks : List AppendedBlock) (block : AppendedBlock) :
    replay leafOffset roots (blocks ++ [block]) =
      (replay leafOffset roots blocks).appendCommitments block.height.toNat block.hash
        block.commitments :=
  List.foldl_append

theorem run_replay (M : MerkleHashOrchard) (leafOffset : Nat) (roots : List Hash)
    {t : CommitmentTreeDb} {blocks : List AppendedBlock} (h : HoldsBlocks t blocks) :
    exists ops, survivors ops = blocks ∧
      Run (GrowingStep M) (withOffset leafOffset roots) ops
        (replay leafOffset roots blocks) := by
  have hgrowing := h.growing
  have hsmall := h.small
  clear h
  induction blocks using List.reverseRecOn with
  | nil => exact ⟨[], rfl, Run.nil _⟩
  | append_singleton blocks block ih =>
      rcases List.pairwise_append.mp hgrowing with ⟨hfront, _, hcross⟩
      rcases ih hfront (fun b hb => hsmall b (List.mem_append_left _ hb)) with
        ⟨ops, hops, hrun⟩
      have hholds := holdsBlocks_history hrun
      have habove : forall record,
          record ∈ (replay leafOffset roots blocks).blocks ->
            record.height < block.height.toNat := by
        intro record hrecord
        rw [hholds.records, hops] at hrecord
        rcases List.mem_map.mp hrecord with ⟨older, holder, heq⟩
        rw [← heq]
        exact hcross older holder block (List.mem_singleton.mpr rfl)
      have hlast := hsmall block (List.mem_append_right _ (List.mem_singleton.mpr rfl))
      refine ⟨ops ++ [.appendCommitments block.height block.hash block.commitments],
        ?_, ?_⟩
      · rw [survivors_append, hops]
        rfl
      · rw [replay_append]
        exact hrun.snoc (.appendCommitments _ _ _ _ habove hlast)

theorem cacheValid_history {leafOffset : Nat} {roots : List Hash}
    (haligned : leafOffset % shardLeaves = 0) {ops : List TreeOp} {t : CommitmentTreeDb}
    (h : Run (GrowingStep M) (withOffset leafOffset roots) ops t) : CacheValid M t := by
  have hinv : TreeInvariant M leafOffset roots t := by
    apply h.invariant _ (treeInvariant_withOffset M leafOffset roots)
    intro s op s' hs hstep
    exact treeInvariant_step haligned hs (hstep.treeStep .wrapping (fun _ _ => 0))
  exact hinv.cache

/-- After every history of growing appends, rollbacks and builds, the tree has the
leaves and records of the surviving blocks, no rollback of it saturates, and it answers
like a tree that only appended the surviving blocks. -/
theorem rollback_erases_history {leafOffset : Nat} {roots : List Hash}
    {ops : List TreeOp} {t : CommitmentTreeDb}
    (h : Run (GrowingStep M) (withOffset leafOffset roots) ops t) :
    let fresh := replay leafOffset roots (survivors ops)
    t.leaves = (survivors ops).flatMap AppendedBlock.commitments ∧
    t.blocks = (survivors ops).map AppendedBlock.record ∧
    t.totalCommitments = t.leaves.length ∧
    (forall targetHeight,
      (popAbove targetHeight t.blocks.reverse 0).2 ≤ t.leaves.length) ∧
    t.treeRoot M = fresh.treeRoot M ∧
    t.treeSize = fresh.treeSize ∧
    t.latestHeight = fresh.latestHeight ∧
    t.latestBlockHash = fresh.latestBlockHash ∧
    (leafOffset % shardLeaves = 0 -> forall anchorHeight,
      (t.buildPirDbAndBroadcast M anchorHeight).map Prod.snd =
        (fresh.buildPirDbAndBroadcast M anchorHeight).map Prod.snd) := by
  intro fresh
  have hholds := holdsBlocks_history h
  rcases run_replay M leafOffset roots hholds with ⟨freshOps, hfreshOps, hfresh⟩
  have hfreshHolds := holdsBlocks_history hfresh
  rw [hfreshOps] at hfreshHolds
  have hsame : fresh = { t with ssRootCache := fresh.ssRootCache } := by
    rcases window_history h with ⟨hoffset, hroots⟩
    rcases window_history hfresh with ⟨hfreshOffset, hfreshRoots⟩
    have hleaves : fresh.leaves = t.leaves := hfreshHolds.leaves.trans hholds.leaves.symm
    have hblocks : fresh.blocks = t.blocks := hfreshHolds.records.trans hholds.records.symm
    have hwindow : fresh.leafOffset = t.leafOffset := hfreshOffset.trans hoffset.symm
    have hprefetched : fresh.prefetchedShardRoots = t.prefetchedShardRoots :=
      hfreshRoots.trans hroots.symm
    rw [← hleaves, ← hblocks, ← hwindow, ← hprefetched]
  refine ⟨hholds.leaves, hholds.records, hholds.totalCommitments_eq, hholds.popAbove_le,
    ?_, ?_, ?_, ?_, ?_⟩
  · rw [hsame]
    rfl
  · rw [hsame]
    rfl
  · rw [hsame]
    rfl
  · rw [hsame]
    rfl
  · intro haligned anchorHeight
    have hcold := cacheValid_history haligned hfresh
    change CacheValid M fresh at hcold
    rw [hsame] at hcold ⊢
    exact build_output_eq (cacheValid_history haligned h) hcold anchorHeight

/-- A block is rolled back down to an empty one and replaced. -/
theorem rollback_erases_history_replaced :
    exists t, Run (GrowingStep sampleHash) (withOffset 0 [])
        [.appendCommitments 1 (ByteVec.zeros 32) [],
          .appendCommitments 2 (ByteVec.zeros 32) [ByteVec.zeros 32],
          .rollbackTo 1,
          .appendCommitments 2 (ByteVec.ofBytes 32 [1]) [ByteVec.ofBytes 32 [1]]] t ∧
      t.leaves = [ByteVec.ofBytes 32 [1]] ∧
      (t.buildPirDbAndBroadcast sampleHash 2).map Prod.snd =
        (((new.appendCommitments 1 (ByteVec.zeros 32) []).appendCommitments 2
          (ByteVec.ofBytes 32 [1]) [ByteVec.ofBytes 32 [1]]).buildPirDbAndBroadcast
            sampleHash 2).map Prod.snd := by
  have hfirst := (Run.nil (withOffset 0 [])).snoc (GrowingStep.appendCommitments
    (M := sampleHash) _ 1 (ByteVec.zeros 32) [] (by decide) (by decide))
  have hsecond := hfirst.snoc (GrowingStep.appendCommitments _ 2 (ByteVec.zeros 32)
    [ByteVec.zeros 32] (by decide) (by decide))
  have hrolled := hsecond.snoc (GrowingStep.rollbackTo _ 1)
  have hrun := hrolled.snoc (GrowingStep.appendCommitments _ 2 (ByteVec.ofBytes 32 [1])
    [ByteVec.ofBytes 32 [1]] (by decide) (by decide))
  rcases rollback_erases_history hrun with ⟨hleaves, _, _, _, _, _, _, _, hbuild⟩
  exact ⟨_, hrun, hleaves, hbuild rfl 2⟩

end CommitmentTreeDb
end Witness
end SpendabilityPir
