import Mathlib.Order.Interval.Set.Basic
import SpendabilityPir.Nullifier.NfIngest
import SpendabilityPir.Nullifier.TableHistory
import SpendabilityPir.Shared.Following

/-!
# The outputs of the spending transaction

With each nullifier the table stores where the outputs of its transaction begin and how
many there are.  The beginning takes 32 bits, as tree positions do; the number is cut to
one byte, and a transaction with more actions announces too few outputs.
-/

namespace SpendabilityPir
namespace Nullifier

open Foundation Shared HashTableDb

/-- The block reports the size of the tree after it. -/
def HonestMetadata (sizeBefore : Nat) (block : CompactBlock) : Prop :=
  block.chainMetadata.map (fun metadata => metadata.orchardCommitmentTreeSize.toNat) =
    some (sizeBefore + block.actions.length)

/-- The entries extracted for a transaction, after those of the transactions before. -/
def entriesOf (block : CompactBlock) (priorTreeSize : Option UInt32)
    (front : List CompactTx) (tx : CompactTx) : List NullifierWithMeta :=
  slice (extractNullifiersWithMeta block priorTreeSize).1
    (fieldsOf32 CompactOrchardAction.nullifier (front.flatMap CompactTx.actions)).length
    (fieldsOf32 CompactOrchardAction.nullifier tx.actions).length

/-- The tree positions a first output and an action count name. -/
def announcedRange (firstOutputPosition : UInt32) (actionCount : UInt8) : Set Nat :=
  Set.Ico firstOutputPosition.toNat (firstOutputPosition.toNat + actionCount.toNat)

def outputPositions (sizeBefore : Nat) (front : List CompactTx) (tx : CompactTx) :
    Set Nat :=
  { position | exists k, k < tx.actions.length ∧
    position = sizeBefore + (front.flatMap CompactTx.actions).length + k }

/-- In every history in which a live block has the entry and no other entry has its
nullifier, the client decodes these positions from the row. -/
def ReadAs (nwm : NullifierWithMeta) (positions : Set Nat) : Prop :=
  forall (xxh64 : List UInt8 -> Nat -> UInt64) (ops : List TableOp) (db : HashTableDb)
    (height : Nat),
    Run (TableStep xxh64) new ops db ->
    (LiveBlocks.ofHistory ops).Inserted height nwm ->
    (forall height' other, (LiveBlocks.ofHistory ops).Inserted height' other ->
      other.nullifier = nwm.nullifier -> other = nwm) ->
    exists metadata,
      scanBucketForNf (slice db.toPirBytes
        ((hashToBucket nwm.nullifier).val * bucketBytes) bucketBytes) nwm.nullifier =
        some metadata ∧
      announcedRange metadata.firstOutputPosition metadata.actionCount = positions

/-!
## From the block to the client
-/

theorem readAs_announcedRange (nwm : NullifierWithMeta) :
    ReadAs nwm (announcedRange nwm.firstOutputPosition nwm.actionCount) := by
  intro xxh64 ops db height hrun hlive honly
  have hrep := represents_history hrun
  have hnonzero := hrep.nonzero_of_inserted hlive
  have hfound : (scanBucketForNf (bucketPirBytes (db.buckets (hashToBucket nwm.nullifier)))
      nwm.nullifier).isSome = true := by
    rw [scanBucketForNf_isSome_iff]
    exact (hrep.contains_iff hnonzero).mpr ⟨height, nwm, hlive, rfl⟩
  rcases Option.isSome_iff_exists.mp hfound with ⟨metadata, hscan⟩
  rcases hrep.inserted_of_scan hnonzero hscan with ⟨height', other, hother, hnf, hmeta⟩
  refine ⟨metadata, ?_, ?_⟩
  · rw [slice_toPirBytes]
    exact hscan
  · rw [hmeta, honly height' other hother hnf]
    rfl

theorem readAs_of_eq {nwm : NullifierWithMeta} {positions : Set Nat}
    (h : announcedRange nwm.firstOutputPosition nwm.actionCount = positions) :
    ReadAs nwm positions := by
  rw [← h]
  exact readAs_announcedRange nwm

theorem orchardTreeSize_of_honest {sizeBefore : Nat} {block : CompactBlock}
    (h : HonestMetadata sizeBefore block) (hactions : 0 < block.actions.length) :
    exists size, block.orchardTreeSize = some size ∧
      size.toNat = sizeBefore + block.actions.length := by
  rcases Option.map_eq_some_iff.mp h with ⟨metadata, hmetadata, hsize⟩
  have hpositive : metadata.orchardCommitmentTreeSize > 0 := by
    rw [gt_iff_lt, UInt32.lt_iff_toNat_lt, hsize]
    exact Nat.lt_of_lt_of_le hactions (Nat.le_add_left _ _)
  refine ⟨metadata.orchardCommitmentTreeSize, ?_, hsize⟩
  rw [CompactBlock.orchardTreeSize, hmetadata]
  exact Option.filter_eq_some_iff.mpr ⟨rfl, decide_eq_true hpositive⟩

/-- An honest block starts where the tree before it ends. -/
theorem treeSizeBeforeBlock_of_honest {sizeBefore : Nat} {block : CompactBlock}
    (h : HonestMetadata sizeBefore block) (hactions : 0 < block.actions.length)
    (priorTreeSize : Option UInt32) :
    exists start, treeSizeBeforeBlock block priorTreeSize = some start ∧
      start.toNat = sizeBefore ∧ sizeBefore + block.actions.length < 2 ^ 32 := by
  rcases orchardTreeSize_of_honest h hactions with ⟨size, hreported, hsize⟩
  have hfits := size.toNat_lt
  have hcast : (UInt32.ofNat block.actions.length).toNat = block.actions.length :=
    UInt32.toNat_ofNat_of_lt' (by lia)
  have hle : UInt32.ofNat block.actions.length ≤ size := by
    rw [UInt32.le_iff_toNat_le, hcast, hsize]
    exact Nat.le_add_left _ _
  refine ⟨size - UInt32.ofNat block.actions.length, ?_, ?_, by lia⟩
  · rw [treeSizeBeforeBlock, hreported, sum_actions_length, Option.bind_some, checkedSub,
      if_pos hle, Option.some_or]
  · rw [UInt32.toNat_sub_of_le _ _ hle, hcast, hsize, Nat.add_sub_cancel]

theorem entriesOf_honest {sizeBefore : Nat} {block : CompactBlock}
    (h : HonestMetadata sizeBefore block) (priorTreeSize : Option UInt32)
    {front rest : List CompactTx} {tx : CompactTx} (hvtx : block.vtx = front ++ tx :: rest)
    (htx : 0 < tx.actions.length) :
    exists first, entriesOf block priorTreeSize front tx = txNullifiers first tx ∧
      first.toNat = sizeBefore + (front.flatMap CompactTx.actions).length := by
  have hactions : block.actions.length = (front.flatMap CompactTx.actions).length +
      (tx.actions.length + (rest.flatMap CompactTx.actions).length) := by
    rw [CompactBlock.actions, hvtx, List.flatMap_append, List.flatMap_cons,
      List.length_append, List.length_append]
  rcases treeSizeBeforeBlock_of_honest h (by lia) priorTreeSize with
    ⟨start, hstart, hbefore, hfits⟩
  refine ⟨start + UInt32.ofNat (front.flatMap CompactTx.actions).length, ?_, ?_⟩
  · have hfront : (txsNullifiers (some start) front).length =
        (fieldsOf32 CompactOrchardAction.nullifier
          (front.flatMap CompactTx.actions)).length := by
      rw [← map_nullifier_txsNullifiers (some start), List.length_map]
    have hlen : (txNullifiers (start +
        UInt32.ofNat (front.flatMap CompactTx.actions).length) tx).length =
        (fieldsOf32 CompactOrchardAction.nullifier tx.actions).length := List.length_map _
    rw [entriesOf, extractNullifiersWithMeta, hstart, hvtx, txsNullifiers_append, ← hfront,
      slice, List.drop_left, Option.map_some, txsNullifiers, Option.getD_some, ← hlen,
      List.take_left]
  · rw [toNat_add_ofNat start (by lia), hbefore]

theorem mem_txNullifiers (first : UInt32) {tx : CompactTx} {action : CompactOrchardAction}
    (haction : action ∈ tx.actions) (hlen : action.nullifier.length = 32) :
    { nullifier := ByteVec.ofBytes 32 action.nullifier
      firstOutputPosition := first
      actionCount := UInt8.ofNat tx.actions.length } ∈ txNullifiers first tx :=
  List.mem_map_of_mem
    (List.mem_map_of_mem (List.mem_filter.mpr ⟨haction, decide_eq_true hlen⟩))

theorem range_of_mem_txNullifiers {first : UInt32} {tx : CompactTx}
    {nwm : NullifierWithMeta} (h : nwm ∈ txNullifiers first tx) :
    nwm.firstOutputPosition = first ∧ nwm.actionCount = UInt8.ofNat tx.actions.length := by
  rcases List.mem_map.mp h with ⟨nf, _, heq⟩
  rw [← heq]
  exact ⟨rfl, rfl⟩

theorem announcedRange_eq_iff {first : UInt32} {sizeBefore : Nat} {front : List CompactTx}
    (tx : CompactTx)
    (hfirst : first.toNat = sizeBefore + (front.flatMap CompactTx.actions).length) :
    announcedRange first (UInt8.ofNat tx.actions.length) =
      outputPositions sizeBefore front tx ↔ tx.actions.length ≤ 255 := by
  have hcount : (UInt8.ofNat tx.actions.length).toNat = tx.actions.length % 256 :=
    UInt8.toNat_ofNat'
  constructor
  · intro h
    by_contra hmany
    have hoverflow : sizeBefore + (front.flatMap CompactTx.actions).length +
        (tx.actions.length - 1) ∈ announcedRange first (UInt8.ofNat tx.actions.length) := by
      rw [h]
      exact ⟨tx.actions.length - 1, by lia, rfl⟩
    have hupper := hoverflow.right
    rw [hfirst, hcount] at hupper
    lia
  · intro hfew
    ext position
    rw [announcedRange, Set.mem_Ico, hcount, hfirst]
    constructor
    · rintro ⟨hlo, hhi⟩
      exact ⟨position - (sizeBefore + (front.flatMap CompactTx.actions).length), by lia,
        by lia⟩
    · rintro ⟨k, hk, hposition⟩
      lia

/-- The entries of a transaction of an honest block name its outputs, to the client too,
exactly when their number fits in one byte. -/
theorem actionRange_exact_iff {sizeBefore : Nat} {block : CompactBlock}
    (h : HonestMetadata sizeBefore block) (priorTreeSize : Option UInt32)
    {front rest : List CompactTx} {tx : CompactTx}
    (hvtx : block.vtx = front ++ tx :: rest) :
    (forall nwm, nwm ∈ entriesOf block priorTreeSize front tx ->
      announcedRange nwm.firstOutputPosition nwm.actionCount =
        outputPositions sizeBefore front tx ∧
      ReadAs nwm (outputPositions sizeBefore front tx)) ↔
    (tx.actions.length ≤ 255 ∨
      forall action, action ∈ tx.actions -> action.nullifier.length ≠ 32) := by
  by_cases hempty : tx.actions = []
  · have hnone : entriesOf block priorTreeSize front tx = [] := by
      rw [entriesOf, hempty]
      exact List.take_zero
    rw [hnone, hempty]
    exact ⟨fun _ => Or.inl (Nat.zero_le _), fun _ nwm hnwm => nomatch hnwm⟩
  · rcases entriesOf_honest h priorTreeSize hvtx (List.length_pos_of_ne_nil hempty) with
      ⟨first, hentries, hfirst⟩
    have hrange := announcedRange_eq_iff tx hfirst
    rw [hentries]
    constructor
    · intro hexact
      by_cases hany : exists action, action ∈ tx.actions ∧ action.nullifier.length = 32
      · rcases hany with ⟨action, haction, hlen⟩
        have hentry := hexact _ (mem_txNullifiers first haction hlen)
        exact Or.inl (hrange.mp hentry.left)
      · right
        intro action haction hlen
        exact hany ⟨action, haction, hlen⟩
    · rintro (hfew | hnone) nwm hnwm
      · rcases range_of_mem_txNullifiers hnwm with ⟨hposition, hcount⟩
        have heq := hrange.mpr hfew
        rw [← hposition, ← hcount] at heq
        exact ⟨heq, readAs_of_eq heq⟩
      · rcases List.mem_map.mp hnwm with ⟨nf, hnf, _⟩
        rcases List.mem_map.mp hnf with ⟨action, haction, _⟩
        rcases List.mem_filter.mp haction with ⟨hmem, hlen⟩
        exact absurd (of_decide_eq_true hlen) (hnone action hmem)

/-!
## Sample blocks
-/

/-- A block of one transaction with some number of equal actions. -/
def actionsBlock (n : Nat) : CompactBlock :=
  sampleBlock 1 2 1 (List.replicate n (sampleAction 9)) (UInt32.ofNat n)

theorem honestMetadata_actionsBlock {n : Nat} (h : n < 2 ^ 32) :
    HonestMetadata 0 (actionsBlock n) := by
  have hlen : (actionsBlock n).actions.length = n := by
    rw [CompactBlock.actions, actionsBlock, sampleBlock, List.flatMap_singleton]
    exact List.length_replicate
  rw [HonestMetadata, hlen, Nat.zero_add]
  exact congrArg some (UInt32.toNat_ofNat_of_lt' h)

def twoActions : CompactTx := { actions := List.replicate 2 (sampleAction 9) }

/-- Both outputs of a transaction with two actions are announced. -/
theorem actionRange_exact_two :
    exists nwm, nwm ∈ entriesOf (actionsBlock 2) none [] twoActions ∧
      announcedRange nwm.firstOutputPosition nwm.actionCount =
        outputPositions 0 [] twoActions := by
  have hhonest : HonestMetadata 0 (actionsBlock 2) :=
    honestMetadata_actionsBlock (by decide)
  have hvtx : (actionsBlock 2).vtx = [] ++ twoActions :: [] := rfl
  rcases entriesOf_honest hhonest none hvtx (by decide) with ⟨first, hentries, _⟩
  have haction : sampleAction 9 ∈ twoActions.actions := List.mem_cons_self
  have hentry := mem_txNullifiers first haction rfl
  rw [← hentries] at hentry
  exact ⟨_, hentry, ((actionRange_exact_iff hhonest none hvtx).mpr
    (Or.inl (by decide)) _ hentry).left⟩

/-- Of the 256 outputs of a transaction none is announced. -/
theorem actionRange_of_256 :
    let tx : CompactTx := { actions := List.replicate 256 (sampleAction 9) }
    HonestMetadata 0 (actionsBlock 256) ∧
    exists nwm, nwm ∈ entriesOf (actionsBlock 256) none [] tx ∧
      nwm.actionCount = 0 ∧
      announcedRange nwm.firstOutputPosition nwm.actionCount ≠ outputPositions 0 [] tx := by
  intro tx
  have hhonest : HonestMetadata 0 (actionsBlock 256) :=
    honestMetadata_actionsBlock (by decide)
  have hlen : tx.actions.length = 256 := List.length_replicate
  have hvtx : (actionsBlock 256).vtx = [] ++ tx :: [] := rfl
  rcases entriesOf_honest hhonest none hvtx (by lia) with ⟨first, hentries, hfirst⟩
  have haction : sampleAction 9 ∈ tx.actions :=
    List.mem_replicate.mpr ⟨by decide, rfl⟩
  have hentry := mem_txNullifiers first haction rfl
  rw [← hentries] at hentry
  refine ⟨hhonest, _, hentry, ?_, ?_⟩
  · show UInt8.ofNat tx.actions.length = 0
    rw [hlen]
    rfl
  · intro heq
    have hfew := (announcedRange_eq_iff tx hfirst).mp heq
    lia

end Nullifier
end SpendabilityPir
