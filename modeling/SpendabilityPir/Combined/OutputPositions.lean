import SpendabilityPir.Nullifier.NfIngest
import SpendabilityPir.Shared.Following
import SpendabilityPir.Witness.ChainTree

/-!
# Output positions across the two pipelines

The nullifier pipeline stores, for each nullifier, the tree position of its
transaction's first output.  Where a block's start in the tree is known, from its own
size or from the block before, that position is where the commitment pipeline puts the
transaction's first commitment.
-/

namespace SpendabilityPir
namespace Combined

open Foundation Shared Nullifier Witness

def actionsOf (blocks : List CompactBlock) : List CompactOrchardAction :=
  blocks.flatMap CompactBlock.actions

def decryptionLeavesOf (blocks : List CompactBlock) : List DecryptionLeaf :=
  blocks.flatMap extractDecryptionLeaves

/-- Every action has a nullifier and a commitment, and 32 bits count the actions. -/
structure FullActions (blocks : List CompactBlock) : Prop where
  nullifiers : forall action, action ∈ actionsOf blocks -> action.nullifier.length = 32
  commitments : forall action, action ∈ actionsOf blocks -> action.cmx.length = 32
  total : (actionsOf blocks).length < 2 ^ 32

/-- The operands of the additions the loop over the transactions makes. -/
def additions : Option UInt32 -> List CompactTx -> List (Nat × Nat)
  | _, [] => []
  | runningPosition, tx :: rest =>
      (runningPosition.map (fun pos => (pos.toNat, tx.actions.length))).toList ++
        additions (runningPosition.map (fun pos => pos + UInt32.ofNat tx.actions.length))
          rest

/-- A block's start in the tree is known: the block reports its true size, or it reports
none and the fetched block before it reports its true size. -/
def StartKnown (before fetched : List CompactBlock) (i : Nat) (block : CompactBlock) :
    Prop :=
  (exists size, block.orchardTreeSize = some size ∧
    size.toNat = (commitmentsOf (before ++ fetched.take (i + 1))).length) ∨
  (block.orchardTreeSize = none ∧ exists j previous size, i = j + 1 ∧
    fetched[j]? = some previous ∧ previous.orchardTreeSize = some size ∧
    size.toNat = (commitmentsOf (before ++ fetched.take i)).length)

/-!
## The extractors keep every action
-/

theorem fieldsOf32_eq_map {field : CompactOrchardAction -> List UInt8}
    {actions : List CompactOrchardAction}
    (h : forall action, action ∈ actions -> (field action).length = 32) :
    fieldsOf32 field actions = actions.map (fun action => ByteVec.ofBytes 32 (field action)) := by
  rw [fieldsOf32, List.filter_eq_self.mpr (fun action haction => decide_eq_true (h action haction))]

theorem flatMap_map_of_forall {blocks : List CompactBlock} {β : Type}
    {extract : CompactBlock -> List β} {f : CompactOrchardAction -> β}
    (h : forall block, block ∈ blocks -> extract block = block.actions.map f) :
    blocks.flatMap extract = (actionsOf blocks).map f := by
  rw [actionsOf, List.map_flatMap]
  exact List.flatMap_congr h

theorem mem_actionsOf {blocks : List CompactBlock} {block : CompactBlock}
    {action : CompactOrchardAction} (hblock : block ∈ blocks)
    (haction : action ∈ block.actions) : action ∈ actionsOf blocks :=
  List.mem_flatMap.mpr ⟨block, hblock, haction⟩

theorem actionsOf_split (before : List CompactBlock) {fetched : List CompactBlock} {i : Nat}
    {block : CompactBlock} (hblock : fetched[i]? = some block) :
    exists later, actionsOf (before ++ fetched) =
      actionsOf (before ++ fetched.take i) ++ (block.actions ++ later) := by
  rcases List.getElem?_eq_some_iff.mp hblock with ⟨hlt, hget⟩
  have hsplit : before ++ fetched =
      (before ++ fetched.take i) ++ block :: fetched.drop (i + 1) := by
    rw [← hget, ← List.drop_eq_getElem_cons hlt, List.append_assoc, List.take_append_drop]
  refine ⟨actionsOf (fetched.drop (i + 1)), ?_⟩
  rw [hsplit, actionsOf, List.flatMap_append, List.flatMap_cons]
  rfl

/-- Action k of a transaction comes after the actions before the block and those of the
transactions before it. -/
theorem getElem?_actionsOf {blocks : List CompactBlock} {block : CompactBlock}
    {earlier later : List CompactOrchardAction} {front rest : List CompactTx}
    {tx : CompactTx} {k : Nat} {action : CompactOrchardAction}
    (hsplit : actionsOf blocks = earlier ++ (block.actions ++ later))
    (hvtx : block.vtx = front ++ tx :: rest) (haction : tx.actions[k]? = some action) :
    (actionsOf blocks)[(earlier ++ front.flatMap CompactTx.actions).length + k]? =
      some action := by
  have hactions : block.actions =
      front.flatMap CompactTx.actions ++ (tx.actions ++ rest.flatMap CompactTx.actions) := by
    rw [CompactBlock.actions, hvtx, List.flatMap_append, List.flatMap_cons]
  have hk := (List.getElem?_eq_some_iff.mp haction).1
  rw [hsplit, hactions, List.append_assoc, ← List.append_assoc earlier,
    List.getElem?_append_right (Nat.le_add_right _ _), Nat.add_sub_cancel_left,
    List.append_assoc, List.getElem?_append_left hk]
  exact haction

namespace FullActions

variable {blocks : List CompactBlock}

theorem commitmentsOf_eq (h : FullActions blocks) :
    commitmentsOf blocks =
      (actionsOf blocks).map (fun action => ByteVec.ofBytes 32 action.cmx) := by
  apply flatMap_map_of_forall
  intro block hblock
  exact fieldsOf32_eq_map (fun action haction =>
    h.commitments action (mem_actionsOf hblock haction))

theorem decryptionLeavesOf_eq (h : FullActions blocks) :
    decryptionLeavesOf blocks = (actionsOf blocks).map decryptionLeafFromAction := by
  apply flatMap_map_of_forall
  intro block hblock
  rw [extractDecryptionLeaves, List.filter_eq_self.mpr]
  intro action haction
  exact decide_eq_true (h.commitments action (mem_actionsOf hblock haction))

theorem of_prefix {front : List CompactBlock} (h : FullActions blocks)
    (hpre : front.IsPrefix blocks) : FullActions front := by
  rcases hpre with ⟨rest, hrest⟩
  have hsplit : actionsOf blocks = actionsOf front ++ actionsOf rest := by
    rw [← hrest, actionsOf, List.flatMap_append]
    rfl
  have htotal := h.total
  rw [hsplit, List.length_append] at htotal
  constructor
  · intro action haction
    exact h.nullifiers action (hsplit ▸ List.mem_append_left _ haction)
  · intro action haction
    exact h.commitments action (hsplit ▸ List.mem_append_left _ haction)
  · lia

end FullActions

/-!
## The running position
-/

theorem additions_lt {pos : UInt32} {txs : List CompactTx}
    (h : pos.toNat + (txs.flatMap CompactTx.actions).length < 2 ^ 32) :
    forall sum, sum ∈ additions (some pos) txs -> sum.1 + sum.2 < 2 ^ 32 := by
  induction txs generalizing pos with
  | nil => exact fun _ hfalse => nomatch hfalse
  | cons tx rest ih =>
      rw [List.flatMap_cons, List.length_append] at h
      have hhere : pos.toNat + tx.actions.length < 2 ^ 32 := by lia
      have hnext := toNat_add_ofNat pos hhere
      intro sum hsum
      rcases List.mem_cons.mp hsum with heq | hlater
      · rw [heq]
        exact hhere
      · exact ih (by lia) sum hlater

theorem length_txsNullifiers {txs : List CompactTx} (runningPosition : Option UInt32)
    (h : forall action, action ∈ txs.flatMap CompactTx.actions ->
      action.nullifier.length = 32) :
    (txsNullifiers runningPosition txs).length =
      (txs.flatMap CompactTx.actions).length := by
  have hnullifiers := congrArg List.length (map_nullifier_txsNullifiers runningPosition txs)
  rwa [List.length_map, fieldsOf32_eq_map h, List.length_map] at hnullifiers

theorem getElem?_txsNullifiers (start : UInt32) {front rest : List CompactTx}
    {tx : CompactTx}
    (h : forall action, action ∈ (front ++ tx :: rest).flatMap CompactTx.actions ->
      action.nullifier.length = 32)
    {k : Nat} {action : CompactOrchardAction} (haction : tx.actions[k]? = some action) :
    (txsNullifiers (some start) (front ++ tx :: rest))[
        (front.flatMap CompactTx.actions).length + k]? =
      some {
        nullifier := ByteVec.ofBytes 32 action.nullifier
        firstOutputPosition :=
          start + UInt32.ofNat (front.flatMap CompactTx.actions).length
        actionCount := UInt8.ofNat tx.actions.length } := by
  rw [List.flatMap_append, List.flatMap_cons] at h
  have hfront := length_txsNullifiers (some start)
    (fun action haction => h action (List.mem_append_left _ haction))
  have htx : forall action, action ∈ tx.actions -> action.nullifier.length = 32 :=
    fun action haction =>
      h action (List.mem_append_right _ (List.mem_append_left _ haction))
  rw [txsNullifiers_append, List.getElem?_append_right (by rw [hfront]; lia), hfront,
    Nat.add_sub_cancel_left]
  change (txNullifiers _ tx ++ _)[k]? = _
  have hk := (List.getElem?_eq_some_iff.mp haction).1
  rw [txNullifiers, fieldsOf32_eq_map htx, List.map_map,
    List.getElem?_append_left (by rw [List.length_map]; exact hk), List.getElem?_map,
    haction]
  rfl

/-!
## The start of a block
-/

/-- The tree size the loop passes with a fetched block. -/
def priorSize (prevTreeSize : Option UInt32) (fetched : List CompactBlock) :
    Nat -> Option UInt32
  | 0 => prevTreeSize
  | j + 1 => fetched[j]?.bind CompactBlock.orchardTreeSize

theorem getElem?_emitBlocks {ε : Type _} (emit : Option UInt32 -> CompactBlock -> ε)
    (prevTreeSize : Option UInt32) (fetched : List CompactBlock) (i : Nat) :
    (emitBlocks emit prevTreeSize fetched)[i]? =
      fetched[i]?.map (emit (priorSize prevTreeSize fetched i)) := by
  induction fetched generalizing prevTreeSize i with
  | nil => rfl
  | cons first rest ih =>
      cases i with
      | zero => rfl
      | succ i =>
          change (emitBlocks emit first.orchardTreeSize rest)[i]? = _
          rw [ih]
          cases i <;> rfl

theorem treeSizeBeforeBlock_eq {before fetched : List CompactBlock}
    (hfull : FullActions (before ++ fetched)) (initialTreeSize : Option UInt32) {i : Nat}
    {block : CompactBlock} (hblock : fetched[i]? = some block)
    (hstart : StartKnown before fetched i block) :
    exists start, treeSizeBeforeBlock block (priorSize initialTreeSize fetched i) =
        some start ∧
      start.toNat = (actionsOf (before ++ fetched.take i)).length := by
  have hcount : forall n, (commitmentsOf (before ++ fetched.take n)).length =
      (actionsOf (before ++ fetched.take n)).length := by
    intro n
    have hpre : (before ++ fetched.take n).IsPrefix (before ++ fetched) :=
      (List.prefix_append_right_inj before).mpr (List.take_prefix n fetched)
    rw [(hfull.of_prefix hpre).commitmentsOf_eq, List.length_map]
  rcases hstart with ⟨size, hreported, hsize⟩ | ⟨hnone, j, previous, size, hj, hprevious,
    hreported, hsize⟩
  · have htake : fetched.take (i + 1) = fetched.take i ++ [block] := by
      rw [List.take_add_one, hblock]
      rfl
    have hsplit : size.toNat = (actionsOf (before ++ fetched.take i)).length +
        block.actions.length := by
      rw [hsize, hcount, htake, ← List.append_assoc, actionsOf, List.flatMap_append,
        List.length_append, List.flatMap_singleton]
      rfl
    have hcast : (UInt32.ofNat block.actions.length).toNat = block.actions.length :=
      UInt32.toNat_ofNat_of_lt' (Nat.lt_of_le_of_lt (by lia) size.toNat_lt)
    have hle : UInt32.ofNat block.actions.length ≤ size := by
      rw [UInt32.le_iff_toNat_le, hcast]
      lia
    refine ⟨size - UInt32.ofNat block.actions.length, ?_, ?_⟩
    · rw [treeSizeBeforeBlock, hreported, sum_actions_length]
      change (if UInt32.ofNat block.actions.length ≤ size then _ else _ :
        Option UInt32).or _ = _
      rw [if_pos hle]
      rfl
    · rw [UInt32.toNat_sub_of_le _ _ hle, hcast]
      lia
  · refine ⟨size, ?_, ?_⟩
    · rw [treeSizeBeforeBlock, hnone, hj, priorSize, hprevious]
      exact hreported
    · rw [hsize, hcount]

/-- For a block whose start is known, the metadata of each nullifier points at the leaf
the commitment pipeline makes of its action, and no addition wraps. -/
theorem meta_positions_match_leaves {before fetched : List CompactBlock}
    (hfull : FullActions (before ++ fetched)) (initialTreeSize : Option UInt32) {i : Nat}
    {block : CompactBlock} (hblock : fetched[i]? = some block)
    (hstart : StartKnown before fetched i block) :
    let prior := priorSize initialTreeSize fetched i
    (emitBlocks Nullifier.newBlockEvent initialTreeSize fetched)[i]? =
      some (Nullifier.newBlockEvent prior block) ∧
    (block.vtx.map (fun tx => tx.actions.length)).sum < 2 ^ 32 ∧
    (forall sum, sum ∈ additions (treeSizeBeforeBlock block prior) block.vtx ->
      sum.1 + sum.2 < 2 ^ 32) ∧
    forall front tx rest k action, block.vtx = front ++ tx :: rest ->
      tx.actions[k]? = some action ->
      exists nwm leaf,
        (extractNullifiersWithMeta block prior).1[
          (front.flatMap CompactTx.actions).length + k]? = some nwm ∧
        nwm.nullifier = ByteVec.ofBytes 32 action.nullifier ∧
        nwm.firstOutputPosition.toNat =
          (actionsOf (before ++ fetched.take i) ++ front.flatMap CompactTx.actions).length ∧
        (commitmentsOf (before ++ fetched))[nwm.firstOutputPosition.toNat + k]? =
          some (ByteVec.ofBytes 32 action.cmx) ∧
        (decryptionLeavesOf (before ++ fetched))[nwm.firstOutputPosition.toNat + k]? =
          some leaf ∧
        leaf.nf = nwm.nullifier := by
  intro prior
  rcases treeSizeBeforeBlock_eq hfull initialTreeSize hblock hstart with
    ⟨start, hposition, hbefore⟩
  rcases actionsOf_split before hblock with ⟨later, hchain⟩
  have hroom : start.toNat + block.actions.length < 2 ^ 32 := by
    have htotal := hfull.total
    rw [hchain, List.length_append, List.length_append] at htotal
    rw [hbefore]
    exact Nat.lt_of_le_of_lt (by lia) htotal
  have hnullifiers : forall action, action ∈ block.actions ->
      action.nullifier.length = 32 := by
    intro action haction
    exact hfull.nullifiers action
      (mem_actionsOf (List.mem_append_right _ (List.mem_of_getElem? hblock)) haction)
  refine ⟨?_, ?_, ?_, ?_⟩
  · rw [getElem?_emitBlocks, hblock]
    rfl
  · rw [sum_actions_length]
    lia
  · rw [hposition]
    exact additions_lt hroom
  · intro front tx rest k action hvtx haction
    have hindex := getElem?_actionsOf hchain hvtx haction
    have hfirst : (start + UInt32.ofNat (front.flatMap CompactTx.actions).length).toNat =
        (actionsOf (before ++ fetched.take i) ++ front.flatMap CompactTx.actions).length := by
      rw [CompactBlock.actions, hvtx, List.flatMap_append, List.length_append] at hroom
      rw [toNat_add_ofNat start (by lia), List.length_append, hbefore]
    have hfields : forall action,
        action ∈ (front ++ tx :: rest).flatMap CompactTx.actions ->
          action.nullifier.length = 32 := by
      rw [← hvtx]
      exact hnullifiers
    have hentry := getElem?_txsNullifiers start hfields haction
    rw [← hvtx] at hentry
    rw [extractNullifiersWithMeta, hposition]
    refine ⟨_, decryptionLeafFromAction action, hentry, rfl, hfirst, ?_, ?_, rfl⟩
    · rw [hfirst, hfull.commitmentsOf_eq, List.getElem?_map, hindex]
      rfl
    · rw [hfirst, hfull.decryptionLeavesOf_eq, List.getElem?_map, hindex]
      rfl

/-- The second of two fetched blocks reports no size; the chain has one leaf before
them. -/
theorem meta_positions_match_leaves_unreported :
    let before := [sampleBlock 1 2 1 [sampleAction 7] 1]
    let unreported : CompactBlock :=
      { sampleBlock 3 4 3 [sampleAction 8, sampleAction 9] 0 with chainMetadata := none }
    let fetched := [sampleBlock 2 3 2 [sampleAction 6] 2, unreported]
    exists nwm, (extractNullifiersWithMeta unreported
        (priorSize none fetched 1)).1[1]? = some nwm ∧
      (commitmentsOf (before ++ fetched))[nwm.firstOutputPosition.toNat + 1]? =
        some (ByteVec.zeros 32) := by
  intro before unreported fetched
  have hfull : FullActions (before ++ fetched) := by
    refine ⟨?_, ?_, by decide⟩ <;> decide
  have hstart : StartKnown before fetched 1 unreported :=
    Or.inr ⟨rfl, 0, _, 2, rfl, rfl, rfl, rfl⟩
  have hmatch := meta_positions_match_leaves hfull none (i := 1) rfl hstart
  rcases hmatch.right.right.right [] _ [] 1 (sampleAction 9) rfl rfl with
    ⟨nwm, _, hentry, _, _, hleaf, _⟩
  exact ⟨nwm, hentry, hleaf⟩

end Combined
end SpendabilityPir
