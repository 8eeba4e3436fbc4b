import SpendabilityPir.Witness.WitnessFollow
import SpendabilityPir.Witness.WitnessStartup

/-!
# Catching up from a saved tree

A restart appends the blocks after the saved tree's newest record to whatever leaves the
tree has.
-/

namespace SpendabilityPir
namespace Witness

open Foundation Shared

/-- The leaves past the offset are those of a chain through the latest height. -/
def HoldsThroughLatest (tree : CommitmentTreeDb) (chain : ChainView) : Prop :=
  HoldsChain tree (chain.take ((tree.latestHeight.map Nat.succ).getD 0))

theorem latestHeight_appendBlocks (tree : CommitmentTreeDb) (blocks : List CompactBlock) :
    (appendBlocks tree blocks).latestHeight =
      (blocks.getLast?.map ChainView.heightOf).or tree.latestHeight := by
  induction blocks generalizing tree with
  | nil => rfl
  | cons block rest ih =>
      rw [appendBlocks, ih]
      cases rest with
      | nil =>
          rw [CommitmentTreeDb.latestHeight, CommitmentTreeDb.blocks_appendCommitments,
            List.getLast?_concat]
          rfl
      | cons next others =>
          rw [List.getLast?_cons_cons, List.getLast?_cons]
          rfl

theorem holdsChain_appendBlocks_iff {tree : CommitmentTreeDb} {chain : ChainView}
    {blocks : List CompactBlock} :
    HoldsChain (appendBlocks tree blocks) (chain ++ blocks) ↔ HoldsChain tree chain := by
  constructor
  · intro h
    have hleaves := h.leaves
    have hoffset := h.offset_le
    rw [leaves_appendBlocks, leafOffset_appendBlocks, commitmentsOf_append] at hleaves
    rw [leafOffset_appendBlocks, commitmentsOf_append, List.length_append] at hoffset
    have hlength := congrArg List.length hleaves
    rw [List.length_append, List.length_drop, List.length_append] at hlength
    have hle : tree.leafOffset ≤ (commitmentsOf chain).length := by lia
    rw [List.drop_append_of_le_length hle] at hleaves
    exact ⟨(List.append_inj' hleaves rfl).1, hle⟩
  · intro h
    exact h.appendBlocks blocks

theorem take_latestHeight {U : BlockUniverse} {chain : ChainView} {start stop : Nat}
    (hchain : HonestView U chain) (hle : start ≤ stop) {latest : Option Nat}
    (hstart : (latest.map Nat.succ).getD 0 = start) :
    chain.take (((((chain.take stop).drop start).getLast?.map ChainView.heightOf).or
      latest).map Nat.succ |>.getD 0) = chain.take start ++ (chain.take stop).drop start := by
  cases hlast : ((chain.take stop).drop start).getLast? with
  | none =>
      rw [List.getLast?_eq_none_iff.mp hlast, List.append_nil]
      change chain.take ((latest.map Nat.succ).getD 0) = _
      rw [hstart]
  | some block =>
      rw [take_append_drop_take chain hle]
      have hsome : (chain.take stop).getLast? = some block := by
        rw [List.getLast?_drop] at hlast
        split at hlast
        · cases hlast
        · exact hlast
      have hblock : chain[(chain.take stop).length - 1]? = some block := by
        rw [List.getLast?_eq_getElem?] at hsome
        exact getElem?_of_isPrefix (List.take_prefix _ _) hsome
      change chain.take (block.height.toNat + 1) = _
      have hpos : 0 < (chain.take stop).length := by
        apply List.length_pos_iff.mpr
        intro hnil
        rw [hnil] at hsome
        cases hsome
      rw [hchain.height_eq hblock, Nat.sub_add_cancel hpos, List.length_take, List.take_eq_take_iff]
      lia

theorem runSyncOnly_eq_ok {σ : Type} {M : MerkleHashOrchard} {engine : PirEngine σ}
    {client : LwdClient} {connection : Option Connection} {limit : Nat}
    {tree tree' : CommitmentTreeDb} {pir : PirState σ} {chain : ChainView}
    (hnumbered : Numbered ChainView.heightOf 0 chain)
    (hview : forall served, connection = some served -> served.view = chain)
    (h : runSyncOnly M engine client connection limit (some tree) = .ok (tree', pir)) :
    exists stop cache, (tree.latestHeight.map Nat.succ).getD 0 ≤ stop ∧
      tree' = { appendBlocks tree ((chain.take stop).drop
        ((tree.latestHeight.map Nat.succ).getD 0)) with ssRootCache := cache } := by
  rcases bind_eq_ok.mp h with ⟨started, hstart, hrest⟩
  cases hstart
  rcases bind_eq_ok.mp hrest with ⟨synced, hsync, hrebuild⟩
  have hcache := rebuildPir_cache_only hrebuild
  change syncToTip connection _ tree ((tree.latestHeight.map Nat.succ).getD 0) _ = _ at hsync
  generalize (tree.latestHeight.map Nat.succ).getD 0 = start at hsync ⊢
  have hnothing : (chain.take start).drop start = [] :=
    List.drop_of_length_le (List.length_take_le _ _)
  unfold syncToTip at hsync
  split at hsync
  · next hle =>
      cases connection with
      | none =>
          rw [syncRange, if_neg (Nat.not_lt_of_le hle)] at hsync
          cases hsync
      | some served =>
          have hserved := hview served rfl
          rcases fetchBatches_eq (hserved.symm ▸ hnumbered) start
            client.blocks.view.tipHeight with ⟨stop, hlo, _, heq⟩
          rw [syncRange_eq_ok hsync, heq, hserved] at hcache
          exact ⟨stop, _, hlo, hcache⟩
  · cases hsync
    refine ⟨start, tree'.ssRootCache, Nat.le_refl _, ?_⟩
    rw [hnothing]
    exact hcache

theorem restarted_holdsThroughLatest_iff {σ : Type} {U : BlockUniverse}
    {M : MerkleHashOrchard} {engine : PirEngine σ} {client : LwdClient}
    {connection : Option Connection} {limit : Nat} {tree tree' : CommitmentTreeDb}
    {pir : PirState σ} {chain : ChainView} (hchain : HonestView U chain)
    (hview : forall served, connection = some served -> served.view = chain)
    (h : runSyncOnly M engine client connection limit (some tree) = .ok (tree', pir)) :
    HoldsThroughLatest tree' chain ↔ HoldsThroughLatest tree chain := by
  rcases runSyncOnly_eq_ok hchain.heights hview h with ⟨stop, cache, hle, htree⟩
  have hheight : tree'.latestHeight = _ :=
    (congrArg CommitmentTreeDb.latestHeight htree).trans (latestHeight_appendBlocks tree _)
  have hsame : forall front, HoldsChain tree' front ↔ HoldsChain (appendBlocks tree
      ((chain.take stop).drop ((tree.latestHeight.map Nat.succ).getD 0))) front := by
    intro front
    rw [htree]
    exact ⟨fun hold => ⟨hold.leaves, hold.offset_le⟩, fun hold => ⟨hold.leaves, hold.offset_le⟩⟩
  rw [HoldsThroughLatest, HoldsThroughLatest, hheight, take_latestHeight hchain hle rfl, hsame]
  exact holdsChain_appendBlocks_iff

end Witness
end SpendabilityPir
