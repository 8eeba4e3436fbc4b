import SpendabilityPir.Combined.OutputPositions
import SpendabilityPir.Combined.PublishedLife
import SpendabilityPir.Nullifier.ActionRange
import SpendabilityPir.Nullifier.WalletSession
import SpendabilityPir.Witness.WalletSession

/-!
# From a spent note to its outputs

A wallet that finds a spend of one of its notes learns where the outputs of the spending
transaction are in the tree, and gets their witnesses from the other half of the server.
-/

namespace SpendabilityPir
namespace Combined

open Foundation Shared
open Nullifier (HashTableDb CoverableChain MadeFrom SmallBlocks SpendClient SpendMetadata SpentAt
  extractNullifiers extractNullifiersWithMeta hashToBucket scanBucketForNf rowFor)
open Witness (CommitmentTreeDb ExactWitness HonestChain HonestCommitments MerkleHashOrchard
  OnWindow PirWitness Window commitmentsOf computeRootFromPath decomposePosition_of_lt getWitness
  getWitness_eq protocolLeaf shardLeaves witnessRow)

/-!
## Spends of a chain
-/

def SpendsOnce (chain : ChainView) : Prop :=
  (chain.flatMap extractNullifiers).Nodup

/-- A transaction of the block at a height, after the transactions in front of it. -/
def TxOf (chain : ChainView) (height : Nat) (front : List CompactTx) (tx : CompactTx) : Prop :=
  exists block rest, chain[height]? = some block ∧ block.vtx = front ++ tx :: rest

/-- The tree position of the first output of a transaction. -/
def firstOutput (chain : ChainView) (height : Nat) (front : List CompactTx) : Nat :=
  (actionsOf (chain.take height) ++ front.flatMap CompactTx.actions).length

/-- What a spend of the transaction is to be reported as. -/
structure ReportsTx (chain : ChainView) (height : Nat) (front : List CompactTx) (tx : CompactTx)
    (found : SpendMetadata) : Prop where
  spentAt : found.spendHeight.toNat = height
  first : found.firstOutputPosition.toNat = firstOutput chain height front
  count : found.actionCount.toNat = tx.actions.length

section Spends

variable {U : BlockUniverse} {M : MerkleHashOrchard} {chain : ChainView} {height : Nat}
variable {front : List CompactTx} {tx : CompactTx}

/-- A nullifier that occurs once occurs at one place of one block. -/
theorem SpendsOnce.unique (h : SpendsOnce chain) {height' : Nat} {block block' : CompactBlock}
    (hblock : chain[height]? = some block) (hblock' : chain[height']? = some block')
    {i j : Nat} {nf : ByteVec 32} (hi : (extractNullifiers block)[i]? = some nf)
    (hj : (extractNullifiers block')[j]? = some nf) : height = height' ∧ i = j := by
  rcases List.nodup_flatMap.mp h with ⟨hnodup, hpairwise⟩
  have hmem := List.mem_of_getElem? hi
  have hmem' := List.mem_of_getElem? hj
  have hdisjoint : forall (m n : Nat) (block block' : CompactBlock), m < n ->
      chain[m]? = some block -> chain[n]? = some block' -> nf ∈ extractNullifiers block ->
      nf ∉ extractNullifiers block' := by
    intro m n block block' hlt hm hn hin hin'
    rcases List.getElem?_eq_some_iff.mp hm with ⟨hml, hm⟩
    rcases List.getElem?_eq_some_iff.mp hn with ⟨hnl, hn⟩
    have hapart : List.Disjoint (extractNullifiers chain[m]) (extractNullifiers chain[n]) :=
      List.pairwise_iff_getElem.mp hpairwise m n hml hnl hlt
    rw [hm, hn] at hapart
    exact hapart hin hin'
  have heq : height = height' := by
    rcases Nat.lt_trichotomy height height' with hlt | heq | hlt
    · exact absurd hmem' (hdisjoint _ _ _ _ hlt hblock hblock' hmem)
    · exact heq
    · exact absurd hmem (hdisjoint _ _ _ _ hlt hblock' hblock hmem')
  subst heq
  cases hblock.symm.trans hblock'
  have hlt := (List.getElem?_eq_some_iff.mp hi).1
  have hindex : i = j := (List.getElem?_inj hlt (hnodup block (List.mem_of_getElem? hblock))).mp
    (hi.trans hj.symm)
  exact ⟨rfl, hindex⟩

theorem honestMetadata_of_chain (hchain : HonestCommitments M chain) (hfull : FullActions chain)
    {block : CompactBlock} (hblock : chain[height]? = some block) :
    Nullifier.HonestMetadata (actionsOf (chain.take height)).length block := by
  rcases hchain.sizes height block hblock with ⟨metadata, hmetadata, hsize⟩
  have hlength := congrArg List.length
    (hfull.of_prefix (List.take_prefix (height + 1) chain)).commitmentsOf_eq
  rw [List.length_map] at hlength
  unfold Nullifier.HonestMetadata
  rw [hmetadata, Option.map_some, hsize, hlength, List.take_add_one, hblock, actionsOf,
    List.flatMap_append, List.length_append]
  simp only [Option.toList_some, List.flatMap_cons, List.flatMap_nil, List.append_nil, actionsOf]

theorem entry_of_action (hchain : HonestCommitments M chain) (hfull : FullActions chain)
    {block : CompactBlock} {rest : List CompactTx} (hblock : chain[height]? = some block)
    (hvtx : block.vtx = front ++ tx :: rest) (priorTreeSize : Option UInt32) {k : Nat}
    {action : CompactOrchardAction} (haction : tx.actions[k]? = some action) :
    exists nwm,
      (extractNullifiersWithMeta block priorTreeSize).1[
        (front.flatMap CompactTx.actions).length + k]? = some nwm ∧
      nwm.nullifier = ByteVec.ofBytes 32 action.nullifier ∧
      nwm.firstOutputPosition.toNat = firstOutput chain height front ∧
      nwm.actionCount = UInt8.ofNat tx.actions.length := by
  have hactions : block.actions = front.flatMap CompactTx.actions ++
      (tx.actions ++ rest.flatMap CompactTx.actions) := by
    rw [CompactBlock.actions, hvtx, List.flatMap_append, List.flatMap_cons]
  have hpositive : 0 < block.actions.length := by
    have hk := (List.getElem?_eq_some_iff.mp haction).1
    rw [hactions, List.length_append, List.length_append]
    lia
  rcases Nullifier.treeSizeBeforeBlock_of_honest (honestMetadata_of_chain hchain hfull hblock)
    hpositive priorTreeSize with ⟨start, hstart, hbefore, hfits⟩
  have hlengths : forall action, action ∈ (front ++ tx :: rest).flatMap CompactTx.actions ->
      action.nullifier.length = 32 := by
    rw [← hvtx]
    exact fun action hmem => hfull.nullifiers action
      (mem_actionsOf (List.mem_of_getElem? hblock) hmem)
  have hentry := getElem?_txsNullifiers start hlengths haction
  rw [← hstart, ← hvtx] at hentry
  refine ⟨_, hentry, rfl, ?_, rfl⟩
  have hfront : (front.flatMap CompactTx.actions).length ≤ block.actions.length := by
    rw [hactions, List.length_append]
    exact Nat.le_add_right _ _
  have hcast : (UInt32.ofNat (front.flatMap CompactTx.actions).length).toNat =
      (front.flatMap CompactTx.actions).length := UInt32.toNat_ofNat_of_lt' (by lia)
  change (start + UInt32.ofNat (front.flatMap CompactTx.actions).length).toNat = _
  rw [UInt32.toNat_add, hcast, hbefore, Nat.mod_eq_of_lt (by lia), firstOutput,
    List.length_append]

theorem TableOf.reportsTx {hashtable : HashTableDb} (h : TableOf chain hashtable)
    (hchain : HonestCommitments M chain) (hheights : HonestView U chain)
    (hshort : chain.length ≤ 2 ^ 31) (hfull : FullActions chain) (honce : SpendsOnce chain)
    (htx : TxOf chain height front tx) (hcount : tx.actions.length ≤ 255)
    {action : CompactOrchardAction} (haction : action ∈ tx.actions) {nf : ByteVec 32}
    (hspends : ByteVec.ofBytes 32 action.nullifier = nf) (hnf : nf ≠ ByteVec.zeros 32)
    {found : SpendMetadata}
    (hfound : scanBucketForNf (rowFor hashtable.toPirBytes nf) nf = some found) :
    ReportsTx chain height front tx found := by
  rcases htx with ⟨block, rest, hblock, hvtx⟩
  rcases List.mem_iff_getElem?.mp haction with ⟨k, hk⟩
  rcases Nullifier.madeFrom_of_scan h.made hnf hfound with
    ⟨madeOf, priorTreeSize, nwm, hserved, hmem, hnwm, hmetadata⟩
  rcases List.mem_iff_getElem?.mp hserved with ⟨height', hmadeOf⟩
  rcases List.mem_iff_getElem?.mp hmem with ⟨j, hj⟩
  rcases entry_of_action hchain hfull hblock hvtx priorTreeSize hk with
    ⟨entry, hentry, hentryNf, hfirst, hentryCount⟩
  have hnullifierAt : forall {block : CompactBlock} {i : Nat}
      {found : Nullifier.NullifierWithMeta},
      (extractNullifiersWithMeta block priorTreeSize).1[i]? = some found ->
      (extractNullifiers block)[i]? = some found.nullifier := by
    intro block i found hi
    rw [← Nullifier.map_nullifier_extractNullifiersWithMeta block priorTreeSize,
      List.getElem?_map, hi]
    rfl
  have hat := hnullifierAt hj
  have hat' := hnullifierAt hentry
  rw [hnwm] at hat
  rw [hentryNf, hspends] at hat'
  rcases honce.unique hblock hmadeOf hat' hat with ⟨heq, hindex⟩
  subst heq
  cases hblock.symm.trans hmadeOf
  rw [← hindex, hentry] at hj
  cases hj
  rw [hmetadata]
  have hlt := (List.getElem?_eq_some_iff.mp hblock).1
  constructor
  · have hheight : block.height.toNat = 0 + height := hheights.heights height block hblock
    change (UInt32.ofNat block.height.toNat).toNat = height
    rw [hheight, Nat.zero_add]
    exact UInt32.toNat_ofNat_of_lt' (by lia)
  · exact hfirst
  · change nwm.actionCount.toNat = _
    rw [hentryCount]
    exact UInt8.toNat_ofNat_of_lt' (by lia)

end Spends

/-!
## What a wallet reads
-/

section Reads

variable {σ τ ε δ ρ ς : Type} {U : BlockUniverse} {M : MerkleHashOrchard} {chain : ChainView}
variable {nfEngine : QueryEngine σ ε} {witEngine : QueryEngine τ δ}
variable {nfClient : PirClient ρ} {witClient : PirClient ς}
variable {nfPir : Nullifier.PirState σ} {witPir : Witness.PirState τ}

def ReadsSpend (engine : QueryEngine σ ε) (client : PirClient ρ) (pir : Nullifier.PirState σ)
    (seed : ρ) (nf : ByteVec 32) (found : SpendMetadata) : Prop :=
  exists response,
    engine.answerQuery pir.engineState (client.generateQuery (hashToBucket nf).val seed) =
      .ok response ∧
    SpendClient.isSpent (fun _ => .body (some (client.decodeResponse seed response))) nf =
      .ok (some found)

/-- The witness of a position out of a published window. -/
def ReadsWitness (M : MerkleHashOrchard) (mode : Arithmetic) (engine : QueryEngine τ δ)
    (client : PirClient ς) (pir : Witness.PirState τ) (seed : ς) (position : Nat)
    (witness : PirWitness) : Prop :=
  exists row response, witnessRow mode pir.broadcast position = .ok row ∧
    engine.answerQuery pir.engineState (client.generateQuery row seed) = .ok response ∧
    getWitness M mode position (client.decodeResponse seed response) pir.broadcast = .ok witness

theorem FromTable.readsSpend (h : FromTable nfEngine.toPirEngine chain nfPir)
    (hclient : nfClient.Retrieves nfEngine Nullifier.scenario)
    (hcoverable : CoverableChain U chain) {nf : ByteVec 32} (hnf : nf ≠ ByteVec.zeros 32)
    {height : Nat} (hspent : SpentAt nfPir.metadata chain nf height) (seed : ρ) :
    exists hashtable found, TableOf chain hashtable ∧
      scanBucketForNf (rowFor hashtable.toPirBytes nf) nf = some found ∧
      ReadsSpend nfEngine nfClient nfPir seed nf found := by
  rcases h with ⟨hashtable, htable, hbuilt⟩
  unfold Nullifier.rebuildPir at hbuilt
  split at hbuilt
  · cases hbuilt
  · next engineState hsetup =>
      cases hbuilt
      have hanswers := Nullifier.databaseAnswers_of_holds hcoverable htable.holds
      rcases Option.isSome_iff_exists.mp (hanswers.complete nf height hnf hspent) with
        ⟨found, hfound⟩
      have hlength : hashtable.toPirBytes.length * 8 =
          Nullifier.scenario.numItems * Nullifier.scenario.itemSizeBits := by
        rw [hanswers.length]
        rfl
      rcases hclient hashtable.toPirBytes engineState (hashToBucket nf).val seed hlength hsetup
        (hashToBucket nf).isLt with ⟨response, hresponse, hrow⟩
      refine ⟨hashtable, found, htable, hfound, response, hresponse, ?_⟩
      have hscan := Nullifier.scanBucketForNf_of_padded
        (Nullifier.length_rowFor hanswers.length nf) hrow nf
      rw [hfound] at hscan
      rw [SpendClient.isSpent]
      dsimp only
      rw [hscan]

theorem OnSomeWindow.readsWitness (h : OnSomeWindow M witEngine.toPirEngine chain witPir)
    (hclient : witClient.Retrieves witEngine Witness.scenario) (hchain : HonestChain U M chain)
    (mode : Arithmetic) {position : Nat}
    (hlo : witPir.broadcast.windowStartShard ≤ position / 2 ^ 16)
    (hhi : position <
      (commitmentsOf (chain.take (witPir.metadata.anchorHeight + 1))).length) (seed : ς) :
    exists witness, ReadsWitness M mode witEngine witClient witPir seed position witness ∧
      witness.anchorHeight = witPir.metadata.anchorHeight ∧
      ExactWitness M (commitmentsOf (chain.take (witPir.metadata.anchorHeight + 1))) position
        witness := by
  rcases h with ⟨w, n, hw, hshows⟩
  have hbase := hshows.base_lt
  have hanchor : witPir.metadata.anchorHeight + 1 = n := by
    rw [hshows.anchorHeight]
    lia
  rw [hanchor] at hhi ⊢
  rcases hshows.broadcast_window hchain with ⟨tree, hon, hstart, _, hoffset, _⟩
  have hwindow : w.leafOffset ≤ position := by
    have haligned := hw.aligned
    rw [hstart, hoffset] at hlo
    have hshard : shardLeaves = 2 ^ 16 := rfl
    rw [hshard] at haligned hlo
    lia
  have hsize := hon.treeSize_le hchain
  rw [hon.treeSize_eq] at hsize
  rcases hshows.answer hw hchain hclient hwindow hhi seed with ⟨response, hresponse, hrow⟩
  rcases hshows.reconstruct_exact hw hchain mode hwindow hhi with
    ⟨witness, hwitness, hheight, hexact⟩
  refine ⟨witness, ⟨w.rowOf position, response,
    hshows.witnessRow_eq hw hchain mode hwindow hhi, hresponse, ?_⟩, ?_, hexact⟩
  · rw [getWitness_eq, hshows.witnessRow_eq hw hchain mode hwindow hhi, ok_bind,
      decomposePosition_of_lt (Nat.lt_of_lt_of_le hhi hsize)]
    exact (Witness.reconstructWitness_of_row hchain hw hshows hwindow hrow _ _ _ _).trans hwitness
  · rw [hheight]
    lia

theorem commitment_at {height anchorHeight k : Nat} {front : List CompactTx} {tx : CompactTx}
    {action : CompactOrchardAction} (hfull : FullActions chain) (htx : TxOf chain height front tx)
    (hle : height ≤ anchorHeight) (haction : tx.actions[k]? = some action) :
    (commitmentsOf (chain.take (anchorHeight + 1)))[firstOutput chain height front + k]? =
      some (ByteVec.ofBytes 32 action.cmx) := by
  rcases htx with ⟨block, rest, hblock, hvtx⟩
  have hat : (chain.take (anchorHeight + 1))[height]? = some block := by
    rw [List.getElem?_take_of_lt (Nat.lt_succ_of_le hle)]
    exact hblock
  rcases actionsOf_split [] hat with ⟨later, hsplit⟩
  have hposition := getElem?_actionsOf hsplit hvtx haction
  rw [List.nil_append, List.take_take, Nat.min_eq_left (Nat.le_succ_of_le hle)] at hposition
  rw [(hfull.of_prefix (List.take_prefix _ chain)).commitmentsOf_eq, List.getElem?_map,
    firstOutput]
  rw [List.nil_append] at hposition
  rw [hposition]
  rfl

end Reads

/-!
## Lives of the combined server
-/

section Wallets

variable {σ τ ε δ ρ ς : Type} {U : BlockUniverse} {M : MerkleHashOrchard} {mode : Arithmetic}
variable {xxh64 : List UInt8 -> Nat -> UInt64} {chain : ChainView} {config : CombinedConfig}
variable {nfEngine : QueryEngine σ ε} {witEngine : QueryEngine τ δ}
variable {nfClient : PirClient ρ} {witClient : PirClient ς}
variable {s : CombinedLife σ τ} {inputs : List CombinedLifeInput}
variable {server : CombinedServer σ τ} {nfPir : Nullifier.PirState σ}
variable {witPir : Witness.PirState τ}

/-- Whatever crashed before: for a nullifier that a transaction of the chain reveals, at a
height that is published, a wallet finds the spend at that height with the positions of the
transaction's outputs, and for each of them that the published window has, the witness with
which the output's commitment hashes to the root at the published anchor. -/
theorem spent_notes_lead_to_outputs (hnf : nfEngine.toPirEngine.Accepts Nullifier.scenario)
    (hwit : witEngine.toPirEngine.Accepts Witness.scenario)
    (hnfClient : nfClient.Retrieves nfEngine Nullifier.scenario)
    (hwitClient : witClient.Retrieves witEngine Witness.scenario)
    (hchain : HonestChain U M chain) (hshort : chain.length ≤ 2 ^ 31)
    (hcoverable : CoverableChain U chain) (hsmall : SmallBlocks chain)
    (hfull : FullActions chain) (honce : SpendsOnce chain)
    (hrun : Run (CombinedLife.StepOver config M mode xxh64 nfEngine.toPirEngine
      witEngine.toPirEngine chain) CombinedLife.init inputs s)
    (hprocess : s.process = some (.following server)) (hnfPir : server.nfPir = some nfPir)
    (hwitPir : server.witPir = some witPir) {height : Nat} {front : List CompactTx}
    {tx : CompactTx} (htx : TxOf chain height front tx) (hcount : tx.actions.length ≤ 255)
    (hearliest : nfPir.metadata.earliestHeight ≤ height)
    (hlatest : height ≤ nfPir.metadata.latestHeight) :
    forall spend, spend ∈ tx.actions -> forall nfSeed, exists found,
      ReadsSpend nfEngine nfClient nfPir nfSeed (ByteVec.ofBytes 32 spend.nullifier) found ∧
      ReportsTx chain height front tx found ∧
      forall k output, tx.actions[k]? = some output ->
        height ≤ witPir.metadata.anchorHeight ->
        witPir.broadcast.windowStartShard ≤ (found.firstOutputPosition.toNat + k) / 2 ^ 16 ->
        forall witSeed, exists witness,
          ReadsWitness M mode witEngine witClient witPir witSeed
            (found.firstOutputPosition.toNat + k) witness ∧
          witness.anchorHeight = witPir.metadata.anchorHeight ∧
          ExactWitness M (commitmentsOf (chain.take (witPir.metadata.anchorHeight + 1)))
            (found.firstOutputPosition.toNat + k) witness ∧
          computeRootFromPath M (found.firstOutputPosition.toNat + k)
            (ByteVec.ofBytes 32 output.cmx) witness.siblings = some witness.anchorRoot := by
  rcases CombinedLife.lifePublished_run hnf hwit hchain hshort hcoverable hsmall hrun with
    ⟨c, hlife⟩
  have hpublished := hlife.published _ hprocess
  intro spend hspend nfSeed
  have hrevealed : exists block, chain[height]? = some block ∧
      ByteVec.ofBytes 32 spend.nullifier ∈ extractNullifiers block := by
    rcases htx with ⟨block, rest, hblock, hvtx⟩
    refine ⟨block, hblock, ?_⟩
    have hactions : spend ∈ block.actions := by
      rw [CompactBlock.actions, hvtx]
      exact List.mem_flatMap.mpr ⟨tx, List.mem_append_right _ List.mem_cons_self, hspend⟩
    rw [extractNullifiers, fieldsOf32_eq_map (fun action haction => hfull.nullifiers action
      (mem_actionsOf (List.mem_of_getElem? hblock) haction))]
    exact List.mem_map_of_mem hactions
  have hnonzero : ByteVec.ofBytes 32 spend.nullifier ≠ ByteVec.zeros 32 := by
    rcases hrevealed with ⟨block, hblock, hmem⟩
    intro hzero
    rw [hzero] at hmem
    exact hcoverable.nonzero block (List.mem_of_getElem? hblock) hmem
  rcases (hpublished.nullifiers nfPir hnfPir).readsSpend hnfClient hcoverable hnonzero
    ⟨hearliest, hlatest, hrevealed⟩ nfSeed with ⟨hashtable, found, htable, hfound, hreads⟩
  have hreports := htable.reportsTx hchain.commitments hchain.blocks hshort hfull honce htx hcount
    hspend rfl hnonzero hfound
  refine ⟨found, hreads, hreports, ?_⟩
  intro k output houtput hanchor hwindow witSeed
  rw [hreports.first] at hwindow ⊢
  have hcommitment := commitment_at hfull htx hanchor houtput
  have hhi := (List.getElem?_eq_some_iff.mp hcommitment).1
  rcases (hpublished.witnesses witPir hwitPir).readsWitness hwitClient hchain mode hwindow hhi
    witSeed with ⟨witness, hwitness, hheight, hexact⟩
  have hleaf : protocolLeaf M (commitmentsOf (chain.take (witPir.metadata.anchorHeight + 1)))
      (firstOutput chain height front + k) = ByteVec.ofBytes 32 output.cmx := by
    rw [protocolLeaf, List.getD_eq_getElem?_getD, hcommitment]
    rfl
  have hshortTree : (commitmentsOf (chain.take (witPir.metadata.anchorHeight + 1))).length <
      2 ^ 32 := by
    have hfront := hfull.of_prefix (List.take_prefix (witPir.metadata.anchorHeight + 1) chain)
    rw [hfront.commitmentsOf_eq, List.length_map]
    exact hfront.total
  have hroot := hexact.verifies (Nat.lt_trans hhi hshortTree)
  rw [hleaf] at hroot
  exact ⟨witness, hwitness, hheight, hexact, hroot⟩

end Wallets

/-!
## A spend that is found after a restart
-/

section Sample

open Witness (StubServerState sampleHash stubPirEngine)

def keepingQueries : QueryEngine (List UInt8) Nullifier.StubPirError :=
  { keepingEngine with
    answerQuery := fun db =>
      Nullifier.stubAnswerQuery { buckets := db, numItems := Nullifier.scenario.numItems } }

theorem retrieves_keepingQueries : plainClient.Retrieves keepingQueries Nullifier.scenario := by
  intro db state idx seed hlength hsetup hidx
  cases hsetup
  exact Nullifier.retrieves_stubPirEngine db _ idx seed hlength rfl hidx

theorem fullActions_chainAfter : FullActions chainAfter := by
  constructor <;> decide

theorem spendsOnce_chainAfter : SpendsOnce chainAfter := by
  have hnullifiers : chainAfter.flatMap extractNullifiers =
      [ByteVec.ofBytes 32 (sampleAction 8).nullifier] := rfl
  rw [SpendsOnce, hnullifiers]
  exact List.nodup_singleton _

theorem txOf_sampleReplacement : TxOf chainAfter 2 [] { actions := [sampleAction 8] } :=
  ⟨sampleReplacement, [], rfl, rfl⟩

def tableThree : HashTableDb :=
  (tableLoaded.insertBlock 3 (toHashArray sampleNext.hash) []).1

theorem evictToTarget_tableThree : tableThree.evictToTarget = some tableThree :=
  HashTableDb.evictToTarget_of_le (Nat.le_of_ble_eq_true rfl)

theorem earliestHeight_of_poll {witPir : Option (Witness.PirState StubServerState)}
    {tree : CommitmentTreeDb} {server : CombinedServer (List UInt8) StubServerState}
    {nfPir : Nullifier.PirState (List UInt8)}
    (hpoll : (enteredPair witPir tree).poll sampleHash keepingEngine stubPirEngine.toPirEngine
      chainAfter = some server) (hnfPir : server.nfPir = some nfPir) :
    nfPir.metadata.earliestHeight = 1 := by
  have haction : ((enteredPair witPir tree).loop.task.advance sampleNext).2 = .extend := by
    change ((Nullifier.SpendServer.followStart tableLoaded).advance sampleNext).2 = _
    decide
  have htable : forall loop, ingestBlocks (enteredPair witPir tree).loop [sampleNext] = some loop ->
      loop.databases.hashtable = some tableThree := by
    intro loop hloop
    unfold ingestBlocks at hloop
    split at hloop
    · cases hloop
    · next ingested hingested =>
        cases hloop
        rcases (ingestBlock_cases hingested).right.right with
          ⟨hfalse, _⟩ | ⟨hashtable, hashtable', hbefore, hafter, hingest⟩
        · cases hfalse
        · cases hbefore
          rw [haction] at hingest
          cases hingest.symm.trans evictToTarget_tableThree
          exact hafter
  have hentered : (enteredPair witPir tree).nfPir = some nfPir ->
      nfPir.metadata.earliestHeight = 1 := by
    intro hsome
    rw [← Option.some.inj hsome]
    rfl
  rcases (CombinedServer.poll_cases hpoll).right with
    ⟨_, hsame⟩ | ⟨_, _, hstopped⟩ | ⟨loop, _, hingest, hpublished⟩
  · rw [hsame] at hnfPir
    exact hentered hnfPir
  · rw [hstopped] at hnfPir
    exact hentered hnfPir
  · rw [hpublished] at hnfPir
    rcases CombinedServer.nfPir_publish hnfPir with hold | ⟨hashtable, hnew, hbuilt⟩
    · exact hentered hold
    · have heq : hashtable = tableThree := Option.some.inj (hnew.symm.trans (htable loop hingest))
      rw [heq, rebuildPir_keepingEngine] at hbuilt
      rw [← Except.ok.inj hbuilt]
      rfl

theorem exists_polledAgain :
    exists (nfFs witFs : FileSystem String) (s : CombinedLife (List UInt8) StubServerState)
        (server : CombinedServer (List UInt8) StubServerState) (w : Window)
        (nfPir : Nullifier.PirState (List UInt8)) (witPir : Witness.PirState StubServerState),
      Later SampleCombinedLife CombinedLife.init (CombinedLife.crashed nfFs witFs) ∧
      Nullifier.loadSnapshot (fun _ _ => 0) nfFs = .ok tableLoaded ∧
      Later SampleCombinedLife (CombinedLife.crashed nfFs witFs) s ∧
      s.process = some (.following server) ∧ server.nfPir = some nfPir ∧
      server.witPir = some witPir ∧ nfPir.metadata.earliestHeight = 1 ∧
      w.Sound sampleHash chainAfter ∧
      PairShows sampleHash keepingEngine stubPirEngine.toPirEngine w chainAfter 3 nfPir
        witPir := by
  rcases exists_killed with ⟨nfFs, witFs, tree, hkilled, hnfLoad, hwitLoad, hon⟩
  rcases exists_restarted hkilled hnfLoad hwitLoad hon with
    ⟨witPir, caughtUp, nfFs', witFs', synced, hrestarted⟩
  rcases lifeInvariant_sample (hkilled.trans hrestarted) with ⟨a, b, hlife⟩
  cases hlife.process _ rfl with
  | @window w _ hw hpair =>
      rcases hpair with ⟨hrunning, height, hloop⟩
      have hfit := insertsFit_enteredPair witPir caughtUp
      rcases poll_of_loopAt accepts_keepingEngine Witness.accepts_stubPirEngine hw
        honestChain_chainAfter coverable_chainAfter small_chainAfter hrunning hloop
        (List.prefix_refl _) hfit (by rw [currentHeight_enteredPair]; decide) with
        ⟨server, nfPir, witPir', hpoll, _, hnfPir, hwitPir, hshows, _⟩
      refine ⟨nfFs, witFs, _, server, w, nfPir, witPir', hkilled, hnfLoad,
        hrestarted.next ⟨.server rfl (.poll rfl) (.poll hpoll), ?_⟩, rfl, hnfPir, hwitPir,
        earliestHeight_of_poll hpoll hnfPir, hw, hshows⟩
      intro state hstate
      cases hstate
      exact ⟨List.prefix_refl _, hfit, fun _ hfalse => (nomatch hfalse)⟩

/-- Killed with the spend of block 2 on disk and restarted, the server leads a wallet from the
nullifier to the witness of the transaction's output. -/
theorem spent_notes_lead_to_outputs_restarted :
    exists (nfFs witFs : FileSystem String) (s : CombinedLife (List UInt8) StubServerState)
        (server : CombinedServer (List UInt8) StubServerState)
        (nfPir : Nullifier.PirState (List UInt8)) (witPir : Witness.PirState StubServerState)
        (found : SpendMetadata) (witness : PirWitness),
      Later SampleCombinedLife CombinedLife.init (CombinedLife.crashed nfFs witFs) ∧
      Nullifier.loadSnapshot (fun _ _ => 0) nfFs = .ok tableLoaded ∧
      Later SampleCombinedLife (CombinedLife.crashed nfFs witFs) s ∧
      s.process = some (.following server) ∧ server.nfPir = some nfPir ∧
      server.witPir = some witPir ∧
      ReadsSpend keepingQueries plainClient nfPir ()
        (ByteVec.ofBytes 32 (sampleAction 8).nullifier) found ∧
      found.spendHeight.toNat = 2 ∧ found.firstOutputPosition.toNat = 0 ∧
      found.actionCount.toNat = 1 ∧
      ReadsWitness sampleHash .checked stubPirEngine plainClient witPir () 0 witness ∧
      witness.anchorHeight = 3 ∧
      computeRootFromPath sampleHash 0 (ByteVec.ofBytes 32 (sampleAction 8).cmx)
        witness.siblings = some witness.anchorRoot := by
  rcases exists_polledAgain with
    ⟨nfFs, witFs, s, server, w, nfPir, witPir, hkilled, hload, hlater, hprocess, hnfPir, hwitPir,
      hearliest, hw, hshows⟩
  rcases hkilled.trans hlater with ⟨inputs, hrun⟩
  rcases spent_notes_lead_to_outputs accepts_keepingEngine Witness.accepts_stubPirEngine
    retrieves_keepingQueries Witness.retrieves_stubPirEngine honestChain_chainAfter (by decide)
    coverable_chainAfter small_chainAfter fullActions_chainAfter spendsOnce_chainAfter hrun
    hprocess hnfPir hwitPir txOf_sampleReplacement (by decide) (by rw [hearliest]; decide)
    (by rw [hshows.latestHeight]; decide) (sampleAction 8) List.mem_cons_self () with
    ⟨found, hfound, hreports, houtputs⟩
  have hfirst : found.firstOutputPosition.toNat = 0 := hreports.first
  have hanchor : witPir.metadata.anchorHeight = 3 := hshows.shows.anchorHeight
  have hstart : witPir.broadcast.windowStartShard = 0 := by
    rcases hshows.shows.broadcast_window honestChain_chainAfter with
      ⟨tree, _, hstart, _, hoffset, _⟩
    have hle : w.leafOffset ≤ 1 := hw.offset_le
    rw [hstart, hoffset]
    exact Nat.div_eq_of_lt (Nat.lt_of_le_of_lt hle (by decide))
  rcases houtputs 0 (sampleAction 8) rfl (by rw [hanchor]; decide)
    (by rw [hstart]; exact Nat.zero_le _) () with ⟨witness, hwitness, hheight, _, hroot⟩
  rw [hfirst] at hwitness hroot
  exact ⟨nfFs, witFs, s, server, nfPir, witPir, found, witness, hkilled, hload, hlater, hprocess,
    hnfPir, hwitPir, hfound, hreports.spentAt, hfirst, hreports.count, hwitness,
    hheight.trans hanchor, hroot⟩

end Sample

end Combined
end SpendabilityPir
