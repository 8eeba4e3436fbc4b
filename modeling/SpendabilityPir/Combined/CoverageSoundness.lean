import SpendabilityPir.Combined.CombinedCoverage

/-!
# Published coverage

While no backfill batch leaves a gap and every insertion of the combined follow loop fits,
both servers publish tables that hold every block between the heights they report.
-/

namespace SpendabilityPir
namespace Combined

open Foundation Shared
open Nullifier (HashTableDb SpendServer ServerConfig ServerInput CoverableChain CoverageStep)
open Witness (MerkleHashOrchard)

/-- In every run of either server over an honest chain that leaves no gap, each nonzero
nullifier of a block between the published heights is in its row of the published
database. -/
theorem published_coverage_sound {σ τ : Type} {U : BlockUniverse} {M : MerkleHashOrchard}
    {config : ServerConfig} {nfEngine : PirEngine σ} {witEngine : PirEngine τ}
    {chain : ChainView} (hchain : CoverableChain U chain) :
    (forall inputs s,
      Run (CoverageStep config nfEngine chain) SpendServer.init inputs s ->
      forall pir, s.livePir = some pir -> pir.Covers nfEngine chain) ∧
    forall nullifier witness inputs s,
      Run (CombinedCoverageStep M config nfEngine witEngine chain)
        (startingServer σ τ nullifier witness) inputs s ->
      forall pir, s.nfPir = some pir -> pir.Covers nfEngine chain := by
  constructor
  · intro inputs s hrun
    exact (Nullifier.coverageInvariant_run hchain hrun
      Nullifier.coverageInvariant_init).published
  · intro nullifier witness inputs s hrun pir hpir
    have hcovers := hrun.invariant (P := CombinedCoverage U nfEngine chain)
      (fun _ _ _ hkept hstep => combinedCoverage_step hchain hkept hstep)
      (combinedCoverage_startingServer nullifier witness)
    exact hcovers.published hpir

/-!
## A fresh start and one new block

Lightwalletd serves blocks 0 and 1 at the start, and block 2 with one nullifier in the
first poll.
-/

open Nullifier (sampleConfig tableBefore tableOrphaned taskOrphaned)

def keepingEngine : PirEngine (List UInt8) :=
  { setup := fun bytes _ => some bytes }

def pirOf (hashtable : HashTableDb) : Nullifier.PirState (List UInt8) :=
  { engineState := hashtable.toPirBytes, metadata := Nullifier.metadataOf hashtable }

theorem engineState_pirOf (hashtable : HashTableDb) :
    (pirOf hashtable).engineState = hashtable.toPirBytes := by
  rw [pirOf]

theorem rebuildPir_keepingEngine (hashtable : HashTableDb) :
    Nullifier.rebuildPir keepingEngine hashtable Nullifier.scenario = .ok (pirOf hashtable) :=
  rfl

theorem publish_keepingEngine {s : SpendServer (List UInt8)}
    (hsize : s.hashtable.len ≤ Nullifier.targetSize) :
    s.publish keepingEngine =
      { hashtable := s.hashtable
        livePir := some (pirOf s.hashtable)
        stage := .follow (some (SpendServer.followStart s.hashtable)) [] } :=
  SpendServer.publish_of_le hsize (rebuildPir_keepingEngine s.hashtable)

theorem coverable_chainOrphaned : CoverableChain sampleUniverse chainOrphaned where
  honest := honest_chainOrphaned
  nonzero := by decide
  genesis := by
    intro block hblock
    cases hblock
    rfl

def connectionStart : Connection :=
  { view := chainBefore, fails := fun _ _ => false }

def spendForward : SpendServer (List UInt8) :=
  { hashtable := HashTableDb.new, livePir := none, stage := .forward 1 1 1 false }

def spendFilled : SpendServer (List UInt8) :=
  { hashtable := tableBefore, livePir := none, stage := .synced }

def spendServing (hashtable : HashTableDb) (task : FollowState)
    (queue : List Nullifier.ChainEvent) : SpendServer (List UInt8) :=
  { hashtable := hashtable
    livePir := some (pirOf hashtable)
    stage := .follow (some task) queue }

abbrev SampleCoverage : SpendServer (List UInt8) -> ServerInput ->
    SpendServer (List UInt8) -> Prop :=
  CoverageStep sampleConfig keepingEngine chainOrphaned

theorem sampleCoverage_connect :
    SampleCoverage SpendServer.init (.connect 1 none) spendForward where
  step := rfl
  served := fun _ hfalse => (nomatch hfalse)
  noGap := fun _ _ _ hfalse => (nomatch hfalse)

theorem sampleCoverage_range :
    SampleCoverage spendForward (.range (some connectionStart)) spendFilled where
  step := by
    have hsync : Nullifier.syncRange (some connectionStart) 1 1 HashTableDb.new none =
        .ok tableBefore := by
      rw [Nullifier.syncRange_of_serves honest_chainBefore.heights (fun _ _ => rfl)
        (Nat.le_refl 1)]
      rfl
    exact congrArg some (SpendServer.syncStage_of_ok hsync _)
  served := by
    intro c hc
    cases hc
    exact ⟨[sampleOrphan], rfl⟩
  noGap := fun _ _ _ _ hfalse => (nomatch hfalse)

theorem sampleCoverage_publish :
    SampleCoverage spendFilled .publish
      (spendServing tableBefore (SpendServer.followStart tableBefore) []) where
  step := by
    have hsize : spendFilled.hashtable.len ≤ Nullifier.targetSize := Nat.le_of_ble_eq_true rfl
    exact congrArg some (publish_keepingEngine hsize)
  served := trivial
  noGap := fun _ _ _ hfalse => (nomatch hfalse)

theorem sampleCoverage_poll :
    SampleCoverage (spendServing tableBefore (SpendServer.followStart tableBefore) [])
      (.poll chainOrphaned)
      (spendServing tableBefore taskOrphaned
        [Nullifier.newBlockEvent none sampleOrphan]) where
  step := rfl
  served := List.prefix_rfl
  noGap := fun _ _ _ hfalse => (nomatch hfalse)

theorem sampleCoverage_handle :
    SampleCoverage
      (spendServing tableBefore taskOrphaned [Nullifier.newBlockEvent none sampleOrphan])
      .handle (spendServing tableOrphaned taskOrphaned []) where
  step := congrArg some (SpendServer.handle_of_apply Nullifier.applyEvent_sampleOrphan
    (rebuildPir_keepingEngine tableOrphaned) (some taskOrphaned) [])
  served := trivial
  noGap := fun _ _ _ hfalse => (nomatch hfalse)

/-- The follow loop, and the combined server, of a build without the witness subsystem. -/
def loopOf (hashtable : HashTableDb) (task : FollowState) : FollowLoop :=
  { databases := { hashtable := some hashtable, tree := none }, task := task }

def combinedServing (hashtable : HashTableDb) (task : FollowState) :
    CombinedServer (List UInt8) Unit :=
  { loop := loopOf hashtable task
    nfPir := some (pirOf hashtable)
    witPir := none
    stopped := false }

abbrev SampleCombinedCoverage : CombinedState (List UInt8) Unit -> CombinedInput ->
    CombinedState (List UInt8) Unit -> Prop :=
  CombinedCoverageStep Witness.sampleHash sampleConfig keepingEngine
    Nullifier.acceptingEngine chainOrphaned

theorem sampleCombined_nullifier {s s' : SpendServer (List UInt8)} {input : ServerInput}
    (h : SampleCoverage s input s') (hsync : IsSyncInput input) :
    SampleCombinedCoverage (.syncing (some s) none) (.nullifier input)
      (.syncing (some s') none) where
  step := .nullifier hsync h.step
  served := h.served
  noGap := h.noGap

theorem sampleCombined_enter :
    SampleCombinedCoverage
      (.syncing (some (spendServing tableBefore (SpendServer.followStart tableBefore) []))
        none)
      (.enter none)
      (.following (combinedServing tableBefore (SpendServer.followStart tableBefore))) where
  step := by
    refine CombinedRunStep.enter ?_ (fun hfalse => (nomatch hfalse)) rfl
    intro s hs
    cases hs
    exact ⟨_, _, rfl⟩
  served := fun _ hfalse => (nomatch hfalse)
  noGap := trivial

theorem ingestBlocks_sampleOrphan :
    ingestBlocks (loopOf tableBefore (SpendServer.followStart tableBefore)) [sampleOrphan] =
      some (loopOf tableOrphaned taskOrphaned) := by
  have hevict : tableOrphaned.evictToTarget = some tableOrphaned :=
    HashTableDb.evictToTarget_of_le (Nat.le_of_ble_eq_true rfl)
  have hingest : ingestBlock (loopOf tableBefore (SpendServer.followStart tableBefore))
      sampleOrphan = some (loopOf tableOrphaned taskOrphaned) :=
    ingestBlock_of_table rfl rfl hevict
  rw [ingestBlocks, hingest]
  rfl

theorem sampleCombined_poll :
    SampleCombinedCoverage
      (.following (combinedServing tableBefore (SpendServer.followStart tableBefore)))
      (.poll chainOrphaned)
      (.following (combinedServing tableOrphaned taskOrphaned)) where
  step := by
    have hnew : (SpendServer.followStart tableBefore).currentHeight <
        chainOrphaned.tipHeight := by
      decide
    have hpublish : CombinedServer.publish Witness.sampleHash keepingEngine
        Nullifier.acceptingEngine
        { combinedServing tableBefore (SpendServer.followStart tableBefore) with
          loop := loopOf tableOrphaned taskOrphaned } =
        combinedServing tableOrphaned taskOrphaned := rfl
    have hrunning :
        (combinedServing tableBefore (SpendServer.followStart tableBefore)).stopped = false :=
      rfl
    have hpoll := @poll_of_new _ _ Witness.sampleHash keepingEngine Nullifier.acceptingEngine
      _ chainOrphaned _ hrunning hnew ingestBlocks_sampleOrphan
    rw [hpublish] at hpoll
    exact .poll hpoll
  served := List.prefix_rfl
  noGap := by
    intro front block rest mid hashtable hsplit hmid htable
    cases front with
    | cons first later =>
        have hlengths := congrArg List.length hsplit
        rw [List.length_append, List.length_cons, List.length_cons] at hlengths
        change 1 = later.length + 1 + (rest.length + 1) at hlengths
        lia
    | nil =>
        cases hsplit
        cases hmid
        cases htable
        exact HashTableDb.insertBlock_ok_iff.mp ⟨tableOrphaned, rfl⟩

/-- The published state of either server covers block 2. -/
theorem published_coverage_sound_nextBlock :
    (exists s : SpendServer (List UInt8), s.livePir = some (pirOf tableOrphaned) ∧
      (pirOf tableOrphaned).Covers keepingEngine chainOrphaned) ∧
    exists s : CombinedState (List UInt8) Unit, s.nfPir = some (pirOf tableOrphaned) ∧
      (pirOf tableOrphaned).Covers keepingEngine chainOrphaned := by
  have hsound := @published_coverage_sound (List UInt8) Unit sampleUniverse
    Witness.sampleHash sampleConfig keepingEngine Nullifier.acceptingEngine chainOrphaned
    coverable_chainOrphaned
  have hspend := ((((Run.nil _).snoc sampleCoverage_connect).snoc sampleCoverage_range).snoc
    sampleCoverage_publish).snoc sampleCoverage_poll
  have hsynced := (((Run.nil (startingServer (List UInt8) Unit true false)).snoc
    (sampleCombined_nullifier sampleCoverage_connect trivial)).snoc
    (sampleCombined_nullifier sampleCoverage_range trivial)).snoc
    (sampleCombined_nullifier sampleCoverage_publish trivial)
  have hcombined := (hsynced.snoc sampleCombined_enter).snoc sampleCombined_poll
  constructor
  · exact ⟨spendServing tableOrphaned taskOrphaned [], rfl,
      hsound.1 _ _ (hspend.snoc sampleCoverage_handle) _ rfl⟩
  · exact ⟨.following (combinedServing tableOrphaned taskOrphaned), rfl,
      hsound.2 true false _ _ hcombined _ rfl⟩

/-!
## A backfill batch that fails midway

The tip is 70000: the forward sync covers 20000 to 70000, and the request for block 10001
of the backfill fails.
-/

def numberedBlock (i : Nat) : CompactBlock :=
  { height := UInt64.ofNat i
    hash := leBytes 32 (i + 1)
    prevHash := leBytes 32 i
    vtx := [{ actions := if i = 15000 then [sampleAction 7] else [] }]
    chainMetadata := none }

def numberedUniverse : BlockUniverse where
  Served block := exists i, i < 2 ^ 64 ∧ block = numberedBlock i
  hash_length := by
    intro block hserved
    rcases hserved with ⟨i, _, heq⟩
    rw [heq]
    exact length_leBytes 32 (i + 1)
  hash_injective := by
    intro a b ha hb hhash
    rcases ha with ⟨i, hi, ha⟩
    rcases hb with ⟨j, hj, hb⟩
    rw [ha, hb] at hhash
    have hnumbers := congrArg leNat hhash
    change leNat (leBytes 32 (i + 1)) = leNat (leBytes 32 (j + 1)) at hnumbers
    rw [leNat_leBytes_mod, leNat_leBytes_mod, Nat.mod_eq_of_lt (by lia),
      Nat.mod_eq_of_lt (by lia)] at hnumbers
    rw [ha, hb, Nat.succ.inj hnumbers]

theorem extractNullifiers_numberedBlock {i : Nat} (h : i ≠ 15000) :
    Nullifier.extractNullifiers (numberedBlock i) = [] := by
  have hactions : (numberedBlock i).vtx = [{ actions := [] }] := by
    rw [numberedBlock, if_neg h]
  rw [Nullifier.extractNullifiers, fieldsOf32, CompactBlock.actions, hactions]
  rfl

theorem insertEvents_of_empty (hashtable : HashTableDb) {blocks : List CompactBlock}
    (priorTreeSize : Option UInt32)
    (hempty : forall block, block ∈ blocks -> Nullifier.extractNullifiers block = []) :
    exists hashtable', Nullifier.insertEvents hashtable
        (emitBlocks Nullifier.newBlockEvent priorTreeSize blocks) = .ok hashtable' ∧
      hashtable'.len = hashtable.len := by
  induction blocks generalizing hashtable priorTreeSize with
  | nil => exact ⟨hashtable, rfl, rfl⟩
  | cons block rest ih =>
      have hnone : (Nullifier.extractNullifiersWithMeta block priorTreeSize).1 = [] := by
        rw [← List.map_eq_nil_iff,
          Nullifier.map_nullifier_extractNullifiersWithMeta block priorTreeSize]
        exact hempty block List.mem_cons_self
      rcases ih (hashtable.insertBlock block.height.toNat (toHashArray block.hash) []).1
        block.orchardTreeSize (fun b hb => hempty b (List.mem_cons_of_mem block hb)) with
        ⟨synced, hsync, hlen⟩
      refine ⟨synced, ?_, hlen⟩
      rw [emitBlocks, Nullifier.newBlockEvent, hnone]
      exact hsync

def IsNumbered (chain : ChainView) : Prop :=
  chain.length = 70001 ∧ forall i, i < 70001 -> chain[i]? = some (numberedBlock i)

theorem exists_isNumbered : exists chain, IsNumbered chain := by
  have hnumbered : forall n, exists chain : ChainView,
      chain.length = n ∧ forall i, i < n -> chain[i]? = some (numberedBlock i) := by
    intro n
    refine ⟨(List.range n).map numberedBlock, ?_, ?_⟩
    · rw [List.length_map, List.length_range]
    · intro i hi
      rw [List.getElem?_map, List.getElem?_range hi]
      rfl
  exact hnumbered 70001

namespace IsNumbered

variable {chain : ChainView} (hchain : IsNumbered chain)

include hchain

theorem eq_numberedBlock {i : Nat} {block : CompactBlock} (hblock : chain[i]? = some block) :
    i < 70001 ∧ block = numberedBlock i := by
  have hlt := (List.getElem?_eq_some_iff.mp hblock).1
  rw [hchain.1] at hlt
  rw [hchain.2 i hlt] at hblock
  exact ⟨hlt, (Option.some.inj hblock).symm⟩

theorem honest : HonestView numberedUniverse chain where
  nonempty := by
    apply List.ne_nil_of_length_pos
    rw [hchain.1]
    exact Nat.succ_pos _
  served := by
    intro block hmem
    rcases List.getElem?_of_mem hmem with ⟨i, hi⟩
    rcases hchain.eq_numberedBlock hi with ⟨hlt, heq⟩
    exact ⟨i, by lia, heq⟩
  heights := by
    intro i block hblock
    rcases hchain.eq_numberedBlock hblock with ⟨hlt, heq⟩
    rw [heq, Nat.zero_add]
    exact UInt64.toNat_ofNat_of_lt (by lia)
  links := by
    intro i block next hblock hnext
    rw [(hchain.eq_numberedBlock hblock).2, (hchain.eq_numberedBlock hnext).2]
    rfl

theorem coverable : CoverableChain numberedUniverse chain where
  honest := hchain.honest
  nonzero := by
    intro block hmem
    rcases List.getElem?_of_mem hmem with ⟨i, hi⟩
    rw [(hchain.eq_numberedBlock hi).2, Nullifier.NonzeroNullifiers]
    by_cases heq : i = 15000
    · rw [heq]
      decide
    · rw [extractNullifiers_numberedBlock heq]
      exact List.not_mem_nil
  genesis := by
    intro block hblock
    rw [(hchain.eq_numberedBlock hblock).2]
    exact extractNullifiers_numberedBlock (by decide)

/-- Syncing blocks of the chain below or above block 15000 adds their heights. -/
theorem syncRange {hashtable : HashTableDb} {connection : Connection}
    {heights : Set Nat} {start stop last : Nat} (hle : start ≤ stop) (hlast : last ≤ 70001)
    (hfetch : fetchBatches connection start stop = (chain.take last).drop start)
    (hskip : 15000 < start ∨ last ≤ 15000)
    (hmirrors : hashtable.Mirrors chain heights)
    (hfresh : forall height, start ≤ height -> height < last -> height ∉ heights) :
    exists hashtable', Nullifier.syncRange (some connection) start stop hashtable none =
        .ok hashtable' ∧
      hashtable'.len = hashtable.len ∧
      hashtable'.Mirrors chain (heights ∪ Set.Ico start (start + (last - start))) := by
  have hlength : ((chain.take last).drop start).length = last - start := by
    rw [List.length_drop, List.length_take, hchain.1, Nat.min_eq_left hlast]
  have hblocks : forall i block, ((chain.take last).drop start)[i]? = some block ->
      chain[start + i]? = some block := by
    intro i block hblock
    rw [List.getElem?_drop] at hblock
    exact getElem?_of_isPrefix (List.take_prefix last chain) hblock
  have hempty : forall block, block ∈ (chain.take last).drop start ->
      Nullifier.extractNullifiers block = [] := by
    intro block hmem
    rcases List.getElem?_of_mem hmem with ⟨i, hi⟩
    have hlt := (List.getElem?_eq_some_iff.mp hi).1
    rw [hlength] at hlt
    rw [(hchain.eq_numberedBlock (hblocks i block hi)).2]
    exact extractNullifiers_numberedBlock (by lia)
  rcases insertEvents_of_empty hashtable none hempty with ⟨synced, hinsert, hlen⟩
  refine ⟨synced, ?_, hlen, ?_⟩
  · rw [Nullifier.syncRange, if_neg (Nat.not_lt_of_le hle)]
    change Nullifier.insertEvents hashtable (emitBlocks Nullifier.newBlockEvent none
      (fetchBatches connection start stop)) = _
    rw [hfetch]
    exact hinsert
  · rw [← hlength]
    apply Nullifier.mirrors_insertEvents hchain.coverable.honest hchain.coverable.nonzero
      hmirrors hblocks _ hinsert
    intro i hlt
    rw [hlength] at hlt
    exact hfresh _ (Nat.le_add_right start i) (by lia)

theorem fetchBatches_failing :
    fetchBatches { view := chain, fails := fun start _ => decide (10000 < start) } 1 19999 =
      (chain.take 10001).drop 1 := by
  have hend : batchEnd 1 19999 = 10000 := rfl
  have hserved : Connection.getBlockRange
      { view := chain, fails := fun start _ => decide (10000 < start) } 1
      (batchEnd 1 19999) = some ((chain.take 10001).drop 1) := by
    rw [hend, ← ChainView.getBlockRange_eq hchain.honest.heights]
    rfl
  have hfails : Connection.getBlockRange
      { view := chain, fails := fun start _ => decide (10000 < start) } 10001
      (batchEnd 10001 19999) = none := rfl
  rw [fetchBatches_of_some (by decide) hserved, hend, fetchBatches_of_fails hfails,
    List.append_nil]

end IsNumbered

theorem backfillStart_sample : SpendServer.backfillStart 1 19999 = 1 := rfl

theorem step_forward {connection : Option Connection} {forward : HashTableDb}
    (hsync : Nullifier.syncRange connection 20000 70000 HashTableDb.new none = .ok forward)
    (hlen : forward.len = 0) :
    SpendServer.step sampleConfig keepingEngine
        { hashtable := HashTableDb.new
          livePir := none
          stage := .forward 20000 70000 1 false } (.range connection) =
      some { hashtable := forward, livePir := none, stage := .backfill 1 19999 } := by
  change some (SpendServer.syncStage _ connection 20000 70000 _) = _
  rw [SpendServer.syncStage]
  dsimp only
  rw [hsync]
  dsimp only
  rw [SpendServer.afterForward, if_neg Bool.false_ne_true, SpendServer.backfillStage,
    if_pos ⟨by rw [hlen]; decide, by decide⟩]

theorem step_backfill {connection : Option Connection} {forward filled : HashTableDb}
    (hsync : Nullifier.syncRange connection 1 19999 forward none = .ok filled) :
    SpendServer.step sampleConfig keepingEngine
        { hashtable := forward, livePir := none, stage := .backfill 1 19999 }
        (.range connection) =
      some { hashtable := filled, livePir := none, stage := .synced } := by
  change some (SpendServer.syncStage _ connection (SpendServer.backfillStart 1 19999)
    19999 _) = _
  rw [backfillStart_sample, SpendServer.syncStage]
  dsimp only
  rw [hsync]
  dsimp only
  rw [SpendServer.afterBackfill, backfillStart_sample]
  rfl

def ServedStep {σ : Type} (config : ServerConfig) (engine : PirEngine σ) (chain : ChainView)
    (s : SpendServer σ) (input : ServerInput) (s' : SpendServer σ) : Prop :=
  s.step config engine input = some s' ∧ Nullifier.ServedFrom chain input

/-- After the run the table holds blocks 1 to 10000 and 20000 to 70000. -/
theorem IsNumbered.run {chain : ChainView} (hchain : IsNumbered chain) :
    exists inputs hashtable,
      Run (ServedStep sampleConfig keepingEngine chain) SpendServer.init inputs
        { hashtable := hashtable
          livePir := some (pirOf hashtable)
          stage := .follow (some (SpendServer.followStart hashtable)) [] } ∧
      hashtable.Mirrors chain (Set.Ico 20000 70001 ∪ Set.Ico 1 10001) := by
  have hcomplete : fetchBatches { view := chain, fails := fun _ _ => false } 20000 70000 =
      (chain.take 70001).drop 20000 :=
    fetchBatches_complete hchain.honest.heights (fun _ _ => rfl) (by decide)
  rcases hchain.syncRange (by decide) (by decide) hcomplete (by decide)
    (HashTableDb.mirrors_new chain) (fun _ _ _ => Set.notMem_empty _) with
    ⟨forward, hforward, hforwardLen, hforwardMirrors⟩
  rw [Set.empty_union] at hforwardMirrors
  rcases hchain.syncRange (by decide) (by decide) hchain.fetchBatches_failing
    (by decide) hforwardMirrors (fun height _ hlt hmem => by have hle := hmem.1; lia) with
    ⟨filled, hfilled, hfilledLen, hfilledMirrors⟩
  have hempty : forward.len = 0 := hforwardLen
  have hfits : filled.len ≤ Nullifier.targetSize := by
    rw [hfilledLen, hempty]
    exact Nat.zero_le _
  have hconnect : SpendServer.init.step sampleConfig keepingEngine (.connect 70000 none) =
      some { hashtable := HashTableDb.new
             livePir := none
             stage := .forward 20000 70000 1 false } := rfl
  have hpublish : SpendServer.step sampleConfig keepingEngine
      { hashtable := filled, livePir := none, stage := .synced } .publish =
      some { hashtable := filled
             livePir := some (pirOf filled)
             stage := .follow (some (SpendServer.followStart filled)) [] } :=
    congrArg some (publish_keepingEngine hfits)
  have hview : forall (fails : Nat -> Nat -> Bool) (c : Connection),
      some { view := chain, fails := fails } = some c -> c.view.IsPrefix chain := by
    intro fails c hc
    cases hc
    exact List.prefix_rfl
  have hstart : Run (ServedStep sampleConfig keepingEngine chain) SpendServer.init
      [.connect 70000 none] _ :=
    (Run.nil _).snoc ⟨hconnect, fun _ hfalse => (nomatch hfalse)⟩
  exact ⟨_, filled, ((hstart.snoc ⟨step_forward hforward hempty, hview _⟩).snoc
    ⟨step_backfill hfilled, hview _⟩).snoc ⟨hpublish, trivial⟩, hfilledMirrors⟩

/-- The failing request leaves a gap between the published heights, and the nullifier of
block 15000 in it is missing. -/
theorem backfill_gap_hides_nullifier :
    ¬ forall (U : BlockUniverse) (chain : ChainView) (config : ServerConfig)
        (engine : PirEngine (List UInt8)) (inputs : List ServerInput)
        (s : SpendServer (List UInt8)),
        HonestView U chain ->
        Run (ServedStep config engine chain) SpendServer.init inputs s ->
        forall pir, s.livePir = some pir -> pir.Covers engine chain := by
  intro hall
  rcases exists_isNumbered with ⟨chain, hchain⟩
  rcases hchain.run with ⟨inputs, hashtable, hrun, hmirrors⟩
  rcases hall numberedUniverse chain sampleConfig keepingEngine inputs _
    hchain.honest hrun (pirOf hashtable) rfl with ⟨bytes, hbytes, hcovers⟩
  have hsame : bytes = (pirOf hashtable).engineState := Option.some.inj hbytes
  rw [hsame, engineState_pirOf] at hcovers
  have hfirst : 1 ∈ Set.Ico 20000 70001 ∪ Set.Ico 1 10001 :=
    Or.inr ⟨Nat.le_refl 1, by decide⟩
  have hlast : 70000 ∈ Set.Ico 20000 70001 ∪ Set.Ico 1 10001 := Or.inl ⟨by decide, by decide⟩
  have hearliest : hashtable.earliestHeight.getD 0 ≤ 15000 := by
    cases he : hashtable.earliestHeight with
    | none => exact Nat.zero_le _
    | some e => exact ((hmirrors.earliestHeight_spec he).2 1 hfirst).trans (by decide)
  have hlatest : 15000 ≤ hashtable.latestHeight.getD 0 := by
    cases hl : hashtable.latestHeight with
    | none =>
        rw [hmirrors.latestHeight_none hl] at hlast
        cases hlast
    | some l =>
        have hle := (hmirrors.latestHeight_spec hl).2 70000 hlast
        change 15000 ≤ l
        lia
  have hnullifier : ByteVec.ofBytes 32 (List.replicate 32 7) ∈
      Nullifier.extractNullifiers (numberedBlock 15000) := List.mem_singleton.mpr rfl
  have hfound := hcovers 15000 _ _ hearliest hlatest (hchain.2 15000 (by decide)) hnullifier
    (by decide)
  rcases (hmirrors.scan_iff (by decide)).mp hfound with ⟨height, block, hheight, hat, hmem⟩
  rw [(hchain.eq_numberedBlock hat).2] at hmem
  by_cases heq : height = 15000
  · rw [heq] at hheight
    rcases hheight with hin | hin
    · exact absurd hin.1 (by decide)
    · exact absurd hin.2 (by decide)
  · rw [extractNullifiers_numberedBlock heq] at hmem
    cases hmem

end Combined
end SpendabilityPir
