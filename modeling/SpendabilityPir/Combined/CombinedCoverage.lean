import SpendabilityPir.Combined.CombinedFollow
import SpendabilityPir.Combined.CombinedRun
import SpendabilityPir.Nullifier.PublishedCoverage

/-!
# What the combined server's table covers

The combined server inserts a block where it can and goes on where it cannot.  While every
block fits, the table of the follow loop stays an interval of the chain.
-/

namespace SpendabilityPir
namespace Combined

open Foundation Shared
open Nullifier (HashTableDb SpendServer ServerConfig CoverableChain CoverageInvariant)
open Witness (MerkleHashOrchard)

/-!
## The follow loop
-/

/-- The table holds the chain up to the task's height, or is empty and the task has just
started. -/
def LoopCovers (chain : ChainView) (task : FollowState) (hashtable : HashTableDb) : Prop :=
  (task.AtTip (chain.take (task.currentHeight + 1)) ∧
    exists lo, hashtable.Mirrors chain (Set.Ico lo (task.currentHeight + 1))) ∨
  (task = FollowState.start 0 (ByteVec.zeros 32) none ∧ hashtable.latestHeight = none ∧
    hashtable.HoldsThroughLatest chain)

section Loop

variable {U : BlockUniverse} {chain : ChainView} {hashtable hashtable' : HashTableDb}

theorem LoopCovers.holds {task : FollowState} (h : LoopCovers chain task hashtable) :
    hashtable.HoldsThroughLatest chain := by
  rcases h with ⟨_, lo, hmirrors⟩ | hstart
  · exact HashTableDb.holdsThroughLatest_iff.mpr ⟨lo, _, hmirrors⟩
  · exact hstart.2.2

theorem loopCovers_followStart (hholds : hashtable.HoldsThroughLatest chain) :
    LoopCovers chain (SpendServer.followStart hashtable) hashtable := by
  cases hl : hashtable.latestHeight with
  | none => exact Or.inr ⟨Nullifier.followStart_of_none hl, hl, hholds⟩
  | some l =>
      rcases hholds with ⟨lo, hmirrors⟩
      rw [hl] at hmirrors
      have htip := Nullifier.atTip_followStart hmirrors hl
      have hheight : (SpendServer.followStart hashtable).currentHeight = l := by
        rw [SpendServer.followStart, hl]
        rfl
      left
      rw [hheight]
      exact ⟨htip, lo, hmirrors⟩

theorem rollbackAbove_of_latestHeight_none (h : hashtable.latestHeight = none)
    (rollbackTo : Nat) : rollbackAbove hashtable rollbackTo = some hashtable := by
  rw [rollbackAbove, h]
  rfl

/-- A block that fits, right above the table or the first of an empty one, is added. -/
theorem mirrors_ingestNullifiers {action : ChainAction} {lo next : Nat}
    {block : CompactBlock} {nullifiers : List Nullifier.NullifierWithMeta}
    (hchain : CoverableChain U chain) (hmirrors : hashtable.Mirrors chain (Set.Ico lo next))
    (hblock : chain[next]? = some block)
    (haction : action = .extend ∨ hashtable.latestHeight = none)
    (hroom : HashTableDb.RoomFor hashtable nullifiers)
    (hnullifiers : nullifiers.map Nullifier.NullifierWithMeta.nullifier =
      Nullifier.extractNullifiers block)
    (h : ingestNullifiers hashtable action next (toHashArray block.hash) nullifiers =
      some hashtable') : exists lo', hashtable'.Mirrors chain (Set.Ico lo' (next + 1)) := by
  rcases HashTableDb.insertBlock_ok_iff.mpr hroom with ⟨inserted, hinsert⟩
  have hinserted := HashTableDb.mirrors_insertBlock hchain.honest hmirrors hblock
    (fun hmem => Nat.lt_irrefl next hmem.2)
    (hchain.nonzero block (List.mem_of_getElem? hblock)) hnullifiers hinsert
  rw [Nullifier.insert_Ico_right] at hinserted
  cases action with
  | extend =>
      rw [ingestNullifiers, hinsert] at h
      rcases hinserted.evictToTarget_Ico with ⟨evicted, lo', hevict, hevicted⟩
      change inserted.evictToTarget = some hashtable' at h
      rw [h] at hevict
      cases hevict
      exact ⟨lo', hevicted⟩
  | reorg rollbackTo =>
      rcases haction with hfalse | hnone
      · cases hfalse
      · rw [ingestNullifiers, rollbackAbove_of_latestHeight_none hnone, Option.map_some,
          hinsert] at h
        cases h
        exact ⟨_, hinserted⟩

theorem ingestBlock_of_table {loop : FollowLoop} {block : CompactBlock}
    (htable : loop.databases.hashtable = some hashtable) (htree : loop.databases.tree = none)
    (h : ingestNullifiers hashtable (loop.task.advance block).2 block.height.toNat
      (toHashArray block.hash)
      (Nullifier.extractNullifiersWithMeta block loop.task.prevTreeSize).1 =
        some hashtable') :
    ingestBlock loop block =
      some { databases := { hashtable := some hashtable', tree := none }
             task := (loop.task.advance block).1 } := by
  unfold ingestBlock
  dsimp only
  rw [htable, htree]
  dsimp only
  rw [h]
  rfl

theorem loopCovers_ingestBlock {loop loop' : FollowLoop} {block : CompactBlock}
    (hchain : CoverableChain U chain) (h : LoopCovers chain loop.task hashtable)
    (htable : loop.databases.hashtable = some hashtable)
    (hblock : chain[loop.task.currentHeight + 1]? = some block)
    (hroom : HashTableDb.RoomFor hashtable
      (Nullifier.extractNullifiersWithMeta block loop.task.prevTreeSize).1)
    (hingest : ingestBlock loop block = some loop') :
    exists hashtable', loop'.databases.hashtable = some hashtable' ∧
      LoopCovers chain loop'.task hashtable' ∧
      loop'.task.currentHeight = loop.task.currentHeight + 1 := by
  have hheight := hchain.honest.height_eq hblock
  have hlt := (List.getElem?_eq_some_iff.mp hblock).1
  have hfront : (chain.take (loop.task.currentHeight + 1) ++ [block]).IsPrefix chain := by
    have htake := List.take_prefix (loop.task.currentHeight + 1 + 1) chain
    rw [List.take_add_one, hblock] at htake
    exact htake
  have hhonest : HonestView U (chain.take (loop.task.currentHeight + 1) ++ [block]) :=
    hchain.honest.of_prefix (by simp) hfront
  have hdepth : 0 < loop.task.tracker.maxDepth := by
    rcases h with ⟨htip, _⟩ | hstart
    · exact htip.depth
    · rw [hstart.1]
      exact Nat.succ_pos _
  have hmirrors : exists lo,
      hashtable.Mirrors chain (Set.Ico lo (loop.task.currentHeight + 1)) := by
    rcases h with ⟨_, hmirrors⟩ | hstart
    · exact hmirrors
    · rcases HashTableDb.holdsThroughLatest_iff.mp hstart.2.2 with ⟨lo, hi, hmirrors⟩
      exact ⟨_, Nullifier.mirrors_of_latestHeight_none hmirrors hstart.2.1 _⟩
  have haction : (loop.task.advance block).2 = .extend ∨ hashtable.latestHeight = none := by
    rcases h with ⟨htip, _⟩ | hstart
    · exact Or.inl (htip.advance_extend hhonest)
    · exact Or.inr hstart.2.1
  rcases hmirrors with ⟨lo, hmirrors⟩
  have hcurrent : (loop.task.advance block).1.currentHeight =
      loop.task.currentHeight + 1 := hheight
  rcases ingestBlock_cases hingest with
    ⟨htask, _, ⟨hnone, _⟩ | ⟨found, hashtable', hfound, htable', hnullifiers⟩⟩
  · rw [htable] at hnone
    cases hnone
  · rw [htable] at hfound
    cases hfound
    rw [hheight] at hnullifiers
    refine ⟨hashtable', htable', Or.inl ?_, ?_⟩
    · rw [htask, hcurrent]
      refine ⟨?_, mirrors_ingestNullifiers hchain hmirrors hblock haction hroom
        (Nullifier.map_nullifier_extractNullifiersWithMeta _ _) hnullifiers⟩
      rw [List.take_add_one, hblock]
      exact FollowState.atTip_advance hdepth hhonest
    · rw [htask]
      exact hcurrent

theorem hashtable_ingestBlocks_of_none {loop loop' : FollowLoop} {blocks : List CompactBlock}
    (htable : loop.databases.hashtable = none)
    (hingest : ingestBlocks loop blocks = some loop') : loop'.databases.hashtable = none := by
  induction blocks generalizing loop with
  | nil =>
      cases hingest
      exact htable
  | cons block rest ih =>
      rw [ingestBlocks, ingestBlock, htable] at hingest
      exact ih rfl hingest

/-- Every nullifier of the blocks, in their order, finds a free slot in the table. -/
def InsertsFit (loop : FollowLoop) (blocks : List CompactBlock) : Prop :=
  forall front block rest mid hashtable, blocks = front ++ block :: rest ->
    ingestBlocks loop front = some mid -> mid.databases.hashtable = some hashtable ->
    HashTableDb.RoomFor hashtable
      (Nullifier.extractNullifiersWithMeta block mid.task.prevTreeSize).1

theorem InsertsFit.tail {loop loop' : FollowLoop} {block : CompactBlock}
    {rest : List CompactBlock} (h : InsertsFit loop (block :: rest))
    (hingest : ingestBlock loop block = some loop') : InsertsFit loop' rest := by
  intro front next later mid hashtable hsplit hmid
  apply h (block :: front) next later mid hashtable
  · rw [hsplit]
    rfl
  · rw [ingestBlocks, hingest]
    exact hmid

theorem loopCovers_ingestBlocks {loop loop' : FollowLoop} {blocks : List CompactBlock}
    (hchain : CoverableChain U chain) (h : LoopCovers chain loop.task hashtable)
    (htable : loop.databases.hashtable = some hashtable)
    (hblocks : forall i block, blocks[i]? = some block ->
      chain[loop.task.currentHeight + 1 + i]? = some block)
    (hfit : InsertsFit loop blocks) (hingest : ingestBlocks loop blocks = some loop') :
    exists hashtable', loop'.databases.hashtable = some hashtable' ∧
      LoopCovers chain loop'.task hashtable' := by
  induction blocks generalizing loop hashtable with
  | nil =>
      cases hingest
      exact ⟨hashtable, htable, h⟩
  | cons block rest ih =>
      rw [ingestBlocks] at hingest
      cases hfirst : ingestBlock loop block with
      | none =>
          rw [hfirst] at hingest
          cases hingest
      | some mid =>
          rw [hfirst] at hingest
          rcases loopCovers_ingestBlock hchain h htable (hblocks 0 block rfl)
            (hfit [] block rest loop hashtable rfl rfl htable) hfirst with
            ⟨hashtable', htable', hcovers, hheight⟩
          apply ih hcovers htable' _ (hfit.tail hfirst) hingest
          intro i later hlater
          have hnext := hblocks (i + 1) later hlater
          rw [hheight]
          rw [show loop.task.currentHeight + 1 + 1 + i =
            loop.task.currentHeight + 1 + (i + 1) by lia]
          exact hnext

end Loop

/-!
## Runs
-/

section Runs

variable {σ τ : Type} {U : BlockUniverse} {M : MerkleHashOrchard} {config : ServerConfig}
variable {nfEngine : PirEngine σ} {witEngine : PirEngine τ} {chain : ChainView}

structure LoopInvariant (chain : ChainView) (nfEngine : PirEngine σ)
    (s : CombinedServer σ τ) : Prop where
  covers : forall hashtable, s.loop.databases.hashtable = some hashtable ->
    LoopCovers chain s.loop.task hashtable
  published : forall pir, s.nfPir = some pir -> pir.Covers nfEngine chain

theorem loopInvariant_poll {s s' : CombinedServer σ τ} {view : ChainView}
    (hchain : CoverableChain U chain) (h : LoopInvariant chain nfEngine s)
    (hview : view.IsPrefix chain)
    (hfit : InsertsFit s.loop (s.loop.task.newBlocks view))
    (hpoll : s.poll M nfEngine witEngine view = some s') :
    LoopInvariant chain nfEngine s' := by
  rcases CombinedServer.poll_cases hpoll with
    ⟨_, ⟨_, hsame⟩ | ⟨_, _, hstopped⟩ | ⟨loop', hnew, hingest, hpublished⟩⟩
  · rw [hsame]
    exact h
  · rw [hstopped]
    exact ⟨h.covers, h.published⟩
  · have hnonempty : view ≠ [] := by
      intro hnil
      rw [hnil] at hnew
      exact absurd hnew (Nat.not_lt_zero _)
    have hhonest := hchain.honest.of_prefix hnonempty hview
    have hblocks : forall i block, (s.loop.task.newBlocks view)[i]? = some block ->
        chain[s.loop.task.currentHeight + 1 + i]? = some block := by
      intro i block hblock
      rw [FollowState.newBlocks_eq hhonest, List.getElem?_drop] at hblock
      exact getElem?_of_isPrefix hview hblock
    have hcovers : forall hashtable, loop'.databases.hashtable = some hashtable ->
        LoopCovers chain loop'.task hashtable := by
      intro hashtable' htable'
      cases htable : s.loop.databases.hashtable with
      | none =>
          have hnone := hashtable_ingestBlocks_of_none htable hingest
          rw [htable'] at hnone
          cases hnone
      | some hashtable =>
          rcases loopCovers_ingestBlocks hchain (h.covers hashtable htable) htable
            hblocks hfit hingest with ⟨found, hfound, hcovers⟩
          rw [htable'] at hfound
          cases hfound
          exact hcovers
    have hsame := publish_loop M nfEngine witEngine { s with loop := loop' }
    rw [hpublished]
    constructor
    · intro hashtable htable
      rw [hsame.task]
      rw [hsame.hashtable] at htable
      exact hcovers hashtable htable
    · intro pir hpir
      rcases CombinedServer.nfPir_publish hpir with hold | hbuilt
      · exact h.published pir hold
      · rcases hbuilt with ⟨hashtable, htable, hrebuild⟩
        exact Nullifier.covers_rebuildPir hchain (hcovers hashtable htable).holds hrebuild

theorem holdsThroughLatest_catchUp {connection : Option Connection}
    {databases databases' : Databases} (hchain : CoverableChain U chain)
    (hview : forall c, connection = some c -> c.view.IsPrefix chain)
    (hholds : forall hashtable, databases.hashtable = some hashtable ->
      hashtable.HoldsThroughLatest chain)
    (h : catchUp connection databases = .ok databases') :
    forall hashtable, databases'.hashtable = some hashtable ->
      hashtable.HoldsThroughLatest chain := by
  rcases catchUp_cases h with hnullifier | hwitness | hsame
  · rcases hnullifier with ⟨hashtable, tree, hashtable', heq, heq', _, hcaught⟩
    rw [heq] at hholds
    rcases bind_eq_ok.mp hcaught with ⟨synced, hsync, hevict⟩
    have habove : forall l, hashtable.latestHeight = some l ->
        hashtable.latestHeight.getD 0 + 1 = l + 1 := by
      intro l hl
      rw [hl]
      rfl
    have hsynced := Nullifier.holdsThroughLatest_syncRange hchain (hholds hashtable rfl) hview
      (fun _ _ => Or.inr (Or.inl habove)) (Outcome.mapErr_eq_ok.mp hsync)
    rw [heq']
    intro found hfound
    cases hfound
    exact Nullifier.holdsThroughLatest_evictToTarget hsynced
      (Outcome.ofPanics_eq_ok.mp hevict)
  · rcases hwitness with ⟨hashtable, tree, tree', heq, heq', _⟩
    rw [heq] at hholds
    rw [heq']
    exact hholds
  · rw [hsame.1]
    exact hholds

def CombinedInput.ServedFrom (chain : ChainView) : CombinedInput -> Prop
  | .nullifier input => Nullifier.ServedFrom chain input
  | .enter connection => forall c, connection = some c -> c.view.IsPrefix chain
  | .poll view => view.IsPrefix chain
  | .witness _ _ _ _ => True

/-- A backfill batch adjoins the table, and every block of a turn fits. -/
def CombinedState.LeavesNoGap : CombinedState σ τ -> CombinedInput -> Prop
  | .syncing (some s) _, .nullifier input => Nullifier.LeavesNoGap s input
  | .following s, .poll view => InsertsFit s.loop (s.loop.task.newBlocks view)
  | _, _ => True

structure CombinedCoverageStep (M : MerkleHashOrchard) (config : ServerConfig)
    (nfEngine : PirEngine σ) (witEngine : PirEngine τ) (chain : ChainView)
    (s : CombinedState σ τ) (input : CombinedInput) (s' : CombinedState σ τ) : Prop where
  step : CombinedRunStep M config nfEngine witEngine s input s'
  served : input.ServedFrom chain
  noGap : s.LeavesNoGap input

def CombinedState.nfPir : CombinedState σ τ -> Option (Nullifier.PirState σ)
  | .syncing nullifier _ => nullifier.bind SpendServer.livePir
  | .following s => s.nfPir

def CombinedCoverage (U : BlockUniverse) (nfEngine : PirEngine σ) (chain : ChainView) :
    CombinedState σ τ -> Prop
  | .syncing nullifier _ => forall s, nullifier = some s ->
      CoverageInvariant U nfEngine chain s
  | .following s => LoopInvariant chain nfEngine s

theorem CombinedCoverage.published {s : CombinedState σ τ}
    (h : CombinedCoverage U nfEngine chain s) {pir : Nullifier.PirState σ}
    (hpir : s.nfPir = some pir) : pir.Covers nfEngine chain := by
  cases s with
  | syncing nullifier witness =>
      rcases Option.bind_eq_some_iff.mp hpir with ⟨server, hserver, hlive⟩
      exact (h server hserver).published pir hlive
  | following server => exact LoopInvariant.published h pir hpir

theorem combinedCoverage_step {s s' : CombinedState σ τ} {input : CombinedInput}
    (hchain : CoverableChain U chain) (h : CombinedCoverage U nfEngine chain s)
    (hstep : CombinedCoverageStep M config nfEngine witEngine chain s input s') :
    CombinedCoverage U nfEngine chain s' := by
  rcases hstep with ⟨hstep, hserved, hgap⟩
  cases hstep with
  | nullifier _ hnext =>
      intro found hfound
      cases hfound
      exact Nullifier.coverageInvariant_step hchain (h _ rfl) ⟨hnext, hserved, hgap⟩
  | witness _ => exact h
  | @enter nullifier witness connection databases hsynced hbuilt hcatch =>
      have hholds := holdsThroughLatest_catchUp hchain hserved (fun hashtable htable => by
        rcases Option.map_eq_some_iff.mp htable with ⟨server, hserver, heq⟩
        rw [← heq]
        exact (h server hserver).table) hcatch
      constructor
      · intro hashtable htable
        change databases.hashtable = some hashtable at htable
        change LoopCovers chain (followStart databases) hashtable
        rw [followStart, htable]
        exact loopCovers_followStart (hholds hashtable htable)
      · intro pir hpir
        rcases Option.bind_eq_some_iff.mp hpir with ⟨server, hserver, hlive⟩
        exact (h server hserver).published pir hlive
  | poll hpoll => exact loopInvariant_poll hchain h hserved hgap hpoll

theorem combinedCoverage_startingServer (nullifier witness : Bool) :
    CombinedCoverage U nfEngine chain (startingServer σ τ nullifier witness) := by
  intro s hs
  cases nullifier with
  | false => cases hs
  | true =>
      cases hs
      exact Nullifier.coverageInvariant_init

end Runs

end Combined
end SpendabilityPir
