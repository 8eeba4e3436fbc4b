import Mathlib.Order.Interval.Set.LinearOrder
import SpendabilityPir.Nullifier.LiveSegment
import SpendabilityPir.Nullifier.SpendReorg

/-!
# What a published table covers

The published heights are the smallest and the largest height of the table, so a wallet
takes every height between them for covered.  That is so as long as the live heights are
an interval: blocks are added right above or right below it.
-/

namespace SpendabilityPir
namespace Nullifier

open Foundation Shared

/-!
## Blocks that adjoin a table
-/

/-- Blocks from a height on that leave no gap above or below the live heights. -/
def Adjoins (hashtable : HashTableDb) (start : Nat) (blocks : List CompactBlock) : Prop :=
  blocks = [] ∨ (forall l, hashtable.latestHeight = some l -> start = l + 1) ∨
    forall e, hashtable.earliestHeight = some e -> start + blocks.length = e

/-- A chain whose blocks can be told apart in a table: no nullifier is all zero, and the
block of height 0, which an empty table reports, has none. -/
structure CoverableChain (U : BlockUniverse) (chain : ChainView) : Prop where
  honest : HonestView U chain
  nonzero : forall block, block ∈ chain -> NonzeroNullifiers block
  genesis : forall block, chain[0]? = some block -> extractNullifiers block = []

section Sync

variable {U : BlockUniverse} {hashtable hashtable' : HashTableDb} {chain : ChainView}

theorem holdsThroughLatest_insertEvents_of_empty {start : Nat} {blocks : List CompactBlock}
    {priorTreeSize : Option UInt32} (hchain : CoverableChain U chain)
    (hempty : hashtable.Mirrors chain ∅)
    (hblocks : forall i block, blocks[i]? = some block -> chain[start + i]? = some block)
    (h : insertEvents hashtable (emitBlocks newBlockEvent priorTreeSize blocks) =
      .ok hashtable') : hashtable'.HoldsThroughLatest chain := by
  have hinserted := mirrors_insertEvents hchain.honest hchain.nonzero hempty hblocks
    (fun _ _ => Set.notMem_empty _) h
  rw [Set.empty_union] at hinserted
  exact HashTableDb.holdsThroughLatest_iff.mpr ⟨_, _, hinserted⟩

theorem holdsThroughLatest_insertEvents {start : Nat} {blocks : List CompactBlock}
    {priorTreeSize : Option UInt32} (hchain : CoverableChain U chain)
    (hholds : hashtable.HoldsThroughLatest chain)
    (hblocks : forall i block, blocks[i]? = some block -> chain[start + i]? = some block)
    (hadjoins : Adjoins hashtable start blocks)
    (h : insertEvents hashtable (emitBlocks newBlockEvent priorTreeSize blocks) =
      .ok hashtable') : hashtable'.HoldsThroughLatest chain := by
  rcases HashTableDb.holdsThroughLatest_iff.mp hholds with ⟨lo, hi, hmirrors⟩
  rcases hadjoins with hnone | habove | hbelow
  · rw [hnone] at h
    cases h
    exact hholds
  · cases hlatest : hashtable.latestHeight with
    | none =>
        rw [hmirrors.latestHeight_none hlatest] at hmirrors
        exact holdsThroughLatest_insertEvents_of_empty hchain hmirrors hblocks h
    | some l =>
        have hstart := habove l hlatest
        have hhi := hmirrors.latestHeight_Ico hlatest
        have hlo := (hmirrors.latestHeight_spec hlatest).1.1
        have hextended := mirrors_insertEvents hchain.honest hchain.nonzero hmirrors hblocks
          (fun i _ hmem => by have hlt := hmem.2; lia) h
        rw [show start = hi from hstart.trans hhi.symm,
          Set.Ico_union_Ico_eq_Ico (by lia) (Nat.le_add_right hi _)] at hextended
        exact HashTableDb.holdsThroughLatest_iff.mpr ⟨_, _, hextended⟩
  · cases hearliest : hashtable.earliestHeight with
    | none =>
        rw [hmirrors.earliestHeight_none hearliest] at hmirrors
        exact holdsThroughLatest_insertEvents_of_empty hchain hmirrors hblocks h
    | some e =>
        have hend := hbelow e hearliest
        rcases hmirrors.earliestHeight_spec hearliest with ⟨hmem, hleast⟩
        have hlo : lo = e :=
          Nat.le_antisymm hmem.1
            (hleast lo ⟨Nat.le_refl lo, Nat.lt_of_le_of_lt hmem.1 hmem.2⟩)
        have hhi := hmem.2
        have hextended := mirrors_insertEvents hchain.honest hchain.nonzero hmirrors hblocks
          (fun i _ hmem => by have hle := hmem.1; lia) h
        rw [hend, hlo, Set.union_comm, Set.Ico_union_Ico_eq_Ico (by lia)
          (Nat.le_of_lt hhi)] at hextended
        exact HashTableDb.holdsThroughLatest_iff.mpr ⟨_, _, hextended⟩

theorem getElem?_fetchBatches {connection : Connection} {start stop i : Nat}
    {block : CompactBlock} (hchain : HonestView U chain)
    (hview : connection.view.IsPrefix chain)
    (h : (fetchBatches connection start stop)[i]? = some block) :
    chain[start + i]? = some block := by
  rcases fetchBatches_eq (hchain.heights.of_prefix hview) start stop with
    ⟨last, _, _, heq⟩
  rw [heq, List.getElem?_drop] at h
  exact getElem?_of_isPrefix ((List.take_prefix last connection.view).trans hview) h

theorem holdsThroughLatest_syncRange {connection : Option Connection} {start stop : Nat}
    (hchain : CoverableChain U chain) (hholds : hashtable.HoldsThroughLatest chain)
    (hview : forall c, connection = some c -> c.view.IsPrefix chain)
    (hadjoins : forall c, connection = some c ->
      Adjoins hashtable start (fetchBatches c start stop))
    (h : syncRange connection start stop hashtable none = .ok hashtable') :
    hashtable'.HoldsThroughLatest chain := by
  unfold syncRange at h
  split at h
  · cases h
    exact hholds
  · cases connection with
    | none => cases h
    | some c =>
        exact holdsThroughLatest_insertEvents hchain hholds
          (fun _ _ => getElem?_fetchBatches hchain.honest (hview c rfl)) (hadjoins c rfl) h

theorem holdsThroughLatest_new (chain : ChainView) :
    HashTableDb.new.HoldsThroughLatest chain := by
  refine HashTableDb.holdsThroughLatest_iff.mpr ⟨0, 0, ?_⟩
  rw [Set.Ico_self]
  exact HashTableDb.mirrors_new chain

theorem holdsThroughLatest_evictToTarget (hholds : hashtable.HoldsThroughLatest chain)
    (h : hashtable.evictToTarget = some hashtable') :
    hashtable'.HoldsThroughLatest chain := by
  rcases HashTableDb.holdsThroughLatest_iff.mp hholds with ⟨lo, hi, hmirrors⟩
  rcases hmirrors.evictToTarget_Ico with ⟨evicted, lo', hevict, hevicted⟩
  rw [h] at hevict
  cases hevict
  exact HashTableDb.holdsThroughLatest_iff.mpr ⟨lo', hi, hevicted⟩

end Sync

/-!
## Publication
-/

section Server

variable {σ : Type} {U : BlockUniverse} {config : ServerConfig} {engine : PirEngine σ}
variable {chain : ChainView}

/-- Each nonzero nullifier of the chain's blocks at the published heights is in its row of
the database the engine was set up with. -/
def PirState.Covers (pir : PirState σ) (engine : PirEngine σ) (chain : ChainView) : Prop :=
  exists bytes, engine.setup bytes scenario = some pir.engineState ∧
    forall height block nf, pir.metadata.earliestHeight ≤ height ->
      height ≤ pir.metadata.latestHeight -> chain[height]? = some block ->
      nf ∈ extractNullifiers block -> nf ≠ ByteVec.zeros 32 ->
      (scanBucketForNf (slice bytes ((hashToBucket nf).val * bucketBytes) bucketBytes)
        nf).isSome = true

/-- What is built from an interval of the chain covers the heights it reports. -/
theorem covers_rebuildPir {hashtable : HashTableDb} {pir : PirState σ}
    (hchain : CoverableChain U chain) (hholds : hashtable.HoldsThroughLatest chain)
    (h : rebuildPir engine hashtable scenario = .ok pir) : pir.Covers engine chain := by
  rcases HashTableDb.holdsThroughLatest_iff.mp hholds with ⟨lo, hi, hmirrors⟩
  unfold rebuildPir at h
  split at h
  · cases h
  · next engineState hsetup =>
      cases h
      refine ⟨_, hsetup, ?_⟩
      intro height block nf hearliest hlatest hblock hmem hnf
      rw [hmirrors.scan_iff hnf]
      refine ⟨height, block, ?_, hblock, hmem⟩
      change hashtable.earliestHeight.getD 0 ≤ height at hearliest
      change height ≤ hashtable.latestHeight.getD 0 at hlatest
      cases hl : hashtable.latestHeight with
      | none =>
          rw [hl] at hlatest
          have hzero : height = 0 := Nat.le_zero.mp hlatest
          rw [hzero] at hblock
          rw [hchain.genesis block hblock] at hmem
          cases hmem
      | some l =>
          rw [hl] at hlatest
          cases he : hashtable.earliestHeight with
          | none =>
              have hempty := hmirrors.earliestHeight_none he
              have hfalse := (hmirrors.latestHeight_spec hl).1
              rw [hempty] at hfalse
              cases hfalse
          | some e =>
              rw [he] at hearliest
              have hlo := (hmirrors.earliestHeight_spec he).1.1
              have hhi := (hmirrors.latestHeight_spec hl).1.2
              exact ⟨Nat.le_trans hlo hearliest, Nat.lt_of_le_of_lt hlatest hhi⟩

/-!
## Runs
-/

/-- What lightwalletd answers is a part of the chain, and a loaded snapshot holds an
interval of it. -/
def ServedFrom (chain : ChainView) : ServerInput -> Prop
  | .connect _ snapshot => forall hashtable, snapshot = some hashtable ->
      hashtable.HoldsThroughLatest chain
  | .range connection => forall c, connection = some c -> c.view.IsPrefix chain
  | .poll view => view.IsPrefix chain
  | _ => True

/-- The blocks that a backfill batch delivers adjoin the table. -/
def LeavesNoGap (s : SpendServer σ) (input : ServerInput) : Prop :=
  forall connection floor backfillEnd, input = .range (some connection) ->
    s.stage = .backfill floor backfillEnd ->
    Adjoins s.hashtable (SpendServer.backfillStart floor backfillEnd)
      (fetchBatches connection (SpendServer.backfillStart floor backfillEnd) backfillEnd)

/-- A step over the chain that leaves no gap. -/
structure CoverageStep (config : ServerConfig) (engine : PirEngine σ) (chain : ChainView)
    (s : SpendServer σ) (input : ServerInput) (s' : SpendServer σ) : Prop where
  step : s.step config engine input = some s'
  served : ServedFrom chain input
  noGap : LeavesNoGap s input

/-- The table holds an interval of the chain, a forward sync starts right above it, the
follow task continues it, and what is published covers its heights. -/
structure CoverageInvariant (U : BlockUniverse) (engine : PirEngine σ) (chain : ChainView)
    (s : SpendServer σ) : Prop where
  table : s.hashtable.HoldsThroughLatest chain
  forward : forall start tipHeight floor fromSnapshot,
    s.stage = .forward start tipHeight floor fromSnapshot ->
    forall l, s.hashtable.latestHeight = some l -> start = l + 1
  following : exists ingested, ingested.IsPrefix chain ∧ FollowInvariant U s ingested
  published : forall pir, s.livePir = some pir -> pir.Covers engine chain

def IsPlain (stage : Stage) : Prop :=
  (forall start tipHeight floor fromSnapshot,
    stage ≠ .forward start tipHeight floor fromSnapshot) ∧
  forall task queue, stage ≠ .follow task queue

theorem CoverageInvariant.of_isPlain {s : SpendServer σ} (hplain : IsPlain s.stage)
    (htable : s.hashtable.HoldsThroughLatest chain)
    (hpublished : forall pir, s.livePir = some pir -> pir.Covers engine chain) :
    CoverageInvariant U engine chain s where
  table := htable
  forward := fun _ _ _ _ hstage => absurd hstage (hplain.1 _ _ _ _)
  following := ⟨chain, List.prefix_rfl, fun _ _ hstage => absurd hstage (hplain.2 _ _)⟩
  published := hpublished

theorem isPlain_stopped : IsPlain .stopped :=
  ⟨fun _ _ _ _ h => (nomatch h), fun _ _ h => (nomatch h)⟩

theorem isPlain_synced : IsPlain .synced :=
  ⟨fun _ _ _ _ h => (nomatch h), fun _ _ h => (nomatch h)⟩

theorem isPlain_backfillStage (hashtable : HashTableDb) (floor backfillEnd : Nat) :
    IsPlain (SpendServer.backfillStage config hashtable floor backfillEnd) := by
  unfold SpendServer.backfillStage
  split
  · exact ⟨fun _ _ _ _ h => (nomatch h), fun _ _ h => (nomatch h)⟩
  · exact isPlain_synced

theorem isPlain_afterForward (hashtable : HashTableDb) (start floor : Nat)
    (fromSnapshot : Bool) :
    IsPlain (SpendServer.afterForward config hashtable start floor fromSnapshot) := by
  unfold SpendServer.afterForward
  split
  · exact isPlain_synced
  · exact isPlain_backfillStage _ _ _

theorem isPlain_afterBackfill (hashtable : HashTableDb) (floor backfillEnd : Nat) :
    IsPlain (SpendServer.afterBackfill config hashtable floor backfillEnd) := by
  unfold SpendServer.afterBackfill
  generalize SpendServer.backfillStart floor backfillEnd = start
  dsimp only
  split
  · exact isPlain_synced
  · exact isPlain_backfillStage _ _ _

theorem coverageInvariant_init : CoverageInvariant U engine chain SpendServer.init :=
  .of_isPlain ⟨fun _ _ _ _ h => (nomatch h), fun _ _ h => (nomatch h)⟩
    (holdsThroughLatest_new chain) (fun _ h => (nomatch h))

theorem coverageInvariant_connect {s : SpendServer σ} {tipHeight : Nat}
    {snapshot : Option HashTableDb} (h : CoverageInvariant U engine chain s)
    (hserved : ServedFrom chain (.connect tipHeight snapshot)) :
    CoverageInvariant U engine chain (s.connect config tipHeight snapshot) := by
  have htable : (snapshot.getD HashTableDb.new).HoldsThroughLatest chain := by
    cases snapshot with
    | none => exact holdsThroughLatest_new chain
    | some hashtable => exact hserved hashtable rfl
  unfold SpendServer.connect
  dsimp only
  split
  · refine ⟨htable, ?_, ⟨chain, List.prefix_rfl, fun _ _ hfalse => (nomatch hfalse)⟩,
      h.published⟩
    intro start tip floor fromSnapshot hstage l hl
    cases hstage
    cases snapshot with
    | none => cases hl
    | some hashtable =>
        change hashtable.latestHeight = some l at hl
        rw [SpendServer.forwardStart, if_pos Option.isSome_some, Option.getD_some, hl]
  · exact .of_isPlain (isPlain_afterForward _ _ _ _) htable h.published

theorem coverageInvariant_syncStage {s : SpendServer σ} {connection : Option Connection}
    {start stop : Nat} {next : HashTableDb -> Stage} (hchain : CoverableChain U chain)
    (h : CoverageInvariant U engine chain s)
    (hview : forall c, connection = some c -> c.view.IsPrefix chain)
    (hadjoins : forall c, connection = some c ->
      Adjoins s.hashtable start (fetchBatches c start stop))
    (hnext : forall hashtable, IsPlain (next hashtable)) :
    CoverageInvariant U engine chain (s.syncStage connection start stop next) := by
  unfold SpendServer.syncStage
  cases hsync : syncRange connection start stop s.hashtable none with
  | error e => exact .of_isPlain isPlain_stopped h.table h.published
  | ok hashtable =>
      exact .of_isPlain (hnext hashtable)
        (holdsThroughLatest_syncRange hchain h.table hview hadjoins hsync) h.published

theorem followInvariant_followStart {s : SpendServer σ} (hchain : HonestView U chain)
    (hstage : s.stage = .follow (some (SpendServer.followStart s.hashtable)) [])
    (hholds : s.hashtable.HoldsThroughLatest chain) :
    FollowInvariant U s (chain.take (s.hashtable.latestHeight.getD 0 + 1)) := by
  apply followInvariant_start (w := { server := s, served := chain, ingested := _ })
  refine ⟨hstage, hchain, rfl, ?_⟩
  change exists lo, s.hashtable.Mirrors chain
    (Set.Ico lo (s.hashtable.latestHeight.getD 0 + 1))
  rcases hholds with ⟨lo, hmirrors⟩
  cases hl : s.hashtable.latestHeight with
  | none =>
      rw [hl] at hmirrors
      exact ⟨1, mirrors_of_latestHeight_none hmirrors hl 1⟩
  | some l =>
      rw [hl] at hmirrors
      exact ⟨lo, hmirrors⟩

theorem coverageInvariant_publish {s : SpendServer σ} (hchain : CoverableChain U chain)
    (h : CoverageInvariant U engine chain s) :
    CoverageInvariant U engine chain (s.publish engine) := by
  unfold SpendServer.publish
  cases hevict : s.hashtable.evictToTarget with
  | none => exact .of_isPlain isPlain_stopped h.table h.published
  | some hashtable =>
      have htable := holdsThroughLatest_evictToTarget h.table hevict
      dsimp only
      cases hrebuild : rebuildPir engine hashtable scenario with
      | error e => exact .of_isPlain isPlain_stopped htable h.published
      | ok pir =>
          refine ⟨htable, fun _ _ _ _ hstage => (nomatch hstage),
            ⟨_, List.take_prefix _ _, followInvariant_followStart hchain.honest rfl htable⟩, ?_⟩
          intro found hfound
          cases hfound
          exact covers_rebuildPir hchain htable hrebuild

theorem continues_of_isPrefix {st : FollowState} {ingested view : ChainView}
    (htip : st.AtTip ingested) (hingested : ingested.IsPrefix chain)
    (hview : view.IsPrefix chain) (hlt : st.currentHeight < view.length) :
    st.Continues view := by
  rcases htip.tip with ⟨block, hblock, htracker⟩
  have hserved := getElem?_of_isPrefix hview (List.getElem?_eq_getElem hlt)
  rw [getElem?_of_isPrefix hingested hblock] at hserved
  refine ⟨block, ?_, htracker⟩
  rw [List.getElem?_eq_getElem hlt]
  exact hserved.symm

theorem coverageInvariant_poll {s : SpendServer σ} {st : FollowState}
    {queue : List ChainEvent} {view : ChainView} (hchain : CoverableChain U chain)
    (h : CoverageInvariant U engine chain s) (hstage : s.stage = .follow (some st) queue)
    (hview : view.IsPrefix chain) :
    CoverageInvariant U engine chain
      { s with
        stage := Stage.follow (some (followPoll st view).1)
          (queue ++ (followPoll st view).2) } := by
  rcases h.following with ⟨ingested, hingested, hfollow⟩
  refine ⟨h.table, fun _ _ _ _ hfalse => (nomatch hfalse), ?_, h.published⟩
  by_cases hidle : view.tipHeight ≤ st.currentHeight
  · refine ⟨ingested, hingested, ?_⟩
    rw [followPoll_idle hidle, List.append_nil, ← hstage]
    exact hfollow
  · have hnonempty : view ≠ [] := by
      intro hnil
      rw [hnil] at hidle
      exact hidle (Nat.zero_le _)
    have hhonest := hchain.honest.of_prefix hnonempty hview
    have hlength := hhonest.tipHeight_succ
    have hcontinues : JustStarted s.hashtable st ∨ st.Continues view := by
      rcases (hfollow _ _ hstage).2.2 st rfl with htip | hjust
      · exact Or.inr (continues_of_isPrefix htip hingested hview (by lia))
      · exact Or.inl hjust.1
    have hnonzero : forall block, block ∈ st.newBlocks view -> NonzeroNullifiers block := by
      intro block hblock
      rw [FollowState.newBlocks_eq hhonest] at hblock
      exact hchain.nonzero block (hview.mem (List.mem_of_mem_drop hblock))
    rcases followInvariant_poll hfollow hstage hhonest (Nat.lt_of_not_le hidle) hcontinues
      hnonzero with ⟨htip, hannounced⟩
    refine ⟨view, hview, ?_⟩
    intro task queue' hstage'
    cases hstage'
    refine ⟨hhonest, hannounced, ?_⟩
    intro st' hst'
    cases hst'
    exact Or.inl htip

theorem coverageInvariant_handle {s : SpendServer σ} {task : Option FollowState}
    {event : ChainEvent} {rest : List ChainEvent} (hchain : CoverableChain U chain)
    (h : CoverageInvariant U engine chain s)
    (hstage : s.stage = .follow task (event :: rest)) :
    CoverageInvariant U engine chain (s.handle engine task event rest) := by
  rcases h.following with ⟨ingested, hingested, hfollow⟩
  have hkept : FollowInvariant U (s.handle engine task event rest) ingested :=
    followInvariant_handle hfollow hstage
  rcases hfollow _ _ hstage with ⟨hhonest, ⟨lo, next, hannounced⟩, _⟩
  unfold SpendServer.handle at hkept ⊢
  cases hhandle : handleEvent engine s.hashtable event with
  | error e => exact .of_isPlain isPlain_stopped h.table h.published
  | ok handled =>
      rw [hhandle] at hkept
      rcases announced_handleEvent hhonest hannounced hhandle with
        ⟨lo', hannounced', hrebuild⟩
      have htable : handled.1.HoldsThroughLatest chain := by
        refine HashTableDb.holdsThroughLatest_iff.mpr ⟨lo', next + 1, ?_⟩
        apply hannounced'.mirrors.congr
        intro height hheight
        have hlt : height < ingested.length := Nat.lt_of_lt_of_le hheight.2 hannounced'.le
        rw [List.getElem?_eq_getElem hlt]
        exact getElem?_of_isPrefix hingested (List.getElem?_eq_getElem hlt)
      refine ⟨htable, fun _ _ _ _ hfalse => (nomatch hfalse), ⟨ingested, hingested, hkept⟩, ?_⟩
      intro pir hpir
      cases hpir
      exact covers_rebuildPir hchain htable hrebuild

theorem coverageInvariant_step {s s' : SpendServer σ} {input : ServerInput}
    (hchain : CoverableChain U chain) (h : CoverageInvariant U engine chain s)
    (hstep : CoverageStep config engine chain s input s') :
    CoverageInvariant U engine chain s' := by
  rcases hstep with ⟨hstep, hserved, hgap⟩
  cases SpendServer.moves_of_step hstep with
  | connect _ => exact coverageInvariant_connect h hserved
  | forward hstage =>
      apply coverageInvariant_syncStage hchain h hserved
      · intro c _
        exact Or.inr (Or.inl (h.forward _ _ _ _ hstage))
      · intro hashtable
        exact isPlain_afterForward _ _ _ _
  | @backfill connection floor backfillEnd hstage =>
      apply coverageInvariant_syncStage hchain h hserved
      · intro c hc
        rw [hc] at hgap
        exact hgap c floor backfillEnd rfl hstage
      · intro hashtable
        exact isPlain_afterBackfill _ _ _
  | publish _ => exact coverageInvariant_publish hchain h
  | poll hstage => exact coverageInvariant_poll hchain h hstage hserved
  | requestFails hstage =>
      rcases h.following with ⟨ingested, hingested, hfollow⟩
      refine ⟨h.table, fun _ _ _ _ hfalse => (nomatch hfalse), ⟨ingested, hingested, ?_⟩,
        h.published⟩
      intro task' queue' hstage'
      cases hstage'
      rcases hfollow _ _ hstage with ⟨hhonest, hannounced, _⟩
      exact ⟨hhonest, hannounced, fun _ hfalse => (nomatch hfalse)⟩
  | handle hstage => exact coverageInvariant_handle hchain h hstage

/-- In every run over the chain that leaves no gap, the table holds an interval and what
is published covers its heights. -/
theorem coverageInvariant_run {s s' : SpendServer σ} {inputs : List ServerInput}
    (hchain : CoverableChain U chain)
    (hrun : Run (CoverageStep config engine chain) s inputs s')
    (h : CoverageInvariant U engine chain s) : CoverageInvariant U engine chain s' :=
  hrun.invariant (fun _ _ _ hkept hstep => coverageInvariant_step hchain hkept hstep) h

end Server

end Nullifier
end SpendabilityPir
