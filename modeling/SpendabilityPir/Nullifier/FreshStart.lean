import Mathlib.Order.Interval.Set.LinearOrder
import SpendabilityPir.Nullifier.LiveSegment
import SpendabilityPir.Nullifier.SpendReorg
import SpendabilityPir.Nullifier.TableEviction

/-!
# A start without a snapshot

The forward sync takes the blocks near the tip, and the backfill takes batches below them
until the table is full or the floor is reached.  The batches tile the heights from some
height to the tip; what the eviction leaves is as much of the end of the chain as fits.
-/

namespace SpendabilityPir
namespace Nullifier

open Foundation Shared

/-!
## What is inserted
-/

/-- Blocks inserted one after the other, whatever tree size goes with each. -/
inductive InsertedInTurn : HashTableDb -> List CompactBlock -> HashTableDb -> Prop where
  | nil (hashtable : HashTableDb) : InsertedInTurn hashtable [] hashtable
  | cons {hashtable inserted hashtable' : HashTableDb} {priorTreeSize : Option UInt32}
      {block : CompactBlock} {rest : List CompactBlock} :
      InsertsBlock hashtable priorTreeSize block inserted ->
      InsertedInTurn inserted rest hashtable' ->
      InsertedInTurn hashtable (block :: rest) hashtable'

theorem InsertedInTurn.append {hashtable mid hashtable' : HashTableDb}
    {xs ys : List CompactBlock} (h : InsertedInTurn hashtable xs mid)
    (hrest : InsertedInTurn mid ys hashtable') :
    InsertedInTurn hashtable (xs ++ ys) hashtable' := by
  induction h with
  | nil => exact hrest
  | cons hblock _ ih => exact InsertedInTurn.cons hblock (ih hrest)

theorem insertedInTurn_of_applies {hashtable hashtable' : HashTableDb}
    {priorTreeSize : Option UInt32} {blocks : List CompactBlock}
    (h : AppliesInOrder InsertsBlock hashtable priorTreeSize blocks hashtable') :
    InsertedInTurn hashtable blocks hashtable' := by
  induction h with
  | nil => exact InsertedInTurn.nil _
  | cons hblock _ ih => exact InsertedInTurn.cons hblock ih

def backfillRanges (config : ServerConfig)
    (syncBatch : Nat -> Nat -> HashTableDb -> Outcome ServerError HashTableDb)
    (floor backfillEnd : Nat) (hashtable : HashTableDb) : List (Nat × Nat) :=
  if _h : hashtable.len < config.targetSize ∧ backfillEnd ≥ floor then
    (SpendServer.backfillStart floor backfillEnd, backfillEnd) ::
      match syncBatch (SpendServer.backfillStart floor backfillEnd) backfillEnd hashtable with
      | .error _ => []
      | .ok synced =>
          if hstart : SpendServer.backfillStart floor backfillEnd = floor then []
          else
            backfillRanges config syncBatch floor
              (SpendServer.backfillStart floor backfillEnd - 1) synced
  else []
termination_by backfillEnd
decreasing_by exact pred_backfillStart_lt _h.2 hstart

/-- The ranges of a forward sync and the backfill below it. -/
def fillRanges (config : ServerConfig) (connect : Nat -> Nat -> Option Connection)
    (tipHeight floor forwardStart : Nat) : List (Nat × Nat) :=
  (if forwardStart ≤ tipHeight then [(forwardStart, tipHeight)] else []) ++
    match syncToTip connect tipHeight forwardStart HashTableDb.new with
    | .error _ => []
    | .ok synced => backfillRanges config (syncBatch connect) floor (forwardStart - 1) synced

/-- The ranges a start without a snapshot syncs, in order. -/
def syncedRanges (config : ServerConfig) (connect : Nat -> Nat -> Option Connection)
    (tipHeight : Nat) : List (Nat × Nat) :=
  fillRanges config connect tipHeight (minSyncHeight tipHeight)
    (SpendServer.forwardStart HashTableDb.new false tipHeight (minSyncHeight tipHeight))

def fetchedBlocks (connect : Nat -> Nat -> Option Connection) (ranges : List (Nat × Nat)) :
    List CompactBlock :=
  ranges.flatMap (fun range =>
    match connect range.1 range.2 with
    | none => []
    | some connection => fetchBatches connection range.1 range.2)

/-!
## One range
-/

/-- An error of the table, as a full bucket gives one. -/
def IsTableError (e : ServerError) : Prop := exists tableError, e = .hashTable tableError

/-- A bucket is full, which a chain that fits the buckets does not bring about. -/
def StoppedByBucket (chain : ChainView) (e : ServerError) : Prop :=
  IsTableError e ∧ ¬ FitsBuckets chain

theorem endsIn_insertEvents (hashtable : HashTableDb) (events : List ChainEvent) :
    Outcome.EndsIn (insertEvents hashtable events) (fun _ => True) IsTableError := by
  induction events generalizing hashtable with
  | nil => exact Or.inl ⟨hashtable, rfl, trivial⟩
  | cons event rest ih =>
      cases event with
      | newBlock height hash prevHash nullifiers =>
          have hinsert : Outcome.EndsIn (insertOrFail hashtable height hash nullifiers)
              (fun _ => True) IsTableError := by
            unfold insertOrFail
            split
            · next tableError _ => exact Or.inr ⟨_, rfl, tableError, rfl⟩
            · next inserted _ => exact Or.inl ⟨inserted, rfl, trivial⟩
          exact hinsert.bind (fun inserted _ => ih inserted)
      | reorg orphaned newBlocks => exact ih hashtable

/-- Each request up to the tip is answered with exactly the chain's blocks. -/
def ServesChain (chain : ChainView) (connect : Nat -> Nat -> Option Connection) : Prop :=
  forall fromHeight toHeight, exists connection,
    connect fromHeight toHeight = some connection ∧
      forall start stop, stop ≤ chain.tipHeight ->
        connection.getBlockRange start stop = some (chain.getBlockRange start stop)

def completeConnection (chain : ChainView) : Connection :=
  { view := chain, fails := fun _ _ => false }

theorem serves_completeConnection (chain : ChainView) :
    ServesChain chain (fun _ _ => some (completeConnection chain)) :=
  fun _ _ => ⟨completeConnection chain, rfl, fun _ _ _ => rfl⟩

section Fresh

variable {U : BlockUniverse} {chain : ChainView}
  {connect : Nat -> Nat -> Option Connection} {hashtable : HashTableDb}

theorem fetchBatches_of_serves (hchain : HonestView U chain) {connection : Connection}
    (hserves : forall start stop, stop ≤ chain.tipHeight ->
      connection.getBlockRange start stop = some (chain.getBlockRange start stop))
    {fromHeight toHeight : Nat} (hle : fromHeight ≤ toHeight + 1)
    (htip : toHeight ≤ chain.tipHeight) :
    fetchBatches connection fromHeight toHeight =
      (chain.take (toHeight + 1)).drop fromHeight := by
  have hsame : fetchBatches connection fromHeight toHeight =
      fetchBatches (completeConnection chain) fromHeight toHeight := by
    apply fetchBatches_congr
    intro start stop hstop
    exact hserves start stop (Nat.le_trans hstop htip)
  have hcomplete : fetchBatches (completeConnection chain) fromHeight toHeight =
      ((completeConnection chain).view.take (toHeight + 1)).drop fromHeight :=
    fetchBatches_complete hchain.heights (fun _ _ => rfl) hle
  rw [hsame]
  exact hcomplete

theorem fetchedBlocks_cons (hchain : HonestView U chain) (hserves : ServesChain chain connect)
    {fromHeight toHeight : Nat} (hle : fromHeight ≤ toHeight + 1)
    (htip : toHeight ≤ chain.tipHeight) (rest : List (Nat × Nat)) :
    fetchedBlocks connect ((fromHeight, toHeight) :: rest) =
      (chain.take (toHeight + 1)).drop fromHeight ++ fetchedBlocks connect rest := by
  rcases hserves fromHeight toHeight with ⟨connection, hconnect, hanswers⟩
  rw [fetchedBlocks, List.flatMap_cons, hconnect]
  dsimp only
  rw [fetchBatches_of_serves hchain hanswers hle htip]
  rfl

theorem endsIn_syncBatch (hchain : HonestView U chain)
    (hnonzero : forall block, block ∈ chain -> NonzeroNullifiers block)
    (hserves : ServesChain chain connect) {heights : Set Nat}
    (hmirrors : hashtable.Mirrors chain heights) {fromHeight toHeight : Nat}
    (hle : fromHeight ≤ toHeight) (htip : toHeight ≤ chain.tipHeight)
    (hfresh : forall height, fromHeight ≤ height -> height ≤ toHeight -> height ∉ heights) :
    Outcome.EndsIn (syncBatch connect fromHeight toHeight hashtable)
      (fun synced =>
        synced.Mirrors chain (heights ∪ Set.Ico fromHeight (toHeight + 1)) ∧
        InsertedInTurn hashtable ((chain.take (toHeight + 1)).drop fromHeight) synced)
      (StoppedByBucket chain) := by
  have hlength := hchain.tipHeight_succ
  rcases hserves fromHeight toHeight with ⟨connection, hconnect, hanswers⟩
  have hfetch := fetchBatches_of_serves hchain hanswers (Nat.le_succ_of_le hle) htip
  have hsync : syncBatch connect fromHeight toHeight hashtable = insertEvents hashtable
      (emitBlocks newBlockEvent none ((chain.take (toHeight + 1)).drop fromHeight)) := by
    rw [syncBatch, hconnect, syncRange, if_neg (Nat.not_lt_of_le hle), ← hfetch]
    rfl
  have hcount : ((chain.take (toHeight + 1)).drop fromHeight).length =
      toHeight + 1 - fromHeight := length_segment (by lia)
  have hblocks : forall i block,
      ((chain.take (toHeight + 1)).drop fromHeight)[i]? = some block ->
      chain[fromHeight + i]? = some block := by
    intro i block hblock
    rw [List.getElem?_drop] at hblock
    exact getElem?_of_isPrefix (List.take_prefix _ _) hblock
  have hnew : forall i, i < ((chain.take (toHeight + 1)).drop fromHeight).length ->
      fromHeight + i ∉ heights :=
    fun i hi => hfresh _ (Nat.le_add_right _ _) (by lia)
  rw [hsync]
  rcases endsIn_insertEvents hashtable
    (emitBlocks newBlockEvent none ((chain.take (toHeight + 1)).drop fromHeight)) with
    ⟨synced, hinserted, _⟩ | ⟨e, hstopped, herror⟩
  · have hmirrored := mirrors_insertEvents hchain hnonzero hmirrors hblocks hnew hinserted
    rw [hcount, Nat.add_sub_cancel' (Nat.le_succ_of_le hle)] at hmirrored
    exact Or.inl ⟨synced, hinserted, hmirrored,
      insertedInTurn_of_applies (insertEvents_eq_ok.mp hinserted)⟩
  · refine Or.inr ⟨e, hstopped, herror, ?_⟩
    intro hfits
    rcases insertEvents_of_fits none hchain hnonzero hfits hmirrors hblocks hnew with
      ⟨synced, hinserted⟩
    rw [hinserted] at hstopped
    cases hstopped

/-!
## The backfill
-/

/-- The blocks from one height to another are inserted, each once, next to what the table
has up to the tip. -/
structure FilledFrom (chain : ChainView) (connect : Nat -> Nat -> Option Connection)
    (hashtable : HashTableDb) (ranges : List (Nat × Nat)) (lo stop : Nat)
    (filled : HashTableDb) : Prop where
  mirrors : filled.Mirrors chain (Set.Ico lo (chain.tipHeight + 1))
  inserted : InsertedInTurn hashtable (fetchedBlocks connect ranges) filled
  heights : ((fetchedBlocks connect ranges).map ChainView.heightOf).Perm
    (List.range' lo (stop - lo))

theorem filledFrom_nil {stop : Nat}
    (hmirrors : hashtable.Mirrors chain (Set.Ico stop (chain.tipHeight + 1))) :
    FilledFrom chain connect hashtable [] stop stop hashtable where
  mirrors := hmirrors
  inserted := InsertedInTurn.nil hashtable
  heights := by
    rw [Nat.sub_self]
    exact List.Perm.refl _

theorem heights_segment (hchain : HonestView U chain) {fromHeight toHeight : Nat}
    (htip : toHeight ≤ chain.tipHeight) :
    ((chain.take (toHeight + 1)).drop fromHeight).map ChainView.heightOf =
      List.range' fromHeight (toHeight + 1 - fromHeight) := by
  have hlength := hchain.tipHeight_succ
  have hsegment := (hchain.heights.of_prefix (List.take_prefix (toHeight + 1) chain)).drop
    fromHeight
  rw [hsegment.map_eq_range', length_segment (by lia), Nat.zero_add]

/-- A further range below extends what is filled. -/
theorem FilledFrom.cons (hchain : HonestView U chain) (hserves : ServesChain chain connect)
    {synced filled : HashTableDb} {ranges : List (Nat × Nat)} {lo start stop : Nat}
    (hinserted : InsertedInTurn hashtable ((chain.take (stop + 1)).drop start) synced)
    (h : FilledFrom chain connect synced ranges lo start filled) (hlo : lo ≤ start)
    (hle : start ≤ stop) (htip : stop ≤ chain.tipHeight) :
    FilledFrom chain connect hashtable ((start, stop) :: ranges) lo (stop + 1) filled := by
  have hblocks := fetchedBlocks_cons hchain hserves (Nat.le_succ_of_le hle) htip ranges
  refine ⟨h.mirrors, ?_, ?_⟩
  · rw [hblocks]
    exact hinserted.append h.inserted
  · have hsplit : List.range' lo (stop + 1 - lo) =
        List.range' lo (start - lo) ++ List.range' start (stop + 1 - start) := by
      have happend := List.range'_append_1 (s := lo) (m := start - lo) (n := stop + 1 - start)
      rw [Nat.add_sub_cancel' hlo] at happend
      rw [happend]
      congr 1
      lia
    rw [hblocks, List.map_append, heights_segment hchain htip, hsplit]
    exact (List.Perm.append_left _ h.heights).trans List.perm_append_comm

theorem endsIn_backfill (hchain : HonestView U chain)
    (hnonzero : forall block, block ∈ chain -> NonzeroNullifiers block)
    (hserves : ServesChain chain connect) {config : ServerConfig} {floor backfillEnd : Nat}
    (hfloor : floor ≤ backfillEnd + 1) (htip : backfillEnd ≤ chain.tipHeight)
    (hmirrors : hashtable.Mirrors chain (Set.Ico (backfillEnd + 1) (chain.tipHeight + 1))) :
    Outcome.EndsIn (backfill config (syncBatch connect) floor backfillEnd hashtable)
      (fun filled => exists lo, floor ≤ lo ∧ lo ≤ backfillEnd + 1 ∧
        (lo = floor ∨ config.targetSize ≤ filled.len) ∧
        FilledFrom chain connect hashtable
          (backfillRanges config (syncBatch connect) floor backfillEnd hashtable) lo
          (backfillEnd + 1) filled)
      (StoppedByBucket chain) := by
  induction backfillEnd using Nat.strong_induction_on generalizing hashtable with
  | _ backfillEnd ih =>
      rw [backfill, backfillRanges]
      by_cases hloop : hashtable.len < config.targetSize ∧ backfillEnd ≥ floor
      · rw [dif_pos hloop, dif_pos hloop]
        have hle := backfillStart_le hloop.right
        have hge := floor_le_backfillStart floor backfillEnd
        have hlt := pred_backfillStart_lt hloop.right
        generalize SpendServer.backfillStart floor backfillEnd = start at hle hge hlt ⊢
        have hunion : Set.Ico (backfillEnd + 1) (chain.tipHeight + 1) ∪
            Set.Ico start (backfillEnd + 1) = Set.Ico start (chain.tipHeight + 1) := by
          rw [Set.union_comm, Set.Ico_union_Ico_eq_Ico (by lia) (by lia)]
        rcases endsIn_syncBatch hchain hnonzero hserves hmirrors hle htip
          (fun height _ hhi hmem => by have hlo := hmem.1; lia) with
          ⟨synced, hsync, hsynced, hinserted⟩ | ⟨e, hsync, herror⟩
        · rw [hunion] at hsynced
          rw [hsync]
          dsimp only
          by_cases hstart : start = floor
          · rw [dif_pos hstart, dif_pos hstart]
            refine Or.inl ⟨synced, rfl, start, hge, by lia, Or.inl hstart, ?_⟩
            exact (filledFrom_nil hsynced).cons hchain hserves hinserted (Nat.le_refl _) hle
              htip
          · rw [dif_neg hstart, dif_neg hstart]
            have hpred : start - 1 + 1 = start := by lia
            have hrest := ih (start - 1) (hlt hstart) (by lia) (by lia)
              (hpred.symm ▸ hsynced)
            apply hrest.imp
            rintro filled _ ⟨lo, hlo, hhi, hreached, hfilled⟩
            rw [hpred] at hfilled hhi
            exact ⟨lo, hlo, by lia, hreached,
              hfilled.cons hchain hserves hinserted hhi hle htip⟩
        · rw [hsync]
          exact Or.inr ⟨e, rfl, herror⟩
      · rw [dif_neg hloop, dif_neg hloop]
        refine Or.inl ⟨hashtable, rfl, backfillEnd + 1, hfloor, Nat.le_refl _, ?_,
          filledFrom_nil hmirrors⟩
        by_cases hfull : hashtable.len < config.targetSize
        · left
          by_contra hne
          exact hloop ⟨hfull, by lia⟩
        · exact Or.inr (Nat.le_of_not_lt hfull)

/-!
## The start
-/

theorem endsIn_fill (hchain : HonestView U chain)
    (hnonzero : forall block, block ∈ chain -> NonzeroNullifiers block)
    (hserves : ServesChain chain connect) (config : ServerConfig) {floor forwardStart : Nat}
    (hpos : 1 ≤ floor) (hfloor : floor ≤ forwardStart)
    (hstart : forwardStart ≤ chain.tipHeight + 1) :
    Outcome.EndsIn
      (syncToTip connect chain.tipHeight forwardStart HashTableDb.new >>=
        fillTable config connect floor forwardStart false)
      (fun filled => exists lo, floor ≤ lo ∧ lo ≤ chain.tipHeight + 1 ∧
        (lo = floor ∨ config.targetSize ≤ filled.len) ∧
        FilledFrom chain connect HashTableDb.new
          (fillRanges config connect chain.tipHeight floor forwardStart) lo
          (chain.tipHeight + 1) filled)
      (StoppedByBucket chain) := by
  have hnew := HashTableDb.mirrors_new chain
  have hpred : forwardStart - 1 + 1 = forwardStart := by lia
  unfold fillTable fillRanges syncToTip
  by_cases hle : forwardStart ≤ chain.tipHeight
  · rw [if_pos hle, if_pos hle]
    rcases endsIn_syncBatch hchain hnonzero hserves hnew hle (Nat.le_refl _)
      (fun height _ _ => Set.notMem_empty height) with
      ⟨synced, hsync, hsynced, hinserted⟩ | ⟨e, hsync, herror⟩
    · rw [Set.empty_union] at hsynced
      rw [hsync, ok_bind, if_neg Bool.false_ne_true]
      apply (endsIn_backfill hchain hnonzero hserves (by lia) (by lia)
        (hpred.symm ▸ hsynced)).imp
      rintro filled _ ⟨lo, hlo, hhi, hreached, hfilled⟩
      rw [hpred] at hhi hfilled
      exact ⟨lo, hlo, by lia, hreached,
        hfilled.cons hchain hserves hinserted hhi hle (Nat.le_refl _)⟩
    · rw [hsync]
      exact Or.inr ⟨e, rfl, herror⟩
  · rw [if_neg hle, if_neg hle, ok_bind, if_neg Bool.false_ne_true]
    have htop : forwardStart = chain.tipHeight + 1 := by lia
    have hempty : HashTableDb.new.Mirrors chain
        (Set.Ico (forwardStart - 1 + 1) (chain.tipHeight + 1)) := by
      rw [hpred, htop, Set.Ico_self]
      exact hnew
    apply (endsIn_backfill hchain hnonzero hserves (by lia) (by lia) hempty).imp
    rintro filled _ ⟨lo, hlo, hhi, hreached, hfilled⟩
    rw [hpred, htop] at hfilled
    rw [hpred, htop] at hhi
    refine ⟨lo, hlo, hhi, hreached, ?_⟩
    rw [htop]
    exact hfilled

theorem minSyncHeight_le (tipHeight : Nat) : minSyncHeight tipHeight ≤ tipHeight + 1 := by
  unfold minSyncHeight
  split
  · next hge => exact Nat.le_succ_of_le hge
  · exact Nat.succ_pos tipHeight

theorem one_le_minSyncHeight (tipHeight : Nat) : 1 ≤ minSyncHeight tipHeight := by
  unfold minSyncHeight
  split <;> simp [nu5MainnetActivation]

theorem floor_le_forwardStart (tipHeight : Nat) :
    minSyncHeight tipHeight ≤ SpendServer.forwardStart HashTableDb.new false tipHeight
      (minSyncHeight tipHeight) := by
  rw [SpendServer.forwardStart, if_neg Bool.false_ne_true]
  exact Nat.le_max_right _ _

theorem forwardStart_le (tipHeight : Nat) :
    SpendServer.forwardStart HashTableDb.new false tipHeight (minSyncHeight tipHeight) ≤
      tipHeight + 1 := by
  rw [SpendServer.forwardStart, if_neg Bool.false_ne_true]
  exact Nat.max_le.mpr ⟨Nat.le_succ_of_le (Nat.sub_le _ _), minSyncHeight_le tipHeight⟩

variable (connect) in
theorem runSyncOnly_fresh {σ : Type} (config : ServerConfig) (engine : PirEngine σ)
    (tipHeight : Nat) :
    runSyncOnly config engine tipHeight connect none =
      (syncToTip connect tipHeight
          (SpendServer.forwardStart HashTableDb.new false tipHeight (minSyncHeight tipHeight))
          HashTableDb.new >>=
        fillTable config connect (minSyncHeight tipHeight)
          (SpendServer.forwardStart HashTableDb.new false tipHeight (minSyncHeight tipHeight))
          false) >>=
        fun filled => Outcome.ofPanics filled.evictToTarget >>=
        fun evicted => rebuildPir engine evicted scenario >>=
        fun pir => .ok (evicted, pir) := by
  rw [bind_assoc]
  rfl

theorem runSyncOnly_fits {σ : Type} (hchain : HonestView U chain)
    (hnonzero : forall block, block ∈ chain -> NonzeroNullifiers block)
    (hserves : ServesChain chain connect) (hfits : FitsBuckets chain) (config : ServerConfig)
    (engine : PirEngine σ) (e : HashTableError) :
    runSyncOnly config engine chain.tipHeight connect none ≠
      .error (.error (.hashTable e)) := by
  intro herror
  rw [runSyncOnly_fresh] at herror
  rcases endsIn_fill hchain hnonzero hserves config (one_le_minSyncHeight chain.tipHeight)
    (floor_le_forwardStart _) (forwardStart_le _) with
    ⟨filled, hfilled, _⟩ | ⟨_, _, _, hoverflow⟩
  · rw [hfilled, ok_bind] at herror
    cases hevict : filled.evictToTarget with
    | none =>
        rw [hevict] at herror
        cases herror
    | some evicted =>
        rw [hevict, Outcome.ofPanics_some, ok_bind, rebuildPir] at herror
        split at herror <;> cases herror
  · exact hoverflow hfits

/-- The live blocks are those of a chain from a height to the tip: they fit the target
size, and unless they start at the floor or reach the target size, the block below them
does not fit any more. -/
structure LoadsSuffix (chain : ChainView) (floor k : Nat) (hashtable : HashTableDb) :
    Prop where
  floor_le : floor ≤ k
  le_tip : k ≤ chain.tipHeight + 1
  live : hashtable.Mirrors chain (Set.Ico k (chain.tipHeight + 1))
  len : hashtable.len = nullifierTotal chain k (chain.tipHeight + 1)
  fits : nullifierTotal chain k (chain.tipHeight + 1) ≤ targetSize
  most : k = floor ∨ nullifierTotal chain k (chain.tipHeight + 1) = targetSize ∨
    exists block, floor < k ∧ chain[k - 1]? = some block ∧
      targetSize < (extractNullifiers block).length +
        nullifierTotal chain k (chain.tipHeight + 1)

/-- A start without a snapshot inserts each block from some height on once and none below
the floor, and publishes the end of the chain that fits the target size. -/
theorem fresh_start_loads_suffix {σ : Type} (hchain : HonestView U chain)
    (hnonzero : forall block, block ∈ chain -> NonzeroNullifiers block)
    (hserves : ServesChain chain connect) {config : ServerConfig}
    (htarget : config.targetSize = targetSize) {engine : PirEngine σ}
    (hfits : forall e, runSyncOnly config engine chain.tipHeight connect none ≠
      .error (.error (.hashTable e))) :
    let blocks := fetchedBlocks connect (syncedRanges config connect chain.tipHeight)
    exists filled evicted k,
      InsertedInTurn HashTableDb.new blocks filled ∧
      (blocks.map ChainView.heightOf).Nodup ∧
      (forall block, block ∈ blocks ->
        minSyncHeight chain.tipHeight ≤ block.height.toNat) ∧
      filled.evictToTarget = some evicted ∧
      runSyncOnly config engine chain.tipHeight connect none =
        (rebuildPir engine evicted scenario >>= fun pir => .ok (evicted, pir)) ∧
      LoadsSuffix chain (minSyncHeight chain.tipHeight) k evicted := by
  dsimp only
  have hrun := runSyncOnly_fresh connect config engine chain.tipHeight
  rcases endsIn_fill hchain hnonzero hserves config (one_le_minSyncHeight chain.tipHeight)
    (floor_le_forwardStart _) (forwardStart_le _) with
    ⟨filled, hfilled, lo, hlo, hhi, hreached, hfrom⟩ | ⟨e, herror, ⟨tableError, rfl⟩, _⟩
  · rw [hfilled, ok_bind] at hrun
    have hlength := hchain.tipHeight_succ
    rcases hfrom.mirrors.evictToTarget_spec hchain hhi (Nat.le_of_eq hlength) with
      ⟨evicted, k, hevict, hle, hk, hlive, htotal, hlast⟩
    rw [hevict, Outcome.ofPanics_some, ok_bind] at hrun
    refine ⟨filled, evicted, k, hfrom.inserted, ?_, ?_, hevict, hrun, ?_⟩
    · exact hfrom.heights.nodup_iff.mpr List.nodup_range'
    · intro block hblock
      have hmem := hfrom.heights.mem_iff.mp (List.mem_map_of_mem hblock)
      exact Nat.le_trans hlo (List.mem_range'_1.mp hmem).left
    · refine ⟨Nat.le_trans hlo hle, hk, hlive, hlive.len_eq hchain hk (Nat.le_of_eq hlength),
        htotal, ?_⟩
      rcases hlast with heq | ⟨block, hlt, hblock, hover⟩
      · rcases hreached with hfloorReached | hfull
        · exact Or.inl (heq.trans hfloorReached)
        · rw [htarget, hfrom.mirrors.len_eq hchain hhi (Nat.le_of_eq hlength), ← heq] at hfull
          exact Or.inr (Or.inl (Nat.le_antisymm htotal hfull))
      · exact Or.inr (Or.inr ⟨block, Nat.lt_of_le_of_lt hlo hlt, hblock, hover⟩)
  · rw [herror] at hrun
    exact absurd hrun (hfits tableError)

end Fresh

/-!
## A chain above the target
-/

def rowAction (b : Fin numBuckets) : CompactOrchardAction :=
  { nullifier := (HashTableDb.rowNullifier b).nullifier.toList
    cmx := List.replicate 32 0
    ephemeralKey := []
    ciphertext := [] }

/-- Blocks 1 to 62 spend one nullifier of every bucket, the others spend none. -/
def rowTxs (i : Nat) : List CompactTx :=
  if 1 ≤ i ∧ i ≤ 62 then (List.finRange numBuckets).map (fun b => { actions := [rowAction b] })
  else []

def rowCompactBlock (i : Nat) : CompactBlock :=
  { height := UInt64.ofNat i
    hash := leBytes 32 (i + 1)
    prevHash := leBytes 32 i
    vtx := rowTxs i
    chainMetadata := none }

/-- The tip is 50000 blocks above block 100, where the forward sync starts. -/
def rowChain : ChainView := (List.range 50101).map rowCompactBlock

def rowUniverse : BlockUniverse where
  Served block := exists i, i < 2 ^ 32 ∧ block = rowCompactBlock i
  hash_length block h := by
    rcases h with ⟨i, _, rfl⟩
    exact length_leBytes 32 (i + 1)
  hash_injective a b ha hb heq := by
    rcases ha with ⟨i, hi, rfl⟩
    rcases hb with ⟨j, hj, rfl⟩
    have hnumbers : leNat (leBytes 32 (i + 1)) = leNat (leBytes 32 (j + 1)) :=
      congrArg leNat heq
    rw [leNat_leBytes (by lia), leNat_leBytes (by lia)] at hnumbers
    rw [Nat.succ.inj hnumbers]

theorem getElem?_rowChain {i : Nat} {block : CompactBlock} (h : rowChain[i]? = some block) :
    i < 50101 ∧ block = rowCompactBlock i := by
  rw [rowChain, List.getElem?_map] at h
  rcases Option.map_eq_some_iff.mp h with ⟨j, hj, heq⟩
  rcases List.getElem?_eq_some_iff.mp hj with ⟨hlt, hval⟩
  rw [List.length_range] at hlt
  rw [List.getElem_range] at hval
  rw [hval]
  exact ⟨hval ▸ hlt, heq.symm⟩

theorem honest_rowChain : HonestView rowUniverse rowChain where
  nonempty hnil := by
    have hlength := congrArg List.length hnil
    rw [rowChain, List.length_map, List.length_range] at hlength
    cases hlength
  served block hblock := by
    rcases List.mem_iff_getElem?.mp hblock with ⟨i, hi⟩
    rcases getElem?_rowChain hi with ⟨hlt, heq⟩
    exact ⟨i, by lia, heq⟩
  heights i block hi := by
    rcases getElem?_rowChain hi with ⟨hlt, heq⟩
    rw [heq, Nat.zero_add]
    exact UInt64.toNat_ofNat_of_lt (by change i < 2 ^ 64; lia)
  links i block next hi hnext := by
    rw [(getElem?_rowChain hi).right, (getElem?_rowChain hnext).right]
    rfl

theorem length_rowChain : rowChain.length = 50101 := by
  rw [rowChain, List.length_map, List.length_range]

theorem tipHeight_rowChain : rowChain.tipHeight = 50100 := by
  have hlength := honest_rowChain.tipHeight_succ
  rw [length_rowChain] at hlength
  lia

theorem extractNullifiers_rowCompactBlock (i : Nat) :
    extractNullifiers (rowCompactBlock i) =
      if 1 ≤ i ∧ i ≤ 62 then
        HashTableDb.fullRow.map NullifierWithMeta.nullifier
      else [] := by
  change fieldsOf32 CompactOrchardAction.nullifier ((rowTxs i).flatMap CompactTx.actions) = _
  unfold rowTxs
  split
  · rw [List.flatMap_map, HashTableDb.fullRow, List.map_map]
    induction List.finRange numBuckets with
    | nil => rfl
    | cons b rest ih =>
        have hfield : fieldsOf32 CompactOrchardAction.nullifier [rowAction b] =
            [(HashTableDb.rowNullifier b).nullifier] := by
          have hlength := (HashTableDb.rowNullifier b).nullifier.toList_length
          simp [fieldsOf32, rowAction, hlength, ByteVec.ofBytes_toList]
        rw [fieldsOf32] at ih hfield ⊢
        rw [List.flatMap_cons, List.filter_append, List.map_append, ih, hfield]
        rfl
  · rfl

theorem nonzero_rowChain {block : CompactBlock} (h : block ∈ rowChain) :
    NonzeroNullifiers block := by
  rcases List.mem_iff_getElem?.mp h with ⟨i, hi⟩
  rw [(getElem?_rowChain hi).right, NonzeroNullifiers, extractNullifiers_rowCompactBlock]
  split
  · intro hmem
    rcases List.mem_map.mp hmem with ⟨nwm, hnwm, hzero⟩
    exact HashTableDb.nonzero_fullRow nwm hnwm hzero
  · exact List.not_mem_nil

theorem sum_rows {f : Nat -> Nat} {c n lo : Nat}
    (hrows : forall i, f i = if 1 ≤ i ∧ i ≤ 62 then c else 0) (hlo : 1 ≤ lo)
    (hn : 63 ≤ lo + n) : ((List.range' lo n).map f).sum = (63 - lo) * c := by
  induction n generalizing lo with
  | zero =>
      have hnone : 63 - lo = 0 := by lia
      rw [hnone, Nat.zero_mul]
      rfl
  | succ n ih =>
      rw [List.range'_succ, List.map_cons, List.sum_cons, ih (by lia) (by lia), hrows]
      by_cases hrow : lo ≤ 62
      · have hcount : 63 - lo = 63 - (lo + 1) + 1 := by lia
        rw [if_pos ⟨hlo, hrow⟩, hcount, Nat.succ_mul, Nat.add_comm]
      · have hcount : 63 - lo = 63 - (lo + 1) := by lia
        rw [if_neg (by lia), hcount, Nat.zero_add]

theorem fitsBuckets_rowChain : FitsBuckets rowChain := by
  intro b
  have hrows : forall i, bucketLoad b (rowCompactBlock i) = if 1 ≤ i ∧ i ≤ 62 then 1 else 0 := by
    intro i
    rw [bucketLoad, extractNullifiers_rowCompactBlock]
    split
    · rw [List.countP_map]
      exact HashTableDb.hashingTo_fullRow b
    · rfl
  have hrange : List.range 50101 = 0 :: List.range' 1 (50101 - 1) := by
    rw [List.range_eq_range', List.range'_succ]
  rw [rowChain, List.map_map, hrange, List.map_cons, List.sum_cons, Function.comp_apply, hrows,
    if_neg (by decide)]
  have hsum := sum_rows (f := bucketLoad b ∘ rowCompactBlock) hrows (Nat.le_refl 1)
    (by decide : 63 ≤ 1 + (50101 - 1))
  rw [hsum]
  decide

theorem length_extractNullifiers_row (i : Nat) :
    (extractNullifiers (rowCompactBlock i)).length =
      if 1 ≤ i ∧ i ≤ 62 then numBuckets else 0 := by
  rw [extractNullifiers_rowCompactBlock]
  split
  · rw [List.length_map, HashTableDb.fullRow, List.length_map, List.length_finRange]
  · rfl

theorem nullifierTotal_rowChain {k : Nat} (hlo : 1 ≤ k) :
    nullifierTotal rowChain k 50101 = (63 - k) * numBuckets := by
  have hblocks : (rowChain.take 50101).drop k =
      (List.range' k (50101 - k)).map rowCompactBlock := by
    rw [rowChain, List.take_of_length_le (by rw [List.length_map, List.length_range]),
      ← List.map_drop, List.range_eq_range', List.drop_range', Nat.zero_add, Nat.mul_one]
  rw [nullifierTotal, hblocks, List.length_flatMap, List.map_map]
  exact sum_rows length_extractNullifiers_row hlo (by lia)

/-- Eviction from such a table leaves blocks 2 to 62. -/
theorem LoadsSuffix.rows {k : Nat} {hashtable : HashTableDb}
    (h : LoadsSuffix rowChain 1 k hashtable) : k = 2 := by
  have hrow : numBuckets = 16384 := rfl
  have htarget : targetSize = 1000000 := rfl
  have hlo := h.floor_le
  have hfits := h.fits
  have hmost := h.most
  rw [tipHeight_rowChain] at hfits hmost
  rw [nullifierTotal_rowChain hlo, hrow, htarget] at hfits hmost
  rcases hmost with hfloor | htotal | ⟨block, _, hblock, hover⟩
  · lia
  · lia
  · have hlength := length_extractNullifiers_row (k - 1)
    rw [(getElem?_rowChain hblock).right, hlength, hrow] at hover
    split at hover <;> lia

def rowConnection : Connection := completeConnection rowChain

theorem serves_rowChain : ServesChain rowChain (fun _ _ => some rowConnection) :=
  serves_completeConnection rowChain

theorem syncedRanges_rowChain :
    syncedRanges sampleConfig (fun _ _ => some rowConnection) rowChain.tipHeight =
      [(100, 50100), (1, 99)] := by
  have hstart : SpendServer.forwardStart HashTableDb.new false 50100 (minSyncHeight 50100) =
      100 := by
    decide
  have hfloor : minSyncHeight 50100 = 1 := by decide
  have hbatch : SpendServer.backfillStart 1 99 = 1 := by decide
  rcases endsIn_syncBatch honest_rowChain (fun _ => nonzero_rowChain) serves_rowChain
    (HashTableDb.mirrors_new rowChain) (by decide : 100 ≤ 50100)
    (Nat.le_of_eq tipHeight_rowChain.symm) (fun height _ _ => Set.notMem_empty height) with
    ⟨synced, hsync, hmirrors, _⟩ | ⟨_, _, _, hoverflow⟩
  · rw [Set.empty_union] at hmirrors
    have hlen := hmirrors.len_eq honest_rowChain (by decide)
      (Nat.le_of_eq length_rowChain.symm)
    rw [nullifierTotal_rowChain (by decide)] at hlen
    have hloop : synced.len < sampleConfig.targetSize ∧ 99 ≥ 1 := by
      rw [hlen]
      decide
    have hforward : syncToTip (fun _ _ => some rowConnection) 50100 100 HashTableDb.new =
        .ok synced := by
      rw [syncToTip, if_pos (by decide)]
      exact hsync
    rw [tipHeight_rowChain, syncedRanges, hstart, hfloor, fillRanges, if_pos (by decide),
      hforward]
    change [(100, 50100)] ++ backfillRanges _ _ 1 99 synced = _
    rw [backfillRanges, dif_pos hloop, hbatch]
    cases syncBatch (fun _ _ => some rowConnection) 1 99 synced with
    | error _ => rfl
    | ok _ =>
        dsimp only
        rw [dif_pos rfl]
        rfl
  · exact absurd fitsBuckets_rowChain hoverflow

/-- The backfill goes above the target, and the eviction of block 1 below it again. -/
theorem fresh_start_loads_suffix_rows :
    exists evicted,
      syncedRanges sampleConfig (fun _ _ => some rowConnection) rowChain.tipHeight =
        [(100, 50100), (1, 99)] ∧
      runSyncOnly sampleConfig acceptingEngine rowChain.tipHeight
        (fun _ _ => some rowConnection) none =
          (rebuildPir acceptingEngine evicted scenario >>= fun pir => .ok (evicted, pir)) ∧
      LoadsSuffix rowChain 1 2 evicted ∧ evicted.len = 61 * numBuckets := by
  have hfits := runSyncOnly_fits honest_rowChain (fun _ => nonzero_rowChain) serves_rowChain
    fitsBuckets_rowChain sampleConfig acceptingEngine
  rcases fresh_start_loads_suffix honest_rowChain (fun _ => nonzero_rowChain) serves_rowChain
    rfl hfits with ⟨_, evicted, k, _, _, _, _, hrun, hsuffix⟩
  have hfloor : minSyncHeight rowChain.tipHeight = 1 := by
    rw [tipHeight_rowChain]
    decide
  rw [hfloor] at hsuffix
  rw [hsuffix.rows] at hsuffix
  refine ⟨evicted, syncedRanges_rowChain, hrun, hsuffix, ?_⟩
  have hlen := hsuffix.len
  rw [tipHeight_rowChain] at hlen
  rw [hlen, nullifierTotal_rowChain (by decide)]

end Nullifier
end SpendabilityPir
