import SpendabilityPir.Shared.PirTypes
import SpendabilityPir.Shared.ChainTracker
import SpendabilityPir.Shared.ChainView

/-!
# The ingest loops

Both pipelines fetch blocks the same way: `sync` in batches over a fixed range, without
looking at hash links, and `follow` from its current height to the served tip, through
the chain tracker.  What they emit for a block is a parameter.
-/

namespace SpendabilityPir
namespace Shared

open Foundation

/-- A connection to lightwalletd: the chain it serves and the range requests that
fail. -/
structure Connection where
  view : ChainView
  fails : Nat -> Nat -> Bool

def Connection.getBlockRange (connection : Connection) (start stop : Nat) :
    Option (List CompactBlock) :=
  if connection.fails start stop then none
  else some (connection.view.getBlockRange start stop)

theorem Connection.mem_getBlockRange {connection : Connection} {start stop : Nat}
    {blocks : List CompactBlock} (h : connection.getBlockRange start stop = some blocks)
    {block : CompactBlock} (hblock : block ∈ blocks) :
    block ∈ connection.view ∧ start ≤ block.height.toNat ∧ block.height.toNat ≤ stop := by
  unfold Connection.getBlockRange at h
  split at h
  · cases h
  · cases h
    rw [ChainView.getBlockRange, List.mem_filter] at hblock
    have hbounds := hblock.right
    simp only [Bool.and_eq_true, decide_eq_true_eq] at hbounds
    exact ⟨hblock.left, hbounds⟩

/-- The last height of the batch that starts at a height. -/
def batchEnd (current toHeight : Nat) : Nat := min (current + syncBatchSize - 1) toHeight

theorem le_batchEnd_succ (current toHeight : Nat) (h : current ≤ toHeight) :
    current < batchEnd current toHeight + 1 := by
  rw [batchEnd, syncBatchSize, Nat.lt_succ_iff, Nat.le_min]
  exact ⟨by lia, h⟩

/-- The requests of `sync`, batch by batch. -/
def batchRequests (current toHeight : Nat) : List (Nat × Nat) :=
  if _h : current ≤ toHeight then
    (current, batchEnd current toHeight) ::
      batchRequests (batchEnd current toHeight + 1) toHeight
  else []
termination_by toHeight + 1 - current
decreasing_by
  have hlt := le_batchEnd_succ current toHeight _h
  lia

theorem batchRequests_of_le {current toHeight : Nat} (h : current ≤ toHeight) :
    batchRequests current toHeight =
      (current, batchEnd current toHeight) ::
        batchRequests (batchEnd current toHeight + 1) toHeight := by
  rw [batchRequests, dif_pos h]

theorem batchRequests_of_gt {current toHeight : Nat} (h : ¬ current ≤ toHeight) :
    batchRequests current toHeight = [] := by
  rw [batchRequests, dif_neg h]

def Connection.ServesRange (connection : Connection) (fromHeight toHeight : Nat) : Prop :=
  forall request, request ∈ batchRequests fromHeight toHeight ->
    connection.fails request.1 request.2 = false

/-- The blocks `sync` fetches, batch by batch, up to the first failing request. -/
def fetchBatches (connection : Connection) (current toHeight : Nat) :
    List CompactBlock :=
  if _h : current ≤ toHeight then
    match connection.getBlockRange current (batchEnd current toHeight) with
    | none => []
    | some blocks =>
        blocks ++ fetchBatches connection (batchEnd current toHeight + 1) toHeight
  else []
termination_by toHeight + 1 - current
decreasing_by
  have hlt := le_batchEnd_succ current toHeight _h
  lia

theorem fetchBatches_of_gt (connection : Connection) {current toHeight : Nat}
    (h : ¬ current ≤ toHeight) : fetchBatches connection current toHeight = [] := by
  rw [fetchBatches, dif_neg h]

theorem fetchBatches_of_fails {connection : Connection} {current toHeight : Nat}
    (hfail : connection.getBlockRange current (batchEnd current toHeight) = none) :
    fetchBatches connection current toHeight = [] := by
  rw [fetchBatches]
  split
  · rw [hfail]
  · rfl

theorem fetchBatches_of_some {connection : Connection} {current toHeight : Nat}
    {blocks : List CompactBlock} (h : current ≤ toHeight)
    (hblocks : connection.getBlockRange current (batchEnd current toHeight) =
      some blocks) :
    fetchBatches connection current toHeight =
      blocks ++ fetchBatches connection (batchEnd current toHeight + 1) toHeight := by
  rw [fetchBatches, dif_pos h, hblocks]

theorem drop_take_append {α : Type _} (xs : List α) {a b c : Nat} (hab : a ≤ b)
    (hbc : b ≤ c) : (xs.take b).drop a ++ (xs.take c).drop b = (xs.take c).drop a := by
  have hfront : xs.take b = (xs.take c).take b := by
    rw [List.take_take, Nat.min_eq_left hbc]
  have hback : (xs.take c).drop b = ((xs.take c).drop a).drop (b - a) := by
    rw [List.drop_drop, Nat.add_sub_cancel' hab]
  rw [hfront, List.drop_take, hback, List.take_append_drop]

theorem take_append_drop_take {α : Type _} (xs : List α) {a c : Nat} (h : a ≤ c) :
    xs.take a ++ (xs.take c).drop a = xs.take c :=
  drop_take_append xs (Nat.zero_le a) h

theorem fetchBatches_eq {connection : Connection}
    (hnumbered : Numbered ChainView.heightOf 0 connection.view) (current toHeight : Nat) :
    exists stop, current ≤ stop ∧ stop ≤ max current (toHeight + 1) ∧
      fetchBatches connection current toHeight =
        (connection.view.take stop).drop current := by
  induction current using fetchBatches.induct connection toHeight with
  | case1 current hle hfail =>
      refine ⟨current, Nat.le_refl _, Nat.le_max_left _ _, ?_⟩
      rw [fetchBatches_of_fails hfail, List.drop_take, Nat.sub_self, List.take_zero]
  | case2 current hle blocks hblocks ih =>
      rcases ih with ⟨stop, hlo, hhi, heq⟩
      have hbatch := le_batchEnd_succ current toHeight hle
      have hend : batchEnd current toHeight ≤ toHeight := Nat.min_le_right _ _
      have hrange : blocks =
          (connection.view.take (batchEnd current toHeight + 1)).drop current := by
        rw [← ChainView.getBlockRange_eq hnumbered]
        unfold Connection.getBlockRange at hblocks
        split at hblocks
        · cases hblocks
        · exact (Option.some.inj hblocks).symm
      refine ⟨stop, by lia, by lia, ?_⟩
      rw [fetchBatches_of_some hle hblocks, heq, hrange,
        drop_take_append _ (Nat.le_of_lt hbatch) hlo]
  | case3 current hgt =>
      refine ⟨current, Nat.le_refl _, Nat.le_max_left _ _, ?_⟩
      rw [fetchBatches_of_gt connection hgt, List.drop_take, Nat.sub_self,
        List.take_zero]

theorem mem_of_mem_fetchBatches {connection : Connection}
    (hnumbered : Numbered ChainView.heightOf 0 connection.view) {current toHeight : Nat}
    {block : CompactBlock} (h : block ∈ fetchBatches connection current toHeight) :
    block ∈ connection.view := by
  rcases fetchBatches_eq hnumbered current toHeight with ⟨stop, _, _, heq⟩
  rw [heq] at h
  exact List.mem_of_mem_take (List.mem_of_mem_drop h)

/-- When no request fails, all blocks up to the target height are fetched. -/
theorem fetchBatches_complete {connection : Connection}
    (hnumbered : Numbered ChainView.heightOf 0 connection.view)
    {current toHeight : Nat} (hserves : connection.ServesRange current toHeight)
    (h : current ≤ toHeight + 1) :
    fetchBatches connection current toHeight =
      (connection.view.take (toHeight + 1)).drop current := by
  induction current using fetchBatches.induct connection toHeight with
  | case1 current hle hfail =>
      rw [Connection.ServesRange, batchRequests_of_le hle] at hserves
      rw [Connection.getBlockRange, hserves _ List.mem_cons_self] at hfail
      cases hfail
  | case2 current hle blocks hblocks ih =>
      have hbatch := le_batchEnd_succ current toHeight hle
      have hend : batchEnd current toHeight ≤ toHeight := Nat.min_le_right _ _
      rw [Connection.ServesRange, batchRequests_of_le hle] at hserves
      have hrest := fun request hmem => hserves request (List.mem_cons_of_mem _ hmem)
      have hrange : blocks =
          (connection.view.take (batchEnd current toHeight + 1)).drop current := by
        rw [← ChainView.getBlockRange_eq hnumbered]
        rw [Connection.getBlockRange, hserves _ List.mem_cons_self] at hblocks
        exact (Option.some.inj hblocks).symm
      rw [fetchBatches_of_some hle hblocks, ih hrest (by lia), hrange,
        drop_take_append _ (Nat.le_of_lt hbatch) (by lia)]
  | case3 current hgt =>
      have heq : current = toHeight + 1 := by lia
      rw [fetchBatches_of_gt connection hgt, heq, List.drop_take, Nat.sub_self,
        List.take_zero]

theorem fetchBatches_congr {connection other : Connection} {toHeight : Nat}
    (hsame : forall start stop, stop ≤ toHeight ->
      connection.getBlockRange start stop = other.getBlockRange start stop)
    (current : Nat) :
    fetchBatches connection current toHeight = fetchBatches other current toHeight := by
  induction current using fetchBatches.induct connection toHeight with
  | case1 current hle hfail =>
      rw [fetchBatches_of_fails hfail,
        fetchBatches_of_fails (hsame current _ (Nat.min_le_right _ _) ▸ hfail)]
  | case2 current hle blocks hblocks ih =>
      rw [fetchBatches_of_some hle hblocks, ih,
        fetchBatches_of_some hle (hsame current _ (Nat.min_le_right _ _) ▸ hblocks)]
  | case3 current hgt => rw [fetchBatches_of_gt connection hgt, fetchBatches_of_gt other hgt]

/-- One event a block, given the tree size the block before it reported. -/
def emitBlocks {ε : Type _} (emit : Option UInt32 -> CompactBlock -> ε) :
    Option UInt32 -> List CompactBlock -> List ε
  | _, [] => []
  | prevTreeSize, block :: rest =>
      emit prevTreeSize block :: emitBlocks emit block.orchardTreeSize rest

/-- The local state of a `follow` loop. -/
structure FollowState where
  tracker : ChainTracker
  currentHeight : Nat
  prevTreeSize : Option UInt32

namespace FollowState

def start (height : Nat) (hash : ByteVec 32) (initialTreeSize : Option UInt32) :
    FollowState :=
  { tracker := ChainTracker.withTip height hash (confirmationDepth * 2)
    currentHeight := height
    prevTreeSize := initialTreeSize }

/-- Push a fetched block to the tracker and move to its height. -/
def advance (st : FollowState) (block : CompactBlock) : FollowState × ChainAction :=
  let pushed := st.tracker.pushBlock block.height.toNat (toHashArray block.hash)
    (toHashArray block.prevHash)
  ({ tracker := pushed.1
     currentHeight := block.height.toNat
     prevTreeSize := block.orchardTreeSize },
   pushed.2)

/-- The heights a poll of a chain requests; none when it has nothing above. -/
def newBlocks (st : FollowState) (view : ChainView) : List CompactBlock :=
  if view.tipHeight ≤ st.currentHeight then []
  else view.getBlockRange (st.currentHeight + 1) view.tipHeight

section Follow

variable {ε : Type _} (emit : FollowState -> ChainAction -> CompactBlock -> List ε)

def followBlocks : FollowState -> List CompactBlock -> FollowState × List ε
  | st, [] => (st, [])
  | st, block :: rest =>
      let advanced := st.advance block
      let later := followBlocks advanced.1 rest
      (later.1, emit st advanced.2 block ++ later.2)

/-- One turn of the `follow` loop against the chain served at the time. -/
def followPoll (st : FollowState) (view : ChainView) : FollowState × List ε :=
  followBlocks emit st (st.newBlocks view)

end Follow

def actions (st : FollowState) (blocks : List CompactBlock) : List ChainAction :=
  (st.followBlocks (fun _ action _ => [action]) blocks).2

/-!
## Following without a fork

As long as the tracker's tip is the block the served chain has at the current height,
the blocks above extend it.
-/

/-- The tracker's tip is the last block of a chain. -/
structure AtTip (st : FollowState) (chain : ChainView) : Prop where
  length : chain.length = st.currentHeight + 1
  tip : exists block, chain[st.currentHeight]? = some block ∧
    st.tracker.tip = some (st.currentHeight, toHashArray block.hash)
  depth : 0 < st.tracker.maxDepth

theorem atTip_start {chain : ChainView} {height : Nat} {block : CompactBlock}
    (hblock : chain[height]? = some block) (initialTreeSize : Option UInt32) :
    (start height (toHashArray block.hash) initialTreeSize).AtTip
      (chain.take (height + 1)) := by
  have hlt := (List.getElem?_eq_some_iff.mp hblock).1
  refine ⟨?_, ⟨block, ?_, rfl⟩, Nat.succ_pos _⟩
  · rw [List.length_take]
    exact Nat.min_eq_left hlt
  · change (chain.take (height + 1))[height]? = some block
    rw [List.getElem?_take_of_lt (Nat.lt_succ_self height), hblock]

/-- The served chain has the tracker's tip at the current height. -/
def Continues (st : FollowState) (view : ChainView) : Prop :=
  exists block, view[st.currentHeight]? = some block ∧
    st.tracker.tip = some (st.currentHeight, toHashArray block.hash)

variable {U : BlockUniverse}

theorem tip_advance {st : FollowState} (hdepth : 0 < st.tracker.maxDepth)
    (block : CompactBlock) :
    (st.advance block).1.tracker.tip =
      some (block.height.toNat, toHashArray block.hash) :=
  ChainTracker.pushBlock_tip hdepth _ _ _

theorem atTip_advance {st : FollowState} {chain : ChainView} {block : CompactBlock}
    (hdepth : 0 < st.tracker.maxDepth)
    (hhonest : HonestView U (chain ++ [block])) :
    AtTip (st.advance block).1 (chain ++ [block]) := by
  have hblock : (chain ++ [block])[chain.length]? = some block :=
    List.getElem?_concat_length
  have hheight := hhonest.height_eq hblock
  constructor
  · show (chain ++ [block]).length = block.height.toNat + 1
    rw [List.length_append, hheight]
    rfl
  · refine ⟨block, ?_, ?_⟩
    · show (chain ++ [block])[block.height.toNat]? = some block
      rw [hheight]
      exact hblock
    · rw [tip_advance hdepth]
      rfl
  · show 0 < (st.tracker.pushBlock _ _ _).1.maxDepth
    rw [ChainTracker.pushBlock_maxDepth]
    exact hdepth

theorem AtTip.advance_extend {st : FollowState} {chain : ChainView}
    {block : CompactBlock} (htip : AtTip st chain)
    (hhonest : HonestView U (chain ++ [block])) :
    (st.advance block).2 = .extend := by
  rcases htip.tip with ⟨last, hlast, htracker⟩
  have hblock : (chain ++ [block])[st.currentHeight + 1]? = some block := by
    rw [← htip.length]
    exact List.getElem?_concat_length
  have hprevious : (chain ++ [block])[st.currentHeight]? = some last :=
    getElem?_of_isPrefix (List.prefix_append chain [block]) hlast
  have hheight := hhonest.height_eq hblock
  have hlink := hhonest.links st.currentHeight last block hprevious hblock
  show (st.tracker.pushBlock block.height.toNat _ (toHashArray block.prevHash)).2 = _
  rw [hheight, hlink]
  exact ChainTracker.pushBlock_extend htracker _

/-- What holds at a tip and is kept by every extending block holds after following the
blocks up to the end of an honest chain. -/
theorem followBlocks_induction {ε : Type _}
    {emit : FollowState -> ChainAction -> CompactBlock -> List ε} {full : ChainView}
    (hfull : HonestView U full) (Inv : ChainView -> FollowState -> List ε -> Prop)
    (hstep : forall chain st events block, AtTip st chain ->
      (chain ++ [block]).IsPrefix full -> Inv chain st events ->
      Inv (chain ++ [block]) (st.advance block).1 (events ++ emit st .extend block))
    {chain : ChainView} {st : FollowState} {events : List ε}
    {blocks : List CompactBlock} (hsplit : chain ++ blocks = full)
    (htip : AtTip st chain) (hinv : Inv chain st events) :
    AtTip (followBlocks emit st blocks).1 full ∧
    Inv full (followBlocks emit st blocks).1
      (events ++ (followBlocks emit st blocks).2) := by
  induction blocks generalizing chain st events with
  | nil =>
      rw [List.append_nil] at hsplit
      rw [hsplit] at htip hinv
      refine ⟨htip, ?_⟩
      change Inv full st (events ++ [])
      rw [List.append_nil]
      exact hinv
  | cons block rest ih =>
      have hsplit' : (chain ++ [block]) ++ rest = full := by
        rw [List.append_assoc]
        exact hsplit
      have hpre : (chain ++ [block]).IsPrefix full := ⟨rest, hsplit'⟩
      have hfront : HonestView U (chain ++ [block]) := hfull.of_prefix (by simp) hpre
      have hextend := htip.advance_extend hfront
      have hnext := hstep chain st events block htip hpre hinv
      rcases ih hsplit' (atTip_advance htip.depth hfront) hnext with ⟨htip', hinv'⟩
      refine ⟨htip', ?_⟩
      change Inv _ _ (events ++ (emit st (st.advance block).2 block ++ _))
      rw [hextend, ← List.append_assoc]
      exact hinv'

theorem AtTip.actions_extend {st : FollowState} {chain : ChainView}
    {blocks : List CompactBlock} (htip : AtTip st chain)
    (hhonest : HonestView U (chain ++ blocks)) :
    forall action, action ∈ st.actions blocks -> action = .extend := by
  have hfollow : (st.followBlocks (fun _ action _ => [action]) blocks).1.AtTip
        (chain ++ blocks) ∧
      forall action, action ∈ [] ++ st.actions blocks -> action = .extend := by
    apply followBlocks_induction hhonest
      (fun _ _ events => forall action, action ∈ events -> action = ChainAction.extend)
      _ rfl htip
    · intro _ hfalse
      cases hfalse
    · intro _ _ events _ _ _ hevents action haction
      rcases List.mem_append.mp haction with hold | hnew
      · exact hevents action hold
      · exact List.mem_singleton.mp hnew
  exact hfollow.2

/-!
## What a poll fetches
-/

theorem newBlocks_eq {st : FollowState} {view : ChainView} (hhonest : HonestView U view) :
    st.newBlocks view = view.drop (st.currentHeight + 1) := by
  have hlength := hhonest.tipHeight_succ
  unfold newBlocks
  split
  · rw [List.drop_of_length_le (by lia)]
  · rw [ChainView.getBlockRange_eq hhonest.heights, hlength, List.take_length]

theorem take_append_newBlocks {st : FollowState} {view : ChainView}
    (hhonest : HonestView U view) :
    view.take (st.currentHeight + 1) ++ st.newBlocks view = view := by
  rw [newBlocks_eq hhonest, List.take_append_drop]

theorem AtTip.take_eq {st : FollowState} {chain view : ChainView} (htip : AtTip st chain)
    (hchain : HonestView U chain) (hview : HonestView U view)
    (hcontinues : st.Continues view) : view.take (st.currentHeight + 1) = chain := by
  rcases htip.tip with ⟨last, hlast, htracker⟩
  rcases hcontinues with ⟨block, hblock, htracker'⟩
  have hhash : toHashArray block.hash = toHashArray last.hash := by
    have htips := Option.some.inj (htracker'.symm.trans htracker)
    exact (Prod.mk.inj htips).2
  have hsame : block.hash = last.hash :=
    toHashArray_injective
      (U.hash_length block (hview.served block (List.mem_of_getElem? hblock)))
      (U.hash_length last (hchain.served last (List.mem_of_getElem? hlast))) hhash
  rw [hview.take_eq hchain hblock hlast hsame, ← htip.length, List.take_length]

end FollowState
end Shared
end SpendabilityPir
