import SpendabilityPir.Nullifier.SpendServer
import SpendabilityPir.Nullifier.TableMirror
import SpendabilityPir.Shared.Following

/-!
# Following the chain into the nullifier table

The queue announces the blocks above the ones the table mirrors.  A poll of a chain that
still has the tracker's tip announces the blocks above it, and the event loop moves the
oldest announced block into the table.
-/

namespace SpendabilityPir
namespace Nullifier

open Foundation Shared

/-- The event announces a block, as a new block or as a reorg that orphans nothing. -/
def Announces (event : ChainEvent) (block : CompactBlock) : Prop :=
  exists nullifiers,
    nullifiers.map NullifierWithMeta.nullifier = extractNullifiers block ∧
    (event = .newBlock block.height.toNat (toHashArray block.hash)
        (toHashArray block.prevHash) nullifiers ∨
      event = .reorg []
        [{ height := block.height.toNat
           hash := toHashArray block.hash
           prevHash := toHashArray block.prevHash
           nullifiers := nullifiers }])

theorem announces_newBlockEvent (prevTreeSize : Option UInt32) (block : CompactBlock) :
    Announces (newBlockEvent prevTreeSize block) block :=
  ⟨_, map_nullifier_extractNullifiersWithMeta block prevTreeSize, Or.inl rfl⟩

theorem insertOrFail_eq_ok {hashtable hashtable' : HashTableDb} {height : Nat}
    {hash : ByteVec 32} {nullifiers : List NullifierWithMeta} :
    insertOrFail hashtable height hash nullifiers = .ok hashtable' ↔
      hashtable.insertBlock height hash nullifiers = (hashtable', .ok ()) := by
  unfold insertOrFail
  split
  · next herror => simp [herror]
  · next mid hok => simp [hok]

theorem applyEvent_eq_ok {event : ChainEvent} {block : CompactBlock}
    (hannounces : Announces event block) {hashtable hashtable' : HashTableDb}
    (h : applyEvent hashtable event = .ok hashtable') :
    exists nullifiers inserted,
      nullifiers.map NullifierWithMeta.nullifier = extractNullifiers block ∧
      hashtable.insertBlock block.height.toNat (toHashArray block.hash) nullifiers =
        (inserted, .ok ()) ∧
      inserted.evictToTarget = some hashtable' := by
  rcases hannounces with ⟨nullifiers, hnullifiers, hevent⟩
  rcases hevent with hnew | hreorg
  · rw [hnew] at h
    rcases bind_eq_ok.mp h with ⟨inserted, hinsert, hevict⟩
    exact ⟨nullifiers, inserted, hnullifiers, insertOrFail_eq_ok.mp hinsert,
      Outcome.ofPanics_eq_ok.mp hevict⟩
  · rw [hreorg] at h
    rcases bind_eq_ok.mp h with ⟨rolledBack, hrollback, hrest⟩
    rcases bind_eq_ok.mp hrest with ⟨inserted, hblocks, hevict⟩
    rcases bind_eq_ok.mp hblocks with ⟨mid, hinsert, hmid⟩
    cases hrollback
    cases hmid
    exact ⟨nullifiers, inserted, hnullifiers, insertOrFail_eq_ok.mp hinsert,
      Outcome.ofPanics_eq_ok.mp hevict⟩

theorem insert_Ico_right (lo next : Nat) :
    insert next (Set.Ico lo next) = Set.Ico (min lo next) (next + 1) := by
  ext height
  simp only [Set.mem_insert_iff, Set.mem_Ico]
  lia

theorem mirrors_applyEvent {U : BlockUniverse} {hashtable hashtable' : HashTableDb}
    {chain : ChainView} {lo next : Nat} {block : CompactBlock} {event : ChainEvent}
    (hchain : HonestView U chain) (hmirrors : hashtable.Mirrors chain (Set.Ico lo next))
    (hblock : chain[next]? = some block) (hnonzero : NonzeroNullifiers block)
    (hannounces : Announces event block)
    (h : applyEvent hashtable event = .ok hashtable') :
    exists lo', hashtable'.Mirrors chain (Set.Ico lo' (next + 1)) := by
  rcases applyEvent_eq_ok hannounces h with
    ⟨nullifiers, inserted, hnullifiers, hinsert, hevict⟩
  rw [hchain.height_eq hblock] at hinsert
  have hfresh : next ∉ Set.Ico lo next := by simp
  have hinserted := HashTableDb.mirrors_insertBlock hchain hmirrors hblock hfresh hnonzero
    hnullifiers hinsert
  rw [insert_Ico_right] at hinserted
  rcases hinserted.evictToTarget_Ico with ⟨evicted, lo', hevict', hevicted⟩
  rw [hevict] at hevict'
  cases hevict'
  exact ⟨lo', hevicted⟩

/-!
## The invariant
-/

/-- The table mirrors a chain up to a height, and the queue announces the rest. -/
structure Announced (hashtable : HashTableDb) (queue : List ChainEvent)
    (chain : ChainView) (lo next : Nat) : Prop where
  mirrors : hashtable.Mirrors chain (Set.Ico lo next)
  pos : 0 < next
  le : next ≤ chain.length
  queue : List.Forall₂ Announces queue (chain.drop next)
  nonzero : forall block, block ∈ chain.drop next -> NonzeroNullifiers block

/-- The follow task has just started on an empty table. -/
def JustStarted (hashtable : HashTableDb) (st : FollowState) : Prop :=
  st = SpendServer.followStart hashtable ∧ hashtable.latestHeight = none

/-- The follow task is at the tip of a chain, or has just started on an empty table. -/
def Positioned (hashtable : HashTableDb) (chain : ChainView) (st : FollowState) : Prop :=
  st.AtTip chain ∨ (JustStarted hashtable st ∧ chain.length = 1)

/-- What holds of a serving server and the chain it ingested last. -/
def FollowInvariant {σ : Type} (U : BlockUniverse) (s : SpendServer σ)
    (chain : ChainView) : Prop :=
  forall task queue, s.stage = .follow task queue ->
    HonestView U chain ∧
    (exists lo next, Announced s.hashtable queue chain lo next) ∧
    (forall st, task = some st -> Positioned s.hashtable chain st)

theorem followStart_of_none {hashtable : HashTableDb}
    (h : hashtable.latestHeight = none) :
    SpendServer.followStart hashtable = FollowState.start 0 (ByteVec.zeros 32) none := by
  have hlast : hashtable.blockIndex.last? = none := Option.map_eq_none_iff.mp h
  rw [SpendServer.followStart, h, HashTableDb.latestBlockHash, hlast]
  rfl

theorem atTip_followStart {hashtable : HashTableDb} {chain : ChainView} {lo l : Nat}
    (hmirrors : hashtable.Mirrors chain (Set.Ico lo (l + 1)))
    (hl : hashtable.latestHeight = some l) :
    (SpendServer.followStart hashtable).AtTip (chain.take (l + 1)) := by
  rcases hmirrors.chain_getElem? (hmirrors.latestHeight_spec hl).1 with ⟨block, hblock⟩
  rw [SpendServer.followStart, hl, hmirrors.latestBlockHash_eq hl hblock]
  exact FollowState.atTip_start hblock none

/-!
## Polls
-/

theorem drop_append_of_le {α : Type _} {xs : List α} {n : Nat} (h : n ≤ xs.length)
    (ys : List α) : (xs ++ ys).drop n = xs.drop n ++ ys :=
  List.drop_append_of_le_length h

theorem announced_followBlocks {U : BlockUniverse} {hashtable : HashTableDb}
    {queue : List ChainEvent} {chain : ChainView} {lo next : Nat} {st : FollowState}
    {blocks : List CompactBlock} (htip : st.AtTip chain)
    (hhonest : HonestView U (chain ++ blocks))
    (hnonzero : forall block, block ∈ blocks -> NonzeroNullifiers block)
    (h : Announced hashtable queue chain lo next) :
    (st.followBlocks followEvents blocks).1.AtTip (chain ++ blocks) ∧
    Announced hashtable (queue ++ (st.followBlocks followEvents blocks).2)
      (chain ++ blocks) lo next := by
  have hfollow : (st.followBlocks followEvents blocks).1.AtTip (chain ++ blocks) ∧
      next ≤ (chain ++ blocks).length ∧
      List.Forall₂ Announces (queue ++ (st.followBlocks followEvents blocks).2)
        ((chain ++ blocks).drop next) := by
    apply FollowState.followBlocks_induction hhonest (fun chain' _ events =>
      next ≤ chain'.length ∧ List.Forall₂ Announces events (chain'.drop next)) _
      rfl htip ⟨h.le, h.queue⟩
    intro chain' st' events block _ _ hinv
    constructor
    · rw [List.length_append]
      exact Nat.le_add_right_of_le hinv.1
    · rw [drop_append_of_le hinv.1]
      exact List.rel_append hinv.2
        (List.Forall₂.cons (announces_newBlockEvent st'.prevTreeSize block) .nil)
  rcases hfollow with ⟨htip', hle, hqueue⟩
  refine ⟨htip', ?_, h.pos, hle, hqueue, ?_⟩
  · apply h.mirrors.congr
    intro height hheight
    have hlt : height < chain.length := Nat.lt_of_lt_of_le hheight.2 h.le
    exact List.getElem?_append_left hlt
  · intro block hblock
    rw [drop_append_of_le h.le] at hblock
    rcases List.mem_append.mp hblock with hold | hnew
    · exact h.nonzero block hold
    · exact hnonzero block hnew

theorem followEvents_start (block : CompactBlock) :
    exists event,
      followEvents (FollowState.start 0 (ByteVec.zeros 32) none)
        ((FollowState.start 0 (ByteVec.zeros 32) none).advance block).2 block = [event] ∧
      Announces event block := by
  rcases ChainTracker.pushBlock_withTip_zero (ByteVec.zeros 32) (confirmationDepth * 2)
      block.height.toNat (toHashArray block.hash) (toHashArray block.prevHash) with
    hextend | hreorg
  · have haction :
        ((FollowState.start 0 (ByteVec.zeros 32) none).advance block).2 = .extend := hextend
    rw [haction]
    exact ⟨_, rfl, announces_newBlockEvent none block⟩
  · have haction :
        ((FollowState.start 0 (ByteVec.zeros 32) none).advance block).2 = .reorg 0 := hreorg
    rw [haction]
    exact ⟨_, rfl, _, map_nullifier_extractNullifiersWithMeta block none, Or.inr rfl⟩

theorem mirrors_of_latestHeight_none {hashtable : HashTableDb} {chain chain' : ChainView}
    {lo next : Nat} (h : hashtable.Mirrors chain (Set.Ico lo next))
    (hnone : hashtable.latestHeight = none) (n : Nat) :
    hashtable.Mirrors chain' (Set.Ico n n) := by
  have hempty := h.latestHeight_none hnone
  rw [hempty] at h
  rw [Set.Ico_self]
  apply h.congr
  intro height hfalse
  cases hfalse

theorem announced_followBlocks_start {U : BlockUniverse} {hashtable : HashTableDb}
    {queue : List ChainEvent} {chain : ChainView} {lo next : Nat} {st : FollowState}
    {genesis block : CompactBlock} {rest : List CompactBlock}
    (hstart : JustStarted hashtable st) (hlength : chain.length = 1)
    (hview : HonestView U (genesis :: block :: rest))
    (hnonzero : forall b, b ∈ block :: rest -> NonzeroNullifiers b)
    (h : Announced hashtable queue chain lo next) :
    (st.followBlocks followEvents (block :: rest)).1.AtTip (genesis :: block :: rest) ∧
    Announced hashtable (queue ++ (st.followBlocks followEvents (block :: rest)).2)
      (genesis :: block :: rest) 1 1 := by
  have hst : st = FollowState.start 0 (ByteVec.zeros 32) none := by
    rw [hstart.1, followStart_of_none hstart.2]
  have hqueue : queue = [] := by
    have hpos := h.pos
    have hall := h.queue
    rw [List.drop_of_length_le (by lia)] at hall
    exact List.forall₂_nil_right_iff.mp hall
  rcases followEvents_start block with ⟨event, hevent, hannounces⟩
  have hfront : HonestView U ([genesis] ++ [block]) :=
    hview.of_prefix (by simp) (List.prefix_append [genesis, block] rest)
  have htip : (st.advance block).1.AtTip ([genesis] ++ [block]) := by
    apply FollowState.atTip_advance _ hfront
    rw [hst]
    exact Nat.succ_pos _
  have hfirst : Announced hashtable [event] ([genesis] ++ [block]) 1 1 := by
    refine ⟨mirrors_of_latestHeight_none h.mirrors hstart.2 1, Nat.one_pos, by simp,
      List.Forall₂.cons hannounces .nil, ?_⟩
    intro b hb
    apply hnonzero
    rw [List.mem_singleton.mp hb]
    exact List.mem_cons_self
  have hrest := announced_followBlocks htip hview
    (fun b hb => hnonzero b (List.mem_cons_of_mem block hb)) hfirst
  change (FollowState.followBlocks followEvents (st.advance block).1 rest).1.AtTip _ ∧
    Announced hashtable (queue ++ (followEvents st (st.advance block).2 block ++
      (FollowState.followBlocks followEvents (st.advance block).1 rest).2)) _ 1 1
  rw [hqueue, List.nil_append]
  rw [hst] at hrest ⊢
  rw [hevent]
  exact hrest

/-- A poll with new blocks keeps the invariant for the chain it served. -/
theorem followInvariant_poll {σ : Type} {U : BlockUniverse} {s : SpendServer σ}
    {chain view : ChainView} {st : FollowState} {queue : List ChainEvent}
    (h : FollowInvariant U s chain) (hstage : s.stage = .follow (some st) queue)
    (hview : HonestView U view) (hnew : st.currentHeight < view.tipHeight)
    (hcond : JustStarted s.hashtable st ∨ st.Continues view)
    (hnonzero : forall block, block ∈ st.newBlocks view -> NonzeroNullifiers block) :
    (followPoll st view).1.AtTip view ∧
    exists lo next,
      Announced s.hashtable (queue ++ (followPoll st view).2) view lo next := by
  rcases h _ _ hstage with ⟨hchain, hannounced, hposition⟩
  rcases hannounced with ⟨lo, next, hannounced⟩
  have hlength := hview.tipHeight_succ
  rw [FollowState.newBlocks_eq hview] at hnonzero
  have hstarted : JustStarted s.hashtable st -> chain.length = 1 ->
      (followPoll st view).1.AtTip view ∧
      exists lo next,
        Announced s.hashtable (queue ++ (followPoll st view).2) view lo next := by
    intro hstart hone
    have hzero : st.currentHeight = 0 := by
      rw [hstart.1, followStart_of_none hstart.2]
      rfl
    rw [followPoll, FollowState.followPoll, FollowState.newBlocks_eq hview]
    rw [hzero] at hnonzero hnew ⊢
    cases view with
    | nil => exact absurd rfl hview.nonempty
    | cons genesis above =>
        cases above with
        | nil =>
            rw [List.length_singleton] at hlength
            lia
        | cons block rest =>
            rcases announced_followBlocks_start hstart hone hview hnonzero hannounced with
              ⟨htip, hqueue⟩
            exact ⟨htip, 1, 1, hqueue⟩
  rcases hposition st rfl with htip | hjust
  · rcases hcond with hstart | hcontinues
    · have hone : chain.length = 1 := by
        rw [htip.length, hstart.1, followStart_of_none hstart.2]
        rfl
      exact hstarted hstart hone
    · have htake := htip.take_eq hchain hview hcontinues
      have hsplit : chain ++ view.drop (st.currentHeight + 1) = view := by
        rw [← htake, List.take_append_drop]
      rw [followPoll, FollowState.followPoll, FollowState.newBlocks_eq hview]
      have hfollow := announced_followBlocks htip (hsplit.symm ▸ hview) hnonzero hannounced
      rw [hsplit] at hfollow
      exact ⟨hfollow.1, lo, next, hfollow.2⟩
  · exact hstarted hjust.1 hjust.2

theorem followPoll_idle {st : FollowState} {view : ChainView}
    (h : view.tipHeight ≤ st.currentHeight) : followPoll st view = (st, []) := by
  rw [followPoll, FollowState.followPoll, FollowState.newBlocks, if_pos h]
  rfl

/-!
## The event loop
-/

theorem announced_handleEvent {σ : Type} {U : BlockUniverse} {engine : PirEngine σ}
    {hashtable hashtable' : HashTableDb} {event : ChainEvent} {queue : List ChainEvent}
    {chain : ChainView} {lo next : Nat} {pir : PirState σ} (hchain : HonestView U chain)
    (h : Announced hashtable (event :: queue) chain lo next)
    (hhandle : handleEvent engine hashtable event = .ok (hashtable', pir)) :
    exists lo', Announced hashtable' queue chain lo' (next + 1) ∧
      rebuildPir engine hashtable' scenario = .ok pir := by
  rcases handleEvent_eq_ok hhandle with ⟨happly, hrebuild⟩
  have hqueue := h.queue
  have hlt : next < chain.length := by
    have hlengths := hqueue.length_eq
    rw [List.length_cons, List.length_drop] at hlengths
    lia
  have hdrop : chain.drop next = chain[next] :: chain.drop (next + 1) :=
    List.drop_eq_getElem_cons hlt
  rw [hdrop] at hqueue
  cases hqueue with
  | cons hannounces hrest =>
      have hnonzero : NonzeroNullifiers chain[next] :=
        h.nonzero _ (by rw [hdrop]; exact List.mem_cons_self)
      rcases mirrors_applyEvent hchain h.mirrors (List.getElem?_eq_getElem hlt) hnonzero
          hannounces happly with ⟨lo', hmirrors⟩
      refine ⟨lo', ⟨hmirrors, Nat.succ_pos _, hlt, hrest, ?_⟩, hrebuild⟩
      intro block hblock
      apply h.nonzero
      rw [hdrop]
      exact List.mem_cons_of_mem _ hblock

theorem atTip_of_queued {hashtable : HashTableDb} {event : ChainEvent}
    {queue : List ChainEvent} {chain : ChainView} {lo next : Nat} {st : FollowState}
    (h : Announced hashtable (event :: queue) chain lo next)
    (hposition : Positioned hashtable chain st) : st.AtTip chain := by
  rcases hposition with htip | hjust
  · exact htip
  · have hpos := h.pos
    have hone := hjust.2
    have hlengths := h.queue.length_eq
    rw [List.length_cons, List.length_drop] at hlengths
    lia

end Nullifier
end SpendabilityPir
