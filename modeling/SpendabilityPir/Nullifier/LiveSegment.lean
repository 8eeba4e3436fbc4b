import Mathlib.Algebra.Order.BigOperators.Group.List
import Mathlib.Algebra.Order.Ring.Nat
import Mathlib.Data.List.Sort
import SpendabilityPir.Nullifier.SnapshotCatchUp
import SpendabilityPir.Nullifier.TableCapacity

/-!
# Live blocks of an interval

A table that mirrors an interval of a chain has its blocks in order.  Eviction drops the
oldest until the rest fits, and not one more.
-/

namespace SpendabilityPir
namespace Nullifier

open Foundation Shared

/-- The number of nullifiers of a chain's blocks from one height up to another. -/
def nullifierTotal (chain : ChainView) (lo hi : Nat) : Nat :=
  (((chain.take hi).drop lo).flatMap extractNullifiers).length

theorem LiveBlocks.trimEntries_spec (limit : Nat) (entries : List (Nat × LiveBlock)) :
    exists dropped, entries = dropped ++ trimEntries limit entries ∧
      totalNullifiers (trimEntries limit entries) ≤ limit ∧
      (dropped = [] ∨ exists front last, dropped = front ++ [last] ∧
        limit < last.2.nullifiers.length + totalNullifiers (trimEntries limit entries)) := by
  induction entries with
  | nil => exact ⟨[], rfl, Nat.zero_le limit, Or.inl rfl⟩
  | cons e rest ih =>
      rw [trimEntries]
      split
      · next hgt =>
          rcases ih with ⟨dropped, hsplit, hle, hlast⟩
          refine ⟨e :: dropped, ?_, hle, Or.inr ?_⟩
          · rw [List.cons_append, ← hsplit]
          · rcases hlast with hnone | ⟨front, last, heq, hover⟩
            · rw [hnone, List.nil_append] at hsplit
              rw [totalNullifiers_cons, hsplit] at hgt
              exact ⟨[], e, by rw [hnone]; rfl, hgt⟩
            · exact ⟨e :: front, last, by rw [heq]; rfl, hover⟩
      · next hle => exact ⟨[], rfl, Nat.le_of_not_lt hle, Or.inl rfl⟩

section Segment

variable {U : BlockUniverse} {chain : ChainView} {lo hi : Nat} {live : LiveBlocks}

variable {hashtable hashtable' : HashTableDb}

theorem mirrors_insertEvents {heights : Set Nat} {start : Nat} {blocks : List CompactBlock}
    {priorTreeSize : Option UInt32} (hchain : HonestView U chain)
    (hnonzero : forall block, block ∈ chain -> NonzeroNullifiers block)
    (hmirrors : hashtable.Mirrors chain heights)
    (hblocks : forall i block, blocks[i]? = some block -> chain[start + i]? = some block)
    (hfresh : forall i, i < blocks.length -> start + i ∉ heights)
    (h : insertEvents hashtable (emitBlocks newBlockEvent priorTreeSize blocks) =
      .ok hashtable') :
    hashtable'.Mirrors chain (heights ∪ Set.Ico start (start + blocks.length)) := by
  apply insertEvents_induction (P := fun front db =>
    db.Mirrors chain (heights ∪ Set.Ico start (start + front.length))) _
    (List.nil_append blocks) h
  · rw [List.length_nil, Nat.add_zero, Set.Ico_self, Set.union_empty]
    exact hmirrors
  · intro front block db inserted nullifiers hpre hfront hnullifiers hinsert
    have hmem : blocks[front.length]? = some block :=
      getElem?_of_isPrefix hpre List.getElem?_concat_length
    have hblock := hblocks _ _ hmem
    have hlt := (List.getElem?_eq_some_iff.mp hmem).1
    have hnew : start + front.length ∉
        heights ∪ Set.Ico start (start + front.length) := by
      intro hold
      rcases hold with hold | hold
      · exact hfresh _ hlt hold
      · exact Nat.lt_irrefl _ hold.2
    rw [hchain.height_eq hblock] at hinsert
    have hinserted := HashTableDb.mirrors_insertBlock hchain hfront hblock hnew
      (hnonzero block (List.mem_of_getElem? hblock)) hnullifiers hinsert
    have hset : insert (start + front.length)
          (heights ∪ Set.Ico start (start + front.length)) =
        heights ∪ Set.Ico start (start + (front ++ [block]).length) := by
      ext height
      simp only [List.length_append, List.length_singleton, Set.mem_insert_iff,
        Set.mem_union, Set.mem_Ico]
      lia
    rw [← hset]
    exact hinserted

theorem length_segment (hhi : hi ≤ chain.length) :
    ((chain.take hi).drop lo).length = hi - lo := by
  rw [List.length_drop, List.length_take, Nat.min_eq_left hhi]

theorem LiveOn.records (hchain : HonestView U chain)
    (hlive : LiveOn live chain (Set.Ico lo hi)) (hle : lo ≤ hi) (hhi : hi ≤ chain.length) :
    List.Forall₂ RecordsBlock live.entries ((chain.take hi).drop lo) := by
  rcases (liveOn_iff hchain).mp hlive with ⟨hmem, hserved⟩
  have hkeys : live.entries.map Prod.fst = List.range' lo (hi - lo) := by
    apply List.Pairwise.eq_of_mem_iff (List.pairwise_map.mpr live.sorted)
      List.pairwise_lt_range'
    intro height
    rw [List.mem_range'_1, Nat.add_sub_cancel' hle, ← Set.mem_Ico, hmem]
    simp
  have hlength : live.entries.length = hi - lo := by
    rw [← List.length_map Prod.fst, hkeys, List.length_range']
  rw [List.forall₂_iff_get]
  refine ⟨hlength.trans (length_segment hhi).symm, ?_⟩
  intro i hi' hi''
  rcases hserved _ (List.getElem_mem hi') with ⟨served, hat, hrecord⟩
  have hkey : (live.entries[i]).1 = lo + i := by
    have hget : (live.entries.map Prod.fst)[i]? = some (lo + i) := by
      rw [hkeys, List.getElem?_range' (by lia), Nat.one_mul]
    rw [List.getElem?_map, List.getElem?_eq_getElem hi'] at hget
    exact Option.some.inj hget
  have hsegment : ((chain.take hi).drop lo)[i]? = some served := by
    rw [List.getElem?_drop, List.getElem?_take_of_lt (by lia), ← hkey]
    exact hat
  rw [List.getElem?_eq_getElem hi''] at hsegment
  change RecordsBlock live.entries[i] ((chain.take hi).drop lo)[i]
  rw [Option.some.inj hsegment]
  exact hrecord

theorem liveOn_of_records (hchain : HonestView U chain) (hle : lo ≤ hi)
    (hhi : hi ≤ chain.length)
    (hrecords : List.Forall₂ RecordsBlock live.entries ((chain.take hi).drop lo)) :
    LiveOn live chain (Set.Ico lo hi) := by
  rcases mem_added_iff hchain hrecords with ⟨hserved, hall⟩
  have hend : lo + live.entries.length = hi := by
    rw [hrecords.length_eq, length_segment hhi, Nat.add_sub_cancel' hle]
  rw [hend] at hserved hall
  refine (liveOn_iff hchain).mpr ⟨?_, fun e he => (hserved e he).right⟩
  intro height
  constructor
  · intro hheight
    exact hall height hheight.1 hheight.2
  · rintro ⟨block, hblock⟩
    exact (hserved _ hblock).left

namespace HashTableDb

theorem Mirrors.len_eq {db : HashTableDb} (hchain : HonestView U chain)
    (h : db.Mirrors chain (Set.Ico lo hi)) (hle : lo ≤ hi) (hhi : hi ≤ chain.length) :
    db.len = nullifierTotal chain lo hi := by
  rcases h with ⟨live, hrep, hlive⟩
  exact hrep.total.trans (totalNullifiers_of_records (hlive.records hchain hle hhi))

/-- Eviction keeps the blocks from some height on: as many as fit the target size. -/
theorem Mirrors.evictToTarget_spec {db : HashTableDb} (hchain : HonestView U chain)
    (h : db.Mirrors chain (Set.Ico lo hi)) (hle : lo ≤ hi) (hhi : hi ≤ chain.length) :
    exists db' k, db.evictToTarget = some db' ∧ lo ≤ k ∧ k ≤ hi ∧
      db'.Mirrors chain (Set.Ico k hi) ∧ nullifierTotal chain k hi ≤ targetSize ∧
      (k = lo ∨ exists block, lo < k ∧ chain[k - 1]? = some block ∧
        targetSize < (extractNullifiers block).length + nullifierTotal chain k hi) := by
  rcases h with ⟨live, hrep, hlive⟩
  rcases represents_evictToTarget hrep with ⟨db', hevict, hrep'⟩
  have hrecords := hlive.records hchain hle hhi
  rcases LiveBlocks.trimEntries_spec targetSize live.entries with
    ⟨dropped, hsplit, hfits, hlast⟩
  let kept := LiveBlocks.trimEntries targetSize live.entries
  change live.entries = dropped ++ kept at hsplit
  have hlength : dropped.length + kept.length = hi - lo := by
    rw [← length_segment hhi, ← hrecords.length_eq, hsplit, List.length_append]
  have hkept : List.Forall₂ RecordsBlock kept
      ((chain.take hi).drop (lo + dropped.length)) := by
    have hdrop := List.forall₂_drop dropped.length hrecords
    rw [hsplit, List.drop_left, List.drop_drop] at hdrop
    exact hdrop
  have htotal : nullifierTotal chain (lo + dropped.length) hi =
      LiveBlocks.totalNullifiers kept := (totalNullifiers_of_records hkept).symm
  refine ⟨db', lo + dropped.length, hevict, Nat.le_add_right _ _, by lia,
    ⟨_, hrep', liveOn_of_records hchain (by lia) hhi hkept⟩, ?_, ?_⟩
  · rw [htotal]
    exact hfits
  · rcases hlast with hnone | ⟨front, last, hdropped, hover⟩
    · left
      rw [hnone, List.length_nil, Nat.add_zero]
    · right
      have hcount : dropped.length = front.length + 1 := by
        rw [hdropped, List.length_append, List.length_singleton]
      have hentry : front.length < live.entries.length := by
        rw [hsplit, List.length_append]
        lia
      have hlastEntry : live.entries[front.length] = last := by
        simp [hsplit, hdropped]
      have hsegment : front.length < ((chain.take hi).drop lo).length :=
        hrecords.length_eq ▸ hentry
      have hrecord : RecordsBlock live.entries[front.length]
          ((chain.take hi).drop lo)[front.length] := hrecords.get hentry hsegment
      rw [hlastEntry] at hrecord
      have hblock := List.getElem?_eq_getElem hsegment
      rw [List.getElem?_drop, List.getElem?_take_of_lt (by lia)] at hblock
      refine ⟨_, by lia, (show lo + dropped.length - 1 = lo + front.length by lia) ▸ hblock, ?_⟩
      rw [htotal, ← hrecord.2.2, List.length_map]
      exact hover

end HashTableDb

/-!
## Chains that fit the buckets
-/

/-- The number of nullifiers of a block that hash to bucket b. -/
def bucketLoad (b : Fin numBuckets) (block : CompactBlock) : Nat :=
  (extractNullifiers block).countP (fun nf => decide (hashToBucket nf = b))

/-- No bucket gets more nullifiers from the whole chain than it has slots. -/
def FitsBuckets (chain : ChainView) : Prop :=
  forall b, (chain.map (bucketLoad b)).sum ≤ bucketCapacity

theorem hashingTo_eq_bucketLoad {nullifiers : List NullifierWithMeta} {block : CompactBlock}
    (h : nullifiers.map NullifierWithMeta.nullifier = extractNullifiers block)
    (b : Fin numBuckets) : hashingTo b nullifiers = bucketLoad b block := by
  rw [bucketLoad, ← h, List.countP_map]
  rfl

theorem LiveOn.inBucket_add_le {heights : Set Nat} {height : Nat} {block : CompactBlock}
    (hlive : LiveOn live chain heights) (hblock : chain[height]? = some block)
    (hfresh : height ∉ heights) (b : Fin numBuckets) :
    live.inBucket b + bucketLoad b block ≤ (chain.map (bucketLoad b)).sum := by
  let load : Nat -> Nat := fun i => (chain[i]?.map (bucketLoad b)).getD 0
  let keys := live.entries.map Prod.fst
  have hchain : (List.range chain.length).map load = chain.map (bucketLoad b) := by
    apply List.ext_getElem
    · rw [List.length_map, List.length_range, List.length_map]
    · intro i _ hi
      rw [List.length_map] at hi
      simp [load, hi]
  have hkeys : live.inBucket b = (keys.map load).sum := by
    rw [LiveBlocks.inBucket, List.map_map]
    congr 1
    apply List.map_congr_left
    intro e he
    rcases hlive.blocks e.1 e.2 (OrderedMap.mem_entries_iff.mp he) with
      ⟨served, hserved, _, hnullifiers⟩
    change _ = (chain[e.1]?.map (bucketLoad b)).getD 0
    rw [hserved]
    exact hashingTo_eq_bucketLoad hnullifiers b
  have hnodup : (height :: keys).Nodup := by
    apply List.nodup_cons.mpr
    constructor
    · intro hmem
      rcases List.mem_map.mp hmem with ⟨e, he, heq⟩
      apply hfresh
      rw [← heq]
      exact (hlive.mem_iff e.1).mpr ⟨e.2, OrderedMap.mem_entries_iff.mp he⟩
    · exact (List.pairwise_map.mpr live.sorted).imp Nat.ne_of_lt
  have hrange : (height :: keys) ⊆ List.range chain.length := by
    intro i hi
    rw [List.mem_range]
    rcases List.mem_cons.mp hi with heq | hkey
    · rw [heq]
      exact (List.getElem?_eq_some_iff.mp hblock).1
    · rcases List.mem_map.mp hkey with ⟨e, he, heq⟩
      rcases hlive.blocks e.1 e.2 (OrderedMap.mem_entries_iff.mp he) with ⟨_, hserved, _⟩
      rw [← heq]
      exact (List.getElem?_eq_some_iff.mp hserved).1
  rcases hnodup.subperm hrange with ⟨listed, hperm, hsublist⟩
  have hsum : ((height :: keys).map load).sum ≤ (chain.map (bucketLoad b)).sum := by
    rw [← hchain, ← (hperm.map load).sum_eq]
    exact (hsublist.map load).sum_le_sum (fun _ _ => Nat.zero_le _)
  have hhead : load height = bucketLoad b block := by
    change (chain[height]?.map (bucketLoad b)).getD 0 = _
    rw [hblock]
    rfl
  rw [List.map_cons, List.sum_cons, ← hkeys, hhead] at hsum
  lia

theorem HashTableDb.Mirrors.roomFor {db : HashTableDb} {heights : Set Nat} {height : Nat}
    {block : CompactBlock} {nullifiers : List NullifierWithMeta} (hfits : FitsBuckets chain)
    (h : db.Mirrors chain heights) (hblock : chain[height]? = some block)
    (hfresh : height ∉ heights) (hnonzero : NonzeroNullifiers block)
    (hnullifiers : nullifiers.map NullifierWithMeta.nullifier = extractNullifiers block) :
    HashTableDb.RoomFor db nullifiers := by
  rcases h with ⟨live, hrep, hlive⟩
  have hnonzero' : forall nwm, nwm ∈ nullifiers -> nwm.nullifier ≠ ByteVec.zeros 32 := by
    intro nwm hnwm hzero
    apply hnonzero
    rw [← hnullifiers, ← hzero]
    exact List.mem_map_of_mem hnwm
  rw [HashTableDb.roomFor_iff hnonzero']
  intro b
  have hfree := hrep.freeSlots_add b
  have hload := Nat.le_trans (hlive.inBucket_add_le hblock hfresh b) (hfits b)
  rw [hashingTo_eq_bucketLoad hnullifiers b]
  lia

theorem insertEvents_of_fits {heights : Set Nat} {start : Nat} {blocks : List CompactBlock}
    (priorTreeSize : Option UInt32) (hchain : HonestView U chain)
    (hnonzero : forall block, block ∈ chain -> NonzeroNullifiers block)
    (hfits : FitsBuckets chain) (hmirrors : hashtable.Mirrors chain heights)
    (hblocks : forall i block, blocks[i]? = some block -> chain[start + i]? = some block)
    (hfresh : forall i, i < blocks.length -> start + i ∉ heights) :
    exists synced, insertEvents hashtable (emitBlocks newBlockEvent priorTreeSize blocks) =
      .ok synced := by
  induction blocks generalizing hashtable heights start priorTreeSize with
  | nil => exact ⟨hashtable, rfl⟩
  | cons block rest ih =>
      have hblock : chain[start]? = some block := hblocks 0 block rfl
      have hnew : start ∉ heights := hfresh 0 (Nat.succ_pos _)
      have hnonzeroBlock := hnonzero block (List.mem_of_getElem? hblock)
      have hnullifiers := map_nullifier_extractNullifiersWithMeta block priorTreeSize
      have hroom := hmirrors.roomFor hfits hblock hnew hnonzeroBlock hnullifiers
      have haccepted : exists inserted, hashtable.insertBlock start (toHashArray block.hash)
          (extractNullifiersWithMeta block priorTreeSize).1 = (inserted, .ok ()) :=
        HashTableDb.insertBlock_ok_iff.mpr hroom
      rcases haccepted with ⟨inserted, hinsert⟩
      have hmirrored := HashTableDb.mirrors_insertBlock hchain hmirrors hblock hnew
        hnonzeroBlock hnullifiers hinsert
      have hrest : forall i next, rest[i]? = some next ->
          chain[start + 1 + i]? = some next := by
        intro i next hnext
        have hat := hblocks (i + 1) next hnext
        rwa [Nat.add_comm i 1, ← Nat.add_assoc] at hat
      rcases ih block.orchardTreeSize hmirrored hrest (by
        intro i hi hmem
        rcases Set.mem_insert_iff.mp hmem with heq | hold
        · lia
        · rw [Nat.add_assoc, Nat.add_comm 1 i] at hold
          exact hfresh (i + 1) (Nat.succ_lt_succ hi) hold) with ⟨synced, hsynced⟩
      refine ⟨synced, ?_⟩
      rw [emitBlocks, newBlockEvent, insertEvents, insertOrFail, hchain.height_eq hblock,
        hinsert]
      exact hsynced

end Segment
end Nullifier
end SpendabilityPir
