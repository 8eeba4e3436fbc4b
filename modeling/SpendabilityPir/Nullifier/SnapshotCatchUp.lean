import SpendabilityPir.Nullifier.SpendStartup
import SpendabilityPir.Nullifier.SpendSync

/-!
# Catching up from a snapshot

The blocks fetched after a restart extend the live blocks of the snapshot, and the
eviction then drops the oldest.  So whether the result is canonical is decided by the
snapshot's blocks that survive the eviction.
-/

namespace SpendabilityPir
namespace Nullifier

open Foundation Shared

namespace LiveBlocks

/-!
## Survivors
-/

theorem totalNullifiers_cons (e : Nat × LiveBlock) (rest : List (Nat × LiveBlock)) :
    totalNullifiers (e :: rest) = e.2.nullifiers.length + totalNullifiers rest := by
  rw [totalNullifiers, List.map_cons, List.sum_cons]
  rfl

theorem totalNullifiers_append (xs ys : List (Nat × LiveBlock)) :
    totalNullifiers (xs ++ ys) = totalNullifiers xs + totalNullifiers ys := by
  rw [totalNullifiers, List.map_append, List.sum_append]
  rfl

theorem trimEntries_of_le {limit : Nat} {entries : List (Nat × LiveBlock)}
    (h : totalNullifiers entries ≤ limit) : trimEntries limit entries = entries := by
  cases entries with
  | nil => rfl
  | cons e rest => rw [trimEntries, if_neg (Nat.not_lt_of_le h)]

theorem trimEntries_append (limit : Nat) (xs ys : List (Nat × LiveBlock)) :
    trimEntries limit (xs ++ ys) =
      if totalNullifiers ys ≤ limit then
        trimEntries (limit - totalNullifiers ys) xs ++ ys
      else trimEntries limit ys := by
  induction xs with
  | nil =>
      split
      · next hle => exact trimEntries_of_le hle
      · rfl
  | cons e rest ih =>
      have htotal : totalNullifiers (e :: (rest ++ ys)) =
          totalNullifiers (e :: rest) + totalNullifiers ys :=
        totalNullifiers_append (e :: rest) ys
      rw [List.cons_append, trimEntries, ih, htotal]
      by_cases hle : totalNullifiers ys ≤ limit
      · rw [if_pos hle, if_pos hle, trimEntries]
        by_cases hgt : totalNullifiers (e :: rest) > limit - totalNullifiers ys
        · rw [if_pos hgt, if_pos (by lia)]
        · rw [if_neg hgt, if_neg (by lia)]
          rfl
      · rw [if_neg hle, if_neg hle, if_pos (by lia)]

/-- The live blocks that fit the target size together with the nullifiers that come in
after them. -/
def survivors (live : LiveBlocks) (incoming : Nat) : LiveBlocks :=
  { entries :=
      if incoming ≤ targetSize then trimEntries (targetSize - incoming) live.entries else []
    sorted := by
      split
      · exact live.sorted.sublist (trimEntries_suffix _ _).sublist
      · exact List.Pairwise.nil }

theorem survivors_suffix (live : LiveBlocks) (incoming : Nat) :
    (live.survivors incoming).entries.IsSuffix live.entries := by
  unfold survivors
  dsimp only
  split
  · exact trimEntries_suffix _ _
  · exact List.nil_suffix

theorem evictToTarget_entries {live caughtUp : LiveBlocks} {added : List (Nat × LiveBlock)}
    (h : caughtUp.entries = live.entries ++ added) :
    caughtUp.evictToTarget.entries =
      (live.survivors (totalNullifiers added)).entries ++ trimEntries targetSize added := by
  change trimEntries targetSize caughtUp.entries = _
  rw [h, trimEntries_append, survivors]
  dsimp only
  split
  · next hle => rw [trimEntries_of_le hle]
  · rfl

end LiveBlocks

/-!
## Extending the snapshot
-/

namespace HashTableDb

theorem represents_insertServed {U : BlockUniverse} {db db' : HashTableDb}
    {live : LiveBlocks} {block : CompactBlock} {nullifiers : List NullifierWithMeta}
    (hrep : db.Represents live) (hserved : WereServed U live)
    (hbelow : forall e, e ∈ live.entries -> e.1 < block.height.toNat)
    (hblock : U.Served block) (hnonzero : NonzeroNullifiers block)
    (hnullifiers : nullifiers.map NullifierWithMeta.nullifier = extractNullifiers block)
    (hinsert : db.insertBlock block.height.toNat (toHashArray block.hash) nullifiers =
      (db', .ok ())) :
    exists live' added, db'.Represents live' ∧ live'.entries = live.entries ++ [added] ∧
      RecordsBlock added block := by
  have hlookup : live.find? block.height.toNat = none := by
    apply OrderedMap.find?_eq_none_iff.mpr
    intro found hmem
    exact Nat.lt_irrefl _ (hbelow _ hmem)
  have hnonzero' : forall nwm, nwm ∈ nullifiers -> nwm.nullifier ≠ ByteVec.zeros 32 := by
    intro nwm hnwm hzero
    apply hnonzero
    rw [← hnullifiers, ← hzero]
    exact List.mem_map_of_mem hnwm
  exact ⟨_,
    (block.height.toNat, { hash := toHashArray block.hash, nullifiers := nullifiers }),
    represents_insertBlock hrep (UInt64.toNat_lt _)
      ((hrep.find?_none_iff _).mpr hlookup) (hrep.hash_fresh hserved hblock hlookup)
      hnonzero' hinsert,
    OrderedMap.insert_entries_of_lt _ hbelow, rfl, rfl, hnullifiers⟩

theorem represents_insertEvents {U : BlockUniverse} {db db' : HashTableDb}
    {live : LiveBlocks} {blocks : List CompactBlock} {priorTreeSize : Option UInt32}
    (hrep : db.Represents live) (hserved : WereServed U live)
    (hbelow : forall e, e ∈ live.entries -> forall block, block ∈ blocks ->
      e.1 < block.height.toNat)
    (hgrowing : blocks.Pairwise (fun a b => a.height.toNat < b.height.toNat))
    (hblocks : forall block, block ∈ blocks -> U.Served block ∧ NonzeroNullifiers block)
    (h : insertEvents db (emitBlocks newBlockEvent priorTreeSize blocks) = .ok db') :
    exists live' added, db'.Represents live' ∧ live'.entries = live.entries ++ added ∧
      List.Forall₂ RecordsBlock added blocks := by
  apply insertEvents_induction (P := fun front mid => exists live' added,
      HashTableDb.Represents mid live' ∧ live'.entries = live.entries ++ added ∧
        List.Forall₂ RecordsBlock added front) _ (List.nil_append blocks) h
  · exact ⟨live, [], hrep, (List.append_nil _).symm, List.Forall₂.nil⟩
  · intro front block mid inserted nullifiers hpre hfront hnullifiers hinsert
    rcases hfront with ⟨live', added, hrep', hentries, hrecords⟩
    have hmem : block ∈ blocks := hpre.mem (List.mem_append_right _ List.mem_cons_self)
    have hrise := (List.pairwise_append.mp (hgrowing.sublist hpre.sublist)).2.2
    have hof : forall e, e ∈ added -> exists earlier, earlier ∈ front ∧
        RecordsBlock e earlier := by
      intro e he
      rcases List.mem_iff_getElem.mp he with ⟨i, hi, heq⟩
      have hi' : i < front.length := hrecords.length_eq ▸ hi
      have hrecord := hrecords.get hi hi'
      change RecordsBlock added[i] front[i] at hrecord
      rw [heq] at hrecord
      exact ⟨front[i], List.getElem_mem hi', hrecord⟩
    have hserved' : WereServed U live' := by
      intro e he
      rw [hentries] at he
      rcases List.mem_append.mp he with hold | hnew
      · exact hserved e hold
      · rcases hof e hnew with ⟨earlier, hearlier, hrecord⟩
        exact ⟨earlier, (hblocks earlier (hpre.mem (List.mem_append_left _ hearlier))).1,
          hrecord⟩
    have hbelow' : forall e, e ∈ live'.entries -> e.1 < block.height.toNat := by
      intro e he
      rw [hentries] at he
      rcases List.mem_append.mp he with hold | hnew
      · exact hbelow e hold block hmem
      · rcases hof e hnew with ⟨earlier, hearlier, hrecord⟩
        rw [hrecord.1]
        exact hrise earlier hearlier block List.mem_cons_self
    rcases represents_insertServed hrep' hserved' hbelow' (hblocks block hmem).1
      (hblocks block hmem).2 hnullifiers hinsert with ⟨live'', last, hrep'', hconcat, hlast⟩
    refine ⟨live'', added ++ [last], hrep'', ?_, ?_⟩
    · rw [hconcat, hentries, List.append_assoc]
    · exact List.rel_append hrecords (List.Forall₂.cons hlast List.Forall₂.nil)

end HashTableDb

/-!
## Canonical survivors
-/

section Canonical

variable {U : BlockUniverse} {chain : ChainView} {start stop : Nat}
  {added : List (Nat × LiveBlock)}

theorem mem_added_iff (hchain : HonestView U chain)
    (hadded : List.Forall₂ RecordsBlock added ((chain.take stop).drop start)) :
    (forall e, e ∈ added -> (start ≤ e.1 ∧ e.1 < start + added.length) ∧
      exists served, chain[e.1]? = some served ∧ RecordsBlock e served) ∧
    forall height, start ≤ height -> height < start + added.length ->
      exists live, (height, live) ∈ added := by
  have hlength := hadded.length_eq
  have hentry : forall i (hi : i < added.length), exists served,
      chain[start + i]? = some served ∧ RecordsBlock added[i] served := by
    intro i hi
    have hi' : i < ((chain.take stop).drop start).length := hlength ▸ hi
    refine ⟨((chain.take stop).drop start)[i], ?_, hadded.get hi hi'⟩
    have hget := List.getElem?_eq_getElem hi'
    rw [List.getElem?_drop] at hget
    rw [← hget, List.getElem?_take_of_lt]
    rw [List.length_drop, List.length_take] at hi'
    lia
  constructor
  · intro e he
    rcases List.mem_iff_getElem.mp he with ⟨i, hi, heq⟩
    rcases hentry i hi with ⟨served, hserved, hrecord⟩
    rw [heq] at hrecord
    have hheight : e.1 = start + i := hrecord.1.trans (hchain.height_eq hserved)
    rw [hheight]
    exact ⟨⟨Nat.le_add_right _ _, Nat.add_lt_add_left hi _⟩, served, hserved, hrecord⟩
  · intro height hge hlt
    have hi : height - start < added.length := by lia
    rcases hentry _ hi with ⟨served, hserved, hrecord⟩
    have hheight := hrecord.1.trans (hchain.height_eq hserved)
    rw [Nat.add_sub_cancel' hge] at hheight
    have hpair : (height, added[height - start].2) = added[height - start] :=
      Prod.ext hheight.symm rfl
    exact ⟨added[height - start].2, hpair ▸ List.getElem_mem hi⟩

theorem liveOn_iff (hchain : HonestView U chain) {live : LiveBlocks} {heights : Set Nat} :
    LiveOn live chain heights ↔
      (forall height, height ∈ heights ↔ exists block, (height, block) ∈ live.entries) ∧
      forall e, e ∈ live.entries -> exists served, chain[e.1]? = some served ∧
        RecordsBlock e served := by
  constructor
  · intro h
    constructor
    · intro height
      rw [h.mem_iff]
      simp [OrderedMap.mem_entries_iff]
    · intro e he
      rcases h.blocks e.1 e.2 (OrderedMap.mem_entries_iff.mp he) with
        ⟨served, hserved, hhash, hnullifiers⟩
      exact ⟨served, hserved, (hchain.height_eq hserved).symm, hhash, hnullifiers⟩
  · intro h
    constructor
    · intro height
      rw [h.1]
      simp [OrderedMap.mem_entries_iff]
    · intro height block hfind
      rcases h.2 (height, block) (OrderedMap.mem_entries_iff.mpr hfind) with
        ⟨served, hserved, _, hhash, hnullifiers⟩
      exact ⟨served, hserved, hhash, hnullifiers⟩

variable {live caughtUp : LiveBlocks}

theorem liveOn_of_no_survivors (hchain : HonestView U chain)
    (hadded : List.Forall₂ RecordsBlock added ((chain.take stop).drop start))
    (hentries : caughtUp.entries = live.entries ++ added)
    (hnone : (live.survivors (LiveBlocks.totalNullifiers added)).entries = []) :
    exists lo hi, LiveOn caughtUp.evictToTarget chain (Set.Ico lo hi) := by
  have hevict := LiveBlocks.evictToTarget_entries hentries
  rw [hnone, List.nil_append] at hevict
  have hsuffix := LiveBlocks.trimEntries_suffix targetSize added
  have hsorted : added.Pairwise (fun a b => a.1 < b.1) := by
    have hall := caughtUp.sorted
    rw [hentries] at hall
    exact (List.pairwise_append.mp hall).2.1
  rcases HashTableDb.exists_threshold hsorted hsuffix with ⟨threshold, hkept⟩
  rcases mem_added_iff hchain hadded with ⟨hcanonical, hall⟩
  refine ⟨max start threshold, start + added.length, (liveOn_iff hchain).mpr ⟨?_, ?_⟩⟩
  · intro height
    rw [hevict]
    constructor
    · intro hheight
      rw [Set.mem_Ico, Nat.max_le] at hheight
      rcases hall height hheight.1.1 hheight.2 with ⟨block, hblock⟩
      exact ⟨block, (hkept _).mpr ⟨hblock, hheight.1.2⟩⟩
    · intro hmem
      rcases hmem with ⟨block, hblock⟩
      rcases (hkept _).mp hblock with ⟨hin, hthreshold⟩
      rw [Set.mem_Ico, Nat.max_le]
      rcases (hcanonical _ hin).1 with ⟨hge, hlt⟩
      exact ⟨⟨hge, hthreshold⟩, hlt⟩
  · intro e he
    rw [hevict] at he
    exact (hcanonical e ((hkept e).mp he).1).2

theorem entries_of_survivors (hentries : caughtUp.entries = live.entries ++ added)
    (hsome : (live.survivors (LiveBlocks.totalNullifiers added)).entries ≠ []) :
    caughtUp.evictToTarget.entries =
      (live.survivors (LiveBlocks.totalNullifiers added)).entries ++ added := by
  rw [LiveBlocks.evictToTarget_entries hentries]
  congr 1
  apply LiveBlocks.trimEntries_of_le
  apply Classical.byContradiction
  intro hgt
  apply hsome
  exact if_neg hgt

theorem newest_survives {incoming : Nat}
    (hsome : (live.survivors incoming).entries ≠ []) {newest : Nat × LiveBlock}
    (hmem : newest ∈ live.entries)
    (hmax : forall e, e ∈ live.entries -> e.1 ≤ newest.1) :
    newest ∈ (live.survivors incoming).entries := by
  rcases HashTableDb.exists_threshold live.sorted (live.survivors_suffix incoming) with
    ⟨threshold, hkept⟩
  rcases List.exists_mem_of_ne_nil _ hsome with ⟨e, he⟩
  rcases (hkept e).mp he with ⟨hin, hthreshold⟩
  exact (hkept newest).mpr ⟨hmem, Nat.le_trans hthreshold (hmax e hin)⟩

theorem liveOn_survivors {kept : LiveBlocks} {newest : Nat × LiveBlock} {lo hi : Nat}
    (hchain : HonestView U chain)
    (hadded : List.Forall₂ RecordsBlock added ((chain.take stop).drop start))
    (hentries : caughtUp.entries = kept.entries ++ added)
    (hmem : newest ∈ kept.entries) (hstart : newest.1 + 1 = start)
    (hmax : forall e, e ∈ kept.entries -> e.1 ≤ newest.1)
    (hlive : LiveOn caughtUp chain (Set.Ico lo hi)) :
    LiveOn kept chain (Set.Ico lo start) := by
  rcases (liveOn_iff hchain).mp hlive with ⟨hheights, hblocks⟩
  rcases mem_added_iff hchain hadded with ⟨hcanonical, _⟩
  rw [hentries] at hheights hblocks
  have hhi : newest.1 < hi :=
    ((hheights newest.1).mpr ⟨newest.2, List.mem_append_left _ hmem⟩).2
  refine (liveOn_iff hchain).mpr ⟨?_, ?_⟩
  · intro height
    constructor
    · intro hheight
      have hbelow : height < hi := by
        have hlt := hheight.2
        lia
      rcases (hheights height).mp ⟨hheight.1, hbelow⟩ with ⟨block, hblock⟩
      rcases List.mem_append.mp hblock with hkept | hnew
      · exact ⟨block, hkept⟩
      · exact absurd (hcanonical _ hnew).1.1 (Nat.not_le_of_lt hheight.2)
    · intro hkept
      rcases hkept with ⟨block, hblock⟩
      have hin := (hheights height).mpr ⟨block, List.mem_append_left _ hblock⟩
      rw [← hstart]
      exact ⟨hin.1, Nat.lt_succ_of_le (hmax _ hblock)⟩
  · intro e he
    exact hblocks e (List.mem_append_left _ he)

theorem liveOn_extended {kept : LiveBlocks} {newest : Nat × LiveBlock} {lo hi : Nat}
    (hchain : HonestView U chain)
    (hadded : List.Forall₂ RecordsBlock added ((chain.take stop).drop start))
    (hentries : caughtUp.entries = kept.entries ++ added)
    (hmem : newest ∈ kept.entries) (hstart : newest.1 + 1 = start)
    (hmax : forall e, e ∈ kept.entries -> e.1 ≤ newest.1)
    (hlive : LiveOn kept chain (Set.Ico lo hi)) :
    LiveOn caughtUp chain (Set.Ico lo (start + added.length)) := by
  rcases (liveOn_iff hchain).mp hlive with ⟨hheights, hblocks⟩
  rcases mem_added_iff hchain hadded with ⟨hcanonical, hall⟩
  rcases (hheights newest.1).mpr ⟨newest.2, hmem⟩ with ⟨hlo, hlt⟩
  have hhi : hi = start := by
    have hpred : hi - 1 ∈ Set.Ico lo hi := ⟨by lia, by lia⟩
    rcases (hheights (hi - 1)).mp hpred with ⟨block, hblock⟩
    have hle := hmax _ hblock
    change hi - 1 ≤ newest.1 at hle
    lia
  rw [hhi] at hheights
  refine (liveOn_iff hchain).mpr ⟨?_, ?_⟩
  · intro height
    rw [hentries]
    constructor
    · intro hheight
      by_cases hbelow : height < start
      · rcases (hheights height).mp ⟨hheight.1, hbelow⟩ with ⟨block, hblock⟩
        exact ⟨block, List.mem_append_left _ hblock⟩
      · rcases hall height (Nat.le_of_not_lt hbelow) hheight.2 with ⟨block, hblock⟩
        exact ⟨block, List.mem_append_right _ hblock⟩
    · intro hfound
      rcases hfound with ⟨block, hblock⟩
      rcases List.mem_append.mp hblock with hkept | hnew
      · have hin := (hheights height).mpr ⟨block, hkept⟩
        exact ⟨hin.1, Nat.lt_add_right _ hin.2⟩
      · rcases (hcanonical _ hnew).1 with ⟨hge, hnewlt⟩
        change start ≤ height at hge
        exact ⟨by lia, hnewlt⟩
  · intro e he
    rw [hentries] at he
    rcases List.mem_append.mp he with hkept | hnew
    · exact hblocks e hkept
    · exact (hcanonical e hnew).2

theorem liveOn_catchUp_iff (hchain : HonestView U chain)
    (hadded : List.Forall₂ RecordsBlock added ((chain.take stop).drop start))
    (hentries : caughtUp.entries = live.entries ++ added)
    (hnewest : live.entries = [] ∨ exists newest, newest ∈ live.entries ∧
      newest.1 + 1 = start ∧ forall e, e ∈ live.entries -> e.1 ≤ newest.1) :
    (exists lo hi, LiveOn caughtUp.evictToTarget chain (Set.Ico lo hi)) ↔
      exists lo hi, LiveOn (live.survivors (LiveBlocks.totalNullifiers added)) chain
        (Set.Ico lo hi) := by
  have hsuffix := live.survivors_suffix (LiveBlocks.totalNullifiers added)
  by_cases hnone : (live.survivors (LiveBlocks.totalNullifiers added)).entries = []
  · constructor
    · intro _
      exact ⟨0, 0, (liveOn_iff hchain).mpr ⟨by simp [hnone], by simp [hnone]⟩⟩
    · intro _
      exact liveOn_of_no_survivors hchain hadded hentries hnone
  · have hevict := entries_of_survivors hentries hnone
    rcases hnewest with hempty | ⟨newest, hmem, hstart, hmax⟩
    · rw [hempty] at hsuffix
      exact absurd (List.suffix_nil.mp hsuffix) hnone
    · have hlast := newest_survives hnone hmem hmax
      have hmaxKept : forall e,
          e ∈ (live.survivors (LiveBlocks.totalNullifiers added)).entries ->
            e.1 ≤ newest.1 := fun e he => hmax e (hsuffix.mem he)
      constructor
      · intro hlive
        rcases hlive with ⟨lo, hi, hlive⟩
        exact ⟨lo, start, liveOn_survivors hchain hadded hevict hlast hstart hmaxKept hlive⟩
      · intro hlive
        rcases hlive with ⟨lo, hi, hlive⟩
        exact ⟨lo, _, liveOn_extended hchain hadded hevict hlast hstart hmaxKept hlive⟩

end Canonical

/-!
## The table after a restart
-/

namespace HashTableDb

theorem HoldsBlock.unique {buckets : Fin numBuckets -> Bucket} {height : Nat}
    {record : BlockRecord} {block block' : LiveBlock}
    (h : HoldsBlock buckets height record block)
    (h' : HoldsBlock buckets height record block') : block = block' := by
  have hnullifiers : forall (slots : List (Nat × Nat)) (xs ys : List NullifierWithMeta),
      List.Forall₂ (HoldsEntry buckets (UInt32.ofNat height)) slots xs ->
      List.Forall₂ (HoldsEntry buckets (UInt32.ofNat height)) slots ys -> xs = ys := by
    intro slots xs ys hxs
    induction hxs generalizing ys with
    | nil =>
        intro hys
        cases hys
        rfl
    | @cons slot x rest xs' hx _ ih =>
        intro hys
        cases hys with
        | @cons _ y _ ys' hy hrest =>
            have hentry : entryOf (UInt32.ofNat height) x =
                entryOf (UInt32.ofNat height) y := hx.2.symm.trans hy.2
            have hsame : x = y := by
              cases x
              cases y
              cases hentry
              rfl
            rw [hsame, ih ys' hrest]
  cases block
  cases block'
  have hhash := h.1.symm.trans h'.1
  have hlist := hnullifiers _ _ _ h.2 h'.2
  cases hhash
  cases hlist
  rfl

theorem Represents.unique {db : HashTableDb} {live live' : LiveBlocks}
    (h : db.Represents live) (h' : db.Represents live') : live = live' := by
  apply OrderedMap.ext_find?
  intro height
  have hrel := h.records height
  have hrel' := h'.records height
  generalize db.blockIndex.find? height = record at hrel hrel'
  generalize live.find? height = block at hrel
  generalize live'.find? height = block' at hrel'
  cases hrel with
  | some hblock =>
      cases hrel' with
      | some hblock' => rw [hblock.unique hblock']
  | none =>
      cases hrel'
      rfl

theorem Represents.mirrors_iff {db : HashTableDb} {live : LiveBlocks} {chain : ChainView}
    {heights : Set Nat} (hrep : db.Represents live) :
    db.Mirrors chain heights ↔ LiveOn live chain heights := by
  constructor
  · intro hmirrors
    rcases hmirrors with ⟨live', hrep', hlive⟩
    rw [hrep.unique hrep']
    exact hlive
  · intro hlive
    exact ⟨live, hrep, hlive⟩

/-- The live blocks are the blocks of a chain from some height through the latest one. -/
def HoldsThroughLatest (db : HashTableDb) (chain : ChainView) : Prop :=
  exists lo, db.Mirrors chain (Set.Ico lo ((db.latestHeight.map Nat.succ).getD 0))

/-- An interval of live heights ends at the latest one. -/
theorem holdsThroughLatest_iff {db : HashTableDb} {chain : ChainView} :
    db.HoldsThroughLatest chain ↔ exists lo hi, db.Mirrors chain (Set.Ico lo hi) := by
  constructor
  · intro h
    rcases h with ⟨lo, hmirrors⟩
    exact ⟨lo, _, hmirrors⟩
  · intro h
    rcases h with ⟨lo, hi, hmirrors⟩
    cases hlatest : db.latestHeight with
    | none =>
        have hempty := hmirrors.latestHeight_none hlatest
        refine ⟨0, ?_⟩
        rw [hlatest]
        change db.Mirrors chain (Set.Ico 0 0)
        rw [Set.Ico_self, ← hempty]
        exact hmirrors
    | some latest =>
        refine ⟨lo, ?_⟩
        rw [hlatest]
        change db.Mirrors chain (Set.Ico lo (latest + 1))
        rw [← hmirrors.latestHeight_Ico hlatest]
        exact hmirrors

theorem Represents.newest {db : HashTableDb} {live : LiveBlocks}
    (hrep : db.Represents live) :
    (db.latestHeight = none ∧ live.entries = []) ∨ exists newest, newest ∈ live.entries ∧
      db.latestHeight = some newest.1 ∧
      forall e, e ∈ live.entries -> e.1 ≤ newest.1 := by
  cases hlast : db.blockIndex.last? with
  | none =>
      left
      rw [latestHeight, hlast]
      refine ⟨rfl, List.eq_nil_iff_forall_not_mem.mpr ?_⟩
      intro e he
      rcases hrep.find?_record (OrderedMap.mem_entries_iff.mp he) with ⟨record, hrecord, _⟩
      rw [OrderedMap.last?_eq_none_iff.mp hlast] at hrecord
      cases hrecord
  | some last =>
      right
      rcases hrep.holds (OrderedMap.find?_of_last? hlast) with ⟨block, hfind, _⟩
      refine ⟨(last.1, block), OrderedMap.mem_entries_iff.mpr hfind, ?_, ?_⟩
      · rw [latestHeight, hlast]
        rfl
      · intro e he
        rcases hrep.find?_record (OrderedMap.mem_entries_iff.mp he) with
          ⟨record, hrecord, _⟩
        exact OrderedMap.le_of_last? hlast hrecord

end HashTableDb

def servedBlocks (connect : Nat -> Nat -> Option Connection) (snapshot : HashTableDb)
    (tipHeight : Nat) : List CompactBlock :=
  let start := SpendServer.forwardStart snapshot true tipHeight (minSyncHeight tipHeight)
  match connect start tipHeight with
  | none => []
  | some connection => fetchBatches connection start tipHeight

theorem runSyncOnly_eq_ok {σ : Type} {config : ServerConfig} {engine : PirEngine σ}
    {tipHeight : Nat} {connect : Nat -> Nat -> Option Connection}
    {snapshot hashtable : HashTableDb} {pir : PirState σ}
    (h : runSyncOnly config engine tipHeight connect (some snapshot) =
      .ok (hashtable, pir)) :
    exists synced, insertEvents snapshot (emitBlocks newBlockEvent none
        (servedBlocks connect snapshot tipHeight)) = .ok synced ∧
      synced.evictToTarget = some hashtable := by
  rcases bind_eq_ok.mp h with ⟨synced, hsync, hrest⟩
  rcases bind_eq_ok.mp hrest with ⟨filled, hfill, hpublish⟩
  rcases bind_eq_ok.mp hpublish with ⟨evicted, hevict, hrebuild⟩
  rcases bind_eq_ok.mp hrebuild with ⟨built, _, hreturn⟩
  cases hreturn
  cases hfill
  refine ⟨synced, ?_, Outcome.ofPanics_eq_ok.mp hevict⟩
  unfold servedBlocks
  dsimp only
  change syncToTip connect tipHeight (SpendServer.forwardStart snapshot true tipHeight
    (minSyncHeight tipHeight)) snapshot = _ at hsync
  generalize SpendServer.forwardStart snapshot true tipHeight (minSyncHeight tipHeight) =
    start at hsync ⊢
  unfold syncToTip at hsync
  split at hsync
  · next hle =>
      unfold syncBatch syncRange at hsync
      rw [if_neg (Nat.not_lt_of_le hle)] at hsync
      cases hconnect : connect start tipHeight with
      | none =>
          rw [hconnect] at hsync
          cases hsync
      | some connection =>
          rw [hconnect] at hsync
          exact hsync
  · next hgt =>
      cases hsync
      cases connect start tipHeight with
      | none => rfl
      | some connection =>
          dsimp only
          rw [fetchBatches_of_gt connection hgt]
          rfl

theorem totalNullifiers_of_records {added : List (Nat × LiveBlock)}
    {blocks : List CompactBlock} (h : List.Forall₂ RecordsBlock added blocks) :
    LiveBlocks.totalNullifiers added = (blocks.flatMap extractNullifiers).length := by
  induction h with
  | nil => rfl
  | cons hrecord _ ih =>
      rw [LiveBlocks.totalNullifiers_cons, ih, List.flatMap_cons, List.length_append,
        ← hrecord.2.2, List.length_map]

theorem forwardStart_of_represents {snapshot : HashTableDb} {live : LiveBlocks}
    (hrep : snapshot.Represents live) (tipHeight minHeight : Nat) :
    live.entries = [] ∨ exists newest, newest ∈ live.entries ∧
      newest.1 + 1 = SpendServer.forwardStart snapshot true tipHeight minHeight ∧
      forall e, e ∈ live.entries -> e.1 ≤ newest.1 := by
  rcases hrep.newest with ⟨_, hempty⟩ | ⟨newest, hmem, hlatest, hmax⟩
  · exact Or.inl hempty
  · refine Or.inr ⟨newest, hmem, ?_, hmax⟩
    rw [SpendServer.forwardStart, if_pos rfl, hlatest]

theorem servedBlocks_eq {U : BlockUniverse} {chain : ChainView}
    {connect : Nat -> Nat -> Option Connection} (hchain : HonestView U chain)
    (hconnect : forall fromHeight toHeight connection,
      connect fromHeight toHeight = some connection -> connection.view = chain)
    (snapshot : HashTableDb) :
    exists stop, servedBlocks connect snapshot chain.tipHeight =
      (chain.take stop).drop (SpendServer.forwardStart snapshot true chain.tipHeight
        (minSyncHeight chain.tipHeight)) := by
  unfold servedBlocks
  dsimp only
  generalize SpendServer.forwardStart snapshot true chain.tipHeight
    (minSyncHeight chain.tipHeight) = start
  cases hconnection : connect start chain.tipHeight with
  | none => exact ⟨0, by simp⟩
  | some connection =>
      have hview := hconnect _ _ _ hconnection
      rcases fetchBatches_eq (hview.symm ▸ hchain.heights) start chain.tipHeight with
        ⟨stop, _, _, heq⟩
      rw [hview] at heq
      exact ⟨stop, heq⟩

/-- A restarted server is canonical through its latest height exactly when the blocks of
its snapshot that survive the eviction are. -/
theorem restarted_holdsThroughLatest_iff {σ : Type} {U : BlockUniverse}
    {config : ServerConfig} {engine : PirEngine σ} {chain : ChainView}
    {connect : Nat -> Nat -> Option Connection} {snapshot hashtable : HashTableDb}
    {live : LiveBlocks} {pir : PirState σ} (hchain : HonestView U chain)
    (hnonzero : forall block, block ∈ chain -> NonzeroNullifiers block)
    (hconnect : forall fromHeight toHeight connection,
      connect fromHeight toHeight = some connection -> connection.view = chain)
    (hrep : snapshot.Represents live) (hserved : WereServed U live)
    (h : runSyncOnly config engine chain.tipHeight connect (some snapshot) =
      .ok (hashtable, pir)) :
    hashtable.HoldsThroughLatest chain ↔
      exists lo hi, LiveOn
        (live.survivors ((servedBlocks connect snapshot chain.tipHeight).flatMap
          extractNullifiers).length) chain (Set.Ico lo hi) := by
  rcases runSyncOnly_eq_ok h with ⟨synced, hinsert, hevict⟩
  have hnewest := forwardStart_of_represents hrep chain.tipHeight
    (minSyncHeight chain.tipHeight)
  rcases servedBlocks_eq hchain hconnect snapshot with ⟨stop, hblocks⟩
  generalize servedBlocks connect snapshot chain.tipHeight = blocks at hinsert hblocks ⊢
  generalize SpendServer.forwardStart snapshot true chain.tipHeight
    (minSyncHeight chain.tipHeight) = start at hnewest hblocks
  have hsub : blocks.Sublist chain := by
    rw [hblocks]
    exact (List.drop_sublist _ _).trans (List.take_sublist _ _)
  have hbelow : forall e, e ∈ live.entries -> forall block, block ∈ blocks ->
      e.1 < block.height.toNat := by
    intro e he block hblock
    rcases hnewest with hempty | ⟨newest, _, hstart, hmax⟩
    · rw [hempty] at he
      cases he
    · rw [hblocks] at hblock
      rcases List.mem_iff_getElem?.mp hblock with ⟨i, hi⟩
      rw [List.getElem?_drop] at hi
      have hheight := hchain.height_eq (getElem?_of_isPrefix (List.take_prefix _ _) hi)
      have hle := hmax e he
      lia
  rcases HashTableDb.represents_insertEvents hrep hserved hbelow
    (hchain.pairwise_heights.sublist hsub)
    (fun block hblock => ⟨hchain.served block (hsub.mem hblock),
      hnonzero block (hsub.mem hblock)⟩) hinsert with ⟨caughtUp, added, hrep', hentries, hrecords⟩
  rcases HashTableDb.represents_evictToTarget hrep' with ⟨evicted, hevict', hrepEvicted⟩
  rw [hevict] at hevict'
  cases hevict'
  rw [HashTableDb.holdsThroughLatest_iff, ← totalNullifiers_of_records hrecords]
  simp only [hrepEvicted.mirrors_iff]
  rw [hblocks] at hrecords
  exact liveOn_catchUp_iff hchain hrecords hentries hnewest

end Nullifier
end SpendabilityPir
