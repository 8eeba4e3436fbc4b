import SpendabilityPir.Foundation.Traverse
import SpendabilityPir.Witness.MerkleHash

/-!
# Subtree roots

The server hashes a full subtree level by level over a vector, and a sparse one by
halving.  Both compute a node of the perfect tree.
-/

namespace SpendabilityPir
namespace Witness

open Foundation

variable (M : MerkleHashOrchard)

def combinePairs (level : Nat) : List Hash -> Option (List Hash)
  | left :: right :: rest => do
      let root <- hashCombine M level left right
      let roots <- combinePairs level rest
      return root :: roots
  | _ => some []

variable {M}

theorem combinePairs_cons {level : Nat} {left right : Hash} {rest : List Hash} :
    combinePairs M level (left :: right :: rest) =
      (hashCombine M level left right).bind
        (fun root => (combinePairs M level rest).map (List.cons root)) := by
  rw [combinePairs]
  cases hashCombine M level left right with
  | none => rfl
  | some root =>
      cases combinePairs M level rest <;> rfl

theorem getElem?_combinePairs {level : Nat} {nodes next : List Hash}
    (h : combinePairs M level nodes = some next) (i : Nat) :
    next[i]? = combineRoots M level nodes[2 * i]? nodes[2 * i + 1]? := by
  induction nodes using combinePairs.induct generalizing next i with
  | case1 left right rest ih =>
      rw [combinePairs_cons] at h
      rcases Option.bind_eq_some_iff.mp h with ⟨root, hroot, hrest⟩
      rcases Option.map_eq_some_iff.mp hrest with ⟨roots, hroots, heq⟩
      rw [← heq]
      cases i with
      | zero => exact hroot.symm
      | succ i =>
          have htail := ih hroots i
          rw [List.getElem?_cons_succ, htail, Nat.mul_add]
          rfl
  | case2 nodes hshort =>
      have hlen : nodes.length ≤ 1 := by
        cases nodes with
        | nil => exact Nat.zero_le 1
        | cons a rest =>
            cases rest with
            | nil => exact Nat.le_refl 1
            | cons b more => exact absurd rfl (hshort a b more)
      have hright : nodes[2 * i + 1]? = none :=
        List.getElem?_eq_none (by lia)
      rw [combinePairs] at h
      · cases h
        rw [hright, combineRoots_none_right]
        rfl
      · exact hshort

theorem length_combinePairs {level : Nat} {nodes next : List Hash}
    (h : combinePairs M level nodes = some next) :
    next.length = nodes.length / 2 := by
  induction nodes using combinePairs.induct generalizing next with
  | case1 left right rest ih =>
      rw [combinePairs_cons] at h
      rcases Option.bind_eq_some_iff.mp h with ⟨root, _, hrest⟩
      rcases Option.map_eq_some_iff.mp hrest with ⟨roots, hroots, heq⟩
      rw [← heq, List.length_cons, ih hroots, List.length_cons, List.length_cons]
      lia
  | case2 nodes hshort =>
      rw [combinePairs] at h
      · cases h
        cases nodes with
        | nil => rfl
        | cons a rest =>
            cases rest with
            | nil => exact (Nat.div_eq_of_lt Nat.one_lt_two).symm
            | cons b more => exact absurd rfl (hshort a b more)
      · exact hshort

theorem combinePairs_eq_none {level : Nat} {nodes : List Hash}
    (h : combinePairs M level nodes = none) :
    exists i, i < nodes.length / 2 ∧
      combineRoots M level nodes[2 * i]? nodes[2 * i + 1]? = none := by
  induction nodes using combinePairs.induct with
  | case1 left right rest ih =>
      rw [combinePairs_cons] at h
      cases hroot : hashCombine M level left right with
      | none =>
          refine ⟨0, ?_, hroot⟩
          rw [List.length_cons, List.length_cons]
          lia
      | some root =>
          rw [hroot] at h
          have hrest : combinePairs M level rest = none := by
            simpa using h
          rcases ih hrest with ⟨i, hi, hnone⟩
          refine ⟨i + 1, ?_, ?_⟩
          · rw [List.length_cons, List.length_cons]
            lia
          · rw [Nat.mul_add]
            exact hnone
  | case2 nodes hshort =>
      rw [combinePairs] at h
      · cases h
      · exact hshort

variable (M)

def foldLevels (level : Nat) (current : List Hash) : Option Hash :=
  if current.length > 1 then
    match _h : combinePairs M level current with
    | none => none
    | some next => foldLevels (level + 1) next
  else current[0]?
termination_by current.length
decreasing_by
  rw [length_combinePairs _h]
  lia

def completeSubtreeRoot (leaves : List Hash) (baseLevel : Nat) : Option Hash :=
  foldLevels M baseLevel leaves

variable {M}

theorem rootAt_succ_zero (base height : Nat) (leaf : Nat -> Option Hash) :
    rootAt M base leaf (height + 1) 0 =
      rootAt M (base + 1)
        (fun i => combineRoots M base (leaf (2 * i)) (leaf (2 * i + 1))) height 0 := by
  rw [Nat.add_comm height 1]
  exact MerkleTree.node_add (combineRoots M) base leaf 1 height 0

theorem foldLevels_eq_rootAt {level height : Nat} {nodes : List Hash}
    (h : nodes.length = 2 ^ height) :
    foldLevels M level nodes = rootAt M level (fun i => nodes[i]?) height 0 := by
  induction height generalizing level nodes with
  | zero =>
      have hshort : ¬ nodes.length > 1 := by
        rw [h]
        exact Nat.lt_irrefl 1
      rw [foldLevels, if_neg hshort]
      rfl
  | succ height ih =>
      have hpos : 0 < 2 ^ height := Nat.two_pow_pos height
      have hlen : nodes.length = 2 * 2 ^ height := by
        rw [h, Nat.pow_succ']
      have hlong : nodes.length > 1 := by lia
      rw [foldLevels, if_pos hlong, rootAt_succ_zero]
      split
      · next hnone =>
          rcases combinePairs_eq_none hnone with ⟨i, hi, hpair⟩
          have hupper : i < (0 + 1) * 2 ^ height := by lia
          exact (MerkleTree.node_absorb (combineRoots M)
            (combineRoots_none_left M) (combineRoots_none_right M)
            (by lia) hupper hpair).symm
      · next next hnext =>
          have hnextLen : next.length = 2 ^ height := by
            rw [length_combinePairs hnext]
            lia
          rw [ih hnextLen]
          apply MerkleTree.node_congr
          intro i _ _
          exact getElem?_combinePairs hnext i

theorem completeSubtreeRoot_eq_rootAt {base height : Nat} {leaves : List Hash}
    (h : leaves.length = 2 ^ height) :
    completeSubtreeRoot M leaves base =
      rootAt M base (fun i => leaves[i]?) height 0 :=
  foldLevels_eq_rootAt h

theorem bind_completeSubtreeRoot {f : Nat -> Option Hash} {n base height : Nat}
    (hn : n = 2 ^ height) :
    ((List.range n).mapM f).bind (fun roots => completeSubtreeRoot M roots base) =
      rootAt M base f height 0 := by
  have hupper : (0 + 1) * 2 ^ height = 2 ^ height := by lia
  cases hroots : (List.range n).mapM f with
  | none =>
      rcases mapM_eq_none hroots with ⟨i, hi, hnone⟩
      have hlt : i < (0 + 1) * 2 ^ height := by
        rw [hupper, ← hn]
        exact List.mem_range.mp hi
      exact (MerkleTree.node_absorb (combineRoots M) (combineRoots_none_left M)
        (combineRoots_none_right M) (by lia) hlt hnone).symm
  | some roots =>
      have hlen : roots.length = 2 ^ height := by
        rw [length_mapM hroots, List.length_range, hn]
      show completeSubtreeRoot M roots base = _
      rw [completeSubtreeRoot_eq_rootAt hlen]
      apply MerkleTree.node_congr
      intro i _ hi
      rw [hupper, ← hn] at hi
      exact getElem?_mapM_range hroots hi

/-!
## Sparse subtrees
-/

/-- The number of zero bits below the lowest one bit. -/
def trailingZeros (n : Nat) : Nat :=
  if n = 0 then 64
  else if n % 2 = 1 then 0
  else trailingZeros (n / 2) + 1
termination_by n
decreasing_by lia

theorem trailingZeros_two_pow (k : Nat) : trailingZeros (2 ^ k) = k := by
  induction k with
  | zero => rw [trailingZeros]; rfl
  | succ k ih =>
      have hpos : 0 < 2 ^ k := Nat.two_pow_pos k
      have hdouble : 2 ^ (k + 1) = 2 * 2 ^ k := Nat.pow_succ'
      have hhalf : 2 ^ (k + 1) / 2 = 2 ^ k := by lia
      rw [trailingZeros, if_neg (by lia), if_neg (by lia), hhalf, ih]

variable (M)

/-- Root of the subtree of the given positive size at an offset, where the positions
past the end of the leaves are empty. -/
def sparseRootRec (leaves : List Hash) (offset size baseLevel : Nat) : Option Hash :=
  if size ≤ 1 then
    if offset < leaves.length then leaves[offset]?
    else some (emptyRoots M baseLevel)
  else
    let half := size / 2
    let combineLevel := baseLevel + trailingZeros half
    let left := sparseRootRec leaves offset half baseLevel
    let right :=
      if offset + half ≥ leaves.length then some (emptyRoots M combineLevel)
      else sparseRootRec leaves (offset + half) half baseLevel
    combineRoots M combineLevel left right
termination_by size
decreasing_by all_goals lia

def sparseSubtreeRoot (populated : List Hash) (capacity baseLevel : Nat) :
    Option Hash :=
  sparseRootRec M populated 0 capacity baseLevel

def paddedLeaf (leaves : List Hash) (baseLevel i : Nat) : Option Hash :=
  if i < leaves.length then leaves[i]? else some (emptyRoots M baseLevel)

variable {M}

theorem sparseRootRec_eq_rootAt (leaves : List Hash) (base height index : Nat) :
    sparseRootRec M leaves (index * 2 ^ height) (2 ^ height) base =
      rootAt M base (paddedLeaf M leaves base) height index := by
  induction height generalizing index with
  | zero =>
      rw [Nat.pow_zero, Nat.mul_one, sparseRootRec, if_pos (Nat.le_refl 1)]
      rfl
  | succ height ih =>
      have hpos : 0 < 2 ^ height := Nat.two_pow_pos height
      have hdouble : 2 ^ (height + 1) = 2 * 2 ^ height := Nat.pow_succ'
      have hhalf : 2 ^ (height + 1) / 2 = 2 ^ height := by lia
      have hleft : index * 2 ^ (height + 1) = 2 * index * 2 ^ height := by
        rw [hdouble, ← Nat.mul_assoc, Nat.mul_comm index 2]
      have hright : index * 2 ^ (height + 1) + 2 ^ height =
          (2 * index + 1) * 2 ^ height := by
        rw [hleft, Nat.add_mul, Nat.one_mul]
      have hrightRoot :
          (if index * 2 ^ (height + 1) + 2 ^ height ≥ leaves.length then
            some (emptyRoots M (base + height))
          else sparseRootRec M leaves (index * 2 ^ (height + 1) + 2 ^ height)
            (2 ^ height) base) =
          rootAt M base (paddedLeaf M leaves base) height (2 * index + 1) := by
        rw [hright]
        split
        · next hempty =>
            apply Eq.symm
            apply rootAt_empty
            intro j hlo _
            rw [paddedLeaf, if_neg (by lia)]
        · exact ih (2 * index + 1)
      rw [sparseRootRec, if_neg (by lia)]
      simp only [hhalf, trailingZeros_two_pow]
      rw [hrightRoot, hleft, ih (2 * index)]
      rfl

theorem sparseSubtreeRoot_eq_rootAt (populated : List Hash) (base height : Nat) :
    sparseSubtreeRoot M populated (2 ^ height) base =
      rootAt M base (paddedLeaf M populated base) height 0 := by
  have hstart : 0 * 2 ^ height = 0 := Nat.zero_mul _
  rw [sparseSubtreeRoot, ← sparseRootRec_eq_rootAt, hstart]

/-- Sparse hashing of the collected results of a loop, where all calls past its end
would give the empty root. -/
theorem bind_sparseSubtreeRoot {f : Nat -> Option Hash} {n base height : Nat}
    (hn : n ≤ 2 ^ height) (hempty : forall i, n ≤ i -> f i = some (emptyRoots M base)) :
    ((List.range n).mapM f).bind
        (fun roots => sparseSubtreeRoot M roots (2 ^ height) base) =
      rootAt M base f height 0 := by
  cases hroots : (List.range n).mapM f with
  | none =>
      rcases mapM_eq_none hroots with ⟨i, hi, hnone⟩
      have hlt := List.mem_range.mp hi
      exact (MerkleTree.node_absorb (combineRoots M) (combineRoots_none_left M)
        (combineRoots_none_right M) (by lia) (by lia) hnone).symm
  | some roots =>
      have hlen : roots.length = n := by
        rw [length_mapM hroots, List.length_range]
      show sparseSubtreeRoot M roots (2 ^ height) base = _
      rw [sparseSubtreeRoot_eq_rootAt]
      apply MerkleTree.node_congr
      intro i _ _
      rw [paddedLeaf, hlen]
      split
      · next hi => exact getElem?_mapM_range hroots hi
      · next hi => exact (hempty i (Nat.le_of_not_lt hi)).symm

end Witness
end SpendabilityPir
