import Mathlib.Data.Nat.Bitwise
import Mathlib.Tactic.Ring

/-!
# Perfect binary hash trees

A tree is a leaf function together with a level-indexed combining operation; the
node at height k and index i covers the leaves from i * 2 ^ k up to
(i + 1) * 2 ^ k.  Trees stack: the nodes of one tree are the leaves of the tree
above it.
-/

namespace SpendabilityPir
namespace Foundation
namespace MerkleTree

variable {H : Type _} (combine : Nat -> H -> H -> H)

/-- The node at a height and index, where the leaves sit at level base. -/
def node (base : Nat) (leaf : Nat -> H) : Nat -> Nat -> H
  | 0, i => leaf i
  | k + 1, i =>
      combine (base + k) (node base leaf k (2 * i)) (node base leaf k (2 * i + 1))

@[simp] theorem node_zero (base : Nat) (leaf : Nat -> H) (i : Nat) :
    node combine base leaf 0 i = leaf i := rfl

theorem node_succ (base : Nat) (leaf : Nat -> H) (k i : Nat) :
    node combine base leaf (k + 1) i =
      combine (base + k) (node combine base leaf k (2 * i))
        (node combine base leaf k (2 * i + 1)) := rfl

theorem child_leaf_range {k i j c : Nat} (hc : c < 2)
    (hlo : (2 * i + c) * 2 ^ k ≤ j) (hhi : j < (2 * i + c + 1) * 2 ^ k) :
    i * 2 ^ (k + 1) ≤ j ∧ j < (i + 1) * 2 ^ (k + 1) := by
  have hpow : 2 ^ (k + 1) = 2 * 2 ^ k := Nat.pow_succ'
  have hlow : i * 2 ^ (k + 1) = 2 * i * 2 ^ k := by
    rw [hpow, Nat.mul_comm 2 i, Nat.mul_assoc]
  have hhigh : (i + 1) * 2 ^ (k + 1) = (2 * i + 2) * 2 ^ k := by
    rw [hpow, ← Nat.mul_assoc]
    congr 1
    lia
  have hmono_low : 2 * i * 2 ^ k ≤ (2 * i + c) * 2 ^ k :=
    Nat.mul_le_mul_right _ (Nat.le_add_right _ _)
  have hmono_high : (2 * i + c + 1) * 2 ^ k ≤ (2 * i + 2) * 2 ^ k :=
    Nat.mul_le_mul_right _ (by lia)
  lia

theorem node_induction {P : H -> Prop} {base : Nat} {leaf : Nat -> H}
    {k i : Nat}
    (hstep : forall l a b, l < base + k -> P a -> P b -> P (combine l a b))
    (hleaf : forall j, i * 2 ^ k ≤ j -> j < (i + 1) * 2 ^ k -> P (leaf j)) :
    P (node combine base leaf k i) := by
  induction k generalizing i with
  | zero =>
      apply hleaf i <;> simp
  | succ k ih =>
      have hstep' : forall l a b, l < base + k -> P a -> P b -> P (combine l a b) :=
        fun l a b hl => hstep l a b (by lia)
      rw [node_succ]
      apply hstep _ _ _ (by lia)
      · apply ih hstep'
        intro j hlo hhi
        have hrange := child_leaf_range (c := 0) (by lia) hlo hhi
        exact hleaf j hrange.left hrange.right
      · apply ih hstep'
        intro j hlo hhi
        have hrange := child_leaf_range (c := 1) (by lia) hlo hhi
        exact hleaf j hrange.left hrange.right

theorem node_congr {base : Nat} {leaf leaf' : Nat -> H} {k i : Nat}
    (h : forall j, i * 2 ^ k ≤ j -> j < (i + 1) * 2 ^ k -> leaf j = leaf' j) :
    node combine base leaf k i = node combine base leaf' k i := by
  induction k generalizing i with
  | zero =>
      apply h i <;> simp
  | succ k ih =>
      rw [node_succ, node_succ]
      congr 1
      · apply ih
        intro j hlo hhi
        have hrange := child_leaf_range (c := 0) (by lia) hlo hhi
        exact h j hrange.left hrange.right
      · apply ih
        intro j hlo hhi
        have hrange := child_leaf_range (c := 1) (by lia) hlo hhi
        exact h j hrange.left hrange.right

/-- The nodes at height j are the leaves of the tree above them. -/
theorem node_add (base : Nat) (leaf : Nat -> H) (j k i : Nat) :
    node combine base leaf (j + k) i =
      node combine (base + j) (node combine base leaf j) k i := by
  induction k generalizing i with
  | zero => rfl
  | succ k ih =>
      rw [← Nat.add_assoc, node_succ, node_succ, ih, ih, Nat.add_assoc]

theorem node_shift (off : Nat) {base : Nat} {leaf leaf' : Nat -> H} {k : Nat}
    (h : forall j, leaf' j = leaf (off * 2 ^ k + j)) (i : Nat) :
    node combine base leaf' k i = node combine base leaf k (off + i) := by
  induction k generalizing off i with
  | zero =>
      rw [node_zero, node_zero, h, Nat.pow_zero, Nat.mul_one]
  | succ k ih =>
      have hhalf : forall j, leaf' j = leaf (2 * off * 2 ^ k + j) := by
        intro j
        rw [h, Nat.pow_succ', ← Nat.mul_assoc, Nat.mul_comm off 2]
      rw [node_succ, node_succ, ih _ hhalf, ih _ hhalf, Nat.mul_add, Nat.add_assoc]

theorem node_eq_tower (tower : Nat -> H) {base : Nat} {leaf : Nat -> H} {k i : Nat}
    (htower : forall l, l < base + k ->
      tower (l + 1) = combine l (tower l) (tower l))
    (hleaf : forall j, i * 2 ^ k ≤ j -> j < (i + 1) * 2 ^ k ->
      leaf j = tower base) :
    node combine base leaf k i = tower (base + k) := by
  induction k generalizing i with
  | zero =>
      apply hleaf i <;> simp
  | succ k ih =>
      have htower' : forall l, l < base + k ->
          tower (l + 1) = combine l (tower l) (tower l) :=
        fun l hl => htower l (by lia)
      have hleft : node combine base leaf k (2 * i) = tower (base + k) := by
        apply ih htower'
        intro j hlo hhi
        have hrange := child_leaf_range (c := 0) (by lia) hlo hhi
        exact hleaf j hrange.left hrange.right
      have hright : node combine base leaf k (2 * i + 1) = tower (base + k) := by
        apply ih htower'
        intro j hlo hhi
        have hrange := child_leaf_range (c := 1) (by lia) hlo hhi
        exact hleaf j hrange.left hrange.right
      rw [node_succ, hleft, hright, ← Nat.add_assoc, htower _ (by lia)]

theorem node_absorb {z : H} (hleft : forall l b, combine l z b = z)
    (hright : forall l a, combine l a z = z)
    {base : Nat} {leaf : Nat -> H} {k i j : Nat}
    (hlo : i * 2 ^ k ≤ j) (hhi : j < (i + 1) * 2 ^ k) (hz : leaf j = z) :
    node combine base leaf k i = z := by
  induction k generalizing i with
  | zero =>
      have hij : i = j := by
        simp only [Nat.pow_zero, Nat.mul_one] at hlo hhi
        lia
      rw [node_zero, hij, hz]
  | succ k ih =>
      have hpow : 2 ^ (k + 1) = 2 * 2 ^ k := Nat.pow_succ'
      have hlow : i * 2 ^ (k + 1) = 2 * i * 2 ^ k := by
        rw [hpow, Nat.mul_comm 2 i, Nat.mul_assoc]
      have hhigh : (i + 1) * 2 ^ (k + 1) = (2 * i + 1 + 1) * 2 ^ k := by
        rw [hpow, ← Nat.mul_assoc]
        congr 1
        lia
      rw [hlow] at hlo
      rw [hhigh] at hhi
      rw [node_succ]
      by_cases hmid : j < (2 * i + 1) * 2 ^ k
      · rw [ih hlo hmid, hleft]
      · rw [ih (Nat.le_of_not_lt hmid) hhi, hright]

/-!
## Siblings and paths
-/

theorem xor_one_of_even (i : Nat) : (2 * i) ^^^ 1 = 2 * i + 1 := by
  have hdiv : ((2 * i) ^^^ 1) / 2 = i := by
    rw [Nat.xor_div_two]
    simp
  have hmod : ((2 * i) ^^^ 1) % 2 = 1 := by
    rw [Nat.xor_mod_two_eq]
    lia
  lia

theorem xor_one_of_odd (i : Nat) : (2 * i + 1) ^^^ 1 = 2 * i := by
  have hdiv : ((2 * i + 1) ^^^ 1) / 2 = i := by
    rw [Nat.xor_div_two]
    simp
    lia
  have hmod : ((2 * i + 1) ^^^ 1) % 2 = 0 := by
    rw [Nat.xor_mod_two_eq]
    lia
  lia

/-- Hash a leaf upward through its siblings; bit k of the index picks the side. -/
def pathRoot (base index : Nat) (sibling : Nat -> H) : Nat -> H -> H
  | 0, h => h
  | k + 1, h =>
      if (index / 2 ^ k) % 2 = 0 then
        combine (base + k) (pathRoot base index sibling k h) (sibling k)
      else
        combine (base + k) (sibling k) (pathRoot base index sibling k h)

theorem pathRoot_succ (base index : Nat) (sibling : Nat -> H) (k : Nat) (h : H) :
    pathRoot combine base index sibling (k + 1) h =
      if (index / 2 ^ k) % 2 = 0 then
        combine (base + k) (pathRoot combine base index sibling k h) (sibling k)
      else
        combine (base + k) (sibling k)
          (pathRoot combine base index sibling k h) := rfl

theorem pathRoot_congr {base index : Nat} {sibling sibling' : Nat -> H} {k : Nat}
    (h : forall j, j < k -> sibling j = sibling' j) (x : H) :
    pathRoot combine base index sibling k x =
      pathRoot combine base index sibling' k x := by
  induction k with
  | zero => rfl
  | succ k ih =>
      rw [pathRoot_succ, pathRoot_succ, ih (fun j hj => h j (by lia)),
        h k (Nat.lt_succ_self k)]

theorem pathRoot_absorb {z : H} (hleft : forall l b, combine l z b = z)
    (hright : forall l a, combine l a z = z) (base index : Nat) (sibling : Nat -> H)
    (k : Nat) : pathRoot combine base index sibling k z = z := by
  induction k with
  | zero => rfl
  | succ k ih =>
      rw [pathRoot_succ, ih, hleft, hright, ite_self]

theorem pathRoot_mod (base index : Nat) (sibling : Nat -> H) (k : Nat) (x : H) :
    pathRoot combine base (index % 2 ^ k) sibling k x =
      pathRoot combine base index sibling k x := by
  have hbit : forall j, j < k -> index % 2 ^ k / 2 ^ j % 2 = index / 2 ^ j % 2 := by
    intro j hj
    have hsplit : 2 ^ k = 2 ^ j * (2 * 2 ^ (k - j - 1)) := by
      rw [← Nat.pow_succ', ← Nat.pow_add]
      congr 1
      lia
    rw [hsplit, Nat.mod_mul_right_div_self, Nat.mod_mul_right_mod]
  generalize index % 2 ^ k = low at hbit ⊢
  induction k with
  | zero => rfl
  | succ k ih =>
      rw [pathRoot_succ, pathRoot_succ, hbit k (Nat.lt_succ_self k),
        ih (fun j hj => hbit j (Nat.lt_succ_of_lt hj))]

theorem pathRoot_induction {P : H -> Prop} {base index : Nat} {sibling : Nat -> H}
    {k : Nat} {x : H} (hstep : forall l a b, P a -> P b -> P (combine l a b)) (hx : P x)
    (hsibling : forall j, j < k -> P (sibling j)) :
    P (pathRoot combine base index sibling k x) := by
  induction k with
  | zero => exact hx
  | succ k ih =>
      have hbelow := ih (fun j hj => hsibling j (Nat.lt_succ_of_lt hj))
      have hlast := hsibling k (Nat.lt_succ_self k)
      rw [pathRoot_succ]
      split
      · exact hstep _ _ _ hbelow hlast
      · exact hstep _ _ _ hlast hbelow

theorem pathRoot_add (base index : Nat) (sibling : Nat -> H) (j k : Nat) (x : H) :
    pathRoot combine base index sibling (j + k) x =
      pathRoot combine (base + j) (index / 2 ^ j) (fun i => sibling (j + i)) k
        (pathRoot combine base index sibling j x) := by
  induction k with
  | zero => rfl
  | succ k ih =>
      rw [← Nat.add_assoc, pathRoot_succ, pathRoot_succ, ih, Nat.pow_add,
        Nat.div_div_eq_div_mul, Nat.add_assoc]

theorem pathRoot_eq_node {base : Nat} {leaf : Nat -> H} {index k : Nat}
    {sibling : Nat -> H}
    (h : forall j, j < k ->
      sibling j = node combine base leaf j ((index / 2 ^ j) ^^^ 1)) :
    pathRoot combine base index sibling k (leaf index) =
      node combine base leaf k (index / 2 ^ k) := by
  induction k with
  | zero =>
      rw [Nat.pow_zero, Nat.div_one]
      rfl
  | succ k ih =>
      have hbelow := ih (fun j hj => h j (by lia))
      have hparent : index / 2 ^ (k + 1) = index / 2 ^ k / 2 := by
        rw [Nat.pow_succ, Nat.div_div_eq_div_mul]
      rw [pathRoot_succ, hbelow, h k (Nat.lt_succ_self k), node_succ, hparent]
      generalize index / 2 ^ k = i
      split
      · next heven =>
          have hi : i = 2 * (i / 2) := by lia
          have hsib : i ^^^ 1 = 2 * (i / 2) + 1 := by
            rw [← xor_one_of_even, ← hi]
          rw [hsib, ← hi]
      · next hodd =>
          have hi : i = 2 * (i / 2) + 1 := by lia
          have hsib : i ^^^ 1 = 2 * (i / 2) := by
            rw [← xor_one_of_odd, ← hi]
          rw [hsib, ← hi]

theorem add_xor_one (a x : Nat) : (2 * a + x) ^^^ 1 = 2 * a + (x ^^^ 1) := by
  rcases Nat.even_or_odd' x with ⟨c, heven | hodd⟩
  · have hsum : 2 * a + 2 * c = 2 * (a + c) := by lia
    rw [heven, hsum, xor_one_of_even, xor_one_of_even]
    lia
  · have hsum : 2 * a + (2 * c + 1) = 2 * (a + c) + 1 := by lia
    rw [hodd, hsum, xor_one_of_odd, xor_one_of_odd]
    lia

theorem node_sibling_window {base h off i level : Nat} {leaf leaf' : Nat -> H}
    (hlevel : level < h) (hi : i < 2 ^ h)
    (hleaf : forall j, j < 2 ^ h -> leaf' j = leaf (off * 2 ^ h + j)) :
    node combine base leaf' level ((i / 2 ^ level) ^^^ 1) =
      node combine base leaf level (((off * 2 ^ h + i) / 2 ^ level) ^^^ 1) := by
  have hpos : 0 < 2 ^ level := Nat.two_pow_pos level
  have hpow : 2 ^ h = 2 * 2 ^ (h - level - 1) * 2 ^ level := by
    rw [← Nat.pow_succ', ← Nat.pow_add]
    congr 1
    lia
  have hoff : off * 2 ^ h = 2 * (off * 2 ^ (h - level - 1)) * 2 ^ level := by
    rw [hpow]
    ring
  have hindex : ((off * 2 ^ h + i) / 2 ^ level) ^^^ 1 =
      2 * (off * 2 ^ (h - level - 1)) + ((i / 2 ^ level) ^^^ 1) := by
    rw [hoff, Nat.add_comm, Nat.add_mul_div_right _ _ hpos, Nat.add_comm, add_xor_one]
  have hbound : (i / 2 ^ level) ^^^ 1 < 2 * 2 ^ (h - level - 1) := by
    rw [← Nat.pow_succ']
    apply Nat.xor_lt_two_pow
    · rw [Nat.div_lt_iff_lt_mul hpos, Nat.pow_succ', ← hpow]
      exact hi
    · exact Nat.one_lt_two_pow (Nat.succ_ne_zero _)
  have hshift : node combine base (fun j => leaf (off * 2 ^ h + j)) level
        ((i / 2 ^ level) ^^^ 1) =
      node combine base leaf level
        (2 * (off * 2 ^ (h - level - 1)) + ((i / 2 ^ level) ^^^ 1)) :=
    node_shift combine _ (fun j => by rw [hoff]) _
  rw [hindex, ← hshift]
  apply node_congr
  intro j _ hj
  apply hleaf
  have hlast : ((i / 2 ^ level ^^^ 1) + 1) * 2 ^ level ≤ 2 ^ h := by
    rw [hpow]
    exact Nat.mul_le_mul_right _ hbound
  exact Nat.lt_of_lt_of_le hj hlast

end MerkleTree
end Foundation
end SpendabilityPir
