import Mathlib.Data.List.DropRight
import Mathlib.Data.List.Induction

/-!
# Lists of growing keys

A bound splits a list of growing keys into a front and a back, which is what cutting it
from the end at the bound leaves and removes.
-/

namespace SpendabilityPir
namespace Foundation

variable {α : Type _}

theorem filter_le_append_filter_gt {key : α -> Nat} {xs : List α}
    (h : xs.Pairwise (fun a b => key a < key b)) (bound : Nat) :
    xs.filter (fun a => decide (key a ≤ bound)) ++
      xs.filter (fun a => decide (bound < key a)) = xs := by
  induction xs with
  | nil => rfl
  | cons x rest ih =>
      rcases List.pairwise_cons.mp h with ⟨hhead, htail⟩
      by_cases hle : key x ≤ bound
      · have hnot : ¬ bound < key x := Nat.not_lt_of_le hle
        simp [hle, hnot, ih htail]
      · have hlt : bound < key x := Nat.lt_of_not_le hle
        have hall : forall a, a ∈ rest -> bound < key a :=
          fun a ha => Nat.lt_trans hlt (hhead a ha)
        have hnone : rest.filter (fun a => decide (key a ≤ bound)) = [] := by
          apply List.filter_eq_nil_iff.mpr
          intro a ha
          simpa using hall a ha
        have hevery : rest.filter (fun a => decide (bound < key a)) = rest := by
          apply List.filter_eq_self.mpr
          intro a ha
          exact decide_eq_true (hall a ha)
        simp [hle, hlt, hnone, hevery]

theorem rdropWhile_append {p : α -> Bool} {kept dropped : List α}
    (hkept : forall a, a ∈ kept -> p a = false)
    (hdropped : forall a, a ∈ dropped -> p a = true) :
    (kept ++ dropped).rdropWhile p = kept := by
  induction dropped using List.reverseRecOn with
  | nil =>
      rw [List.append_nil, List.rdropWhile_eq_self_iff]
      intro hne hlast
      rw [hkept _ (List.getLast_mem hne)] at hlast
      cases hlast
  | append_singleton rest last ih =>
      have hlast := hdropped last (List.mem_append_right _ (List.mem_singleton.mpr rfl))
      rw [← List.append_assoc, List.rdropWhile_concat_pos _ _ _ hlast]
      exact ih (fun a ha => hdropped a (List.mem_append_left _ ha))

theorem rdropWhile_gt_eq_filter_le {key : α -> Nat} {xs : List α}
    (h : xs.Pairwise (fun a b => key a < key b)) (bound : Nat) :
    xs.rdropWhile (fun a => decide (bound < key a)) =
      xs.filter (fun a => decide (key a ≤ bound)) := by
  have hsplit := filter_le_append_filter_gt h bound
  have hkept : forall a, a ∈ xs.filter (fun a => decide (key a ≤ bound)) ->
      decide (bound < key a) = false := by
    intro a ha
    exact decide_eq_false (Nat.not_lt_of_le (of_decide_eq_true (List.mem_filter.mp ha).right))
  have hdropped : forall a, a ∈ xs.filter (fun a => decide (bound < key a)) ->
      decide (bound < key a) = true :=
    fun a ha => (List.mem_filter.mp ha).right
  have hdrop := rdropWhile_append hkept hdropped
  rw [hsplit] at hdrop
  exact hdrop

end Foundation
end SpendabilityPir
