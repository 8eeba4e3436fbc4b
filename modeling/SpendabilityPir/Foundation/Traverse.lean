import Mathlib.Data.List.GetD

/-!
# Loops that may panic

A loop over a list that stops at the first panic, either collecting results
(`List.mapM`) or threading a state (`List.foldlM`).
-/

namespace SpendabilityPir
namespace Foundation

variable {α β σ : Type _}

theorem mapM_cons_eq_some_iff {f : α -> Option β} {x : α} {xs : List α}
    {outs : List β} :
    (x :: xs).mapM f = some outs ↔
      exists b bs, f x = some b ∧ xs.mapM f = some bs ∧ outs = b :: bs := by
  rw [List.mapM_cons]
  cases f x with
  | none => simp
  | some b =>
      cases xs.mapM f with
      | none => simp
      | some bs =>
          constructor
          · intro h
            cases h
            exact ⟨b, bs, rfl, rfl, rfl⟩
          · intro h
            rcases h with ⟨_, _, hb, hbs, hout⟩
            cases hb
            cases hbs
            rw [hout]
            rfl

theorem mapM_cons_eq_none_iff {f : α -> Option β} {x : α} {xs : List α} :
    (x :: xs).mapM f = none ↔ f x = none ∨ xs.mapM f = none := by
  rw [List.mapM_cons]
  cases f x with
  | none => simp
  | some b => cases xs.mapM f <;> simp

theorem length_mapM {f : α -> Option β} {xs : List α} {outs : List β}
    (h : xs.mapM f = some outs) : outs.length = xs.length := by
  induction xs generalizing outs with
  | nil =>
      cases h
      rfl
  | cons x rest ih =>
      rcases mapM_cons_eq_some_iff.mp h with ⟨b, bs, _, hbs, hout⟩
      rw [hout, List.length_cons, ih hbs, List.length_cons]

theorem getElem?_mapM {f : α -> Option β} {xs : List α} {outs : List β}
    (h : xs.mapM f = some outs) (i : Nat) : outs[i]? = xs[i]?.bind f := by
  induction xs generalizing outs i with
  | nil =>
      cases h
      rfl
  | cons x rest ih =>
      rcases mapM_cons_eq_some_iff.mp h with ⟨b, bs, hb, hbs, hout⟩
      rw [hout]
      cases i with
      | zero => exact hb.symm
      | succ i => exact ih hbs i

theorem getElem?_mapM_range {f : Nat -> Option β} {n : Nat} {outs : List β}
    (h : (List.range n).mapM f = some outs) {i : Nat} (hi : i < n) :
    outs[i]? = f i := by
  rw [getElem?_mapM h, List.getElem?_range hi]
  rfl

theorem mem_mapM {f : α -> Option β} {xs : List α} {outs : List β}
    (h : xs.mapM f = some outs) {b : β} (hb : b ∈ outs) :
    exists x, x ∈ xs ∧ f x = some b := by
  rcases List.getElem?_of_mem hb with ⟨i, hi⟩
  rw [getElem?_mapM h] at hi
  rcases Option.bind_eq_some_iff.mp hi with ⟨x, hx, hcall⟩
  exact ⟨x, List.mem_of_getElem? hx, hcall⟩

theorem mapM_eq_none {f : α -> Option β} {xs : List α} (h : xs.mapM f = none) :
    exists x, x ∈ xs ∧ f x = none := by
  induction xs with
  | nil => cases h
  | cons x rest ih =>
      rcases mapM_cons_eq_none_iff.mp h with hx | hrest
      · exact ⟨x, List.mem_cons_self, hx⟩
      · rcases ih hrest with ⟨y, hy, hnone⟩
        exact ⟨y, List.mem_cons_of_mem x hy, hnone⟩

theorem mapM_isSome {f : α -> Option β} {xs : List α}
    (h : forall x, x ∈ xs -> exists b, f x = some b) :
    exists outs, xs.mapM f = some outs := by
  cases hmap : xs.mapM f with
  | some outs => exact ⟨outs, rfl⟩
  | none =>
      rcases mapM_eq_none hmap with ⟨x, hx, hnone⟩
      rcases h x hx with ⟨b, hb⟩
      rw [hnone] at hb
      cases hb

theorem mapM_range_eq_some {f : Nat -> Option β} {n : Nat} {outs : List β}
    (hlen : outs.length = n) (h : forall i, i < n -> outs[i]? = f i) :
    (List.range n).mapM f = some outs := by
  have hall : exists results, (List.range n).mapM f = some results := by
    apply mapM_isSome
    intro i hi
    have hlt := List.mem_range.mp hi
    refine ⟨outs[i], ?_⟩
    rw [← h i hlt, List.getElem?_eq_getElem]
  rcases hall with ⟨results, hresults⟩
  have hsame : results = outs := by
    apply List.ext_getElem?
    intro i
    by_cases hi : i < n
    · rw [getElem?_mapM_range hresults hi, h i hi]
    · have hlength : results.length = n := by
        rw [length_mapM hresults, List.length_range]
      rw [List.getElem?_eq_none (by lia), List.getElem?_eq_none (by lia)]
  rw [hresults, hsame]

theorem mapM_congr {f g : α -> Option β} {xs : List α}
    (h : forall x, x ∈ xs -> f x = g x) : xs.mapM f = xs.mapM g := by
  induction xs with
  | nil => rfl
  | cons x rest ih =>
      rw [List.mapM_cons, List.mapM_cons, h x List.mem_cons_self,
        ih (fun y hy => h y (List.mem_cons_of_mem x hy))]

theorem mapM_map {γ : Type _} (f : α -> Option β) (g : β -> γ) (xs : List α) :
    xs.mapM (fun x => (f x).map g) = (xs.mapM f).map (List.map g) := by
  induction xs with
  | nil => rfl
  | cons x rest ih =>
      rw [List.mapM_cons, List.mapM_cons, ih]
      cases f x with
      | none => rfl
      | some b => cases rest.mapM f <;> rfl

/-- A loop whose step makes one call, keeps an invariant when the call returns and
panics when it panics, collects the results of the calls in its invariant. -/
theorem foldlM_of_mapM (f : α -> Option β) (step : σ -> α -> Option σ)
    (Inv : List α -> List β -> σ -> Prop) (xs : List α)
    (hsome : forall done outs s x b, x ∈ xs -> Inv done outs s -> f x = some b ->
      exists s', step s x = some s' ∧ Inv (done ++ [x]) (outs ++ [b]) s')
    (hnone : forall done outs s x, x ∈ xs -> Inv done outs s -> f x = none ->
      step s x = none)
    {done : List α} {outs : List β} {s : σ} (hs : Inv done outs s) :
    (forall results, xs.mapM f = some results ->
      exists s', xs.foldlM step s = some s' ∧ Inv (done ++ xs) (outs ++ results) s') ∧
    (xs.mapM f = none -> xs.foldlM step s = none) := by
  induction xs generalizing done outs s with
  | nil =>
      constructor
      · intro results hresults
        have hempty : results = [] := (Option.some.inj hresults).symm
        rw [hempty, List.append_nil, List.append_nil]
        exact ⟨s, rfl, hs⟩
      · intro hfalse
        cases hfalse
  | cons x rest ih =>
      have ihrest : forall {done : List α} {outs : List β} {s : σ},
          Inv done outs s -> _ :=
        ih (fun d o t y b hy => hsome d o t y b (List.mem_cons_of_mem x hy))
          (fun d o t y hy => hnone d o t y (List.mem_cons_of_mem x hy))
      constructor
      · intro results hresults
        rcases mapM_cons_eq_some_iff.mp hresults with ⟨b, bs, hb, hbs, hout⟩
        rcases hsome done outs s x b List.mem_cons_self hs hb with ⟨mid, hstep, hmid⟩
        rcases (ihrest hmid).left bs hbs with ⟨s', hfold, hs'⟩
        refine ⟨s', ?_, ?_⟩
        · rw [List.foldlM_cons, hstep]
          exact hfold
        · rw [List.append_assoc, List.append_assoc] at hs'
          rw [hout]
          exact hs'
      · intro hnothing
        rw [List.foldlM_cons]
        cases hx : f x with
        | none =>
            rw [hnone done outs s x List.mem_cons_self hs hx]
            rfl
        | some b =>
            rcases hsome done outs s x b List.mem_cons_self hs hx with
              ⟨mid, hstep, hmid⟩
            rcases mapM_cons_eq_none_iff.mp hnothing with hfalse | hrest
            · rw [hx] at hfalse
              cases hfalse
            · rw [hstep]
              exact (ihrest hmid).right hrest

theorem flatMap_range_flatMap (a b : Nat) (f : Nat -> List α) :
    (List.range a).flatMap (fun i => (List.range b).flatMap (fun j => f (i * b + j))) =
      (List.range (a * b)).flatMap f := by
  induction a with
  | zero => simp
  | succ a ih =>
      rw [List.range_succ, List.flatMap_append, ih, List.flatMap_singleton,
        Nat.succ_mul, List.range_add, List.flatMap_append, List.flatMap_map]

theorem flatMap_range_map (a b : Nat) (f : Nat -> α) :
    (List.range a).flatMap (fun i => (List.range b).map (fun j => f (i * b + j))) =
      (List.range (a * b)).map f := by
  have hblocks := flatMap_range_flatMap a b (fun n => [f n])
  simpa only [List.flatMap_singleton', ← List.map_eq_flatMap] using hblocks

theorem map_range_getD (xs : List α) (default : α) (n : Nat) :
    (List.range n).map (fun j => xs.getD j default) =
      xs.take n ++ List.replicate (n - xs.length) default := by
  apply List.ext_getElem
  · simp only [List.length_map, List.length_range, List.length_append,
      List.length_take, List.length_replicate]
    lia
  · intro j hj hj'
    have hn : j < n := by simpa using hj
    rw [List.getElem_map, List.getElem_range, List.getD_eq_getElem?_getD]
    by_cases hlt : j < xs.length
    · rw [List.getElem_append_left (by rw [List.length_take]; lia),
        List.getElem_take, List.getElem?_eq_getElem hlt]
      rfl
    · rw [List.getElem_append_right (by rw [List.length_take]; lia),
        List.getElem_replicate, List.getElem?_eq_none (by lia)]
      rfl

end Foundation
end SpendabilityPir
