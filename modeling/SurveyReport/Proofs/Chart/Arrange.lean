import Mathlib.Data.List.Nodup
import SurveyReport.Chart.Arrange
import SurveyReport.Proofs.Chart.Chains

/-!
# Which orders are followed

Arranging visits each position once and swaps the item found there to the place that the order has
for its name. An item that a swap brings to the visited position is not looked at again, so that some
orders are not followed, even of those that name all items. Whether an order is followed can be told
from the chains that its places make up.

Results:
* `placeAt_moveToPlace`: the places after one swap.
* `follows_arrange_iff`: which orders are followed.
* `not_follows_arrange_often`: an order of all names that is not followed.
-/

namespace SurveyReport

open Places

section Orders

variable {α : Type} (order : List String) (key : α → String)

/-- The place that an order has for the item at a position: the first index of its name, if there are
    so many items. -/
def placeAt (items : List α) (p : Nat) : Option Nat :=
  (items[p]?.bind fun item => order.findIdx? (· == key item)).filter (· < items.length)

/-- Every item that the order names at an index below the number of items stands at this index. -/
def Follows (items : List α) : Prop :=
  ∀ item ∈ items, ∀ t < items.length, order[t]? = some (key item) → items[t]? = some item

instance [DecidableEq α] (items : List α) : Decidable (Follows order key items) :=
  inferInstanceAs <| Decidable <| ∀ item ∈ items, ∀ t < items.length,
    order[t]? = some (key item) → items[t]? = some item

variable {order key}

theorem placeAt_eq_some_iff {items : List α} {p t : Nat} :
    placeAt order key items p = some t ↔
      ∃ item, items[p]? = some item ∧ order.findIdx? (· == key item) = some t ∧
        t < items.length := by
  simp only [placeAt, Option.filter_eq_some_iff, Option.bind_eq_some_iff, decide_eq_true_eq]
  exact ⟨fun ⟨⟨item, hitem, ht⟩, hlt⟩ => ⟨item, hitem, ht, hlt⟩,
    fun ⟨item, hitem, ht, hlt⟩ => ⟨⟨item, hitem, ht⟩, hlt⟩⟩

/-- Items with names of their own have places of their own. -/
theorem placeAt_injective {items : List α} (h : (items.map key).Nodup) (p q u : Nat)
    (hp : placeAt order key items p = some u) (hq : placeAt order key items q = some u) : p = q := by
  obtain ⟨item, hitem, hu, -⟩ := placeAt_eq_some_iff.mp hp
  obtain ⟨item', hitem', hu', -⟩ := placeAt_eq_some_iff.mp hq
  obtain ⟨_, hname, -⟩ := List.findIdx?_eq_some_iff_getElem.mp hu
  obtain ⟨_, hname', -⟩ := List.findIdx?_eq_some_iff_getElem.mp hu'
  have hsame : key item = key item' := (eq_of_beq hname).symm.trans (eq_of_beq hname')
  obtain ⟨hlength, -⟩ := List.getElem?_eq_some_iff.mp hitem
  refine (List.getElem?_inj (by simpa using hlength) h).mp ?_
  simp [hitem, hitem', hsame]

theorem moveToPlace_of_none {items : Array α} {i : Nat}
    (h : placeAt order key items.toList i = none) : moveToPlace order key items i = items := by
  unfold moveToPlace
  split
  · rename_i place hplace
    have hge : ¬ place < items.size := by
      simpa [placeAt, hplace] using h
    simp [Array.swapIfInBounds_def, hge]
  · rfl

/-- An item that has a place is swapped with the one in it. -/
theorem getElem?_moveToPlace {items : Array α} {i t : Nat}
    (h : placeAt order key items.toList i = some t) (p : Nat) :
    (moveToPlace order key items i)[p]? = items[if p = t then i else if p = i then t else p]? := by
  obtain ⟨item, hitem, ht, hlt⟩ := placeAt_eq_some_iff.mp h
  obtain ⟨hi, rfl⟩ := List.getElem?_eq_some_iff.mp hitem
  simp only [Array.length_toList] at hi hlt
  have hswap : moveToPlace order key items i = items.swap i t hi hlt := by
    simp_all [moveToPlace, Array.swapIfInBounds_def]
  rw [hswap, Array.getElem?_swap]
  grind

/-- The places after the item at a position has moved. -/
theorem placeAt_moveToPlace (items : Array α) (i : Nat) :
    placeAt order key (moveToPlace order key items i).toList =
      moved (placeAt order key items.toList) i := by
  cases h : placeAt order key items.toList i with
  | none => simp [moveToPlace_of_none h, moved, h]
  | some t =>
    have hsize := (moveToPlace_perm order key items i).size_eq
    funext p
    rw [moved_apply h, placeAt, Array.getElem?_toList, getElem?_moveToPlace h, Array.length_toList,
      hsize, ← Array.getElem?_toList, ← Array.length_toList, ← placeAt]
    split_ifs with ht hi
    · exact h
    · rfl
    · rfl

/-- After some visits the chains get into order if they did so before. -/
theorem untangled_foldl {items : Array α} (h : (items.toList.map key).Nodup) (n : Nat) :
    Untangled n (placeAt order key ((List.range n).foldl (moveToPlace order key) items).toList) ↔
      Untangled 0 (placeAt order key items.toList) := by
  induction n with
  | zero => rfl
  | succ n ih =>
    have hperm := foldl_moveToPlace_perm order key (List.range n) items
    have hnodup := ((Array.perm_iff_toList_perm.mp hperm).map key).nodup_iff.mpr h
    rw [List.range_succ, List.foldl_append, List.foldl_cons, List.foldl_nil, placeAt_moveToPlace,
      untangled_moved (placeAt_injective hnodup), ih]

/-- An order is followed just when each item that has a place is in it. -/
theorem follows_iff (horder : order.Nodup) {items : List α} (h : (items.map key).Nodup) :
    Follows order key items ↔ ∀ p t, placeAt order key items p = some t → t = p := by
  have hindex : ∀ item t,
      order.findIdx? (· == key item) = some t ↔ order[t]? = some (key item) := by
    intro item t
    rw [List.findIdx?_eq_some_iff_getElem, List.getElem?_eq_some_iff]
    constructor
    · rintro ⟨hlt, hname, -⟩
      exact ⟨hlt, eq_of_beq hname⟩
    · rintro ⟨hlt, hname⟩
      refine ⟨hlt, by simp [hname], fun j hj hsame => ?_⟩
      have := (horder.getElem_inj_iff).mp ((eq_of_beq hsame).trans hname.symm)
      omega
  constructor
  · intro hfollows p t hp
    obtain ⟨item, hitem, ht, hlt⟩ := placeAt_eq_some_iff.mp hp
    have hplaced := hfollows item (List.mem_of_getElem? hitem) t hlt ((hindex _ _).mp ht)
    refine (List.getElem?_inj (by simpa using hlt) h).mp ?_
    simp [hplaced, hitem]
  · intro hplaces item hitem t hlt ht
    obtain ⟨p, hp⟩ := List.getElem?_of_mem hitem
    have := hplaces p t (placeAt_eq_some_iff.mpr ⟨item, hp, (hindex _ _).mpr ht, hlt⟩)
    exact this ▸ hp

/-- An order of all names is followed just when it is the order of the items. -/
theorem follows_iff_eq {items : List α} (hperm : (items.map key).Perm order)
    (horder : order.Nodup) : Follows order key items ↔ items.map key = order := by
  have hlength : items.length = order.length := by simpa using hperm.length_eq
  constructor
  · intro h
    refine List.ext_getElem? fun t => ?_
    by_cases hlt : t < order.length
    · obtain ⟨item, hitem, hname⟩ := List.mem_map.mp (hperm.mem_iff.mpr (List.getElem_mem hlt))
      have ht : order[t]? = some (key item) := by simp [hlt, hname]
      rw [List.getElem?_map, h item hitem t (by omega) ht, ht]
      rfl
    · rw [List.getElem?_eq_none (by simpa [hlength] using hlt), List.getElem?_eq_none (by omega)]
  · rintro rfl item hitem t hlt ht
    obtain ⟨p, hp⟩ := List.getElem?_of_mem hitem
    have hsame : t = p := (List.getElem?_inj (by simpa using hlt) horder).mp (by simp [ht, hp])
    exact hsame ▸ hp

/-- **Which orders are followed.** Items with names of their own are arranged as an order of different
    names says just when every item moves back, apart from the first one of its chain and from the
    one where the item of the first one goes. An order of all names is the order of the items just
    then. -/
theorem follows_arrange_iff (horder : order.Nodup) {items : List α} (h : (items.map key).Nodup) :
    (Follows order key (arrange order key items) ↔ Untangled 0 (placeAt order key items)) ∧
      ((items.map key).Perm order →
        ((arrange order key items).map key = order ↔ Untangled 0 (placeAt order key items))) := by
  have hperm := (arrange_perm order key items).map key
  have hfollows : Follows order key (arrange order key items) ↔
      Untangled 0 (placeAt order key items) := by
    have hbound : ∀ p t, placeAt order key (arrange order key items) p = some t →
        p < items.length := by
      intro p t ht
      obtain ⟨item, hitem, -⟩ := placeAt_eq_some_iff.mp ht
      obtain ⟨hlt, -⟩ := List.getElem?_eq_some_iff.mp hitem
      rwa [(arrange_perm order key items).length_eq] at hlt
    rw [follows_iff horder (hperm.nodup_iff.mpr h), ← untangled_end_iff hbound]
    have hnodup : (items.toArray.toList.map key).Nodup := h
    exact untangled_foldl hnodup items.length
  exact ⟨hfollows, fun hall => (follows_iff_eq (hperm.trans hall) horder).symm.trans hfollows⟩

end Orders

theorem follows_arrange_agreement :
    let order := ["strongly agree", "agree", "neutral", "disagree", "strongly disagree"]
    let items := ["agree", "disagree", "neutral", "strongly agree", "strongly disagree"]
    order.Nodup ∧ (items.map id).Nodup ∧ (arrange order id items).map id = order ∧
      Follows order id (arrange order id items) ∧ Untangled 0 (placeAt order id items) := by
  intro order items
  have horder : order.Nodup := by decide
  have hitems : (items.map id).Nodup := by decide
  have hresult : (arrange order id items).map id = order := by decide +kernel
  obtain ⟨hfollows, hall⟩ := follows_arrange_iff horder hitems
  have huntangled := (hall (by decide)).mp hresult
  exact ⟨horder, hitems, hresult, hfollows.mpr huntangled, huntangled⟩

/-- How often something is done, from the least to the most: an order of all names that is not
    followed. -/
theorem not_follows_arrange_often :
    let order := ["never", "rarely", "sometimes", "often", "always"]
    let items := ["always", "never", "often", "rarely", "sometimes"]
    order.Nodup ∧ (items.map id).Nodup ∧ (items.map id).Perm order ∧
      (arrange order id items).map id = ["never", "sometimes", "rarely", "often", "always"] ∧
      ¬ Follows order id (arrange order id items) ∧ (arrange order id items).map id ≠ order := by
  decide +kernel

end SurveyReport
