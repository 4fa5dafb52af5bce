import Mathlib.Data.Nat.Count
import Mathlib.Logic.Function.Iterate
import SurveyReport.Proofs.Chart.Arrange

/-!
# Arranging again and again

An item is placed when it stands where the order has its name. A swap puts one more item in its place
and moves none out of its own, so that arranging makes progress until all items that have a place are
in it. As every time places one more item at least, there are no more of these times than items.

Results:
* `getElem?_arrange_of_placed`: what is in its place stays there.
* `arrange_eq_self`: if all items are in their places, none of them moves.
* `settled_lt_arrange`: otherwise more of them are in their places than before.
* `arrange_progress`: the same about the items, and where arranging again and again leads to.
-/

namespace SurveyReport

/-! ## Settled positions -/

namespace Places

variable {place place' : Nat → Option Nat} {n : Nat}

/-- How many of the first positions are the places of their own items. -/
def settled (place : Nat → Option Nat) (n : Nat) : Nat := Nat.count (fun p => place p = some p) n

theorem settled_mono (h : ∀ p, place p = some p → place' p = some p) :
    settled place n ≤ settled place' n :=
  Nat.count_mono_left fun p _ => h p

theorem settled_lt (h : ∀ p, place p = some p → place' p = some p) {t : Nat} (ht : t < n)
    (hold : place t ≠ some t) (hnew : place' t = some t) : settled place n < settled place' n := by
  obtain ⟨m, rfl⟩ := Nat.exists_eq_add_of_lt ht
  have hfront : settled place t ≤ settled place' t := settled_mono h
  have hbehind : Nat.count (fun k => place (t + 1 + k) = some (t + 1 + k)) m ≤
      Nat.count (fun k => place' (t + 1 + k) = some (t + 1 + k)) m :=
    Nat.count_mono_left fun k _ => h (t + 1 + k)
  have hsplit : t + m + 1 = t + 1 + m := by omega
  unfold settled at hfront ⊢
  rw [hsplit, Nat.count_add, Nat.count_succ, Nat.count_add _ (t + 1), Nat.count_succ, if_neg hold,
    if_pos hnew]
  omega

end Places

open Places

section Orders

variable {α : Type} {order : List String} {key : α → String}

theorem placeAt_lt {items : List α} {p t : Nat} (h : placeAt order key items p = some t) :
    t < items.length := by
  obtain ⟨-, -, -, hlt⟩ := placeAt_eq_some_iff.mp h
  exact hlt

theorem lt_of_placeAt {items : List α} {p t : Nat} (h : placeAt order key items p = some t) :
    p < items.length := by
  obtain ⟨_, hitem, -⟩ := placeAt_eq_some_iff.mp h
  exact (List.getElem?_eq_some_iff.mp hitem).1

theorem placeAt_congr {items items' : List α} (hlength : items'.length = items.length) {p : Nat}
    (hp : items'[p]? = items[p]?) : placeAt order key items' p = placeAt order key items p := by
  simp only [placeAt, hlength, hp]

/-! ## One visit -/

/-- An item that is in its place, or has none, is not moved by the visit to it. -/
theorem moveToPlace_eq_self {items : Array α} {i : Nat}
    (h : ∀ t, placeAt order key items.toList i = some t → t = i) :
    moveToPlace order key items i = items := by
  cases hplace : placeAt order key items.toList i with
  | none => exact moveToPlace_of_none hplace
  | some t =>
    obtain rfl := h t hplace
    refine Array.ext_getElem? fun p => ?_
    rw [getElem?_moveToPlace hplace]
    split_ifs with hp
    · rw [hp]
    · rfl

/-- No visit moves an item out of its place: the place is not that of another item. -/
theorem getElem?_moveToPlace_of_placed {items : Array α} (hnodup : (items.toList.map key).Nodup)
    {p : Nat} (hp : placeAt order key items.toList p = some p) (i : Nat) :
    (moveToPlace order key items i)[p]? = items[p]? := by
  cases hplace : placeAt order key items.toList i with
  | none => rw [moveToPlace_of_none hplace]
  | some t =>
    rw [getElem?_moveToPlace hplace]
    split_ifs with hpt hpi
    · subst hpt
      rw [placeAt_injective hnodup i p p hplace hp]
    · subst hpi
      exact absurd (Option.some.inj (hp.symm.trans hplace)) hpt
    · rfl

theorem length_moveToPlace (items : Array α) (i : Nat) :
    (moveToPlace order key items i).toList.length = items.toList.length := by
  simpa using (moveToPlace_perm order key items i).size_eq

theorem nodup_moveToPlace {items : Array α} (hnodup : (items.toList.map key).Nodup) (i : Nat) :
    ((moveToPlace order key items i).toList.map key).Nodup :=
  ((Array.perm_iff_toList_perm.mp (moveToPlace_perm order key items i)).map key).nodup_iff.mpr hnodup

theorem placeAt_moveToPlace_of_placed {items : Array α} (hnodup : (items.toList.map key).Nodup)
    {p : Nat} (hp : placeAt order key items.toList p = some p) (i : Nat) :
    placeAt order key (moveToPlace order key items i).toList p = some p := by
  rw [placeAt_congr (length_moveToPlace items i), hp]
  simpa using getElem?_moveToPlace_of_placed hnodup hp i

/-- A visit to an item that is out of its place puts it there. -/
theorem settled_lt_moveToPlace {items : Array α} (hnodup : (items.toList.map key).Nodup) {i t : Nat}
    (hplace : placeAt order key items.toList i = some t) (hne : t ≠ i) :
    settled (placeAt order key items.toList) items.toList.length <
      settled (placeAt order key (moveToPlace order key items i).toList) items.toList.length := by
  refine settled_lt (fun p hp => placeAt_moveToPlace_of_placed hnodup hp i) (placeAt_lt hplace) ?_ ?_
  · intro ht
    exact hne (placeAt_injective hnodup t i t ht hplace)
  · rw [placeAt_moveToPlace, moved_apply hplace, if_pos rfl]

/-! ## All visits -/

theorem foldl_moveToPlace_eq_self {items : Array α} {positions : List Nat}
    (h : ∀ i ∈ positions, ∀ t, placeAt order key items.toList i = some t → t = i) :
    positions.foldl (moveToPlace order key) items = items := by
  induction positions with
  | nil => rfl
  | cons i positions ih =>
    obtain ⟨hi, hrest⟩ := List.forall_mem_cons.mp h
    rw [List.foldl_cons, moveToPlace_eq_self hi, ih hrest]

theorem getElem?_foldl_of_placed {items : Array α} (hnodup : (items.toList.map key).Nodup) {p : Nat}
    (hp : placeAt order key items.toList p = some p) (positions : List Nat) :
    (positions.foldl (moveToPlace order key) items)[p]? = items[p]? := by
  induction positions generalizing items with
  | nil => rfl
  | cons i positions ih =>
    rw [List.foldl_cons, ih (nodup_moveToPlace hnodup i) (placeAt_moveToPlace_of_placed hnodup hp i),
      getElem?_moveToPlace_of_placed hnodup hp]

theorem length_foldl_moveToPlace (items : Array α) (positions : List Nat) :
    (positions.foldl (moveToPlace order key) items).toList.length = items.toList.length := by
  simpa using (foldl_moveToPlace_perm order key positions items).size_eq

theorem settled_le_foldl {items : Array α} (hnodup : (items.toList.map key).Nodup)
    (positions : List Nat) (n : Nat) :
    settled (placeAt order key items.toList) n ≤
      settled (placeAt order key (positions.foldl (moveToPlace order key) items).toList) n := by
  refine settled_mono fun p hp => ?_
  rw [placeAt_congr (length_foldl_moveToPlace items positions), hp]
  simpa using getElem?_foldl_of_placed hnodup hp positions

/-- All items that have a place are in it. -/
def AllPlaced (order : List String) (key : α → String) (items : List α) : Prop :=
  ∀ p t, placeAt order key items p = some t → t = p

theorem arrange_eq_self {items : List α} (h : AllPlaced order key items) :
    arrange order key items = items := by
  rw [arrange, foldl_moveToPlace_eq_self fun i _ => h i]

theorem getElem?_arrange_of_placed {items : List α} (hnodup : (items.map key).Nodup) {p : Nat}
    (hp : placeAt order key items p = some p) : (arrange order key items)[p]? = items[p]? := by
  have hkept := @getElem?_foldl_of_placed _ order key items.toArray hnodup p hp
    (List.range items.length)
  simpa [arrange] using hkept

/-- The first item that is out of its place gets there, as nothing moves before. -/
theorem settled_lt_arrange {items : List α} (hnodup : (items.map key).Nodup)
    (h : ¬ AllPlaced order key items) :
    settled (placeAt order key items) items.length <
      settled (placeAt order key (arrange order key items)) items.length := by
  classical
  have hout : ∃ p t, placeAt order key items p = some t ∧ t ≠ p := by
    simpa [AllPlaced] using h
  obtain ⟨t, ht, hne⟩ := Nat.find_spec hout
  have hbefore : ∀ i < Nat.find hout, ∀ t, placeAt order key items i = some t → t = i := by
    intro i hi t ht
    by_contra hti
    exact Nat.find_min hout hi ⟨t, ht, hti⟩
  generalize Nat.find hout = first at ht hne hbefore
  obtain ⟨m, hm⟩ := Nat.exists_eq_add_of_lt (lt_of_placeAt ht)
  have hstill : (List.range first).foldl (moveToPlace order key) items.toArray = items.toArray :=
    foldl_moveToPlace_eq_self fun i hi => hbefore i (List.mem_range.mp hi)
  have hrun : arrange order key items =
      (((List.range m).map (first + 1 + ·)).foldl (moveToPlace order key)
        (moveToPlace order key items.toArray first)).toList := by
    rw [arrange, hm, Nat.add_right_comm, List.range_add, List.range_succ, List.foldl_append,
      List.foldl_append, hstill, List.foldl_cons, List.foldl_nil]
  rw [hrun]
  have hvisit := @settled_lt_moveToPlace _ order key items.toArray hnodup first t ht hne
  exact hvisit.trans_le (settled_le_foldl (nodup_moveToPlace hnodup first) _ _)

/-! ## Items -/

variable (order key) in
/-- The order names the item at an index below the number of items; the first index of the name
    counts. -/
def IsNamed (places : Nat) (item : α) : Prop :=
  ∃ t < places, order.findIdx? (· == key item) = some t

variable (order key) in
/-- The items that stand at the first index of their name in the order. -/
def placed (items : List α) : List α :=
  (List.range items.length).filterMap fun p =>
    items[p]?.filter fun item => order.findIdx? (· == key item) = some p

theorem mem_placed {items : List α} {item : α} :
    item ∈ placed order key items ↔
      ∃ p, items[p]? = some item ∧ order.findIdx? (· == key item) = some p := by
  simp only [placed, List.mem_filterMap, List.mem_range, Option.filter_eq_some_iff,
    decide_eq_true_eq]
  refine exists_congr fun p => and_iff_right_of_imp fun h => ?_
  exact (List.getElem?_eq_some_iff.mp h.1).1

theorem length_placed (items : List α) :
    (placed order key items).length = settled (placeAt order key items) items.length := by
  rw [placed, List.length_filterMap_eq_countP, settled, Nat.count]
  refine List.countP_congr fun p hp => ?_
  simp only [Option.isSome_iff_exists, Option.filter_eq_some_iff, decide_eq_true_eq,
    placeAt_eq_some_iff]
  exact exists_congr fun item =>
    ⟨fun h => ⟨h.1, h.2, List.mem_range.mp hp⟩, fun h => ⟨h.1, h.2.1⟩⟩

/-- All items that have a place are in it just when all that are named are placed. -/
theorem allPlaced_iff {items : List α} (hnodup : (items.map key).Nodup) :
    AllPlaced order key items ↔
      ∀ item ∈ items, IsNamed order key items.length item → item ∈ placed order key items := by
  constructor
  · rintro h item hitem ⟨t, hlt, ht⟩
    obtain ⟨p, hp⟩ := List.getElem?_of_mem hitem
    obtain rfl := h p t (placeAt_eq_some_iff.mpr ⟨item, hp, ht, hlt⟩)
    exact mem_placed.mpr ⟨t, hp, ht⟩
  · intro h p t hpt
    obtain ⟨item, hp, ht, hlt⟩ := placeAt_eq_some_iff.mp hpt
    obtain ⟨q, hq, hqt⟩ := mem_placed.mp (h item (List.mem_of_getElem? hp) ⟨t, hlt, ht⟩)
    obtain rfl : t = q := Option.some.inj (ht.symm.trans hqt)
    exact placeAt_injective hnodup t p t (placeAt_eq_some_iff.mpr ⟨item, hq, ht, hlt⟩) hpt

theorem placed_subset_arrange {items : List α} (hnodup : (items.map key).Nodup) :
    placed order key items ⊆ placed order key (arrange order key items) := by
  intro item hitem
  obtain ⟨p, hp, ht⟩ := mem_placed.mp hitem
  have hplace : placeAt order key items p = some p :=
    placeAt_eq_some_iff.mpr ⟨item, hp, ht, (List.getElem?_eq_some_iff.mp hp).1⟩
  exact mem_placed.mpr ⟨p, (getElem?_arrange_of_placed hnodup hplace).trans hp, ht⟩

theorem length_placed_lt_arrange {items : List α} (hnodup : (items.map key).Nodup)
    (h : ¬ AllPlaced order key items) :
    (placed order key items).length < (placed order key (arrange order key items)).length := by
  rw [length_placed, length_placed, (arrange_perm order key items).length_eq]
  exact settled_lt_arrange hnodup h

theorem nodup_arrange {items : List α} (hnodup : (items.map key).Nodup) :
    ((arrange order key items).map key).Nodup :=
  ((arrange_perm order key items).map key).nodup_iff.mpr hnodup

/-! ## Again and again -/

theorem iterate_arrange_perm (items : List α) (n : Nat) :
    ((arrange order key)^[n] items).Perm items := by
  induction n with
  | zero => exact .refl _
  | succ n ih =>
    rw [Function.iterate_succ_apply']
    exact (arrange_perm order key _).trans ih

/-- Each time places one more item, and there are no more of them than positions. -/
theorem allPlaced_iterate_arrange {items : List α} (hnodup : (items.map key).Nodup) {n : Nat}
    (h : items.length ≤ n + (placed order key items).length) :
    AllPlaced order key ((arrange order key)^[n] items) := by
  induction n generalizing items with
  | zero =>
    rw [length_placed, Nat.zero_add] at h
    have hall : Nat.count (fun p => placeAt order key items p = some p) items.length =
        items.length := Nat.le_antisymm (Nat.count_le _) h
    intro p t hp
    have hsame := Nat.count_iff_forall.mp hall p (lt_of_placeAt hp)
    exact Option.some.inj (hp.symm.trans hsame)
  | succ n ih =>
    rw [Function.iterate_succ_apply]
    by_cases hall : AllPlaced order key items
    · rw [arrange_eq_self hall, Function.iterate_fixed (arrange_eq_self hall)]
      exact hall
    · have hlt := length_placed_lt_arrange hnodup hall
      have hlength := (arrange_perm order key items).length_eq
      exact ih (nodup_arrange hnodup) (by omega)

/-- **Arranging makes progress.** Items with names of their own are neither lost nor copied, and what
    is placed stays placed. If an item that the order names within range is not placed, more items are
    placed than before, and nothing changes just when there is no such item. Arranging as many times
    as there are items, or more, leads to items that stay as they are, each that is named within range
    at its index. -/
theorem arrange_progress {items : List α} (h : (items.map key).Nodup) :
    let after := arrange order key items
    after.Perm items ∧
      placed order key items ⊆ placed order key after ∧
      ((∃ item ∈ items, IsNamed order key items.length item ∧ item ∉ placed order key items) →
        (placed order key items).length < (placed order key after).length) ∧
      (after = items ↔
        ∀ item ∈ items, IsNamed order key items.length item → item ∈ placed order key items) ∧
      ∀ n, items.length ≤ n →
        let final := (arrange order key)^[n] items
        final.Perm items ∧ arrange order key final = final ∧
          ∀ item ∈ items, ∀ t < items.length, order.findIdx? (· == key item) = some t →
            final[t]? = some item := by
  intro after
  have hprogress := @length_placed_lt_arrange _ order key items h
  refine ⟨arrange_perm order key items, placed_subset_arrange h, ?_, ?_, ?_⟩
  · rintro ⟨item, hitem, hnamed, hout⟩
    exact hprogress fun hall => hout ((allPlaced_iff h).mp hall item hitem hnamed)
  · rw [← allPlaced_iff h]
    refine ⟨fun hsame => ?_, arrange_eq_self⟩
    by_contra hall
    have hlt := hprogress hall
    rw [show arrange order key items = items from hsame] at hlt
    exact Nat.lt_irrefl _ hlt
  · intro n hn final
    have hperm : final.Perm items := iterate_arrange_perm items n
    have hall : AllPlaced order key final := allPlaced_iterate_arrange h (by omega)
    refine ⟨hperm, arrange_eq_self hall, fun item hitem t hlt ht => ?_⟩
    obtain ⟨p, hp⟩ := List.getElem?_of_mem (hperm.mem_iff.mpr hitem)
    have hplace := placeAt_eq_some_iff.mpr ⟨item, hp, ht, hperm.length_eq.symm ▸ hlt⟩
    obtain rfl := hall p t hplace
    exact hp

end Orders

/-- An order that is longer than the list and has a name twice. One time places three of five items,
    and a second time the other two. -/
theorem arrange_progress_often :
    let order := ["never", "rarely", "sometimes", "often", "always", "never", "hourly"]
    let items := ["always", "never", "often", "rarely", "sometimes"]
    (items.map id).Nodup ∧
      (placed order id items).length < (placed order id (arrange order id items)).length ∧
      arrange order id items = ["never", "sometimes", "rarely", "often", "always"] ∧
      ∀ n, 5 ≤ n → ((arrange order id)^[n] items)[1]? = some "rarely" := by
  intro order items
  have hnodup : (items.map id).Nodup := by decide
  have halways : IsNamed order id items.length "always" := ⟨4, by decide, by decide⟩
  have hout : "always" ∉ placed order id items := by decide
  obtain ⟨-, -, hmore, -, hfinal⟩ := @arrange_progress _ order id items hnodup
  refine ⟨hnodup, hmore ⟨"always", by decide, halways, hout⟩, by decide +kernel, fun n hn => ?_⟩
  obtain ⟨-, -, hplaced⟩ := hfinal n hn
  exact hplaced "rarely" (by decide) 1 (by decide) (by decide)

end SurveyReport
