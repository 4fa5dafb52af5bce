import Mathlib.Logic.Relation
import Mathlib.Tactic.Push
import Mathlib.Tactic.SplitIfs

/-!
# Chains of places

Each position of a list can have a place: the position where its item belongs. Positions are visited
one by one from the front, and the item found there is swapped to its place. Since no two items have
one place, the positions make up chains, and a swap takes one position out of its chain, the one that
has got its item. What is left of a chain at the end was never taken out.

A chain gets into order if all of it but one position is taken out, and this can be told from the
start: its items must move back, apart from the one at its first position and from the one that this
is swapped with.

Results:
* `linked_moved`, `linked_of_moved`: what a swap does to the chains.
* `untangled_moved`: a visit keeps whether the chains get into order.
* `untangled_end_iff`: after all visits the chains are in order if every item is in its place.
-/

namespace SurveyReport.Places

/-! ## Chains -/

/-- Positions of one chain: one has its place at the other, or they are linked through such
    positions. -/
def Linked (place : Nat → Option Nat) : Nat → Nat → Prop :=
  Relation.EqvGen fun p q => place p = some q

/-- The first position of its chain. -/
def IsFirst (place : Nat → Option Nat) (p : Nat) : Prop := ∀ q, Linked place p q → p ≤ q

/-- The chains get into order by visits to the positions from `start` on. Each position is still to be
    visited and has its item move back, with two exceptions: the first position of a chain, and the
    place of the first one's item, if the first one is still to be visited. -/
def Untangled (start : Nat) (place : Nat → Option Nat) : Prop :=
  ∀ p, (start ≤ p ∧ ∃ t < p, place p = some t) ∨ IsFirst place p ∨
    ∃ first, start ≤ first ∧ IsFirst place first ∧ place first = some p

/-- The places after the item at a position has moved to its own, and the item from there to the
    position. -/
def moved (place : Nat → Option Nat) (i : Nat) : Nat → Option Nat :=
  match place i with
  | none => place
  | some t => fun p => if p = t then some t else if p = i then place t else place p

variable {place : Nat → Option Nat} {i t p q : Nat}

theorem linked_place (h : place p = some q) : Linked place p q := .rel _ _ h

theorem Linked.back (h : Linked place p q) : Linked place q p := .symm _ _ h

theorem Linked.through {r : Nat} (h : Linked place p q) (h' : Linked place q r) : Linked place p r :=
  .trans _ _ _ h h'

theorem IsFirst.unique (hp : IsFirst place p) (hq : IsFirst place q) (h : Linked place p q) :
    p = q :=
  Nat.le_antisymm (hp q h) (hq p h.back)

theorem moved_apply (h : place i = some t) (p : Nat) :
    moved place i p = if p = t then some t else if p = i then place t else place p := by
  simp [moved, h]

theorem moved_eq_self (h : ∀ t, place i = some t → t = i) : moved place i = place := by
  unfold moved
  split
  · rfl
  · rename_i t ht
    obtain rfl := h t ht
    funext p
    split_ifs with hp
    · exact hp ▸ ht.symm
    · rfl

/-! ## A swap -/

/-- A visit to the position `i`, whose item has its place at another position `t`. No two items have
    one place. -/
structure Visit (place : Nat → Option Nat) (i t : Nat) : Prop where
  injective : ∀ p q u, place p = some u → place q = some u → p = q
  place_eq : place i = some t
  ne : t ≠ i

namespace Visit

variable (v : Visit place i t)
include v

theorem moved_place : moved place i t = some t := by
  simp [moved_apply v.place_eq]

theorem moved_of_ne (ht : p ≠ t) (hi : p ≠ i) : moved place i p = place p := by
  simp [moved_apply v.place_eq, ht, hi]

theorem linked : Linked place i t := linked_place v.place_eq

/-- A swap links nothing anew. -/
theorem linked_of_moved (h : Linked (moved place i) p q) : Linked place p q := by
  induction h with
  | rel p q hpq =>
    rw [moved_apply v.place_eq] at hpq
    split_ifs at hpq with ht hi
    · cases hpq
      exact ht ▸ .refl _
    · exact hi ▸ v.linked.through (linked_place hpq)
    · exact linked_place hpq
  | refl p => exact .refl p
  | symm p q _ ih => exact ih.back
  | trans p q r _ _ ih ih' => exact ih.through ih'

/-- The position that is taken out is passed over: what was linked to it is linked to the visited
    one. -/
theorem linked_passing (h : Linked place p q) :
    Linked (moved place i) (if p = t then i else p) (if q = t then i else q) := by
  induction h with
  | rel p q hpq =>
    by_cases hqt : q = t
    · obtain rfl : p = i := v.injective p i t (hqt ▸ hpq) v.place_eq
      simp only [v.ne.symm, if_false, hqt, if_true]
      exact .refl _
    · rw [if_neg hqt]
      refine linked_place ?_
      split_ifs with hpt
      · simpa [moved_apply v.place_eq, v.ne.symm] using hpt ▸ hpq
      · have hpi : p ≠ i := fun h => hqt (Option.some.inj (hpq.symm.trans (h ▸ v.place_eq)))
        exact (v.moved_of_ne hpt hpi).trans hpq
  | refl p => exact .refl _
  | symm p q _ ih => exact ih.back
  | trans p q r _ _ ih ih' => exact ih.through ih'

/-- A swap takes one position out of its chain and leaves the others linked. -/
theorem linked_moved (h : Linked place p q) (hp : p ≠ t) (hq : q ≠ t) :
    Linked (moved place i) p q := by
  simpa [hp, hq] using v.linked_passing h

/-- The position that is taken out is in no chain but its own. -/
theorem eq_iff_of_linked_moved (h : Linked (moved place i) p q) : p = t ↔ q = t := by
  induction h with
  | rel p q hpq =>
    rw [moved_apply v.place_eq] at hpq
    split_ifs at hpq with ht hi
    · cases hpq
      simp [ht]
    · exact iff_of_false ht fun hq => v.ne (v.injective t i t (hq ▸ hpq) v.place_eq)
    · exact iff_of_false ht fun hq => hi (v.injective p i t (hq ▸ hpq) v.place_eq)
  | refl p => rfl
  | symm p q _ ih => exact ih.symm
  | trans p q r _ _ ih ih' => exact ih.trans ih'

/-! ## First positions -/

theorem isFirst_moved_place : IsFirst (moved place i) t := fun _ h =>
  Nat.le_of_eq ((v.eq_iff_of_linked_moved h).mp rfl).symm

theorem isFirst_moved_iff (hp : p ≠ t) :
    IsFirst (moved place i) p ↔ ∀ q ≠ t, Linked place p q → p ≤ q := by
  refine ⟨fun h q hq hpq => h q (v.linked_moved hpq hp hq), fun h q hpq => ?_⟩
  have hq : q ≠ t := fun hq => hp ((v.eq_iff_of_linked_moved hpq).mpr hq)
  exact h q hq (v.linked_of_moved hpq)

theorem isFirst_moved (h : IsFirst place p) : IsFirst (moved place i) p := by
  by_cases hp : p = t
  · exact hp ▸ v.isFirst_moved_place
  · exact (v.isFirst_moved_iff hp).mpr fun q _ => h q

/-- If the visited position is the first of its chain after the swap, the other chains keep their
    first positions. -/
theorem isFirst_of_moved (hi : IsFirst (moved place i) i) (hpt : p ≠ t) (hpi : p ≠ i)
    (h : IsFirst (moved place i) p) : IsFirst place p := by
  intro q hpq
  by_cases hq : q = t
  · have hlinked : Linked place p i := (hq ▸ hpq : Linked place p t).through v.linked.back
    exact absurd (h.unique hi (v.linked_moved hlinked hpt v.ne.symm)) hpi
  · exact (v.isFirst_moved_iff hpt).mp h q hq hpq

/-- If the visited position is the first of its chain after the swap, the place of its item was the
    first before, or it was so itself. -/
theorem ends_of_isFirst_moved (hi : IsFirst (moved place i) i) :
    (t < i ∧ IsFirst place t) ∨ (i < t ∧ IsFirst place i) := by
  have hfirst : ∀ q ≠ t, Linked place i q → i ≤ q := (v.isFirst_moved_iff v.ne.symm).mp hi
  rcases Nat.lt_or_gt_of_ne v.ne with hlt | hlt
  · refine .inl ⟨hlt, fun q htq => ?_⟩
    by_cases hq : q = t
    · omega
    · have := hfirst q hq (v.linked.through htq)
      omega
  · refine .inr ⟨hlt, fun q hiq => ?_⟩
    by_cases hq : q = t
    · omega
    · exact hfirst q hq hiq

/-! ## Chains that get into order -/

/-- If the item at the visited position moves back, its chain began at its place. -/
theorem isFirst_place (h : Untangled i place) (hlt : t < i) : IsFirst place t := by
  rcases h t with ⟨hle, -⟩ | ht | ⟨first, -, hfirst, ht⟩
  · omega
  · exact ht
  · obtain rfl : first = i := v.injective first i t ht v.place_eq
    have := hfirst t v.linked
    omega

/-- If the chains get into order, the visited position is the first of its chain after the swap. -/
theorem isFirst_moved_of_untangled (h : Untangled i place) : IsFirst (moved place i) i := by
  rcases h i with ⟨-, u, hlt, hu⟩ | hfirst | ⟨first, hle, hfirst, hi⟩
  · obtain rfl : t = u := Option.some.inj (v.place_eq.symm.trans hu)
    have ht := v.isFirst_place h hlt
    -- all of the chain but its first position is from here on
    refine (v.isFirst_moved_iff v.ne.symm).mpr fun q hq hiq => ?_
    have htq : Linked place t q := v.linked.back.through hiq
    rcases h q with ⟨hle, -⟩ | hfirst | ⟨first, hle, hfirst, hqf⟩
    · exact hle
    · exact absurd (ht.unique hfirst htq).symm hq
    · have := ht.unique hfirst (htq.through (linked_place hqf).back)
      omega
  · exact v.isFirst_moved hfirst
  · have := hfirst i (linked_place hi)
    obtain rfl : first = i := by omega
    exact absurd (Option.some.inj (v.place_eq.symm.trans hi)) v.ne

theorem untangled_moved (h : Untangled i place) : Untangled (i + 1) (moved place i) := by
  intro p
  by_cases hpi : p = i
  · subst hpi
    exact .inr (.inl (v.isFirst_moved_of_untangled h))
  by_cases hpt : p = t
  · exact .inr (.inl (hpt ▸ v.isFirst_moved_place))
  rcases h p with ⟨hle, u, hlt, hu⟩ | hp | ⟨first, hle, hfirst, hp⟩
  · exact .inl ⟨by omega, u, hlt, (v.moved_of_ne hpt hpi).trans hu⟩
  · exact .inr (.inl (v.isFirst_moved hp))
  · have hfi : first ≠ i := by
      rintro rfl
      exact hpt (Option.some.inj (hp.symm.trans v.place_eq))
    have hft : first ≠ t := by
      rintro rfl
      have := hfirst i v.linked.back
      omega
    exact .inr (.inr ⟨first, by omega, v.isFirst_moved hfirst, (v.moved_of_ne hft hfi).trans hp⟩)

theorem untangled_of_moved (h : Untangled (i + 1) (moved place i)) : Untangled i place := by
  have hi : IsFirst (moved place i) i := by
    rcases h i with ⟨hle, -⟩ | hi | ⟨first, hle, hfirst, hplaced⟩
    · omega
    · exact hi
    · have := hfirst i (linked_place hplaced)
      omega
  have hends := v.ends_of_isFirst_moved hi
  intro p
  by_cases hpi : p = i
  · subst hpi
    rcases hends with ⟨hlt, -⟩ | ⟨-, hfirst⟩
    · exact .inl ⟨Nat.le_refl _, t, hlt, v.place_eq⟩
    · exact .inr (.inl hfirst)
  by_cases hpt : p = t
  · subst hpt
    rcases hends with ⟨-, hfirst⟩ | ⟨-, hfirst⟩
    · exact .inr (.inl hfirst)
    · exact .inr (.inr ⟨i, Nat.le_refl _, hfirst, v.place_eq⟩)
  rcases h p with ⟨hle, u, hlt, hu⟩ | hp | ⟨first, hle, hfirst, hp⟩
  · rw [v.moved_of_ne hpt hpi] at hu
    exact .inl ⟨by omega, u, hlt, hu⟩
  · exact .inr (.inl (v.isFirst_of_moved hi hpt hpi hp))
  · have hfi : first ≠ i := by omega
    have hft : first ≠ t := by
      rintro rfl
      rw [v.moved_place] at hp
      exact hpt (Option.some.inj hp).symm
    rw [v.moved_of_ne hft hfi] at hp
    exact .inr (.inr ⟨first, by omega, v.isFirst_of_moved hi hft hfi hfirst, hp⟩)

end Visit

/-! ## All visits -/

/-- A visit to a position whose item stays where it is makes no difference. -/
theorem untangled_succ_iff (hstays : ∀ t, place i = some t → t = i) :
    Untangled (i + 1) place ↔ Untangled i place := by
  constructor
  · intro h p
    rcases h p with ⟨hle, ht⟩ | hp | ⟨first, hle, hfirst⟩
    · exact .inl ⟨by omega, ht⟩
    · exact .inr (.inl hp)
    · exact .inr (.inr ⟨first, by omega, hfirst⟩)
  · intro h p
    rcases h p with ⟨hle, t, hlt, ht⟩ | hp | ⟨first, hle, hfirst, hp⟩
    · have hpi : p ≠ i := fun hpi => by
        have := hstays t (hpi ▸ ht)
        omega
      exact .inl ⟨by omega, t, hlt, ht⟩
    · exact .inr (.inl hp)
    · by_cases hfi : first = i
      · exact .inr (.inl (hstays p (hfi ▸ hp) ▸ hfi ▸ hfirst))
      · exact .inr (.inr ⟨first, by omega, hfirst, hp⟩)

/-- A visit keeps whether the chains get into order. -/
theorem untangled_moved (hinjective : ∀ p q u, place p = some u → place q = some u → p = q)
    (i : Nat) : Untangled (i + 1) (moved place i) ↔ Untangled i place := by
  by_cases hstays : ∀ t, place i = some t → t = i
  · rw [moved_eq_self hstays, untangled_succ_iff hstays]
  · push Not at hstays
    obtain ⟨t, ht, hne⟩ := hstays
    have v : Visit place i t := ⟨hinjective, ht, hne⟩
    exact ⟨v.untangled_of_moved, v.untangled_moved⟩

/-- When all positions are visited, the chains are in order if every item is in its place. -/
theorem untangled_end_iff {bound : Nat} (hbound : ∀ p t, place p = some t → p < bound) :
    Untangled bound place ↔ ∀ p t, place p = some t → t = p := by
  constructor
  · intro h p t ht
    have hfirst : ∀ q, IsFirst place q := fun q => by
      rcases h q with ⟨hle, u, -, hu⟩ | hq | ⟨first, hle, -, hq⟩
      · exact absurd (hbound q u hu) (by omega)
      · exact hq
      · exact absurd (hbound first q hq) (by omega)
    exact ((hfirst p).unique (hfirst t) (linked_place ht)).symm
  · intro h p
    refine .inr (.inl fun q hq => Nat.le_of_eq ?_)
    induction hq with
    | rel p q hpq => exact (h p q hpq).symm
    | refl p => rfl
    | symm p q _ ih => exact ih.symm
    | trans p q r _ _ ih ih' => exact ih.trans ih'

end SurveyReport.Places
