import Mathlib.Data.List.Basic
import SurveyReport.Chart.Arrange
import SurveyReport.Column.Alignment
import SurveyReport.Column.Tally
import SurveyReport.Directive.Parser

/-!
# Checked accesses

Cells, columns, slots and colours are looked up by computed positions, items are swapped, lists of
fields are cut, and positions are divided by the number of colours. The checked forms of these steps
come to nothing when a position is out of bounds or the divisor is 0. They all come to what the
unchecked forms give.

Results:
* `columns?_eq`: every cell of a table is there.
* `referenceIndex?_eq`, `align?_eq`: so are the reference column and the slots of its answers.
* `arrange?_eq`: items are swapped within bounds.
* `assign?_eq`: the colours of a palette that is not empty never run out.
* `ofFields?_eq`: fields are cut within bounds.
-/

namespace SurveyReport

/-! ## Steps in turn -/

section Steps

variable {α β γ : Type}

/-- Steps that all succeed give all their results. -/
theorem mapM_eq_some_map {f : α → Option β} {g : α → β} {l : List α}
    (h : ∀ a ∈ l, f a = some (g a)) : l.mapM f = some (l.map g) := by
  induction l with
  | nil => rfl
  | cons a l ih =>
    obtain ⟨ha, hl⟩ := List.forall_mem_cons.mp h
    simp [ha, ih hl]

/-- Checked steps that stay related to unchecked ones reach a related end. -/
theorem foldlM_related (R : β → γ → Prop) {f : β → α → Option β} {g : γ → α → γ} {l : List α}
    (hstep : ∀ a ∈ l, ∀ b c, R b c → ∃ b', f b a = some b' ∧ R b' (g c a)) {b : β} {c : γ}
    (h : R b c) : ∃ b', l.foldlM f b = some b' ∧ R b' (l.foldl g c) := by
  induction l generalizing b c with
  | nil => exact ⟨b, rfl, h⟩
  | cons a l ih =>
    obtain ⟨ha, hl⟩ := List.forall_mem_cons.mp hstep
    obtain ⟨b₁, hf, hR⟩ := ha b c h
    obtain ⟨b₂, hfold, hend⟩ := ih hl hR
    exact ⟨b₂, by simp [hf, hfold], hend⟩

end Steps

/-! ## Cells -/

namespace Table

/-- The cells of one column, each looked up in its row. -/
def cells? (t : Table) (column : Nat) : Option (List String) := t.rows.mapM (·[column]?)

theorem cells?_eq (t : Table) {column : Nat} (h : column < t.headers.length) :
    t.cells? column = some (t.cells column) := by
  refine mapM_eq_some_map fun row hrow => ?_
  have hlt : column < row.length := (t.length_of_mem_rows row hrow).symm ▸ h
  simp [hlt]

/-- The counted answers of every column, its cells looked up. -/
def columns? (t : Table) : Option (List Column) :=
  t.headers.zipIdx.mapM fun (header, index) =>
    (t.cells? index).map (Column.ofCells index header)

theorem columns?_eq (t : Table) : t.columns? = some t.columns := by
  have hcells : ∀ p ∈ t.headers.zipIdx,
      (t.cells? p.2).map (Column.ofCells p.2 p.1) =
        some (Column.ofCells p.2 p.1 (t.cells p.2)) := by
    intro p hp
    rw [t.cells?_eq (by simpa using List.snd_lt_of_mem_zipIdx hp), Option.map_some]
  rw [columns?, mapM_eq_some_map hcells, columns, List.mapIdx_eq_zipIdx_map]

end Table

/-! ## Columns and slots -/

namespace Column

/-- Keeps the longer of two columns, of which the one kept so far is looked up. -/
def keepLonger? (columns : List Column) (best : Nat) (next : Column × Nat) : Option Nat := do
  let kept ← columns[best]?
  return if kept.categories.length < next.1.categories.length then next.2 else best

/-- The index of the first column with the most categories. -/
def referenceIndex? (columns : List Column) : Option Nat :=
  columns.zipIdx.foldlM (keepLonger? columns) 0

/-- The index of a column, and the number of its categories with it. -/
def IsBest (columns : List Column) (index : Nat) (best : Nat × Nat) : Prop :=
  best.2 = index ∧ ∃ c, columns[index]? = some c ∧ c.categories.length = best.1

theorem keepLonger?_eq {columns : List Column} {next : Column × Nat}
    (hnext : columns[next.2]? = some next.1) {index : Nat} {best : Nat × Nat}
    (h : IsBest columns index best) :
    ∃ index', keepLonger? columns index next = some index' ∧
      IsBest columns index' (keepGreater best (next.1.categories.length, next.2)) := by
  obtain ⟨hindex, c, hc, hlength⟩ := h
  by_cases hlt : best.1 < next.1.categories.length
  · refine ⟨next.2, ?_, ?_⟩
    · rw [keepLonger?, hc, Option.bind_eq_bind, Option.bind_some, if_pos (hlength ▸ hlt)]
      rfl
    · rw [keepGreater, if_pos hlt]
      exact ⟨rfl, next.1, hnext, rfl⟩
  · refine ⟨index, ?_, ?_⟩
    · rw [keepLonger?, hc, Option.bind_eq_bind, Option.bind_some, if_neg (hlength ▸ hlt)]
      rfl
    · rw [keepGreater, if_neg hlt]
      exact ⟨hindex, c, hc, hlength⟩

theorem referenceIndex?_eq (columns : List Column) :
    referenceIndex? columns = some (referenceIndex columns) := by
  cases columns with
  | nil => rfl
  | cons first rest =>
    -- the number kept is that of the column kept once the first column is behind
    have hfirst : IsBest (first :: rest) 0 (keepGreater (0, 0) (first.categories.length, 0)) := by
      rw [keepGreater]
      split
      · exact ⟨rfl, first, rfl, rfl⟩
      · next hnone => exact ⟨rfl, first, rfl, Nat.eq_zero_of_not_pos hnone⟩
    have hnexts : ∀ next ∈ rest.zipIdx 1, (first :: rest)[next.2]? = some next.1 := by
      intro next hnext
      refine List.mem_zipIdx_iff_getElem?.mp ?_
      rw [List.zipIdx_cons]
      exact List.mem_cons_of_mem _ hnext
    obtain ⟨index, hfold, hindex, -⟩ := foldlM_related (IsBest (first :: rest))
      (fun next hnext _ _ => keepLonger?_eq (hnexts next hnext)) hfirst
    have hkept : keepLonger? (first :: rest) 0 (first, 0) = some 0 := by simp [keepLonger?]
    rw [referenceIndex?, List.zipIdx_cons, List.foldlM_cons, hkept, Option.bind_eq_bind,
      Option.bind_some, hfold, ← hindex, referenceIndex, List.map_cons, List.zipIdx_cons,
      List.foldl_cons, List.zipIdx_map, List.foldl_map]
    rfl

/-- The index of the last of the names that is the given one. -/
def lastIndex? : List String → String → Option Nat
  | [], _ => none
  | n :: names, name =>
    match lastIndex? names name with
    | some i => some (i + 1)
    | none => if n = name then some 0 else none

theorem enter?_of_lastIndex?_eq_none {c : Category} {slots : List Category}
    (h : lastIndex? (slots.map (·.name)) c.name = none) : enter? c slots = none := by
  induction slots with
  | nil => rfl
  | cons slot slots ih =>
    rw [List.map_cons, lastIndex?] at h
    split at h
    · contradiction
    · next hrest =>
      simp only [ite_eq_right_iff, reduceCtorEq, imp_false] at h
      simp [enter?, ih hrest, h]

theorem enter?_of_lastIndex?_eq_some {c : Category} {slots : List Category} {i : Nat}
    (h : lastIndex? (slots.map (·.name)) c.name = some i) :
    ∃ slot, slots[i]? = some slot ∧
      enter? c slots = some (slots.set i { slot with count := c.count }) := by
  induction slots generalizing i with
  | nil => contradiction
  | cons slot slots ih =>
    rw [List.map_cons, lastIndex?] at h
    split at h
    · next j hrest =>
      obtain rfl : j + 1 = i := by simpa using h
      obtain ⟨found, hfound, henter⟩ := ih hrest
      exact ⟨found, by simpa using hfound, by simp [enter?, henter]⟩
    · next hrest =>
      obtain ⟨hname, rfl⟩ : slot.name = c.name ∧ 0 = i := by simpa using h
      exact ⟨slot, rfl, by simp [enter?, enter?_of_lastIndex?_eq_none hrest, hname]⟩

/-- Puts an answer into its slot, which is looked up, or behind the ones without a slot. -/
def Slots.add? (names : List String) (s : Slots) (c : Category) : Option Slots :=
  match lastIndex? names c.name with
  | some i => do
    let slot ← s.filled[i]?
    return { s with filled := s.filled.set i { slot with count := c.count } }
  | none => some { s with extra := s.extra ++ [c] }

theorem Slots.add?_eq {names : List String} {s : Slots} (h : s.filled.map (·.name) = names)
    (c : Category) : s.add? names c = some (s.add c) ∧ (s.add c).filled.map (·.name) = names := by
  subst h
  cases hindex : lastIndex? (s.filled.map (·.name)) c.name with
  | none => simp [add?, add, hindex, enter?_of_lastIndex?_eq_none hindex]
  | some i =>
    obtain ⟨slot, hslot, henter⟩ := enter?_of_lastIndex?_eq_some hindex
    obtain ⟨hlt, rfl⟩ := List.getElem?_eq_some_iff.mp hslot
    have hnames : (s.filled.map (·.name)).set i s.filled[i].name = s.filled.map (·.name) := by
      have hset := congrArg (List.map Category.name) (List.set_getElem_self hlt)
      rwa [List.map_set] at hset
    simp [add?, hindex, hslot, add, henter, List.map_set, hnames]

/-- The answers of a column in the order of the given names, their slots looked up. -/
def alignCategories? (names : List String) (own : List Category) : Option (List Category) := do
  let slots ← own.foldlM (Slots.add? names) ⟨names.map (⟨·, 0⟩), []⟩
  return slots.filled ++ slots.extra

theorem alignCategories?_eq (names : List String) (own : List Category) :
    alignCategories? names own = some (alignCategories names own) := by
  have hempty : (names.map fun name => (⟨name, 0⟩ : Category)).map (·.name) = names := by
    simp [Function.comp_def]
  obtain ⟨slots, hfold, rfl, -⟩ := foldlM_related
    (fun b c : Slots => b = c ∧ c.filled.map (·.name) = names) (f := Slots.add? names)
    (g := Slots.add) (l := own)
    (by
      rintro c - s s' ⟨rfl, hnames⟩
      obtain ⟨hadd, hkept⟩ := Slots.add?_eq hnames c
      exact ⟨s.add c, hadd, rfl, hkept⟩)
    (b := ⟨names.map (⟨·, 0⟩), []⟩) ⟨rfl, hempty⟩
  rw [alignCategories?, hfold]
  rfl

/-- The columns with their answers aligned to those of the reference, which is looked up. -/
def align? (columns : List Column) : Option Aligned := do
  let reference ← referenceIndex? columns
  if columns.length ≤ 1 then return ⟨columns, reference⟩
  let template ← columns[reference]?
  let names := template.categories.map (·.name)
  let aligned ← columns.zipIdx.mapM fun (c, i) =>
    if i = reference then some c
    else (alignCategories? names c.categories).map fun categories => { c with categories }
  return ⟨aligned, reference⟩

theorem align?_eq (columns : List Column) : align? columns = some (align columns) := by
  have haligned : ∀ names : List String, (columns.zipIdx.mapM fun (c, i) =>
      if i = referenceIndex columns then some c
      else (alignCategories? names c.categories).map fun categories => { c with categories }) =
        some (columns.mapIdx fun i c => if i = referenceIndex columns then c
          else { c with categories := alignCategories names c.categories }) := by
    intro names
    rw [List.mapIdx_eq_zipIdx_map]
    refine mapM_eq_some_map fun (c, i) _ => ?_
    by_cases hi : i = referenceIndex columns
    · simp [hi]
    · simp [hi, alignCategories?_eq]
  rw [align?, referenceIndex?_eq, Option.bind_eq_bind, Option.bind_some, align]
  by_cases hlength : columns.length ≤ 1
  · simp [hlength]
  · have hne : columns ≠ [] := by
      rintro rfl
      simp at hlength
    have hreference := List.getElem?_eq_getElem (referenceIndex_lt hne)
    simp [hlength, hreference, haligned]

end Column

/-! ## Swaps -/

section Swaps

variable {α : Type}

/-- The items with those at two positions swapped. -/
def swap? (items : Array α) (i j : Nat) : Option (Array α) := do
  let a ← items[i]?
  let b ← items[j]?
  return (items.setIfInBounds i b).setIfInBounds j a

theorem swap?_eq {items : Array α} {i j : Nat} (hi : i < items.size) (hj : j < items.size) :
    swap? items i j = some (items.swapIfInBounds i j) := by
  simp [swap?, hi, hj, Array.swapIfInBounds_def, Array.swap_def, Array.setIfInBounds_def]

variable (order : List String) (key : α → String)

/-- Moves the item at a position, which is looked up, to its place by the order. -/
def moveToPlace? (items : Array α) (i : Nat) : Option (Array α) := do
  let item ← items[i]?
  match order.findIdx? (· == key item) with
  | some place => if place < items.size then swap? items i place else return items
  | none => return items

/-- The items, arranged by the order; without an order none of them is looked up. -/
def arrange? (items : List α) : Option (List α) :=
  if order.isEmpty then some items
  else ((List.range items.length).foldlM (moveToPlace? order key) items.toArray).map (·.toList)

theorem moveToPlace?_eq {items : Array α} {i : Nat} (h : i < items.size) :
    moveToPlace? order key items i = some (moveToPlace order key items i) := by
  have hitem : items[i]? = some items[i] := Array.getElem?_eq_getElem h
  cases hplace : order.findIdx? (· == key items[i]) with
  | none => simp [moveToPlace?, moveToPlace, hitem, hplace]
  | some place =>
    by_cases hlt : place < items.size
    · simp [moveToPlace?, moveToPlace, hplace, hlt, swap?_eq h hlt, h]
    · simp [moveToPlace?, moveToPlace, hitem, hplace, hlt, Array.swapIfInBounds_def]

theorem arrange?_eq (items : List α) : arrange? order key items = some (arrange order key items) := by
  cases order with
  | nil => rw [arrange_nil]; rfl
  | cons first rest =>
    obtain ⟨arranged, hfold, rfl, -⟩ := foldlM_related
      (fun b c : Array α => b = c ∧ c.size = items.length) (f := moveToPlace? (first :: rest) key)
      (g := moveToPlace (first :: rest) key) (l := List.range items.length)
      (by
        rintro i hi b xs ⟨rfl, hsize⟩
        have hlt : i < b.size := by simpa [hsize] using hi
        exact ⟨_, moveToPlace?_eq _ key hlt, rfl,
          (moveToPlace_perm _ key b i).size_eq.trans hsize⟩)
      (b := items.toArray) ⟨rfl, by simp⟩
    simp [arrange?, arrange, hfold]

end Swaps

/-! ## Colours -/

/-- The remainder of a division by a number that must not be 0. -/
def remainder? (n divisor : Nat) : Option Nat := if divisor = 0 then none else some (n % divisor)

namespace Palette

/-- The colour of the item at an index. -/
def colourAt? (colours : List Colour) (index : Nat) : Option Colour := do
  let i ← remainder? index colours.length
  colours[i]?

/-- The colours of `count` items. -/
def assign? (colours : List Colour) (count : Nat) : Option (List Colour) :=
  (List.range count).mapM (colourAt? colours)

theorem colourAt?_eq (p : Palette) (index : Nat) :
    colourAt? p.colours index = some (p.colourAt index) := by
  have hpos : p.colours.length ≠ 0 := Nat.pos_iff_ne_zero.mp p.size_pos
  simp [colourAt?, remainder?, colourAt, hpos]

theorem assign?_eq (p : Palette) (count : Nat) :
    assign? p.colours count = some (p.assign count) :=
  mapM_eq_some_map fun index _ => p.colourAt?_eq index

example : assign? [] 1 = none := rfl

end Palette

/-! ## Fields -/

section Cuts

variable {α : Type}

/-- The items from a position on, which must not be behind the end. -/
def from? (start : Nat) (items : List α) : Option (List α) :=
  if start ≤ items.length then some (items.drop start) else none

/-- The items between two positions, of which the second must not be behind the end nor before the
    first. -/
def between? (start stop : Nat) (items : List α) : Option (List α) :=
  if start ≤ stop ∧ stop ≤ items.length then some ((items.take stop).drop start) else none

end Cuts

namespace Directive

/-- The text that is asked for, its fields cut out. -/
def parseText? (source : String) (statistic : Statistic) (fields : List (List Char)) :
    Option Directive := do
  let named ← if statistic = .value then between? 1 2 fields else from? 2 fields
  return .text { statistic, source, references := Field.names named }

/-- The directive that fields make up, if they are two at least; these are looked up and the others
    cut out. -/
def ofFields? (source : String) (fields : List (List Char)) : Option Directive :=
  if fields.length < 2 then some (.invalid .tooFewFields source)
  else do
    let output ← fields[0]?
    let selector ← fields[1]?
    let asked := Text.lowerAfter [] output
    let statistic := Statistic.ofSelector (Text.lowerAfter [] selector)
    if Text.occurs "colors".toList asked || Text.occurs "colorpalette".toList asked then
      return parsePalette source (← from? 1 fields)
    else if Text.occurs "order".toList asked then return .order (Field.names (← from? 1 fields))
    else if Text.occurs "bar".toList asked then
      return parseChart source .bar statistic (← from? 2 fields)
    else if Text.occurs "pie".toList asked then
      return parseChart source .pie statistic (← from? 2 fields)
    else parseText? source statistic fields

theorem parseText?_eq (source : String) (statistic : Statistic) (output selector : List Char)
    (fields : List (List Char)) :
    parseText? source statistic (output :: selector :: fields) =
      some (parseText source statistic selector fields) := by
  unfold parseText? parseText
  split <;> simp [from?, between?]

theorem ofFields?_eq (source : String) (fields : List (List Char)) :
    ofFields? source fields = some (ofFields source fields) := by
  match fields with
  | [] | [_] => rfl
  | output :: selector :: rest =>
    have hbehind : from? 1 (output :: selector :: rest) = some (selector :: rest) := by simp [from?]
    have hrest : from? 2 (output :: selector :: rest) = some rest := by simp [from?]
    have hlength : ¬(output :: selector :: rest).length < 2 := by simp
    rw [ofFields?, if_neg hlength, ofFields]
    simp only [List.getElem?_cons_zero, List.getElem?_cons_succ, Option.bind_eq_bind,
      Option.bind_some, hbehind, hrest, parseText?_eq, Option.pure_def]
    split_ifs <;> rfl

end Directive

end SurveyReport
