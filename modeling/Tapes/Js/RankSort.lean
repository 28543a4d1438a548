import Mathlib.Data.List.Sort

namespace Tapes.Js

/-! A stable sort by rank lists the items rank by rank, each rank in its old order. -/

variable {α : Type*} {rank : α → Nat} {item : α} {items before after : List α}

theorem orderedInsert_append (lower : ∀ other ∈ before, rank other < rank item) :
    (before ++ after).orderedInsert (fun left right => rank left ≤ rank right) item =
      before ++ after.orderedInsert (fun left right => rank left ≤ rank right) item := by
  induction before with
  | nil => rfl
  | cons first rest induction =>
      have later := induction fun other member => lower other (List.mem_cons_of_mem _ member)
      have below := lower first List.mem_cons_self
      have past : ¬ rank item ≤ rank first := by omega
      rw [List.cons_append, List.orderedInsert_cons, if_neg past, later, List.cons_append]

theorem orderedInsert_of_lowest (higher : ∀ other ∈ items, rank item ≤ rank other) :
    items.orderedInsert (fun left right => rank left ≤ rank right) item = item :: items := by
  cases items with
  | nil => rfl
  | cons first rest =>
      rw [List.orderedInsert_cons, if_pos (higher first List.mem_cons_self)]

/-- The items of the ranks, rank by rank. -/
def byRank (rank : α → Nat) (ranks : List Nat) (items : List α) : List α :=
  ranks.flatMap fun value => items.filter fun item => rank item = value

theorem mem_byRank {ranks : List Nat} :
    item ∈ byRank rank ranks items ↔ item ∈ items ∧ rank item ∈ ranks := by
  simp only [byRank, List.mem_flatMap, List.mem_filter, decide_eq_true_eq]
  constructor
  · rintro ⟨value, listed, member, rfl⟩
    exact ⟨member, listed⟩
  · rintro ⟨member, listed⟩
    exact ⟨_, listed, member, rfl⟩

theorem byRank_cons_of_notMem {ranks : List Nat} (absent : rank item ∉ ranks) :
    byRank rank ranks (item :: items) = byRank rank ranks items := by
  apply List.flatMap_congr
  intro value listed
  have different : rank item ≠ value := fun same => absurd (same ▸ listed) absent
  exact List.filter_cons_of_neg (by simpa using different)

/-- The new item goes in front of its own rank. -/
theorem orderedInsert_byRank {ranks : List Nat} (increasing : ranks.Pairwise (· < ·))
    (listed : rank item ∈ ranks) :
    (byRank rank ranks items).orderedInsert (fun left right => rank left ≤ rank right) item =
      byRank rank ranks (item :: items) := by
  induction ranks with
  | nil => cases listed
  | cons value rest induction =>
      obtain ⟨above, increasing⟩ := List.pairwise_cons.mp increasing
      have split : ∀ items : List α, byRank rank (value :: rest) items =
          items.filter (fun item => rank item = value) ++ byRank rank rest items :=
        fun _ => List.flatMap_cons
      rw [split, split]
      by_cases same : rank item = value
      · have absent : rank item ∉ rest := fun member => by
          have := above _ member
          omega
        rw [byRank_cons_of_notMem absent, List.filter_cons_of_pos (by simpa using same),
          orderedInsert_of_lowest, List.cons_append]
        intro other member
        obtain here | later := List.mem_append.mp member
        · have here : rank other = value := by simpa using (List.mem_filter.mp here).2
          omega
        · have later := above _ (mem_byRank.mp later).2
          omega
      · have later : rank item ∈ rest := (List.mem_cons.mp listed).resolve_left same
        have lower := above _ later
        rw [List.filter_cons_of_neg (by simpa using same), orderedInsert_append,
          induction increasing later]
        intro other member
        have here : rank other = value := by simpa using (List.mem_filter.mp member).2
        omega

theorem insertionSort_rank {ranks : List Nat} (increasing : ranks.Pairwise (· < ·))
    (listed : ∀ item ∈ items, rank item ∈ ranks) :
    items.insertionSort (fun left right => rank left ≤ rank right) = byRank rank ranks items := by
  induction items with
  | nil =>
      symm
      rw [List.insertionSort_nil, byRank, List.flatMap_eq_nil_iff]
      intro value _
      rfl
  | cons first rest induction =>
      rw [List.insertionSort_cons,
        induction fun item member => listed item (List.mem_cons_of_mem _ member),
        orderedInsert_byRank increasing (listed first List.mem_cons_self)]

/-! ## One arrangement -/

/-- Where the order tells the items apart, how they came in makes no difference. -/
theorem insertionSort_eq_of_perm {order : α → α → Prop} [DecidableRel order] [Std.Total order]
    [IsTrans α order] {left right : List α} (same : left.Perm right)
    (apart : ∀ first ∈ left, ∀ second ∈ left, order first second → order second first →
      first = second) : left.insertionSort order = right.insertionSort order := by
  have perm : (left.insertionSort order).Perm (right.insertionSort order) :=
    ((List.perm_insertionSort _ _).trans same).trans (List.perm_insertionSort _ _).symm
  refine perm.eq_of_pairwise ?_ (List.pairwise_insertionSort _ _) (List.pairwise_insertionSort _ _)
  intro first second firstIn secondIn
  have inLeft := (List.mem_insertionSort _).mp firstIn
  have inRight := same.mem_iff.mpr ((List.mem_insertionSort _).mp secondIn)
  exact apart first inLeft second inRight

end Tapes.Js
