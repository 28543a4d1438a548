import Tapes.Js.RankSort
import Tapes.Provenance.CanonicalJson

namespace Tapes.Provenance

open Tapes.Js

/-! The order of keys by code units is total, so members with different keys have one
sorted arrangement. -/

theorem lessThan_asymm {left right : JsString} (less : lessThan left right = true) :
    lessThan right left = false := by
  induction left generalizing right with
  | nil =>
      cases right with
      | nil => cases less
      | cons head tail => rfl
  | cons unit rest induction =>
      cases right with
      | nil => cases less
      | cons head tail =>
          simp only [lessThan, UInt16.lt_iff_toNat_lt] at less ⊢
          by_cases before : unit.toNat < head.toNat
          · have notAfter : ¬ head.toNat < unit.toNat := by omega
            rw [if_neg notAfter, if_pos before]
          · rw [if_neg before] at less
            by_cases after : head.toNat < unit.toNat
            · rw [if_pos after] at less
              cases less
            · rw [if_neg after] at less
              rw [if_neg after, if_neg before]
              exact induction less

theorem eq_of_not_lessThan {left right : JsString} (notLess : lessThan left right = false)
    (notMore : lessThan right left = false) : left = right := by
  induction left generalizing right with
  | nil =>
      cases right with
      | nil => rfl
      | cons head tail => cases notLess
  | cons unit rest induction =>
      cases right with
      | nil => cases notMore
      | cons head tail =>
          simp only [lessThan, UInt16.lt_iff_toNat_lt] at notLess notMore
          by_cases before : unit.toNat < head.toNat
          · rw [if_pos before] at notLess
            cases notLess
          · by_cases after : head.toNat < unit.toNat
            · rw [if_pos after] at notMore
              cases notMore
            · rw [if_neg before, if_neg after] at notLess
              rw [if_neg after, if_neg before] at notMore
              have same : unit = head := UInt16.toNat_inj.mp (by omega)
              rw [same, induction notLess notMore]

theorem not_lessThan_trans {first second third : JsString} (left : lessThan second first = false)
    (right : lessThan third second = false) : lessThan third first = false := by
  induction first generalizing second third with
  | nil => cases third <;> rfl
  | cons a first induction =>
      cases second with
      | nil => cases left
      | cons b second =>
          cases third with
          | nil => cases right
          | cons c third =>
              simp only [lessThan, UInt16.lt_iff_toNat_lt] at left right ⊢
              by_cases ba : b.toNat < a.toNat
              · rw [if_pos ba] at left
                cases left
              · by_cases cb : c.toNat < b.toNat
                · rw [if_pos cb] at right
                  cases right
                · have notBefore : ¬ c.toNat < a.toNat := by omega
                  rw [if_neg notBefore]
                  by_cases after : a.toNat < c.toNat
                  · rw [if_pos after]
                  · have notAb : ¬ a.toNat < b.toNat := by omega
                    have notBc : ¬ b.toNat < c.toNat := by omega
                    rw [if_neg ba, if_neg notAb] at left
                    rw [if_neg cb, if_neg notBc] at right
                    rw [if_neg after]
                    exact induction left right

/-! ## Sorted members -/

section

variable {α : Type}

/-- Members in the order of their keys. -/
def KeysInOrder (left right : JsString × α) : Prop := lessThan right.1 left.1 = false

instance : DecidableRel (KeysInOrder (α := α)) := fun left right =>
  inferInstanceAs (Decidable (lessThan right.1 left.1 = false))

instance : Std.Total (KeysInOrder (α := α)) := by
  refine ⟨fun left right => ?_⟩
  cases less : lessThan right.1 left.1 with
  | false => exact .inl less
  | true => exact .inr (lessThan_asymm less)

instance : IsTrans (JsString × α) KeysInOrder :=
  ⟨fun _ _ _ left right => not_lessThan_trans left right⟩

def sortMembers (members : List (JsString × α)) : List (JsString × α) :=
  members.insertionSort KeysInOrder

theorem perm_sortMembers (members : List (JsString × α)) : (sortMembers members).Perm members :=
  List.perm_insertionSort _ _

/-- Different keys leave one sorted arrangement. -/
theorem sortMembers_eq_of_perm {left right : List (JsString × α)}
    (distinct : (left.map Prod.fst).Nodup) (same : left.Perm right) :
    sortMembers left = sortMembers right := by
  apply insertionSort_eq_of_perm same
  intro first firstIn second secondIn before after
  exact List.inj_on_of_nodup_map distinct firstIn secondIn (eq_of_not_lessThan after before)

end

end Tapes.Provenance
