import Mathlib.Algebra.BigOperators.Group.List.Lemmas
import Mathlib.Algebra.Group.Pi.Basic
import Mathlib.Algebra.Group.Prod
import Mathlib.Tactic.Abel
import Tapes.Events.Event

namespace Tapes.Events

open Tapes.Js

/-! Per-recording totals, folded from events. -/

/-- `completionSum` counts units of `2 ^ -1074`, so sums are exact. -/
structure Totals where
  plays : Nat
  completionSum : Nat
deriving DecidableEq

def emptyTotals : Totals := ⟨0, 0⟩

/-- `Math.min(1, Math.max(0, completion))`, in units, and zero when not finite. -/
def clampCompletion : JsNumber → Nat
  | .finite false magnitude => min (2 ^ 1074) magnitude.units
  | _ => 0

def fold (totals : Totals) (event : StoredEvent) : Totals :=
  ⟨totals.plays + 1, totals.completionSum + clampCompletion event.completion⟩

abbrev TotalsMap := OrderedMap JsString Totals

def add (into : TotalsMap) (entry : JsString × Totals) : TotalsMap :=
  let current := (into.get? entry.1).getD emptyTotals
  into.set entry.1
    ⟨current.plays + entry.2.plays, current.completionSum + entry.2.completionSum⟩

def foldEvent (totals : TotalsMap) (event : StoredEvent) : TotalsMap :=
  totals.set event.recordingUrl (fold ((totals.get? event.recordingUrl).getD emptyTotals) event)

def deriveAggregates (events : List StoredEvent) (seed : TotalsMap) : TotalsMap :=
  events.foldl foldEvent (seed.entries.foldl add .empty)

/-! ## What totals count

Abstractly a map of totals is a function to the monoid of plays and completion
units, and a list of events counts as a sum in it. -/

abbrev Tally := JsString → Nat × Nat

def Totals.pair (totals : Totals) : Nat × Nat := (totals.plays, totals.completionSum)

def tallyOf (totals : TotalsMap) : Tally :=
  fun url => ((totals.get? url).map Totals.pair).getD 0

def counted (event : StoredEvent) : Tally :=
  Pi.single event.recordingUrl (1, clampCompletion event.completion)

def tally (events : List StoredEvent) : Tally := (events.map counted).sum

@[simp] theorem tally_nil : tally [] = 0 := rfl

@[simp] theorem tally_append (first second : List StoredEvent) :
    tally (first ++ second) = tally first + tally second := by
  simp [tally]

theorem tally_perm {first second : List StoredEvent} (same : first.Perm second) :
    tally first = tally second :=
  (same.map counted).sum_eq

@[simp] theorem tallyOf_empty : tallyOf .empty = 0 := rfl

theorem tallyOf_set (totals : TotalsMap) (url : JsString) (held : Totals) :
    tallyOf (totals.set url held) = Function.update (tallyOf totals) url held.pair := by
  funext other
  by_cases same : other = url
  · subst other
    simp [tallyOf]
  · simp [tallyOf, OrderedMap.get?_set_other same, Function.update_of_ne same]

theorem update_add_single (before : Tally) (url : JsString) (value : Nat × Nat) :
    Function.update before url (before url + value) = before + Pi.single url value := by
  funext other
  by_cases same : other = url
  · subst other
    simp
  · simp [Function.update_of_ne same, Pi.single_eq_of_ne same]

theorem tallyOf_add (totals : TotalsMap) (entry : JsString × Totals) :
    tallyOf (add totals entry) = tallyOf totals + Pi.single entry.1 entry.2.pair := by
  rw [add, tallyOf_set, ← update_add_single]
  congr 1
  cases found : totals.get? entry.1 <;> simp [tallyOf, found, Totals.pair, emptyTotals]

theorem tallyOf_foldEvent (totals : TotalsMap) (event : StoredEvent) :
    tallyOf (foldEvent totals event) = tallyOf totals + counted event := by
  rw [foldEvent, tallyOf_set, counted, ← update_add_single]
  congr 1
  cases found : totals.get? event.recordingUrl <;>
    simp [tallyOf, found, Totals.pair, emptyTotals, fold]

theorem tallyOf_foldl_foldEvent (events : List StoredEvent) (totals : TotalsMap) :
    tallyOf (events.foldl foldEvent totals) = tallyOf totals + tally events := by
  induction events generalizing totals with
  | nil => simp
  | cons event rest induction =>
      rw [List.foldl_cons, induction, tallyOf_foldEvent, add_assoc]
      rfl

theorem tallyOf_foldl_add (entries : List (JsString × Totals)) (totals : TotalsMap) :
    tallyOf (entries.foldl add totals) =
      tallyOf totals + (entries.map fun entry => Pi.single entry.1 entry.2.pair).sum := by
  induction entries generalizing totals with
  | nil => simp
  | cons entry rest induction =>
      rw [List.foldl_cons, induction, tallyOf_add, add_assoc]
      rfl

/-- A map's tally is the sum of its entries, its keys being distinct. -/
theorem tallyOf_eq_sum (totals : TotalsMap) :
    tallyOf totals =
      (totals.entries.map fun entry => (Pi.single entry.1 entry.2.pair : Tally)).sum := by
  obtain ⟨entries, distinct⟩ := totals
  induction entries with
  | nil => rfl
  | cons entry rest induction =>
      obtain ⟨url, held⟩ := entry
      obtain ⟨fresh, distinctRest⟩ := List.nodup_cons.mp distinct
      rw [List.map_cons, List.sum_cons, ← induction distinctRest]
      funext other
      by_cases same : other = url
      · subst other
        have absent : rest.find? (·.1 = url) = none := by
          rw [List.find?_eq_none]
          intro each member matching
          have key : each.1 = url := of_decide_eq_true matching
          exact fresh (List.mem_map.mpr ⟨each, member, key⟩)
        simp [tallyOf, OrderedMap.get?, absent]
      · simp [tallyOf, OrderedMap.get?, Ne.symm same]

/-- A rebuild counts the seed and the events. -/
theorem tallyOf_deriveAggregates (events : List StoredEvent) (seed : TotalsMap) :
    tallyOf (deriveAggregates events seed) = tallyOf seed + tally events := by
  rw [deriveAggregates, tallyOf_foldl_foldEvent, tallyOf_foldl_add, tallyOf_empty, zero_add,
    ← tallyOf_eq_sum]

end Tapes.Events
