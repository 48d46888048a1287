import Mathlib.Data.UInt
import WsGateway.Metrics.Basic

/-!
# Totals of families

The sum over all series of a family. Counting one more event adds one to the total of its family,
whatever the labels of the event are and whether or not their series was there before
(`CounterFamily.total_inc`, `HistogramFamily.total_observe`); the counters of other labels stay as
they are (`CounterFamily.count_inc`). All sums wrap around as the numbers do.

Which series a family can have is said by `LabelledBy`: each has a single label of one name, and its
value is one of those that are allowed.
-/

namespace WsGateway

namespace Labels

@[simp] theorem sorted_singleton (label : String × String) : sorted [label] = [label] :=
  List.mergeSort_singleton label

end Labels

/-! ## Sums over a map -/

namespace FinMap

variable {κ α : Type}

def sum (weight : α → UInt64) (m : FinMap κ α) : UInt64 :=
  (m.entries.map fun e => weight e.2).sum

variable [DecidableEq κ]

/-- A value that takes the place of another changes the sum by the difference. The equation has no
subtraction: what is taken away stands on the other side. -/
theorem sum_putEntry (weight : α → UInt64) (k : κ) (a : α) (l : List (κ × α)) :
    ((putEntry k a l).map fun e => weight e.2).sum + ((findEntry k l).map weight).getD 0 =
      (l.map fun e => weight e.2).sum + weight a := by
  induction l with
  | nil => simp [putEntry, findEntry]
  | cons e rest ih =>
    obtain ⟨k₀, a₀⟩ := e
    rw [putEntry, findEntry]
    by_cases h : k = k₀
    · rw [if_pos h, if_pos h]
      simp only [List.map_cons, List.sum_cons, Option.map_some, Option.getD_some]
      ac_rfl
    · rw [if_neg h, if_neg h]
      simp only [List.map_cons, List.sum_cons]
      rw [UInt64.add_assoc, ih, UInt64.add_assoc]

/-- An entry adds its weight to the sum and takes that of the one it replaces. -/
theorem sum_insert (weight : α → UInt64) (m : FinMap κ α) (k : κ) (a : α) :
    (m.insert k a).sum weight + ((m.get? k).map weight).getD 0 = m.sum weight + weight a :=
  sum_putEntry weight k a m.entries

/-- An entry adds its key and no other. -/
theorem mem_keys_insert {m : FinMap κ α} {k k' : κ} {a : α} :
    k' ∈ (m.insert k a).keys ↔ k' = k ∨ k' ∈ m.keys :=
  mem_keys_putEntry

end FinMap

/-! ## Counters -/

namespace CounterFamily

def total (f : CounterFamily) : UInt64 := f.sum id

@[simp] theorem total_inc (f : CounterFamily) (labels : Labels) :
    (f.inc labels).total = f.total + 1 := by
  have hsum := FinMap.sum_insert id f labels.sorted (f.count labels + 1)
  have hold : ((f.get? labels.sorted).map id).getD 0 = f.count labels := by
    rw [Option.map_id]
    rfl
  rw [hold] at hsum
  show (f.insert labels.sorted (f.count labels + 1)).sum id = f.sum id + 1
  apply (UInt64.add_left_inj (f.count labels)).mp
  rw [hsum, id, UInt64.add_assoc, UInt64.add_comm 1]

/-- An increment is counted under its own labels, in whatever order they were given. -/
theorem count_inc (f : CounterFamily) (labels labels' : Labels) :
    (f.inc labels).count labels' =
      f.count labels' + if labels'.sorted = labels.sorted then 1 else 0 := by
  show ((f.insert labels.sorted (f.count labels + 1)).get? labels'.sorted).getD 0 = _
  rw [FinMap.get?_insert]
  split
  · next heq =>
    show f.count labels + 1 = f.count labels' + 1
    rw [count, count, heq]
  · exact (UInt64.add_zero _).symm

end CounterFamily

/-! ## Histograms -/

namespace HistogramFamily

def total (f : HistogramFamily) : UInt64 := f.sum Histogram.count

@[simp] theorem total_observe (f : HistogramFamily) (labels : Labels) (nanoseconds : Nat) :
    (f.observe labels nanoseconds).total = f.total + 1 := by
  have hsum := FinMap.sum_insert Histogram.count f labels.sorted
    ((f.histogram labels).observe nanoseconds)
  have hold : ((f.get? labels.sorted).map Histogram.count).getD 0 = f.count labels := by
    unfold count histogram
    cases f.get? labels.sorted <;> rfl
  have hnew : ((f.histogram labels).observe nanoseconds).count = f.count labels + 1 := rfl
  rw [hold, hnew] at hsum
  show (f.insert labels.sorted _).sum Histogram.count = f.sum Histogram.count + 1
  apply (UInt64.add_left_inj (f.count labels)).mp
  rw [hsum, UInt64.add_assoc, UInt64.add_comm 1]

end HistogramFamily

/-! ## The series of a family -/

/-- Every series has just one label, of this name and with a value that is allowed. -/
def LabelledBy {α : Type} (name : String) (allowed : String → Prop) (f : FinMap Labels α) :
    Prop :=
  ∀ labels ∈ f.keys, ∃ value, allowed value ∧ labels = [(name, value)]

namespace LabelledBy

variable {α : Type} {name : String} {allowed : String → Prop}

theorem empty : LabelledBy name allowed (FinMap.empty : FinMap Labels α) := by
  intro labels h
  cases h

/-- An entry whose label has an allowed value keeps the labels of the family. -/
theorem insert {f : FinMap Labels α} (h : LabelledBy name allowed f) {value : String}
    (hvalue : allowed value) (a : α) :
    LabelledBy name allowed (f.insert (Labels.sorted [(name, value)]) a) := by
  intro labels hmem
  rw [Labels.sorted_singleton, FinMap.mem_keys_insert] at hmem
  rcases hmem with rfl | hold
  · exact ⟨value, hvalue, rfl⟩
  · exact h labels hold

end LabelledBy

end WsGateway
