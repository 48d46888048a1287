import Mathlib.Algebra.Order.Group.Nat
import WsGateway.Proofs.Metrics.Totals

/-!
# What series add up to

A series is found by its labels in sorted order, and two lists of labels sort to the same one just
if each is a rearrangement of the other (`Labels.sorted_eq_iff`). So what a family holds for some
labels is made by the calls under rearrangements of them and by no others (`held_foldl_touch`): a
counter has the sum of what was added, as 64 bits hold it, a gauge the same with a sign, and a
histogram counts its observations and, for each bound, those that do not exceed it
(`Histogram.Tallies.foldl_observe`). The main statement, `Metrics.accumulate`, says so of every
sequence of calls.
-/

namespace WsGateway

/-! ## Labels in any order -/

namespace Labels

theorem before_iff {a b : String × String} :
    before a b = true ↔ if a.1 = b.1 then a.2 ≤ b.2 else a.1 ≤ b.1 := by
  unfold before
  split <;> exact decide_eq_true_iff

/-- Of two labels one comes before the other. -/
theorem before_total (a b : String × String) : (before a b || before b a) = true := by
  rw [Bool.or_eq_true, before_iff, before_iff]
  by_cases h : a.1 = b.1
  · rw [if_pos h, if_pos h.symm]
    exact String.le_total _ _
  · rw [if_neg h, if_neg (Ne.symm h)]
    exact String.le_total _ _

theorem before_trans (a b c : String × String) (hab : before a b = true)
    (hbc : before b c = true) : before a c = true := by
  rw [before_iff] at hab hbc ⊢
  by_cases h : a.1 = b.1 <;> by_cases h' : b.1 = c.1
  · rw [if_pos h] at hab
    rw [if_pos h'] at hbc
    rw [if_pos (h.trans h')]
    exact String.le_trans hab hbc
  · rw [if_neg h'] at hbc
    rw [h, if_neg h']
    exact hbc
  · rw [if_neg h] at hab
    rw [← h', if_neg h]
    exact hab
  · rw [if_neg h] at hab
    rw [if_neg h'] at hbc
    -- if the outer names are the same, the middle one is not between them
    have hne : a.1 ≠ c.1 := by
      intro hac
      rw [← hac] at hbc
      exact h (String.le_antisymm hab hbc)
    rw [if_neg hne]
    exact String.le_trans hab hbc

theorem before_antisymm {a b : String × String} (hab : before a b = true)
    (hba : before b a = true) : a = b := by
  rw [before_iff] at hab hba
  by_cases h : a.1 = b.1
  · rw [if_pos h] at hab
    rw [if_pos h.symm] at hba
    exact Prod.ext h (String.le_antisymm hab hba)
  · rw [if_neg h] at hab
    rw [if_neg (Ne.symm h)] at hba
    exact absurd (String.le_antisymm hab hba) h

/-- **The key of a series**: lists of labels have the same one just if they are rearrangements of
each other, however often a name occurs in them. -/
theorem sorted_eq_iff {a b : Labels} : a.sorted = b.sorted ↔ a.Perm b := by
  have hperm : ∀ l : Labels, l.sorted.Perm l := fun l => List.mergeSort_perm l before
  have hsorted : ∀ l : Labels, l.sorted.Pairwise fun x y => before x y = true := fun l =>
    List.pairwise_mergeSort before_trans before_total l
  constructor
  · intro h
    exact (hperm a).symm.trans (h ▸ hperm b)
  · intro h
    refine List.Perm.eq_of_pairwise (fun x y _ _ => before_antisymm) (hsorted a) (hsorted b) ?_
    exact ((hperm a).trans h).trans (hperm b).symm

/-- What belongs to the series of the labels, among entries under any labels. -/
def pick {β : Type} (labels : Labels) (entries : List (Labels × β)) : List β :=
  (entries.filter fun e => e.1.Perm labels).map Prod.snd

/-- An observation is picked just if its labels are the given ones in some order. -/
theorem pick_cons {β : Type} (labels : Labels) (e : Labels × β) (entries : List (Labels × β)) :
    labels.pick (e :: entries) =
      if e.1.Perm labels then e.2 :: labels.pick entries else labels.pick entries := by
  rw [pick, List.filter_cons]
  by_cases h : e.1.Perm labels
  · rw [if_pos h, if_pos (decide_eq_true h)]
    rfl
  · rw [if_neg h, if_neg (by simpa using h)]
    rfl

end Labels

/-! ## What a series holds -/

section Series

variable {α β : Type} (default : α) (change : α → β → α)

/-- What a family holds for some labels; a series that was never touched holds the default. -/
def held (f : FinMap Labels α) (labels : Labels) : α := (f.get? labels.sorted).getD default

/-- The family with the series of an entry changed. -/
def touch (f : FinMap Labels α) (e : Labels × β) : FinMap Labels α :=
  f.insert e.1.sorted (change (held default f e.1) e.2)

/-- An entry changes the series of its labels, in whatever order they are given, and no other. -/
theorem held_touch (f : FinMap Labels α) (e : Labels × β) (labels : Labels) :
    held default (touch default change f e) labels =
      if e.1.Perm labels then change (held default f labels) e.2 else held default f labels := by
  rw [held, touch, FinMap.get?_insert]
  by_cases h : e.1.Perm labels
  · have hkey : labels.sorted = e.1.sorted := Labels.sorted_eq_iff.mpr h.symm
    rw [if_pos h, if_pos hkey, Option.getD_some, held, held, hkey]
  · rw [if_neg h, if_neg fun hkey => h (Labels.sorted_eq_iff.mp hkey).symm, held]

/-- **What a series is made of**: the entries that belong to its labels, one after another. By
induction on the entries. -/
theorem held_foldl_touch (entries : List (Labels × β)) (f : FinMap Labels α) (labels : Labels) :
    held default (entries.foldl (touch default change) f) labels =
      (labels.pick entries).foldl change (held default f labels) := by
  induction entries generalizing f with
  | nil => rfl
  | cons e rest ih =>
    rw [List.foldl_cons, ih, held_touch, Labels.pick_cons]
    split <;> rfl

end Series

/-! ## Counters -/

namespace CounterFamily

/-- A call that counts. -/
inductive Call where
  | inc (labels : Labels)
  | add (labels : Labels) (n : UInt64)

/-- What a call adds, and under which labels. -/
def Call.entry : Call → Labels × UInt64
  | .inc labels => (labels, 1)
  | .add labels n => (labels, n)

/-- The counters after a call. -/
def call (f : CounterFamily) : Call → CounterFamily
  | .inc labels => f.inc labels
  | .add labels n => f.add labels n

def after (calls : List Call) : CounterFamily := calls.foldl call .empty

/-- A sum of words is the sum of their numbers modulo 2^64. -/
theorem toNat_foldl_add (amounts : List UInt64) (start : UInt64) :
    (amounts.foldl (· + ·) start).toNat =
      (start.toNat + (amounts.map UInt64.toNat).sum) % 2 ^ 64 := by
  induction amounts generalizing start with
  | nil => exact (Nat.mod_eq_of_lt start.toNat_lt).symm
  | cons n rest ih =>
    rw [List.foldl_cons, ih, UInt64.toNat_add, List.map_cons, List.sum_cons, Nat.mod_add_mod,
      Nat.add_assoc]

/-- A counter has the sum of what was added under its labels, as 64 bits hold it. -/
theorem toNat_count_after (calls : List Call) (labels : Labels) :
    ((after calls).count labels).toNat =
      ((labels.pick (calls.map Call.entry)).map UInt64.toNat).sum % 2 ^ 64 := by
  have hafter : after calls = (calls.map Call.entry).foldl (touch 0 (· + ·)) .empty := by
    rw [after, List.foldl_map]
    congr 1
    funext f c
    cases c <;> rfl
  have hheld := held_foldl_touch 0 (· + ·) (calls.map Call.entry) (.empty : CounterFamily) labels
  rw [← hafter] at hheld
  rw [show (after calls).count labels = _ from hheld, toNat_foldl_add]
  exact congrArg (· % 2 ^ 64) (Nat.zero_add _)

end CounterFamily

/-! ## Gauges -/

namespace GaugeFamily

/-- A call that moves a gauge. -/
inductive Call where
  | inc (labels : Labels)
  | dec (labels : Labels)
  | add (labels : Labels) (n : Int64)

/-- What a call adds, and under which labels. -/
def Call.entry : Call → Labels × Int64
  | .inc labels => (labels, 1)
  | .dec labels => (labels, -1)
  | .add labels n => (labels, n)

/-- The gauges after a call. -/
def call (f : GaugeFamily) : Call → GaugeFamily
  | .inc labels => f.inc labels
  | .dec labels => f.dec labels
  | .add labels n => f.add labels n

def after (calls : List Call) : GaugeFamily := calls.foldl call .empty

/-- A sum of signed words is the sum of their numbers, wrapped to 64 bits. -/
theorem toInt_foldl_add (amounts : List Int64) (start : Int64) :
    (amounts.foldl (· + ·) start).toInt =
      (start.toInt + (amounts.map Int64.toInt).sum).bmod (2 ^ 64) := by
  induction amounts generalizing start with
  | nil =>
    rw [List.map_nil, List.sum_nil, Int.add_zero]
    exact start.toInt_bmod.symm
  | cons n rest ih =>
    rw [List.foldl_cons, ih, Int64.toInt_add, List.map_cons, List.sum_cons, Int.bmod_add_bmod,
      Int.add_assoc]

/-- A gauge has the sum of what was added under its labels, wrapped around to 64 bits with a
sign. -/
theorem toInt_level_after (calls : List Call) (labels : Labels) :
    ((after calls).level labels).toInt =
      ((labels.pick (calls.map Call.entry)).map Int64.toInt).sum.bmod (2 ^ 64) := by
  have hafter : after calls = (calls.map Call.entry).foldl (touch 0 (· + ·)) .empty := by
    rw [after, List.foldl_map]
    congr 1
    funext f c
    cases c <;> rfl
  have hheld := held_foldl_touch 0 (· + ·) (calls.map Call.entry) (.empty : GaugeFamily) labels
  rw [← hafter] at hheld
  rw [show (after calls).level labels = _ from hheld, toInt_foldl_add]
  exact congrArg (Int.bmod · (2 ^ 64)) (Int.zero_add _)

end GaugeFamily

/-! ## Histograms -/

namespace Histogram

/-- A duration in whole microseconds, capped at the greatest number of 64 bits. -/
def wholeMicros (nanoseconds : Nat) : Nat := min (nanoseconds / 1000) (2 ^ 64 - 1)

theorem toNat_micros (nanoseconds : Nat) :
    (micros nanoseconds).toNat = wholeMicros nanoseconds := by
  unfold micros wholeMicros
  have hcap : min (nanoseconds / 1000) 18446744073709551615 < 18446744073709551616 := by omega
  exact UInt64.toNat_ofNat_of_lt hcap

/-- What a histogram says of durations: how many there are, what they sum up to in 64 bits, and for
each bound how many do not exceed it. -/
structure Tallies (h : Histogram) (durations : List Nat) : Prop where
  count : h.count.toNat = durations.length
  sum : h.sum.toNat = durations.sum % 2 ^ 64
  buckets : h.buckets.map UInt64.toNat =
    bounds.map fun bound => durations.countP (· ≤ bound.toNat)

/-- The histogram of no observation. -/
theorem tallies_empty : Tallies .empty [] := ⟨rfl, rfl, rfl⟩

/-- One more observation is counted in a bucket if it does not exceed the bound. -/
theorem toNat_bucket {durations : List Nat} (hroom : durations.length + 1 < 2 ^ 64)
    (m bound : UInt64) {n : UInt64} (h : n.toNat = durations.countP (· ≤ bound.toNat)) :
    (if m ≤ bound then n + 1 else n).toNat =
      (durations ++ [m.toNat]).countP (· ≤ bound.toNat) := by
  have hcount : durations.countP (· ≤ bound.toNat) ≤ durations.length := List.countP_le_length
  rw [List.countP_append, List.countP_singleton, ← h]
  by_cases hm : m ≤ bound
  · rw [if_pos hm, if_pos (decide_eq_true (UInt64.le_iff_toNat_le.mp hm)), UInt64.toNat_add]
    -- the count does not reach the end of 64 bits, so neither does the bucket
    exact Nat.mod_eq_of_lt (show n.toNat + 1 < 2 ^ 64 by omega)
  · rw [if_neg hm, if_neg (by simpa [UInt64.le_iff_toNat_le] using hm), Nat.add_zero]

/-- One observation more raises each bucket whose bound it does not exceed, so the buckets go on
counting. -/
theorem toNat_buckets {durations : List Nat} (hroom : durations.length + 1 < 2 ^ 64)
    (m : UInt64) {bounds buckets : List UInt64}
    (h : buckets.map UInt64.toNat = bounds.map fun bound => durations.countP (· ≤ bound.toNat)) :
    (List.zipWith (fun bound n => if m ≤ bound then n + 1 else n) bounds buckets).map
        UInt64.toNat =
      bounds.map fun bound => (durations ++ [m.toNat]).countP (· ≤ bound.toNat) := by
  induction bounds generalizing buckets with
  | nil => rfl
  | cons bound rest ih =>
    cases buckets with
    | nil => cases h
    | cons n ns =>
      obtain ⟨hn, hns⟩ := List.cons.inj h
      rw [List.zipWith_cons_cons, List.map_cons, List.map_cons, ih hns,
        toNat_bucket hroom m bound hn]

/-- One more observation, while the count has room for it. -/
theorem Tallies.observe {h : Histogram} {durations : List Nat} (ht : h.Tallies durations)
    (hroom : durations.length + 1 < 2 ^ 64) (nanoseconds : Nat) :
    (h.observe nanoseconds).Tallies (durations ++ [wholeMicros nanoseconds]) := by
  rw [← toNat_micros]
  refine ⟨?_, ?_, toNat_buckets hroom (micros nanoseconds) ht.buckets⟩
  · show (h.count + 1).toNat = _
    rw [UInt64.toNat_add, ht.count, List.length_append, List.length_singleton]
    exact Nat.mod_eq_of_lt hroom
  · show (h.sum + micros nanoseconds).toNat = _
    rw [UInt64.toNat_add, ht.sum, List.sum_append, List.sum_singleton, Nat.mod_add_mod]

/-- **What observations come to**, as long as there are fewer of them than the count can tell. By
induction on the observations; those before them are part of the tally. -/
theorem Tallies.foldl_observe {h : Histogram} {durations : List Nat} (ht : h.Tallies durations)
    (observed : List Nat) (hroom : durations.length + observed.length < 2 ^ 64) :
    (observed.foldl Histogram.observe h).Tallies (durations ++ observed.map wholeMicros) := by
  induction observed generalizing h durations with
  | nil => rwa [List.map_nil, List.append_nil]
  | cons d rest ih =>
    rw [List.length_cons] at hroom
    have hnext := ht.observe (by omega) d
    have hrest := ih hnext (by rw [List.length_append, List.length_singleton]; omega)
    rwa [List.append_assoc] at hrest

/-- The buckets never decrease along the bounds. -/
theorem Tallies.ascending {h : Histogram} {durations : List Nat} (ht : h.Tallies durations) :
    h.buckets.Pairwise (· ≤ ·) := by
  have hbounds : bounds.Pairwise (· ≤ ·) := by decide
  have hcounts : (h.buckets.map UInt64.toNat).Pairwise (· ≤ ·) := by
    rw [ht.buckets, List.pairwise_map]
    refine hbounds.imp fun {a b} hab => List.countP_mono_left fun d _ hd => ?_
    rw [decide_eq_true_eq] at hd ⊢
    exact Nat.le_trans hd (UInt64.le_iff_toNat_le.mp hab)
  rw [List.pairwise_map] at hcounts
  exact hcounts.imp UInt64.le_iff_toNat_le.mpr

/-- No bucket exceeds the one without bound, which has the count. -/
theorem Tallies.le_count {h : Histogram} {durations : List Nat} (ht : h.Tallies durations) :
    ∀ n ∈ h.buckets, n ≤ h.count := by
  intro n hn
  have hmem : n.toNat ∈ bounds.map fun bound => durations.countP (· ≤ bound.toNat) := by
    rw [← ht.buckets]
    exact List.mem_map_of_mem hn
  obtain ⟨bound, -, hbound⟩ := List.mem_map.mp hmem
  rw [UInt64.le_iff_toNat_le, ht.count, ← hbound]
  exact List.countP_le_length

end Histogram

namespace HistogramFamily

def after (observations : List (Labels × Nat)) : HistogramFamily :=
  observations.foldl (fun f o => f.observe o.1 o.2) .empty

/-- The histogram of some labels observes what was observed under them, in order. -/
theorem histogram_after (observations : List (Labels × Nat)) (labels : Labels) :
    (after observations).histogram labels =
      (labels.pick observations).foldl Histogram.observe .empty :=
  held_foldl_touch Histogram.empty Histogram.observe observations FinMap.empty labels

/-- The histogram of some labels tallies what was observed under them. -/
theorem tallies_after {observations : List (Labels × Nat)} {labels : Labels}
    (hroom : (labels.pick observations).length < 2 ^ 64) :
    ((after observations).histogram labels).Tallies
      ((labels.pick observations).map Histogram.wholeMicros) := by
  rw [histogram_after]
  exact Histogram.tallies_empty.foldl_observe _ (by rwa [List.length_nil, Nat.zero_add])

end HistogramFamily

/-! ## All kinds of series -/

namespace Metrics

/-- **Series accumulate exactly**, whatever calls there are and in whatever order each of them gives
its labels. What a series holds is made by the calls under rearrangements of its labels: a counter
has the sum of what they added modulo `2 ^ 64`, and a gauge their sum wrapped around to 64 bits with
a sign. A histogram of fewer than `2 ^ 64` observations has their number, their sum in whole
microseconds modulo `2 ^ 64`, and in each bucket the number of those that do not exceed its bound;
so its buckets never decrease along the bounds and never exceed the count. -/
theorem accumulate (counted : List CounterFamily.Call) (moved : List GaugeFamily.Call)
    (observed : List (Labels × Nat)) (labels : Labels) :
    ((CounterFamily.after counted).count labels).toNat =
        ((labels.pick (counted.map CounterFamily.Call.entry)).map UInt64.toNat).sum % 2 ^ 64 ∧
      ((GaugeFamily.after moved).level labels).toInt =
        ((labels.pick (moved.map GaugeFamily.Call.entry)).map Int64.toInt).sum.bmod (2 ^ 64) ∧
      ((labels.pick observed).length < 2 ^ 64 →
        let h := (HistogramFamily.after observed).histogram labels
        h.Tallies ((labels.pick observed).map Histogram.wholeMicros) ∧
          h.buckets.Pairwise (· ≤ ·) ∧ ∀ n ∈ h.buckets, n ≤ h.count) := by
  refine ⟨CounterFamily.toNat_count_after counted labels,
    GaugeFamily.toInt_level_after moved labels, fun hroom => ?_⟩
  have htallies := HistogramFamily.tallies_after hroom
  exact ⟨htallies, htallies.ascending, htallies.le_count⟩

/-- Labels in both orders are one series, and a label less is another one: a counter that wraps
around, a gauge below zero, and observations at both sides of a bound. -/
theorem accumulate_turned :
    let labels : Labels := [("side", "ws"), ("op", "echo")]
    let turned : Labels := [("op", "echo"), ("side", "ws")]
    let other : Labels := [("op", "echo")]
    let observed := [(labels, 100999), (turned, 101000), (other, 7)]
    (labels.pick observed).length < 2 ^ 64 ∧
      ((CounterFamily.after
        [.add labels 18446744073709551615, .inc turned, .inc other]).count labels).toNat = 0 ∧
      ((GaugeFamily.after [.inc labels, .dec turned, .dec labels, .inc other]).level labels).toInt =
        -1 ∧
      let h := (HistogramFamily.after observed).histogram labels
      h.Tallies [100, 101] ∧ h.buckets.Pairwise (· ≤ ·) ∧ ∀ n ∈ h.buckets, n ≤ h.count := by
  intro labels turned other observed
  have hroom : (labels.pick observed).length < 2 ^ 64 := by decide
  obtain ⟨hcounter, hgauge, hhistogram⟩ := accumulate
    [.add labels 18446744073709551615, .inc turned, .inc other]
    [.inc labels, .dec turned, .dec labels, .inc other] observed labels
  have hmicros : (labels.pick observed).map Histogram.wholeMicros = [100, 101] := by decide
  rw [hmicros] at hhistogram
  exact ⟨hroom, hcounter.trans (by decide), hgauge.trans (by decide), hhistogram hroom⟩

end Metrics

end WsGateway
