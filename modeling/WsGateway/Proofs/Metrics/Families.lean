import Mathlib.Data.List.Nodup
import Mathlib.Data.List.Pairwise
import WsGateway.Proofs.Metrics.Accumulation
import WsGateway.Proofs.Metrics.Reading

/-!
# Families and their series

The families of metrics with their names and kinds, and the series that each of them has in a state
(`families`). A series is written in one line or, if it is a histogram, in twelve; what these lines
say are its points. The points tell apart all that is written: the family by the beginning of the
name (`Family.eq_of_prefix`), the labels of the series by what stands in front of the bound
(`Kind.labels_eq_of_mem_keys`), and what the series holds by all of its points together
(`Kind.eq_of_points_subset`).
-/

namespace WsGateway

namespace Exposition

/-! ## Kinds of series -/

/-- The kinds of families. -/
inductive Kind where
  | counter
  | gauge
  | histogram

namespace Kind

/-- The word for the kind in the line of a type. -/
def word : Kind → String
  | counter => "counter"
  | gauge => "gauge"
  | histogram => "histogram"

/-- What a series of the kind holds. -/
abbrev Holding : Kind → Type
  | counter => UInt64
  | gauge => Int64
  | histogram => Histogram

/-- A histogram has as many buckets as there are bounds; nothing is asked of numbers. -/
def Whole : (k : Kind) → k.Holding → Prop
  | counter, _ => True
  | gauge, _ => True
  | histogram, h => h.buckets.length = Histogram.bounds.length

/-- The number of lines of a series. -/
def lineCount : Kind → Nat
  | counter => 1
  | gauge => 1
  | histogram => 12

/-- The texts of the bounds of buckets, and that of the bucket without bound. -/
def boundTexts : List String := Histogram.bounds.map (fun bound => toString bound.toNat) ++ ["+Inf"]

/-- What each line of a series has behind the family's name and behind the labels of the series. -/
def endings : Kind → List (String × Labels)
  | counter => [("", [])]
  | gauge => [("", [])]
  | histogram => boundTexts.map (fun bound => ("_bucket", [("le", bound)])) ++
      [("_sum", []), ("_count", [])]

def keys (name : String) (labels : Labels) (k : Kind) : List (String × Labels) :=
  k.endings.map fun ending => (name ++ ending.1, labels ++ ending.2)

/-- The values of a series; the number of observations is written twice. -/
def values : (k : Kind) → k.Holding → List Int
  | counter, n => [(n.toNat : Int)]
  | gauge, n => [n.toInt]
  | histogram, h => (h.buckets ++ [h.count, h.sum, h.count]).map fun n => (n.toNat : Int)

/-- What the lines of a series say. -/
def points (name : String) (labels : Labels) (k : Kind) (x : k.Holding) : List Point :=
  ((k.keys name labels).zip (k.values x)).map fun e => ⟨e.1.1, e.1.2, e.2⟩

variable {k : Kind} {name : String} {labels : Labels} {x : k.Holding}

theorem length_keys : (k.keys name labels).length = k.lineCount := by
  cases k <;> rfl

theorem length_values (h : k.Whole x) : (k.values x).length = k.lineCount := by
  cases k with
  | counter => rfl
  | gauge => rfl
  | histogram =>
    rw [Whole] at h
    rw [values, List.length_map, List.length_append, h]
    rfl

/-- A series prints as many points as its kind has lines. -/
theorem length_points (h : k.Whole x) : (k.points name labels x).length = k.lineCount := by
  rw [points, List.length_map, List.length_zip, length_keys, length_values h, Nat.min_self]

theorem length_points_pos (h : k.Whole x) : 0 < (k.points name labels x).length := by
  rw [length_points h]
  cases k <;> decide

/-- The values tell what a series holds. -/
theorem values_inj {y : k.Holding} (hx : k.Whole x) (hy : k.Whole y)
    (h : k.values x = k.values y) : x = y := by
  cases k with
  | counter => exact UInt64.toNat_inj.mp (Int.ofNat.inj (List.cons.inj h).1)
  | gauge => exact Int64.toInt_inj.mp (List.cons.inj h).1
  | histogram =>
    have hinj : Function.Injective fun n : UInt64 => (n.toNat : Int) :=
      fun a b hab => UInt64.toNat_inj.mp (Int.ofNat.inj hab)
    have hall := List.map_injective_iff.mpr hinj h
    obtain ⟨hbuckets, hrest⟩ := List.append_inj hall (hx.trans hy.symm)
    cases x
    cases y
    cases hbuckets
    cases hrest
    rfl

/-- A printed point has one of the names and labels of its series. -/
theorem key_mem_of_mem_points {q : Point} (h : q ∈ k.points name labels x) :
    (q.name, q.labels) ∈ k.keys name labels := by
  rw [points, List.mem_map] at h
  obtain ⟨e, he, rfl⟩ := h
  exact (List.of_mem_zip he).1

/-- The lines of a series have different names or labels. -/
theorem nodup_keys : (k.keys name labels).Nodup := by
  have hendings : k.endings.Nodup := by cases k <;> decide +kernel
  refine hendings.map fun a b hab => ?_
  obtain ⟨hname, hlabels⟩ := Prod.mk.inj hab
  exact Prod.ext ((String.append_right_inj name).mp hname) (List.append_cancel_left hlabels)

/-- Lines of different series of a family have different names or labels: the ending of the name
tells how many labels were put behind those of the series. -/
theorem labels_eq_of_mem_keys {key : String × Labels} {labels' : Labels}
    (h : key ∈ k.keys name labels) (h' : key ∈ k.keys name labels') : labels = labels' := by
  have hlength : ∀ a ∈ k.endings, ∀ b ∈ k.endings, a.1 = b.1 → a.2.length = b.2.length := by
    cases k <;> decide
  obtain ⟨a, ha, rfl⟩ := List.mem_map.mp h
  obtain ⟨b, hb, heq⟩ := List.mem_map.mp h'
  obtain ⟨hname, hlabels⟩ := Prod.mk.inj heq
  have hending := (String.append_right_inj name).mp hname
  exact (List.append_inj_left' hlabels (hlength b hb a ha hending)).symm

/-- Values under keys that are all different are known from the pairs of both. By induction on the
keys. -/
theorem eq_of_zip_subset {κ β : Type} {keys : List κ} {xs ys : List β} (hnodup : keys.Nodup)
    (hx : xs.length = keys.length) (hy : ys.length = keys.length)
    (h : keys.zip xs ⊆ keys.zip ys) : xs = ys := by
  induction keys generalizing xs ys with
  | nil =>
    rw [List.length_eq_zero_iff.mp hx, List.length_eq_zero_iff.mp hy]
  | cons key keys ih =>
    obtain ⟨hkey, hkeys⟩ := List.nodup_cons.mp hnodup
    cases xs with
    | nil => cases hx
    | cons x xs =>
      cases ys with
      | nil => cases hy
      | cons y ys =>
        rw [List.zip_cons_cons, List.zip_cons_cons] at h
        -- No key repeats, so the pair of the first key can only be the first pair.
        have hhead : x = y := by
          rcases List.mem_cons.mp (h List.mem_cons_self) with heq | hmem
          · exact (Prod.mk.inj heq).2
          · exact absurd (List.of_mem_zip hmem).1 hkey
        have htail : keys.zip xs ⊆ keys.zip ys := by
          intro e he
          rcases List.mem_cons.mp (h (List.mem_cons_of_mem _ he)) with rfl | hmem
          · exact absurd (List.of_mem_zip he).1 hkey
          · exact hmem
        rw [hhead, ih hkeys (Nat.succ.inj hx) (Nat.succ.inj hy) htail]

/-- **The points tell what a series holds**: two values are the same if the points of one are among
those of the other. -/
theorem eq_of_points_subset {y : k.Holding} (hx : k.Whole x) (hy : k.Whole y)
    (h : k.points name labels x ⊆ k.points name labels y) : x = y := by
  have hzip : (k.keys name labels).zip (k.values x) ⊆ (k.keys name labels).zip (k.values y) := by
    intro e he
    obtain ⟨e', he', heq⟩ := List.mem_map.mp (h (List.mem_map_of_mem he))
    obtain ⟨hname, hlabels, hvalue⟩ := Point.mk.inj heq
    rwa [← show e' = e from Prod.ext (Prod.ext hname hlabels) hvalue]
  refine values_inj hx hy (eq_of_zip_subset nodup_keys ?_ ?_ hzip)
  · rw [length_values hx, length_keys]
  · rw [length_values hy, length_keys]

/-- A series prints no point twice. -/
theorem nodup_points (h : k.Whole x) : (k.points name labels x).Nodup := by
  have hlength : (k.keys name labels).length ≤ (k.values x).length := by
    rw [length_keys, length_values h]
  have hkeys : (k.points name labels x).map (fun q => (q.name, q.labels)) = k.keys name labels := by
    rw [points, List.map_map]
    exact List.map_fst_zip hlength
  exact List.Nodup.of_map _ (hkeys ▸ nodup_keys)

/-- The points of a series are well named if the family and the labels are. -/
theorem wellNamed_points (hname : IsName name) (hlabels : ∀ label ∈ labels, IsName label.1) :
    ∀ q ∈ k.points name labels x, q.WellNamed := by
  have hendings : ∀ ending ∈ k.endings,
      IsName ending.1 ∧ ∀ label ∈ ending.2, IsName label.1 := by
    cases k <;> decide
  intro q hq
  obtain ⟨ending, hmem, heq⟩ := List.mem_map.mp (key_mem_of_mem_points hq)
  obtain ⟨hqname, hqlabels⟩ := Prod.mk.inj heq
  obtain ⟨hending, hmore⟩ := hendings ending hmem
  constructor
  · rw [← hqname]
    exact hname.append hending
  · rw [← hqlabels]
    intro label hlabel
    rcases List.mem_append.mp hlabel with hown | hnew
    · exact hlabels label hown
    · exact hmore label hnew

/-- The name of a point begins with the family's. -/
theorem prefix_of_mem_points {q : Point} (h : q ∈ k.points name labels x) :
    name.toList <+: q.name.toList := by
  obtain ⟨ending, -, heq⟩ := List.mem_map.mp (key_mem_of_mem_points h)
  rw [← (Prod.mk.inj heq).1, String.toList_append]
  exact List.prefix_append _ _

end Kind

/-! ## The families -/

/-- A family: its name, and the series of its kind that a state of the metrics has. -/
structure Family where
  name : String
  kind : Kind
  series : Metrics → FinMap Labels kind.Holding

/-- The families in the order in which they are written. Whether the gateway drains is shown as a
gauge without labels. -/
def families : List Family :=
  [⟨"metricws_http_requests_total", .counter, Metrics.httpRequests⟩,
    ⟨"metricws_ws_requests_total", .counter, Metrics.wsRequests⟩,
    ⟨"metricws_handler_errors_total", .counter, Metrics.handlerErrors⟩,
    ⟨"metricws_handshakes_total", .counter, Metrics.handshakes⟩,
    ⟨"metricws_ws_sessions_active", .gauge, Metrics.wsSessionsActive⟩,
    ⟨"metricws_dispatch_duration_micros", .histogram, Metrics.dispatchDuration⟩,
    ⟨"metricws_decode_errors_total", .counter, Metrics.decodeErrors⟩,
    ⟨"metricws_unknown_ops_total", .counter, Metrics.unknownOps⟩,
    ⟨"metricws_frames_rejected_total", .counter, Metrics.framesRejected⟩,
    ⟨"metricws_draining", .gauge, fun m => FinMap.empty.insert [] (if m.draining then 1 else 0)⟩]

namespace Family

variable {F F' : Family} {m : Metrics}

def seriesLines (F : Family) (labels : Labels) (x : F.kind.Holding) : List String :=
  (F.kind.points F.name labels x).map Point.line

def lines (F : Family) (m : Metrics) : List String :=
  typeLine F.name F.kind.word :: (F.series m).entries.flatMap fun e => F.seriesLines e.1 e.2

/-- The lines tell that a series holds something: each of its points is read from one of them. -/
def Told (F : Family) (lines : List String) (labels : Labels) (x : F.kind.Holding) : Prop :=
  F.kind.Whole x ∧ ∀ q ∈ F.kind.points F.name labels x, q ∈ lines.filterMap Point.read?

/-- What lines tell depends on nothing but which lines there are. -/
theorem told_congr {lines lines' : List String} (h : ∀ line, line ∈ lines ↔ line ∈ lines')
    (labels : Labels) (x : F.kind.Holding) :
    F.Told lines labels x ↔ F.Told lines' labels x := by
  simp only [Told, List.mem_filterMap, h]

/-- The families have names that a reader does not take for anything else. -/
theorem isName (h : F ∈ families) : IsName F.name := by
  have hall : ∀ name ∈ families.map Family.name,
      name.toList.all (fun c => c.isAlphanum || c == '_') = true := by decide +kernel
  exact isName_of_identifier (hall _ (List.mem_map_of_mem h))

/-- The names of two families are told apart by their beginnings. -/
def Apart (F F' : Family) : Prop :=
  ¬ F.name.toList <+: F'.name.toList ∧ ¬ F'.name.toList <+: F.name.toList

instance : Std.Symm Apart := ⟨fun _ _ => And.symm⟩

/-- No two families can print the same name. -/
theorem pairwise_apart : families.Pairwise Apart := by
  have hnames : (families.map Family.name).Pairwise
      fun a b => ¬ a.toList <+: b.toList ∧ ¬ b.toList <+: a.toList := by decide +kernel
  exact hnames.of_map Family.name fun _ _ => id

/-- At most one family has a name with which a text begins. -/
theorem eq_of_prefix (h : F ∈ families) (h' : F' ∈ families) {s : String}
    (hs : F.name.toList <+: s.toList) (hs' : F'.name.toList <+: s.toList) : F = F' := by
  by_contra hne
  have hapart : Apart F F' := pairwise_apart.forall h h' hne
  rcases List.prefix_or_prefix_of_prefix hs hs' with hle | hle
  · exact hapart.1 hle
  · exact hapart.2 hle

/-- A type line tells which family it is of. -/
theorem eq_of_typeLine (h : F ∈ families) (h' : F' ∈ families)
    (htype : typeLine F.name F.kind.word = typeLine F'.name F'.kind.word) : F = F' := by
  have hnodup : (families.map fun F => typeLine F.name F.kind.word).Nodup := by decide +kernel
  exact List.inj_on_of_nodup_map hnodup h h' htype

end Family

end Exposition
end WsGateway
