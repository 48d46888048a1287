import WsGateway.Proofs.Metrics.Families

/-!
# What the text of metrics tells

The text of a state is made of the lines of its families and of further lines (`Metrics.lines_eq`).
It is cut back into these lines and they are read back to what they say, whatever the values of
labels are (`Metrics.WellNamed.read_render`). So the text tells of every series what it holds, and
of no series that is not there (`Metrics.WellNamed.told_iff`), and no line stands for two of them
(`Metrics.WellNamed.nodup_lines`). The main statement, `Metrics.render_faithful`, says so of every
state to which calls can lead: labels that a client chose forge nothing.
-/

namespace WsGateway

/-! ## States to which calls lead -/

namespace HistogramFamily

/-- Every histogram has as many buckets as there are bounds. -/
def Whole (f : HistogramFamily) : Prop :=
  ∀ labels h, f.get? labels = some h → Exposition.Kind.histogram.Whole h

/-- An observation keeps the histograms whole. -/
theorem Whole.observe {f : HistogramFamily} (hf : f.Whole) (labels : Labels) (nanoseconds : Nat) :
    (f.observe labels nanoseconds).Whole := by
  have hold : (f.histogram labels).buckets.length = Histogram.bounds.length := by
    unfold histogram
    cases hget : f.get? labels.sorted with
    | none => rfl
    | some h => exact hf _ h hget
  intro labels' h hget
  rw [HistogramFamily.observe, FinMap.get?_insert] at hget
  split at hget
  · cases hget
    show (List.zipWith _ Histogram.bounds (f.histogram labels).buckets).length = _
    rw [List.length_zipWith, hold, Nat.min_self]
  · exact hf labels' h hget

/-- Histograms that are only observed are whole. -/
theorem whole_after (observations : List (Labels × Nat)) : (after observations).Whole := by
  have hrun : ∀ f : HistogramFamily, f.Whole →
      (observations.foldl (fun f o => f.observe o.1 o.2) f).Whole := by
    intro f hf
    induction observations generalizing f with
    | nil => exact hf
    | cons o rest ih => exact ih _ (hf.observe o.1 o.2)
  exact hrun .empty fun _ _ h => nomatch h

end HistogramFamily

namespace Labels

theorem text_isEmpty (labels : Labels) : labels.text.isEmpty = labels.isEmpty := by
  cases labels with
  | nil => rfl
  | cons label labels =>
    rw [List.isEmpty_cons, String.isEmpty_eq_false_iff]
    intro htext
    have hnil : (text (label :: labels)).toList = [] := String.toList_eq_nil_iff.mpr htext
    cases labels with
    | nil =>
      have hsingle : text [label] = labelText label := String.intercalate_singleton
      rw [hsingle, labelText] at hnil
      simp at hnil
    | cons next labels =>
      rw [text_cons_cons] at hnil
      simp at hnil

/-- A label is put behind others with a comma. -/
theorem text_concat (labels : Labels) (label : String × String) :
    text (labels ++ [label]) =
      (if labels.text.isEmpty then "" else labels.text ++ ",") ++ labelText label := by
  rw [text_isEmpty, text, List.map_append]
  cases labels with
  | nil =>
    show String.intercalate "," [labelText label] = "" ++ labelText label
    rw [String.intercalate_singleton, String.empty_append]
  | cons first labels =>
    have happend : String.intercalate "," ((first :: labels).map labelText ++ [labelText label]) =
        text (first :: labels) ++ "," ++ String.intercalate "," [labelText label] :=
      String.intercalate_append_of_ne_nil (List.cons_ne_nil _ _) (List.cons_ne_nil _ _)
    rw [String.intercalate_singleton] at happend
    exact happend

end Labels

open Exposition

namespace Metrics

/-- The state is one to which calls lead: each family is made by the calls on it, and the gateway
may drain or not. -/
structure Reachable (m : Metrics) : Prop where
  httpRequests : ∃ calls, m.httpRequests = CounterFamily.after calls
  wsRequests : ∃ calls, m.wsRequests = CounterFamily.after calls
  handlerErrors : ∃ calls, m.handlerErrors = CounterFamily.after calls
  handshakes : ∃ calls, m.handshakes = CounterFamily.after calls
  wsSessionsActive : ∃ calls, m.wsSessionsActive = GaugeFamily.after calls
  dispatchDuration : ∃ observations, m.dispatchDuration = HistogramFamily.after observations
  decodeErrors : ∃ calls, m.decodeErrors = CounterFamily.after calls
  unknownOps : ∃ calls, m.unknownOps = CounterFamily.after calls
  framesRejected : ∃ calls, m.framesRejected = CounterFamily.after calls

/-- All names can stand in lines, as identifiers can (`isName_of_identifier`), and no further line
has a name that begins with a family's. Nothing is asked of the values of labels, and a label may
have the name under which bounds are written. -/
structure WellNamed (m : Metrics) (extra : List (String × UInt64)) : Prop where
  labels : ∀ F ∈ families, ∀ labels ∈ (F.series m).keys, ∀ label ∈ labels, IsName label.1
  extra : ∀ e ∈ extra, IsName e.1 ∧ ∀ F ∈ families, ¬ F.name.toList <+: e.1.toList

variable {m : Metrics} {extra : List (String × UInt64)} {F : Family}

theorem Reachable.whole_durations (h : m.Reachable) : m.dispatchDuration.Whole := by
  obtain ⟨observations, hdurations⟩ := h.dispatchDuration
  exact hdurations ▸ HistogramFamily.whole_after observations

/-- What a reachable registry holds has all the lines of its kind. -/
theorem Reachable.whole (h : m.Reachable) (hF : F ∈ families) {labels : Labels}
    {x : F.kind.Holding} (hx : (F.series m).get? labels = some x) : F.kind.Whole x := by
  simp only [families, List.mem_cons, List.not_mem_nil, or_false] at hF
  rcases hF with rfl | rfl | rfl | rfl | rfl | rfl | rfl | rfl | rfl | rfl
  exacts [trivial, trivial, trivial, trivial, trivial, h.whole_durations labels x hx, trivial,
    trivial, trivial, trivial]

/-! ## The lines of a state -/

/-- A series of numbers has one line, with the family's name and the labels of the series. -/
theorem lines_number {k : Kind} {number : k.Holding → Int} (hendings : k.endings = [("", [])])
    (hvalues : ∀ x, k.values x = [number x]) (name : String)
    (series : Metrics → FinMap Labels k.Holding) (m : Metrics) :
    Family.lines ⟨name, k, series⟩ m = typeLine name k.word ::
      (series m).entries.map fun e => seriesLine name e.1 (toString (number e.2)) := by
  have hline : ∀ e : Labels × k.Holding, Family.seriesLines ⟨name, k, series⟩ e.1 e.2 =
      [seriesLine name e.1 (toString (number e.2))] := by
    intro e
    show (((k.endings.map _).zip (k.values e.2)).map _).map _ = _
    rw [hendings, hvalues]
    show [seriesLine (name ++ "") (e.1 ++ []) _] = _
    rw [String.append_empty, List.append_nil]
  rw [List.map_eq_flatMap]
  exact congrArg (_ :: ·) (List.flatMap_congr fun e _ => hline e)

/-- A bucket is written as a series that has its bound as one more label. -/
theorem line_bucket (name : String) (labels : Labels) {bound : String}
    (hbound : Labels.escaped bound = bound) (n : UInt64) :
    Point.line ⟨name ++ "_bucket", labels ++ [("le", bound)], n.toNat⟩ =
      bucketLine name labels bound n := by
  have hlabel : Labels.labelText ("le", bound) = "le=\"" ++ bound ++ "\"" := by
    rw [Labels.labelText, hbound]
    rfl
  rw [Point.line, seriesLine, if_neg (by simp), Labels.text_concat, hlabel]
  show _ = name ++ "_bucket\x7b" ++ (if labels.text.isEmpty then "" else labels.text ++ ",") ++
    "le=\"" ++ bound ++ "\"\x7d " ++ toString n.toNat
  have hopen : "_bucket" ++ ("\x7b" : String) = "_bucket\x7b" := by decide
  have hclose : "\"" ++ ("\x7d " : String) = "\"\x7d " := by decide
  simp only [String.append_assoc, ← hopen, ← hclose]
  rfl

/-- A histogram has a line for each bucket, one for the bucket without bound, and the last two. -/
theorem line_points_histogram (name : String) (labels : Labels) {h : Histogram}
    (hwhole : Kind.histogram.Whole h) :
    (Kind.histogram.points name labels h).map Point.line = histogramSeries name labels h := by
  -- Bounds are numbers, so escaping leaves their texts alone.
  have htexts : ∀ text ∈ Kind.boundTexts, Labels.escaped text = text := by decide
  have hbounds : ∀ bound ∈ Histogram.bounds,
      Labels.escaped (toString bound.toNat) = toString bound.toNat :=
    fun _ hbound => htexts _ (List.mem_append_left _ (List.mem_map_of_mem hbound))
  have hkeys : Kind.histogram.keys name labels = Histogram.bounds.map
        (fun bound => (name ++ "_bucket", labels ++ [("le", toString bound.toNat)])) ++
      [(name ++ "_bucket", labels ++ [("le", "+Inf")]), (name ++ "_sum", labels ++ []),
        (name ++ "_count", labels ++ [])] := rfl
  rw [Kind.points, hkeys, Kind.values, List.map_append, List.zip_append, List.map_append,
    List.map_append, histogramSeries]
  · congr 1
    · show _ = List.zipWith (Function.curry fun e : UInt64 × UInt64 =>
        bucketLine name labels (toString e.1.toNat) e.2) Histogram.bounds h.buckets
      rw [List.zip_map, List.map_map, List.map_map, ← List.map_zip_eq_zipWith]
      exact List.map_congr_left fun e he =>
        line_bucket name labels (hbounds e.1 (List.of_mem_zip he).1) e.2
    · rw [List.append_nil]
      exact congrArg (· :: _) (line_bucket name labels (by decide) h.count)
  · rw [List.length_map, List.length_map]
    exact hwhole.symm

/-- A histogram family prints the type line and the lines of its points. -/
theorem lines_histogram (name : String) (field : Metrics → HistogramFamily) {m : Metrics}
    (h : (field m).Whole) :
    Family.lines ⟨name, .histogram, field⟩ m = histogramLines name (field m) := by
  refine congrArg (_ :: ·) (List.flatMap_congr fun e he => ?_)
  exact line_points_histogram name e.1 (h e.1 e.2 (FinMap.get?_eq_some_iff.mpr he))

def extraPoint (e : String × UInt64) : Point := ⟨e.1, [], e.2.toNat⟩

/-- **The lines of a state** are those of its families, with further lines behind them. -/
theorem lines_eq (h : m.Reachable) (extra : List (String × UInt64)) :
    m.lines extra = families.flatMap (·.lines m) ++ extra.map fun e => (extraPoint e).line := by
  have hcounter : ∀ name field, Family.lines ⟨name, .counter, field⟩ m =
      counterLines name (field m) := fun name field =>
    @lines_number .counter (fun n => n.toNat) rfl (fun _ => rfl) name field m
  have hgauge : Family.lines ⟨"metricws_ws_sessions_active", .gauge, wsSessionsActive⟩ m =
      gaugeLines "metricws_ws_sessions_active" m.wsSessionsActive :=
    @lines_number .gauge (fun n => n.toInt) rfl (fun _ => rfl) _ wsSessionsActive m
  have hhistogram :=
    lines_histogram "metricws_dispatch_duration_micros" dispatchDuration h.whole_durations
  -- The flag is printed as a gauge with one series that has no labels.
  have hdraining : Family.lines ⟨"metricws_draining", .gauge,
        fun m => FinMap.empty.insert [] (if m.draining then 1 else 0)⟩ m =
      [typeLine "metricws_draining" "gauge",
        "metricws_draining " ++ (if m.draining then "1" else "0")] := by
    rw [@lines_number .gauge (fun n => n.toInt) rfl (fun _ => rfl)]
    cases m.draining <;> rfl
  simp only [families, List.flatMap_cons, List.flatMap_nil, hcounter, hgauge, hhistogram,
    hdraining, List.append_nil, lines, List.append_assoc]
  rfl

/-! ## What is read from the lines -/

/-- A reader of points skips the type lines. -/
theorem read?_typeLine (name kind : String) : Point.read? (typeLine name kind) = none := by
  have hhead : (typeLine name kind).toList.head? = some '#' := by
    rw [typeLine, String.toList_append, String.toList_append, String.toList_append]
    rfl
  rw [Point.read?, if_pos hhead]

/-- Lines of points are read back to the points. -/
theorem filterMap_read?_line {points : List Point} (h : ∀ q ∈ points, q.WellNamed) :
    (points.map Point.line).filterMap Point.read? = points := by
  rw [List.filterMap_map]
  have hread : ∀ q ∈ points, (Point.read? ∘ Point.line) q = some q :=
    fun q hq => Point.read?_line (h q hq)
  rw [List.filterMap_congr hread, List.filterMap_some]

namespace WellNamed

/-- Well-named metrics print well-named points. -/
theorem points (h : m.WellNamed extra) (hF : F ∈ families) {e : Labels × F.kind.Holding}
    (he : e ∈ (F.series m).entries) : ∀ q ∈ F.kind.points F.name e.1 e.2, q.WellNamed :=
  Kind.wellNamed_points (Family.isName hF)
    (h.labels F hF e.1 (List.mem_map_of_mem he))

theorem extraPoints (h : m.WellNamed extra) : ∀ q ∈ extra.map extraPoint, q.WellNamed := by
  intro q hq
  obtain ⟨e, he, rfl⟩ := List.mem_map.mp hq
  exact ⟨(h.extra e he).1, nofun⟩

/-- The points of a family's series are read from its lines, and nothing else. -/
theorem read_lines (h : m.WellNamed extra) (hF : F ∈ families) :
    (F.lines m).filterMap Point.read? =
      (F.series m).entries.flatMap fun e => F.kind.points F.name e.1 e.2 := by
  rw [Family.lines, List.filterMap_cons_none (read?_typeLine _ _), List.filterMap_flatMap]
  exact List.flatMap_congr fun e he => filterMap_read?_line (h.points hF he)

/-- No line of the text breaks in two. -/
theorem newline_notMem_lines (h : m.WellNamed extra) (hreach : m.Reachable) :
    ∀ line ∈ m.lines extra, '\n' ∉ line.toList := by
  rw [lines_eq hreach, List.forall_mem_append]
  constructor
  · intro line hline
    obtain ⟨F, hF, hmem⟩ := List.mem_flatMap.mp hline
    rcases List.mem_cons.mp hmem with rfl | hseries
    · have hname : '\n' ∉ F.name.toList := (Family.isName hF).notMem (by decide)
      have hword : '\n' ∉ F.kind.word.toList := by cases F.kind <;> decide
      simp [typeLine, hname, hword]
    · obtain ⟨e, he, hpoint⟩ := List.mem_flatMap.mp hseries
      obtain ⟨q, hq, rfl⟩ := List.mem_map.mp hpoint
      exact Point.newline_notMem_line (h.points hF he q hq)
  · intro line hline
    obtain ⟨e, he, rfl⟩ := List.mem_map.mp hline
    exact Point.newline_notMem_line (h.extraPoints _ (List.mem_map_of_mem he))

/-- The text is cut into the lines of the state and nothing behind them. -/
theorem split_render (h : m.WellNamed extra) (hreach : m.Reachable) :
    Text.split '\n' (m.render extra) = m.lines extra ++ [""] :=
  Text.split_ended (h.newline_notMem_lines hreach)

/-- **What is read from the text**: the points of all series, and those of the further lines. -/
theorem read_render (h : m.WellNamed extra) (hreach : m.Reachable) :
    (Text.split '\n' (m.render extra)).filterMap Point.read? =
      (families.flatMap fun F => (F.series m).entries.flatMap fun e =>
        F.kind.points F.name e.1 e.2) ++ extra.map extraPoint := by
  have hextra : (extra.map fun e => (extraPoint e).line).filterMap Point.read? =
      extra.map extraPoint := by
    rw [← filterMap_read?_line h.extraPoints, List.map_map]
    rfl
  have hempty : [""].filterMap Point.read? = [] := rfl
  rw [h.split_render hreach, lines_eq hreach, List.filterMap_append, List.filterMap_append,
    hempty, List.append_nil, hextra, List.filterMap_flatMap]
  exact congrArg (· ++ _) (List.flatMap_congr fun F hF => h.read_lines hF)

/-- What is read under the name of a family comes from its series. -/
theorem mem_read_render_iff (h : m.WellNamed extra) (hreach : m.Reachable) (hF : F ∈ families)
    {q : Point} (hq : F.name.toList <+: q.name.toList) :
    q ∈ (Text.split '\n' (m.render extra)).filterMap Point.read? ↔
      ∃ labels x, (F.series m).get? labels = some x ∧ q ∈ F.kind.points F.name labels x := by
  rw [h.read_render hreach, List.mem_append, List.mem_flatMap]
  constructor
  · rintro (⟨F', hF', hmem⟩ | hmem)
    · obtain ⟨e, he, hpoint⟩ := List.mem_flatMap.mp hmem
      obtain rfl := Family.eq_of_prefix hF hF' hq (Kind.prefix_of_mem_points hpoint)
      exact ⟨e.1, e.2, FinMap.get?_eq_some_iff.mpr he, hpoint⟩
    · obtain ⟨e, he, rfl⟩ := List.mem_map.mp hmem
      exact absurd hq ((h.extra e he).2 F hF)
  · rintro ⟨labels, x, hget, hpoint⟩
    refine .inl ⟨F, hF, List.mem_flatMap.mpr ⟨(labels, x), ?_, hpoint⟩⟩
    exact FinMap.get?_eq_some_iff.mp hget

/-- **A series is recovered from the text** with what it holds, and the text tells of no other. -/
theorem told_iff (h : m.WellNamed extra) (hreach : m.Reachable) (hF : F ∈ families)
    (labels : Labels) (x : F.kind.Holding) :
    F.Told (Text.split '\n' (m.render extra)) labels x ↔ (F.series m).get? labels = some x := by
  have hread := fun {q : Point} => h.mem_read_render_iff hreach hF (q := q)
  constructor
  · rintro ⟨hwhole, hpoints⟩
    -- a point tells the labels of its series, so all of them come from the series of these labels
    have hfrom : ∀ q ∈ F.kind.points F.name labels x, ∃ y,
        (F.series m).get? labels = some y ∧ q ∈ F.kind.points F.name labels y := by
      intro q hq
      obtain ⟨labels', y, hget, hpoint⟩ :=
        (hread (Kind.prefix_of_mem_points hq)).mp (hpoints q hq)
      obtain rfl : labels = labels' := Kind.labels_eq_of_mem_keys
        (Kind.key_mem_of_mem_points hq) (Kind.key_mem_of_mem_points hpoint)
      exact ⟨y, hget, hpoint⟩
    obtain ⟨q₀, hq₀⟩ := List.exists_mem_of_length_pos (Kind.length_points_pos hwhole)
    obtain ⟨y, hget, -⟩ := hfrom q₀ hq₀
    have hsubset : F.kind.points F.name labels x ⊆ F.kind.points F.name labels y := by
      intro q hq
      obtain ⟨y', hget', hpoint⟩ := hfrom q hq
      rwa [Option.some.inj (hget.symm.trans hget')]
    rw [hget, Kind.eq_of_points_subset hwhole (hreach.whole hF hget) hsubset]
  · intro hget
    refine ⟨hreach.whole hF hget, fun q hq => ?_⟩
    exact (hread (Kind.prefix_of_mem_points hq)).mpr ⟨labels, x, hget, hq⟩

/-! ## Lines of different series -/

/-- A line of a series is read back to one of its points. -/
theorem exists_read (h : m.WellNamed extra) (hF : F ∈ families) {e : Labels × F.kind.Holding}
    (he : e ∈ (F.series m).entries) {line : String} (hline : line ∈ F.seriesLines e.1 e.2) :
    ∃ q ∈ F.kind.points F.name e.1 e.2, Point.read? line = some q := by
  obtain ⟨q, hq, rfl⟩ := List.mem_map.mp hline
  exact ⟨q, hq, Point.read?_line (h.points hF he q hq)⟩

/-- Two series that have a line in common are the same one of the same family. -/
theorem eq_of_mem_seriesLines (h : m.WellNamed extra) {F' : Family} (hF : F ∈ families)
    (hF' : F' ∈ families) {e : Labels × F.kind.Holding} {e' : Labels × F'.kind.Holding}
    (he : e ∈ (F.series m).entries) (he' : e' ∈ (F'.series m).entries) {line : String}
    (hline : line ∈ F.seriesLines e.1 e.2) (hline' : line ∈ F'.seriesLines e'.1 e'.2) :
    F = F' ∧ e.1 = e'.1 := by
  obtain ⟨q, hq, hread⟩ := h.exists_read hF he hline
  obtain ⟨q', hq', hread'⟩ := h.exists_read hF' he' hline'
  obtain rfl : q = q' := Option.some.inj (hread.symm.trans hread')
  obtain rfl := Family.eq_of_prefix hF hF' (Kind.prefix_of_mem_points hq)
    (Kind.prefix_of_mem_points hq')
  exact ⟨rfl, Kind.labels_eq_of_mem_keys (Kind.key_mem_of_mem_points hq)
    (Kind.key_mem_of_mem_points hq')⟩

/-- A type line is not the line of a series. -/
theorem typeLine_notMem (h : m.WellNamed extra) (hF : F ∈ families) (name kind : String) :
    typeLine name kind ∉ (F.series m).entries.flatMap fun e => F.seriesLines e.1 e.2 := by
  intro hmem
  obtain ⟨e, he, hline⟩ := List.mem_flatMap.mp hmem
  obtain ⟨q, -, hread⟩ := h.exists_read hF he hline
  rw [read?_typeLine] at hread
  cases hread

/-- A family prints no line twice. -/
theorem nodup_family (h : m.WellNamed extra) (hreach : m.Reachable) (hF : F ∈ families) :
    (F.lines m).Nodup := by
  refine List.nodup_cons.mpr ⟨h.typeLine_notMem hF _ _, List.nodup_flatMap.mpr ⟨?_, ?_⟩⟩
  · intro e he
    have hwhole := hreach.whole hF (FinMap.get?_eq_some_iff.mpr he)
    refine List.Nodup.of_map Point.read? ?_
    have hread : (F.seriesLines e.1 e.2).map Point.read? =
        (F.kind.points F.name e.1 e.2).map some := by
      rw [Family.seriesLines, List.map_map]
      exact List.map_congr_left fun q hq => Point.read?_line (h.points hF he q hq)
    rw [hread]
    exact (Kind.nodup_points hwhole).map (Option.some_injective _)
  · have hkeys := List.pairwise_map.mp (F.series m).nodup
    refine hkeys.imp_of_mem fun he he' hne => List.disjoint_left.mpr fun line hline hline' => ?_
    exact hne (h.eq_of_mem_seriesLines hF hF he he' hline hline').2

/-- No line of the families occurs twice. -/
theorem nodup_lines (h : m.WellNamed extra) (hreach : m.Reachable) :
    (families.flatMap (·.lines m)).Nodup := by
  refine List.nodup_flatMap.mpr ⟨fun F hF => h.nodup_family hreach hF, ?_⟩
  refine Family.pairwise_apart.imp_of_mem fun {F F'} hF hF' hapart => ?_
  have hne : F ≠ F' := by
    rintro rfl
    exact hapart.1 (List.prefix_refl _)
  refine List.disjoint_left.mpr fun line hline hline' => ?_
  rcases List.mem_cons.mp hline with rfl | hseries
  · rcases List.mem_cons.mp hline' with htype | hseries'
    · exact hne (Family.eq_of_typeLine hF hF' htype)
    · exact h.typeLine_notMem hF' _ _ hseries'
  · rcases List.mem_cons.mp hline' with rfl | hseries'
    · exact h.typeLine_notMem hF _ _ hseries
    · obtain ⟨e, he, hmem⟩ := List.mem_flatMap.mp hseries
      obtain ⟨e', he', hmem'⟩ := List.mem_flatMap.mp hseries'
      exact hne (h.eq_of_mem_seriesLines hF hF' he he' hmem hmem').1

/-- A further line is not one of the families. -/
theorem extra_notMem (h : m.WellNamed extra) {e : String × UInt64} (he : e ∈ extra) :
    (extraPoint e).line ∉ families.flatMap (·.lines m) := by
  have hread := Point.read?_line (h.extraPoints _ (List.mem_map_of_mem he))
  intro hmem
  obtain ⟨F, hF, hline⟩ := List.mem_flatMap.mp hmem
  rcases List.mem_cons.mp hline with htype | hseries
  · rw [htype, read?_typeLine] at hread
    cases hread
  · obtain ⟨e', he', hline'⟩ := List.mem_flatMap.mp hseries
    obtain ⟨q, hq, hread'⟩ := h.exists_read hF he' hline'
    obtain rfl := Option.some.inj (hread'.symm.trans hread)
    exact (h.extra e he).2 F hF (Kind.prefix_of_mem_points hq)

end WellNamed

/-- **Labels forge nothing**, whatever values they have, in any state to which calls lead. The text
is cut at its line feeds into the lines of the families, one for the type of each and one or twelve
for each of its series, and the further lines. No line of the families occurs twice or is a further
line. With escapes undone, the lines tell of each family just the series that it has and what they
hold. So two states of which any series differs have texts of which some line differs, whatever
further lines there are. -/
theorem render_faithful (hreach : m.Reachable) (hnames : m.WellNamed extra) :
    let text := Text.split '\n' (m.render extra)
    text = families.flatMap (·.lines m) ++
        (extra.map fun e => e.1 ++ " " ++ toString e.2.toNat) ++ [""] ∧
      (∀ F ∈ families, ∀ labels x, (F.series m).get? labels = some x →
        (F.seriesLines labels x).length = F.kind.lineCount) ∧
      (families.flatMap (·.lines m)).Nodup ∧
      (∀ e ∈ extra, e.1 ++ " " ++ toString e.2.toNat ∉ families.flatMap (·.lines m)) ∧
      (∀ F ∈ families, ∀ labels x,
        F.Told text labels x ↔ (F.series m).get? labels = some x) ∧
      ∀ m' extra', m'.Reachable → m'.WellNamed extra' →
        (∀ line, line ∈ Text.split '\n' (m'.render extra') ↔ line ∈ text) →
        ∀ F ∈ families, ∀ labels, (F.series m').get? labels = (F.series m).get? labels := by
  intro text
  have htext : text = m.lines extra ++ [""] := hnames.split_render hreach
  refine ⟨?_, ?_, hnames.nodup_lines hreach, fun e he => hnames.extra_notMem he,
    fun F hF => hnames.told_iff hreach hF, ?_⟩
  · rw [htext, lines_eq hreach]
    rfl
  · intro F hF labels x hget
    rw [Family.seriesLines, List.length_map, Kind.length_points (hreach.whole hF hget)]
  · intro m' extra' hreach' hnames' hsame F hF labels
    refine Option.ext fun x => ?_
    rw [← hnames.told_iff hreach hF, ← hnames'.told_iff hreach' hF]
    exact Family.told_congr hsame labels x

/-- The name of an operation, chosen so as to end its line and begin one of another operation. -/
def forgedName : String := "echo\"\x7d 1\nmetricws_ws_requests_total\x7bop=\"ping"

/-- One request for the operation of that name. -/
def forged : Metrics := { wsRequests := CounterFamily.after [.inc [("op", forgedName)]] }

/-- One request for each of the two operations of which the name seems to tell. -/
def honest : Metrics :=
  { wsRequests := CounterFamily.after [.inc [("op", "echo")], .inc [("op", "ping")]] }

/-- The text of the first state tells of the one operation and not of the other, and it is not the
text of the second state. -/
theorem render_faithful_forged :
    let extra := Counters.named {}
    let text := Text.split '\n' (forged.render extra)
    let family : Family := ⟨"metricws_ws_requests_total", .counter, Metrics.wsRequests⟩
    forged.Reachable ∧ forged.WellNamed extra ∧ honest.Reachable ∧ honest.WellNamed extra ∧
      family.Told text [("op", forgedName)] (1 : UInt64) ∧
      ¬ family.Told text [("op", "ping")] (1 : UInt64) ∧
      ¬ ∀ line, line ∈ Text.split '\n' (honest.render extra) ↔ line ∈ text := by
  intro extra text family
  have hmem : family ∈ families := List.mem_cons_of_mem _ List.mem_cons_self
  have hreachable : ∀ calls, Reachable { wsRequests := CounterFamily.after calls } := fun calls =>
    ⟨⟨[], rfl⟩, ⟨calls, rfl⟩, ⟨[], rfl⟩, ⟨[], rfl⟩, ⟨[], rfl⟩, ⟨[], rfl⟩, ⟨[], rfl⟩, ⟨[], rfl⟩,
      ⟨[], rfl⟩⟩
  have hreach : forged.Reachable := hreachable _
  have hreach' : honest.Reachable := hreachable _
  have hextra : ∀ e ∈ extra, IsName e.1 ∧ ∀ F ∈ families, ¬ F.name.toList <+: e.1.toList := by
    decide +kernel
  have hforged : forged.WellNamed extra := ⟨by decide +kernel, hextra⟩
  have hhonest : honest.WellNamed extra := ⟨by decide +kernel, hextra⟩
  obtain ⟨-, -, -, -, htold, hsame⟩ := render_faithful hreach hforged
  refine ⟨hreach, hforged, hreach', hhonest, ?_, ?_, fun h => ?_⟩
  · exact (htold family hmem _ _).mpr (by decide +kernel)
  · rw [htold family hmem]
    decide +kernel
  · have hget := hsame honest extra hreach' hhonest h family hmem [("op", "ping")]
    revert hget
    decide +kernel

end Metrics

end WsGateway
