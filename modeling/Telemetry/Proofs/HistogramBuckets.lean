import Telemetry.Proofs.LabelledSeries

/-!
# The buckets of a histogram are cumulative and complete

A duration counts in every bucket whose bound it does not exceed, so each bucket
holds the number of durations up to its bound, a wider bucket holds no fewer
than a narrower one, and none holds more than the number of all durations. The
words that count may wrap; as long as fewer durations were counted than a word
can tell apart, they are exact. The sum alone may wrap before.

The rows of a histogram show just that: a row for each bound in increasing
order, a row for all durations, their sum and their number. Each of them is the
row of a count, whose last label is the bound, so what is known of such rows
holds of these as well.
-/
namespace Telemetry

/-- The whole microseconds of a span, or the largest word if it does not hold
them. -/
def Span.saturatedMicros (span : Span) : Nat :=
  min ((span.seconds.toNat * 1000000000 + span.nanos) / 1000) (UInt64.size - 1)

/-- A span in microseconds saturates at the largest word. Seconds and
nanoseconds may be turned into microseconds each on its own, since a second has
no part of one left over. -/
theorem Span.toNat_micros (span : Span) : span.micros.toNat = span.saturatedMicros := by
  have total : (span.seconds.toNat * 1000000000 + span.nanos) / 1000 =
      span.seconds.toNat * 1000000 + span.nanos / 1000 := by omega
  rw [Span.saturatedMicros, total, Span.micros]
  exact UInt64.toNat_ofNat_of_lt' (lt_of_le_of_lt (Nat.min_le_right _ _) (by decide))

namespace Metering

/-- How many of some spans are at most as long as a bound. -/
def within (spans : List Span) (bound : UInt64) : Nat :=
  spans.countP fun span => span.saturatedMicros ≤ bound.toNat

/-- No more spans are within a bound than there are. -/
theorem within_le (spans : List Span) (bound : UInt64) : within spans bound ≤ spans.length :=
  List.countP_le_length

/-- A larger bound takes in no fewer, for what does not exceed the smaller one
does not exceed the larger. -/
theorem within_mono (spans : List Span) {bound larger : UInt64} (ordered : bound ≤ larger) :
    within spans bound ≤ within spans larger := by
  apply List.countP_mono_left
  intro span _ short
  rw [decide_eq_true_iff] at short ⊢
  exact short.trans (UInt64.le_iff_toNat_le.mp ordered)

/-- The bounds of the buckets increase. -/
theorem bucketBounds_increasing : bucketBounds.Pairwise (· < ·) := by decide

/-- The bounds increase, so the numbers that they take in do not decrease. -/
theorem within_pairwise (spans : List Span) :
    (bucketBounds.map (within spans)).Pairwise (· ≤ ·) := by
  rw [List.pairwise_map]
  exact bucketBounds_increasing.imp fun narrower => within_mono spans (UInt64.le_of_lt narrower)

namespace Histogram

/-- The histogram of some spans. -/
def ofSpans (spans : List Span) : Histogram := spans.foldl observe {}

/-- A histogram that has counted exactly some spans, as far as words can
tell. -/
structure Records (histogram : Histogram) (spans : List Span) : Prop where
  count : histogram.count = UInt64.ofNat spans.length
  sum : histogram.sum = UInt64.ofNat (spans.map Span.saturatedMicros).sum
  buckets : histogram.buckets = bucketBounds.map fun bound => UInt64.ofNat (within spans bound)

/-- A new histogram has counted nothing, and each of its buckets is empty. -/
theorem records_nil : Records {} [] := ⟨rfl, rfl, rfl⟩

/-- One span more is counted once, added once, and noted in the buckets that it
fits. The equations hold between words, which wrap on both sides alike. -/
theorem records_observe {histogram : Histogram} {spans : List Span}
    (records : histogram.Records spans) (span : Span) :
    (histogram.observe span).Records (spans ++ [span]) := by
  constructor
  · rw [observe, records.count, List.length_append, UInt64.ofNat_add]
    rfl
  · rw [observe, records.sum, List.map_append, List.sum_append, UInt64.ofNat_add,
      List.map_singleton, List.sum_singleton, ← span.toNat_micros, UInt64.ofNat_toNat]
  · have noted (bound : UInt64) :
        (if span.micros ≤ bound then UInt64.ofNat (within spans bound) + 1
          else UInt64.ofNat (within spans bound)) =
          UInt64.ofNat (within (spans ++ [span]) bound) := by
      have fits : span.micros ≤ bound ↔ span.saturatedMicros ≤ bound.toNat := by
        rw [UInt64.le_iff_toNat_le, span.toNat_micros]
      rw [within, within, List.countP_append, List.countP_singleton]
      by_cases short : span.saturatedMicros ≤ bound.toNat
      · rw [if_pos (fits.mpr short), if_pos (decide_eq_true short), UInt64.ofNat_add]
        rfl
      · rw [if_neg (mt fits.mp short), if_neg (by simpa using short), Nat.add_zero]
    rw [observe, records.buckets, List.zipWith_map_right, List.zipWith_self]
    exact List.map_congr_left fun bound _ => noted bound

/-- The histogram of some spans has counted exactly these. -/
theorem records_ofSpans (spans : List Span) : (ofSpans spans).Records spans := by
  induction spans using List.reverseRecOn with
  | nil => exact records_nil
  | append_singleton former span inductionHypothesis =>
    rw [ofSpans, List.foldl_concat]
    exact records_observe inductionHypothesis span

/-- The numbers of a histogram whose count has not wrapped. -/
structure Exact (histogram : Histogram) (spans : List Span) : Prop where
  count : histogram.count.toNat = spans.length
  sum : histogram.sum.toNat = (spans.map Span.saturatedMicros).sum % UInt64.size
  buckets : histogram.buckets.map UInt64.toNat = bucketBounds.map (within spans)

/-- Fewer spans than a word can count are counted exactly, and so are those in
each bucket, of which there are no more. Only the sum may have wrapped. -/
theorem Records.exact {histogram : Histogram} {spans : List Span}
    (records : histogram.Records spans) (few : spans.length < UInt64.size) :
    histogram.Exact spans := by
  constructor
  · rw [records.count]
    exact UInt64.toNat_ofNat_of_lt' few
  · rw [records.sum]
    exact UInt64.toNat_ofNat' ..
  · rw [records.buckets, List.map_map]
    refine List.map_congr_left fun bound _ => ?_
    exact UInt64.toNat_ofNat_of_lt' ((within_le spans bound).trans_lt few)

/-- The histogram of so few spans is exact. -/
theorem exact_ofSpans {spans : List Span} (few : spans.length < UInt64.size) :
    (ofSpans spans).Exact spans :=
  (records_ofSpans spans).exact few

/-- The buckets do not decrease, and none exceeds the count, as is the case for
the numbers that they hold. -/
theorem Exact.cumulative {histogram : Histogram} {spans : List Span}
    (exact : histogram.Exact spans) :
    histogram.buckets.Pairwise (· ≤ ·) ∧
      ∀ bucket ∈ histogram.buckets, bucket ≤ histogram.count := by
  constructor
  · have ordered := within_pairwise spans
    rw [← exact.buckets, List.pairwise_map] at ordered
    exact ordered.imp UInt64.le_iff_toNat_le.mpr
  · intro bucket member
    have held := List.mem_map_of_mem (f := UInt64.toNat) member
    rw [exact.buckets, List.mem_map] at held
    obtain ⟨bound, _, same⟩ := held
    rw [UInt64.le_iff_toNat_le, exact.count, ← same]
    exact within_le spans bound

end Histogram

namespace Histograms

/-- What was counted under labels, one duration after another. -/
def ofObservations (observations : List (List Label × Span)) : Histograms :=
  observations.foldl (fun histograms (labels, span) => histograms.observe labels span) {}

/-- Under some labels a family holds the histogram of the durations that were
counted under their permutations, and none if there are none. -/
theorem get?_ofObservations (observations : List (List Label × Span)) (labels : List Label) :
    (ofObservations observations).get? labels =
      if under labels observations = [] then none
      else some (.ofSpans (under labels observations)) := by
  have held := Family.get?_foldl (fun _ => {}) (fun span histogram => histogram.observe span)
    observations ({} : Histograms) labels
  refine Eq.trans held ?_
  change (under labels observations).foldl _ none = _
  induction under labels observations using List.reverseRecOn with
  | nil => rfl
  | append_singleton former span inductionHypothesis =>
    have grown : former ++ [span] ≠ [] := by simp
    have step : Histogram.ofSpans (former ++ [span]) = (Histogram.ofSpans former).observe span :=
      List.foldl_concat ..
    rw [List.foldl_concat, inductionHypothesis, if_neg grown, step]
    by_cases first : former = []
    · rw [if_pos first, first]
      rfl
    · rw [if_neg first]
      rfl

/-- What the rows of a histogram show: for each row its series and its
number. -/
def shownRows (name : String) (key : Key) (spans : List Span) : List (String × Key × Nat) :=
  bucketBounds.map (fun bound =>
      (name ++ "_bucket", key ++ [("le", toString bound.toNat)], within spans bound)) ++
    [(name ++ "_bucket", key ++ [("le", "+Inf")], spans.length),
      (name ++ "_sum", key, (spans.map Span.saturatedMicros).sum % UInt64.size),
      (name ++ "_count", key, spans.length)]

/-- The text of a row. -/
def rowText : String × Key × Nat → String
  | (name, key, number) => key.series name ++ " " ++ toString number

/-- A row with a number that fits in a word is the row of a count. -/
theorem rowText_eq_row (name : String) (key : Key) (number : UInt64) :
    rowText (name, key, number.toNat) = Counters.row name (key, number) := rfl

/-- A label behind others stands behind a comma, and a label alone does not. -/
theorem toList_text_concat (key : Key) (label : Label) :
    (Key.text (key ++ [label])).toList =
      (if key.isEmpty then "" else key.text ++ ",").toList ++ label.text.toList := by
  induction key with
  | nil => simp [toList_text_singleton]
  | cons first others inductionHypothesis =>
    cases others with
    | nil => simp [toList_text_cons_cons, toList_text_singleton, String.toList_append]
    | cons next later =>
      rw [List.cons_append, List.cons_append, toList_text_cons_cons, ← List.cons_append,
        inductionHypothesis]
      simp [toList_text_cons_cons, String.toList_append]

/-- The line of a bucket is the row of a count whose last label is the bound.
The line is put together without escaping the bound, which has nothing in it to
escape. -/
theorem bucketLine_eq {bound : String} (plain : Label.escape bound = bound) (name : String)
    (key : Key) (count : UInt64) :
    bucketLine name key bound count =
      rowText (name ++ "_bucket", key ++ [("le", bound)], count.toNat) := by
  apply String.toList_injective
  simp [bucketLine, rowText, Key.series, toList_text_concat, Label.text, plain,
    String.toList_append]

/-- Digits are written as they are, since none of them is a character that is
escaped. -/
theorem escape_toString (number : Nat) : Label.escape (toString number) = toString number := by
  have digit : ∀ c ∈ Nat.toDigits 10 number, Label.escapeChar c = [c] := by
    intro c member
    have isDigit := Nat.isDigit_of_mem_toDigits (by decide) (by decide) member
    apply Label.escapeChar_of_ordinary
    all_goals
      rintro rfl
      exact absurd isDigit (by decide)
  apply String.toList_injective
  rw [Label.escape, String.toList_ofList, Nat.toString_eq_repr, Nat.toList_repr,
    List.flatMap_congr digit, List.flatMap_singleton']

/-- The rows of a histogram show its numbers: nine buckets, all durations, the
sum and the number, each of them as the row of a count. -/
theorem seriesRows_eq {histogram : Histogram} {spans : List Span} (exact : histogram.Exact spans)
    (name : String) (key : Key) :
    seriesRows name key histogram = (shownRows name key spans).map rowText := by
  have buckets : List.zipWith (fun bound bucket =>
        bucketLine name key (toString bound.toNat) bucket) bucketBounds histogram.buckets =
      bucketBounds.map fun bound =>
        rowText (name ++ "_bucket", key ++ [("le", toString bound.toNat)], within spans bound) := by
    simp only [bucketLine_eq (escape_toString _)]
    rw [← List.zipWith_map_right (g := fun (bound : UInt64) number =>
        rowText (name ++ "_bucket", key ++ [("le", toString bound.toNat)], number))
          (f := UInt64.toNat),
      exact.buckets, List.zipWith_map_right, List.zipWith_self]
  rw [seriesRows, buckets, bucketLine_eq (by decide), exact.count, exact.sum, shownRows,
    List.map_append, List.map_map]
  rfl

/-- The stored keys, in the order in which they were first touched. -/
def keys (histograms : Histograms) : List Key := histograms.entries.map Prod.fst

/-- After any observations, the stored keys are those of the labels that were
observed, each of them once. -/
theorem keys_ofObservations (observations : List (List Label × Span)) :
    (ofObservations observations).keys.Nodup ∧
      ∀ key, key ∈ (ofObservations observations).keys ↔
        ∃ observation ∈ observations, Key.ofLabels observation.1 = key := by
  obtain ⟨distinct, touched⟩ := Family.keys_foldl (fun _ => {})
    (fun span (histogram : Histogram) => histogram.observe span) observations
  refine ⟨distinct, fun key => ?_⟩
  rw [← List.mem_map]
  exact touched key

/-- Each stored histogram is that of the durations counted under its key, which
a lookup under the labels of the key finds. -/
theorem entry_ofObservations {observations : List (List Label × Span)} {entry : Key × Histogram}
    (stored : entry ∈ (ofObservations observations).entries) :
    entry.2 = .ofSpans (under entry.1 observations) := by
  obtain ⟨distinct, touched⟩ := keys_ofObservations observations
  obtain ⟨observation, _, made⟩ := (touched entry.1).mp (List.mem_map_of_mem stored)
  have sorted : Key.ofLabels entry.1 = entry.1 := by
    rw [← made, Key.ofLabels_eq_iff_perm]
    exact List.mergeSort_perm observation.1 Label.le
  have found : (ofObservations observations).get? entry.1 = some entry.2 := by
    rw [Family.get?, sorted]
    exact (lookup_eq_some_iff_mem distinct entry.1 entry.2).mpr stored
  rw [get?_ofObservations] at found
  split at found
  · cases found
  · exact (Option.some.inj found).symm

/-- The rows of a stored histogram show the durations counted under its key.
These are no more than all durations, so none of its counts has wrapped. -/
theorem seriesRows_of_stored {observations : List (List Label × Span)}
    (few : observations.length < UInt64.size) {entry : Key × Histogram}
    (stored : entry ∈ (ofObservations observations).entries) (name : String) :
    seriesRows name entry.1 entry.2 =
      (shownRows name entry.1 (under entry.1 observations)).map rowText := by
  rw [entry_ofObservations stored]
  exact seriesRows_eq (Histogram.exact_ofSpans
    ((length_under_le entry.1 observations).trans_lt few)) name entry.1

/-- All that a family shows are such rows, for each of its keys, behind one
header. -/
theorem lines_ofObservations {observations : List (List Label × Span)}
    (few : observations.length < UInt64.size) (name : String) :
    (ofObservations observations).lines name =
      arrange seriesHeight (header name "histogram" ::
        (ofObservations observations).keys.flatMap fun key =>
          (shownRows name key (under key observations)).map rowText) := by
  rw [keys, List.flatMap_map,
    ← List.flatMap_congr fun entry stored => seriesRows_of_stored few stored name]
  rfl

section Plainly

variable {name : String} {key : Key} {spans : List Span}

/-- What a row shows is plain where the names are, and fits in a word. The
endings that are put behind the name and the label of the bound are plain. -/
theorem plain_of_mem_shownRows (plainName : Plain name) (plain : key.Plain)
    (few : spans.length < UInt64.size) {row : String × Key × Nat}
    (shown : row ∈ shownRows name key spans) :
    Plain row.1 ∧ row.2.1.Plain ∧ row.2.2 < UInt64.size := by
  have suffixed {suffix : String} (plainSuffix : Plain suffix) : Plain (name ++ suffix) := by
    intro c member
    rw [String.toList_append, List.mem_append] at member
    exact member.elim (plainName c) (plainSuffix c)
  have bounded (bound : String) : Key.Plain (key ++ [("le", bound)]) := by
    intro label member
    rw [List.mem_append, List.mem_singleton] at member
    rcases member with own | rfl
    · exact plain label own
    · exact (by decide : Plain "le")
  rw [shownRows, List.mem_append, List.mem_map] at shown
  rcases shown with ⟨bound, _, rfl⟩ | last
  · exact ⟨suffixed (by decide), bounded _, (within_le spans bound).trans_lt few⟩
  · simp only [List.mem_cons, List.not_mem_nil, or_false] at last
    rcases last with rfl | rfl | rfl
    · exact ⟨suffixed (by decide), bounded _, few⟩
    · exact ⟨suffixed (by decide), plain, Nat.mod_lt _ (by decide)⟩
    · exact ⟨suffixed (by decide), plain, few⟩

/-- Such a row is one line, no header, and tells its series and its number, as
it is the row of a count. -/
theorem readRow_rowText {row : String × Key × Nat}
    (plain : Plain row.1 ∧ row.2.1.Plain ∧ row.2.2 < UInt64.size) :
    OneLine (rowText row) ∧ isHeader (rowText row) = false ∧ readRow (rowText row) = some row := by
  obtain ⟨series, key, number⟩ := row
  obtain ⟨plainSeries, plainKey, small⟩ := plain
  have asCount : rowText (series, key, number) =
      Counters.row series (key, UInt64.ofNat number) := by
    rw [← rowText_eq_row, UInt64.toNat_ofNat_of_lt' small]
  refine ⟨?_, ?_, ?_⟩
  · rw [asCount]
    exact Counters.oneLine_row plainSeries plainKey
  · rw [asCount]
    exact Counters.isHeader_row plainSeries plainKey
  · rw [asCount, Counters.readRow_row plainSeries plainKey, UInt64.toNat_ofNat_of_lt' small]

end Plainly

/-- Where the names are plain, the rows of each key are lines that stay
together, whatever the order of the keys. -/
theorem lines_blocks_ofObservations {observations : List (List Label × Span)}
    (few : observations.length < UInt64.size) {name : String} (plainName : Plain name)
    (plain : ∀ key ∈ (ofObservations observations).keys, key.Plain) :
    ∃ blocks : List (List String),
      blocks.Perm ((ofObservations observations).keys.map fun key =>
        (shownRows name key (under key observations)).map rowText) ∧
      (ofObservations observations).lines name = header name "histogram" :: blocks.flatten := by
  have rows (entry : Key × Histogram) (stored : entry ∈ (ofObservations observations).entries) :=
    seriesRows_of_stored few stored name
  have read : ∀ entry ∈ (ofObservations observations).entries,
      ∀ row ∈ seriesRows name entry.1 entry.2, OneLine row ∧ isHeader row = false := by
    intro entry stored
    rw [rows entry stored, List.forall_mem_map]
    intro row shown
    obtain ⟨oneLine, body, -⟩ := readRow_rowText (plain_of_mem_shownRows plainName
      (plain entry.1 (List.mem_map_of_mem stored))
      ((length_under_le entry.1 observations).trans_lt few) shown)
    exact ⟨oneLine, body⟩
  obtain ⟨blocks, ordered, lined⟩ := Family.lines_blocks (ofObservations observations)
    (by decide : 0 < seriesHeight) (seriesRows name)
    (oneLine_header plainName (by decide : Plain "histogram") (by decide))
    (fun entry stored => by rw [rows entry stored]; rfl)
    (fun entry stored row member => (read entry stored row member).1)
    (fun entry stored row member => (read entry stored row member).2)
  refine ⟨blocks, ?_, lined⟩
  rw [keys, List.map_map]
  exact ordered.trans (List.Perm.of_eq (List.map_congr_left rows))

/-- The numbers of the bucket rows, the last of them for all durations, do not
decrease. The sum and the number come behind them and are left out here. -/
theorem shownRows_cumulative (name : String) (key : Key) (spans : List Span) :
    (((shownRows name key spans).take (bucketBounds.length + 1)).map
      fun row => row.2.2).Pairwise (· ≤ ·) := by
  have numbers : ((shownRows name key spans).take (bucketBounds.length + 1)).map
      (fun row => row.2.2) = bucketBounds.map (within spans) ++ [spans.length] := rfl
  rw [numbers, List.pairwise_append]
  refine ⟨within_pairwise spans, List.pairwise_singleton _ _, ?_⟩
  intro number member total last
  obtain ⟨bound, _, rfl⟩ := List.mem_map.mp member
  rw [List.mem_singleton.mp last]
  exact within_le spans bound

/-- After fewer observations than a word can count, under any labels in any
order: the count is the number of durations observed under these labels, each
bucket holds the number of those up to its bound, buckets do not decrease and
stay below the count, and the sum is exact up to the size of a word. What is
shown is a header with twelve rows for each set of labels that was observed: the
nine buckets by increasing bounds and all durations, with numbers that do not
decrease, then the sum and the number. Where the names are plain, each row is a
line, the twelve stay together and every line can be read back.

Each histogram of the family is that of the durations under its labels, and no
count in it has wrapped. Its rows are rows of counts, of which it is known how
they are read. -/
theorem buckets_cumulative {observations : List (List Label × Span)}
    (few : observations.length < UInt64.size) :
    let histograms := ofObservations observations
    (∀ labels,
      (histograms.count labels).toNat = (under labels observations).length ∧
        (histograms.get? labels = none ↔ under labels observations = []) ∧
        ∀ histogram, histograms.get? labels = some histogram →
          histogram.Exact (under labels observations) ∧ histogram.buckets.Pairwise (· ≤ ·) ∧
            ∀ bucket ∈ histogram.buckets, bucket ≤ histogram.count) ∧
      bucketBounds.length = 9 ∧ bucketBounds.Pairwise (· < ·) ∧
      histograms.keys.Nodup ∧
      (∀ key, key ∈ histograms.keys ↔
        ∃ observation ∈ observations, Key.ofLabels observation.1 = key) ∧
      ∀ name,
        let block := fun key => (shownRows name key (under key observations)).map rowText
        histograms.lines name =
            arrange seriesHeight (header name "histogram" :: histograms.keys.flatMap block) ∧
          (∀ key ∈ histograms.keys,
            (((shownRows name key (under key observations)).take (bucketBounds.length + 1)).map
              fun row => row.2.2).Pairwise (· ≤ ·)) ∧
          (Plain name → (∀ observation ∈ observations, Key.Plain observation.1) →
            (∃ blocks : List (List String), blocks.Perm (histograms.keys.map block) ∧
              histograms.lines name = header name "histogram" :: blocks.flatten) ∧
            ∀ key ∈ histograms.keys, ∀ row ∈ shownRows name key (under key observations),
              readRow (rowText row) = some row) := by
  intro histograms
  have fewUnder (labels : List Label) : (under labels observations).length < UInt64.size :=
    (length_under_le labels observations).trans_lt few
  have exact (labels : List Label) := Histogram.exact_ofSpans (fewUnder labels)
  obtain ⟨distinct, touched⟩ := keys_ofObservations observations
  refine ⟨?_, rfl, bucketBounds_increasing, distinct, touched, ?_⟩
  · intro labels
    have held := get?_ofObservations observations labels
    rw [count, held]
    by_cases unobserved : under labels observations = []
    · rw [if_pos unobserved, unobserved]
      exact ⟨rfl, iff_of_true rfl rfl, fun _ found => by cases found⟩
    · rw [if_neg unobserved]
      refine ⟨(exact labels).count, iff_of_false (Option.some_ne_none _) unobserved, ?_⟩
      rintro histogram ⟨⟩
      exact ⟨exact labels, (exact labels).cumulative⟩
  · intro name block
    refine ⟨lines_ofObservations few name, fun key _ => shownRows_cumulative name key _, ?_⟩
    intro plainName plainLabels
    have plain : ∀ key ∈ histograms.keys, key.Plain := by
      intro key stored
      obtain ⟨observation, listed, rfl⟩ := (touched key).mp stored
      exact Key.plain_ofLabels (plainLabels observation listed)
    refine ⟨lines_blocks_ofObservations few plainName plain, ?_⟩
    intro key stored row shown
    exact (readRow_rowText
      (plain_of_mem_shownRows plainName (plain key stored) (fewUnder key) shown)).2.2

/-- Three durations under two labels in either order: one at a bound, one past
it and one too short to count a microsecond. The longest span under no label at
all saturates. -/
theorem buckets_cumulative_edges :
    let labels : List Label := [("stage", "derive"), ("host", "a")]
    let observations : List (List Label × Span) :=
      [(labels, ⟨0, 10999, by decide⟩), (labels.reverse, ⟨0, 11000, by decide⟩),
        ([], ⟨18446744073709551615, 999999999, by decide⟩), (labels, ⟨0, 999, by decide⟩)]
    observations.length < UInt64.size ∧
      ((ofObservations observations).count labels.reverse).toNat = 3 ∧
      ∃ histogram, (ofObservations observations).get? labels = some histogram ∧
        histogram.buckets.map UInt64.toNat = [2, 3, 3, 3, 3, 3, 3, 3, 3] := by
  intro labels observations
  have few : observations.length < UInt64.size := by decide
  obtain ⟨held, -⟩ := buckets_cumulative few
  refine ⟨few, (held labels.reverse).1.trans (by decide), ?_⟩
  obtain ⟨-, unobserved, exact⟩ := held labels
  cases found : (ofObservations observations).get? labels with
  | none => exact absurd (unobserved.mp found) (by decide)
  | some histogram =>
    exact ⟨histogram, rfl, (exact histogram found).1.buckets.trans (by decide)⟩

end Histograms

end Metering

end Telemetry
