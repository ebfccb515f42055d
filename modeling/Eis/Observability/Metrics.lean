import Mathlib.Data.String.Basic
import Mathlib.Data.Prod.Lex
import Eis.Foundation.MetricText
import Eis.Foundation.Ranking
import Eis.Foundation.Text

/-!
# The metrics registry and its export

Counters, gauges and histograms under a name and sorted labels.  The export escapes the
backslash and the quote in a label's value, and not the end of a line: it is read back
exactly when no value that was ever given holds one.
-/

set_option autoImplicit false

universe u

namespace Eis.Observability

open MetricText

class MetricNumber (ν : Type u) where
  zero : ν
  add : ν → ν → ν
  ofLength : ℕ → ν
  sum : List ν → ν

/-- `tuple[str, tuple[tuple[str, str], ...]]`, as `_key` builds it. -/
structure MetricKey where
  name : String
  labels : List (String × String)
  keyed : (labels.map Prod.fst).Nodup
  ordered : labels.Pairwise fun earlier later => toLex earlier ≤ toLex later
deriving DecidableEq

def MetricKey.dict (key : MetricKey) : OrderedDict String String := ⟨key.labels, key.keyed⟩

structure MetricSample (ν : Type u) where
  name : String
  value : ν
  labels : OrderedDict String String

structure MetricsRegistry (ν : Type u) where
  counters : OrderedDict MetricKey ν
  gauges : OrderedDict MetricKey ν
  histograms : OrderedDict MetricKey (List ν)

namespace MetricsRegistry

variable {ν : Type u}

def empty : MetricsRegistry ν := ⟨Table.empty, Table.empty, Table.empty⟩

/-- `(name, tuple(sorted(labels.items())))` -/
def key (name : String) (labels : OrderedDict String String) : MetricKey where
  name := name
  labels := Ranking.sorted toLex labels.rows
  keyed := ((Ranking.sorted_perm toLex labels.rows).map Prod.fst).nodup_iff.mpr labels.keyed
  ordered := Ranking.sorted_pairwise toLex labels.rows

section Updates
variable [MetricNumber ν] (registry : MetricsRegistry ν) (name : String) (value : ν)
  (labels : OrderedDict String String)

def increment : MetricsRegistry ν :=
  { registry with
    counters := registry.counters.setItem (key name labels)
      (MetricNumber.add ((registry.counters.get? (key name labels)).getD MetricNumber.zero)
        value) }

def setGauge : MetricsRegistry ν :=
  { registry with gauges := registry.gauges.setItem (key name labels) value }

def observe : MetricsRegistry ν :=
  { registry with
    histograms := registry.histograms.setItem (key name labels)
      ((registry.histograms.get? (key name labels)).getD [] ++ [value]) }

end Updates

/-! ## Export -/

section Export
variable [MetricNumber ν] (registry : MetricsRegistry ν)

def snapshot : List (MetricSample ν) :=
  (registry.counters.rows.map fun row => ⟨row.1.name, row.2, row.1.dict⟩) ++
    (registry.gauges.rows.map fun row => ⟨row.1.name, row.2, row.1.dict⟩) ++
    registry.histograms.rows.flatMap fun row =>
      if row.2 = [] then []
      else
        [⟨row.1.name ++ "_count", MetricNumber.ofLength row.2.length, row.1.dict⟩,
          ⟨row.1.name ++ "_sum", MetricNumber.sum row.2, row.1.dict⟩]

def escaped (value : String) : String :=
  Text.expandCharacter (Text.expandCharacter value '\\' "\\\\") '"' "\\\""

def rendered (label : String × String) : String :=
  label.1 ++ "=\"" ++ escaped label.2 ++ "\""

def line (format : NumberFormat ν) (sample : MetricSample ν) : String :=
  sample.name ++
    (if sample.labels.rows = [] then ""
      else "\x7b" ++ ",".intercalate ((Ranking.sorted toLex sample.labels.rows).map rendered) ++
        "\x7d") ++
    " " ++ format.write sample.value

def prometheus (format : NumberFormat ν) : String :=
  "\n".intercalate (registry.snapshot.map (line format)) ++
    (if registry.snapshot.map (line format) = [] then "" else "\n")

end Export

/-! ## The calls -/

inductive MetricCall (ν : Type u) where
  | increment (name : String) (value : ν) (labels : OrderedDict String String)
  | setGauge (name : String) (value : ν) (labels : OrderedDict String String)
  | observe (name : String) (value : ν) (labels : OrderedDict String String)

namespace MetricCall

def name : MetricCall ν → String
  | .increment name _ _ => name
  | .setGauge name _ _ => name
  | .observe name _ _ => name

def labels : MetricCall ν → OrderedDict String String
  | .increment _ _ labels => labels
  | .setGauge _ _ labels => labels
  | .observe _ _ labels => labels

structure Valid (call : MetricCall ν) : Prop where
  name : validName isNameStart isNamePart call.name = true
  labels : ∀ label ∈ call.labels.rows, validName isLabelStart isLabelPart label.1 = true

end MetricCall

section Calls
variable [MetricNumber ν]

def apply (registry : MetricsRegistry ν) : MetricCall ν → MetricsRegistry ν
  | .increment name value labels => registry.increment name value labels
  | .setGauge name value labels => registry.setGauge name value labels
  | .observe name value labels => registry.observe name value labels

def reached (calls : List (MetricCall ν)) : MetricsRegistry ν := calls.foldl apply empty

theorem reached_snoc (calls : List (MetricCall ν)) (call : MetricCall ν) :
    reached (calls ++ [call]) = apply (reached calls) call := by
  unfold reached
  rw [List.foldl_append]
  rfl

def keys (registry : MetricsRegistry ν) : List MetricKey :=
  registry.counters.rows.map Prod.fst ++ registry.gauges.rows.map Prod.fst ++
    registry.histograms.rows.map Prod.fst

theorem mem_keys_apply (registry : MetricsRegistry ν) (call : MetricCall ν) (k : MetricKey) :
    k ∈ (apply registry call).keys ↔ k ∈ registry.keys ∨ k = key call.name call.labels := by
  unfold keys
  cases call with
  | increment name value labels =>
      simp only [apply, increment, List.mem_append, OrderedDict.mem_keys_setItem,
        MetricCall.name, MetricCall.labels]
      tauto
  | setGauge name value labels =>
      simp only [apply, setGauge, List.mem_append, OrderedDict.mem_keys_setItem,
        MetricCall.name, MetricCall.labels]
      tauto
  | observe name value labels =>
      simp only [apply, observe, List.mem_append, OrderedDict.mem_keys_setItem,
        MetricCall.name, MetricCall.labels]
      tauto

theorem mem_keys_reached (calls : List (MetricCall ν)) (k : MetricKey) :
    k ∈ (reached calls).keys ↔ ∃ call ∈ calls, k = key call.name call.labels := by
  induction calls using List.reverseRecOn with
  | nil => exact iff_of_false (by rintro ⟨⟩) (by rintro ⟨_, ⟨⟩, _⟩)
  | append_singleton calls call ih =>
      rw [reached_snoc, mem_keys_apply, ih]
      simp [or_and_right, exists_or]

theorem observed (calls : List (MetricCall ν)) :
    ∀ row ∈ (reached calls).histograms.rows, row.2 ≠ [] := by
  induction calls using List.reverseRecOn with
  | nil => exact fun _ member => nomatch member
  | append_singleton calls call ih =>
      rw [reached_snoc]
      cases call with
      | increment name value labels => exact ih
      | setGauge name value labels => exact ih
      | observe name value labels =>
          intro row member
          have held := ((OrderedDict.get?_eq_some_iff _ _ _).mpr member)
          simp only [apply, observe, OrderedDict.get?_setItem] at held
          split at held
          · rw [← Option.some.inj held]
            simp
          · exact ih row ((OrderedDict.get?_eq_some_iff _ _ _).mp held)

end Calls

/-! ## Samples -/

section Samples
variable [MetricNumber ν] {registry : MetricsRegistry ν}

theorem mem_snapshot {sample : MetricSample ν} (member : sample ∈ registry.snapshot) :
    ∃ k ∈ registry.keys, sample.labels = k.dict ∧
      ∃ more ∈ ["", "_count", "_sum"], sample.name = k.name ++ more := by
  unfold snapshot at member
  unfold keys
  rcases List.mem_append.mp member with direct | histogram
  · rcases List.mem_append.mp direct with counter | gauge
    · obtain ⟨row, listed, rfl⟩ := List.mem_map.mp counter
      have own := List.mem_map_of_mem (f := Prod.fst) listed
      exact ⟨row.1, by simp [own], rfl, "", by simp, by simp⟩
    · obtain ⟨row, listed, rfl⟩ := List.mem_map.mp gauge
      have own := List.mem_map_of_mem (f := Prod.fst) listed
      exact ⟨row.1, by simp [own], rfl, "", by simp, by simp⟩
  · obtain ⟨row, listed, inside⟩ := List.mem_flatMap.mp histogram
    have own := List.mem_map_of_mem (f := Prod.fst) listed
    split at inside
    · cases inside
    · simp only [List.mem_cons, List.not_mem_nil, or_false] at inside
      rcases inside with rfl | rfl
      · exact ⟨row.1, by simp [own], rfl, "_count", by simp, rfl⟩
      · exact ⟨row.1, by simp [own], rfl, "_sum", by simp, rfl⟩

theorem exists_sample (observed : ∀ row ∈ registry.histograms.rows, row.2 ≠ [])
    {k : MetricKey} (held : k ∈ registry.keys) :
    ∃ sample ∈ registry.snapshot, sample.labels = k.dict := by
  unfold keys at held
  unfold snapshot
  rcases List.mem_append.mp held with direct | histogram
  · rcases List.mem_append.mp direct with counter | gauge
    · obtain ⟨row, listed, rfl⟩ := List.mem_map.mp counter
      refine ⟨⟨row.1.name, row.2, row.1.dict⟩, ?_, rfl⟩
      exact List.mem_append_left _ (List.mem_append_left _ (List.mem_map.mpr ⟨row, listed, rfl⟩))
    · obtain ⟨row, listed, rfl⟩ := List.mem_map.mp gauge
      refine ⟨⟨row.1.name, row.2, row.1.dict⟩, ?_, rfl⟩
      exact List.mem_append_left _ (List.mem_append_right _ (List.mem_map.mpr ⟨row, listed, rfl⟩))
  · obtain ⟨row, listed, rfl⟩ := List.mem_map.mp histogram
    refine ⟨⟨row.1.name ++ "_sum", MetricNumber.sum row.2, row.1.dict⟩, ?_, rfl⟩
    refine List.mem_append_right _ (List.mem_flatMap.mpr ⟨row, listed, ?_⟩)
    rw [if_neg (observed row listed)]
    simp

end Samples

/-! ## The export as a text -/

def escaping : Encoder where
  encode c := if c = '\\' then ['\\', '\\'] else if c = '"' then ['\\', '"'] else [c]
  reads := by
    intro c rest
    by_cases backslash : c = '\\'
    · subst backslash
      simp [readValue]
    · by_cases quote : c = '"'
      · subst quote
        simp [readValue]
      · simp [readValue, backslash, quote]
  breaks := by
    intro c broken
    split at broken
    · simp at broken
    · split at broken
      · simp at broken
      · rw [List.mem_singleton] at broken
        subst broken
        rfl

theorem toList_escaped (value : String) : (escaped value).toList = escaping.value value := by
  unfold escaped Text.expandCharacter Encoder.value
  simp only [String.toList_ofList, List.flatMap_assoc]
  refine List.flatMap_congr fun c _ => ?_
  by_cases backslash : c = '\\'
  · subst backslash
    rfl
  · simp [escaping, backslash]

theorem mem_value (value : String) : '\n' ∈ escaping.value value ↔ '\n' ∈ value.toList := by
  unfold Encoder.value
  rw [List.mem_flatMap]
  constructor
  · rintro ⟨c, member, broken⟩
    have raw : c = '\n' := by
      by_contra other
      have whole : '\n' ∉ escaping.encode c := by
        unfold escaping
        dsimp only
        split_ifs <;> simp [Ne.symm other]
      exact whole broken
    rwa [raw] at member
  · intro member
    exact ⟨'\n', member, by decide⟩

def entry (sample : MetricSample ν) : Sample ν :=
  ⟨sample.name, sample.labels.rows, sample.value⟩

theorem toList_line (format : NumberFormat ν) {sample : MetricSample ν}
    (ordered : sample.labels.rows.Pairwise fun earlier later => toLex earlier ≤ toLex later) :
    (line format sample).toList = escaping.sample format (entry sample) := by
  have sorted : Ranking.sorted toLex sample.labels.rows = sample.labels.rows :=
    ordered.insertionSort_eq
  have each : sample.labels.rows.map (fun label => (rendered label).toList) =
      sample.labels.rows.map escaping.label := by
    refine List.map_congr_left fun label _ => ?_
    simp [rendered, Encoder.label, toList_escaped]
  unfold line Encoder.sample entry
  rw [sorted]
  by_cases bare : sample.labels.rows = []
  · simp [bare]
  · simp [bare, String.toList_intercalate, Encoder.labels, ← each, Function.comp_def]

theorem toList_prometheus (format : NumberFormat ν) [MetricNumber ν]
    (registry : MetricsRegistry ν) :
    (registry.prometheus format).toList =
      registry.snapshot.flatMap fun sample => (line format sample).toList ++ ['\n'] := by
  unfold prometheus
  generalize registry.snapshot = samples
  induction samples with
  | nil => rfl
  | cons sample others ih =>
      cases others with
      | nil => simp
      | cons next rest =>
          simp only [List.map_cons, String.intercalate_cons_cons] at ih ⊢
          simpa using ih

/-- The export is the text of the snapshot. -/
theorem prometheus_eq (format : NumberFormat ν) [MetricNumber ν]
    (registry : MetricsRegistry ν) :
    registry.prometheus format = escaping.text format (registry.snapshot.map entry) := by
  apply String.toList_injective
  rw [toList_prometheus, Encoder.text, String.toList_ofList, List.flatMap_map]
  refine List.flatMap_congr fun sample member => ?_
  obtain ⟨k, _, labels, _⟩ := mem_snapshot member
  have ordered := k.ordered
  rw [toList_line format (by rw [labels]; exact ordered)]

/-! ## Reading the export back -/

theorem mem_key_labels {name : String} {labels : OrderedDict String String}
    {label : String × String} : label ∈ (key name labels).dict.rows ↔ label ∈ labels.rows :=
  Ranking.mem_sorted toLex

theorem entries_valid [MetricNumber ν] {calls : List (MetricCall ν)}
    (valid : ∀ call ∈ calls, call.Valid) :
    ∀ sample ∈ (reached calls).snapshot.map entry, sample.Valid := by
  intro exported member
  obtain ⟨sample, listed, rfl⟩ := List.mem_map.mp member
  obtain ⟨k, held, labels, more, suffix, name⟩ := mem_snapshot listed
  obtain ⟨call, made, rfl⟩ := (mem_keys_reached calls k).mp held
  have parts : more.toList.all isNamePart = true := by
    simp only [List.mem_cons, List.not_mem_nil, or_false] at suffix
    rcases suffix with rfl | rfl | rfl <;> decide
  constructor
  · change validName isNameStart isNamePart sample.name = true
    rw [name]
    exact validName_append (valid call made).name parts
  · intro label member
    change label ∈ sample.labels.rows at member
    rw [labels, mem_key_labels] at member
    exact (valid call made).labels label member

theorem exists_breaks [MetricNumber ν] {calls : List (MetricCall ν)} {call : MetricCall ν}
    (made : call ∈ calls) {label : String × String} (member : label ∈ call.labels.rows)
    (broken : '\n' ∈ label.2.toList) :
    ∃ sample ∈ (reached calls).snapshot.map entry, escaping.Breaks sample := by
  have held := (mem_keys_reached calls _).mpr ⟨call, made, rfl⟩
  obtain ⟨sample, listed, labels⟩ := exists_sample (observed calls) held
  refine ⟨entry sample, List.mem_map_of_mem listed, label, ?_, (mem_value _).mpr broken⟩
  change label ∈ sample.labels.rows
  rw [labels, mem_key_labels]
  exact member

/-- The export of what any calls reach is read back as the snapshot, exactly when no
label value of theirs holds the end of a line. -/
theorem prometheus_parse_iff [MetricNumber ν] (format : NumberFormat ν)
    (calls : List (MetricCall ν)) (valid : ∀ call ∈ calls, call.Valid) :
    parse format.read ((reached calls).prometheus format) =
        some ((reached calls).snapshot.map entry) ↔
      ∀ call ∈ calls, ∀ label ∈ call.labels.rows, '\n' ∉ label.2.toList := by
  rw [prometheus_eq, Encoder.parse_text_iff (entries_valid valid)]
  constructor
  · intro whole call made label member broken
    obtain ⟨sample, listed, breaks⟩ := exists_breaks made member broken
    exact whole sample listed breaks
  · rintro whole exported member ⟨label, inside, broken⟩
    obtain ⟨sample, listed, rfl⟩ := List.mem_map.mp member
    obtain ⟨k, held, labels, _⟩ := mem_snapshot listed
    obtain ⟨call, made, rfl⟩ := (mem_keys_reached calls k).mp held
    change label ∈ sample.labels.rows at inside
    rw [labels, mem_key_labels] at inside
    exact whole call made label inside ((mem_value _).mp broken)

def wholeNumbers : NumberFormat ℕ where
  write n := n.repr ++ ".0"
  read text :=
    if text.toList.dropWhile Char.isDigit = ['.', '0'] then
      some (Nat.ofDigitChars 10 (text.toList.takeWhile Char.isDigit) 0)
    else none
  read_write := by
    intro n
    have digits : ∀ c ∈ Nat.toDigits 10 n, c.isDigit = true :=
      fun c member => Nat.isDigit_of_mem_toDigits (by decide) (by decide) member
    rw [String.toList_append, Nat.toList_repr]
    rw [List.dropWhile_append_of_pos digits, List.takeWhile_append_of_pos digits]
    simp [Char.isDigit, Nat.ofDigitChars_ten_toDigits]
  oneLine := by
    intro n broken
    rw [String.toList_append, Nat.toList_repr] at broken
    rcases List.mem_append.mp broken with digit | tail
    · have digit := Nat.isDigit_of_mem_toDigits (by decide) (by decide) digit
      exact absurd digit (by decide)
    · exact absurd tail (by decide)

instance : MetricNumber ℕ where
  zero := 0
  add := (· + ·)
  ofLength := id
  sum := fun values => values.foldl (· + ·) 0

def componentCalls : List (MetricCall ℕ) :=
  [.increment "eis_requests_total" 1 ⟨[("component", "api")], by decide⟩,
    .observe "eis_tool_seconds" 2 ⟨[("tool", "\"git\" \\ status")], by decide⟩]

theorem prometheus_parse_iff_components :
    parse wholeNumbers.read ((reached componentCalls).prometheus wholeNumbers) =
      some ((reached componentCalls).snapshot.map entry) := by
  refine (prometheus_parse_iff wholeNumbers componentCalls ?_).mpr ?_
  · intro call made
    simp only [componentCalls, List.mem_cons, List.not_mem_nil, or_false] at made
    rcases made with rfl | rfl <;> exact ⟨by decide, by decide⟩
  · intro call made
    simp only [componentCalls, List.mem_cons, List.not_mem_nil, or_false] at made
    rcases made with rfl | rfl <;> decide

def brokenCall : MetricCall ℕ :=
  .increment "eis_requests_total" 1 ⟨[("task", "review\nrelease")], by decide⟩

theorem newline_splits_sample :
    (∀ call ∈ [brokenCall], call.Valid) ∧
      parse wholeNumbers.read ((reached [brokenCall]).prometheus wholeNumbers) ≠
        some ((reached [brokenCall]).snapshot.map entry) := by
  have valid : ∀ call ∈ [brokenCall], call.Valid := by
    intro call made
    rw [List.mem_singleton.mp made]
    exact ⟨by decide, by decide⟩
  refine ⟨valid, ?_⟩
  rw [Ne, prometheus_eq, Encoder.parse_text_iff (entries_valid valid)]
  intro whole
  have own : ("task", "review\nrelease") ∈ brokenCall.labels.rows := List.mem_singleton_self _
  obtain ⟨sample, listed, breaks⟩ := exists_breaks (List.mem_singleton_self brokenCall) own
    (by decide)
  exact whole sample listed breaks

end MetricsRegistry

end Eis.Observability
