import Eis.Observability.Metrics

/-!
# What a registry holds

A counter is the sum of its increments, a gauge the value set last and a
histogram all its observations, whichever calls came in between.  A series is
its name and its labels, in whatever order the labels were given.
-/

set_option autoImplicit false

universe u

namespace Eis.Observability

namespace MetricsRegistry

variable {ν : Type u}

theorem key_eq_iff (name other : String) (labels others : OrderedDict String String) :
    key name labels = key other others ↔ name = other ∧ labels.Equal others := by
  rw [OrderedDict.equal_iff_perm]
  have perm := Ranking.sorted_perm (α := String × String) toLex
  constructor
  · intro same
    have sorted : Ranking.sorted toLex labels.rows = Ranking.sorted toLex others.rows :=
      congrArg MetricKey.labels same
    exact ⟨congrArg MetricKey.name same,
      (perm labels.rows).symm.trans (sorted ▸ perm others.rows)⟩
  · rintro ⟨rfl, same⟩
    have sorted : Ranking.sorted toLex labels.rows = Ranking.sorted toLex others.rows := by
      refine List.Perm.eq_of_pairwise (fun a b _ _ below above => ?_)
        (Ranking.sorted_pairwise toLex labels.rows) (Ranking.sorted_pairwise toLex others.rows)
        ((perm labels.rows).trans (same.trans (perm others.rows).symm))
      exact toLex_inj.mp (le_antisymm below above)
    unfold key
    congr 1

namespace MetricCall

variable (name : String) (labels : OrderedDict String String)

def To (call : MetricCall ν) : Prop := call.name = name ∧ call.labels.Equal labels

instance (call : MetricCall ν) : Decidable (call.To name labels) :=
  inferInstanceAs (Decidable (call.name = name ∧ call.labels.Equal labels))

def incremented : MetricCall ν → Option ν
  | .increment _ value _ => some value
  | _ => none

def gauged : MetricCall ν → Option ν
  | .setGauge _ value _ => some value
  | _ => none

def measured : MetricCall ν → Option ν
  | .observe _ value _ => some value
  | _ => none

/-- The values of one kind that the calls have given to the series. -/
def given (kind : MetricCall ν → Option ν) (calls : List (MetricCall ν)) : List ν :=
  (calls.filter fun call => decide (call.To name labels)).filterMap kind

variable {name labels}

@[simp] theorem to_increment {other : String} {value : ν} {others : OrderedDict String String} :
    (MetricCall.increment other value others).To name labels ↔
      other = name ∧ others.Equal labels :=
  Iff.rfl

@[simp] theorem to_setGauge {other : String} {value : ν} {others : OrderedDict String String} :
    (MetricCall.setGauge other value others).To name labels ↔
      other = name ∧ others.Equal labels :=
  Iff.rfl

@[simp] theorem to_observe {other : String} {value : ν} {others : OrderedDict String String} :
    (MetricCall.observe other value others).To name labels ↔
      other = name ∧ others.Equal labels :=
  Iff.rfl

@[simp] theorem given_nil {kind : MetricCall ν → Option ν} : given name labels kind [] = [] := rfl

@[simp] theorem given_cons {kind : MetricCall ν → Option ν} (call : MetricCall ν)
    (calls : List (MetricCall ν)) :
    given name labels kind (call :: calls) =
      (if call.To name labels then (kind call).toList else []) ++ given name labels kind calls := by
  unfold given
  by_cases own : call.To name labels
  · cases value : kind call <;> simp [own, value]
  · simp [own]

@[simp] theorem given_append {kind : MetricCall ν → Option ν}
    (calls later : List (MetricCall ν)) :
    given name labels kind (calls ++ later) =
      given name labels kind calls ++ given name labels kind later := by
  unfold given
  rw [List.filter_append, List.filterMap_append]

theorem given_flatMap {α : Type u}
    {kind : MetricCall ν → Option ν} (items : List α) (f : α → List (MetricCall ν)) :
    given name labels kind (items.flatMap f) =
      items.flatMap fun item => given name labels kind (f item) := by
  induction items with
  | nil => rfl
  | cons first rest ih => rw [List.flatMap_cons, List.flatMap_cons, given_append, ih]

end MetricCall


def whole (values : List ν) : Option (List ν) := if values.isEmpty then none else some values

theorem whole_snoc (values : List ν) (value : ν) :
    whole (values ++ [value]) = some ((whole values).getD [] ++ [value]) := by
  unfold whole
  cases values <;> simp

theorem whole_eq_some_iff {values held : List ν} :
    whole values = some held ↔ held = values ∧ values ≠ [] := by
  unfold whole
  cases values <;> simp [eq_comm]

variable [MetricNumber ν]

def total (values : List ν) : Option ν :=
  if values.isEmpty then none else some (values.foldl MetricNumber.add MetricNumber.zero)

theorem total_snoc (values : List ν) (value : ν) :
    total (values ++ [value]) =
      some (MetricNumber.add ((total values).getD MetricNumber.zero) value) := by
  unfold total
  cases values <;> simp

section History
variable (name : String) (labels : OrderedDict String String)

def grown {μ : Type u} (kind : MetricCall ν → Option ν) (next : Option μ → ν → μ)
    (held : Option μ) (call : MetricCall ν) : Option μ :=
  if call.To name labels then
    match kind call with
    | none => held
    | some value => some (next held value)
  else held

theorem counters_apply (registry : MetricsRegistry ν) (call : MetricCall ν) :
    (registry.apply call).counters.get? (key name labels) =
      grown name labels MetricCall.incremented
        (fun held value => MetricNumber.add (held.getD MetricNumber.zero) value)
        (registry.counters.get? (key name labels)) call := by
  unfold grown
  cases call with
  | increment other value others =>
      have same : (MetricCall.increment other value others).To name labels ↔
          key name labels = key other others := (key_eq_iff _ _ _ _).symm.trans eq_comm
      simp only [apply, increment, OrderedDict.get?_setItem, same, MetricCall.incremented]
      split
      · rename_i own
        rw [own]
      · rfl
  | setGauge _ _ _ | observe _ _ _ => simp [apply, setGauge, observe, MetricCall.incremented]

theorem gauges_apply (registry : MetricsRegistry ν) (call : MetricCall ν) :
    (registry.apply call).gauges.get? (key name labels) =
      grown name labels MetricCall.gauged (fun _ value => value)
        (registry.gauges.get? (key name labels)) call := by
  unfold grown
  cases call with
  | setGauge other value others =>
      have same : (MetricCall.setGauge other value others).To name labels ↔
          key name labels = key other others := (key_eq_iff _ _ _ _).symm.trans eq_comm
      simp only [apply, setGauge, OrderedDict.get?_setItem, same, MetricCall.gauged]
  | increment _ _ _ | observe _ _ _ => simp [apply, increment, observe, MetricCall.gauged]

theorem histograms_apply (registry : MetricsRegistry ν) (call : MetricCall ν) :
    (registry.apply call).histograms.get? (key name labels) =
      grown name labels MetricCall.measured (fun held value => held.getD [] ++ [value])
        (registry.histograms.get? (key name labels)) call := by
  unfold grown
  cases call with
  | observe other value others =>
      have same : (MetricCall.observe other value others).To name labels ↔
          key name labels = key other others := (key_eq_iff _ _ _ _).symm.trans eq_comm
      simp only [apply, observe, OrderedDict.get?_setItem, same, MetricCall.measured]
      split
      · rename_i own
        rw [own]
      · rfl
  | increment _ _ _ | setGauge _ _ _ => simp [apply, increment, setGauge, MetricCall.measured]

variable {name labels}

/-- What is held grows with every call as the values that have been given do. -/
theorem held_of_given {μ : Type u} {kind : MetricCall ν → Option ν} {next : Option μ → ν → μ}
    (held : MetricsRegistry ν → Option μ) (all : List ν → Option μ)
    (empty : held MetricsRegistry.empty = all [])
    (apply_ : ∀ registry call,
      held (registry.apply call) = grown name labels kind next (held registry) call)
    (snoc : ∀ values value, all (values ++ [value]) = some (next (all values) value))
    (calls : List (MetricCall ν)) :
    held (reached calls) = all (MetricCall.given name labels kind calls) := by
  induction calls using List.reverseRecOn with
  | nil => exact empty
  | append_singleton calls call ih =>
      rw [reached_snoc, apply_, ih, MetricCall.given_append, MetricCall.given_cons,
        MetricCall.given_nil, List.append_nil, grown]
      split
      · cases kind call with
        | none => simp
        | some value => exact (snoc _ value).symm
      · simp

theorem counters_reached (calls : List (MetricCall ν)) :
    (reached calls).counters.get? (key name labels) =
      total (MetricCall.given name labels MetricCall.incremented calls) :=
  held_of_given (fun registry => registry.counters.get? (key name labels)) total rfl
    (counters_apply name labels) total_snoc calls

theorem gauges_reached (calls : List (MetricCall ν)) :
    (reached calls).gauges.get? (key name labels) =
      (MetricCall.given name labels MetricCall.gauged calls).getLast? :=
  held_of_given (fun registry => registry.gauges.get? (key name labels)) List.getLast? rfl
    (gauges_apply name labels) (fun _ _ => List.getLast?_concat) calls

theorem histograms_reached (calls : List (MetricCall ν)) :
    (reached calls).histograms.get? (key name labels) =
      whole (MetricCall.given name labels MetricCall.measured calls) :=
  held_of_given (fun registry => registry.histograms.get? (key name labels)) whole rfl
    (histograms_apply name labels) whole_snoc calls

/-- What a series is exported as, by the calls that were made on it. -/
def Exported (calls : List (MetricCall ν)) (name : String) (labels : OrderedDict String String)
    (sample : MetricSample ν) : Prop :=
  sample.labels = (key name labels).dict ∧
    ((sample.name = name ∧
        some sample.value = total (MetricCall.given name labels MetricCall.incremented calls)) ∨
      (sample.name = name ∧
        some sample.value = (MetricCall.given name labels MetricCall.gauged calls).getLast?) ∨
      ∃ values, values = MetricCall.given name labels MetricCall.measured calls ∧ values ≠ [] ∧
        ((sample.name = name ++ "_count" ∧ sample.value = MetricNumber.ofLength values.length) ∨
          (sample.name = name ++ "_sum" ∧ sample.value = MetricNumber.sum values)))

theorem exists_row_iff {μ : Type u} {dict : OrderedDict MetricKey μ}
    (named : ∀ k ∈ dict.rows.map Prod.fst, ∃ name labels, k = key name labels)
    (exported : MetricKey → μ → Prop) :
    (∃ row ∈ dict.rows, exported row.1 row.2) ↔
      ∃ name labels value, dict.get? (key name labels) = some value ∧
        exported (key name labels) value := by
  constructor
  · rintro ⟨⟨k, value⟩, member, holds⟩
    obtain ⟨name, labels, rfl⟩ := named k (List.mem_map_of_mem member)
    exact ⟨name, labels, value, (OrderedDict.get?_eq_some_iff _ _ _).mpr member, holds⟩
  · rintro ⟨name, labels, value, held, holds⟩
    exact ⟨(key name labels, value), (OrderedDict.get?_eq_some_iff _ _ _).mp held, holds⟩

/-- Whatever the calls and their order, the snapshot holds of every series the
sum of its increments, the gauge set last, and the number and the sum of its
observations, and nothing else. -/
theorem mem_snapshot_iff_exported (calls : List (MetricCall ν)) (sample : MetricSample ν) :
    sample ∈ (reached calls).snapshot ↔ ∃ name labels, Exported calls name labels sample := by
  have named : ∀ k ∈ (reached calls).keys, ∃ name labels, k = key name labels := by
    intro k member
    obtain ⟨call, _, same⟩ := (mem_keys_reached calls k).mp member
    exact ⟨call.name, call.labels, same⟩
  simp only [keys, List.mem_append, or_imp, forall_and] at named
  obtain ⟨⟨counterKeys, gaugeKeys⟩, histogramKeys⟩ := named
  have counters := exists_row_iff counterKeys fun k value =>
    (⟨k.name, value, k.dict⟩ : MetricSample ν) = sample
  have gauges := exists_row_iff gaugeKeys fun k value =>
    (⟨k.name, value, k.dict⟩ : MetricSample ν) = sample
  have histograms := exists_row_iff histogramKeys fun k values =>
    sample ∈ (if values = [] then [] else
      [(⟨k.name ++ "_count", MetricNumber.ofLength values.length, k.dict⟩ : MetricSample ν),
        ⟨k.name ++ "_sum", MetricNumber.sum values, k.dict⟩])
  unfold snapshot
  simp only [List.mem_append, List.mem_map, List.mem_flatMap]
  rw [counters, gauges, histograms]
  simp only [counters_reached, gauges_reached, histograms_reached, whole_eq_some_iff,
    ← exists_or]
  refine exists_congr fun name => exists_congr fun labels => ?_
  clear counters gauges histograms
  obtain ⟨shownName, shownValue, shownLabels⟩ := sample
  have sameName : (key name labels).name = name := rfl
  simp only [Exported, sameName]
  constructor
  · rintro (⟨value, ⟨held, same⟩ | ⟨held, same⟩⟩ | ⟨values, ⟨rfl, some⟩, shown⟩)
    · cases same
      exact ⟨rfl, Or.inl ⟨rfl, held.symm⟩⟩
    · cases same
      exact ⟨rfl, Or.inr (Or.inl ⟨rfl, held.symm⟩)⟩
    · rw [if_neg some, List.mem_pair] at shown
      rcases shown with same | same
      · cases same
        exact ⟨rfl, Or.inr (Or.inr ⟨_, rfl, some, Or.inl ⟨rfl, rfl⟩⟩)⟩
      · cases same
        exact ⟨rfl, Or.inr (Or.inr ⟨_, rfl, some, Or.inr ⟨rfl, rfl⟩⟩)⟩
  · rintro ⟨rfl, ⟨rfl, held⟩ | ⟨rfl, held⟩ | ⟨values, rfl, some, shown⟩⟩
    · exact Or.inl ⟨shownValue, Or.inl ⟨held.symm, rfl⟩⟩
    · exact Or.inl ⟨shownValue, Or.inr ⟨held.symm, rfl⟩⟩
    · refine Or.inr ⟨_, ⟨rfl, some⟩, ?_⟩
      rw [if_neg some, List.mem_pair]
      rcases shown with ⟨rfl, rfl⟩ | ⟨rfl, rfl⟩
      · exact Or.inl rfl
      · exact Or.inr rfl

end History

end MetricsRegistry
end Eis.Observability
