import Mathlib.Data.List.Forall2
import LeagueSync.Telemetry.Metrics

/-!
# LeagueSync.Proofs.RouteLabels

What the label of a route tells of a path: all but its numbers. Two paths have one label if they
have as many segments, and those in the same place are equal or each of them is a number or the
placeholder of one. So the number of labels grows with the shapes of the paths that are requested,
and not with the entries and gameweeks that are named in them.

* `segments_routeLabel`: the segments of a label are those of the path, each labelled on its own.
* `routeLabel_eq_iff`: which paths have one label.
* `routeLabel_eq_self_iff`: which paths are labels.
* `Metrics.addRequest_eq_iff`: the metrics tell paths apart as far as their labels do.
-/

namespace LeagueSync

/-! ## Segments -/

/-- What stands for a number in a label. -/
def placeholder : List Char :=
  "\x7bid\x7d".toList

/-- Some digits and nothing else. -/
def IsNumber (s : List Char) : Prop :=
  s ≠ [] ∧ ∀ c ∈ s, Text.isDigit c = true

theorem isNumber_iff_all {s : List Char} : IsNumber s ↔ s ≠ [] ∧ s.all Text.isDigit = true := by
  rw [IsNumber, List.all_eq_true]

/-- By the characters of the segment, and not by all there are. -/
instance : DecidablePred IsNumber := fun _ =>
  decidable_of_iff _ isNumber_iff_all.symm

def StandsForNumber (s : List Char) : Prop :=
  IsNumber s ∨ s = placeholder

instance : DecidablePred StandsForNumber := fun s =>
  inferInstanceAs (Decidable (IsNumber s ∨ s = placeholder))

/-- Segments that are equal, or both in the place of a number. -/
def EqualButNumbers (s t : List Char) : Prop :=
  s = t ∨ StandsForNumber s ∧ StandsForNumber t

instance : DecidableRel EqualButNumbers := fun s t =>
  inferInstanceAs (Decidable (s = t ∨ StandsForNumber s ∧ StandsForNumber t))

theorem segmentLabel_eq (s : List Char) :
    segmentLabel s = if IsNumber s then placeholder else s :=
  if_congr isNumber_iff_all.symm rfl rfl

theorem not_isNumber_placeholder : ¬ IsNumber placeholder := by
  decide

theorem not_isNumber_segmentLabel (s : List Char) : ¬ IsNumber (segmentLabel s) := by
  rw [segmentLabel_eq]
  split
  · exact not_isNumber_placeholder
  · next other => exact other

theorem segmentLabel_eq_self_iff {s : List Char} : segmentLabel s = s ↔ ¬ IsNumber s := by
  constructor
  · intro same
    exact same ▸ not_isNumber_segmentLabel s
  · intro other
    rw [segmentLabel_eq, if_neg other]

theorem segmentLabel_eq_placeholder_iff {s : List Char} :
    segmentLabel s = placeholder ↔ StandsForNumber s := by
  rw [segmentLabel_eq, StandsForNumber]
  by_cases number : IsNumber s <;> simp [number]

theorem segmentLabel_eq_iff {s t : List Char} :
    segmentLabel s = segmentLabel t ↔ EqualButNumbers s t := by
  constructor
  · intro same
    by_cases stands : StandsForNumber s
    · have label : segmentLabel t = placeholder :=
        same.symm.trans (segmentLabel_eq_placeholder_iff.2 stands)
      exact .inr ⟨stands, segmentLabel_eq_placeholder_iff.1 label⟩
    · have stands' : ¬ StandsForNumber t := by
        rwa [← segmentLabel_eq_placeholder_iff, ← same, segmentLabel_eq_placeholder_iff]
      rw [segmentLabel_eq_self_iff.2 fun number => stands (.inl number),
        segmentLabel_eq_self_iff.2 fun number => stands' (.inl number)] at same
      exact .inl same
  · rintro (rfl | ⟨stands, stands'⟩)
    · rfl
    · rw [segmentLabel_eq_placeholder_iff.2 stands, segmentLabel_eq_placeholder_iff.2 stands']

theorem slash_notMem_segmentLabel {s : List Char} (h : '/' ∉ s) : '/' ∉ segmentLabel s := by
  rw [segmentLabel_eq]
  split
  · decide
  · exact h

/-! ## Paths -/

/-- Paths of as many segments, which are equal in turn but for numbers. -/
def SameRoute (p q : List Char) : Prop :=
  List.Forall₂ EqualButNumbers (segments p) (segments q)

instance : DecidableRel SameRoute := fun p q =>
  inferInstanceAs (Decidable (List.Forall₂ EqualButNumbers (segments p) (segments q)))

/-- No label has a slash in it, so joining them makes no other segments. -/
theorem segments_routeLabel (p : List Char) :
    segments (routeLabel p) = (segments p).map segmentLabel := by
  obtain ⟨some_segment, apart, -⟩ := segments_eq_iff.1 (Eq.refl (segments p))
  refine segments_eq_iff.2 ⟨?_, ?_, rfl⟩
  · rwa [ne_eq, List.map_eq_nil_iff]
  · intro s mem
    obtain ⟨t, mem', rfl⟩ := List.mem_map.1 mem
    exact slash_notMem_segmentLabel (apart t mem')

theorem routeLabel_eq_iff {p q : List Char} : routeLabel p = routeLabel q ↔ SameRoute p q :=
  calc routeLabel p = routeLabel q
    _ ↔ segments (routeLabel p) = segments (routeLabel q) := segments_inj.symm
    _ ↔ (segments p).map segmentLabel = (segments q).map segmentLabel := by
      rw [segments_routeLabel, segments_routeLabel]
    _ ↔ List.Forall₂ (fun s t => segmentLabel s = segmentLabel t) (segments p) (segments q) := by
      rw [← List.forall₂_eq_eq_eq, List.forall₂_map_left_iff, List.forall₂_map_right_iff]
    _ ↔ SameRoute p q := by simp only [segmentLabel_eq_iff, SameRoute]

theorem not_isNumber_of_mem_routeLabel {p s : List Char} (h : s ∈ segments (routeLabel p)) :
    ¬ IsNumber s := by
  rw [segments_routeLabel] at h
  obtain ⟨t, -, rfl⟩ := List.mem_map.1 h
  exact not_isNumber_segmentLabel t

theorem routeLabel_eq_self_iff {p : List Char} :
    routeLabel p = p ↔ ∀ s ∈ segments p, ¬ IsNumber s :=
  calc routeLabel p = p
    _ ↔ (segments p).map segmentLabel = (segments p).map id := by
      rw [← segments_inj, segments_routeLabel, List.map_id]
    _ ↔ ∀ s ∈ segments p, segmentLabel s = s := List.map_inj_left
    _ ↔ ∀ s ∈ segments p, ¬ IsNumber s := by simp only [segmentLabel_eq_self_iff]

/-- Paths have one label exactly if their segments are equal but for numbers. A label is its own
label, has as many segments as the path, and none of them is a number. -/
theorem route_labels_forget_numbers (p q : List Char) :
    (routeLabel p = routeLabel q ↔ SameRoute p q) ∧
    routeLabel (routeLabel p) = routeLabel p ∧
    (segments (routeLabel p)).length = (segments p).length ∧
    ∀ s ∈ segments (routeLabel p), ¬ IsNumber s := by
  have plain : ∀ s ∈ segments (routeLabel p), ¬ IsNumber s := fun _ =>
    not_isNumber_of_mem_routeLabel
  refine ⟨routeLabel_eq_iff, routeLabel_eq_self_iff.2 plain, ?_, plain⟩
  rw [segments_routeLabel, List.length_map]

/-- A number with zeros in front has the label of the placeholder; a digit of another script is no
number, and neither are no digits at all, or digits with a letter behind them. -/
theorem route_labels_forget_numbers_scripts :
    let path := "/entry/007//7x/".toList
    let label := "/entry/\x7bid\x7d//7x/".toList
    let arabic := "/entry/٧//7x/".toList
    SameRoute path label ∧ ¬ SameRoute path arabic ∧ routeLabel path = routeLabel label ∧
      routeLabel path ≠ routeLabel arabic ∧ placeholder ∈ segments (routeLabel path) ∧
      ¬ IsNumber placeholder := by
  intro path label arabic
  have same : SameRoute path label := by decide
  have other : ¬ SameRoute path arabic := by decide
  have mem : placeholder ∈ segments (routeLabel path) := by decide
  exact ⟨same, other, (route_labels_forget_numbers path label).1.2 same,
    fun equal => other ((route_labels_forget_numbers path arabic).1.1 equal), mem,
    (route_labels_forget_numbers path label).2.2.2 placeholder mem⟩

/-! ## Attempts -/

def RequestRecord.labels (r : RequestRecord) : RequestLabels where
  method := r.method
  route := String.ofList (routeLabel r.path.toList)
  statusClass := LeagueSync.statusClass r.status
  outcome := match r.error with
    | some kind => kind.name
    | none => "success"

theorem Metrics.requests_addRequest (m : Metrics) (r : RequestRecord) :
    (m.addRequest r).requests = m.requests.count r.labels 1 :=
  rfl

theorem Table.count_eq_iff {κ : Type} [DecidableEq κ] (t : Table κ Nat) {k k' : κ} {n : Nat}
    (pos : 0 < n) : t.count k n = t.count k' n ↔ k = k' := by
  constructor
  · intro same
    by_contra apart
    have counted := congrArg (total · k) same
    simp only [total_count, if_pos, if_neg apart] at counted
    omega
  · rintro rfl
    rfl

/-- Attempts that differ in their paths alone leave the same metrics exactly if they are of the same
route. -/
theorem Metrics.addRequest_eq_iff (m : Metrics) (r : RequestRecord) (path : String) :
    m.addRequest { r with path := path } = m.addRequest r ↔
      SameRoute path.toList r.path.toList := by
  rw [← routeLabel_eq_iff]
  constructor
  · intro same
    have counts := congrArg requests same
    rw [requests_addRequest, requests_addRequest, Table.count_eq_iff _ Nat.one_pos] at counts
    exact String.ofList_injective (congrArg RequestLabels.route counts)
  · intro same
    simp only [addRequest, same]

end LeagueSync
