/-
  HeatMeter.Proofs.Cop.Order
  ──────────────────────────
  **WHAT A WINDOW SHOWS DOES NOT DEPEND ON THE ORDER OF ITS SAMPLES.**

  History that comes late, or a clock that is set back, leaves a window whose samples are
  not in order of time.  What is read off it does not show that:

      quality       counts the samples and takes the earliest and the latest instant
      coefficient   puts the samples in order of time before it adds anything up

  Sums of floats depend on their order.  So the coefficient needs samples of different
  instants, which have one order only; the quality needs nothing.
-/
import HeatMeter.Proofs.Cop.Batches

namespace HeatMeter

variable {α : Type}

/-! ## §1. The earliest and the latest instant. -/

namespace Instant

theorem earlier_eq_min (a b : Instant) : earlier a b = min a b := by
  unfold earlier
  rw [min_comm, min_def_lt]

theorem later_eq_max (a b : Instant) : later a b = max a b := by
  unfold later
  rw [max_def]

/-- **The extremes of some instants are their minimum and their maximum.** -/
theorem extremes?_eq_some_iff {ts : List Instant} {first last : Instant} :
    extremes? ts = some (first, last) ↔ ts.min? = some first ∧ ts.max? = some last := by
  have hmin : earlier = min := funext₂ earlier_eq_min
  have hmax : later = max := funext₂ later_eq_max
  cases ts with
  | nil => simp [extremes?]
  | cons t ts =>
    rw [extremes?, hmin, hmax, List.min?_cons', List.max?_cons']
    simp

theorem extremes?_eq_none_iff {ts : List Instant} : extremes? ts = none ↔ ts = [] := by
  cases ts <;> simp [extremes?]

/-- The same instants in another order have the same extremes. -/
theorem extremes?_of_perm {ts ts' : List Instant} (hperm : ts.Perm ts') :
    extremes? ts = extremes? ts' := by
  cases hts : extremes? ts with
  | none =>
    rw [extremes?_eq_none_iff] at hts
    rw [hts] at hperm
    exact (extremes?_eq_none_iff.2 hperm.nil_eq.symm).symm
  | some ends =>
    obtain ⟨hfirst, hlast⟩ := extremes?_eq_some_iff.1 hts
    rw [List.min?_eq_some_iff] at hfirst
    rw [List.max?_eq_some_iff] at hlast
    -- being least or greatest is said of the members alone
    simp only [hperm.mem_iff] at hfirst hlast
    exact (extremes?_eq_some_iff.2
      ⟨List.min?_eq_some_iff.2 hfirst, List.max?_eq_some_iff.2 hlast⟩).symm

end Instant

section

variable [Scalar α]

/-- The span of some instants goes from the earliest to the latest. -/
theorem spanMinutes_eq {ts : List Instant} {first last : Instant} (hfirst : first ∈ ts)
    (hlast : last ∈ ts) (h : ∀ t ∈ ts, first ≤ t ∧ t ≤ last) :
    (spanMinutes ts : α) = minutesOfSpan (last.since first) := by
  have hextremes : Instant.extremes? ts = some (first, last) :=
    Instant.extremes?_eq_some_iff.2
      ⟨List.min?_eq_some_iff.2 ⟨hfirst, fun t ht => (h t ht).1⟩,
        List.max?_eq_some_iff.2 ⟨hlast, fun t ht => (h t ht).2⟩⟩
  rw [spanMinutes, hextremes]

theorem CopSettings.quality_of_perm (s : CopSettings α) {ms ms' : List (Sample α)}
    (hperm : ms.Perm ms') : s.quality ms = s.quality ms' := by
  unfold quality spanMinutes
  rw [Instant.extremes?_of_perm (hperm.map Sample.time), hperm.length_eq]

end

/-- Samples of different instants come in one order. -/
theorem Sample.inOrder_of_perm {ms ms' : List (Sample α)} (hperm : ms.Perm ms')
    (hdistinct : (ms.map time).Nodup) : inOrder ms = inOrder ms' :=
  Instant.mergeSort_of_perm hperm hdistinct

/-! ## §2. Windows with the same samples. -/

namespace Window

variable [Scalar α] {v w : Window α}

theorem cop?_of_perm (hsettings : v.settings = w.settings)
    (hperm : v.samples.toList.Perm w.samples.toList)
    (hdistinct : (v.samples.toList.map Sample.time).Nodup) : v.cop? = w.cop? := by
  unfold cop? Queue.size
  rw [hperm.length_eq, hsettings, Sample.inOrder_of_perm hperm hdistinct]

/-- **Windows with the same samples, in whatever order, are judged alike**: they have the
same quality, whose span goes from the oldest sample to the newest, and the same
coefficient if no two samples are of one instant. -/
theorem judged_alike_of_perm (hsettings : v.settings = w.settings)
    (hperm : v.samples.toList.Perm w.samples.toList) :
    v.quality = w.quality
      ∧ (∀ oldest ∈ v.samples.toList, ∀ newest ∈ v.samples.toList,
        (∀ m ∈ v.samples.toList, oldest.time ≤ m.time ∧ m.time ≤ newest.time) →
        v.quality.spanMinutes = minutesOfSpan (newest.time.since oldest.time))
      ∧ ((v.samples.toList.map Sample.time).Nodup → v.cop? = w.cop?) := by
  refine ⟨?_, ?_, cop?_of_perm hsettings hperm⟩
  · unfold quality
    rw [hsettings, CopSettings.quality_of_perm w.settings hperm]
  · intro oldest holdest newest hnewest hends
    apply spanMinutes_eq (List.mem_map_of_mem holdest) (List.mem_map_of_mem hnewest)
    intro t ht
    obtain ⟨m, hm, rfl⟩ := List.mem_map.1 ht
    exact hends m hm

/-- Three samples of a unit that heats, ten and fifteen minutes apart. -/
def threeSamples : List (Sample Float) :=
  [⟨.ofFirstDay 0, 4, 1⟩, ⟨.ofFirstDay 600, 3, 1⟩, ⟨.ofFirstDay 1500, 5, 2⟩]

/-- A window with samples taken one after another. -/
def filled (samples : List (Sample Float)) : Window Float :=
  (ofSettings .standard).insertAll (samples.map .one)

/-- Taken backwards they leave another window, with the same quality and coefficient. -/
theorem judged_alike_of_threeSamples :
    filled threeSamples.reverse ≠ filled threeSamples
      ∧ (filled threeSamples.reverse).quality = (filled threeSamples).quality
      ∧ (filled threeSamples.reverse).quality.spanMinutes = 25
      ∧ (filled threeSamples.reverse).cop? = (filled threeSamples).cop?
      ∧ (filled threeSamples).cop?.isSome := by
  have hback : (filled threeSamples.reverse).samples.toList = threeSamples.reverse := by
    decide +kernel
  have hforth : (filled threeSamples).samples.toList = threeSamples := by decide +kernel
  have hsettings : (filled threeSamples.reverse).settings = (filled threeSamples).settings := by
    decide +kernel
  have hperm : (filled threeSamples.reverse).samples.toList.Perm
      (filled threeSamples).samples.toList := by
    rw [hback, hforth]
    exact List.reverse_perm _
  obtain ⟨hquality, hspan, hcop⟩ := judged_alike_of_perm hsettings hperm
  rw [hback] at hspan hcop
  refine ⟨?_, hquality, ?_, hcop (by decide), ?_⟩
  · intro hsame
    rw [hsame, hforth] at hback
    exact absurd hback (by decide)
  · rw [hspan ⟨.ofFirstDay 0, 4, 1⟩ (by decide) ⟨.ofFirstDay 1500, 5, 2⟩ (by decide) (by decide)]
    decide +kernel
  · have hsorted : Sample.inOrder threeSamples = threeSamples :=
      Instant.mergeSort_of_sorted (by decide)
    rw [cop?, Queue.size, hforth, hsorted]
    decide +kernel

end Window

end HeatMeter
