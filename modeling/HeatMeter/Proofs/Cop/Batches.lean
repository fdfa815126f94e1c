/-
  HeatMeter.Proofs.Cop.Batches
  ────────────────────────────
  **A WINDOW LOADED IN ORDER OF TIME DEPENDS ON THE STREAM, NOT ON THE BATCHES.**

  The capacity drops samples while they come in, the retention drops more after each
  insertion.  Where no sample is older than one of an earlier insertion, the window still
  is a function of the stream of all samples:

      stream    the samples of all insertions, each batch in order of time
      lastsOf   as many of the last as there is room for, less those that some sample
                of the stream is newer than by more than the retention

  `Holds.insert` is one insertion and `Holds.insertAll` a run of them.  The retention is
  what the window evicts by, which is no longer than a span can be;
  `Sample.expired_eq_false_iff_since` gives it back as the minutes configured.
-/
import HeatMeter.Proofs.Cop.Retention
import Mathlib

namespace HeatMeter

variable {α : Type}

/-! ## §1. The stream of some insertions. -/

namespace Insertion

/-- All samples given, each batch in order of time. -/
def stream (insertions : List (Insertion α)) : List (Sample α) :=
  insertions.flatMap fun i => Sample.inOrder i.samples

/-- No sample is older than one of an earlier insertion. -/
def InOrder (insertions : List (Insertion α)) : Prop :=
  insertions.Pairwise fun i j => ∀ a ∈ i.samples, ∀ b ∈ j.samples, a.time ≤ b.time

theorem chronological_stream {insertions : List (Insertion α)}
    (hordinary : ∀ i ∈ insertions, ∀ m ∈ i.samples, m.time.isLeap = false)
    (horder : InOrder insertions) : Chronological (stream insertions) := by
  refine ⟨?_, ?_⟩
  · intro m hm
    obtain ⟨i, hi, hmem⟩ := List.mem_flatMap.1 hm
    exact hordinary i hi m (Sample.mem_inOrder.1 hmem)
  · rw [stream, List.pairwise_flatMap]
    refine ⟨fun i _ => Sample.sorted_inOrder i.samples, ?_⟩
    apply horder.imp
    intro i j hij a ha b hb
    exact hij a (Sample.mem_inOrder.1 ha) b (Sample.mem_inOrder.1 hb)

end Insertion

/-! ## §2. The retention in minutes. -/

/-- **Counted back from one sample, another has not expired exactly if it is no more than
the configured minutes older**, also where that is longer than a span can be. -/
theorem Sample.expired_eq_false_iff_since {s : CopSettings α} (hs : 1 ≤ s.retentionMinutes)
    {newest m : Sample α} (hnewest : newest.time.isLeap = false) (hm : m.time.isLeap = false) :
    newest.expired s.retention m = false
      ↔ newest.time.since m.time ≤ s.retentionMinutes * 60 * 1000000000 := by
  have hfirst := Instant.firstLinear_le m.time
  have hlast := Instant.linear_lt hnewest
  unfold Instant.firstLinear at hfirst
  rw [Instant.since_eq hnewest hm, Sample.expired, decide_eq_false_iff_not]
  unfold CopSettings.retention maxSpan nanosPerSecond
  dsimp only
  split
  · omega
  · -- no two instants are as far apart as the longest span
    omega

/-! ## §3. Runs of insertions in order. -/

namespace Window

theorem load_inOrder (w : Window α) (ms : List (Sample α)) :
    w.load (Sample.inOrder ms) = w.load ms := by
  have hsorted : Sample.inOrder (Sample.inOrder ms) = Sample.inOrder ms :=
    Instant.mergeSort_of_sorted (Sample.sorted_inOrder ms)
  have hempty : (Sample.inOrder ms).isEmpty = ms.isEmpty := by
    rw [Bool.eq_iff_iff, List.isEmpty_iff, List.isEmpty_iff, Sample.inOrder,
      ← List.length_eq_zero_iff, List.length_mergeSort, List.length_eq_zero_iff]
  rw [load, load, hempty, hsorted]

section

variable {w : Window α} {ms : List (Sample α)}

theorem settings_insert (w : Window α) (i : Insertion α) :
    (w.insert i).settings = w.settings := by
  rw [insert_eq_load, settings_load]

/-- One insertion, of samples not older than what came before, is held. -/
theorem Holds.insert (hw : w.Holds ms) (hr : 0 ≤ w.settings.retention) {i : Insertion α}
    (h : Chronological (ms ++ Sample.inOrder i.samples)) :
    (w.insert i).Holds (ms ++ Sample.inOrder i.samples) := by
  rw [insert_eq_load, ← load_inOrder]
  exact hw.load hr h

/-- **A run of insertions is held**, in whatever batches it comes. -/
theorem Holds.insertAll (hw : w.Holds ms) (hr : 0 ≤ w.settings.retention)
    {insertions : List (Insertion α)} (h : Chronological (ms ++ Insertion.stream insertions)) :
    (w.insertAll insertions).Holds (ms ++ Insertion.stream insertions)
      ∧ (w.insertAll insertions).settings = w.settings := by
  -- the samples so far grow by one insertion at a time
  induction insertions generalizing w ms with
  | nil =>
    rw [Insertion.stream, List.flatMap_nil, List.append_nil]
    exact ⟨hw, rfl⟩
  | cons i rest ih =>
    rw [Insertion.stream, List.flatMap_cons, ← List.append_assoc] at h ⊢
    have hfirst : Chronological (ms ++ Sample.inOrder i.samples) :=
      ⟨fun m hm => h.ordinary m (List.mem_append_left _ hm), (List.pairwise_append.1 h.sorted).1⟩
    obtain ⟨hholds, hsettings⟩ :=
      ih (hw.insert hr hfirst) (by rw [settings_insert]; exact hr) h
    exact ⟨hholds, hsettings.trans (settings_insert w i)⟩

end

/-! ## §4. What the window holds. -/

/-- As many of the last samples as there is room for, less those that some sample is newer
than by more than the retention. -/
def lastsOf (s : CopSettings α) (stream : List (Sample α)) : List (Sample α) :=
  (stream.rtake s.maxMeasurements).filter fun m =>
    decide (∀ x ∈ stream, x.time.since m.time ≤ s.retentionMinutes * 60 * 1000000000)

/-- Counting the retention back from the last sample finds what is too old for any. -/
theorem retained_rtake_eq_lastsOf {s : CopSettings α} (hs : 1 ≤ s.retentionMinutes)
    {ms : List (Sample α)} (h : Chronological ms) :
    retained s.retention (ms.rtake s.maxMeasurements) = lastsOf s ms := by
  have hsuffix : ms.rtake s.maxMeasurements <:+ ms := rtake_suffix ms s.maxMeasurements
  cases hlast : (ms.rtake s.maxMeasurements).getLast? with
  | none =>
    rw [List.getLast?_eq_none_iff] at hlast
    rw [lastsOf, hlast]
    rfl
  | some newest =>
    have hmem : newest ∈ ms := hsuffix.mem (List.mem_of_getLast? hlast)
    have hall : newest ∈ ms.getLast? := by
      obtain ⟨before, hsplit⟩ := hsuffix
      rw [← hsplit, List.getLast?_append, hlast]
      rfl
    rw [retained_eq_filter (h.of_isSuffix hsuffix) hlast, lastsOf]
    apply List.filter_congr
    intro m hm
    have hnewest : newest.time.isLeap = false := h.ordinary newest hmem
    have hordinary : m.time.isLeap = false := h.ordinary m (hsuffix.mem hm)
    rw [Bool.eq_iff_iff, Bool.not_eq_true', decide_eq_true_eq,
      Sample.expired_eq_false_iff_since hs hnewest hordinary]
    constructor
    · -- every other sample is newer by less
      intro hfresh x hx
      have hle := Sample.le_getLast? h.sorted hall hx
      rw [← Instant.linear_le_linear (h.ordinary x hx) hnewest] at hle
      rw [Instant.since_eq hnewest hordinary] at hfresh
      rw [Instant.since_eq (h.ordinary x hx) hordinary]
      omega
    · intro hfresh
      exact hfresh newest hmem

/-- **Loading in order of time is exact and does not depend on the batches**: the window
holds the last samples of the stream that there is room for and that are young enough, and
any insertions of the same stream lead to the same window. -/
theorem insertAll_eq_of_stream {s : CopSettings α} (hs : 1 ≤ s.retentionMinutes)
    {insertions : List (Insertion α)}
    (hordinary : ∀ i ∈ insertions, ∀ m ∈ i.samples, m.time.isLeap = false)
    (horder : Insertion.InOrder insertions) :
    ((ofSettings s).insertAll insertions).samples.toList
        = lastsOf s (Insertion.stream insertions)
      ∧ ∀ others : List (Insertion α), Insertion.stream others = Insertion.stream insertions →
        (ofSettings s).insertAll others = (ofSettings s).insertAll insertions := by
  have hr : 0 ≤ s.retention := CopSettings.retention_nonneg (by omega)
  have hchronological := Insertion.chronological_stream hordinary horder
  obtain ⟨hholds, hsettings⟩ := (holds_ofSettings s).insertAll hr hchronological
  refine ⟨?_, ?_⟩
  · rw [hholds.toList, hsettings, List.nil_append]
    exact retained_rtake_eq_lastsOf hs hchronological
  · intro others hsame
    rw [← hsame] at hchronological
    obtain ⟨hothers, hkept⟩ := (holds_ofSettings s).insertAll hr hchronological
    rw [hsame] at hothers
    exact hothers.unique hholds (hkept.trans hsettings.symm)

/-- Room for three samples. -/
def roomForThree : CopSettings Float :=
  { CopSettings.standard with maxMeasurements := 3 }

/-- Four samples, the middle two in one batch, the last more than half an hour after the
first two. -/
def fourSamples : List (Insertion Float) :=
  [.one (kilowattAt 0), .batch [kilowattAt 120, kilowattAt 60], .one (kilowattAt 1900)]

/-- The capacity drops the first of them and the retention the second, also where all four
come in one batch. -/
theorem insertAll_fourSamples :
    ((ofSettings roomForThree).insertAll fourSamples).samples.toList
        = [kilowattAt 120, kilowattAt 1900]
      ∧ (ofSettings roomForThree).insertAll
          [.batch [kilowattAt 1900, kilowattAt 0, kilowattAt 120, kilowattAt 60]]
        = (ofSettings roomForThree).insertAll fourSamples := by
  have hordinary : ∀ i ∈ fourSamples, ∀ m ∈ i.samples, m.time.isLeap = false := by decide
  have horder : Insertion.InOrder fourSamples := by
    unfold Insertion.InOrder
    decide
  have hexact := insertAll_eq_of_stream (s := roomForThree) (by decide) hordinary horder
  have hstream : Insertion.stream fourSamples
      = [kilowattAt 0, kilowattAt 60, kilowattAt 120, kilowattAt 1900] := by cbv
  refine ⟨?_, hexact.2 _ ?_⟩
  · rw [hexact.1, hstream]
    decide +kernel
  · rw [hstream]
    cbv

end Window

end HeatMeter
