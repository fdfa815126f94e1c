/-
  HeatMeter.Proofs.Cop.Shift
  ──────────────────────────
  **A SENSOR OF THE COEFFICIENT DOES NOT KNOW WHAT DAY IT IS.**

  Two sensors are shifted by days if their windows hold the same powers, of shifted
  instants, and all else about them is equal.  Energies and qualities are made of spans
  between samples, so shifted sensors show the same.  Eviction compares samples with the
  newest one less the retention: also a span, as long as this cutoff is in the calendar on
  both sides or before its beginning on either, which `Instant.CountsBack` says.

      Window.Shifted.evict     what is evicted, pair by pair
      CopSensor.Shifted.poll   one reading
-/
import HeatMeter.Proofs.Cop.Sensor
import HeatMeter.Proofs.Time.Shift

namespace HeatMeter

variable {α : Type} {days retention : Int}

/-! ## §1. Samples. -/

/-- The same powers at shifted instants, from which the retention counts back. -/
structure Sample.Shifted (days retention : Int) (m m' : Sample α) : Prop where
  time : m.time.Shifted days m'.time
  thermal : m'.thermal = m.thermal
  electrical : m'.electrical = m.electrical
  back : m.time.CountsBack retention
  back' : m'.time.CountsBack retention

section

variable {ms ms' : List (Sample α)}

/-- The spans to the newest sample decide what has expired. -/
theorem Sample.Shifted.expired {newest newest' m m' : Sample α}
    (hn : Shifted days retention newest newest') (hm : Shifted days retention m m') :
    newest.expired retention m = newest'.expired retention m' := by
  have hnewest := hn.time.linear
  have hold := hm.time.linear
  rw [Sample.expired, Sample.expired, decide_eq_decide]
  omega

theorem forall₂_retained (h : List.Forall₂ (Sample.Shifted days retention) ms ms') :
    List.Forall₂ (Sample.Shifted days retention) (retained retention ms)
      (retained retention ms') := by
  unfold retained
  rcases rel_cases (rel_getLast? h) with ⟨hnone, hnone'⟩ | ⟨newest, newest', hsome, hsome', hn⟩
  · rw [hnone, hnone']
    exact .nil
  · rw [hsome, hsome']
    exact forall₂_dropWhile h fun _ _ hm => hn.expired hm

theorem forall₂_inOrder (h : List.Forall₂ (Sample.Shifted days retention) ms ms') :
    List.Forall₂ (Sample.Shifted days retention) (Sample.inOrder ms) (Sample.inOrder ms') := by
  refine forall₂_mergeSort h ?_
  intro a b x y hax hby
  rw [decide_eq_decide, hax.time.le_iff hby.time]

/-- Shifted samples hold the same energy. -/
theorem energyFrom_shifted [Scalar α] (h : List.Forall₂ (Sample.Shifted days retention) ms ms')
    {power : Sample α → α} (hpower : ∀ m m', Sample.Shifted days retention m m' →
      power m' = power m) (start : α) :
    Sample.energyFrom power start ms' = Sample.energyFrom power start ms := by
  induction h generalizing start with
  | nil => rfl
  | cons ha hrest ih =>
    cases hrest with
    | nil => rfl
    | cons hb _ =>
      rw [Sample.energyFrom, Sample.energyFrom, ih, hpower _ _ ha, hpower _ _ hb,
        ha.time.since hb.time]

theorem ratio?_shifted [Scalar α] (h : List.Forall₂ (Sample.Shifted days retention) ms ms')
    (s : CopSettings α) : Window.ratio? s ms' = Window.ratio? s ms := by
  unfold Window.ratio? Sample.energy
  rw [energyFrom_shifted h (fun _ _ hm => hm.thermal),
    energyFrom_shifted h (fun _ _ hm => hm.electrical)]

theorem earlier_shifted {a b a' b' : Instant} (h : a.Shifted days b) (h' : a'.Shifted days b') :
    (a.earlier a').Shifted days (b.earlier b') := by
  unfold Instant.earlier
  simp only [h'.lt_iff h]
  split <;> assumption

theorem later_shifted {a b a' b' : Instant} (h : a.Shifted days b) (h' : a'.Shifted days b') :
    (a.later a').Shifted days (b.later b') := by
  unfold Instant.later
  simp only [h.le_iff h']
  split <;> assumption

/-- Shifted instants span the same time. -/
theorem spanMinutes_shifted [Scalar α] {ts ts' : List Instant}
    (h : List.Forall₂ (Instant.Shifted days) ts ts') :
    (spanMinutes ts' : α) = spanMinutes ts := by
  cases h with
  | nil => rfl
  | cons ht hrest =>
    have hfirst := List.rel_foldl (P := Instant.Shifted days) (R := Instant.Shifted days)
      (fun _ _ ha _ _ hb => earlier_shifted ha hb) ht hrest
    have hlast := List.rel_foldl (P := Instant.Shifted days) (R := Instant.Shifted days)
      (fun _ _ ha _ _ hb => later_shifted ha hb) ht hrest
    unfold spanMinutes Instant.extremes?
    dsimp only
    rw [hfirst.since hlast]

theorem quality_shifted [Scalar α] (h : List.Forall₂ (Sample.Shifted days retention) ms ms')
    (s : CopSettings α) : s.quality ms' = s.quality ms := by
  have htimes : List.Forall₂ (Instant.Shifted days) (ms.map Sample.time)
      (ms'.map Sample.time) := by
    rw [List.forall₂_map_left_iff, List.forall₂_map_right_iff]
    exact h.imp fun _ _ hm => hm.time
  unfold CopSettings.quality
  rw [spanMinutes_shifted htimes, h.length_eq]

end

/-! ## §2. Windows. -/

namespace Window

variable {w w' : Window α} {m m' : Sample α}

/-- The same settings, and the same powers at shifted instants. -/
structure Shifted (days : Int) (w w' : Window α) : Prop where
  settings : w'.settings = w.settings
  samples : Queue.Pairs (Sample.Shifted days w.settings.retention) w.samples w'.samples

theorem shifted_ofSettings (s : CopSettings α) (days : Int) :
    (ofSettings s).Shifted days (ofSettings s) :=
  ⟨rfl, Queue.pairs_bounded _⟩

/-- **Eviction drops pairs.** -/
theorem Shifted.evict (h : w.Shifted days w') : w.evict.Shifted days w'.evict := by
  have hitems := h.samples.items
  have hleft : w.evict.samples.toList = retained w.settings.retention w.samples.toList :=
    toList_evict_of_countsBack (forall_mem_left hitems fun _ _ hm => hm.time.ordinary)
      (forall_mem_left hitems fun _ _ hm => hm.back)
  have hright : w'.evict.samples.toList = retained w.settings.retention w'.samples.toList := by
    rw [← h.settings]
    refine toList_evict_of_countsBack (forall_mem_right hitems fun _ _ hm => hm.time.ordinary') ?_
    rw [h.settings]
    exact forall_mem_right hitems fun _ _ hm => hm.back'
  refine ⟨by rw [settings_evict, settings_evict, h.settings], ?_, ?_⟩
  · rw [capacity_evict, capacity_evict, h.samples.capacity]
  · rw [settings_evict, hleft, hright]
    exact forall₂_retained hitems

theorem Shifted.add (h : w.Shifted days w')
    (hm : m.Shifted days w.settings.retention m') : (w.add m).Shifted days (w'.add m') :=
  Shifted.evict ⟨h.settings, h.samples.push hm⟩

theorem Shifted.quality [Scalar α] (h : w.Shifted days w') : w'.quality = w.quality := by
  unfold Window.quality
  rw [h.settings, quality_shifted h.samples.items]

theorem Shifted.cop? [Scalar α] (h : w.Shifted days w') : w'.cop? = w.cop? := by
  unfold Window.cop?
  rw [h.settings, h.samples.size, ratio?_shifted (forall₂_inOrder h.samples.items)]

end Window

/-! ## §3. Sensors. -/

namespace CopSensor

variable [Scalar α] {c c' : CopSensor α} {clock clock' : Clock}

/-- The same sensor but for a shifted window, which is judged by the sensor's settings. -/
inductive Shifted (days : Int) (c : CopSensor α) : CopSensor α → Prop where
  | intro {window : Window α} (hwindow : c.window.Shifted days window)
      (hjudged : c.window.settings = c.settings.cop) :
      Shifted days c { c with window := window }

theorem shifted_fresh (s : Settings α) (mode : Option Mode) (days : Int) :
    (fresh s mode).Shifted days (fresh s mode) :=
  .intro (Window.shifted_ofSettings s.cop days) rfl

/-- **One reading at shifted instants** leaves shifted sensors. -/
theorem Shifted.poll (h : c.Shifted days c') (hclock : clock.Shifted days clock')
    (hback : clock.now.CountsBack c.settings.cop.retention)
    (hback' : clock'.now.CountsBack c.settings.cop.retention) (r : Reading α) :
    (c.poll r clock).Shifted days (c'.poll r clock') := by
  obtain @⟨window', hwindow, hjudged⟩ := h
  -- whether a sample is taken, and of which powers, does not depend on the window
  have hlive : (({ c with window := window' } : CopSensor α).watched r clock').liveSample? r
      clock'.elapsed = (c.watched r clock).liveSample? r clock.elapsed := by
    rw [watched, watched, hclock.elapsed]
    rfl
  cases hsample : (c.watched r clock).liveSample? r clock.elapsed with
  | none =>
    rw [poll_of_none (by rw [taken?, hsample]; rfl),
      poll_of_none (by rw [taken?, hlive, hsample]; rfl), watched, watched, hclock.elapsed]
    exact .intro hwindow hjudged
  | some powers =>
    rw [poll_of_some (by rw [taken?, hsample]; rfl),
      poll_of_some (by rw [taken?, hlive, hsample]; rfl), watched, watched, hclock.elapsed]
    rw [← hjudged] at hback hback'
    refine .intro (hwindow.add ⟨hclock.now, rfl, rfl, hback, hback'⟩) ?_
    exact (Window.settings_add c.window _).trans hjudged

theorem Shifted.value? (h : c.Shifted days c') : c'.value? = c.value? := by
  obtain ⟨hwindow, -⟩ := h
  unfold CopSensor.value?
  rw [hwindow.cop?]

theorem Shifted.quality (h : c.Shifted days c') : c'.quality = c.quality := by
  obtain ⟨hwindow, -⟩ := h
  exact hwindow.quality

end CopSensor

end HeatMeter
