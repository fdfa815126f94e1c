/-
  HeatMeter.Proofs.Cop.Mean
  ─────────────────────────
  **IN EXACT ARITHMETIC THE COEFFICIENT IS A MEAN OF THE RATIOS OF THE SAMPLES.**

  Both energies are sums over the same intervals with the same lengths.  In order of time
  no length is negative, so an inequality between two powers, sample by sample, is one
  between their energies:

      j · p m ≤ k · q m for every sample m   →   j · energy p ≤ k · energy q

  With the smallest and the largest ratio for `j` and `k` this bounds thermal energy by
  multiples of electrical energy from both sides.  Intervals may be of any length, and
  some may be of length zero; only electrical powers have to be positive.
-/
import HeatMeter.Proofs.Cop.Window
import Mathlib

namespace HeatMeter

/-! ## §1. Energies of powers that are comparable. -/

theorem trapezoid_eq (p q hours : ℚ) : trapezoid p q hours = (p + q) / 2 * hours :=
  rfl

theorem hoursOfSpan_nonneg {span : Int} (h : 0 ≤ span) : (0 : ℚ) ≤ hoursOfSpan span := by
  have hmillis : 0 ≤ wholeMillis span := Int.tdiv_nonneg h (by decide)
  show (0 : ℚ) ≤ ((wholeMillis span : ℤ) : ℚ) / ((3600000 : ℤ) : ℚ)
  exact div_nonneg (by exact_mod_cast hmillis) (by norm_num)

/-- Powers that are comparable at both ends of an interval have comparable energies. -/
theorem mul_trapezoid_le {j k p p' q q' hours : ℚ} (hfirst : j * p ≤ k * q)
    (hsecond : j * p' ≤ k * q') (hhours : 0 ≤ hours) :
    j * trapezoid p p' hours ≤ k * trapezoid q q' hours := by
  rw [trapezoid_eq, trapezoid_eq]
  calc j * ((p + p') / 2 * hours) = (j * p + j * p') / 2 * hours := by ring
    _ ≤ (k * q + k * q') / 2 * hours := by gcongr
    _ = k * ((q + q') / 2 * hours) := by ring

namespace Sample

/-- **Powers that are comparable at every sample have comparable energies.** -/
theorem mul_energyFrom_le {j k : ℚ} {p q : Sample ℚ → ℚ} {ms : List (Sample ℚ)}
    (h : Chronological ms) (hpq : ∀ m ∈ ms, j * p m ≤ k * q m) {a b : ℚ} (hab : j * a ≤ k * b) :
    j * energyFrom p a ms ≤ k * energyFrom q b ms := by
  -- what has been added up so far stays comparable, one interval after another
  induction ms generalizing a b with
  | nil => exact hab
  | cons x rest ih =>
    cases rest with
    | nil => exact hab
    | cons y rest =>
      have hx := hpq x List.mem_cons_self
      have hy := hpq y (List.mem_cons_of_mem x List.mem_cons_self)
      have hsplit : Chronological ([x] ++ y :: rest) := h
      have hspan : 0 ≤ y.time.since x.time := by
        have hle := hsplit.linear_le List.mem_cons_self List.mem_cons_self
        rw [Instant.since_eq (h.ordinary y (List.mem_cons_of_mem x List.mem_cons_self))
          (h.ordinary x List.mem_cons_self)]
        omega
      have hinterval := mul_trapezoid_le hx hy (hoursOfSpan_nonneg hspan)
      apply ih hsplit.of_append_right fun m hm => hpq m (List.mem_cons_of_mem x hm)
      rw [mul_add, mul_add]
      exact add_le_add hab hinterval

/-- How much heat a sample gives for its electricity. -/
def ratio (m : Sample ℚ) : ℚ :=
  m.thermal / m.electrical

/-- Samples have a smallest and a largest ratio. -/
theorem exists_ratio_bounds {ms : List (Sample ℚ)} (hne : ms ≠ []) :
    ∃ low ∈ ms, ∃ high ∈ ms, ∀ m ∈ ms, low.ratio ≤ m.ratio ∧ m.ratio ≤ high.ratio := by
  have hsome : {m | m ∈ ms}.Nonempty := List.exists_mem_of_ne_nil ms hne
  obtain ⟨low, hlow, hleast⟩ := Set.exists_min_image {m | m ∈ ms} ratio ms.finite_toSet hsome
  obtain ⟨high, hhigh, hmost⟩ := Set.exists_max_image {m | m ∈ ms} ratio ms.finite_toSet hsome
  exact ⟨low, hlow, high, hhigh, fun m hm => ⟨hleast m hm, hmost m hm⟩⟩

end Sample

/-! ## §2. The coefficient. -/

namespace Window

theorem of_ratio? {s : CopSettings ℚ} {ms : List (Sample ℚ)} {cop : ℚ}
    (h : ratio? s ms = some cop) :
    0 < Sample.energy Sample.electrical ms
      ∧ cop = Sample.energy Sample.thermal ms / Sample.energy Sample.electrical ms := by
  unfold ratio? at h
  dsimp only at h
  split at h
  next => exact absurd h (by simp)
  next hpos =>
    split at h
    next => exact absurd h (by simp)
    next =>
      split at h
      next => exact ⟨not_le.1 hpos, (Option.some.inj h).symm⟩
      next => exact absurd h (by simp)

/-- Bounds of the ratios of samples are bounds of their coefficient. -/
theorem ratio?_between {s : CopSettings ℚ} {ms : List (Sample ℚ)} (hms : Chronological ms)
    (hpos : ∀ m ∈ ms, 0 < m.electrical) {cop low high : ℚ} (h : ratio? s ms = some cop)
    (hlow : ∀ m ∈ ms, low ≤ m.ratio) (hhigh : ∀ m ∈ ms, m.ratio ≤ high) :
    low ≤ cop ∧ cop ≤ high := by
  obtain ⟨henergy, rfl⟩ := of_ratio? h
  have hbelow : low * Sample.energy Sample.electrical ms
      ≤ 1 * Sample.energy Sample.thermal ms := by
    apply Sample.mul_energyFrom_le hms _ (by simp)
    intro m hm
    rw [one_mul]
    exact (le_div_iff₀ (hpos m hm)).1 (hlow m hm)
  have habove : 1 * Sample.energy Sample.thermal ms
      ≤ high * Sample.energy Sample.electrical ms := by
    apply Sample.mul_energyFrom_le hms _ (by simp)
    intro m hm
    rw [one_mul]
    exact (div_le_iff₀ (hpos m hm)).1 (hhigh m hm)
  rw [one_mul] at hbelow habove
  exact ⟨(le_div_iff₀ henergy).2 hbelow, (div_le_iff₀ henergy).2 habove⟩

/-- **In exact arithmetic a coefficient lies between the smallest and the largest ratio of
the samples of its window**, and is the ratio of all of them where they have the same. -/
theorem cop?_between_ratios {w : Window ℚ}
    (hordinary : ∀ m ∈ w.samples.toList, m.time.isLeap = false)
    (hpos : ∀ m ∈ w.samples.toList, 0 < m.electrical) {cop : ℚ}
    (h : w.cop? = some cop) :
    (∃ low ∈ w.samples.toList, ∃ high ∈ w.samples.toList,
        (∀ m ∈ w.samples.toList, low.ratio ≤ m.ratio ∧ m.ratio ≤ high.ratio)
        ∧ low.ratio ≤ cop ∧ cop ≤ high.ratio)
      ∧ ∀ k : ℚ, (∀ m ∈ w.samples.toList, m.ratio = k) → cop = k := by
  unfold cop? at h
  split at h
  next => exact absurd h (by simp)
  next hsize =>
    have hne : w.samples.toList ≠ [] := by
      intro hempty
      rw [Queue.size, hempty] at hsize
      exact hsize (by decide)
    have hms : Chronological (Sample.inOrder w.samples.toList) :=
      ⟨fun m hm => hordinary m (Sample.mem_inOrder.1 hm), Sample.sorted_inOrder _⟩
    have hbetween {low high : ℚ} (hlow : ∀ m ∈ w.samples.toList, low ≤ m.ratio)
        (hhigh : ∀ m ∈ w.samples.toList, m.ratio ≤ high) : low ≤ cop ∧ cop ≤ high :=
      ratio?_between hms (fun m hm => hpos m (Sample.mem_inOrder.1 hm)) h
        (fun m hm => hlow m (Sample.mem_inOrder.1 hm))
        fun m hm => hhigh m (Sample.mem_inOrder.1 hm)
    refine ⟨?_, ?_⟩
    · obtain ⟨low, hlow, high, hhigh, hbounds⟩ := Sample.exists_ratio_bounds hne
      exact ⟨low, hlow, high, hhigh, hbounds,
        hbetween (fun m hm => (hbounds m hm).1) fun m hm => (hbounds m hm).2⟩
    · intro k hk
      obtain ⟨hle, hge⟩ := hbetween (fun m hm => (hk m hm).ge) fun m hm => (hk m hm).le
      exact le_antisymm hge hle

/-- Four samples that give three to five times as much heat as they take electricity, the
newest of them in front and two of one instant. -/
def unevenRatios : Window ℚ :=
  ⟨⟨[⟨.ofFirstDay 1500, 10, 2⟩, ⟨.ofFirstDay 0, 3, 1⟩, ⟨.ofFirstDay 600, 8, 2⟩,
    ⟨.ofFirstDay 600, 4, 1⟩], none⟩, .standard⟩

/-- Their coefficient is 64/15, in between. -/
theorem cop?_of_unevenRatios :
    unevenRatios.cop? = some (64 / 15)
      ∧ ∃ low ∈ unevenRatios.samples.toList, ∃ high ∈ unevenRatios.samples.toList,
        (∀ m ∈ unevenRatios.samples.toList, low.ratio ≤ m.ratio ∧ m.ratio ≤ high.ratio)
          ∧ low.ratio ≤ 64 / 15 ∧ 64 / 15 ≤ high.ratio := by
  have horder : Sample.inOrder unevenRatios.samples.toList
      = [⟨.ofFirstDay 0, 3, 1⟩, ⟨.ofFirstDay 600, 8, 2⟩, ⟨.ofFirstDay 600, 4, 1⟩,
        ⟨.ofFirstDay 1500, 10, 2⟩] := by cbv
  have hcop : unevenRatios.cop? = some (64 / 15) := by
    rw [cop?, horder]
    decide +kernel
  exact ⟨hcop, (cop?_between_ratios (by decide) (by decide +kernel) hcop).1⟩

end Window

end HeatMeter
