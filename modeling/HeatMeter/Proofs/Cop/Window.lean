/-
  HeatMeter.Proofs.Cop.Window
  ───────────────────────────
  **A WINDOW FILLED IN ORDER OF TIME IS A FUNCTION OF ALL IT WAS EVER GIVEN.**

  Samples come to a window one by one or in batches, and after every insertion
  what is past the retention is dropped at the front.  Where no sample is older
  than one given before, neither the batches nor the evictions in between matter:

      w.Holds ms   the window holds the last `maxMeasurements` samples of `ms`,
                   less those before the newest one's time minus the retention

  `Holds.load` and `Holds.add` keep this up, whatever the split of `ms`.
-/
import HeatMeter.Cop.Window
import HeatMeter.Proofs.Queue
import HeatMeter.Proofs.Time.Instant

namespace HeatMeter

variable {α : Type}

/-! ## §1. What a retention leaves of samples in order. -/

theorem Sample.mem_inOrder {ms : List (Sample α)} {m : Sample α} :
    m ∈ Sample.inOrder ms ↔ m ∈ ms :=
  List.mem_mergeSort

theorem Sample.sorted_inOrder (ms : List (Sample α)) :
    (Sample.inOrder ms).Pairwise fun a b => a.time ≤ b.time :=
  Instant.sorted_mergeSort Sample.time ms

/-- The last of samples in order of time is the newest. -/
theorem Sample.le_getLast? {ms : List (Sample α)}
    (hsorted : ms.Pairwise fun a b => a.time ≤ b.time) {newest m : Sample α}
    (hlast : newest ∈ ms.getLast?) (hm : m ∈ ms) : m.time ≤ newest.time := by
  obtain ⟨before, rfl⟩ := List.getLast?_eq_some_iff.1 hlast
  rcases List.mem_append.1 hm with hm | hm
  · exact (List.pairwise_append.1 hsorted).2.2 m hm newest List.mem_cons_self
  · rw [List.mem_singleton.1 hm]

/-- Samples outside leap seconds, in order of time. -/
structure Chronological (ms : List (Sample α)) : Prop where
  /-- No sample is in a leap second. -/
  ordinary : ∀ m ∈ ms, m.time.isLeap = false
  /-- No sample is older than one before it. -/
  sorted : ms.Pairwise fun a b => a.time ≤ b.time

theorem Chronological.of_append_right {ms ns : List (Sample α)} (h : Chronological (ms ++ ns)) :
    Chronological ns :=
  ⟨fun m hm => h.ordinary m (List.mem_append_right ms hm),
    (List.pairwise_append.1 h.sorted).2.1⟩

theorem Chronological.of_isSuffix {ms ns : List (Sample α)} (h : Chronological ms)
    (hns : ns <:+ ms) : Chronological ns := by
  obtain ⟨before, rfl⟩ := hns
  exact h.of_append_right

/-- A sample that is not older than any before it can come last. -/
theorem Chronological.concat {ms : List (Sample α)} {m : Sample α} (h : Chronological ms)
    (hm : m.time.isLeap = false) (hpast : ∀ x ∈ ms, x.time ≤ m.time) :
    Chronological (ms ++ [m]) := by
  refine ⟨?_, ?_⟩
  · rw [List.forall_mem_append, List.forall_mem_singleton]
    exact ⟨h.ordinary, hm⟩
  · rw [List.pairwise_append]
    refine ⟨h.sorted, List.pairwise_singleton _ _, ?_⟩
    intro x hx y hy
    rw [List.mem_singleton.1 hy]
    exact hpast x hx

theorem Chronological.linear_le {ms ns : List (Sample α)} (h : Chronological (ms ++ ns))
    {a b : Sample α} (ha : a ∈ ms) (hb : b ∈ ns) : a.time.linear ≤ b.time.linear := by
  rw [Instant.linear_le_linear (h.ordinary a (List.mem_append_left ns ha))
    (h.ordinary b (List.mem_append_right ms hb))]
  exact (List.pairwise_append.1 h.sorted).2.2 a ha b hb

/-- Whether a sample is past the retention when `newest` is the newest one. -/
def Sample.expired (retention : Int) (newest m : Sample α) : Bool :=
  decide (m.time.linear < newest.time.linear - retention)

/-- What expires before a sample expires before every later one. -/
theorem Sample.expired_of_le {retention : Int} {a b m : Sample α}
    (h : a.time.linear ≤ b.time.linear) (he : a.expired retention m = true) :
    b.expired retention m = true := by
  simp only [Sample.expired, decide_eq_true_eq] at he ⊢
  omega

/-- A sample has not expired exactly if it is not before the cutoff, where there is one. -/
theorem Sample.expired_eq_false_iff {retention : Int} {newest m : Sample α}
    (hnewest : newest.time.isLeap = false) (hm : m.time.isLeap = false)
    (hback : newest.time.CountsBack retention) :
    newest.expired retention m = false
      ↔ ∀ cutoff ∈ newest.time.sub? retention, cutoff ≤ m.time := by
  rw [Sample.expired, decide_eq_false_iff_not]
  cases hcut : newest.time.sub? retention with
  | none =>
    -- the retention reaches back before the first instant: nothing has expired
    have hfirst := Instant.sub?_eq_none hnewest hback hcut
    have hany := Instant.firstLinear_le m.time
    refine iff_of_true (by omega) ?_
    intro cutoff hmem
    cases hmem
  | some cutoff =>
    obtain ⟨hcutoff, hlinear⟩ := Instant.sub?_eq_some hnewest hcut
    simp only [Option.mem_some_iff, forall_eq']
    rw [← Instant.linear_le_linear hcutoff hm]
    omega

/-- What is left of samples when the newest is the last one. -/
def retained (retention : Int) (ms : List (Sample α)) : List (Sample α) :=
  match ms.getLast? with
  | none => []
  | some newest => ms.dropWhile (newest.expired retention)

theorem retained_of_getLast? {retention : Int} {ms : List (Sample α)} {newest : Sample α}
    (h : ms.getLast? = some newest) :
    retained retention ms = ms.dropWhile (newest.expired retention) := by
  rw [retained, h]

theorem retained_suffix (retention : Int) (ms : List (Sample α)) :
    retained retention ms <:+ ms := by
  unfold retained
  split
  · exact List.nil_suffix
  · exact List.dropWhile_suffix _

/-- The newest sample is always left. -/
theorem getLast?_retained {retention : Int} (hr : 0 ≤ retention) (ms : List (Sample α)) :
    (retained retention ms).getLast? = ms.getLast? := by
  cases hlast : ms.getLast? with
  | none =>
    rw [List.getLast?_eq_none_iff] at hlast
    subst hlast
    rfl
  | some newest =>
    rw [retained_of_getLast? hlast]
    apply getLast?_dropWhile hlast
    rw [Sample.expired, decide_eq_false_iff_not]
    omega

/-- **Of samples in order all that are past the retention are dropped**, and no other. -/
theorem retained_eq_filter {retention : Int} {ms : List (Sample α)} (h : Chronological ms)
    {newest : Sample α} (hlast : ms.getLast? = some newest) :
    retained retention ms = ms.filter fun m => !newest.expired retention m := by
  rw [retained_of_getLast? hlast]
  apply dropWhile_eq_filter
  apply h.sorted.imp_of_mem
  intro a b ha hb hle
  rw [← Instant.linear_le_linear (h.ordinary a ha) (h.ordinary b hb)] at hle
  simp only [Sample.expired, decide_eq_true_eq]
  omega

/-- Nothing that is left is past the retention. -/
theorem le_of_mem_retained {retention : Int} {ms : List (Sample α)} (h : Chronological ms)
    {newest m : Sample α} (hn : newest ∈ ms.getLast?) (hm : m ∈ retained retention ms) :
    newest.time.linear - retention ≤ m.time.linear := by
  rw [retained_eq_filter h hn, List.mem_filter, Bool.not_eq_true', Sample.expired,
    decide_eq_false_iff_not] at hm
  omega

/-- **Evictions in between do not matter**: what a retention and a cut leave of
samples is also left when both are applied before the last ones come in. -/
theorem retained_rtake_append (retention : Int) (n : Nat) {ms new : List (Sample α)}
    (h : Chronological (ms ++ new)) (hnew : new ≠ []) :
    retained retention ((retained retention (ms.rtake n) ++ new).rtake n)
      = retained retention ((ms ++ new).rtake n) := by
  cases n with
  | zero => rw [List.rtake_zero, List.rtake_zero]
  | succ n =>
    -- both sides are judged by the last of the new samples
    obtain ⟨newest, hlast⟩ : ∃ newest, new.getLast? = some newest :=
      ⟨new.getLast hnew, List.getLast?_eq_some_getLast hnew⟩
    have hend : ∀ l : List (Sample α), ((l ++ new).rtake (n + 1)).getLast? = some newest := by
      intro l
      rw [getLast?_rtake (Nat.succ_pos n), List.getLast?_append, hlast]
      rfl
    rw [retained_of_getLast? (hend _), retained_of_getLast? (hend _)]
    cases hold : (ms.rtake (n + 1)).getLast? with
    | none =>
      rw [List.getLast?_eq_none_iff] at hold
      rw [hold, show retained retention ([] : List (Sample α)) = [] from rfl, ← hold,
        rtake_rtake_append]
    | some old =>
      -- what the first eviction drops, judged by `old`, the second one drops as well
      have hmem : old ∈ ms := (rtake_suffix ms (n + 1)).mem (List.mem_of_getLast? hold)
      have hle : old.time.linear ≤ newest.time.linear :=
        h.linear_le hmem (List.mem_of_getLast? hlast)
      rw [retained_of_getLast? hold, dropWhile_rtake_dropWhile_append _ _ _
        (fun m _ he => Sample.expired_of_le hle he), rtake_rtake_append]

/-! ## §2. Windows that are filled in order. -/

namespace Window

@[simp] theorem settings_evict (w : Window α) : w.evict.settings = w.settings := by
  unfold evict
  split
  · rfl
  · split <;> rfl

@[simp] theorem capacity_evict (w : Window α) :
    w.evict.samples.capacity = w.samples.capacity := by
  unfold evict
  split
  · rfl
  · split <;> rfl

theorem add_eq_load (w : Window α) (m : Sample α) : w.add m = w.load [m] := by
  simp [add, load, Sample.inOrder, Queue.pushAll]

@[simp] theorem settings_load (w : Window α) (ms : List (Sample α)) :
    (w.load ms).settings = w.settings := by
  unfold load
  split
  · rfl
  · rw [settings_evict]

@[simp] theorem capacity_load (w : Window α) (ms : List (Sample α)) :
    (w.load ms).samples.capacity = w.samples.capacity := by
  unfold load
  split
  · rfl
  · rw [capacity_evict]
    exact Queue.capacity_pushAll _ _

@[simp] theorem settings_add (w : Window α) (m : Sample α) :
    (w.add m).settings = w.settings := by
  rw [add_eq_load, settings_load]

/-- Eviction outside leap seconds leaves what the retention leaves, if it does not count
from the newest sample past the last instant. -/
theorem toList_evict_of_countsBack {w : Window α}
    (h : ∀ m ∈ w.samples.toList, m.time.isLeap = false)
    (hback : ∀ m ∈ w.samples.toList, m.time.CountsBack w.settings.retention) :
    w.evict.samples.toList = retained w.settings.retention w.samples.toList := by
  unfold evict retained Queue.back?
  cases hlast : w.samples.toList.getLast? with
  | none => exact List.getLast?_eq_none_iff.1 hlast
  | some newest =>
    have hmem : newest ∈ w.samples.toList := List.mem_of_getLast? hlast
    have hnewest : newest.time.isLeap = false := h newest hmem
    dsimp only
    have hfresh (m : Sample α) (hm : m ∈ w.samples.toList) :=
      Sample.expired_eq_false_iff hnewest (h m hm) (hback newest hmem)
    cases hcut : newest.time.sub? w.settings.retention with
    | none =>
      -- nothing is dropped, and nothing has expired
      symm
      rw [List.dropWhile_eq_self_iff]
      intro hpos
      rw [Bool.not_eq_true, hfresh _ (List.getElem_mem hpos), hcut]
      intro cutoff hmem
      cases hmem
    | some cutoff =>
      apply dropWhile_congr
      intro m hm
      rw [Bool.eq_iff_iff, decide_eq_true_iff, ← Bool.not_eq_false, hfresh m hm, hcut]
      simp

theorem toList_evict {w : Window α} (hr : 0 ≤ w.settings.retention)
    (h : ∀ m ∈ w.samples.toList, m.time.isLeap = false) :
    w.evict.samples.toList = retained w.settings.retention w.samples.toList :=
  toList_evict_of_countsBack h fun m hm => Instant.countsBack_of_nonneg (h m hm) hr

/-- What an insertion leaves is what the retention leaves of all that is there then. -/
theorem toList_load {w : Window α} (hr : 0 ≤ w.settings.retention) {ms : List (Sample α)}
    (hne : ms ≠ [])
    (h : ∀ m ∈ (w.samples.pushAll (Sample.inOrder ms)).toList, m.time.isLeap = false) :
    (w.load ms).samples.toList
      = retained w.settings.retention (w.samples.pushAll (Sample.inOrder ms)).toList := by
  rw [load, List.isEmpty_eq_false_iff.2 hne]
  exact toList_evict (w := { w with samples := w.samples.pushAll (Sample.inOrder ms) }) hr h

/-- The window holds what its capacity and its retention leave of `ms`. -/
structure Holds (w : Window α) (ms : List (Sample α)) : Prop where
  /-- The capacity is the configured one. -/
  capacity : w.samples.capacity = some w.settings.maxMeasurements
  /-- The samples held. -/
  toList : w.samples.toList = retained w.settings.retention (ms.rtake w.settings.maxMeasurements)

theorem Holds.unique {v w : Window α} {ms : List (Sample α)} (hv : v.Holds ms)
    (hw : w.Holds ms) (hs : v.settings = w.settings) : v = w := by
  obtain ⟨hvc, hvl⟩ := hv
  obtain ⟨hwc, hwl⟩ := hw
  rcases v with ⟨⟨xs, n⟩, s⟩
  rcases w with ⟨⟨ys, k⟩, t⟩
  dsimp only at hvc hvl hwc hwl hs
  subst hs
  rw [hvc, hvl, hwc, hwl]

theorem holds_ofSettings (s : CopSettings α) : (ofSettings s).Holds [] :=
  ⟨rfl, by rw [List.rtake_nil]; rfl⟩

/-- **A batch in order of time, none older than what came before, is held.** -/
theorem Holds.load {w : Window α} {ms new : List (Sample α)} (hw : w.Holds ms)
    (hr : 0 ≤ w.settings.retention) (h : Chronological (ms ++ new)) :
    (w.load new).Holds (ms ++ new) := by
  by_cases hnew : new = []
  · subst hnew
    rw [List.append_nil]
    exact hw
  · have horder : Sample.inOrder new = new :=
      Instant.mergeSort_of_sorted h.of_append_right.sorted
    -- the queue is within its capacity, so pushing all is one cut
    have hlen : w.samples.toList.length ≤ w.settings.maxMeasurements := by
      rw [hw.toList]
      have hle := (retained_suffix w.settings.retention
        (ms.rtake w.settings.maxMeasurements)).length_le
      rw [length_rtake] at hle
      omega
    have hpush : (w.samples.pushAll (Sample.inOrder new)).toList
        = (w.samples.toList ++ new).rtake w.settings.maxMeasurements := by
      rw [horder]
      exact Queue.toList_pushAll hw.capacity hlen new
    -- and all that is left is outside leap seconds, which eviction asks for
    have hordinary : ∀ m ∈ (w.samples.pushAll (Sample.inOrder new)).toList,
        m.time.isLeap = false := by
      intro m hm
      rw [hpush] at hm
      apply h.ordinary
      rcases List.mem_append.1 ((rtake_suffix _ _).mem hm) with hold | hnew
      · rw [hw.toList] at hold
        exact List.mem_append_left new
          ((rtake_suffix ms _).mem ((retained_suffix _ _).mem hold))
      · exact List.mem_append_right ms hnew
    refine ⟨?_, ?_⟩
    · rw [capacity_load, settings_load]
      exact hw.capacity
    · rw [toList_load hr hnew hordinary, settings_load, hpush, hw.toList,
        retained_rtake_append _ _ h hnew]

/-- **A sample not older than what came before is held.** -/
theorem Holds.add {w : Window α} {ms : List (Sample α)} {m : Sample α} (hw : w.Holds ms)
    (hr : 0 ≤ w.settings.retention) (h : Chronological (ms ++ [m])) :
    (w.add m).Holds (ms ++ [m]) := by
  rw [add_eq_load]
  exact hw.load hr h

end Window

end HeatMeter
