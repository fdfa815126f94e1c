/-
  HeatMeter.Proofs.Cop.Spacing
  ────────────────────────────
  **FOR WHICH INTERVALS RECORDED SAMPLES ARE AN INTERVAL APART.**

  A live sensor measures the configured interval in durations, whose additions saturate.  A
  backfill compares it with a span, which is the shorter type:

      interval a span         samples are an interval apart, whatever the records
      interval beyond spans   every record gives its sample, as if there were no interval

  No two instants are as far apart as an interval beyond spans, so there a filled window is
  spaced only if it is left with one sample, `isChain_iff_of_never`.  It is left with two
  exactly if the last two recorded are within the retention, `two_le_length_retained_iff`.
-/
import HeatMeter.Proofs.Cop.Restart

namespace HeatMeter

variable {α : Type}

/-! ## §1. When a window keeps two samples. -/

/-- Under a relation that never holds, two items in a row are one too many. -/
theorem isChain_iff_of_never {β : Type} {R : β → β → Prop} (hnever : ∀ a b, ¬ R a b)
    (l : List β) : l.IsChain R ↔ l.length < 2 := by
  match l with
  | [] => simp
  | [a] => simp
  | a :: b :: rest => simp [List.isChain_cons_cons, hnever a b]

/-- **A window keeps two samples exactly if the last two are within the retention.** -/
theorem two_le_length_retained_iff {retention : Int} (hr : 0 ≤ retention) {ms : List (Sample α)}
    (h : Chronological ms) {n : Nat} (hn : 2 ≤ n) :
    2 ≤ (retained retention (ms.rtake n)).length
      ↔ ∃ a b, [a, b] <:+ ms ∧ b.time.since a.time ≤ retention := by
  have hend := h.of_isSuffix (rtake_suffix ms n)
  have hspan {a b : Sample α} (hab : [a, b] <:+ ms) :
      b.time.since a.time = b.time.linear - a.time.linear :=
    Instant.since_eq (h.ordinary b (hab.mem (by simp))) (h.ordinary a (hab.mem (by simp)))
  have hlast {a b : Sample α} {l : List (Sample α)} (hab : [a, b] <:+ l) :
      l.getLast? = some b := by
    obtain ⟨before, hbefore⟩ := hab
    rw [← hbefore, List.getLast?_append]
    rfl
  constructor
  · intro hlen
    -- the last two of the window are the last two of all
    have htwo : ((retained retention (ms.rtake n)).rtake 2).length = 2 := by
      rw [length_rtake]
      omega
    obtain ⟨a, b, hab⟩ := List.length_eq_two.1 htwo
    have hkept : [a, b] <:+ retained retention (ms.rtake n) := hab ▸ rtake_suffix _ 2
    have hcut : [a, b] <:+ ms.rtake n := hkept.trans (retained_suffix _ _)
    have hall : [a, b] <:+ ms := hcut.trans (rtake_suffix ms n)
    have hfresh := le_of_mem_retained hend (hlast hcut) (hkept.mem (List.mem_cons_self))
    exact ⟨a, b, hall, by rw [hspan hall]; omega⟩
  · rintro ⟨a, b, hab, hfresh⟩
    rw [hspan hab] at hfresh
    have hcut : [a, b] <:+ ms.rtake n := by
      have hlong := hab.length_le
      rw [List.length_cons, List.length_singleton] at hlong
      apply List.suffix_of_suffix_length_le hab (rtake_suffix ms n)
      rw [length_rtake, List.length_cons, List.length_singleton]
      omega
    -- neither of the two has expired by the second
    have hpair : [a, b].filter (fun m => !b.expired retention m) = [a, b] := by
      rw [List.filter_eq_self]
      intro m hm
      rw [Bool.not_eq_true', Sample.expired, decide_eq_false_iff_not]
      simp only [List.mem_cons, List.not_mem_nil, or_false] at hm
      rcases hm with rfl | rfl
      · omega
      · omega
    have hle := (hcut.sublist.filter fun m => !b.expired retention m).length_le
    rw [hpair] at hle
    rw [retained_eq_filter hend (hlast hcut)]
    exact hle

namespace CopSensor

/-! ## §2. Intervals beyond spans. -/

/-- An interval too long for a span is none between recorded samples. -/
theorem recordedInterval_eq_zero {c : CopSensor α}
    (h : 9223372036854775807 / 1000 < c.settings.cop.minIntervalSeconds) :
    c.recordedInterval = 0 := by
  have hnanos : c.minInterval.nanos
      = min (c.settings.cop.minIntervalSeconds * 1000000000) Duration.longestNanos := rfl
  have hlong : ¬ (c.minInterval.nanos : Int) ≤ maxSpan := by
    unfold maxSpan
    unfold Duration.longestNanos at hnanos
    omega
  rw [recordedInterval, Duration.span?, if_neg hlong]
  rfl

/-- No two instants are as far apart as an interval too long for a span. -/
theorem not_spaced_of_beyond {seconds : Nat} (h : 9223372036854775807 / 1000 < seconds)
    (a b : Sample α) : ¬ (seconds : Int) * 1000000000 ≤ b.time.since a.time := by
  have hle := Instant.since_le a.time b.time
  omega

variable [Scalar α]

/-- The samples that records give where no interval is kept. -/
def allSamples (c : CopSensor α) (records : List (Record α)) : List (Sample α) :=
  records.filterMap (c.recordedSample? none)

theorem recordedSample?_of_not_tooSoon {c : CopSensor α} {last : Option Instant} {r : Record α}
    (h : c.tooSoon last r.time = false) :
    c.recordedSample? last r = c.recordedSample? none r := by
  rw [recordedSample?, recordedSample?, h]
  rfl

/-- **Without an interval every record gives its sample.** -/
theorem recordedSamples_eq_allSamples {c : CopSensor α} (hnone : c.recordedInterval = 0)
    {last : Option Instant} {records : List (Record α)}
    (hlast : ∀ l ∈ last, l.isLeap = false ∧ ∀ r ∈ records, l ≤ r.time)
    (hordinary : ∀ r ∈ records, r.time.isLeap = false)
    (hsorted : records.Pairwise fun a b => a.time ≤ b.time) :
    c.recordedSamples last records = c.allSamples records := by
  -- the last sample is never later than the records to come
  induction records generalizing last with
  | nil => rfl
  | cons r rest ih =>
    obtain ⟨hfirst, hrest⟩ := List.pairwise_cons.1 hsorted
    have hr : r.time.isLeap = false := hordinary r List.mem_cons_self
    have hopen : c.tooSoon last r.time = false := by
      cases last with
      | none => rfl
      | some l =>
        obtain ⟨hl, hle⟩ := hlast l rfl
        have hpast := (Instant.linear_le_linear hl hr).2 (hle r List.mem_cons_self)
        rw [tooSoon, hnone, Instant.since_eq hr hl, decide_eq_false_iff_not]
        omega
    have hlater : ∀ l ∈ ((c.recordedSample? none r).map Sample.time).or last,
        l.isLeap = false ∧ ∀ x ∈ rest, l ≤ x.time := by
      intro l hl
      cases hsample : c.recordedSample? none r with
      | none =>
        rw [hsample] at hl
        obtain ⟨hleap, hle⟩ := hlast l hl
        exact ⟨hleap, fun x hx => hle x (List.mem_cons_of_mem r hx)⟩
      | some m =>
        rw [hsample] at hl
        obtain rfl : m.time = l := Option.some.inj hl
        rw [(of_recordedSample? hsample).1]
        exact ⟨hr, hfirst⟩
    rw [recordedSamples_cons, recordedSample?_of_not_tooSoon hopen,
      ih hlater (fun x hx => hordinary x (List.mem_cons_of_mem r hx)) hrest, allSamples,
      allSamples, List.filterMap_cons]
    cases c.recordedSample? none r <;> rfl

/-! ## §3. Filled windows. -/

/-- **Where the interval is a span, recorded samples are as many seconds apart.** -/
theorem recordedSamples_spaced {c : CopSensor α}
    (hinterval : c.settings.cop.minIntervalSeconds ≤ 9223372036854775807 / 1000)
    {channels : Channels α} (hordinary : ∀ t ∈ channels.instants, t.isLeap = false) :
    (c.recordedSamples none channels.records).IsChain fun a b =>
      (c.settings.cop.minIntervalSeconds : Int) * 1000000000 ≤ b.time.since a.time := by
  have hchronological := recordedSamples_chronological hordinary c none
  apply (recordedSamples_isChain hinterval hordinary).imp_of_mem_imp
  intro a b ha hb hab
  exact since_of_spaced (hchronological.ordinary a ha) (hchronological.ordinary b hb) hab

/-- **When a filled window is spaced**: exactly if the interval is a span or the last two of
all samples recorded are further apart than the retention. -/
theorem backfill_spaced_iff {s : Settings α} (hs : s.fault? = none) (mode : Option Mode)
    {channels : Channels α} (hordinary : ∀ t ∈ channels.instants, t.isLeap = false)
    (clock : Clock) :
    (((fresh s mode).backfill channels clock).1.window.samples.toList.IsChain fun a b =>
        (s.cop.minIntervalSeconds : Int) * 1000000000 ≤ b.time.since a.time)
      ↔ s.cop.minIntervalSeconds ≤ 9223372036854775807 / 1000
        ∨ ∀ a b, [a, b] <:+ (fresh s mode).allSamples channels.records →
          s.cop.retention < b.time.since a.time := by
  rw [toList_window_backfill hordinary hs]
  by_cases hinterval : s.cop.minIntervalSeconds ≤ 9223372036854775807 / 1000
  · refine iff_of_true ?_ (.inl hinterval)
    have hspaced := recordedSamples_spaced (c := fresh s mode) hinterval hordinary
    exact hspaced.suffix ((retained_suffix _ _).trans (rtake_suffix _ _))
  · have hbeyond : 9223372036854775807 / 1000 < s.cop.minIntervalSeconds := not_le.1 hinterval
    have hall : (fresh s mode).recordedSamples none channels.records
        = (fresh s mode).allSamples channels.records :=
      recordedSamples_eq_allSamples (recordedInterval_eq_zero hbeyond) (by simp)
        (Channels.records_ordinary hordinary) channels.records_sorted
    have hchronological := recordedSamples_chronological hordinary (fresh s mode) none
    have hretention : 0 ≤ s.cop.retention := Int.le_of_lt (Settings.retention_pos hs)
    have hroom : 2 ≤ s.cop.maxMeasurements := (Settings.cop_bounds hs).2.2
    -- the window is spaced exactly if it has not two samples
    rw [isChain_iff_of_never (not_spaced_of_beyond hbeyond), ← not_le,
      two_le_length_retained_iff hretention hchronological hroom, hall, or_iff_right hinterval]
    simp only [not_exists, not_and, not_le]

/-- Settings with the shortest interval that is beyond spans. -/
def endlessInterval : Settings Float :=
  { Settings.standard with
    cop := { CopSettings.standard with minIntervalSeconds := 9223372036854776 } }

/-- A unit that heats steadily, seen twice an hour apart. -/
def hourlyChannels : Channels Float where
  inlet := [(.ofFirstDay 0, 30)]
  outlet := [(.ofFirstDay 0, 35)]
  flow := [(.ofFirstDay 0, 1)]
  current := [(.ofFirstDay 0, 5)]
  frequency := [(.ofFirstDay 3600, 50), (.ofFirstDay 0, 50)]

/-- Of two samples an hour apart the retention leaves one, and the window is spaced. -/
theorem backfill_spaced_of_hourlyChannels :
    (((fresh endlessInterval none).backfill hourlyChannels
        (.startingAt (.ofFirstDay 3600))).1.window.samples.toList.IsChain fun a b =>
          (endlessInterval.cop.minIntervalSeconds : Int) * 1000000000
            ≤ b.time.since a.time)
      ∧ ((fresh endlessInterval none).backfill hourlyChannels
        (.startingAt (.ofFirstDay 3600))).1.window.samples.toList.map Sample.time
          = [.ofFirstDay 3600] := by
  have hrecords : hourlyChannels.records
      = [⟨.ofFirstDay 0, { steadyReading 50 with mode := none }⟩,
        ⟨.ofFirstDay 3600, { steadyReading 50 with mode := none }⟩] := by cbv
  have hordinary : ∀ t ∈ hourlyChannels.instants, t.isLeap = false := by
    rw [← Channels.times_records, hrecords]
    decide
  have hfault : endlessInterval.fault? = none := by decide
  have htimes : ((fresh endlessInterval none).allSamples hourlyChannels.records).map Sample.time
      = [.ofFirstDay 0, .ofFirstDay 3600] := by
    rw [hrecords]
    decide +kernel
  refine ⟨(backfill_spaced_iff hfault none hordinary _).2 (.inr ?_), ?_⟩
  · intro a b hab
    have hpair : [a.time, b.time] <:+ [.ofFirstDay 0, .ofFirstDay 3600] := by
      rw [← htimes]
      exact hab.map Sample.time
    obtain ⟨ha, hb⟩ : a.time = .ofFirstDay 0 ∧ b.time = .ofFirstDay 3600 := by
      simpa using hpair.eq_of_length rfl
    rw [ha, hb]
    decide
  · rw [toList_window_backfill hordinary hfault, hrecords]
    decide +kernel

/-- **An interval beyond spans spaces nothing**: the steady unit gives a sample for each of
its three records, a minute and half a minute apart. -/
theorem backfill_not_spaced_of_endlessInterval :
    endlessInterval.fault? = none
      ∧ (∀ t ∈ steadyChannels.instants, t.isLeap = false)
      ∧ ¬ ((fresh endlessInterval none).backfill steadyChannels
        (.startingAt (.ofFirstDay 90))).1.window.samples.toList.IsChain fun a b =>
          (endlessInterval.cop.minIntervalSeconds : Int) * 1000000000
            ≤ b.time.since a.time := by
  have hrecords : steadyChannels.records
      = [⟨.ofFirstDay 0, steadyReading 50⟩, ⟨.ofFirstDay 60, steadyReading 52⟩,
        ⟨.ofFirstDay 90, steadyReading 54⟩] := by cbv
  have hordinary : ∀ t ∈ steadyChannels.instants, t.isLeap = false := by
    rw [← Channels.times_records, hrecords]
    decide
  have hfault : endlessInterval.fault? = none := by decide
  refine ⟨hfault, hordinary, ?_⟩
  rw [toList_window_backfill hordinary hfault, hrecords,
    isChain_iff_of_never (not_spaced_of_beyond (by decide))]
  decide +kernel

end CopSensor

end HeatMeter
