/-
  HeatMeter.Proofs.Meter.Compressor
  ─────────────────────────────────
  **RECORDED CHANNELS FILL THE COMPRESSOR LOG AS METERING THEIR RECORDS DOES.**

  The log can be filled in two ways.  A backfill shows it the states of the frequency
  channel alone, one at each instant of that channel.  Metering the merged records
  shows it a state at every instant of any channel, and between two values of the
  frequency channel that state is the one held:

      frequency     on           off          on
      other           ·   ·    ·      ·   ·
      held          on on on  on off off off  on

  A held state repeats the state before it, and a log takes no notice of a repeat.
  `watch_held` is the induction along the instants; for it the log may have seen
  something already, as long as it was last in the state shown where nothing is held.
-/
import HeatMeter.Proofs.Channels.Shown
import HeatMeter.Proofs.Clock.Forward
import HeatMeter.Proofs.Compressor.Load
import HeatMeter.Proofs.Meter.Run

namespace HeatMeter

/-! ## §1. Where a series has its first value. -/

/-- Where a series has values at some of these instants only, it begins with the first of
them or has none there. -/
theorem Series.begins_or_later {β : Type} {s : Series β} {t : Instant} {rest : List Instant}
    (hfirst : ∀ u ∈ rest, t < u) (hs : s.Pairwise fun a b => a.1 < b.1)
    (hmem : ∀ x ∈ s, x.1 ∈ t :: rest) :
    (∃ value later, s = (t, value) :: later) ∨ ∀ x ∈ s, x.1 ∈ rest := by
  cases s with
  | nil => exact .inr fun x hx => absurd hx List.not_mem_nil
  | cons y later =>
    rcases List.mem_cons.1 (hmem y List.mem_cons_self) with hy | hy
    · exact .inl ⟨y.2, later, by rw [← hy]⟩
    · refine .inr fun x hx => ?_
      rcases List.mem_cons.1 hx with rfl | hx
      · exact hy
      · have hafter : t < x.1 := lt_trans (hfirst y.1 hy) ((List.pairwise_cons.1 hs).1 x hx)
        exact (List.mem_cons.1 (hmem x (List.mem_cons_of_mem y hx))).resolve_left
          (ne_of_gt hafter)

/-! ## §2. Held states are repeats. -/

namespace CompressorLog

variable {α : Type} [Scalar α]

/-- After an observation the log is in the state observed. -/
theorem last_observe (l : CompressorLog α) (running : Bool) (t : Instant) :
    (l.observe running t).last.map Prod.snd = some running := by
  cases hlast : l.last with
  | none =>
    rw [observe_of_none hlast]
    rfl
  | some a =>
    by_cases hsame : a.2 = running
    · rw [observe_of_repeat hlast hsame, hlast, Option.map_some, hsame]
    · rw [observe_of_change hlast hsame]
      rfl

theorem observe_of_last {l : CompressorLog α} {running : Bool}
    (hlast : l.last.map Prod.snd = some running) (t : Instant) : l.observe running t = l := by
  obtain ⟨a, ha, hsame⟩ := Option.map_eq_some_iff.1 hlast
  exact observe_of_repeat ha hsame t

theorem watch_cons (l : CompressorLog α) (x : Instant × Bool) (observed : List (Instant × Bool)) :
    l.watch (x :: observed) = (l.observe x.2 x.1).watch observed :=
  rfl

/-- **A log that watches held states ends up like one that watches the states
themselves.** -/
theorem watch_held {l : CompressorLog α} {times : List Instant} {s : Series Bool} {state : Bool}
    (htimes : times.Pairwise fun a b => a < b) (hs : s.Pairwise fun a b => a.1 < b.1)
    (hmem : ∀ x ∈ s, x.1 ∈ times)
    (hstate : ∀ t ∈ times, s.held? t = none → l.last.map Prod.snd = some state) :
    l.watch (times.map fun t => (t, (s.held? t).getD state)) = l.watch s := by
  induction times generalizing l s state with
  | nil =>
    cases s with
    | nil => rfl
    | cons x s => exact absurd (hmem x List.mem_cons_self) (by simp)
  | cons t rest ih =>
    obtain ⟨hfirst, hrest⟩ := List.pairwise_cons.1 htimes
    rcases Series.begins_or_later hfirst hs hmem with ⟨b, later, rfl⟩ | hlater
    · -- a value of its own: both logs observe it, and it is held from here on
      obtain ⟨hafter, hsorted⟩ := List.pairwise_cons.1 hs
      have hnow : Series.held? ((t, b) :: later) t = some b := by
        rw [Series.held?_cons, if_pos (le_refl t), Series.held?_eq_none hafter]
        rfl
      have hheld : (rest.map fun u => (u, (Series.held? ((t, b) :: later) u).getD state))
          = rest.map fun u => (u, (Series.held? later u).getD b) := by
        apply List.map_congr_left
        intro u hu
        rw [Series.held?_cons, if_pos (le_of_lt (hfirst u hu))]
        rfl
      rw [List.map_cons, watch_cons, watch_cons, hnow, hheld]
      apply ih hrest hsorted
      · intro x hx
        exact (List.mem_cons.1 (hmem x (List.mem_cons_of_mem _ hx))).resolve_left
          (ne_of_gt (hafter x hx))
      · intro u hu hnone
        exact last_observe l b t
    · -- no value here: the log is shown the state it is in
      have hnone : s.held? t = none := Series.held?_eq_none fun x hx => hfirst x.1 (hlater x hx)
      rw [List.map_cons, watch_cons, hnone, Option.getD_none,
        observe_of_last (hstate t List.mem_cons_self hnone)]
      exact ih hrest hs hlater fun u hu => hstate u (List.mem_cons_of_mem t hu)

/-- The recorded states come in order, and are watched as they are. -/
theorem backfill_eq_watch (l : CompressorLog α) (frequency : Series α) :
    l.backfill frequency = l.watch (Channels.runningStates frequency) := by
  have hsorted : (Channels.runningStates frequency).Pairwise fun a b => a.1 ≤ b.1 :=
    List.pairwise_map.2 (Instant.sorted_mergeSort Prod.fst frequency)
  have hinOrder : (Channels.runningStates frequency).inOrder
      = Channels.runningStates frequency :=
    Instant.mergeSort_of_sorted hsorted
  rw [backfill, load_eq_watch, hinOrder]

end CompressorLog

/-! ## §3. The log of a meter. -/

namespace Channels

variable {α : Type}

theorem mem_instants_of_frequency {c : Channels α} {x : Instant × α} (h : x ∈ c.frequency) :
    x.1 ∈ c.instants := by
  have hmem : x.1 ∈ c.frequency.instants := List.mem_map_of_mem h
  rw [mem_instants_iff, RecordedAt]
  simp only [hmem, true_or, or_true]

variable [Scalar α]

/-- The compressor runs in a merged reading where the last value of its frequency
channel says so. -/
theorem running_readingAt (c : Channels α) (t : Instant) :
    (c.inOrder.readingAt t).running = ((runningStates c.frequency).held? t).getD false := by
  have hstates : runningStates c.frequency
      = c.frequency.inOrder.map fun x => (x.1, isRunning (some x.2)) := rfl
  rw [hstates, Series.held?_map fun f => isRunning (some f)]
  show isRunning (c.frequency.inOrder.held? t) = _
  cases c.frequency.inOrder.held? t <;> rfl

end Channels

namespace Meter

variable {α : Type} [Scalar α]

/-- Channels without a value leave a frequency channel without one. -/
theorem compressor_backfill (m : Meter α) (channels : Channels α) (clock : Clock) :
    (m.backfill channels clock).compressor = m.compressor.backfill channels.frequency := by
  unfold backfill
  by_cases hempty : channels.isEmpty = true
  · rw [if_pos hempty]
    have hnone : channels.frequency = [] := by
      rw [List.eq_nil_iff_forall_not_mem]
      intro x hx
      have hmem := Channels.mem_instants_of_frequency hx
      rw [Channels.isEmpty, List.isEmpty_iff] at hempty
      rw [hempty] at hmem
      simp at hmem
    rw [hnone, CompressorLog.backfill_eq_watch, Channels.runningStates, Series.inOrder,
      List.mergeSort_nil]
    rfl
  · rw [if_neg hempty]

theorem summary_compressor (m : Meter α) : m.summary.compressor = m.compressor.averages :=
  rfl

end Meter

namespace Replay

variable {α : Type} [Scalar α]

theorem compressor_startingAt (s : Settings α) (kept : Option (EnergySnapshot α))
    (now : Instant) :
    (startingAt s kept now).meter.compressor = .ofCapacity s.compressor.maxHistory := by
  cases kept <;> rfl

/-- **In a replay of records in order the log observes each at its own time.** -/
theorem compressor_run {p : Replay α} {records : List (Record α)}
    (hsorted : records.Pairwise fun a b => a.time ≤ b.time)
    (hfirst : ∀ r ∈ records.head?,
      (p.clock.set r.time).1.now = r.time ∧ (p.clock.set r.time).1.Ample) :
    (p.run records).meter.compressor
      = p.meter.compressor.watch (records.map fun r => (r.time, r.reading.running)) := by
  induction records generalizing p with
  | nil => rfl
  | cons r rest ih =>
    obtain ⟨hnow, hample⟩ := hfirst r rfl
    obtain ⟨hafter, hrest⟩ := List.pairwise_cons.1 hsorted
    have hobserved : (p.step r).meter.compressor
        = p.meter.compressor.observe r.reading.running (p.clock.set r.time).1.now := rfl
    show ((p.step r).run rest).meter.compressor = _
    rw [ih hrest, hobserved, hnow]
    · rfl
    · intro next hnext
      have hle : (p.step r).clock.now ≤ next.time := by
        show (p.clock.set r.time).1.now ≤ next.time
        rw [hnow]
        exact hafter next (List.mem_of_head? hnext)
      have hstep : (p.step r).clock.Ample := hample
      obtain ⟨elapsed, hset, -, hset_ample⟩ := hstep.set hle
      rw [hset]
      exact ⟨rfl, hset_ample⟩

/-- A backfill shows a new log the states of the frequency channel. -/
theorem compressor_opening_backfill (s : Settings α) (kept : Option (EnergySnapshot α))
    (clock : Clock) (channels : Channels α) :
    ((opening s kept clock).take (.backfill channels)).meter.compressor
      = (CompressorLog.ofCapacity s.compressor.maxHistory).watch
        (Channels.runningStates channels.frequency) := by
  show ((startingAt s kept clock.now).meter.backfill channels clock).compressor = _
  rw [Meter.compressor_backfill, CompressorLog.backfill_eq_watch, compressor_startingAt]

/-- Metering the merged records shows it the state held at every instant. -/
theorem compressor_run_records (s : Settings α) (kept : Option (EnergySnapshot α))
    (start : Instant) (channels : Channels α) :
    ((startingAt s kept start).run channels.records).meter.compressor
      = (CompressorLog.ofCapacity s.compressor.maxHistory).watch
        (channels.instants.map fun t =>
          (t, ((Channels.runningStates channels.frequency).held? t).getD false)) := by
  have hset : ∀ r ∈ channels.records.head?,
      ((startingAt s kept start).clock.set r.time).1.now = r.time
        ∧ ((startingAt s kept start).clock.set r.time).1.Ample :=
    fun r _ => Clock.set_startingAt start r.time
  have hobserved : (channels.records.map fun r => (r.time, r.reading.running))
      = channels.instants.map fun t =>
          (t, ((Channels.runningStates channels.frequency).held? t).getD false) := by
    unfold Channels.records
    rw [List.map_map]
    apply List.map_congr_left
    intro t _
    exact congrArg (Prod.mk t) (channels.running_readingAt t)
  rw [compressor_run channels.records_sorted hset, compressor_startingAt, hobserved]

/-- **A compressor log filled from channels is the log of a meter that was shown them
live**, where the frequency channel has one value an instant and begins no later than
any other. -/
theorem compressor_backfill_eq_live (s : Settings α) (kept kept' : Option (EnergySnapshot α))
    (clock : Clock) (start : Instant) {channels : Channels α}
    (hdistinct : channels.frequency.instants.Nodup)
    (hfirst : ∀ t ∈ channels.instants, ∃ x ∈ channels.frequency, x.1 ≤ t) :
    ((opening s kept clock).take (.backfill channels)).meter.compressor
        = ((startingAt s kept' start).run channels.records).meter.compressor
      ∧ ((opening s kept clock).take (.backfill channels)).meter.summary.compressor
        = ((startingAt s kept' start).run channels.records).meter.summary.compressor := by
  have hstates : (Channels.runningStates channels.frequency).Pairwise fun a b => a.1 < b.1 :=
    List.pairwise_map.2 (Instant.strict_mergeSort hdistinct)
  have hsame : ((opening s kept clock).take (.backfill channels)).meter.compressor
      = ((startingAt s kept' start).run channels.records).meter.compressor := by
    rw [compressor_opening_backfill, compressor_run_records]
    refine (CompressorLog.watch_held (distinctInstants_strict _) hstates ?_ ?_).symm
    · intro x hx
      obtain ⟨y, hy, rfl⟩ := List.mem_map.1 hx
      exact Channels.mem_instants_of_frequency (List.mem_mergeSort.1 hy)
    · -- the frequency channel is never without a value
      intro t ht hnone
      obtain ⟨x, hx, hle⟩ := hfirst t ht
      have hmem : (x.1, isRunning (some x.2)) ∈ Channels.runningStates channels.frequency :=
        List.mem_map_of_mem (List.mem_mergeSort.2 hx)
      have hheld := Series.held?_isSome (hstates.imp le_of_lt) hmem hle
      rw [hnone] at hheld
      exact absurd hheld (by decide)
  exact ⟨hsame, by rw [Meter.summary_compressor, Meter.summary_compressor, hsame]⟩

/-- A compressor that runs twice, with other values before, between and after. -/
def pausingChannels : Channels Float where
  inlet := [(.ofFirstDay 0, 30), (.ofFirstDay 200, 31), (.ofFirstDay 700, 30)]
  frequency := [(.ofFirstDay 600, 50), (.ofFirstDay 0, 45), (.ofFirstDay 300, 0),
    (.ofFirstDay 150, 52), (.ofFirstDay 900, 0)]
  mode := [(.ofFirstDay 400, .heating), (.ofFirstDay 1000, .heating)]

/-- Either way it ran five minutes twice and rested as long in between. -/
theorem compressor_backfill_eq_live_of_pausingChannels :
    ((opening .standard none (.startingAt (.ofFirstDay 1000))).take
        (.backfill pausingChannels)).meter.compressor
      = ((startingAt .standard none (.ofFirstDay 0)).run
        pausingChannels.records).meter.compressor
    ∧ ((opening .standard none (.startingAt (.ofFirstDay 1000))).take
        (.backfill pausingChannels)).meter.compressor.averages
      = ⟨some 10, some 5, some 5⟩ := by
  have hinstants : pausingChannels.instants
      = [.ofFirstDay 0, .ofFirstDay 150, .ofFirstDay 200, .ofFirstDay 300, .ofFirstDay 400,
        .ofFirstDay 600, .ofFirstDay 700, .ofFirstDay 900, .ofFirstDay 1000] := by cbv
  have hfrequency : pausingChannels.frequency.inOrder
      = [(.ofFirstDay 0, 45), (.ofFirstDay 150, 52), (.ofFirstDay 300, 0),
        (.ofFirstDay 600, 50), (.ofFirstDay 900, 0)] := by cbv
  have hfirst : ∀ t ∈ pausingChannels.instants, ∃ x ∈ pausingChannels.frequency, x.1 ≤ t := by
    rw [hinstants]
    decide
  refine ⟨(compressor_backfill_eq_live .standard none none (.startingAt (.ofFirstDay 1000))
    (.ofFirstDay 0) (by decide) hfirst).1, ?_⟩
  rw [compressor_opening_backfill, Channels.runningStates, hfrequency]
  decide +kernel

end Replay

end HeatMeter
