/-
  HeatMeter.Proofs.Defrost.Recovery
  ─────────────────────────────────
  **WHICH READING ENDS THE RECOVERY FROM A DEFROST.**

  A watch that is not normal was tripped by a defrosting reading and remembers the
  side of its difference.  Of the readings since that trip

      e      the first one after the last defrosting one begins the recovery
      n      a later one ends it, if none in between is defrosting and if the
             recovery has lasted long enough from `e` to `n`, or the required number
             of readings up to `n`, all after `e`, have settled on the side

  `Entered` finds `e` and `Recovers` is the condition on `n`.  `Tracks` says what the
  watch holds until then, in terms of the readings alone; `Tracks.recovers_or_tracks`
  is one reading.
-/
import HeatMeter.Defrost
import HeatMeter.Proofs.Clock
import HeatMeter.Proofs.Queue

namespace HeatMeter

/-! ## §1. The end of a list that passes a test. -/

theorem le_length_rtakeWhile_iff {β : Type} (p : β → Bool) (l : List β) (n : Nat) :
    n ≤ (l.rtakeWhile p).length ↔ n ≤ l.length ∧ ∀ x ∈ l.rtake n, p x = true := by
  induction l using List.reverseRecOn generalizing n with
  | nil => simp
  | append_singleton l x ih =>
    cases n with
    | zero => simp
    | succ n =>
      rw [List.rtakeWhile_concat, List.rtake_concat_succ, List.forall_mem_append,
        List.forall_mem_singleton, List.length_append, List.length_singleton]
      by_cases hx : p x = true
      · rw [if_pos hx, List.length_append, List.length_singleton, Nat.add_le_add_iff_right, ih,
          Nat.add_le_add_iff_right]
        simp [hx]
      · rw [if_neg hx]
        simp [hx]

/-- What a watch is given at one reading. -/
structure WatchInput (α : Type) where
  /-- Whether the unit says that it is defrosting. -/
  defrosting : Bool
  /-- The temperature difference, where it is known. -/
  deltaT : Option α
  /-- Monotonic time of the reading. -/
  now : Duration
  deriving DecidableEq, Repr

/-- Whether a reading is not defrosting. -/
def WatchInput.quiet {α : Type} (i : WatchInput α) : Bool :=
  !i.defrosting

namespace DefrostWatch

variable {α : Type}

/-! ## §2. Where a recovery begins. -/

/-- Of the readings since a trip, `e` is the first one after the last defrosting one, that
of the trip where none of them is, and `later` are those after `e`. -/
structure Entered (since past : List (WatchInput α)) (e : WatchInput α)
    (later : List (WatchInput α)) : Prop where
  /-- The readings before `e`, `e` itself and those after it. -/
  split : since = past ++ e :: later
  /-- The reading before `e` is defrosting. -/
  defrosted : ∀ i ∈ past.getLast?, i.defrosting = true
  /-- From `e` on none is. -/
  quiet : ∀ i ∈ e :: later, i.defrosting = false

section

variable {since past later : List (WatchInput α)} {e i : WatchInput α}

/-- The readings from `e` on are those at the end that are not defrosting. -/
theorem Entered.rtakeWhile_eq (h : Entered since past e later) :
    since.rtakeWhile WatchInput.quiet = e :: later := by
  obtain ⟨rfl, hpast, hquiet⟩ := h
  induction later using List.reverseRecOn with
  | nil =>
    have he : e.quiet = true := by simp [WatchInput.quiet, hquiet e]
    rw [List.rtakeWhile_concat_pos _ _ _ he]
    have hnone : past.rtakeWhile WatchInput.quiet = [] := by
      rw [List.rtakeWhile_eq_nil_iff]
      intro hne
      simp [WatchInput.quiet, hpast _ (List.getLast?_eq_some_getLast hne)]
    rw [hnone, List.nil_append]
  | append_singleton later n ih =>
    have hn : n.quiet = true := by simp [WatchInput.quiet, hquiet n]
    rw [← List.cons_append, ← List.append_assoc, List.rtakeWhile_concat_pos _ _ _ hn,
      ih fun i hi => hquiet i (by rw [← List.cons_append]; exact List.mem_append_left _ hi)]

theorem Entered.concat (h : Entered since past e later) (hi : i.defrosting = false) :
    Entered (since ++ [i]) past e (later ++ [i]) := by
  refine ⟨?_, h.defrosted, ?_⟩
  · rw [h.split, List.append_assoc, List.cons_append]
  · rw [← List.cons_append, List.forall_mem_append, List.forall_mem_singleton]
    exact ⟨h.quiet, hi⟩

/-- The first reading that is no longer defrosting begins the recovery. -/
theorem entered_concat (hlast : ∀ j ∈ since.getLast?, j.defrosting = true)
    (hi : i.defrosting = false) : Entered (since ++ [i]) since i [] := by
  refine ⟨rfl, hlast, ?_⟩
  rw [List.forall_mem_singleton]
  exact hi

end

/-! ## §3. Which readings end a recovery. -/

theorem recoveryTimeout_le_iff (s : DefrostSettings α) {start now : Duration} (hle : start ≤ now) :
    s.recoveryTimeout ≤ now.saturatingSub start
      ↔ start.nanos + s.recoveryTimeout.nanos ≤ now.nanos := by
  rw [Duration.le_def] at hle ⊢
  show s.recoveryTimeout.nanos ≤ now.nanos - start.nanos ↔ _
  omega

variable [Scalar α]

/-- Whether the difference of a reading is known and beyond the threshold on a known
side. -/
def settles (s : DefrostSettings α) (side : Option Bool) (i : WatchInput α) : Bool :=
  match side, i.deltaT with
  | some true, some dt => decide (s.deltaTThreshold < dt)
  | some false, some dt => decide (dt < -s.deltaTThreshold)
  | _, _ => false

/-- The last reading since a trip to a side ends the recovery: the time from `e` to it is
the longest recovery, or the required number of readings up to it, all after `e`, settle on
the side. -/
def Recovers (s : DefrostSettings α) (side : Option Bool) (since : List (WatchInput α)) : Prop :=
  ∃ past e later n, Entered since past e (later ++ [n])
    ∧ (e.now.nanos + s.recoveryTimeout.nanos ≤ n.now.nanos
      ∨ (s.stableReadingsRequired ≤ (later ++ [n]).length
        ∧ ∀ i ∈ (later ++ [n]).rtake s.stableReadingsRequired, settles s side i = true))

section

variable {s : DefrostSettings α} {sd : Option Bool} {since past later : List (WatchInput α)}
  {e i : WatchInput α}

theorem not_recovers_nil : ¬ Recovers s sd [] := by
  rintro ⟨past, e, later, n, hentered, -⟩
  have hsplit := hentered.split
  simp at hsplit

theorem not_recovers_concat_of_defrosting (hi : i.defrosting = true) :
    ¬ Recovers s sd (since ++ [i]) := by
  rintro ⟨past, e, later, n, hentered, -⟩
  have hsplit := hentered.split
  rw [← List.cons_append, ← List.append_assoc] at hsplit
  have hlast : i = n := by simpa using (List.append_inj' hsplit rfl).2
  have hquiet := hentered.quiet n (by simp)
  rw [← hlast, hi] at hquiet
  exact absurd hquiet (by decide)

/-- The reading that begins a recovery does not end it. -/
theorem not_recovers_concat_of_last (hlast : ∀ j ∈ since.getLast?, j.defrosting = true)
    (hi : i.defrosting = false) : ¬ Recovers s sd (since ++ [i]) := by
  rintro ⟨past, e, later, n, hentered, -⟩
  have hone := (entered_concat hlast hi).rtakeWhile_eq
  rw [hentered.rtakeWhile_eq] at hone
  simp at hone

/-- **A later reading ends a recovery by its time or by the count of settled readings.** -/
theorem Entered.recovers_concat_iff (h : Entered since past e later) (hi : i.defrosting = false) :
    Recovers s sd (since ++ [i])
      ↔ e.now.nanos + s.recoveryTimeout.nanos ≤ i.now.nanos
        ∨ s.stableReadingsRequired ≤ ((later ++ [i]).rtakeWhile (settles s sd)).length := by
  rw [le_length_rtakeWhile_iff]
  constructor
  · rintro ⟨past', e', later', n, hentered, hends⟩
    -- there is one way only to find `e`
    have hsame := (h.concat hi).rtakeWhile_eq
    rw [hentered.rtakeWhile_eq, List.cons.injEq] at hsame
    obtain ⟨rfl, hlater⟩ := hsame
    have hn : n = i := by simpa using (List.append_inj' hlater rfl).2
    rw [hlater, hn] at hends
    exact hends
  · intro hends
    exact ⟨past, e, later, i, h.concat hi, hends⟩

end

/-! ## §4. What a watch holds while it is away. -/

/-- A watch after one reading. -/
def take (s : DefrostSettings α) (w : DefrostWatch) (i : WatchInput α) : DefrostWatch :=
  w.observe s i.defrosting i.deltaT i.now

/-- A watch that is not normal holds the phase, the beginning and the count that the
readings since its trip amount to. -/
inductive Tracks (s : DefrostSettings α) (sd : Option Bool) :
    List (WatchInput α) → DefrostWatch → Prop
  /-- The last reading is defrosting. -/
  | defrost {since : List (WatchInput α)} (start : Option Duration)
      (hlast : ∀ i ∈ since.getLast?, i.defrosting = true) :
      Tracks s sd since ⟨.defrost, sd, 0, start⟩
  /-- The recovery has begun at `e` and is not over. -/
  | recovery {since past later : List (WatchInput α)} {e : WatchInput α}
      (hentered : Entered since past e later)
      (hfew : (later.rtakeWhile (settles s sd)).length < s.stableReadingsRequired) :
      Tracks s sd since
        ⟨.recovery, sd, (later.rtakeWhile (settles s sd)).length, some e.now⟩

theorem Tracks.phase_ne_normal {s : DefrostSettings α} {sd : Option Bool}
    {since : List (WatchInput α)} {w : DefrostWatch} (h : Tracks s sd since w) :
    w.phase ≠ .normal := by
  cases h with
  | defrost start hlast => exact DefrostPhase.noConfusion
  | recovery hentered hfew => exact DefrostPhase.noConfusion

theorem Tracks.positiveBefore {s : DefrostSettings α} {sd : Option Bool}
    {since : List (WatchInput α)} {w : DefrostWatch} (h : Tracks s sd since w) :
    w.positiveBefore = sd := by
  cases h with
  | defrost start hlast => rfl
  | recovery hentered hfew => rfl

/-- A watch in recovery counts what has settled since the recovery began. -/
theorem Tracks.of_recovery {s : DefrostSettings α} {sd : Option Bool}
    {since : List (WatchInput α)} {w : DefrostWatch} (h : Tracks s sd since w)
    (hphase : w.phase = .recovery) :
    ∃ past e later, Entered since past e later
      ∧ w.stableReadings = (later.rtakeWhile (settles s sd)).length
      ∧ w.stableReadings < s.stableReadingsRequired := by
  cases h with
  | defrost start hlast => exact absurd hphase DefrostPhase.noConfusion
  | @recovery past later e hentered hfew => exact ⟨past, e, later, hentered, rfl, hfew⟩

/-- Where a recovery has begun the watch is in recovery. -/
theorem Tracks.phase_of_entered {s : DefrostSettings α} {sd : Option Bool}
    {since past later : List (WatchInput α)} {e : WatchInput α} {w : DefrostWatch}
    (h : Tracks s sd since w) (hentered : Entered since past e later) :
    w.phase = .recovery := by
  cases h with
  | defrost start hlast =>
    -- the last reading is from `e` on, and so not defrosting
    have hmem : (e :: later).getLast (List.cons_ne_nil e later) ∈ since.getLast? := by
      rw [hentered.split, List.getLast?_append_of_ne_nil _ (List.cons_ne_nil e later)]
      exact List.getLast?_eq_some_getLast _
    have hquiet := hentered.quiet _ (List.getLast_mem (List.cons_ne_nil e later))
    rw [hlast _ hmem] at hquiet
    exact absurd hquiet (by decide)
  | recovery hbegun hfew => rfl

/-- **All that a reading does in recovery**, if it is not defrosting. -/
theorem take_recovery {s : DefrostSettings α} {i : WatchInput α} (hi : i.defrosting = false)
    (sd : Option Bool) (count : Nat) (start : Duration) :
    take s ⟨.recovery, sd, count, some start⟩ i =
      if s.recoveryTimeout ≤ i.now.saturatingSub start then ⟨.normal, sd, 0, some start⟩
      else if settles s sd i = true then
        if s.stableReadingsRequired ≤ count + 1 then ⟨.normal, sd, 0, some start⟩
        else ⟨.recovery, sd, count + 1, some start⟩
      else ⟨.recovery, sd, 0, some start⟩ := by
  unfold take observe recover
  rw [hi]
  dsimp only
  rw [if_neg (by decide), Option.getD_some]
  by_cases htime : s.recoveryTimeout ≤ i.now.saturatingSub start
  · rw [if_pos htime, if_pos htime]
  · rw [if_neg htime, if_neg htime]
    unfold settles settled
    cases i.deltaT with
    | none =>
      cases sd with
      | none => rfl
      | some positive => cases positive <;> rfl
    | some dt =>
      cases sd with
      | none => rfl
      | some positive => cases positive <;> rfl

section

variable {s : DefrostSettings α} {sd : Option Bool} {since past later : List (WatchInput α)}
  {e i : WatchInput α} {w : DefrostWatch}

/-- A defrosting reading keeps the watch away, or takes it back. -/
theorem Tracks.take_of_defrosting (h : Tracks s sd since w) (hi : i.defrosting = true) :
    Tracks s sd (since ++ [i]) (take s w i) := by
  have hlast : ∀ j ∈ (since ++ [i]).getLast?, j.defrosting = true := by
    intro j hj
    rw [List.getLast?_concat, Option.mem_some_iff] at hj
    rw [← hj]
    exact hi
  cases h with
  | defrost start hbefore =>
    have htake : take s ⟨.defrost, sd, 0, start⟩ i = ⟨.defrost, sd, 0, start⟩ := by
      unfold take observe
      rw [hi]
      rfl
    rw [htake]
    exact .defrost start hlast
  | @recovery past later e hentered hfew =>
    have htake : take s
        ⟨.recovery, sd, (later.rtakeWhile (settles s sd)).length, some e.now⟩ i
        = ⟨.defrost, sd, 0, some e.now⟩ := by
      unfold take observe recover
      rw [hi]
      rfl
    rw [htake]
    exact .defrost (some e.now) hlast

theorem tracks_take_of_last (hr : 1 ≤ s.stableReadingsRequired)
    (hlast : ∀ j ∈ since.getLast?, j.defrosting = true) (hi : i.defrosting = false)
    (start : Option Duration) :
    Tracks s sd (since ++ [i]) (take s ⟨.defrost, sd, 0, start⟩ i) := by
  have htake : take s ⟨.defrost, sd, 0, start⟩ i = ⟨.recovery, sd, 0, some i.now⟩ := by
    unfold take observe
    rw [hi]
    rfl
  rw [htake]
  exact .recovery (entered_concat hlast hi) hr

/-- A reading in recovery ends it by its time, ends it as the last one that is required,
counts as one more, or begins the count anew. -/
theorem Entered.recovers_or_tracks (hentered : Entered since past e later)
    (hfew : (later.rtakeWhile (settles s sd)).length < s.stableReadingsRequired)
    (hi : i.defrosting = false) (hstart : e.now ≤ i.now)
    (hw : w = ⟨.recovery, sd, (later.rtakeWhile (settles s sd)).length, some e.now⟩) :
    (Recovers s sd (since ++ [i]) ∧ (take s w i).phase = .normal)
      ∨ (¬ Recovers s sd (since ++ [i]) ∧ Tracks s sd (since ++ [i]) (take s w i)) := by
  rw [hentered.recovers_concat_iff hi, hw, take_recovery hi]
  by_cases htime : s.recoveryTimeout ≤ i.now.saturatingSub e.now
  · rw [if_pos htime]
    exact .inl ⟨.inl ((recoveryTimeout_le_iff s hstart).1 htime), rfl⟩
  · have hearly : ¬ e.now.nanos + s.recoveryTimeout.nanos ≤ i.now.nanos := by
      rw [← recoveryTimeout_le_iff s hstart]
      exact htime
    rw [if_neg htime, or_iff_right hearly]
    have hconcat := hentered.concat hi
    by_cases hsettles : settles s sd i = true
    · -- one settled reading more
      have hcount : ((later ++ [i]).rtakeWhile (settles s sd)).length
          = (later.rtakeWhile (settles s sd)).length + 1 := by
        rw [List.rtakeWhile_concat_pos _ _ _ hsettles, List.length_append,
          List.length_singleton]
      rw [if_pos hsettles, ← hcount]
      by_cases henough :
          s.stableReadingsRequired ≤ ((later ++ [i]).rtakeWhile (settles s sd)).length
      · rw [if_pos henough]
        exact .inl ⟨henough, rfl⟩
      · rw [if_neg henough]
        exact .inr ⟨henough, .recovery hconcat (by omega)⟩
    · -- the count begins anew
      have hcount : ((later ++ [i]).rtakeWhile (settles s sd)).length = 0 := by
        rw [List.rtakeWhile_concat_neg _ _ _ hsettles]
        rfl
      rw [if_neg hsettles, ← hcount]
      exact .inr ⟨by omega, .recovery hconcat (by omega)⟩

/-- **One reading**: either it ends the recovery and the watch is normal, or it does not and
the watch holds what the readings amount to with it. -/
theorem Tracks.recovers_or_tracks (hr : 1 ≤ s.stableReadingsRequired) (h : Tracks s sd since w)
    (hle : ∀ j ∈ since, j.now ≤ i.now) :
    (Recovers s sd (since ++ [i]) ∧ (take s w i).phase = .normal)
      ∨ (¬ Recovers s sd (since ++ [i])
        ∧ Tracks s sd (since ++ [i]) (take s w i)) := by
  cases hi : i.defrosting with
  | true => exact .inr ⟨not_recovers_concat_of_defrosting hi, h.take_of_defrosting hi⟩
  | false =>
    cases h with
    | defrost start hlast =>
      exact .inr ⟨not_recovers_concat_of_last hlast hi, tracks_take_of_last hr hlast hi start⟩
    | @recovery past later e hentered hfew =>
      have hstart : e.now ≤ i.now := by
        apply hle
        rw [hentered.split]
        simp
      exact hentered.recovers_or_tracks hfew hi hstart rfl

end

end DefrostWatch

end HeatMeter
