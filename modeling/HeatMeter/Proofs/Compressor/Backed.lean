/-
  HeatMeter.Proofs.Compressor.Backed
  ──────────────────────────────────
  **WHICH DURATIONS THE TRANSITIONS OF A LOG STILL ACCOUNT FOR.**

  A log of capacity `n` keeps its last `2 n + 1` transitions beside its last `n` durations
  of each kind.  A duration is BACKED when it can be measured again from the transitions
  alone (`spans`), for which both its ends have to be among them.  Transitions alternate,
  so of `2 n` durations that begin one after another `n` begin on and `n` begin off, and

      the last `n` runs and the last `n` rests    lie within `2 n + 1` transitions
      the last `n` cycles                         lie within `2 n + 2` transitions

  (`rtake_durations_rtake` is all three).  Cycles may need the one transition that is not
  kept: the first of `2 n + 2` that end off is to on, and the oldest cycle begins with it.
  `backed_iff_not_outrun` says when that happens, and that nothing else is missing then.
-/
import HeatMeter.Proofs.Compressor
import HeatMeter.Proofs.Time.Instant
import Mathlib.Data.Bool.Count

namespace HeatMeter

namespace CompressorLog

variable {α : Type} [Scalar α]

/-! ## §1. Measuring from transitions alone. -/

/-- No transition repeats the state of the one before. -/
abbrev Alternating (cs : List (Instant × Bool)) : Prop :=
  cs.IsChain fun a b => a.2 ≠ b.2

theorem Alternating.second {c d : Instant × Bool} {rest : List (Instant × Bool)}
    (h : Alternating (c :: d :: rest)) : d.2 = !c.2 :=
  Bool.eq_not.2 (List.isChain_cons_cons.1 h).1.symm

/-- The minutes from each transition to `state` to the next one after it to `target`, where
there is one. -/
def spans (state target : Bool) : List (Instant × Bool) → List α
  | [] => []
  | c :: later =>
    let next? := if c.2 = state then later.find? fun d => d.2 == target else none
    (next?.map fun d => minutesBetween c.1 d.1).toList ++ spans state target later

theorem durations_cons (k : Nat) (state : Bool) (c : Instant × Bool)
    (later : List (Instant × Bool)) :
    (durations (k + 1) state (c :: later) : List α)
      = ((if c.2 = state then later[k]? else none).map fun d => minutesBetween c.1 d.1).toList
        ++ durations (k + 1) state later := by
  unfold durations
  rw [apart_cons, List.filter_append, List.map_append]
  congr 1
  by_cases hstate : c.2 = state
  · rw [if_pos hstate]
    cases later[k]? with
    | none => rfl
    | some d => simp [hstate]
  · rw [if_neg hstate]
    cases later[k]? with
    | none => rfl
    | some d => simp [hstate]

/-- Where the next transition to `target` stands so many places on, the spans measured are
the durations of that many places. -/
theorem spans_eq_durations {state target : Bool} {k : Nat}
    (hnext : ∀ c later, Alternating (c :: later) → c.2 = state →
      (later.find? fun d => d.2 == target) = later[k]?)
    {cs : List (Instant × Bool)} (halternating : Alternating cs) :
    (spans state target cs : List α) = durations (k + 1) state cs := by
  induction cs with
  | nil => rfl
  | cons c later ih =>
    have hlater : Alternating later := halternating.tail
    rw [spans, durations_cons, ih hlater]
    by_cases hstate : c.2 = state
    · rw [if_pos hstate, if_pos hstate, hnext c later halternating hstate]
    · rw [if_neg hstate, if_neg hstate]

/-- The next transition to the other state is the next one. -/
theorem find?_other {c : Instant × Bool} {later : List (Instant × Bool)}
    (h : Alternating (c :: later)) : (later.find? fun d => d.2 == !c.2) = later[0]? := by
  cases later with
  | nil => rfl
  | cons d rest =>
    have hother : d.2 = !c.2 := h.second
    rw [List.find?_cons_of_pos (by simp [hother])]
    rfl

/-- The next transition to the same state is the next but one. -/
theorem find?_same {c : Instant × Bool} {later : List (Instant × Bool)}
    (h : Alternating (c :: later)) : (later.find? fun d => d.2 == c.2) = later[1]? := by
  cases later with
  | nil => rfl
  | cons d rest =>
    have hother : d.2 = !c.2 := h.second
    have hrest := find?_other h.tail
    rw [hother, Bool.not_not] at hrest
    rw [List.find?_cons_of_neg (by simp [hother]), hrest]
    rfl

theorem spans_other {cs : List (Instant × Bool)} (h : Alternating cs) (state : Bool) :
    (spans state (!state) cs : List α) = durations 1 state cs := by
  refine spans_eq_durations ?_ h
  rintro c later hc rfl
  exact find?_other hc

theorem spans_same {cs : List (Instant × Bool)} (h : Alternating cs) (state : Bool) :
    (spans state state cs : List α) = durations 2 state cs := by
  refine spans_eq_durations ?_ h
  rintro c later hc rfl
  exact find?_same hc

/-! ## §2. How many durations a number of transitions has. -/

/-- There is one duration for each transition to the state that has another so many places
after it. -/
theorem length_durations (k : Nat) (state : Bool) (cs : List (Instant × Bool)) :
    (durations (k + 1) state cs : List α).length
      = ((cs.map Prod.snd).take (cs.length - (k + 1))).count state := by
  induction cs with
  | nil => simp [durations, apart]
  | cons c later ih =>
    rw [durations_cons, List.length_append, ih, List.map_cons, List.length_cons,
      Nat.add_sub_add_right]
    by_cases hk : k < later.length
    · rw [show later.length - k = later.length - (k + 1) + 1 by omega, List.take_succ_cons,
        List.count_cons, List.getElem?_eq_getElem hk]
      by_cases hstate : c.2 = state
      · simp [hstate, Nat.add_comm]
      · simp [hstate]
    · -- nothing stands so far behind the first transition
      rw [List.getElem?_eq_none (by omega), show later.length - k = 0 by omega,
        show later.length - (k + 1) = 0 by omega]
      simp

theorem alternating_states {cs : List (Instant × Bool)} (h : Alternating cs) (k : Nat) :
    ((cs.map Prod.snd).take k).IsChain (· ≠ ·) :=
  ((List.isChain_map Prod.snd).2 h).take k

/-- Of `2 n` durations that begin one after another, `n` begin in each state. -/
theorem le_length_durations {cs : List (Instant × Bool)} (h : Alternating cs) {n k : Nat}
    (hlength : 2 * n + (k + 1) ≤ cs.length) (state : Bool) :
    n ≤ (durations (k + 1) state cs : List α).length := by
  -- the transitions that begin a duration alternate, so at least half of them, rounded down,
  -- are to the state
  have hcount := (alternating_states h (cs.length - (k + 1))).length_div_two_le_count_bool state
  rw [List.length_take, List.length_map] at hcount
  rw [length_durations]
  omega

/-- Of exactly `2 n` durations no more than `n` begin in a state. -/
theorem length_durations_eq {cs : List (Instant × Bool)} (h : Alternating cs) {n k : Nat}
    (hlength : cs.length = 2 * n + (k + 1)) (state : Bool) :
    (durations (k + 1) state cs : List α).length = n := by
  have hstates : ((cs.map Prod.snd).take (cs.length - (k + 1))).length = 2 * n := by
    rw [List.length_take, List.length_map]
    omega
  have hcount := (alternating_states h (cs.length - (k + 1))).two_mul_count_bool_of_even
    (by rw [hstates]; exact even_two_mul n) state
  rw [hstates] at hcount
  rw [length_durations]
  omega

/-- The durations between the last transitions are the last durations. -/
theorem durations_suffix {s cs : List (Instant × Bool)} (h : s <:+ cs) (k : Nat)
    (state : Bool) :
    (durations (k + 1) state s : List α) <:+ durations (k + 1) state cs := by
  obtain ⟨front, rfl⟩ := h
  induction front with
  | nil => exact List.suffix_rfl
  | cons c front ih =>
    rw [List.cons_append, durations_cons]
    exact ih.trans (List.suffix_append _ _)

/-- **The last `n` durations of `k` places lie within the last `2 n + k` transitions.** -/
theorem rtake_durations_rtake {cs : List (Instant × Bool)} (h : Alternating cs) {n m k : Nat}
    (hm : 2 * n + (k + 1) ≤ m) (state : Bool) :
    ((durations (k + 1) state (cs.rtake m)).rtake n : List α)
      = (durations (k + 1) state cs).rtake n := by
  by_cases hwhole : cs.length ≤ m
  · -- no transition has been lost
    rw [rtake_of_length_le hwhole]
  · -- those left are at the end, and enough for `n` durations
    have hsuffix := rtake_suffix cs m
    have hlength : (cs.rtake m).length = m := by
      rw [length_rtake]
      omega
    refine rtake_of_suffix (durations_suffix hsuffix k state) ?_
    exact le_length_durations (h.suffix hsuffix) (by rw [hlength]; exact hm) state

/-! ## §3. The oldest cycle. -/

/-- The last of alternating states is the first one where their number is odd. -/
theorem getLast?_alternating {c : Instant × Bool} {later : List (Instant × Bool)}
    (h : Alternating (c :: later)) :
    (c :: later).getLast?.map Prod.snd = some (if later.length % 2 = 0 then c.2 else !c.2) := by
  induction later generalizing c with
  | nil => rfl
  | cons d rest ih =>
    have hother : d.2 = !c.2 := h.second
    rw [List.getLast?_cons_cons, ih h.tail, hother, Bool.not_not, List.length_cons]
    by_cases heven : rest.length % 2 = 0
    · rw [if_pos heven, if_neg (by omega)]
    · rw [if_neg heven, if_pos (by omega)]

section

variable {cs : List (Instant × Bool)} {n : Nat}

/-- The transition before the last `2 n + 1` is to the other state than the last one.
With it the last `n` cycles are all there are, and without it there are no more. -/
theorem rtake_cycles_eq_cons (h : Alternating cs) (hlength : 2 * n + 1 < cs.length) :
    ∃ c, cs.getLast?.map Prod.snd = some (!c.2)
      ∧ ((durations 2 true cs).rtake n : List α) = durations 2 true (c :: cs.rtake (2 * n + 1))
      ∧ ((durations 2 true (cs.rtake (2 * n + 1))).rtake n : List α)
        = durations 2 true (cs.rtake (2 * n + 1)) := by
  obtain ⟨c, hc⟩ := rtake_succ_of_lt hlength
  have halternating : Alternating (c :: cs.rtake (2 * n + 1)) := by
    rw [← hc]
    exact h.suffix (rtake_suffix cs _)
  have hlater : (cs.rtake (2 * n + 1)).length = 2 * n + 1 := by
    rw [length_rtake]
    omega
  -- of `2 n + 2` transitions `2 n` begin a pair two places apart, half of them to on
  have hcycles : (durations 2 true (c :: cs.rtake (2 * n + 1)) : List α).length = n :=
    length_durations_eq halternating (by rw [List.length_cons, hlater]) true
  have hfewer := (durations_suffix (α := α) (List.suffix_cons c (cs.rtake (2 * n + 1))) 1
    true).length_le
  refine ⟨c, ?_, ?_, rtake_of_length_le (hfewer.trans (Nat.le_of_eq hcycles))⟩
  · rw [← getLast?_rtake (Nat.succ_pos (2 * n + 1)) cs, hc, getLast?_alternating halternating,
      hlater, if_neg (by omega)]
  · rw [← rtake_durations_rtake h (Nat.le_refl (2 * n + 2)) true, hc,
      rtake_of_length_le (Nat.le_of_eq hcycles)]

/-- Where the last transition is to on, the last `2 n + 1` are enough for the cycles: the
one before them is to off and begins none. -/
theorem rtake_cycles_of_on (h : Alternating cs) (hlength : 2 * n + 1 < cs.length)
    (hon : cs.getLast?.map Prod.snd = some true) :
    ((durations 2 true cs).rtake n : List α)
      = (durations 2 true (cs.rtake (2 * n + 1))).rtake n := by
  obtain ⟨c, hlast, hcycles, hkept⟩ := rtake_cycles_eq_cons (α := α) h hlength
  have hoff : c.2 ≠ true := by
    rw [hlast] at hon
    simpa using hon
  rw [hcycles, hkept, durations_cons, if_neg hoff]
  rfl

/-- **Where the last transition is to off, the last `2 n + 1` do not have the oldest
cycle**, which begins with the one before them, and have all others. -/
theorem rtake_cycles_of_off (h : Alternating cs) (hn : 0 < n) (hlength : 2 * n + 1 < cs.length)
    (hoff : cs.getLast?.map Prod.snd = some false) :
    ∃ oldest : α, (durations 2 true cs).rtake n
      = oldest :: (durations 2 true (cs.rtake (2 * n + 1))).rtake n := by
  obtain ⟨c, hlast, hcycles, hkept⟩ := rtake_cycles_eq_cons (α := α) h hlength
  have hon : c.2 = true := by
    rw [hlast] at hoff
    simpa using hoff
  -- it ends with the second transition kept
  have hsecond : 1 < (cs.rtake (2 * n + 1)).length := by
    rw [length_rtake]
    omega
  refine ⟨minutesBetween c.1 (cs.rtake (2 * n + 1))[1].1, ?_⟩
  rw [hcycles, hkept, durations_cons, if_pos hon, List.getElem?_eq_getElem hsecond]
  rfl

end

/-! ## §4. Logs whose durations are backed. -/

/-- Each list of durations of a log of capacity `n` is what its transitions amount to. -/
structure Backed (n : Nat) (l : CompressorLog α) : Prop where
  /-- The runs are the last ones from on to the next off. -/
  runs : l.runs.toList = (spans true false l.transitions.toList).rtake n
  /-- The rests are the last ones from off to the next on. -/
  rests : l.rests.toList = (spans false true l.transitions.toList).rtake n
  /-- The cycles are the last ones from on to the next on. -/
  cycles : l.cycles.toList = (spans true true l.transitions.toList).rtake n

/-- There have been more changes than transitions are kept, and the last one was to off. -/
def Outrun (n : Nat) (observed : List (Instant × Bool)) : Prop :=
  2 * n + 1 < (changes observed).length ∧ observed.getLast?.map Prod.snd = some false

theorem kept_of_not_outrun {n : Nat} {observed : List (Instant × Bool)}
    (h : ¬ Outrun n observed) :
    (changes observed).length ≤ 2 * n + 1
      ∨ (changes observed).getLast?.map Prod.snd = some true := by
  by_cases hfew : (changes observed).length ≤ 2 * n + 1
  · exact .inl hfew
  · refine .inr ?_
    match hlast : (changes observed).getLast?.map Prod.snd with
    | some true => rfl
    | some false =>
      rw [getLast?_changes] at hlast
      exact absurd ⟨by omega, hlast⟩ h
    | none =>
      -- there have been changes, and so there is a last one
      rw [Option.map_eq_none_iff, List.getLast?_eq_none_iff] at hlast
      rw [hlast] at hfew
      exact absurd (Nat.zero_le _) hfew

section

variable {n : Nat} {l : CompressorLog α} {cs : List (Instant × Bool)}

/-- From its transitions a log is measured as from the last changes. -/
theorem Tracks.spans_other (h : Tracks n l cs) (state : Bool) :
    (spans state (!state) l.transitions.toList : List α)
      = durations 1 state (cs.rtake (2 * n + 1)) := by
  rw [h.transitions, Queue.lasts]
  exact CompressorLog.spans_other (h.alternating.suffix (rtake_suffix cs _)) state

theorem Tracks.spans_on (h : Tracks n l cs) :
    (spans true true l.transitions.toList : List α)
      = durations 2 true (cs.rtake (2 * n + 1)) := by
  rw [h.transitions, Queue.lasts]
  exact spans_same (h.alternating.suffix (rtake_suffix cs _)) true

/-- **Runs are backed in every log.** -/
theorem Tracks.runs_backed (h : Tracks n l cs) :
    l.runs.toList = (spans true false l.transitions.toList).rtake n := by
  rw [show false = !true from rfl, h.spans_other true, h.runs, Queue.lasts,
    rtake_durations_rtake h.alternating (Nat.le_refl _) true]

/-- **Rests are backed in every log.** -/
theorem Tracks.rests_backed (h : Tracks n l cs) :
    l.rests.toList = (spans false true l.transitions.toList).rtake n := by
  rw [show true = !false from rfl, h.spans_other false, h.rests, Queue.lasts,
    rtake_durations_rtake h.alternating (Nat.le_refl _) false]

theorem Tracks.cycles_backed (h : Tracks n l cs)
    (hkept : cs.length ≤ 2 * n + 1 ∨ cs.getLast?.map Prod.snd = some true) :
    l.cycles.toList = (spans true true l.transitions.toList).rtake n := by
  rw [h.spans_on, h.cycles, Queue.lasts]
  by_cases hfew : cs.length ≤ 2 * n + 1
  · rw [rtake_of_length_le hfew]
  · exact rtake_cycles_of_on h.alternating (by omega) (hkept.resolve_left hfew)

theorem Tracks.cycles_outrun (h : Tracks n l cs) (hn : 0 < n) (hlength : 2 * n + 1 < cs.length)
    (hoff : cs.getLast?.map Prod.snd = some false) :
    ∃ oldest, l.cycles.toList
      = oldest :: (spans true true l.transitions.toList).rtake n := by
  rw [h.spans_on, h.cycles, Queue.lasts]
  exact rtake_cycles_of_off h.alternating hn hlength hoff

end

/-- **The durations of a log are backed by its transitions exactly if these have not been
outrun**: after every run of observations.  A log that has been outrun still has its runs
and its rests backed, and of its cycles all but the oldest one. -/
theorem backed_iff_not_outrun {n : Nat} (hn : 0 < n) (observed : List (Instant × Bool)) :
    let l : CompressorLog α := (ofCapacity n).watch observed
    (Backed n l ↔ ¬ Outrun n observed)
      ∧ (Outrun n observed →
        l.runs.toList = (spans true false l.transitions.toList).rtake n
        ∧ l.rests.toList = (spans false true l.transitions.toList).rtake n
        ∧ ∃ oldest, l.cycles.toList
            = oldest :: (spans true true l.transitions.toList).rtake n) := by
  intro l
  have h : Tracks n l (changes observed) := tracks_watch n observed
  have houtrun : Outrun n observed → ∃ oldest, l.cycles.toList
      = oldest :: (spans true true l.transitions.toList).rtake n := by
    rintro ⟨hlength, hoff⟩
    exact h.cycles_outrun hn hlength ((getLast?_changes observed).trans hoff)
  refine ⟨⟨?_, ?_⟩, fun hout => ⟨h.runs_backed, h.rests_backed, houtrun hout⟩⟩
  · intro hbacked hout
    obtain ⟨oldest, hcycles⟩ := houtrun hout
    rw [hbacked.cycles] at hcycles
    exact List.cons_ne_self _ _ hcycles.symm
  · intro hout
    exact ⟨h.runs_backed, h.rests_backed, h.cycles_backed (kept_of_not_outrun hout)⟩

/-- A compressor that runs ten minutes, rests five, runs five, rests ten, and is on again. -/
def fiveSwitches : List (Instant × Bool) :=
  [(.ofFirstDay 0, true), (.ofFirstDay 600, false), (.ofFirstDay 900, true),
    (.ofFirstDay 1200, false), (.ofFirstDay 1800, true)]

/-- Two transitions have been lost, but the compressor is on, and the last cycle is backed. -/
theorem backed_of_fiveSwitches :
    0 < 1 ∧ ¬ Outrun 1 fiveSwitches
      ∧ Backed 1 ((ofCapacity 1 : CompressorLog Float).watch fiveSwitches)
      ∧ ((ofCapacity 1 : CompressorLog Float).watch fiveSwitches).cycles.toList = [15] := by
  have hkept : ¬ Outrun 1 fiveSwitches := by
    unfold Outrun
    decide
  exact ⟨Nat.one_pos, hkept,
    (backed_iff_not_outrun (α := Float) Nat.one_pos fiveSwitches).1.2 hkept, by decide +kernel⟩

/-- One switch earlier the compressor is off: the log has a cycle of a quarter of an hour,
and its transitions, one to off, one to on and one to off, have none. -/
theorem not_backed_of_fourSwitches :
    ¬ Backed 1 ((ofCapacity 1 : CompressorLog Float).watch (fiveSwitches.take 4)) := by
  intro h
  have hcycles : ((ofCapacity 1 : CompressorLog Float).watch (fiveSwitches.take 4)).cycles.toList
      = [15] := by decide +kernel
  have hnone : spans true true
      ((ofCapacity 1 : CompressorLog Float).watch (fiveSwitches.take 4)).transitions.toList
      = ([] : List Float) := by decide +kernel
  have hbacked := h.cycles
  rw [hcycles, hnone] at hbacked
  exact absurd hbacked (by decide)

end CompressorLog

end HeatMeter
