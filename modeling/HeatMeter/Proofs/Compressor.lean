/-
  HeatMeter.Proofs.Compressor
  ───────────────────────────
  **A BOUNDED LOG KEEPS THE LAST DURATIONS OF A LOG THAT FORGETS NOTHING.**

  The CHANGES among observations are the first one and each that differs in state
  from the one before.  A run, a rest or a cycle is measured between two of them:

      run      from a change to on to the next change
      rest     from a change to off to the next change
      cycle    from a change to on to the next but one

  in minutes, each the whole milliseconds over 60000; an average is the sum over the number.

  The log decides by its own transitions, its last one and the time it was last on,
  and all its lists are cut at their capacity.  `Tracks` says what the log holds in
  terms of all changes so far; one observation keeps it, and so does a run.
-/
import HeatMeter.Compressor
import HeatMeter.Proofs.Queue
import HeatMeter.Proofs.Time.Instant
import Mathlib.Data.List.Chain

namespace HeatMeter

/-! ## §1. Entries some places apart. -/

section

variable {β : Type}

/-- The pairs of entries of a list that are `k` places apart, in order. -/
def apart (k : Nat) (l : List β) : List (β × β) :=
  l.zip (l.drop k)

theorem apart_cons (k : Nat) (a : β) (l : List β) :
    apart (k + 1) (a :: l) = l[k]?.toList.map (fun b => (a, b)) ++ apart (k + 1) l := by
  unfold apart
  rw [List.drop_succ_cons]
  by_cases hk : k < l.length
  · rw [List.drop_eq_getElem_cons hk, List.zip_cons_cons, List.getElem?_eq_getElem hk]
    rfl
  · -- nothing stands so far behind the first entry
    have hnone : l[k]? = none := List.getElem?_eq_none (by omega)
    have hlate : l.drop k = [] := List.drop_eq_nil_of_le (by omega)
    have hlater : l.drop (k + 1) = [] := List.drop_eq_nil_of_le (by omega)
    rw [hnone, hlate, hlater, List.zip_nil_right, List.zip_nil_right]
    rfl

/-- **A new last entry makes a pair** with the entry so many places before it. -/
theorem apart_concat (k : Nat) (l : List β) (x : β) :
    apart (k + 1) (l ++ [x])
      = apart (k + 1) l ++ l.reverse[k]?.toList.map (fun a => (a, x)) := by
  induction l with
  | nil =>
    rw [List.nil_append, apart_cons]
    rfl
  | cons a l ih =>
    rw [List.cons_append, apart_cons, ih, apart_cons, List.append_assoc, List.reverse_cons]
    -- the head makes its pair within the list, with the new entry, or none at all
    by_cases hk : k < l.length
    · rw [List.getElem?_append_left hk,
        List.getElem?_append_left (by rw [List.length_reverse]; exact hk)]
    · have hnone : l[k]? = none := List.getElem?_eq_none (by omega)
      have hreverse : l.reverse[k]? = none :=
        List.getElem?_eq_none (by rw [List.length_reverse]; omega)
      have hempty : apart (k + 1) l = [] := by
        unfold apart
        rw [List.drop_eq_nil_of_le (by omega), List.zip_nil_right]
      rw [List.getElem?_append_right (by omega),
        List.getElem?_append_right (by rw [List.length_reverse]; omega),
        List.length_reverse, hnone, hreverse, hempty]
      cases hlast : k - l.length with
      | zero => rfl
      | succ n => rfl

end

namespace CompressorLog

/-! ## §2. Changes and the durations between them. -/

/-- The first observation, and each one whose state differs from the one before. -/
def changes (observed : List (Instant × Bool)) : List (Instant × Bool) :=
  observed.take 1
    ++ ((apart 1 observed).filter fun (before, now) => before.2 != now.2).map Prod.snd

theorem reverse_getElem?_zero {β : Type} (l : List β) : l.reverse[0]? = l.getLast? := by
  rw [← List.head?_eq_getElem?, List.head?_reverse]

/-- A later observation is a change where it does not repeat the state before it. -/
theorem changes_concat {observed : List (Instant × Bool)} {a : Instant × Bool}
    (hlast : observed.getLast? = some a) (x : Instant × Bool) :
    changes (observed ++ [x]) = changes observed ++ if a.2 = x.2 then [] else [x] := by
  have hfirst : (observed ++ [x]).take 1 = observed.take 1 := by
    cases observed with
    | nil => simp at hlast
    | cons b rest => rfl
  unfold changes
  rw [apart_concat, reverse_getElem?_zero, hlast, hfirst]
  by_cases hsame : a.2 = x.2
  · simp [hsame]
  · simp [hsame]

theorem getLast?_changes (observed : List (Instant × Bool)) :
    (changes observed).getLast?.map Prod.snd = observed.getLast?.map Prod.snd := by
  induction observed using List.reverseRecOn with
  | nil => rfl
  | append_singleton observed x ih =>
    cases hlast : observed.getLast? with
    | none =>
      rw [List.getLast?_eq_none_iff] at hlast
      subst hlast
      rfl
    | some a =>
      rw [changes_concat hlast]
      by_cases hsame : a.2 = x.2
      · rw [if_pos hsame, List.append_nil, ih, hlast, List.getLast?_concat, Option.map_some,
          Option.map_some, hsame]
      · rw [if_neg hsame, List.getLast?_concat, List.getLast?_concat]

variable {α : Type} [Scalar α]

/-- The minutes from one instant to another: the whole milliseconds, 60000 to a minute. -/
def minutesBetween (earlier later : Instant) : α :=
  Scalar.ofInt ((later.since earlier).tdiv 1000000) / Scalar.ofInt 60000

/-- The log measures a span so. -/
theorem minutesOfSpan_since (earlier later : Instant) :
    (minutesOfSpan (later.since earlier) : α) = minutesBetween earlier later :=
  rfl

/-- The sum of durations, in order, over their number; none where there are none. -/
def average? (ds : List α) : Option α :=
  match ds with
  | [] => none
  | _ :: _ => some (ds.foldl (· + ·) 0 / Scalar.ofInt ds.length)

/-- The log averages its durations so. -/
theorem mean?_eq_average? (ds : List α) : Scalar.mean? ds = average? ds := by
  cases ds <;> rfl

/-- The minutes from each change to `state` to the change `k` places after it. -/
def durations (k : Nat) (state : Bool) (cs : List (Instant × Bool)) : List α :=
  ((apart k cs).filter fun (c, _) => c.2 == state).map fun (c, d) => minutesBetween c.1 d.1

/-- The minutes to a change from the one so many places before it, if that one was to
`state`. -/
def ended (k : Nat) (state : Bool) (cs : List (Instant × Bool)) (t : Instant) : List α :=
  (cs.reverse[k]?.toList.filter fun c => c.2 == state).map fun c => minutesBetween c.1 t

theorem durations_concat (k : Nat) (state : Bool) (cs : List (Instant × Bool))
    (x : Instant × Bool) :
    (durations (k + 1) state (cs ++ [x]) : List α)
      = durations (k + 1) state cs ++ ended k state cs x.1 := by
  unfold durations ended
  rw [apart_concat, List.filter_append, List.map_append, List.filter_map, List.map_map]
  rfl

/-- A new change ends a run or a rest, according to the state before it. -/
theorem durations_one_concat {cs : List (Instant × Bool)} {a : Instant × Bool}
    (hlast : cs.getLast? = some a) (state : Bool) (x : Instant × Bool) :
    (durations 1 state (cs ++ [x]) : List α)
      = durations 1 state cs ++ if a.2 = state then [minutesBetween a.1 x.1] else [] := by
  rw [durations_concat, ended, reverse_getElem?_zero, hlast]
  by_cases hstate : a.2 = state
  · simp [hstate]
  · simp [hstate]

theorem find?_on_concat (cs : List (Instant × Bool)) (t : Instant) (running : Bool) :
    ((cs ++ [(t, running)]).reverse.find? Prod.snd).map Prod.fst
      = if running then some t else (cs.reverse.find? Prod.snd).map Prod.fst := by
  rw [List.reverse_concat]
  cases running <;> rfl

theorem alternating_concat {cs : List (Instant × Bool)} {a x : Instant × Bool}
    (h : cs.IsChain fun a b => a.2 ≠ b.2) (hlast : cs.getLast? = some a) (hchange : a.2 ≠ x.2) :
    (cs ++ [x]).IsChain fun a b => a.2 ≠ b.2 := by
  rw [List.isChain_append]
  refine ⟨h, List.isChain_singleton _, ?_⟩
  intro b hb y hy
  rw [hlast, Option.mem_some_iff] at hb
  rw [List.head?_cons, Option.mem_some_iff] at hy
  rw [← hb, ← hy]
  exact hchange

/-! ## §3. What a log holds of the changes. -/

/-- The log of capacity `n` holds the last of all there is to hold after the changes `cs`. -/
structure Tracks (n : Nat) (l : CompressorLog α) (cs : List (Instant × Bool)) : Prop where
  /-- The transitions are the last changes. -/
  transitions : l.transitions = .lasts (2 * n + 1) cs
  /-- The cycles go from on to the next on. -/
  cycles : l.cycles = .lasts n (durations 2 true cs)
  /-- The runs go from on to off. -/
  runs : l.runs = .lasts n (durations 1 true cs)
  /-- The rests go from off to on. -/
  rests : l.rests = .lasts n (durations 1 false cs)
  /-- The last transition is the last change. -/
  last : l.last = cs.getLast?
  /-- The compressor was last on at the last change to on. -/
  lastOn : l.lastOn = (cs.reverse.find? Prod.snd).map Prod.fst
  /-- No change repeats the state of the one before. -/
  alternating : cs.IsChain fun a b => a.2 ≠ b.2

theorem tracks_ofCapacity (n : Nat) : Tracks n (ofCapacity n : CompressorLog α) [] where
  transitions := Queue.bounded_eq_lasts _
  cycles := Queue.bounded_eq_lasts _
  runs := Queue.bounded_eq_lasts _
  rests := Queue.bounded_eq_lasts _
  last := rfl
  lastOn := rfl
  alternating := .nil

/-! ## §4. One observation. -/

theorem endCycle_eq (l : CompressorLog α) (t : Instant) :
    l.endCycle t = { l with cycles := (l.endCycle t).cycles } := by
  unfold endCycle
  split
  next => split <;> rfl
  next => rfl

theorem observe_of_none {l : CompressorLog α} (hlast : l.last = none) (running : Bool)
    (t : Instant) : l.observe running t = l.enter running t := by
  unfold observe
  rw [hlast]

/-- **All that an observation of another state changes.** -/
theorem observe_of_change {l : CompressorLog α} {a : Instant × Bool} {running : Bool}
    (hlast : l.last = some a) (hchange : a.2 ≠ running) (t : Instant) :
    l.observe running t =
      { transitions := l.transitions.push (t, running)
        cycles := if running then (l.endCycle t).cycles else l.cycles
        runs := if running then l.runs else l.runs.push (minutesBetween a.1 t)
        rests := if running then l.rests.push (minutesBetween a.1 t) else l.rests
        last := some (t, running)
        lastOn := if running then some t else l.lastOn } := by
  unfold observe
  rw [hlast]
  dsimp only
  rw [if_neg hchange, minutesOfSpan_since]
  cases running with
  | false => rfl
  | true =>
    rw [if_pos rfl, endCycle_eq]
    rfl

theorem observe_of_repeat {l : CompressorLog α} {a : Instant × Bool} {running : Bool}
    (hlast : l.last = some a) (hsame : a.2 = running) (t : Instant) :
    l.observe running t = l := by
  unfold observe
  rw [hlast]
  dsimp only
  rw [if_pos hsame]

section

variable {n : Nat} {l : CompressorLog α} {cs : List (Instant × Bool)}

/-- Before the last change there is one to the other state, or none. -/
theorem Tracks.reverse_eq (h : Tracks n l cs) {a : Instant × Bool}
    (hlast : cs.getLast? = some a) :
    ∃ older, cs.reverse = a :: older ∧ ∀ b ∈ older.head?, b.2 = !a.2 := by
  rw [← List.head?_reverse, List.head?_eq_some_iff] at hlast
  obtain ⟨older, hreverse⟩ := hlast
  refine ⟨older, hreverse, ?_⟩
  intro b hb
  obtain ⟨oldest, rfl⟩ := List.head?_eq_some_iff.1 hb
  have halternating : cs.reverse.IsChain fun a b => b.2 ≠ a.2 :=
    List.isChain_reverse.2 h.alternating
  rw [hreverse, List.isChain_cons_cons] at halternating
  exact Bool.eq_not.2 halternating.1

/-- **A change to on ends the cycle that began two changes before**, and so the log has
it: the compressor was last on then, and two transitions are at hand. -/
theorem Tracks.cycles_endCycle (h : Tracks n l cs) {a : Instant × Bool}
    (hlast : cs.getLast? = some a) (hoff : a.2 = false) (t : Instant) :
    (l.endCycle t).cycles = .lasts n (durations 2 true (cs ++ [(t, true)])) := by
  obtain ⟨older, hreverse, hbefore⟩ := h.reverse_eq hlast
  have hlastOn : l.lastOn = (older.find? Prod.snd).map Prod.fst := by
    rw [h.lastOn, hreverse, List.find?_cons_of_neg (by simp [hoff])]
  rw [durations_concat, ended, hreverse]
  unfold endCycle
  rw [hlastOn]
  cases older with
  | nil =>
    -- the compressor has never been on before
    show l.cycles = _
    rw [h.cycles]
    simp
  | cons b oldest =>
    have hon : b.2 = true := by
      rw [hbefore b rfl, hoff]
      rfl
    have hlength : 2 ≤ cs.length := by
      rw [← List.length_reverse, hreverse, List.length_cons, List.length_cons]
      omega
    have hsize : l.transitions.size = min (2 * n + 1) cs.length := by
      rw [h.transitions]
      exact length_rtake cs (2 * n + 1)
    have hended : ((a :: b :: oldest)[0 + 1]?.toList.filter fun c => c.2 == true) = [b] := by
      simp [hon]
    rw [List.find?_cons_of_pos hon, Option.map_some, hended, List.map_singleton]
    dsimp only
    cases n with
    | zero =>
      -- no cycle is kept, whether one ends or not
      rw [if_neg (by omega)]
      show l.cycles = _
      rw [h.cycles, Queue.lasts, Queue.lasts, List.rtake_zero, List.rtake_zero]
    | succ n =>
      rw [if_pos (by omega)]
      show l.cycles.push (minutesOfSpan (t.since b.1)) = _
      rw [minutesOfSpan_since, h.cycles, Queue.push_lasts]

theorem Tracks.durations_two_concat_off (h : Tracks n l cs) {a : Instant × Bool}
    (hlast : cs.getLast? = some a) (hon : a.2 = true) (t : Instant) :
    (durations 2 true (cs ++ [(t, false)]) : List α) = durations 2 true cs := by
  obtain ⟨older, hreverse, hbefore⟩ := h.reverse_eq hlast
  rw [durations_concat, ended, hreverse]
  cases older with
  | nil => simp
  | cons b oldest =>
    have hoff : b.2 = false := by
      rw [hbefore b rfl, hon]
      rfl
    simp [hoff]

theorem Tracks.observe_first (h : Tracks n l []) (x : Instant × Bool) :
    Tracks n (l.observe x.2 x.1) [x] := by
  obtain ⟨t, running⟩ := x
  rw [observe_of_none h.last]
  exact {
    transitions := by
      show l.transitions.push (t, running) = _
      rw [h.transitions, Queue.push_lasts]
      rfl
    cycles := h.cycles
    runs := h.runs
    rests := h.rests
    last := rfl
    lastOn := by
      show (if running then some t else l.lastOn) = _
      rw [h.lastOn]
      cases running <;> rfl
    alternating := List.isChain_singleton _ }

/-- **An observation of another state is one change more.** -/
theorem Tracks.observe_change (h : Tracks n l cs) {a x : Instant × Bool}
    (hlast : cs.getLast? = some a) (hchange : a.2 ≠ x.2) :
    Tracks n (l.observe x.2 x.1) (cs ++ [x]) := by
  have halternating := alternating_concat h.alternating hlast hchange
  obtain ⟨t, running⟩ := x
  dsimp only at hchange ⊢
  have hruns := durations_one_concat (α := α) hlast true (t, running)
  have hrests := durations_one_concat (α := α) hlast false (t, running)
  have htransitions : l.transitions.push (t, running)
      = .lasts (2 * n + 1) (cs ++ [(t, running)]) := by
    rw [h.transitions, Queue.push_lasts]
  have hlastOn : (if running then some t else l.lastOn)
      = ((cs ++ [(t, running)]).reverse.find? Prod.snd).map Prod.fst := by
    rw [find?_on_concat, h.lastOn]
  rw [observe_of_change (by rw [h.last, hlast]) hchange]
  cases running with
  | false =>
    -- a run has ended, and nothing else
    have hon : a.2 = true := by simpa using hchange
    rw [if_pos hon] at hruns
    rw [if_neg hchange, List.append_nil] at hrests
    refine ⟨htransitions, ?_, ?_, ?_, ?_, hlastOn, halternating⟩
    · rw [h.durations_two_concat_off hlast hon]
      exact h.cycles
    · rw [hruns, ← Queue.push_lasts, ← h.runs]
      rfl
    · rw [hrests]
      exact h.rests
    · rw [List.getLast?_concat]
  | true =>
    -- a rest has ended, and a cycle where there was a run before
    have hoff : a.2 = false := by simpa using hchange
    rw [if_neg hchange, List.append_nil] at hruns
    rw [if_pos hoff] at hrests
    refine ⟨htransitions, h.cycles_endCycle hlast hoff t, ?_, ?_, ?_, hlastOn, halternating⟩
    · rw [hruns]
      exact h.runs
    · rw [hrests, ← Queue.push_lasts, ← h.rests]
      rfl
    · rw [List.getLast?_concat]

end

/-! ## §5. Whole runs. -/

/-- A log after observations, one after another. -/
def watch (l : CompressorLog α) (observed : List (Instant × Bool)) : CompressorLog α :=
  observed.foldl (fun l x => l.observe x.2 x.1) l

/-- **After every run the log holds the last of what the changes amount to.** -/
theorem tracks_watch (n : Nat) (observed : List (Instant × Bool)) :
    Tracks n ((ofCapacity n : CompressorLog α).watch observed) (changes observed) := by
  -- the log is given its observations from the front, so the induction takes the last one off
  induction observed using List.reverseRecOn with
  | nil => exact tracks_ofCapacity n
  | append_singleton observed x ih =>
    have hwatch : (ofCapacity n : CompressorLog α).watch (observed ++ [x])
        = ((ofCapacity n).watch observed).observe x.2 x.1 := by
      unfold watch
      rw [List.foldl_concat]
    rw [hwatch]
    cases hlast : observed.getLast? with
    | none =>
      rw [List.getLast?_eq_none_iff] at hlast
      subst hlast
      exact ih.observe_first x
    | some a =>
      -- the last change need not be the last observation, but has its state
      have hstate := getLast?_changes observed
      rw [hlast, Option.map_some, Option.map_eq_some_iff] at hstate
      obtain ⟨c, hc, hsame⟩ := hstate
      rw [changes_concat hlast]
      by_cases hrepeat : a.2 = x.2
      · rw [if_pos hrepeat, List.append_nil,
          observe_of_repeat (by rw [ih.last, hc]) (hsame.trans hrepeat)]
        exact ih
      · rw [if_neg hrepeat]
        exact ih.observe_change hc (by rw [hsame]; exact hrepeat)

/-- **A bounded log is the end of an unbounded one**: of every list that all the changes of
a run amount to it holds the last entries in order, and its averages are the means of
these. -/
theorem watch_eq_lasts (n : Nat) (observed : List (Instant × Bool)) :
    ((ofCapacity n : CompressorLog α).watch observed).transitions.toList
        = (changes observed).rtake (2 * n + 1)
      ∧ ((ofCapacity n : CompressorLog α).watch observed).runs.toList
        = (durations 1 true (changes observed)).rtake n
      ∧ ((ofCapacity n : CompressorLog α).watch observed).rests.toList
        = (durations 1 false (changes observed)).rtake n
      ∧ ((ofCapacity n : CompressorLog α).watch observed).cycles.toList
        = (durations 2 true (changes observed)).rtake n
      ∧ ((ofCapacity n : CompressorLog α).watch observed).averages
        = { cycle := average? ((durations 2 true (changes observed)).rtake n)
            run := average? ((durations 1 true (changes observed)).rtake n)
            rest := average? ((durations 1 false (changes observed)).rtake n) } := by
  have h := tracks_watch (α := α) n observed
  refine ⟨?_, ?_, ?_, ?_, ?_⟩
  · rw [h.transitions, Queue.lasts]
  · rw [h.runs, Queue.lasts]
  · rw [h.rests, Queue.lasts]
  · rw [h.cycles, Queue.lasts]
  · rw [averages, mean?_eq_average?, mean?_eq_average?, mean?_eq_average?, h.cycles, h.runs,
      h.rests, Queue.lasts, Queue.lasts, Queue.lasts]

/-- A compressor that switches at uneven times, once said to be on twice, and once to have gone
off five minutes before it went on. -/
def unevenSwitches : List (Instant × Bool) :=
  [(.ofFirstDay 0, false), (.ofFirstDay 600, true), (.ofFirstDay 660, true),
    (.ofFirstDay 1800, false), (.ofFirstDay 2100, true), (.ofFirstDay 1800, false),
    (.ofFirstDay 2400, true), (.ofFirstDay 2430, false), (.ofFirstDay 2910, true)]

/-- Of three runs, four rests and three cycles a log of capacity two has the last two of
each; after three observations there is one rest to average and nothing else. -/
theorem watch_eq_lasts_of_unevenSwitches :
    ((ofCapacity 2 : CompressorLog Float).watch unevenSwitches).transitions.toList
        = [(.ofFirstDay 2100, true), (.ofFirstDay 1800, false), (.ofFirstDay 2400, true),
          (.ofFirstDay 2430, false), (.ofFirstDay 2910, true)]
      ∧ ((ofCapacity 2 : CompressorLog Float).watch unevenSwitches).runs.toList = [-5, 0.5]
      ∧ ((ofCapacity 2 : CompressorLog Float).watch unevenSwitches).rests.toList = [10, 8]
      ∧ ((ofCapacity 2 : CompressorLog Float).watch unevenSwitches).cycles.toList = [5, 8.5]
      ∧ ((ofCapacity 2 : CompressorLog Float).watch unevenSwitches).averages
        = ⟨some 6.75, some (-2.25), some 9⟩
      ∧ ((ofCapacity 2 : CompressorLog Float).watch (unevenSwitches.take 3)).averages
        = ⟨none, none, some 10⟩ := by
  obtain ⟨htransitions, hruns, hrests, hcycles, haverages⟩ :=
    watch_eq_lasts (α := Float) 2 unevenSwitches
  obtain ⟨-, -, -, -, hfirst⟩ := watch_eq_lasts (α := Float) 2 (unevenSwitches.take 3)
  refine ⟨htransitions.trans ?_, hruns.trans ?_, hrests.trans ?_, hcycles.trans ?_,
    haverages.trans ?_, hfirst.trans ?_⟩
  -- what remains is about the durations between the changes, and not about the log
  all_goals decide +kernel

end CompressorLog

end HeatMeter
