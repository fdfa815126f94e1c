/-
  HeatMeter.Proofs.Channels.Shown
  ───────────────────────────────
  **MERGED CHANNELS SAMPLE AND HOLD.**

  A series is given in any order, and may have several values of one instant.  What it
  shows at an instant `t` can be said without sorting it: the value that is LAST UP TO `t`.

      later instant   none of its values up to `t` is of a later instant
      given later     none given after it is of the same instant

  Sorting puts the values up to `t` in front, `takeWhile_eq_filter`, the latest instant at
  their end; being stable it leaves the values of that instant as they were given,
  `Instant.filter_mergeSort`.  So the value at the end is the last up to `t`,
  `LastUpTo.held?_inOrder`, and every channel of a merged reading shows its own.
-/
import HeatMeter.Proofs.Channels
import HeatMeter.Proofs.Front
import Mathlib

namespace HeatMeter

namespace Series

variable {β γ : Type}

/-! ## §1. A series in order, value by value. -/

/-- The first value shows from its instant on, until a later one does. -/
theorem held?_cons (x : Instant × β) (s : Series β) (t : Instant) :
    held? (x :: s) t = if x.1 ≤ t then some ((held? s t).getD x.2) else none := by
  unfold held?
  rw [List.takeWhile_cons]
  by_cases hle : x.1 ≤ t
  · rw [if_pos hle, if_pos (decide_eq_true hle), List.getLast?_cons, Option.map_some,
      Option.getD_map]
  · rw [if_neg hle, if_neg (by simpa using hle)]
    rfl

/-- Nothing is shown before the first value. -/
theorem held?_eq_none {s : Series β} {t : Instant} (h : ∀ x ∈ s, t < x.1) :
    held? s t = none := by
  cases s with
  | nil => rfl
  | cons x s => rw [held?_cons, if_neg (not_le_of_gt (h x List.mem_cons_self))]

theorem held?_map (f : β → γ) (s : Series β) (t : Instant) :
    held? (s.map fun x => (x.1, f x.2)) t = (held? s t).map f := by
  induction s with
  | nil => rfl
  | cons x s ih =>
    rw [List.map_cons, held?_cons, held?_cons, ih]
    by_cases hle : x.1 ≤ t
    · rw [if_pos hle, if_pos hle, Option.map_some, Option.getD_map]
    · rw [if_neg hle, if_neg hle]
      rfl

/-- Something is shown where some value is not later. -/
theorem held?_isSome {s : Series β} (hsorted : s.Pairwise fun a b => a.1 ≤ b.1) {x : Instant × β}
    (hx : x ∈ s) {t : Instant} (hle : x.1 ≤ t) : (held? s t).isSome := by
  cases s with
  | nil => simp at hx
  | cons y s =>
    have hfirst : y.1 ≤ x.1 := by
      rcases List.mem_cons.1 hx with rfl | hx
      · exact le_refl x.1
      · exact (List.pairwise_cons.1 hsorted).1 x hx
    rw [held?_cons, if_pos (le_trans hfirst hle)]
    rfl

/-! ## §2. The last value up to an instant. -/

/-- `x` is the last value of a series up to `t`: none up to then is of a later instant, and
none given after it is of its own. -/
def LastUpTo (s : Series β) (t : Instant) (x : Instant × β) : Prop :=
  x.1 ≤ t ∧ ∃ before after, s = before ++ x :: after
    ∧ (∀ y ∈ before, y.1 ≤ t → y.1 ≤ x.1) ∧ ∀ y ∈ after, y.1 ≤ t → y.1 < x.1

variable {s : Series β} {t : Instant} {x : Instant × β}

theorem LastUpTo.latest (h : s.LastUpTo t x) {y : Instant × β} (hy : y ∈ s) (hyt : y.1 ≤ t) :
    y.1 ≤ x.1 := by
  obtain ⟨-, before, after, rfl, hbefore, hafter⟩ := h
  rcases List.mem_append.1 hy with hy | hy
  · exact hbefore y hy hyt
  · rcases List.mem_cons.1 hy with rfl | hy
    · exact le_refl _
    · exact le_of_lt (hafter y hy hyt)

/-- Of the values of its instant it is given last. -/
theorem LastUpTo.getLast?_filter (h : s.LastUpTo t x) :
    (s.filter fun y => decide (y.1 = x.1)).getLast? = some x := by
  obtain ⟨hle, before, after, rfl, -, hafter⟩ := h
  have hnone : after.filter (fun y => decide (y.1 = x.1)) = [] := by
    rw [List.filter_eq_nil_iff]
    intro y hy hsame
    rw [decide_eq_true_eq] at hsame
    exact absurd (hafter y hy (by rw [hsame]; exact hle)) (by rw [hsame]; exact lt_irrefl _)
  rw [List.filter_append, List.filter_cons_of_pos (by simp), hnone, List.getLast?_concat]

/-- Where there is a value up to `t` there is a last one. -/
theorem exists_lastUpTo (hx : x ∈ s) (hle : x.1 ≤ t) : ∃ last, s.LastUpTo t last := by
  induction s generalizing x with
  | nil => cases hx
  | cons y rest ih =>
    by_cases hlater : ∃ z ∈ rest, z.1 ≤ t
    · obtain ⟨z, hz, hzt⟩ := hlater
      obtain ⟨last, hlast⟩ := ih hz hzt
      by_cases hy : y.1 ≤ t → y.1 ≤ last.1
      · -- the first value is not after the last one of the others
        obtain ⟨hlastle, before, after, rfl, hbefore, hafter⟩ := hlast
        refine ⟨last, hlastle, y :: before, after, rfl, ?_, hafter⟩
        rw [List.forall_mem_cons]
        exact ⟨hy, hbefore⟩
      · -- it is later than all of the others
        rw [Classical.not_imp, not_le] at hy
        exact ⟨y, hy.1, [], rest, rfl, by simp, fun w hw hwt =>
          lt_of_le_of_lt (hlast.latest hw hwt) hy.2⟩
    · rcases List.mem_cons.1 hx with rfl | hx
      · exact ⟨x, hle, [], rest, rfl, by simp, fun z hz hzt => absurd ⟨z, hz, hzt⟩ hlater⟩
      · exact absurd ⟨x, hx, hle⟩ hlater

/-! ## §3. What a series shows. -/

/-- The values up to an instant, in order of time. -/
def upTo (s : Series β) (t : Instant) : Series β :=
  s.inOrder.filter fun x => decide (x.1 ≤ t)

theorem sorted_inOrder (s : Series β) : s.inOrder.Pairwise fun a b => a.1 ≤ b.1 :=
  Instant.sorted_mergeSort Prod.fst s

theorem mem_upTo : x ∈ s.upTo t ↔ x ∈ s ∧ x.1 ≤ t := by
  rw [upTo, List.mem_filter, decide_eq_true_eq, inOrder, List.mem_mergeSort]

/-- The values of one instant are in the order in which they were given. -/
theorem filter_upTo {u : Instant} (hu : u ≤ t) :
    (s.upTo t).filter (fun y => decide (y.1 = u)) = s.filter fun y => decide (y.1 = u) := by
  rw [← Instant.filter_mergeSort Prod.fst s u, upTo, List.filter_filter]
  apply List.filter_congr
  intro y _
  rw [← Bool.decide_and, decide_eq_decide]
  exact ⟨fun h => h.1, fun h => ⟨h, by rw [h]; exact hu⟩⟩

/-- A series in order shows the last of its values up to an instant. -/
theorem held?_inOrder_eq (s : Series β) (t : Instant) :
    held? s.inOrder t = (s.upTo t).getLast?.map (·.2) := by
  rw [held?, upTo, takeWhile_eq_filter]
  apply s.sorted_inOrder.imp
  intro a b hab hb
  rw [decide_eq_true_eq] at hb ⊢
  exact le_trans hab hb

theorem held?_inOrder_eq_none_iff : held? s.inOrder t = none ↔ ∀ x ∈ s, t < x.1 := by
  rw [held?_inOrder_eq, Option.map_eq_none_iff, List.getLast?_eq_none_iff,
    List.eq_nil_iff_forall_not_mem]
  simp only [mem_upTo, not_and, not_le]

/-- **The last value up to an instant is shown there.** -/
theorem LastUpTo.held?_inOrder (h : s.LastUpTo t x) : held? s.inOrder t = some x.2 := by
  have hx : x ∈ s.upTo t := by
    obtain ⟨hle, before, after, rfl, -⟩ := h
    exact mem_upTo.2 ⟨by simp, hle⟩
  obtain ⟨last, hlast⟩ : ∃ last, (s.upTo t).getLast? = some last :=
    ⟨_, List.getLast?_eq_some_getLast (List.ne_nil_of_mem hx)⟩
  obtain ⟨earlier, hend⟩ := List.getLast?_eq_some_iff.1 hlast
  -- what stands last has the latest instant
  have hinstant : last.1 = x.1 := by
    obtain ⟨hmem, hle⟩ := mem_upTo.1 (List.mem_of_getLast? hlast)
    refine le_antisymm (h.latest hmem hle) ?_
    have hsorted : (s.upTo t).Pairwise fun a b => a.1 ≤ b.1 := s.sorted_inOrder.filter _
    rw [hend] at hx hsorted
    rcases List.mem_append.1 hx with hx | hx
    · exact (List.pairwise_append.1 hsorted).2.2 x hx last List.mem_cons_self
    · rw [List.mem_singleton.1 hx]
  -- and of that instant it is the value given last
  have hgiven : ((s.upTo t).filter fun y => decide (y.1 = x.1)).getLast? = some x := by
    rw [filter_upTo (mem_upTo.1 hx).2, h.getLast?_filter]
  rw [hend, List.filter_append, List.filter_cons_of_pos (by simpa using hinstant),
    List.filter_nil, List.getLast?_concat] at hgiven
  rw [held?_inOrder_eq, hlast, Option.some.inj hgiven, Option.map_some]

/-- What a series shows at an instant: its last value up to then, and nothing exactly if
it has none up to then. -/
structure Shows (s : Series β) (t : Instant) (value : Option β) : Prop where
  /-- A value is shown exactly if it is the last one's. -/
  value_iff : ∀ v, value = some v ↔ ∃ x, s.LastUpTo t x ∧ x.2 = v
  /-- Nothing is shown exactly if all values are later. -/
  none_iff : value = none ↔ ∀ x ∈ s, t < x.1

theorem shows_held? (s : Series β) (t : Instant) : s.Shows t (held? s.inOrder t) := by
  refine ⟨?_, held?_inOrder_eq_none_iff⟩
  intro v
  constructor
  · intro hheld
    have hsome : ¬ ∀ x ∈ s, t < x.1 := by
      rw [← held?_inOrder_eq_none_iff, hheld]
      simp
    simp only [not_forall, not_lt] at hsome
    obtain ⟨x, hx, hle⟩ := hsome
    obtain ⟨last, hlast⟩ := exists_lastUpTo hx hle
    rw [hlast.held?_inOrder] at hheld
    exact ⟨last, hlast, Option.some.inj hheld⟩
  · rintro ⟨x, hlast, rfl⟩
    exact hlast.held?_inOrder

end Series

/-! ## §4. Merged records. -/

namespace Channels

variable {α : Type}

/-- Some channel has a value of the instant. -/
def RecordedAt (c : Channels α) (t : Instant) : Prop :=
  t ∈ c.inlet.instants ∨ t ∈ c.outlet.instants ∨ t ∈ c.flow.instants
    ∨ t ∈ c.current.instants ∨ t ∈ c.frequency.instants ∨ t ∈ c.power.instants
    ∨ t ∈ c.secondCurrent.instants ∨ t ∈ c.secondFrequency.instants
    ∨ t ∈ c.defrost.instants ∨ t ∈ c.mode.instants

/-- A reading is what the channels show at an instant; none of them is the voltage. -/
structure ShowAt (c : Channels α) (t : Instant) (r : Reading α) : Prop where
  inlet : c.inlet.Shows t r.inlet
  outlet : c.outlet.Shows t r.outlet
  flow : c.flow.Shows t r.flow
  current : c.current.Shows t r.current
  frequency : c.frequency.Shows t r.frequency
  power : c.power.Shows t r.power
  voltage : r.voltage = none
  secondCurrent : c.secondCurrent.Shows t r.secondCurrent
  secondFrequency : c.secondFrequency.Shows t r.secondFrequency
  defrost : c.defrost.Shows t r.defrost
  mode : c.mode.Shows t r.mode

theorem mem_instants_iff {c : Channels α} {t : Instant} : t ∈ c.instants ↔ c.RecordedAt t := by
  unfold instants RecordedAt
  rw [mem_distinctInstants]
  simp only [List.mem_append, or_assoc]

theorem showAt_readingAt (c : Channels α) (t : Instant) :
    c.ShowAt t (c.inOrder.readingAt t) where
  inlet := c.inlet.shows_held? t
  outlet := c.outlet.shows_held? t
  flow := c.flow.shows_held? t
  current := c.current.shows_held? t
  frequency := c.frequency.shows_held? t
  power := c.power.shows_held? t
  voltage := rfl
  secondCurrent := c.secondCurrent.shows_held? t
  secondFrequency := c.secondFrequency.shows_held? t
  defrost := c.defrost.shows_held? t
  mode := c.mode.shows_held? t

/-- **Merged records sample and hold**: they are strictly in order of time, there is one
for every instant of which some channel has a value and for no other, and each shows the
last value of every channel up to its instant. -/
theorem records_show_last_values (c : Channels α) :
    (c.records.Pairwise fun a b => a.time < b.time)
      ∧ (∀ t, t ∈ c.records.map Record.time ↔ c.RecordedAt t)
      ∧ ∀ r ∈ c.records, c.ShowAt r.time r.reading := by
  refine ⟨c.records_strict, ?_, ?_⟩
  · intro t
    rw [c.times_records, mem_instants_iff]
  · intro r hr
    unfold records at hr
    obtain ⟨t, -, rfl⟩ := List.mem_map.1 hr
    exact c.showAt_readingAt t

/-- Of two inlet temperatures at second 60 the one given later is shown, also before the
one of second 0 is given. -/
example : ({ inlet := [(.ofFirstDay 60, 31), (.ofFirstDay 60, 32), (.ofFirstDay 0, 30)]
             flow := [(.ofFirstDay 90, 1)] } : Channels Float).records
    = [⟨.ofFirstDay 0, { inlet := some 30 }⟩, ⟨.ofFirstDay 60, { inlet := some 32 }⟩,
      ⟨.ofFirstDay 90, { inlet := some 32, flow := some 1 }⟩] := by cbv

end Channels

end HeatMeter
