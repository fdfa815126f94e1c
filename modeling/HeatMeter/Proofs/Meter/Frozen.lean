/-
  HeatMeter.Proofs.Meter.Frozen
  ─────────────────────────────
  **WHILE THE DATA IS UNRELIABLE THE TOTALS STAND STILL.**

  A reading that leaves the watch unreliable is counted as two zero powers.  What the
  first one of a block adds is the energy since the power counted before it; from
  then on

      power    both powers are zero, whether a zero was counted or none was
      energy   the trapezoid between two zeros is a zero, over any finite time
      total    a sum with a zero is numerically what it was

  The last line needs a total that is neither a NaN nor the negative infinity, which
  every run from finite counters keeps: `Counting.take`.
-/
import HeatMeter.Proofs.Heat.Growth
import HeatMeter.Proofs.Meter.Run

namespace HeatMeter

open FloatLaws (Addable)

/-! ## §1. Counting two zero powers. -/

/-- Two zero powers at an instant. -/
def HeatInput.idle (running : Bool) (mode : Option Mode) (time : Instant) : HeatInput Float :=
  ⟨.both 0, running, mode, time⟩

namespace HeatCounter

variable {c : HeatCounter Float}

/-- No mode and no lock makes anything of two zeros: a zero counts, if there is a kind. -/
theorem counted?_idle (kind : Option HeatKind) (locked running : Bool) (mode : Option Mode)
    (time : Instant) :
    counted? kind locked (.idle running mode time) = kind.map fun k => ⟨k, 0, time⟩ := by
  have hsum : (⟨0 + 0, 0⟩ : ByKind Float) = .both 0 := by decide
  have hassigned : (HeatInput.idle running mode time).assigned = .both 0 := by
    match mode with
    | none | some .heating | some .cooling => rfl
    | some .dhw | some .pool => exact hsum
  have hgate : (gate kind locked running (.both (0 : Float))).2 = .both 0 := by
    unfold gate
    cases running with
    | true => rfl
    | false =>
      cases kind with
      | none => rfl
      | some k =>
        dsimp only
        split
        · cases k <;> rfl
        · rfl
  have hheating : ¬ 0 < (ByKind.both (0 : Float)).heating := Scalar.Lawful.irrefl 0
  have hcooling : ¬ 0 < (ByKind.both (0 : Float)).cooling := Scalar.Lawful.irrefl 0
  show choose? kind (gate kind locked running (HeatInput.idle running mode time).assigned).2 time
    = _
  rw [hassigned, hgate]
  exact (if_neg hheating).trans (if_neg hcooling)

/-- The powers remembered are not below zero, they are zero while no kind was counted,
and the totals may be added to. -/
structure Counting (c : HeatCounter Float) : Prop where
  steady : c.Steady
  unstarted : c.kind = none → c.power = .both 0

theorem Counting.take (h : c.Counting) (i : HeatInput Float) : (c.take i).Counting := by
  refine ⟨h.steady.take i, ?_⟩
  intro hkind
  cases hcounted : counted? c.kind c.locked i with
  | none =>
    rw [take_of_none hcounted] at hkind ⊢
    exact h.unstarted hkind
  | some x =>
    rw [take_of_some hcounted, record_eq] at hkind
    cases hkind

theorem counting_beginning {kept : Option (EnergySnapshot Float)} (h : ∀ s ∈ kept, s.Finite)
    (start : Instant) : (beginning kept start).Counting := by
  refine ⟨steady_beginning h start, ?_⟩
  intro _
  cases kept with
  | none => rfl
  | some s => rfl

/-- **Two zero powers leave both powers at zero.** -/
theorem Counting.power_idle (h : c.Counting) (running : Bool) (mode : Option Mode)
    (time : Instant) : (c.take (.idle running mode time)).power = .both 0 := by
  have hcounted := counted?_idle c.kind c.locked running mode time
  cases hkind : c.kind with
  | none =>
    rw [hkind, Option.map_none, ← hkind] at hcounted
    rw [take_of_none hcounted]
    exact h.unstarted hkind
  | some k =>
    rw [hkind, Option.map_some, ← hkind] at hcounted
    rw [take_of_some hcounted, record_eq]
    cases k <;> rfl

/-- **From zero powers on, two zero powers leave the totals numerically as they were.** -/
theorem Steady.total_idle (h : c.Steady) (hpower : c.power = .both 0) (running : Bool)
    (mode : Option Mode) (time : Instant) (k : HeatKind) :
    ((c.take (.idle running mode time)).total.get k == c.total.get k) = true := by
  have hcounted := counted?_idle c.kind c.locked running mode time
  cases hkind : c.kind with
  | none =>
    rw [hkind, Option.map_none, ← hkind] at hcounted
    rw [take_of_none hcounted]
    exact FloatLaws.beq_refl (h.total k)
  | some j =>
    rw [hkind, Option.map_some, ← hkind] at hcounted
    rw [take_of_some hcounted, record_eq]
    dsimp only
    by_cases hsame : j = k
    · rw [hsame, ByKind.get_set_self]
      unfold gained
      cases c.baseline with
      | none => exact FloatLaws.beq_refl (h.total k)
      | some last =>
        dsimp only
        split
        · -- one energy, and it is a zero
          rw [hpower, ByKind.get_both]
          obtain ⟨s, hzero⟩ := FloatLaws.parts_idle
            (FloatLaws.within_hours (Instant.wholeMillis_since_lt time last))
          exact FloatLaws.add_zero_beq (h.total k) hzero
        · exact FloatLaws.beq_refl (h.total k)
    · rw [ByKind.get_set_of_ne _ (Ne.symm hsame)]
      exact FloatLaws.beq_refl (h.total k)

end HeatCounter

/-! ## §2. What a reading counts. -/

namespace Meter

theorem heat_poll {α : Type} [Scalar α] (m : Meter α) (r : Reading α) (clock : Clock) :
    (m.poll r clock).heat
      = match powers? m.settings (m.poll r clock).watch.reliable r with
        | some p => m.heat.take ⟨p, r.running, r.mode, clock.now⟩
        | none => m.heat :=
  rfl

theorem heat_poll_of_unreliable {m : Meter Float} {r : Reading Float} {clock : Clock}
    (hoff : (m.poll r clock).watch.reliable = false) :
    (m.poll r clock).heat = m.heat.take (.idle r.running r.mode clock.now) := by
  rw [heat_poll, hoff]
  rfl

end Meter

namespace Replay

variable {α : Type} [Scalar α]

/-- **What an event does to the heat counter**: nothing, or one update with the running
state and the mode of the reading. -/
theorem heat_take_cases (p : Replay α) (e : MeterEvent α) :
    (p.take e).meter.heat = p.meter.heat
      ∨ ∃ r powers, e = .poll r
        ∧ (p.take e).meter.heat
          = p.meter.heat.take ⟨powers, r.running, r.mode, p.clock.now⟩ := by
  cases e with
  | poll r =>
    have hheat := Meter.heat_poll p.meter r p.clock
    split at hheat
    next powers _ => exact .inr ⟨r, powers, rfl, hheat⟩
    next => exact .inl hheat
  | backfill channels =>
    obtain ⟨-, -, hheat⟩ := Meter.backfill_keeps p.meter channels p.clock
    exact .inl hheat
  | set target => exact .inl rfl
  | advance step => exact .inl rfl

/-- What every update of the heat counter keeps, every event keeps. -/
theorem heat_take {P : HeatCounter α → Prop} (hstep : ∀ c i, P c → P (c.take i))
    {p : Replay α} (h : P p.meter.heat) (e : MeterEvent α) : P (p.take e).meter.heat := by
  rcases heat_take_cases p e with hsame | ⟨r, powers, -, htake⟩
  · rw [hsame]
    exact h
  · rw [htake]
    exact hstep _ _ h

theorem heat_after {P : HeatCounter α → Prop} (hstep : ∀ c i, P c → P (c.take i))
    {p : Replay α} (h : P p.meter.heat) (events : List (MeterEvent α)) :
    P (p.after events).meter.heat := by
  induction events generalizing p with
  | nil => exact h
  | cons e rest ih => exact ih (heat_take hstep h e)

theorem heat_opening (s : Settings α) (kept : Option (EnergySnapshot α)) (clock : Clock) :
    (opening s kept clock).meter.heat = HeatCounter.beginning kept clock.now := by
  cases kept with
  | none => rfl
  | some s => rfl

theorem counting_take {p : Replay Float} (h : p.meter.heat.Counting) (e : MeterEvent Float) :
    (p.take e).meter.heat.Counting :=
  heat_take (P := HeatCounter.Counting) (fun _ i hc => hc.take i) h e

theorem counting_after {p : Replay Float} (h : p.meter.heat.Counting)
    (events : List (MeterEvent Float)) : (p.after events).meter.heat.Counting :=
  heat_after (P := HeatCounter.Counting) (fun _ i hc => hc.take i) h events

/-! ## §3. Blocks of unreliable readings. -/

/-- An event that leaves the data unreliable leaves the powers at zero and the totals
numerically as they were, if it is not the first one. -/
theorem frozen_take {p : Replay Float} (h : p.meter.heat.Counting)
    (hpower : p.meter.heat.power = .both 0) {e : MeterEvent Float}
    (hoff : (p.take e).meter.watch.reliable = false) :
    (p.take e).meter.heat.power = .both 0
      ∧ ∀ k, ((p.take e).meter.heat.total.get k == p.meter.heat.total.get k) = true := by
  have hsame : ∀ k, (p.meter.heat.total.get k == p.meter.heat.total.get k) = true := fun k =>
    FloatLaws.beq_refl (h.steady.total k)
  cases e with
  | poll r =>
    have hheat := Meter.heat_poll_of_unreliable hoff
    show (p.meter.poll r p.clock).heat.power = _
      ∧ ∀ k, ((p.meter.poll r p.clock).heat.total.get k == _) = true
    rw [hheat]
    exact ⟨h.power_idle _ _ _, h.steady.total_idle hpower _ _ _⟩
  | backfill channels =>
    obtain ⟨-, -, hheat⟩ := Meter.backfill_keeps p.meter channels p.clock
    show (p.meter.backfill channels p.clock).heat.power = _
      ∧ ∀ k, ((p.meter.backfill channels p.clock).heat.total.get k == _) = true
    rw [hheat]
    exact ⟨hpower, hsame⟩
  | set target => exact ⟨hpower, hsame⟩
  | advance step => exact ⟨hpower, hsame⟩

/-- **From zero powers on the totals stand still** through events that leave the data
unreliable. -/
theorem frozen_after {p : Replay Float} (h : p.meter.heat.Counting)
    (hpower : p.meter.heat.power = .both 0) {rest : List (MeterEvent Float)}
    (hoff : ∀ part, part <+: rest → (p.after part).meter.watch.reliable = false) :
    (p.after rest).meter.heat.power = .both 0
      ∧ ∀ k, ((p.after rest).meter.heat.total.get k == p.meter.heat.total.get k) = true := by
  induction rest using List.reverseRecOn with
  | nil => exact ⟨hpower, fun k => FloatLaws.beq_refl (h.steady.total k)⟩
  | append_singleton rest e ih =>
    obtain ⟨hrest, htotals⟩ := ih fun part hpart =>
      hoff part (hpart.trans (List.prefix_append rest [e]))
    have hlast := hoff (rest ++ [e]) List.prefix_rfl
    rw [after_concat] at hlast ⊢
    obtain ⟨hzero, hsame⟩ := frozen_take (counting_after h rest) hrest hlast
    exact ⟨hzero, fun k => FloatLaws.beq_trans (hsame k) (htotals k)⟩

/-- **Unreliable readings freeze the totals**: in a block of events that leave the data
unreliable, begun by a reading, both powers read zero throughout, and after the reading
the totals are numerically what it left. -/
theorem totals_frozen (s : Settings Float) (kept : Option (EnergySnapshot Float))
    (clock : Clock) (hkept : ∀ x ∈ kept, x.Finite) (before : List (MeterEvent Float))
    (first : Reading Float) (rest : List (MeterEvent Float))
    (hoff : ∀ part, part <+: rest →
      ((((opening s kept clock).after before).take (.poll first)).after
        part).meter.summary.reliable = false) :
    ((((opening s kept clock).after before).take (.poll first)).after
        rest).meter.summary.power = .both 0
      ∧ ∀ k, (((((opening s kept clock).after before).take (.poll first)).after
            rest).meter.heat.total.get k
          == (((opening s kept clock).after before).take
            (.poll first)).meter.heat.total.get k) = true := by
  have hbefore : ((opening s kept clock).after before).meter.heat.Counting := by
    apply counting_after
    rw [heat_opening]
    exact HeatCounter.counting_beginning hkept clock.now
  -- the first reading of the block leaves the powers at zero
  have hzero : (((opening s kept clock).after before).take
      (.poll first)).meter.heat.power = .both 0 := by
    have hheat := Meter.heat_poll_of_unreliable (hoff [] List.nil_prefix)
    show (((opening s kept clock).after before).meter.poll first
      ((opening s kept clock).after before).clock).heat.power = _
    rw [hheat]
    exact hbefore.power_idle _ _ _
  obtain ⟨hpower, htotals⟩ := frozen_after (counting_take hbefore (.poll first)) hzero hoff
  refine ⟨?_, htotals⟩
  have hround : Scalar.round2 (0 : Float) = 0 := by decide
  show Meter.rounded (((((opening s kept clock).after before).take
    (.poll first)).after rest).meter.heat.power) = .both 0
  rw [hpower]
  show (⟨Scalar.round2 0, Scalar.round2 0⟩ : ByKind Float) = .both 0
  rw [hround]
  rfl

/-- A reading of a steady unit that defrosts. -/
def defrosting : Reading Float :=
  { CopSensor.steadyReading 50 with defrost := some true }

/-- A steady unit that defrosts in its second and third minute. -/
theorem totals_frozen_in_defrost :
    (∀ part, part <+: [.set (.ofFirstDay 120), .poll defrosting] →
        ((((opening .standard none (.startingAt (.ofFirstDay 0))).after
          [.poll (CopSensor.steadyReading 50), .set (.ofFirstDay 60)]).take
            (.poll defrosting)).after part).meter.summary.reliable = false)
      ∧ ((((opening .standard none (.startingAt (.ofFirstDay 0))).after
          [.poll (CopSensor.steadyReading 50), .set (.ofFirstDay 60)]).take
            (.poll defrosting)).after
              [.set (.ofFirstDay 120), .poll defrosting]).meter.summary.power = .both 0 := by
  have hoff : ∀ part, part <+: [.set (.ofFirstDay 120), .poll defrosting] →
      ((((opening .standard none (.startingAt (.ofFirstDay 0))).after
        [.poll (CopSensor.steadyReading 50), .set (.ofFirstDay 60)]).take
          (.poll defrosting)).after part).meter.summary.reliable = false := by
    intro part hpart
    rcases List.prefix_cons_iff.1 hpart with rfl | ⟨more, rfl, hmore⟩
    · decide +kernel
    rcases List.prefix_cons_iff.1 hmore with rfl | ⟨last, rfl, hlast⟩
    · decide +kernel
    rw [List.prefix_nil.1 hlast]
    decide +kernel
  have hnone : ∀ x ∈ (none : Option (EnergySnapshot Float)), x.Finite := by simp
  exact ⟨hoff, (totals_frozen .standard none (.startingAt (.ofFirstDay 0)) hnone _ _ _ hoff).1⟩

end Replay

end HeatMeter
