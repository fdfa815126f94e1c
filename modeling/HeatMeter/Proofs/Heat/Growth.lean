/-
  HeatMeter.Proofs.Heat.Growth
  ────────────────────────────
  **THE COUNTERS ONLY GROW, WHATEVER THE POWERS ARE.**

  Powers reach a counter unchecked: they may be negative, infinite or NaN, and the
  times may run backwards.  What is counted is safe all the same:

      power    one above zero or a zero, so a remembered power is never below zero
      energy   a trapezoid over such powers and a time that runs forwards is never
               below zero, nor a NaN
      counter  a sum with such energies never falls and keeps the order of counters

  The daily counter gets the energies that the total gets, so it stays below it:
  `Ordered.take` is one update, `Ordered.run` a run.  Where only the totals are known
  to be finite, `Steady` is what is left of this.
-/
import HeatMeter.Proofs.Heat.Energy
import HeatMeter.Proofs.Scalar.Order

namespace HeatMeter

open FloatLaws (Addable addable_of_nonneg nonneg_zero)

namespace FloatLaws

/-! ## §1. Sums of energies. -/

variable {x y : Float} {es : List Float}

theorem Addable.sum (hx : Addable x) (hes : ∀ e ∈ es, 0 ≤ e) :
    Addable (es.foldl (· + ·) x) := by
  induction es generalizing x with
  | nil => exact hx
  | cons e es ih =>
    exact ih (hx.add (hes e List.mem_cons_self)) fun d hd => hes d (List.mem_cons_of_mem e hd)

theorem le_sum (hx : Addable x) (hes : ∀ e ∈ es, 0 ≤ e) : x ≤ es.foldl (· + ·) x := by
  induction es generalizing x with
  | nil => exact le_refl hx
  | cons e es ih =>
    have he := hes e List.mem_cons_self
    have hrest := ih (hx.add he) fun d hd => hes d (List.mem_cons_of_mem e hd)
    exact le_trans (le_add hx he) hrest

theorem sum_le_sum (hx : Addable x) (h : x ≤ y) (hes : ∀ e ∈ es, 0 ≤ e) :
    es.foldl (· + ·) x ≤ es.foldl (· + ·) y := by
  induction es generalizing x y with
  | nil => exact h
  | cons e es ih =>
    have he := hes e List.mem_cons_self
    exact ih (hx.add he) (add_le_add hx h he) fun d hd => hes d (List.mem_cons_of_mem e hd)

end FloatLaws

namespace HeatCounter

variable {c : HeatCounter Float}

/-! ## §2. The powers and the energies that are counted. -/

theorem nonneg_of_choose? {kind : Option HeatKind} {p : ByKind Float} {now : Instant}
    {x : Counted Float} (h : choose? kind p now = some x) : 0 ≤ x.power := by
  unfold choose? at h
  split at h
  next hheating =>
    injection h with h
    rw [← h]
    exact FloatLaws.le_of_lt hheating
  next =>
    split at h
    next hcooling =>
      injection h with h
      rw [← h]
      exact FloatLaws.le_of_lt hcooling
    next =>
      obtain ⟨k, -, rfl⟩ := Option.map_eq_some_iff.1 h
      exact nonneg_zero

theorem nonneg_of_gained {x : Counted Float} (hpower : ∀ k, 0 ≤ c.power.get k)
    (hx : 0 ≤ x.power) : ∀ e ∈ c.gained x, 0 ≤ e := by
  intro e he
  unfold gained at he
  cases hbaseline : c.baseline with
  | none =>
    rw [hbaseline] at he
    exact absurd he List.not_mem_nil
  | some last =>
    rw [hbaseline] at he
    dsimp only at he
    split at he
    next hforward =>
      rw [List.mem_singleton.1 he]
      exact FloatLaws.trapezoid_nonneg (hpower x.kind) hx hforward
    next => exact absurd he List.not_mem_nil

/-- **What an update does to the counters of a kind**: it adds energies to both, to the
total as it was and to the daily one as it was or begun anew. -/
theorem take_adds (hpower : ∀ k, 0 ≤ c.power.get k) (i : HeatInput Float) (k : HeatKind) :
    ∃ es : List Float, (∀ e ∈ es, 0 ≤ e)
      ∧ (c.take i).total.get k = es.foldl (· + ·) (c.total.get k)
      ∧ ((c.take i).daily.get k = es.foldl (· + ·) (c.daily.get k)
        ∨ (c.take i).daily.get k = es.foldl (· + ·) 0) := by
  cases hcounted : counted? c.kind c.locked i with
  | none =>
    refine ⟨[], by simp, ?_, ?_⟩
    · rw [take_of_none hcounted]
      rfl
    · rw [take_of_none hcounted]
      exact .inl rfl
  | some x =>
    have hes := nonneg_of_gained hpower (nonneg_of_choose? hcounted)
    have hdaily : (c.dailyOn x.time).get k = c.daily.get k ∨ (c.dailyOn x.time).get k = 0 := by
      rw [get_dailyOn]
      split
      · exact .inl rfl
      · exact .inr rfl
    rw [take_of_some hcounted, record_eq]
    dsimp only
    by_cases hkind : x.kind = k
    · refine ⟨c.gained x, hes, ?_, ?_⟩
      · rw [hkind, ByKind.get_set_self]
      · rw [hkind, ByKind.get_set_self]
        rcases hdaily with hsame | hnew
        · exact .inl (by rw [hsame])
        · exact .inr (by rw [hnew])
    · refine ⟨[], by simp, ?_, ?_⟩
      · rw [ByKind.get_set_of_ne _ (Ne.symm hkind)]
        rfl
      · rw [ByKind.get_set_of_ne _ (Ne.symm hkind)]
        exact hdaily

theorem power_take (hpower : ∀ k, 0 ≤ c.power.get k) (i : HeatInput Float) (k : HeatKind) :
    0 ≤ (c.take i).power.get k := by
  cases hcounted : counted? c.kind c.locked i with
  | none =>
    rw [take_of_none hcounted]
    exact hpower k
  | some x =>
    rw [take_of_some hcounted, record_eq]
    dsimp only
    by_cases hkind : x.kind = k
    · rw [hkind, ByKind.get_set_self]
      exact nonneg_of_choose? hcounted
    · rw [ByKind.get_set_of_ne _ (Ne.symm hkind), ByKind.get_both]
      exact nonneg_zero

/-! ## §3. The invariants of a run. -/

/-- The powers remembered are not below zero, and the totals may be added to. -/
structure Steady (c : HeatCounter Float) : Prop where
  power : ∀ k, 0 ≤ c.power.get k
  total : ∀ k, Addable (c.total.get k)

theorem Steady.take (h : c.Steady) (i : HeatInput Float) : (c.take i).Steady := by
  refine ⟨power_take h.power i, ?_⟩
  intro k
  obtain ⟨es, hes, htotal, -⟩ := take_adds h.power i k
  rw [htotal]
  exact (h.total k).sum hes

/-- **No update makes a total smaller.** -/
theorem Steady.total_le (h : c.Steady) (i : HeatInput Float) (k : HeatKind) :
    c.total.get k ≤ (c.take i).total.get k := by
  obtain ⟨es, hes, htotal, -⟩ := take_adds h.power i k
  rw [htotal]
  exact FloatLaws.le_sum (h.total k) hes

/-- The powers remembered are not below zero, and no daily counter is below zero or
above its total. -/
structure Ordered (c : HeatCounter Float) : Prop where
  power : ∀ k, 0 ≤ c.power.get k
  daily : ∀ k, 0 ≤ c.daily.get k
  total : ∀ k, c.daily.get k ≤ c.total.get k

theorem Ordered.steady (h : c.Ordered) : c.Steady :=
  ⟨h.power, fun k => addable_of_nonneg (FloatLaws.le_trans (h.daily k) (h.total k))⟩

/-- **One update keeps the counters in order.** -/
theorem Ordered.take (h : c.Ordered) (i : HeatInput Float) : (c.take i).Ordered := by
  refine ⟨power_take h.power i, ?_, ?_⟩
  · intro k
    obtain ⟨es, hes, -, hdaily⟩ := take_adds h.power i k
    rcases hdaily with hsame | hnew
    · rw [hsame]
      exact FloatLaws.le_trans (h.daily k) (FloatLaws.le_sum (addable_of_nonneg (h.daily k)) hes)
    · rw [hnew]
      exact FloatLaws.le_sum (addable_of_nonneg nonneg_zero) hes
  · intro k
    obtain ⟨es, hes, htotal, hdaily⟩ := take_adds h.power i k
    rw [htotal]
    rcases hdaily with hsame | hnew
    · rw [hsame]
      exact FloatLaws.sum_le_sum (addable_of_nonneg (h.daily k)) (h.total k) hes
    · -- a day begun anew starts from zero, which no total is below
      rw [hnew]
      exact FloatLaws.sum_le_sum (addable_of_nonneg nonneg_zero)
        (FloatLaws.le_trans (h.daily k) (h.total k)) hes

theorem Ordered.run (h : c.Ordered) (inputs : List (HeatInput Float)) :
    (c.run inputs).Ordered := by
  induction inputs generalizing c with
  | nil => exact h
  | cons i rest ih => exact ih (h.take i)

end HeatCounter

/-- Every counter of a snapshot is finite. -/
structure EnergySnapshot.Finite (s : EnergySnapshot Float) : Prop where
  dailyHeating : s.dailyHeating.isFinite = true
  totalHeating : s.totalHeating.isFinite = true
  dailyCooling : s.dailyCooling.isFinite = true
  totalCooling : s.totalCooling.isFinite = true

/-- No daily counter of a snapshot is below zero or above its total. -/
structure EnergySnapshot.Ordered (s : EnergySnapshot Float) : Prop where
  heating : 0 ≤ s.dailyHeating ∧ s.dailyHeating ≤ s.totalHeating
  cooling : 0 ≤ s.dailyCooling ∧ s.dailyCooling ≤ s.totalCooling

namespace HeatCounter

theorem nonneg_power_beginning (kept : Option (EnergySnapshot Float)) (start : Instant)
    (k : HeatKind) : 0 ≤ (beginning kept start).power.get k := by
  have hpower : (beginning kept start).power = .both 0 := by
    cases kept with
    | none => rfl
    | some s => rfl
  rw [hpower, ByKind.get_both]
  exact nonneg_zero

theorem steady_beginning {kept : Option (EnergySnapshot Float)} (h : ∀ s ∈ kept, s.Finite)
    (start : Instant) : (beginning kept start).Steady := by
  refine ⟨nonneg_power_beginning kept start, ?_⟩
  intro k
  cases kept with
  | none =>
    show Addable ((ByKind.both (0 : Float)).get k)
    rw [ByKind.get_both]
    exact addable_of_nonneg nonneg_zero
  | some s =>
    have hfinite := h s rfl
    cases k with
    | heating => exact FloatLaws.addable_of_isFinite hfinite.totalHeating
    | cooling => exact FloatLaws.addable_of_isFinite hfinite.totalCooling

theorem ordered_beginning {kept : Option (EnergySnapshot Float)} (h : ∀ s ∈ kept, s.Ordered)
    (start : Instant) : (beginning kept start).Ordered := by
  refine ⟨nonneg_power_beginning kept start, ?_, ?_⟩
  · intro k
    cases kept with
    | none =>
      show 0 ≤ (ByKind.both (0 : Float)).get k
      rw [ByKind.get_both]
      exact nonneg_zero
    | some s =>
      cases k with
      | heating => exact (h s rfl).heating.1
      | cooling => exact (h s rfl).cooling.1
  · intro k
    cases kept with
    | none =>
      show (ByKind.both (0 : Float)).get k ≤ (ByKind.both (0 : Float)).get k
      rw [ByKind.get_both]
      exact nonneg_zero
    | some s =>
      cases k with
      | heating => exact (h s rfl).heating.2
      | cooling => exact (h s rfl).cooling.2

/-- **The counters only grow**: after every run no counter is a NaN, the daily ones are
neither below zero nor above their totals, and no further update makes a total smaller. -/
theorem counters_grow (kept : Option (EnergySnapshot Float)) (start : Instant)
    (hkept : ∀ s ∈ kept, s.Ordered) (inputs : List (HeatInput Float)) (k : HeatKind) :
    ((((beginning kept start).run inputs).daily.get k).isNaN = false
        ∧ (((beginning kept start).run inputs).total.get k).isNaN = false)
      ∧ (0 ≤ ((beginning kept start).run inputs).daily.get k
        ∧ ((beginning kept start).run inputs).daily.get k
          ≤ ((beginning kept start).run inputs).total.get k)
      ∧ ∀ i : HeatInput Float, ((beginning kept start).run inputs).total.get k
          ≤ (((beginning kept start).run inputs).take i).total.get k := by
  have h := (ordered_beginning hkept start).run inputs
  refine ⟨⟨?_, ?_⟩, ⟨h.daily k, h.total k⟩, ?_⟩
  · exact (addable_of_nonneg (h.daily k)).isNaN
  · exact (h.steady.total k).isNaN
  · intro i
    exact h.steady.total_le i k

/-- Heating goes on from 5 kWh, with a NaN among the powers. -/
theorem counters_grow_past_nan :
    (0 : Float) ≤ 5 ∧ (((beginning (some (⟨5, 5, 0, 0, none⟩ : EnergySnapshot Float))
      (.ofFirstDay 0)).run
        [⟨⟨8, 0⟩, true, some .heating, .ofFirstDay 0⟩,
          ⟨⟨0 / 0, 0⟩, true, some .heating, .ofFirstDay 60⟩,
          ⟨⟨8, 0⟩, true, some .heating, .ofFirstDay 120⟩]).total.get .heating).isNaN = false := by
  have hkept : ∀ s ∈ some (⟨5, 5, 0, 0, none⟩ : EnergySnapshot Float), s.Ordered := by
    intro s hs
    rw [← Option.some.inj hs]
    exact ⟨by decide, by decide⟩
  exact ⟨by decide, (counters_grow _ (.ofFirstDay 0) hkept _ .heating).1.2⟩

end HeatCounter

end HeatMeter
