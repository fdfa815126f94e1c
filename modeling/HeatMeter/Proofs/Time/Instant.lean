/-
  HeatMeter.Proofs.Time.Instant
  ─────────────────────────────
  **INSTANTS ARE LINEARLY ORDERED, AND SPANS BETWEEN ORDINARY ONES ARE DIFFERENCES.**

  The order of instants is lexicographic in second and nanosecond, leap seconds
  included.  An instant outside every leap second is ORDINARY, `isLeap = false`;
  between ordinary instants everything is arithmetic on their linear counts:

      order        a ≤ b         ↔  a.linear ≤ b.linear
      difference   a.since b     =  a.linear - b.linear
      shift back   a.sub? span   =  the ordinary instant at a.linear - span,
                                    none where that is before the first one

  The last holds for every span that is not negative, and for every other one that does
  not lead past the last instant, `a.CountsBack span`.
-/
import HeatMeter.Time.Instant
import Mathlib.Algebra.Group.Nat.Defs
import Mathlib.Order.Defs.LinearOrder

namespace HeatMeter.Instant

/-! ## §1. The order. -/

theorem le_def {a b : Instant} :
    a ≤ b ↔ a.seconds < b.seconds ∨ (a.seconds = b.seconds ∧ a.nanos ≤ b.nanos) :=
  Iff.rfl

theorem lt_def {a b : Instant} :
    a < b ↔ a.seconds < b.seconds ∨ (a.seconds = b.seconds ∧ a.nanos < b.nanos) :=
  Iff.rfl

theorem eq_of_seconds_of_nanos {a b : Instant} (hs : a.seconds = b.seconds)
    (hn : a.nanos = b.nanos) : a = b := by
  cases a
  cases b
  subst hs hn
  rfl

/-- Instants are linearly ordered. -/
instance : LinearOrder Instant where
  le_refl a := by rw [le_def]; omega
  le_trans a b c hab hbc := by rw [le_def] at *; omega
  lt_iff_le_not_ge a b := by rw [le_def, le_def, lt_def]; omega
  le_antisymm a b hab hba := by
    rw [le_def] at hab hba
    exact eq_of_seconds_of_nanos (by omega) (by omega)
  le_total a b := by rw [le_def, le_def]; omega
  toDecidableLE := inferInstance
  toDecidableLT := inferInstance
  toDecidableEq := inferInstance

section

variable {β : Type} (time : β → Instant)

theorem decide_le_trans (a b c : β) (hab : decide (time a ≤ time b) = true)
    (hbc : decide (time b ≤ time c) = true) : decide (time a ≤ time c) = true := by
  rw [decide_eq_true_eq] at hab hbc ⊢
  exact le_trans hab hbc

theorem decide_le_total (a b : β) :
    (decide (time a ≤ time b) || decide (time b ≤ time a)) = true := by
  rw [Bool.or_eq_true, decide_eq_true_eq, decide_eq_true_eq]
  exact le_total (time a) (time b)

/-- Sorting things by their instants puts them in order of time. -/
theorem sorted_mergeSort (l : List β) :
    (l.mergeSort fun a b => decide (time a ≤ time b)).Pairwise fun a b => time a ≤ time b :=
  (List.pairwise_mergeSort (decide_le_trans time) (decide_le_total time) l).imp
    fun {_ _} hab => of_decide_eq_true hab

/-- **Things of one instant come out as they went in.** -/
theorem filter_mergeSort (l : List β) (t : Instant) :
    (l.mergeSort fun a b => decide (time a ≤ time b)).filter (fun x => decide (time x = t))
      = l.filter fun x => decide (time x = t) := by
  have htied : (l.filter fun x => decide (time x = t)).Pairwise
      fun a b => decide (time a ≤ time b) = true := by
    apply List.pairwise_of_forall_mem_list
    intro a ha b hb
    rw [List.mem_filter, decide_eq_true_eq] at ha hb
    rw [decide_eq_true_eq, ha.2, hb.2]
  -- as they are in order, a stable sort keeps them so, and there are as many
  have hkept := (List.sublist_mergeSort (decide_le_trans time) (decide_le_total time) htied
    List.filter_sublist).filter fun x => decide (time x = t)
  simp only [List.filter_filter, Bool.and_self] at hkept
  exact (hkept.eq_of_length ((List.mergeSort_perm l _).filter _).length_eq.symm).symm

end

/-- What is in order of time stays as it is. -/
theorem mergeSort_of_sorted {β : Type} {time : β → Instant} {l : List β}
    (h : l.Pairwise fun a b => time a ≤ time b) :
    (l.mergeSort fun a b => decide (time a ≤ time b)) = l :=
  List.mergeSort_of_pairwise (h.imp fun hab => decide_eq_true hab)

/-- Things of different instants come out strictly in order. -/
theorem strict_mergeSort {β : Type} {time : β → Instant} {l : List β}
    (hdistinct : (l.map time).Nodup) :
    (l.mergeSort fun a b => decide (time a ≤ time b)).Pairwise fun a b => time a < time b := by
  have hnodup : ((l.mergeSort fun a b => decide (time a ≤ time b)).map time).Nodup :=
    ((List.mergeSort_perm _ _).map time).nodup_iff.2 hdistinct
  have hne := List.pairwise_map.1 hnodup
  exact ((sorted_mergeSort time l).and hne).imp fun ⟨hle, hne⟩ => lt_of_le_of_ne hle hne

/-- **Things that are strictly in order of time have one order.** -/
theorem eq_of_perm_of_strict {β : Type} {time : β → Instant} {l l' : List β} (hperm : l.Perm l')
    (hl : l.Pairwise fun a b => time a < time b) (hl' : l'.Pairwise fun a b => time a < time b) :
    l = l' := by
  refine hperm.eq_of_pairwise ?_ hl hl'
  intro a b _ _ hab hba
  exact absurd hab (lt_asymm hba)

/-- Things of different instants come out of a sort alike, however they went in. -/
theorem mergeSort_of_perm {β : Type} {time : β → Instant} {l l' : List β} (hperm : l.Perm l')
    (hdistinct : (l.map time).Nodup) :
    (l.mergeSort fun a b => decide (time a ≤ time b))
      = l'.mergeSort fun a b => decide (time a ≤ time b) := by
  have hdistinct' : (l'.map time).Nodup := (hperm.map time).nodup_iff.1 hdistinct
  have hsame := (List.mergeSort_perm l fun a b => decide (time a ≤ time b)).trans
    (hperm.trans (List.mergeSort_perm l' fun a b => decide (time a ≤ time b)).symm)
  exact eq_of_perm_of_strict hsame (strict_mergeSort hdistinct) (strict_mergeSort hdistinct')

/-! ## §2. Ordinary instants on the linear scale. -/

theorem isLeap_eq_false_iff {t : Instant} : t.isLeap = false ↔ t.nanos < 1000000000 := by
  unfold isLeap nanosPerSecond
  rw [decide_eq_false_iff_not]
  omega

theorem linear_def (t : Instant) : t.linear = t.seconds * 1000000000 + t.nanos :=
  rfl

/-- The first nanosecond there is. -/
def firstLinear : Int := -8334601228800000000000

theorem firstLinear_le (t : Instant) : firstLinear ≤ t.linear := by
  have h := t.in_range
  rw [linear_def]
  unfold firstLinear
  omega

/-- The nanosecond after the last one. -/
def endLinear : Int := 8210266876800000000000

theorem linear_lt {t : Instant} (ht : t.isLeap = false) :
    t.linear < 8210266876800000000000 := by
  have h := t.in_range
  rw [isLeap_eq_false_iff] at ht
  rw [linear_def]
  omega

theorem linear_le_linear {a b : Instant} (ha : a.isLeap = false) (hb : b.isLeap = false) :
    a.linear ≤ b.linear ↔ a ≤ b := by
  rw [isLeap_eq_false_iff] at ha hb
  rw [linear_def, linear_def, le_def]
  omega

/-- Between ordinary instants the span is the difference of the linear counts. -/
theorem since_eq {a b : Instant} (ha : a.isLeap = false) (hb : b.isLeap = false) :
    a.since b = a.linear - b.linear := by
  have hleap : leapBetween a b = 0 := by
    simp [leapBetween, ha, hb]
  rw [since, hleap]
  omega

/-- At most one leap second is counted, in either direction. -/
theorem leapBetween_bounds (a b : Instant) : -1 ≤ leapBetween a b ∧ leapBetween a b ≤ 1 := by
  unfold leapBetween
  split
  · omega
  · split <;> omega

/-- No span between instants, leap seconds or not, has more milliseconds than 64 bits
can count. -/
theorem wholeMillis_since_lt (a b : Instant) :
    (wholeMillis (a.since b)).natAbs < 2 ^ 64 := by
  have hleap := leapBetween_bounds a b
  -- whole seconds, a second of nanoseconds on each side, and one leap second
  have ha := a.in_range
  have hb := b.in_range
  have hanano := a.nanos_lt
  have hbnano := b.nanos_lt
  unfold wholeMillis since nanosPerSecond
  rw [Int.natAbs_tdiv, linear_def, linear_def]
  show _ / 1000000 < _
  omega

/-! ## §3. Shifts in time. -/

theorem mk?_eq_some {seconds : Int} {nanos : Nat} {t : Instant}
    (h : mk? seconds nanos = some t) : t.seconds = seconds ∧ t.nanos = nanos := by
  unfold mk? at h
  split at h
  next =>
    split at h
    next =>
      injection h with h
      rw [← h]
      exact ⟨rfl, rfl⟩
    next => exact absurd h (by simp)
  next => exact absurd h (by simp)

theorem ofLinear?_eq_some {n : Int} {t : Instant} (h : ofLinear? n = some t) :
    t.isLeap = false ∧ t.linear = n := by
  unfold ofLinear? nanosPerSecond at h
  obtain ⟨hseconds, hnanos⟩ := mk?_eq_some h
  rw [isLeap_eq_false_iff, linear_def, hseconds, hnanos]
  omega

theorem ofLinear?_eq_none {n : Int} (h : ofLinear? n = none) :
    n < firstLinear ∨ endLinear ≤ n := by
  simp only [ofLinear?, mk?, nanosPerSecond] at h
  unfold firstLinear endLinear
  split at h
  next =>
    split at h
    next => exact absurd h (by simp)
    next hn => omega
  next hs => omega

/-- Shifting an ordinary instant lands on an ordinary instant. -/
theorem add?_eq_some {t u : Instant} {span : Int} (ht : t.isLeap = false)
    (h : t.add? span = some u) : u.isLeap = false ∧ u.linear = t.linear + span := by
  simp only [add?, ht, Bool.false_eq_true, if_false] at h
  exact ofLinear?_eq_some h

theorem sub?_eq_some {t u : Instant} {span : Int} (ht : t.isLeap = false)
    (h : t.sub? span = some u) : u.isLeap = false ∧ u.linear = t.linear - span := by
  obtain ⟨hu, hlinear⟩ := add?_eq_some ht h
  exact ⟨hu, by omega⟩

/-- A span counted back from an instant does not lead past the last one. -/
def CountsBack (t : Instant) (span : Int) : Prop :=
  t.linear - span < endLinear

instance (t : Instant) (span : Int) : Decidable (t.CountsBack span) :=
  inferInstanceAs (Decidable (_ < _))

/-- Only a span below zero could. -/
theorem countsBack_of_nonneg {t : Instant} {span : Int} (ht : t.isLeap = false)
    (hspan : 0 ≤ span) : t.CountsBack span := by
  have hlast := linear_lt ht
  unfold CountsBack endLinear
  omega

/-- A shift back then fails only where it leads before the first instant. -/
theorem sub?_eq_none {t : Instant} {span : Int} (ht : t.isLeap = false)
    (hspan : t.CountsBack span) (h : t.sub? span = none) : t.linear - span < firstLinear := by
  simp only [sub?, add?, ht, Bool.false_eq_true, if_false] at h
  unfold CountsBack at hspan
  rcases ofLinear?_eq_none h with hlow | hhigh
  · omega
  · omega

/-- A span that is not negative leads back to no later instant, from leap seconds too. -/
theorem le_of_sub? {t u : Instant} {span : Int} (hspan : 0 ≤ span) (h : t.sub? span = some u) :
    u ≤ t := by
  have hsecond : (nanosPerSecond : Int) = 1000000000 := rfl
  have hbelow := t.nanos_lt
  rw [le_def]
  unfold sub? add? at h
  cases hleap : t.isLeap with
  | false =>
    rw [hleap, if_neg (by decide)] at h
    rw [isLeap_eq_false_iff] at hleap
    obtain ⟨hu, hlinear⟩ := ofLinear?_eq_some h
    rw [isLeap_eq_false_iff] at hu
    rw [linear_def, linear_def] at hlinear
    omega
  | true =>
    rw [hleap, if_pos rfl] at h
    unfold isLeap nanosPerSecond at hleap
    rw [decide_eq_true_eq] at hleap
    simp only [hsecond, Int.neg_tdiv, Int.neg_tmod] at h
    have hwhole := Int.mul_tdiv_add_tmod span 1000000000
    have hrest : 0 ≤ span.tmod 1000000000 := Int.tmod_nonneg _ hspan
    have hdiv : 0 ≤ span.tdiv 1000000000 := Int.tdiv_nonneg hspan (by decide)
    -- the shift is not forward
    rw [if_neg (by omega)] at h
    split at h
    next hleaves =>
      -- out of the leap second, which is behind then
      obtain ⟨hu, hlinear⟩ := ofLinear?_eq_some h
      rw [isLeap_eq_false_iff] at hu
      rw [linear_def, linear_def] at hlinear
      omega
    next hstays =>
      -- within it only the nanoseconds fall
      obtain ⟨hseconds, hnanos⟩ := mk?_eq_some h
      omega

/-! ## §4. The first day. -/

theorem firstDay_in_range (second : Nat) :
    -8334601228800 ≤ ((second % 86400 : Nat) : Int)
      ∧ ((second % 86400 : Nat) : Int) < 8210266876800 := by
  omega

theorem firstDay_nanos_lt : 0 < 2000000000 := by decide

/-- The instant so many seconds into the first day counted, its last one followed by its
first. -/
def ofFirstDay (second : Nat) : Instant :=
  ⟨(second % 86400 : Nat), 0, firstDay_in_range second, firstDay_nanos_lt⟩

end HeatMeter.Instant
