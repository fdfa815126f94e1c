/-
  HeatMeter.Proofs.Compressor.Load
  ────────────────────────────────
  **A LOG LOADED WITH RECORDED STATES IS THE LOG OF ONE THAT WATCHED THEM.**

  Loading sorts the states and then shows them to the log one after another.  States at
  different instants have one order only, so it does not matter in which they are given;
  and a log carries over all that it needs, so it does not matter where the states are cut
  in two, as long as the first part is over before the second begins:

      given in any order     l.load given                    = l.watch ordered
      cut, both loaded       (l.load early).load late        = l.watch ordered
      cut, the rest live     (l.load early).watch ordered'   = l.watch ordered

  This holds of every log `l`, whatever it has seen before, and of all its lists at once.
-/
import HeatMeter.Proofs.Compressor
import HeatMeter.Proofs.Time.Instant

namespace HeatMeter

/-! ## §1. The order of a series. -/

namespace Series

variable {β : Type} {s s' ordered early late : Series β}

/-- `ordered` has the values of `s`, each later than the one before it. -/
structure OrderOf (ordered s : Series β) : Prop where
  /-- The values are the same. -/
  perm : ordered.Perm s
  /-- They come one after another. -/
  strict : ordered.Pairwise fun a b => a.1 < b.1

/-- Every value of one series is earlier than every value of another. -/
def Before (early late : Series β) : Prop :=
  ∀ x ∈ early, ∀ y ∈ late, x.1 < y.1

theorem orderOf_inOrder (hdistinct : s.instants.Nodup) : s.inOrder.OrderOf s :=
  ⟨List.mergeSort_perm s _, Instant.strict_mergeSort hdistinct⟩

/-- **A series has one order at most.** -/
theorem OrderOf.unique (h : ordered.OrderOf s) (h' : s'.OrderOf s) : ordered = s' :=
  Instant.eq_of_perm_of_strict (h.perm.trans h'.perm.symm) h.strict h'.strict

theorem OrderOf.of_perm (h : ordered.OrderOf s) (hperm : s.Perm s') : ordered.OrderOf s' :=
  ⟨h.perm.trans hperm, h.strict⟩

theorem OrderOf.nodup (h : ordered.OrderOf s) : s.instants.Nodup :=
  (h.perm.map Prod.fst).nodup_iff.1 (List.pairwise_map.2 (h.strict.imp ne_of_lt))

/-- A part of a series that has an order has one too. -/
theorem OrderOf.inOrder_part (h : ordered.OrderOf s) {part : Series β} (hpart : part.Sublist s) :
    part.inOrder.OrderOf part :=
  orderOf_inOrder (h.nodup.sublist (hpart.map Prod.fst))

/-- A series that has an order is sorted into it. -/
theorem OrderOf.inOrder_eq (h : ordered.OrderOf s) : s.inOrder = ordered :=
  (orderOf_inOrder h.nodup).unique h

/-- **The order of two parts is that of the early one followed by that of the late one.** -/
theorem OrderOf.append {s₁ s₂ : Series β} (h₁ : s₁.OrderOf early) (h₂ : s₂.OrderOf late)
    (hbefore : early.Before late) : (s₁ ++ s₂).OrderOf (early ++ late) := by
  refine ⟨h₁.perm.append h₂.perm, List.pairwise_append.2 ⟨h₁.strict, h₂.strict, ?_⟩⟩
  intro x hx y hy
  exact hbefore x (h₁.perm.mem_iff.1 hx) y (h₂.perm.mem_iff.1 hy)

end Series

/-! ## §2. Loading in parts. -/

namespace CompressorLog

variable {α : Type} [Scalar α] {states ordered early late : Series Bool}

theorem watch_append (l : CompressorLog α) (xs ys : List (Instant × Bool)) :
    l.watch (xs ++ ys) = (l.watch xs).watch ys :=
  List.foldl_append

/-- Loading is watching in order of time. -/
theorem load_eq_watch (l : CompressorLog α) (states : Series Bool) :
    l.load states = l.watch states.inOrder :=
  rfl

theorem load_of_orderOf (l : CompressorLog α) (h : ordered.OrderOf states) :
    l.load states = l.watch ordered := by
  rw [load_eq_watch, h.inOrder_eq]

/-- **A load can be cut in two** where one part is over before the other begins. -/
theorem watch_of_append (l : CompressorLog α) (h : ordered.OrderOf (early ++ late))
    (hbefore : early.Before late) {ordered' : Series Bool} (hlate : ordered'.OrderOf late) :
    (l.load early).watch ordered' = l.watch ordered := by
  have hearly := h.inOrder_part (List.sublist_append_left early late)
  have hwhole : ordered = early.inOrder ++ ordered' := h.unique (hearly.append hlate hbefore)
  rw [hwhole, watch_append, load_eq_watch]

/-- **Loading equals watching in order of time**, whatever the log has seen before: for
states at different instants, given in any order, and cut at any instant into a part that
is loaded and a rest that is loaded or watched. -/
theorem load_eq_watch_ordered (l : CompressorLog α) (hdistinct : states.instants.Nodup) :
    ∃ ordered : Series Bool, ordered.OrderOf states
      ∧ (∀ given : Series Bool, given.Perm states → l.load given = l.watch ordered)
      ∧ ∀ early late : Series Bool, (early ++ late).Perm states → early.Before late →
        (l.load early).load late = l.watch ordered
        ∧ ∀ ordered' : Series Bool, ordered'.OrderOf late →
          (l.load early).watch ordered' = l.watch ordered := by
  have horder := Series.orderOf_inOrder hdistinct
  refine ⟨states.inOrder, horder, ?_, ?_⟩
  · intro given hperm
    exact l.load_of_orderOf (horder.of_perm hperm.symm)
  · intro early late hperm hbefore
    have hparts := horder.of_perm hperm.symm
    have hlate := hparts.inOrder_part (List.sublist_append_right early late)
    refine ⟨?_, fun ordered' hordered' => l.watch_of_append hparts hbefore hordered'⟩
    rw [load_eq_watch]
    exact l.watch_of_append hparts hbefore hlate

/-- A compressor that starts, runs ten minutes, rests five, runs twelve and rests eight. -/
def switchings : Series Bool :=
  [(.ofFirstDay 0, false), (.ofFirstDay 300, true), (.ofFirstDay 900, false),
    (.ofFirstDay 1200, true), (.ofFirstDay 1920, false), (.ofFirstDay 2400, true)]

/-- Loaded backwards, or with the second half loaded later, the log is the one that watched. -/
theorem load_of_switchings :
    (ofCapacity 2 : CompressorLog Float).load switchings.reverse = (ofCapacity 2).watch switchings
      ∧ ((ofCapacity 2 : CompressorLog Float).load (switchings.take 3).reverse).load
          (switchings.drop 3) = (ofCapacity 2).watch switchings
      ∧ ((ofCapacity 2 : CompressorLog Float).watch switchings).averages
        = ⟨some 17.5, some 11, some 6.5⟩ := by
  have hdistinct : switchings.instants.Nodup := by decide
  obtain ⟨ordered, horder, hload, hcut⟩ :=
    load_eq_watch_ordered (ofCapacity 2 : CompressorLog Float) hdistinct
  have hordered : ordered = switchings := horder.unique ⟨List.Perm.refl _, by decide⟩
  rw [hordered] at hload hcut
  have hparts : ((switchings.take 3).reverse ++ switchings.drop 3).Perm switchings :=
    ((List.reverse_perm _).append_right _).trans (.of_eq (List.take_append_drop 3 switchings))
  have hbefore : Series.Before (switchings.take 3).reverse (switchings.drop 3) := by
    unfold Series.Before
    decide
  exact ⟨hload _ (List.reverse_perm _), (hcut _ _ hparts hbefore).1, by decide +kernel⟩

end CompressorLog

end HeatMeter
