/-
  HeatMeter.Proofs.Front
  ──────────────────────
  **WHAT A TEST TAKES OR DROPS FROM THE FRONT OF A LIST.**

  `takeWhile` and `dropWhile` look at the front of a list and stop at the first item that
  fails.  In a list in which every item in front of one that passes passes as well, such
  as a list in order of time under a test for "not later than", the stop makes no
  difference:

      takeWhile p   all that pass
      dropWhile p   all that fail

  So it does not matter there how the place to stop is searched for.
-/
import Mathlib.Data.List.TakeWhile

namespace HeatMeter

variable {β : Type} {p : β → Bool} {l : List β}

/-- Two tests that agree on a list drop the same of it. -/
theorem dropWhile_congr {q : β → Bool} (h : ∀ x ∈ l, p x = q x) :
    l.dropWhile p = l.dropWhile q := by
  induction l with
  | nil => rfl
  | cons x l ih =>
    rw [List.dropWhile_cons, List.dropWhile_cons, h x List.mem_cons_self,
      ih fun y hy => h y (List.mem_cons_of_mem x hy)]

/-- The last item is left if it fails, and it is the last one then. -/
theorem getLast?_dropWhile {x : β} (hlast : l.getLast? = some x) (hx : p x = false) :
    (l.dropWhile p).getLast? = some x := by
  have hleft : l.dropWhile p ≠ [] := by
    rw [ne_eq, List.dropWhile_eq_nil_iff]
    intro hall
    rw [hall x (List.mem_of_getLast? hlast)] at hx
    cases hx
  obtain ⟨before, hsplit⟩ := List.dropWhile_suffix (l := l) p
  have hend : (before ++ l.dropWhile p).getLast? = (l.dropWhile p).getLast? := by
    rw [List.getLast?_append, List.getLast?_eq_some_getLast hleft]
    rfl
  rw [← hend, hsplit, hlast]

/-- What is left passes no test exactly if whatever stands before something that passes
passes too. -/
theorem forall_mem_dropWhile_iff :
    (∀ x ∈ l.dropWhile p, p x = false)
      ↔ l.Pairwise fun a b => p b = true → p a = true := by
  induction l with
  | nil => simp
  | cons a l ih =>
    rw [List.pairwise_cons]
    by_cases ha : p a = true
    · rw [List.dropWhile_cons_of_pos ha, ih]
      exact ⟨fun h => ⟨fun _ _ _ => ha, h⟩, fun h => h.2⟩
    · -- the drop stops here, so nothing behind may pass
      rw [List.dropWhile_cons_of_neg ha]
      constructor
      · intro h
        have hnone : ∀ b ∈ l, p b ≠ true := by
          intro b hb
          rw [h b (List.mem_cons_of_mem a hb)]
          decide
        exact ⟨fun b hb hpass => absurd hpass (hnone b hb),
          List.pairwise_of_forall_mem_list fun _ _ b hb hpass => absurd hpass (hnone b hb)⟩
      · rintro ⟨hfront, -⟩ x hx
        rcases List.mem_cons.1 hx with rfl | hx
        · exact Bool.eq_false_iff.2 ha
        · exact Bool.eq_false_iff.2 fun hpass => ha (hfront x hx hpass)

/-- **Where nothing that passes stands behind something that fails, all that pass are
taken.** -/
theorem takeWhile_eq_filter (h : l.Pairwise fun a b => p b = true → p a = true) :
    l.takeWhile p = l.filter p := by
  have hfront : (l.takeWhile p).filter p = l.takeWhile p :=
    List.filter_eq_self.2 fun x hx => List.mem_takeWhile_imp hx
  have hbehind : (l.dropWhile p).filter p = [] := by
    rw [List.filter_eq_nil_iff]
    intro x hx
    rw [forall_mem_dropWhile_iff.2 h x hx]
    decide
  calc l.takeWhile p
      = (l.takeWhile p ++ l.dropWhile p).filter p := by
        rw [List.filter_append, hfront, hbehind, List.append_nil]
    _ = l.filter p := by rw [List.takeWhile_append_dropWhile]

/-- **There all that pass are dropped as well**, and all that fail are left. -/
theorem dropWhile_eq_filter (h : l.Pairwise fun a b => p b = true → p a = true) :
    l.dropWhile p = l.filter fun x => !p x := by
  have hfront : (l.takeWhile p).filter (fun x => !p x) = [] := by
    rw [List.filter_eq_nil_iff]
    intro x hx
    rw [List.mem_takeWhile_imp hx]
    decide
  have hbehind : (l.dropWhile p).filter (fun x => !p x) = l.dropWhile p := by
    rw [List.filter_eq_self]
    intro x hx
    rw [forall_mem_dropWhile_iff.2 h x hx]
    rfl
  calc l.dropWhile p
      = (l.takeWhile p ++ l.dropWhile p).filter fun x => !p x := by
        rw [List.filter_append, hfront, hbehind, List.nil_append]
    _ = l.filter fun x => !p x := by rw [List.takeWhile_append_dropWhile]

end HeatMeter
