/-
  HeatMeter.Proofs.Queue
  ──────────────────────
  **A BOUNDED QUEUE HOLDS THE LAST ITEMS PUSHED.**

  At capacity `n` a push keeps the last `n` items of the old list and the new
  item, `List.rtake`, and so do pushes in a row.  Cutting to the last `n` items
  can be put off to the end, also past a `dropWhile` at the front: what a weaker
  test drops first, a stronger one drops anyway.

  Two queues whose items pair up, `Pairs`, still do after both take in a pair of items.
  Lists that pair up still do after both are sorted, or drop items at the front, by tests
  that agree on pairs.
-/
import HeatMeter.Proofs.Front
import HeatMeter.Queue
import Mathlib.Data.List.DropRight
import Mathlib.Data.List.Forall2

namespace HeatMeter

/-! ## §1. The last items of a list. -/

theorem length_rtake {β : Type} (l : List β) (n : Nat) :
    (l.rtake n).length = min n l.length := by
  rw [List.rtake, List.length_drop]
  omega

theorem rtake_of_length_le {β : Type} {l : List β} {n : Nat} (h : l.length ≤ n) :
    l.rtake n = l := by
  rw [List.rtake, show l.length - n = 0 by omega, List.drop_zero]

/-- An item in front of enough others is not among the last ones. -/
theorem rtake_cons_of_le {β : Type} {l : List β} {n : Nat} (h : n ≤ l.length) (x : β) :
    (x :: l).rtake n = l.rtake n := by
  rw [List.rtake, List.rtake, List.length_cons,
    show l.length + 1 - n = (l.length - n) + 1 by omega, List.drop_succ_cons]

theorem rtake_suffix {β : Type} (l : List β) (n : Nat) : l.rtake n <:+ l :=
  List.drop_suffix _ _

theorem getLast?_rtake {β : Type} {n : Nat} (h : 0 < n) (l : List β) :
    (l.rtake n).getLast? = l.getLast? := by
  rw [List.rtake, List.getLast?_drop]
  cases l with
  | nil => simp
  | cons a l => rw [if_neg (by rw [List.length_cons]; omega)]

/-- The last items of a list are those of its end, if that is long enough. -/
theorem rtake_of_suffix {β : Type} {s l : List β} {n : Nat} (h : s <:+ l) (hn : n ≤ s.length) :
    s.rtake n = l.rtake n := by
  obtain ⟨front, rfl⟩ := h
  rw [List.rtake, List.rtake, List.length_append, Nat.add_sub_assoc hn,
    List.drop_length_add_append]

theorem rtake_succ_of_lt {β : Type} {l : List β} {n : Nat} (h : n < l.length) :
    ∃ x, l.rtake (n + 1) = x :: l.rtake n := by
  have hcut : l.length - (n + 1) < l.length := by omega
  refine ⟨l[l.length - (n + 1)], ?_⟩
  rw [List.rtake, List.rtake, List.drop_eq_getElem_cons hcut,
    show l.length - (n + 1) + 1 = l.length - n by omega]

/-- Of the last `n` items followed by others, only the last `n` matter. -/
theorem rtake_rtake_append {β : Type} (l t : List β) (n : Nat) :
    (l.rtake n ++ t).rtake n = (l ++ t).rtake n := by
  induction l with
  | nil => rw [List.rtake_nil]
  | cons x l ih =>
    by_cases h : n ≤ l.length
    · have hlen : n ≤ (l ++ t).length := by
        rw [List.length_append]
        omega
      -- the head is cut on both sides
      rw [rtake_cons_of_le h, List.cons_append, rtake_cons_of_le hlen]
      exact ih
    · -- the list is short enough to be its own end
      have hwhole : (x :: l).rtake n = x :: l := by
        apply rtake_of_length_le
        rw [List.length_cons]
        omega
      rw [hwhole]

/-- What a stronger test drops may be dropped by a weaker one before the cut. -/
theorem dropWhile_rtake_dropWhile_append {β : Type} {p q : β → Bool} (l t : List β) (n : Nat)
    (hqp : ∀ x ∈ l, q x = true → p x = true) :
    ((l.dropWhile q ++ t).rtake n).dropWhile p = ((l ++ t).rtake n).dropWhile p := by
  induction l with
  | nil => rw [List.dropWhile_nil]
  | cons x l ih =>
    by_cases hq : q x = true
    · have hp : p x = true := hqp x List.mem_cons_self hq
      rw [List.dropWhile_cons_of_pos hq,
        ih (fun y hy => hqp y (List.mem_cons_of_mem x hy)), List.cons_append]
      by_cases h : n ≤ (l ++ t).length
      · rw [rtake_cons_of_le h]
      · have hcons : (x :: (l ++ t)).length ≤ n := by
          rw [List.length_cons]
          omega
        -- nothing is cut, and the head goes by the stronger test
        rw [rtake_of_length_le hcons, rtake_of_length_le (by omega),
          List.dropWhile_cons_of_pos hp]
    · rw [List.dropWhile_cons_of_neg hq]

/-! ## §2. Pushing. -/

namespace Queue

variable {β : Type}

@[simp] theorem capacity_push (q : Queue β) (x : β) : (q.push x).capacity = q.capacity := by
  unfold push
  split <;> simp_all

/-- Where there is room, the item pushed is the newest. -/
theorem back?_push {q : Queue β} (hroom : q.capacity ≠ some 0) (x : β) :
    (q.push x).back? = some x := by
  unfold push back?
  split
  · exact List.getLast?_concat
  next hfull => exact absurd hfull hroom
  · exact List.getLast?_concat

theorem toList_push {q : Queue β} {n : Nat} (hc : q.capacity = some n)
    (hl : q.toList.length ≤ n) (x : β) :
    (q.push x).toList = (q.toList ++ [x]).rtake n := by
  unfold push
  rw [hc]
  cases n with
  | zero =>
    -- a queue without room stays empty
    rw [List.rtake_zero]
    exact List.length_eq_zero_iff.1 (Nat.le_zero.1 hl)
  | succ n => rw [List.rtake_concat_succ, List.rtake]

@[simp] theorem capacity_pushAll (q : Queue β) (xs : List β) :
    (q.pushAll xs).capacity = q.capacity := by
  induction xs generalizing q with
  | nil => rfl
  | cons x xs ih =>
    show ((q.push x).pushAll xs).capacity = q.capacity
    rw [ih, capacity_push]

/-- **Pushes in a row keep the last items of all.** -/
theorem toList_pushAll {q : Queue β} {n : Nat} (hc : q.capacity = some n)
    (hl : q.toList.length ≤ n) (xs : List β) :
    (q.pushAll xs).toList = (q.toList ++ xs).rtake n := by
  induction xs generalizing q with
  | nil =>
    rw [List.append_nil, rtake_of_length_le hl]
    rfl
  | cons x xs ih =>
    have hpush : (q.push x).toList = (q.toList ++ [x]).rtake n := toList_push hc hl x
    have hlen : (q.push x).toList.length ≤ n := by
      rw [hpush, length_rtake]
      omega
    show ((q.push x).pushAll xs).toList = _
    rw [ih ((capacity_push q x).trans hc) hlen, hpush, rtake_rtake_append,
      List.append_assoc, List.singleton_append]

/-- A queue that holds the last `n` items of a list. -/
def lasts (n : Nat) (xs : List β) : Queue β := ⟨xs.rtake n, some n⟩

/-- A bounded queue without items holds the last of none. -/
theorem bounded_eq_lasts (n : Nat) : (bounded n : Queue β) = lasts n [] := by
  rw [lasts, List.rtake_nil]
  rfl

/-- **After a push the last items are those of the list with the new one.** -/
theorem push_lasts (n : Nat) (xs : List β) (x : β) :
    (lasts n xs).push x = lasts n (xs ++ [x]) := by
  have hlen : (lasts n xs).toList.length ≤ n := by
    show (xs.rtake n).length ≤ n
    rw [length_rtake]
    omega
  have hlist : ((lasts n xs).push x).toList = (xs ++ [x]).rtake n := by
    rw [toList_push rfl hlen]
    exact rtake_rtake_append xs [x] n
  have hcapacity : ((lasts n xs).push x).capacity = some n := capacity_push (lasts n xs) x
  cases hpush : (lasts n xs).push x with
  | mk items capacity =>
    rw [hpush] at hlist hcapacity
    dsimp only at hlist hcapacity
    rw [hlist, hcapacity]
    rfl

end Queue

/-! ## §3. Queues whose items pair up. -/

section

variable {β γ : Type} {R : β → γ → Prop} {xs : List β} {ys : List γ}

/-- What pairing up says of the left item holds of every item on the left. -/
theorem forall_mem_left {p : β → Prop} (h : List.Forall₂ R xs ys) (hp : ∀ x y, R x y → p x) :
    ∀ x ∈ xs, p x :=
  ((List.forall₂_and_left xs ys).1 (h.imp fun x y hxy => ⟨hp x y hxy, hxy⟩)).1

theorem forall_mem_right {p : γ → Prop} (h : List.Forall₂ R xs ys) (hp : ∀ x y, R x y → p y) :
    ∀ y ∈ ys, p y :=
  have hflip : List.Forall₂ (flip R) ys xs := List.Forall₂.flip h
  forall_mem_left hflip fun y x hyx => hp x y hyx

theorem forall₂_dropWhile {p : β → Bool} {q : γ → Bool} (h : List.Forall₂ R xs ys)
    (hpq : ∀ x y, R x y → p x = q y) : List.Forall₂ R (xs.dropWhile p) (ys.dropWhile q) := by
  induction h with
  | nil => exact .nil
  | cons hxy hrest ih =>
    rw [List.dropWhile_cons, List.dropWhile_cons, ← hpq _ _ hxy]
    split
    · exact ih
    · exact .cons hxy hrest

theorem rel_cases {x : Option β} {y : Option γ} (h : Option.Rel R x y) :
    (x = none ∧ y = none) ∨ ∃ a b, x = some a ∧ y = some b ∧ R a b := by
  cases h with
  | none => exact .inl ⟨rfl, rfl⟩
  | some hab => exact .inr ⟨_, _, rfl, rfl, hab⟩

/-- The last items of lists that pair up are a pair, if there are any. -/
theorem rel_getLast? (h : List.Forall₂ R xs ys) : Option.Rel R xs.getLast? ys.getLast? := by
  have hreverse := List.forall₂_reverse_iff.2 h
  rw [← List.head?_reverse, ← List.head?_reverse]
  generalize xs.reverse = us at hreverse ⊢
  generalize ys.reverse = vs at hreverse ⊢
  cases hreverse with
  | nil => exact .none
  | cons hxy _ => exact .some hxy

/-- Lists that pair up do so when they are sorted by tests that agree on pairs. -/
theorem forall₂_mergeSort {le : β → β → Bool} {le' : γ → γ → Bool} (h : List.Forall₂ R xs ys)
    (hle : ∀ a b x y, R a x → R b y → le a b = le' x y) :
    List.Forall₂ R (xs.mergeSort le) (ys.mergeSort le') := by
  have hpair : ∀ p ∈ xs.zip ys, R p.1 p.2 := fun p hp => List.forall₂_zip h hp
  -- both lists are sorted as one list of pairs is
  have hxs : ((xs.zip ys).mergeSort fun p q => le p.1 q.1).map Prod.fst = xs.mergeSort le := by
    rw [List.map_mergeSort (f := Prod.fst) (s := le) fun _ _ _ _ => rfl,
      List.map_fst_zip (Nat.le_of_eq h.length_eq)]
  have hys : ((xs.zip ys).mergeSort fun p q => le p.1 q.1).map Prod.snd = ys.mergeSort le' := by
    rw [List.map_mergeSort (f := Prod.snd) (s := le')
        fun p hp q hq => hle _ _ _ _ (hpair p hp) (hpair q hq),
      List.map_snd_zip (Nat.le_of_eq h.length_eq.symm)]
  rw [← hxs, ← hys, List.forall₂_map_left_iff, List.forall₂_map_right_iff, List.forall₂_same]
  intro p hp
  exact hpair p (List.mem_mergeSort.1 hp)

namespace Queue

variable {q : Queue β} {q' : Queue γ} {x : β} {y : γ}

/-- Two queues for as many items, whose items pair up. -/
structure Pairs (R : β → γ → Prop) (q : Queue β) (q' : Queue γ) : Prop where
  /-- Both hold at most as many. -/
  capacity : q'.capacity = q.capacity
  /-- The items pair up. -/
  items : List.Forall₂ R q.toList q'.toList

theorem pairs_bounded (n : Nat) : Pairs R (bounded n) (bounded n) :=
  ⟨rfl, .nil⟩

theorem Pairs.size (h : Pairs R q q') : q'.size = q.size :=
  h.items.length_eq.symm

theorem Pairs.push (h : Pairs R q q') (hxy : R x y) : Pairs R (q.push x) (q'.push y) := by
  refine ⟨by rw [capacity_push, capacity_push, h.capacity], ?_⟩
  have hitem : List.Forall₂ R [x] [y] := .cons hxy .nil
  unfold Queue.push
  rw [h.capacity, ← h.items.length_eq]
  split
  · exact List.rel_append h.items hitem
  · exact h.items
  · exact List.rel_append (List.forall₂_drop _ h.items) hitem

end Queue

end

end HeatMeter
