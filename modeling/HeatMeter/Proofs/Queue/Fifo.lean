/-
  HeatMeter.Proofs.Queue.Fifo
  ───────────────────────────
  **A QUEUE LOSES NO ITEM AND KEEPS THEIR ORDER.**

  Items leave a queue in two ways: they are popped, or pushed out by an append that finds
  no room.  Such an append is itself a number of pops and then the item at the back
  (`push_eq_pops`), so every call moves items from the front of the queue to the end of
  what has been removed, and it does nothing else.  Over a run of calls

      items held before ++ items appended  =  items removed ++ items held after

  for every queue that has room for an item.  With the bound on the number of items held,
  which every call keeps, this says how many items an append pushes out: the oldest one
  where the queue is full, and none otherwise.
-/
import HeatMeter.Proofs.Queue

namespace HeatMeter

namespace Queue

variable {β : Type}

/-! ## §1. An append as pops. -/

/-- Pop so many times: the items popped, oldest first, and the queue they leave. -/
def pops : Nat → Queue β → List β × Queue β
  | 0, q => ([], q)
  | k + 1, q => (q.pop.1.toList ++ (pops k q.pop.2).1, (pops k q.pop.2).2)

/-- The items that an append pushes out, oldest first: pops go on until one item less than
the most is held. -/
def pushedOut (q : Queue β) : List β :=
  match q.capacity with
  | none => []
  | some 0 => []
  | some (n + 1) => (pops (q.size - n) q).1

theorem pops_eq (k : Nat) (q : Queue β) :
    pops k q = (q.toList.take k, { q with toList := q.toList.drop k }) := by
  induction k generalizing q with
  | zero => rfl
  | succ k ih =>
    obtain ⟨items, capacity⟩ := q
    rw [pops, ih]
    cases items with
    | nil =>
      -- pops of a queue without items return nothing and leave it as it is
      simp [pop]
    | cons oldest rest => rfl

/-- **An append makes room by pops** and then puts its item at the back. -/
theorem push_eq_pops {q : Queue β} {n : Nat} (hc : q.capacity = some (n + 1)) (x : β) :
    q.push x
      = { (pops (q.size - n) q).2 with toList := (pops (q.size - n) q).2.toList ++ [x] } := by
  rw [pops_eq, push, hc]
  rfl

/-! ## §2. One call. -/

/-- A call that changes a queue. -/
inductive Call (β : Type) where
  /-- Append an item. -/
  | push (x : β)
  /-- Take the oldest item. -/
  | pop
  deriving DecidableEq, Repr

/-- The item a call appends, if it appends one. -/
def Call.appended : Call β → List β
  | .push x => [x]
  | .pop => []

/-- The queue after a call. -/
def after (q : Queue β) : Call β → Queue β
  | .push x => q.push x
  | .pop => q.pop.2

/-- The items a call removes, oldest first: those pushed out, or the one returned. -/
def removed (q : Queue β) : Call β → List β
  | .push _ => q.pushedOut
  | .pop => q.pop.1.toList

@[simp] theorem capacity_after (q : Queue β) (c : Call β) :
    (q.after c).capacity = q.capacity := by
  cases c with
  | push x => exact capacity_push q x
  | pop => rfl

theorem toList_concat {q : Queue β} (hroom : q.capacity ≠ some 0) (x : β) :
    q.toList ++ [x] = q.pushedOut ++ (q.push x).toList := by
  match hc : q.capacity with
  | none =>
    rw [pushedOut, push, hc]
    rfl
  | some 0 => exact absurd hc hroom
  | some (n + 1) =>
    rw [push_eq_pops hc, pushedOut, hc]
    dsimp only
    rw [pops_eq, ← List.append_assoc, List.take_append_drop]

theorem toList_eq_pop (q : Queue β) : q.toList = q.pop.1.toList ++ q.pop.2.toList := by
  obtain ⟨items, capacity⟩ := q
  cases items with
  | nil => rfl
  | cons oldest rest => rfl

/-- **A call moves items from the front of the queue to the items removed.** -/
theorem after_conserves {q : Queue β} (hroom : q.capacity ≠ some 0) (c : Call β) :
    q.toList ++ c.appended = q.removed c ++ (q.after c).toList := by
  cases c with
  | push x => exact toList_concat hroom x
  | pop =>
    rw [Call.appended, List.append_nil]
    exact toList_eq_pop q

/-! ## §3. The number of items. -/

/-- No more items are held than may be. -/
def Fits (q : Queue β) : Prop :=
  ∀ n, q.capacity = some n → q.size ≤ n

theorem Fits.after {q : Queue β} (h : q.Fits) (c : Call β) : (q.after c).Fits := by
  intro n hn
  rw [capacity_after] at hn
  have hsize : q.toList.length ≤ n := h n hn
  cases c with
  | push x =>
    show (q.push x).toList.length ≤ n
    rw [toList_push hn hsize, length_rtake]
    omega
  | pop =>
    show q.toList.tail.length ≤ n
    rw [List.length_tail]
    omega

theorem Fits.pushedOut_of_room {q : Queue β} (h : q.Fits) (hless : q.capacity ≠ some q.size) :
    q.pushedOut = [] := by
  unfold pushedOut
  match hc : q.capacity with
  | none => rfl
  | some 0 => rfl
  | some (n + 1) =>
    have hsize : q.size ≤ n + 1 := h _ hc
    have hne : q.size ≠ n + 1 := fun heq => hless (by rw [hc, heq])
    dsimp only
    rw [show q.size - n = 0 by omega]
    rfl

/-- Where there is room, an append removes nothing. -/
theorem Fits.push_of_room {q : Queue β} (h : q.Fits) (hroom : q.capacity ≠ some 0)
    (hless : q.capacity ≠ some q.size) (x : β) :
    q.removed (.push x) = [] ∧ (q.push x).toList = q.toList ++ [x] := by
  have hout : q.pushedOut = [] := h.pushedOut_of_room hless
  have hpush := toList_concat hroom x
  rw [hout, List.nil_append] at hpush
  exact ⟨hout, hpush.symm⟩

theorem pushedOut_of_full {q : Queue β} {oldest : β} {rest : List β}
    (hitems : q.toList = oldest :: rest) (hfull : q.capacity = some q.size) :
    q.pushedOut = [oldest] := by
  have hsize : q.size = rest.length + 1 := by rw [size, hitems, List.length_cons]
  rw [pushedOut, hfull, hsize]
  dsimp only
  -- one pop makes room for one item
  rw [pops_eq, hitems, show rest.length + 1 - rest.length = 1 by omega]
  rfl

/-- A full queue that has room for an item at all loses its oldest one to an append. -/
theorem push_of_full {q : Queue β} (hroom : q.capacity ≠ some 0)
    (hfull : q.capacity = some q.size) (x : β) :
    ∃ oldest rest, q.toList = oldest :: rest
      ∧ q.removed (.push x) = [oldest] ∧ (q.push x).toList = rest ++ [x] := by
  cases hitems : q.toList with
  | nil => exact absurd (by rw [hfull, size, hitems]; rfl) hroom
  | cons oldest rest =>
    have hout : q.pushedOut = [oldest] := pushedOut_of_full hitems hfull
    have hpush := toList_concat hroom x
    rw [hitems, hout, List.cons_append, List.singleton_append, List.cons.injEq] at hpush
    exact ⟨oldest, rest, rfl, hout, hpush.2.symm⟩

/-! ## §4. Runs of calls. -/

/-- The queue after calls. -/
def run (q : Queue β) (calls : List (Call β)) : Queue β :=
  calls.foldl after q

/-- The items that calls append, in order. -/
def appended (calls : List (Call β)) : List β :=
  calls.flatMap Call.appended

/-- The items that calls remove, in order. -/
def removals (q : Queue β) : List (Call β) → List β
  | [] => []
  | c :: calls => q.removed c ++ (q.after c).removals calls

/-- A queue without items for so many, or for any number. -/
def fresh : Option Nat → Queue β
  | none => unbounded
  | some n => bounded n

@[simp] theorem toList_fresh (capacity : Option Nat) :
    (fresh capacity : Queue β).toList = [] := by
  cases capacity <;> rfl

@[simp] theorem capacity_fresh (capacity : Option Nat) :
    (fresh capacity : Queue β).capacity = capacity := by
  cases capacity <;> rfl

@[simp] theorem capacity_run (q : Queue β) (calls : List (Call β)) :
    (q.run calls).capacity = q.capacity := by
  induction calls generalizing q with
  | nil => rfl
  | cons c calls ih =>
    show ((q.after c).run calls).capacity = q.capacity
    rw [ih, capacity_after]

/-- **Calls lose no item and keep their order.** -/
theorem run_conserves {q : Queue β} (hroom : q.capacity ≠ some 0) (calls : List (Call β)) :
    q.toList ++ appended calls = q.removals calls ++ (q.run calls).toList := by
  induction calls generalizing q with
  | nil =>
    rw [appended, List.flatMap_nil, List.append_nil]
    rfl
  | cons c calls ih =>
    have hafter : (q.after c).capacity ≠ some 0 := by rwa [capacity_after]
    show q.toList ++ (c.appended ++ appended calls) = (q.removed c ++ (q.after c).removals calls)
      ++ ((q.after c).run calls).toList
    rw [← List.append_assoc, after_conserves hroom, List.append_assoc, ih hafter,
      List.append_assoc]

theorem Fits.run {q : Queue β} (h : q.Fits) (calls : List (Call β)) : (q.run calls).Fits := by
  induction calls generalizing q with
  | nil => exact h
  | cons c calls ih => exact ih (h.after c)

theorem fits_fresh (capacity : Option Nat) : (fresh capacity : Queue β).Fits := by
  intro n _
  rw [size, toList_fresh]
  exact Nat.zero_le n

/-! ## §5. First in, first out. -/

/-- A queue of some capacity that keeps the order of the items `given` to it, of which
those in `gone` have been removed: what it holds, shows and does next is said by the items
that are left. -/
structure Fifo (capacity : Option Nat) (given gone : List β) (q : Queue β) : Prop where
  /-- Each item given is gone or held, once, in the order in which it was given. -/
  lossless : given = gone ++ q.toList
  /-- No more items are held than may be. -/
  bounded : ∀ n, capacity = some n → q.size ≤ n
  /-- An append to a full queue removes the item at the front, and that one only. -/
  push_full : capacity = some q.size → ∀ x, ∃ oldest rest, q.toList = oldest :: rest
    ∧ q.removed (.push x) = [oldest] ∧ (q.push x).toList = rest ++ [x]
  /-- An append to a queue with room removes nothing. -/
  push_room : capacity ≠ some q.size → ∀ x, q.removed (.push x) = []
    ∧ (q.push x).toList = q.toList ++ [x]
  /-- A pop returns the first item given that is not gone, and leaves those after it. -/
  pop : q.pop.1 = given[gone.length]? ∧ q.pop.2.toList = given.drop (gone.length + 1)
  /-- A pop returns no item exactly where all are gone. -/
  pop_none : q.pop.1 = none ↔ q.isEmpty = true
  /-- The items shown are those not gone. -/
  toList : q.toList = given.drop gone.length
  /-- The oldest item is the first of them. -/
  front : q.front? = (given.drop gone.length).head?
  /-- The newest item is the last of them. -/
  back : q.back? = (given.drop gone.length).getLast?
  /-- The number of items is theirs. -/
  size : q.size = given.length - gone.length
  /-- The queue is empty where there are none. -/
  isEmpty : q.isEmpty = true ↔ given = gone

/-- What is given and not lost is enough to say all that a queue holds, shows and does. -/
theorem Fits.fifo {q : Queue β} (h : q.Fits) (hroom : q.capacity ≠ some 0)
    {given gone : List β} (hgiven : given = gone ++ q.toList) :
    Fifo q.capacity given gone q := by
  have hheld : given.drop gone.length = q.toList := by rw [hgiven, List.drop_left]
  exact {
    lossless := hgiven
    bounded := h
    push_full := fun hfull x => push_of_full hroom hfull x
    push_room := fun hless x => h.push_of_room hroom hless x
    pop := by
      rw [← List.head?_drop, ← List.tail_drop, hheld]
      exact ⟨rfl, rfl⟩
    pop_none := by
      rw [isEmpty, List.isEmpty_iff]
      exact List.head?_eq_none_iff
    toList := hheld.symm
    front := by
      rw [hheld]
      rfl
    back := by
      rw [hheld]
      rfl
    size := by
      rw [hgiven, List.length_append, size]
      omega
    isEmpty := by
      rw [isEmpty, List.isEmpty_iff, hgiven]
      exact List.append_right_eq_self.symm }

/-- **A queue is first in, first out**, after every run of calls: the items appended are
those popped or pushed out, in that order, and then those held, of which there are never
more than may be; an append removes an item where the queue is full, the one at the front,
and a pop returns the oldest one left.  A queue for no items stays empty. -/
theorem fifo_after_calls {capacity : Option Nat} (hroom : capacity ≠ some 0)
    (calls : List (Call β)) :
    Fifo capacity (appended calls) ((fresh capacity).removals calls) ((fresh capacity).run calls)
      ∧ ((bounded 0).run calls).toList = [] := by
  constructor
  · have hconserves := run_conserves (q := fresh capacity) (by rwa [capacity_fresh]) calls
    rw [toList_fresh, List.nil_append] at hconserves
    have hfits := (fits_fresh (β := β) capacity).run calls
    have hcapacity : ((fresh capacity : Queue β).run calls).capacity = capacity := by
      rw [capacity_run, capacity_fresh]
    have hfifo := hfits.fifo (by rwa [hcapacity]) hconserves
    rwa [hcapacity] at hfifo
  · have hfits := (fits_fresh (β := β) (some 0)).run calls
    have hsize : ((bounded 0).run calls : Queue β).size ≤ 0 := hfits 0 (capacity_run _ calls)
    exact List.length_eq_zero_iff.1 (Nat.le_zero.1 hsize)

/-- Five items appended, with a pop after the third and one at the end. -/
def interleavedCalls : List (Call Nat) :=
  [.push 1, .push 2, .push 3, .pop, .push 4, .push 5, .pop]

/-- In a queue for two items the first and the third are pushed out, the second and the
fourth are popped, and the last one is left. -/
theorem fifo_after_interleavedCalls :
    Fifo (some 2) (appended interleavedCalls) ((fresh (some 2)).removals interleavedCalls)
        ((fresh (some 2)).run interleavedCalls)
      ∧ appended interleavedCalls = [1, 2, 3, 4, 5]
      ∧ (fresh (some 2)).removals interleavedCalls = [1, 2, 3, 4]
      ∧ ((fresh (some 2)).run interleavedCalls).toList = [5] := by
  have hroom : (some 2 : Option Nat) ≠ some 0 := by decide
  exact ⟨(fifo_after_calls hroom interleavedCalls).1, by decide, by decide, by decide⟩

end Queue

end HeatMeter
