/-
  HeatMeter.Queue
  ───────────────
  **A QUEUE WITH AN OPTIONAL LARGEST LENGTH.**

  Items are appended at the back and leave at the front.  At the largest length
  an append pushes the oldest item out; a queue of largest length zero takes
  nothing in.  The items in order, oldest first, are the queue's view: every
  operation is what it does to that list.
-/
namespace HeatMeter

/-- Items in order of arrival, with the most that may be held. -/
structure Queue (β : Type) where
  /-- The items held, oldest first. -/
  toList : List β
  /-- The most items held, none for any number. -/
  capacity : Option Nat
  deriving DecidableEq, Repr

namespace Queue

variable {β : Type}

/-- An empty queue for any number of items. -/
def unbounded : Queue β := ⟨[], none⟩

/-- An empty queue for at most `n` items. -/
def bounded (n : Nat) : Queue β := ⟨[], some n⟩

/-- Append an item; at capacity the oldest items make room. -/
def push (q : Queue β) (x : β) : Queue β :=
  match q.capacity with
  | none => { q with toList := q.toList ++ [x] }
  | some 0 => q
  | some (n + 1) => { q with toList := q.toList.drop (q.toList.length - n) ++ [x] }

/-- Append items in order. -/
def pushAll (q : Queue β) (xs : List β) : Queue β :=
  xs.foldl push q

/-- The oldest item and the queue without it. -/
def pop (q : Queue β) : Option β × Queue β :=
  (q.toList.head?, { q with toList := q.toList.tail })

/-- The oldest item. -/
def front? (q : Queue β) : Option β := q.toList.head?

/-- The newest item. -/
def back? (q : Queue β) : Option β := q.toList.getLast?

/-- The number of items. -/
def size (q : Queue β) : Nat := q.toList.length

/-- Whether there are no items. -/
def isEmpty (q : Queue β) : Bool := q.toList.isEmpty

/-- Remove items from the front while they satisfy `p`. -/
def dropWhile (p : β → Bool) (q : Queue β) : Queue β :=
  { q with toList := q.toList.dropWhile p }

end Queue

end HeatMeter
