/-
  HeatMeter.Keyed
  ───────────────
  **LISTS OF VALUES BY KEY.**

  A list of pairs holds values by key in the order in which the keys came.
  Looking up is `List.lookup`; the two laws here say what writing does to it.
-/
namespace HeatMeter.Keyed

variable {κ β : Type} [DecidableEq κ]

/-- The entries with the value of a key replaced, or with the key at the end. -/
def put (key : κ) (x : β) : List (κ × β) → List (κ × β)
  | [] => [(key, x)]
  | (k, y) :: rest => if k = key then (k, x) :: rest else (k, y) :: put key x rest

@[simp] theorem lookup_put_self (key : κ) (x : β) (es : List (κ × β)) :
    (put key x es).lookup key = some x := by
  induction es with
  | nil => simp [put]
  | cons e rest ih =>
    obtain ⟨k, y⟩ := e
    by_cases h : k = key
    · simp [put, h]
    · have ne : (key == k) = false := by simpa using fun e => h e.symm
      simp [put, h, List.lookup_cons, ih, ne]

theorem lookup_put_of_ne {key other : κ} (ne : other ≠ key) (x : β) (es : List (κ × β)) :
    (put key x es).lookup other = es.lookup other := by
  have ne : (other == key) = false := by simpa using ne
  induction es with
  | nil => simp [put, List.lookup_cons, ne]
  | cons e rest ih =>
    obtain ⟨k, y⟩ := e
    by_cases h : k = key
    · simp [put, h, List.lookup_cons, ne]
    · simp [put, h, List.lookup_cons, ih]

end HeatMeter.Keyed
