/-
  HeatMeter.Proofs.Record
  ───────────────────────
  **RECORDS THAT A CLOCK CAN BE SET TO ONE AFTER ANOTHER.**

  `Record.Follows now records`: the records are outside leap seconds, in order of
  time, and none is before `now`.  Records put in order follow the first of them,
  and so does every beginning of them.
-/
import HeatMeter.Proofs.Time.Instant
import HeatMeter.Record

namespace HeatMeter.Record

variable {α : Type}

/-- Records outside leap seconds, in order of time and not before `now`. -/
structure Follows (now : Instant) (records : List (Record α)) : Prop where
  /-- No record is in a leap second. -/
  ordinary : ∀ r ∈ records, r.time.isLeap = false
  /-- No record is older than `now`. -/
  after : ∀ r ∈ records, now ≤ r.time
  /-- No record is older than one before it. -/
  sorted : records.Pairwise fun a b => a.time ≤ b.time

/-- The first record can be shown, and the others follow it. -/
theorem Follows.cons {now : Instant} {r : Record α} {rest : List (Record α)}
    (h : Follows now (r :: rest)) :
    r.time.isLeap = false ∧ now ≤ r.time ∧ Follows r.time rest := by
  obtain ⟨hfirst, hrest⟩ := List.pairwise_cons.1 h.sorted
  have hordinary : ∀ x ∈ rest, x.time.isLeap = false :=
    fun x hx => h.ordinary x (List.mem_cons_of_mem r hx)
  exact ⟨h.ordinary r List.mem_cons_self, h.after r List.mem_cons_self,
    hordinary, hfirst, hrest⟩

theorem Follows.of_isPrefix {now : Instant} {records done : List (Record α)}
    (h : Follows now records) (hdone : done <+: records) : Follows now done :=
  ⟨fun r hr => h.ordinary r (hdone.mem hr), fun r hr => h.after r (hdone.mem hr),
    h.sorted.sublist hdone.sublist⟩

/-- Records in order of time follow the first of them. -/
theorem follows_head {records : List (Record α)} {first : Record α}
    (hordinary : ∀ r ∈ records, r.time.isLeap = false)
    (hsorted : records.Pairwise fun a b => a.time ≤ b.time)
    (hfirst : records.head? = some first) : Follows first.time records := by
  refine ⟨hordinary, ?_, hsorted⟩
  -- the first one is not after itself, and the order puts it before the others
  obtain ⟨rest, rfl⟩ := List.head?_eq_some_iff.1 hfirst
  intro r hr
  rcases List.mem_cons.1 hr with rfl | hr
  · exact le_refl r.time
  · exact (List.pairwise_cons.1 hsorted).1 r hr

/-- **Records put in order follow the first of them.** -/
theorem inOrder_follows {records : List (Record α)} {first : Record α}
    (hordinary : ∀ r ∈ records, r.time.isLeap = false)
    (hfirst : (inOrder records).head? = some first) :
    Follows first.time (inOrder records) := by
  apply follows_head _ (Instant.sorted_mergeSort Record.time records) hfirst
  intro r hr
  exact hordinary r (List.mem_mergeSort.1 hr)

end HeatMeter.Record
