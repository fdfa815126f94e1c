/-
  HeatMeter.Proofs.Channels
  ─────────────────────────
  **MERGED CHANNELS ARE RECORDS IN ORDER OF TIME.**

  The instants of the channels are strictly increasing: sorting puts them in
  order, and of equal neighbours one is left.  A merged reading shows values of
  its channels and nothing else, so it reports a defrost cycle only where the
  defrost channel does.
-/
import HeatMeter.Channels
import HeatMeter.Proofs.Record

namespace HeatMeter

/-! ## §1. Distinct instants. -/

theorem mem_dropRepeats {β : Type} [DecidableEq β] {x : β} {l : List β} :
    x ∈ dropRepeats l ↔ x ∈ l := by
  fun_induction dropRepeats l with
  | case1 a rest ih =>
    rw [ih, List.mem_cons, List.mem_cons, List.mem_cons, or_self_left]
  | case2 a b rest hne ih => rw [List.mem_cons, List.mem_cons, ih]
  | case3 l => rfl

theorem dropRepeats_strict {l : List Instant} (h : l.Pairwise fun a b => a ≤ b) :
    (dropRepeats l).Pairwise fun a b => a < b := by
  fun_induction dropRepeats l with
  | case1 b rest ih => exact ih (List.pairwise_cons.1 h).2
  | case2 a b rest hne ih =>
    -- what follows `a` is at least `b`, and `b` is not `a`
    obtain ⟨hfirst, hrest⟩ := List.pairwise_cons.1 h
    refine List.pairwise_cons.2 ⟨?_, ih hrest⟩
    intro x hx
    have hab : a < b := lt_of_le_of_ne (hfirst b List.mem_cons_self) hne
    rcases List.mem_cons.1 (mem_dropRepeats.1 hx) with rfl | hx
    · exact hab
    · exact lt_of_lt_of_le hab ((List.pairwise_cons.1 hrest).1 x hx)
  | case3 l hshort =>
    -- a list that has no two items
    cases l with
    | nil => exact .nil
    | cons a rest =>
      cases rest with
      | nil => exact List.pairwise_singleton _ a
      | cons b rest => exact absurd rfl (hshort a b rest)

theorem mem_distinctInstants {t : Instant} {ts : List Instant} :
    t ∈ distinctInstants ts ↔ t ∈ ts := by
  rw [distinctInstants, mem_dropRepeats, List.mem_mergeSort]

/-- **Distinct instants are strictly increasing.** -/
theorem distinctInstants_strict (ts : List Instant) :
    (distinctInstants ts).Pairwise fun a b => a < b :=
  dropRepeats_strict (Instant.sorted_mergeSort id ts)

/-! ## §2. Merged readings. -/

theorem Series.mem_of_held? {β : Type} {s : Series β} {t : Instant} {x : β}
    (h : Series.held? s.inOrder t = some x) : ∃ u, (u, x) ∈ s := by
  rw [Series.held?, Option.map_eq_some_iff] at h
  obtain ⟨⟨u, y⟩, hlast, rfl⟩ := h
  have hmem := (List.takeWhile_sublist _).mem (List.mem_of_getLast? hlast)
  exact ⟨u, List.mem_mergeSort.1 hmem⟩

namespace Channels

variable {α : Type}

/-- There is one record for every instant. -/
theorem times_records (c : Channels α) : c.records.map Record.time = c.instants := by
  unfold records
  rw [List.map_map]
  exact List.map_id _

theorem time_mem_instants {c : Channels α} {r : Record α} (h : r ∈ c.records) :
    r.time ∈ c.instants := by
  rw [← c.times_records]
  exact List.mem_map_of_mem h

theorem records_ordinary {c : Channels α} (hordinary : ∀ t ∈ c.instants, t.isLeap = false) :
    ∀ r ∈ c.records, r.time.isLeap = false :=
  fun _ hr => hordinary _ (time_mem_instants hr)

/-- Merged records are strictly in order of time, so that no two have one instant. -/
theorem records_strict (c : Channels α) :
    c.records.Pairwise fun a b => a.time < b.time := by
  unfold records
  rw [List.pairwise_map]
  exact distinctInstants_strict _

theorem records_sorted (c : Channels α) :
    c.records.Pairwise fun a b => a.time ≤ b.time :=
  c.records_strict.imp le_of_lt

/-- **Merged records follow the first of them**, where no channel has a value in a leap
second. -/
theorem records_follow {c : Channels α} {first : Record α}
    (hordinary : ∀ t ∈ c.instants, t.isLeap = false)
    (hfirst : c.records.head? = some first) : Record.Follows first.time c.records :=
  Record.follows_head (records_ordinary hordinary) c.records_sorted hfirst

/-- No merged reading is defrosting where the defrost channel never reports it. -/
theorem defrosting_of_mem_records [Scalar α] {c : Channels α} {r : Record α}
    (hnever : ∀ x ∈ c.defrost, x.2 = false) (h : r ∈ c.records) :
    r.reading.defrosting = false := by
  unfold records at h
  obtain ⟨t, -, rfl⟩ := List.mem_map.1 h
  -- the merged value is the one held by the defrost channel
  show (Series.held? c.defrost.inOrder t).getD false = false
  cases hheld : Series.held? c.defrost.inOrder t with
  | none => rfl
  | some report =>
    obtain ⟨u, hmem⟩ := Series.mem_of_held? hheld
    exact hnever _ hmem

end Channels

end HeatMeter
