/-
  HeatMeter.Proofs.Cop.Retention
  ──────────────────────────────
  **WHICH INSERTIONS LEAVE A WINDOW WITHIN ITS RETENTION.**

  A window is WITHIN ITS RETENTION when none of its samples is older than its newest one
  less the retention.  Eviction looks at the two ends of the window only: it counts the
  retention back from the sample at the back, which need not be the newest, and stops at
  the first sample from the front that has not expired, behind which others may have.
  Samples may come in any order, so an insertion can go wrong in two ways:

      Hides        what the insertion expires stands behind what it does not
      AdmitsLate   what is inserted has expired by a sample that was there before

  An insertion that does neither keeps the window within its retention, and one that does
  either does not: `InMemory.withinRetention_load_iff` is one insertion and
  `withinRetention_iff` a run of them.
-/
import HeatMeter.Proofs.Cop.Window
import HeatMeter.Proofs.Settings

namespace HeatMeter

variable {α : Type}

/-! ## §1. The newest sample. -/

/-- Of samples that are not none, one is not older than any. -/
theorem Sample.exists_newest {ms : List (Sample α)} (h : ms ≠ []) :
    ∃ newest ∈ ms, ∀ m ∈ ms, m.time ≤ newest.time := by
  induction ms with
  | nil => exact absurd rfl h
  | cons m ms ih =>
    by_cases hms : ms = []
    · subst hms
      exact ⟨m, List.mem_cons_self, fun x hx => le_of_eq (by rw [List.mem_singleton.1 hx])⟩
    · obtain ⟨newest, hmem, hnewest⟩ := ih hms
      rcases le_total m.time newest.time with hle | hle
      · refine ⟨newest, List.mem_cons_of_mem m hmem, ?_⟩
        intro x hx
        rcases List.mem_cons.1 hx with rfl | hx
        · exact hle
        · exact hnewest x hx
      · refine ⟨m, List.mem_cons_self, ?_⟩
        intro x hx
        rcases List.mem_cons.1 hx with rfl | hx
        · exact le_refl _
        · exact le_trans (hnewest x hx) hle

theorem CopSettings.retention_nonneg {s : CopSettings α} (h : 0 ≤ s.retentionMinutes) :
    0 ≤ s.retention := by
  unfold CopSettings.retention maxSpan nanosPerSecond
  dsimp only
  split <;> omega

/-! ## §2. Insertions. -/

/-- One insertion into a window. -/
inductive Insertion (α : Type) where
  /-- One sample. -/
  | one (m : Sample α)
  /-- Samples in any order. -/
  | batch (ms : List (Sample α))

/-- The samples of an insertion. -/
def Insertion.samples : Insertion α → List (Sample α)
  | .one m => [m]
  | .batch ms => ms

namespace Window

/-- The window after an insertion. -/
def insert (w : Window α) : Insertion α → Window α
  | .one m => w.add m
  | .batch ms => w.load ms

/-- The window after insertions. -/
def insertAll (w : Window α) (insertions : List (Insertion α)) : Window α :=
  insertions.foldl insert w

theorem insert_eq_load (w : Window α) (i : Insertion α) : w.insert i = w.load i.samples := by
  cases i with
  | one m => exact add_eq_load w m
  | batch ms => rfl

theorem insertAll_take_succ (w : Window α) {insertions : List (Insertion α)} {n : Nat}
    (hn : n < insertions.length) :
    w.insertAll (insertions.take (n + 1))
      = (w.insertAll (insertions.take n)).load insertions[n].samples := by
  rw [List.take_add_one, List.getElem?_eq_getElem hn, Option.toList_some, insertAll,
    List.foldl_append, ← insert_eq_load]
  rfl

/-- The samples of the window and those inserted, before any are dropped as expired. -/
def pushed (w : Window α) (ms : List (Sample α)) : List (Sample α) :=
  (w.samples.pushAll (Sample.inOrder ms)).toList

/-- Of the samples there are once `ms` is inserted, one that has expired by the last of
them stands behind one that has not. -/
def Hides (w : Window α) (ms : List (Sample α)) : Prop :=
  ∃ newest ∈ (w.pushed ms).getLast?, ¬ (w.pushed ms).Pairwise fun a b =>
    newest.expired w.settings.retention b = true → newest.expired w.settings.retention a = true

/-- One of the samples inserted has expired by a sample that was there before, and both
are kept. -/
def AdmitsLate (w : Window α) (ms : List (Sample α)) : Prop :=
  ∃ held ∈ w.samples.toList, held ∈ (w.load ms).samples.toList
    ∧ ∃ m ∈ ms, m ∈ (w.load ms).samples.toList ∧ held.expired w.settings.retention m = true

/-! ## §3. Windows within their retention. -/

/-- No sample is older than the newest one less the retention. -/
def WithinRetention (w : Window α) : Prop :=
  ∀ newest ∈ w.samples.toList, (∀ m ∈ w.samples.toList, m.time ≤ newest.time) →
    ∀ cutoff ∈ newest.time.sub? w.settings.retention, ∀ m ∈ w.samples.toList, cutoff ≤ m.time

/-- What can be said of a window in memory, whatever was inserted outside leap seconds. -/
structure InMemory (w : Window α) : Prop where
  /-- The capacity is the configured one. -/
  capacity : w.samples.capacity = some w.settings.maxMeasurements
  /-- The samples are within the capacity. -/
  fits : w.samples.toList.length ≤ w.settings.maxMeasurements
  /-- No sample is in a leap second. -/
  ordinary : ∀ m ∈ w.samples.toList, m.time.isLeap = false

theorem inMemory_ofSettings (s : CopSettings α) : (ofSettings s).InMemory :=
  ⟨rfl, Nat.zero_le _, fun _ hm => absurd hm List.not_mem_nil⟩

section

variable {w : Window α} {ms : List (Sample α)}

/-- Within the retention no sample has expired by any other. -/
theorem InMemory.withinRetention_iff_expired (h : w.InMemory) (hr : 0 ≤ w.settings.retention) :
    w.WithinRetention ↔ ∀ newer ∈ w.samples.toList, ∀ m ∈ w.samples.toList,
      newer.expired w.settings.retention m = false := by
  have hjudged {newest m : Sample α} (hnewest : newest ∈ w.samples.toList)
      (hm : m ∈ w.samples.toList) := Sample.expired_eq_false_iff (h.ordinary newest hnewest)
    (h.ordinary m hm) (Instant.countsBack_of_nonneg (h.ordinary newest hnewest) hr)
  constructor
  · intro hwithin newer hnewer m hm
    -- the newest of all judges for each of the others
    obtain ⟨newest, hmem, hnewest⟩ := Sample.exists_newest (List.ne_nil_of_mem hm)
    have hle : newer.time.linear ≤ newest.time.linear :=
      (Instant.linear_le_linear (h.ordinary newer hnewer) (h.ordinary newest hmem)).2
        (hnewest newer hnewer)
    have hfresh := (hjudged hmem hm).2 fun cutoff hcut =>
      hwithin newest hmem hnewest cutoff hcut m hm
    rw [Bool.eq_false_iff] at hfresh ⊢
    exact fun hexpired => hfresh (Sample.expired_of_le hle hexpired)
  · intro hfresh newest hmem _ cutoff hcut m hm
    exact (hjudged hmem hm).1 (hfresh newest hmem m hm) cutoff hcut

/-! ## §4. One insertion. -/

theorem InMemory.pushed_eq (h : w.InMemory) (ms : List (Sample α)) :
    w.pushed ms = (w.samples.toList ++ Sample.inOrder ms).rtake w.settings.maxMeasurements :=
  Queue.toList_pushAll h.capacity h.fits _

theorem InMemory.mem_pushed (h : w.InMemory) {m : Sample α} (hm : m ∈ w.pushed ms) :
    m ∈ w.samples.toList ∨ m ∈ ms := by
  rw [h.pushed_eq] at hm
  rcases List.mem_append.1 ((rtake_suffix _ _).mem hm) with hold | hnew
  · exact .inl hold
  · exact .inr (Sample.mem_inOrder.1 hnew)

/-- In memory it is enough that the samples inserted are outside leap seconds. -/
theorem InMemory.toList_load (h : w.InMemory) (hr : 0 ≤ w.settings.retention)
    (hms : ∀ m ∈ ms, m.time.isLeap = false) (hne : ms ≠ []) :
    (w.load ms).samples.toList = retained w.settings.retention (w.pushed ms) := by
  have hordinary : ∀ m ∈ w.pushed ms, m.time.isLeap = false := by
    intro m hm
    rcases h.mem_pushed hm with hold | hnew
    · exact h.ordinary m hold
    · exact hms m hnew
  exact Window.toList_load hr hne hordinary

theorem InMemory.load (h : w.InMemory) (hr : 0 ≤ w.settings.retention)
    (hms : ∀ m ∈ ms, m.time.isLeap = false) : (w.load ms).InMemory := by
  by_cases hne : ms = []
  · subst hne
    exact h
  · have hsuffix : (w.load ms).samples.toList <:+ w.pushed ms := by
      rw [h.toList_load hr hms hne]
      exact retained_suffix _ _
    refine ⟨?_, ?_, ?_⟩
    · rw [settings_load, capacity_load]
      exact h.capacity
    · have hle := hsuffix.length_le
      rw [h.pushed_eq, length_rtake] at hle
      rw [settings_load]
      omega
    · intro m hm
      rcases h.mem_pushed (hsuffix.mem hm) with hold | hnew
      · exact h.ordinary m hold
      · exact hms m hnew

/-- The last sample there is, once some are inserted, is the newest of these. -/
theorem InMemory.le_getLast?_pushed (h : w.InMemory) {newest m : Sample α}
    (hlast : newest ∈ (w.pushed ms).getLast?) (hm : m ∈ ms) : m.time ≤ newest.time := by
  have hin : m ∈ Sample.inOrder ms := Sample.mem_inOrder.2 hm
  have hroom : 0 < w.settings.maxMeasurements := by
    by_contra hzero
    rw [h.pushed_eq, Nat.eq_zero_of_not_pos hzero, List.rtake_zero] at hlast
    cases hlast
  -- the batch is not empty, and its last sample is the last of all
  rw [h.pushed_eq, getLast?_rtake hroom, List.getLast?_append_of_ne_nil _
    (List.ne_nil_of_mem hin)] at hlast
  exact Sample.le_getLast? (Sample.sorted_inOrder ms) hlast hin

/-- The last sample is left by an insertion, and it is the last one then. -/
theorem InMemory.getLast?_load (h : w.InMemory) (hr : 0 ≤ w.settings.retention)
    (hms : ∀ m ∈ ms, m.time.isLeap = false) (hne : ms ≠ []) :
    (w.load ms).samples.toList.getLast? = (w.pushed ms).getLast? := by
  rw [h.toList_load hr hms hne, getLast?_retained hr]

/-- An insertion hides nothing exactly if all it leaves is fresh by the last sample. -/
theorem InMemory.not_hides_iff (h : w.InMemory) (hr : 0 ≤ w.settings.retention)
    (hms : ∀ m ∈ ms, m.time.isLeap = false) (hne : ms ≠ []) :
    ¬ w.Hides ms ↔ ∀ newest ∈ (w.pushed ms).getLast?, ∀ m ∈ (w.load ms).samples.toList,
      newest.expired w.settings.retention m = false := by
  have hleft : ∀ newest ∈ (w.pushed ms).getLast?,
      ((∀ m ∈ (w.load ms).samples.toList, newest.expired w.settings.retention m = false)
        ↔ (w.pushed ms).Pairwise fun a b => newest.expired w.settings.retention b = true →
          newest.expired w.settings.retention a = true) := by
    intro newest hlast
    rw [h.toList_load hr hms hne, retained_of_getLast? hlast, forall_mem_dropWhile_iff]
  constructor
  · intro hshown newest hlast
    rw [hleft newest hlast]
    exact not_not.1 fun hnot => hshown ⟨newest, hlast, hnot⟩
  · rintro hfresh ⟨newest, hlast, hnot⟩
    exact hnot ((hleft newest hlast).1 (hfresh newest hlast))

/-- **One insertion** keeps a window within its retention exactly if it hides nothing that
has expired and admits nothing late. -/
theorem InMemory.withinRetention_load_iff (h : w.InMemory) (hr : 0 ≤ w.settings.retention)
    (hw : w.WithinRetention) (hms : ∀ m ∈ ms, m.time.isLeap = false) :
    (w.load ms).WithinRetention ↔ ¬ w.Hides ms ∧ ¬ w.AdmitsLate ms := by
  have hfresh := (h.withinRetention_iff_expired hr).1 hw
  have hloaded := (h.load hr hms).withinRetention_iff_expired (by rw [settings_load]; exact hr)
  rw [settings_load] at hloaded
  rw [hloaded]
  by_cases hne : ms = []
  · -- nothing is inserted, and nothing had expired
    subst hne
    have hpushed : w.pushed [] = w.samples.toList := by
      rw [pushed, Sample.inOrder, List.mergeSort_nil]
      rfl
    refine iff_of_true hfresh ⟨?_, ?_⟩
    · rintro ⟨newest, hlast, hnot⟩
      rw [hpushed] at hlast hnot
      apply hnot
      apply List.pairwise_of_forall_mem_list
      intro a _ b hb hexpired
      rw [hfresh newest (List.mem_of_getLast? hlast) b hb] at hexpired
      cases hexpired
    · rintro ⟨_, _, _, m, hm, _⟩
      cases hm
  · rw [h.not_hides_iff hr hms hne, ← h.getLast?_load hr hms hne]
    constructor
    · intro hall
      refine ⟨fun newest hlast => hall newest (List.mem_of_getLast? hlast), ?_⟩
      rintro ⟨held, -, hheld, m, -, hm, hexpired⟩
      rw [hall held hheld m hm] at hexpired
      cases hexpired
    · rintro ⟨hshown, hearly⟩ newer hnewer m hm
      have hthere : ∀ x ∈ (w.load ms).samples.toList, x ∈ w.samples.toList ∨ x ∈ ms := by
        intro x hx
        rw [h.toList_load hr hms hne] at hx
        exact h.mem_pushed ((retained_suffix _ _).mem hx)
      rw [Bool.eq_false_iff]
      intro hexpired
      rcases hthere newer hnewer with hold | hnew
      · -- what was there has not expired by itself, and what is new is not late
        rcases hthere m hm with hmold | hmnew
        · rw [hfresh newer hold m hmold] at hexpired
          cases hexpired
        · exact hearly ⟨newer, hold, hnewer, m, hmnew, hm, hexpired⟩
      · -- what has expired by a new sample has expired by the last of them
        obtain ⟨newest, hlast⟩ : ∃ newest, newest ∈ (w.load ms).samples.toList.getLast? :=
          ⟨_, List.getLast?_eq_some_getLast (List.ne_nil_of_mem hm)⟩
        have hordinary := (h.load hr hms).ordinary
        have hle := h.le_getLast?_pushed (by rw [← h.getLast?_load hr hms hne]; exact hlast) hnew
        rw [← Instant.linear_le_linear (hordinary newer hnewer)
          (hordinary newest (List.mem_of_getLast? hlast))] at hle
        have hgone := Sample.expired_of_le hle hexpired
        rw [hshown newest hlast m hm] at hgone
        cases hgone

end

/-! ## §5. Runs of insertions. -/

theorem inMemory_insertAll {s : CopSettings α} (hr : 0 ≤ s.retention)
    {insertions : List (Insertion α)}
    (hordinary : ∀ i ∈ insertions, ∀ m ∈ i.samples, m.time.isLeap = false) (n : Nat) :
    ((ofSettings s).insertAll (insertions.take n)).InMemory
      ∧ ((ofSettings s).insertAll (insertions.take n)).settings = s := by
  induction n with
  | zero => exact ⟨inMemory_ofSettings s, rfl⟩
  | succ n ih =>
    by_cases hn : n < insertions.length
    · rw [insertAll_take_succ _ hn, settings_load]
      exact ⟨ih.1.load (by rw [ih.2]; exact hr) (hordinary _ (List.getElem_mem hn)), ih.2⟩
    · rw [List.take_of_length_le (by omega)]
      rw [List.take_of_length_le (by omega)] at ih
      exact ih

/-- **A window is within its retention after every insertion exactly if none of them hides
a sample that has expired or admits one late**, whatever the order of the samples. -/
theorem withinRetention_iff {s : CopSettings α} (hs : 1 ≤ s.retentionMinutes)
    {insertions : List (Insertion α)}
    (hordinary : ∀ i ∈ insertions, ∀ m ∈ i.samples, m.time.isLeap = false) :
    (∀ n, ((ofSettings s).insertAll (insertions.take n)).WithinRetention)
      ↔ ∀ (n : Nat) (hn : n < insertions.length),
        ¬ ((ofSettings s).insertAll (insertions.take n)).Hides insertions[n].samples
          ∧ ¬ ((ofSettings s).insertAll (insertions.take n)).AdmitsLate insertions[n].samples := by
  have hr : 0 ≤ s.retention := CopSettings.retention_nonneg (by omega)
  have hstep (n : Nat) (hn : n < insertions.length)
      (hw : ((ofSettings s).insertAll (insertions.take n)).WithinRetention) :
      ((ofSettings s).insertAll (insertions.take (n + 1))).WithinRetention
        ↔ ¬ ((ofSettings s).insertAll (insertions.take n)).Hides insertions[n].samples
          ∧ ¬ ((ofSettings s).insertAll (insertions.take n)).AdmitsLate insertions[n].samples := by
    obtain ⟨hmemory, hsettings⟩ := inMemory_insertAll hr hordinary n
    rw [insertAll_take_succ _ hn]
    exact hmemory.withinRetention_load_iff (by rw [hsettings]; exact hr) hw
      (hordinary _ (List.getElem_mem hn))
  constructor
  · intro hall n hn
    exact (hstep n hn (hall n)).1 (hall (n + 1))
  · intro hgood n
    induction n with
    | zero =>
      -- an empty window holds nothing that is too old
      intro newest hmem
      cases hmem
    | succ n ih =>
      by_cases hn : n < insertions.length
      · exact (hstep n hn ih).2 (hgood n hn)
      · rw [List.take_of_length_le (by omega)]
        rw [List.take_of_length_le (by omega)] at ih
        exact ih

/-- A sample of one kilowatt so many seconds into the first day. -/
def kilowattAt (second : Nat) : Sample Float :=
  ⟨.ofFirstDay second, 1, 1⟩

/-- A live sample, and then history of the two minutes before it. -/
def recentHistory : List (Insertion Float) :=
  [.one (kilowattAt 120), .batch [kilowattAt 60], .one (kilowattAt 0)]

/-- History that comes late but is younger than half an hour does no harm. -/
theorem withinRetention_of_recentHistory :
    ((ofSettings .standard).insertAll (recentHistory.take 2)).WithinRetention
      ∧ ((ofSettings .standard).insertAll (recentHistory.take 3)).WithinRetention
      ∧ ((ofSettings .standard).insertAll recentHistory).samples.size = 3 := by
  have hall : ∀ n, ((ofSettings .standard).insertAll (recentHistory.take n)).WithinRetention := by
    refine (withinRetention_iff (by decide) (by decide)).2 ?_
    unfold Hides AdmitsLate
    decide +kernel
  exact ⟨hall 2, hall 3, by decide +kernel⟩

/-- **History of an hour ago that is loaded after a live sample stays in the window**,
which is to hold half an hour. -/
theorem not_withinRetention_of_oldHistory :
    ¬ ((ofSettings .standard).insertAll
      [.one (kilowattAt 3600), .batch [kilowattAt 0]]).WithinRetention := by
  intro h
  have hsamples : ((ofSettings .standard).insertAll
      [.one (kilowattAt 3600), .batch [kilowattAt 0]]).samples.toList
        = [kilowattAt 3600, kilowattAt 0] := by decide +kernel
  have hkept := h (kilowattAt 3600) (by rw [hsamples]; decide) (by rw [hsamples]; decide)
    (.ofFirstDay 1800) (by decide +kernel) (kilowattAt 0) (by rw [hsamples]; decide)
  exact absurd hkept (by decide)

end Window

end HeatMeter
