/-
  HeatMeter.Proofs.Json.Records
  ─────────────────────────────
  **A RECORD MAY BE WRITTEN LOOSELY.**

  A record is written with all its fields, those without a value as `null`.  It may be
  written otherwise and mean the same: a `null` may be left out, and truth values may
  stand anywhere under names that are no fields (`Loosened`).

      pick_record           the fields are the members with known names
      Loosened.pick         loosely written, they are found as before, but for some `null`s
      Agrees.withDefault    which their decoders do not tell from fields that are missing

  A record of simple values is written as it is and can be kept whole, whatever its
  names: `written_record` and `isKeepable_record`.
-/
import HeatMeter.Json.Decode
import HeatMeter.Json.Shape
import HeatMeter.Proofs.Json.RoundTrip

namespace HeatMeter.Json

/-! ## §1. Records of simple values. -/

/-- Neither a collection nor an integer, and nothing that is lost in writing. -/
def Simple : Json → Prop
  | .null | .bool _ => True
  | .real x => x.isFinite = true
  | .string s => s.isSome = true
  | _ => False

theorem simple_text (s : String) : Simple (text s) :=
  rfl

section

variable {x : Json} {ms : List (String × Json)}

theorem Simple.written_eq (h : Simple x) : written x = x := by
  cases x with
  | null => rfl
  | bool b => rfl
  | real y =>
    have h : y.isFinite = true := h
    rw [written, if_pos h]
  | string s =>
    obtain ⟨s, rfl⟩ := Option.isSome_iff_exists.1 h
    rfl
  | _ => exact h.elim

theorem Simple.isPlain_and_depth (h : Simple x) : x.isPlain = true ∧ x.depth = 0 := by
  cases x with
  | null => exact ⟨rfl, rfl⟩
  | bool b => exact ⟨rfl, rfl⟩
  | real y => exact ⟨h, rfl⟩
  | string s => exact ⟨h, rfl⟩
  | _ => exact h.elim

theorem record_eq (ms : List (String × Json)) :
    record ms = .object (ms.map fun m => (some m.1, m.2)) :=
  rfl

/-- **A record of simple values is written as it is.** -/
theorem written_record (h : ∀ m ∈ ms, Simple m.2) : written (record ms) = record ms := by
  suffices hmembers : writtenMembers (ms.map fun m => (some m.1, m.2))
      = ms.map fun m => (some m.1, m.2) by
    rw [record_eq, written, hmembers]
  induction ms with
  | nil => rfl
  | cons m ms ih =>
    obtain ⟨hfirst, hrest⟩ := List.forall_mem_cons.1 h
    obtain ⟨k, x⟩ := m
    rw [List.map_cons, writtenMembers, ih hrest, Simple.written_eq hfirst]
    rfl

/-- **A record of simple values can be kept whole.** -/
theorem isKeepable_record (h : ∀ m ∈ ms, Simple m.2) : (record ms).isKeepable = true := by
  suffices hmembers : plainMembers (ms.map fun m => (some m.1, m.2)) = true
      ∧ depthMembers (ms.map fun m => (some m.1, m.2)) = 0 by
    rw [isKeepable, record_eq, isPlain, depth, hmembers.1, hmembers.2]
    rfl
  induction ms with
  | nil => exact ⟨rfl, rfl⟩
  | cons m ms ih =>
    obtain ⟨hfirst, hrest⟩ := List.forall_mem_cons.1 h
    obtain ⟨k, x⟩ := m
    obtain ⟨hplain, hdepth⟩ := Simple.isPlain_and_depth hfirst
    rw [List.map_cons, plainMembers, depthMembers, hplain, hdepth, (ih hrest).1, (ih hrest).2]
    exact ⟨rfl, rfl⟩

end

/-! ## §2. Fields among members. -/

section

variable {names : List String} {ms : List (String × Json)}

/-- The members whose names are known. -/
def known (names : List String) (ms : List (String × Json)) : Fields :=
  ms.filter fun m => m.1 ∈ names

theorem known_cons_of_mem {k : String} (h : k ∈ names) (x : Json) (ms : List (String × Json)) :
    known names ((k, x) :: ms) = (k, x) :: known names ms :=
  List.filter_cons_of_pos (decide_eq_true h)

theorem known_cons_of_notMem {k : String} (h : k ∉ names) (x : Json)
    (ms : List (String × Json)) : known names ((k, x) :: ms) = known names ms :=
  List.filter_cons_of_neg (by rw [decide_eq_false h]; exact Bool.false_ne_true)

theorem lookup_known {name : String} (h : name ∈ names) (ms : List (String × Json)) :
    (known names ms).lookup name = ms.lookup name := by
  induction ms with
  | nil => rfl
  | cons m ms ih =>
    obtain ⟨k, x⟩ := m
    by_cases hname : name = k
    · rw [← hname, known_cons_of_mem h, List.lookup_cons_self, List.lookup_cons_self]
    · have hne : (name == k) = false := beq_false_of_ne hname
      by_cases hk : k ∈ names
      · rw [known_cons_of_mem hk, List.lookup_cons, List.lookup_cons, hne]
        exact ih
      · rw [known_cons_of_notMem hk, List.lookup_cons, hne]
        exact ih

theorem lookup_eq_none_of_notMem {name : String} (h : name ∉ ms.map Prod.fst) :
    ms.lookup name = none := by
  rw [List.lookup_eq_none_iff]
  intro m hm
  rw [bne_iff_ne]
  rintro rfl
  exact h (List.mem_map_of_mem hm)

/-- **The fields of a record are its members with known names**, if no such name comes
twice. -/
theorem pick_record (h : ((known names ms).map Prod.fst).Nodup) :
    pick names (ms.map fun m => (some m.1, m.2)) = some (known names ms) := by
  induction ms with
  | nil => rfl
  | cons m ms ih =>
    obtain ⟨k, x⟩ := m
    rw [List.map_cons]
    dsimp only
    by_cases hk : k ∈ names
    · rw [known_cons_of_mem hk, List.map_cons, List.nodup_cons] at h
      rw [known_cons_of_mem hk, pick, ih h.2]
      dsimp only
      rw [if_pos hk, lookup_eq_none_of_notMem h.1]
      rfl
    · rw [known_cons_of_notMem hk] at h ⊢
      rw [pick, ih h]
      dsimp only
      rw [if_neg hk]

end

/-! ## §3. Records written loosely. -/

/-- The same record written otherwise: without some of its `null`s, and with truth values
under names that are no fields. -/
inductive Loosened (names : List String) :
    List (String × Json) → List (String × Json) → Prop
  | nil : Loosened names [] []
  | keep {ms loose} (m : String × Json) (rest : Loosened names ms loose) :
    Loosened names (m :: ms) (m :: loose)
  | drop {ms loose} (name : String) (rest : Loosened names ms loose) :
    Loosened names ((name, .null) :: ms) loose
  | add {ms loose} {name : String} (b : Bool) (unknown : name ∉ names)
    (rest : Loosened names ms loose) : Loosened names ms ((name, .bool b) :: loose)

/-- The second fields say the same as the first, but a field that is `null` in the first
may be missing. -/
def Agrees (names : List String) (f g : Fields) : Prop :=
  ∀ name ∈ names, g.lookup name = f.lookup name
    ∨ (f.lookup name = some .null ∧ g.lookup name = none)

namespace Loosened

variable {names : List String} {ms loose : List (String × Json)}

protected theorem refl (names : List String) (ms : List (String × Json)) :
    Loosened names ms ms := by
  induction ms with
  | nil => exact .nil
  | cons m ms ih => exact .keep m ih

theorem simple (h : Loosened names ms loose) (hms : ∀ m ∈ ms, Simple m.2) :
    ∀ m ∈ loose, Simple m.2 := by
  induction h with
  | nil => exact hms
  | keep m _ ih =>
    obtain ⟨hfirst, hrest⟩ := List.forall_mem_cons.1 hms
    exact List.forall_mem_cons.2 ⟨hfirst, ih hrest⟩
  | drop name _ ih => exact ih (List.forall_mem_cons.1 hms).2
  | add b _ _ ih => exact List.forall_mem_cons.2 ⟨trivial, ih hms⟩

/-- No field is new, and those that are left keep their order. -/
theorem sublist (h : Loosened names ms loose) : (known names loose).Sublist (known names ms) := by
  induction h with
  | nil => exact .slnil
  | keep m _ ih =>
    obtain ⟨k, x⟩ := m
    by_cases hk : k ∈ names
    · rw [known_cons_of_mem hk, known_cons_of_mem hk]
      exact ih.cons_cons (k, x)
    · rw [known_cons_of_notMem hk, known_cons_of_notMem hk]
      exact ih
  | drop name _ ih => exact ih.trans ((List.sublist_cons_self _ _).filter _)
  | add b hunknown _ ih =>
    rw [known_cons_of_notMem hunknown]
    exact ih

/-- **A field is found as before, or it was `null` and is missing.** -/
theorem agrees (h : Loosened names ms loose) (hms : (ms.map Prod.fst).Nodup) :
    Agrees names ms loose := by
  induction h with
  | nil => exact fun _ _ => .inl rfl
  | keep m _ ih =>
    intro name hname
    obtain ⟨k, x⟩ := m
    rw [List.map_cons, List.nodup_cons] at hms
    rw [List.lookup_cons, List.lookup_cons]
    cases name == k with
    | true => exact .inl rfl
    | false => exact ih hms.2 name hname
  | @drop ms loose k _ ih =>
    intro name hname
    rw [List.map_cons, List.nodup_cons] at hms
    have hrest := ih hms.2 name hname
    by_cases hk : name = k
    · -- the `null` that was left out is the only member of its name
      rw [hk, lookup_eq_none_of_notMem hms.1] at hrest
      rw [hk, List.lookup_cons_self]
      rcases hrest with hrest | ⟨hnull, -⟩
      · exact .inr ⟨rfl, hrest⟩
      · cases hnull
    · rwa [List.lookup_cons, beq_false_of_ne hk]
  | @add ms loose k b hunknown _ ih =>
    intro name hname
    have hne : name ≠ k := fun heq => hunknown (heq ▸ hname)
    rw [List.lookup_cons, beq_false_of_ne hne]
    exact ih hms name hname

/-- **The fields of a record that is written loosely.** -/
theorem pick (h : Loosened names ms loose) (hms : (ms.map Prod.fst).Nodup) :
    ∃ f, Json.pick names (loose.map fun m => (some m.1, m.2)) = some f ∧ Agrees names ms f := by
  refine ⟨known names loose, pick_record ?_, ?_⟩
  · have hsublist : (known names loose).Sublist ms := h.sublist.trans List.filter_sublist
    exact hms.sublist (hsublist.map Prod.fst)
  · intro name hname
    rw [lookup_known hname]
    exact h.agrees hms name hname

end Loosened

/-! ## §4. Fields that may be missing. -/

namespace Agrees

variable {names : List String} {f g : Fields} {name : String} {β : Type}

/-- A decoder that takes `null` for the default does not tell the two apart. -/
theorem withDefault (h : Agrees names f g) (hname : name ∈ names) {default : β}
    {decode : Json → Option β} (hnull : decode .null = some default) :
    g.withDefault name default decode = f.withDefault name default decode := by
  unfold Fields.withDefault
  rcases h name hname with hsame | ⟨hf, hg⟩
  · rw [hsame]
  · rw [hf, hg]
    exact hnull.symm

theorem optional (h : Agrees names f g) (hname : name ∈ names) (decode : Json → Option β) :
    g.optional name decode = f.optional name decode :=
  h.withDefault hname rfl

/-- A field that has a value is found. -/
theorem required (h : Agrees names f g) (hname : name ∈ names) {x : Json}
    (hx : f.lookup name = some x) (hne : x ≠ .null) (decode : Json → Option β) :
    g.required name decode = decode x := by
  unfold Fields.required
  rcases h name hname with hsame | ⟨hf, -⟩
  · rw [hsame, hx]
    rfl
  · rw [hx] at hf
    exact absurd (Option.some.inj hf) hne

end Agrees

/-- **An optional value is read back** if each value is, and none is written as `null`. -/
theorem asOptional_ofOption {β : Type} {encode : β → Json} {decode : Json → Option β}
    {o : Option β} (h : ∀ x ∈ o, encode x ≠ .null ∧ decode (encode x) = some x) :
    asOptional decode (ofOption encode o) = some o := by
  cases o with
  | none => rfl
  | some x =>
    obtain ⟨hne, hread⟩ := h x rfl
    rw [ofOption]
    unfold asOptional
    split
    next hnull => exact absurd hnull hne
    next => rw [hread, Option.map_some]

end HeatMeter.Json
