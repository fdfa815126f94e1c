/-
  HeatMeter.Proofs.Json.Integers
  ──────────────────────────────
  **EVERY INTEGER THAT IS READ FITS 64 BITS.**

  A whole number that does not fit is read as a real.  So an integer in a record of a
  document is as small as its form says, and is a finite float where a quantity is
  asked for:

      value_fits       a value that was read
      fields_fits      the fields of a record that was read
      asFloat_finite   a quantity among them
-/
import HeatMeter.Json.Decode
import HeatMeter.Json.Reader
import HeatMeter.Proofs.Decimal.ToFloat

namespace HeatMeter.Json

/-- A document that is no integer beyond 64 bits. -/
def Fits (x : Json) : Prop :=
  ∀ n, x = .integer n → fits64 n = true

/-! ## §1. Values. -/

/-- A number is read as an integer that fits or as a real. -/
theorem number_cases {s rest : List Char} {x : Json} (h : number s = some (x, rest)) :
    (∃ n, fits64 n = true ∧ x = .integer n) ∨ ∃ r, x = .real r := by
  have hwhole (negative : Bool) (whole : List Char) :
      (∃ n, fits64 n = true ∧ wholeNumber negative whole = .integer n)
        ∨ ∃ r, wholeNumber negative whole = .real r := by
    unfold wholeNumber
    dsimp only
    generalize (if negative = true then _ else _) = signed
    split
    next hfits => exact .inl ⟨_, hfits.1, rfl⟩
    next => exact .inr ⟨_, rfl⟩
  have hunsigned : ∀ negative s, unsignedNumber negative s = some (x, rest) →
      (∃ n, fits64 n = true ∧ x = .integer n) ∨ ∃ r, x = .real r := by
    intro negative s h
    unfold unsignedNumber at h
    obtain ⟨⟨whole, s₁⟩, -, h⟩ := Option.bind_eq_some_iff.1 h
    obtain ⟨⟨fraction, s₂⟩, -, h⟩ := Option.bind_eq_some_iff.1 h
    obtain ⟨⟨exponent, s₃⟩, -, h⟩ := Option.bind_eq_some_iff.1 h
    dsimp only at h
    split at h
    next =>
      injection h with h
      injection h with h
      rw [← h]
      exact hwhole negative whole
    next =>
      injection h with h
      injection h with h
      exact .inr ⟨_, h.symm⟩
  unfold number at h
  split at h
  next => exact hunsigned true _ h
  next => exact hunsigned false _ h

/-- What a value is read as: an integer that fits, the items or members that were read
after a bracket, or neither an integer nor a collection. -/
theorem value_cases {fuel : Nat} {s rest : List Char} {x : Json}
    (h : value (fuel + 1) s = some (x, rest)) :
    (∃ n, fits64 n = true ∧ x = .integer n)
      ∨ (∃ xs, x = .array xs ∧ (xs = [] ∨ ∃ s, items fuel s = some (xs, rest)))
      ∨ (∃ ms, x = .object ms ∧ (ms = [] ∨ ∃ s, members fuel s = some (ms, rest)))
      ∨ x = .null ∨ (∃ b, x = .bool b) ∨ (∃ t, x = .string t) ∨ ∃ r, x = .real r := by
  have hmap {β : Type} {f : β → Json × List Char} {o : Option β}
      (h : o.map f = some (x, rest)) : ∃ y, x = (f y).1 := by
    obtain ⟨y, -, hy⟩ := Option.map_eq_some_iff.1 h
    exact ⟨y, congrArg Prod.fst hy.symm⟩
  rw [value] at h
  split at h
  next =>
    obtain ⟨y, hx⟩ := hmap h
    simp [hx]
  next =>
    obtain ⟨y, hx⟩ := hmap h
    simp [hx]
  next =>
    obtain ⟨y, hx⟩ := hmap h
    simp [hx]
  next =>
    obtain ⟨y, hx⟩ := hmap h
    simp [hx]
  next =>
    split at h
    next =>
      injection h with h
      injection h with h
      simp [← h]
    next more =>
      obtain ⟨⟨xs, after⟩, hxs, hr⟩ := Option.map_eq_some_iff.1 h
      injection hr with hx hafter
      rw [hafter] at hxs
      exact .inr (.inl ⟨xs, hx.symm, .inr ⟨_, hxs⟩⟩)
  next =>
    split at h
    next =>
      injection h with h
      injection h with h
      simp [← h]
    next more =>
      obtain ⟨⟨ms, after⟩, hms, hr⟩ := Option.map_eq_some_iff.1 h
      injection hr with hx hafter
      rw [hafter] at hms
      exact .inr (.inr (.inl ⟨ms, hx.symm, .inr ⟨_, hms⟩⟩))
  next =>
    rcases number_cases h with hn | hr
    · exact .inl hn
    · exact .inr (.inr (.inr (.inr (.inr (.inr hr)))))

/-- **A value that was read fits.** -/
theorem value_fits {fuel : Nat} {s rest : List Char} {x : Json}
    (h : value fuel s = some (x, rest)) : Fits x := by
  cases fuel with
  | zero => cases h
  | succ fuel =>
    intro n hn
    rcases value_cases h with ⟨m, hm, rfl⟩ | ⟨_, rfl, _⟩ | ⟨_, rfl, _⟩ | rfl | ⟨_, rfl⟩ | ⟨_, rfl⟩
      | ⟨_, rfl⟩
    · injection hn with hn
      rw [← hn]
      exact hm
    all_goals cases hn

/-! ## §2. Items and members. -/

theorem items_fits {fuel : Nat} {s rest : List Char} {xs : List Json}
    (h : items fuel s = some (xs, rest)) : ∀ x ∈ xs, Fits x := by
  induction fuel generalizing s xs rest with
  | zero => cases h
  | succ fuel ih =>
    rw [items] at h
    split at h
    next => cases h
    next x more hx =>
      split at h
      next =>
        obtain ⟨⟨ys, after⟩, hys, heq⟩ := Option.map_eq_some_iff.1 h
        injection heq with heq
        rw [← heq, List.forall_mem_cons]
        exact ⟨value_fits hx, ih hys⟩
      next =>
        injection h with h
        injection h with h
        rw [← h, List.forall_mem_singleton]
        exact value_fits hx
      next => cases h

theorem members_fits {fuel : Nat} {s rest : List Char} {ms : List (Option String × Json)}
    (h : members fuel s = some (ms, rest)) : ∀ m ∈ ms, Fits m.2 := by
  induction fuel generalizing s ms rest with
  | zero => cases h
  | succ fuel ih =>
    rw [members] at h
    split at h
    next =>
      split at h
      next => cases h
      next =>
        split at h
        next =>
          split at h
          next => cases h
          next x more hx =>
            split at h
            next =>
              obtain ⟨⟨ys, after⟩, hys, heq⟩ := Option.map_eq_some_iff.1 h
              injection heq with heq
              rw [← heq, List.forall_mem_cons]
              exact ⟨value_fits hx, ih hys⟩
            next =>
              injection h with h
              injection h with h
              rw [← h, List.forall_mem_singleton]
              exact value_fits hx
            next => cases h
        next => cases h
    next => cases h

/-- The fields that are picked are members. -/
theorem pick_fits {names : List String} {ms : List (Option String × Json)} {f : Fields}
    (h : pick names ms = some f) (hms : ∀ m ∈ ms, Fits m.2) : ∀ e ∈ f, Fits e.2 := by
  induction ms generalizing f with
  | nil =>
    injection h with h
    rw [← h]
    simp
  | cons m ms ih =>
    obtain ⟨k, x⟩ := m
    rw [List.forall_mem_cons] at hms
    cases k with
    | none => cases h
    | some k =>
      rw [pick] at h
      split at h
      next => cases h
      next found hfound =>
        have hrest := ih hfound hms.2
        split at h
        next =>
          split at h
          next => cases h
          next =>
            injection h with h
            rw [← h, List.forall_mem_cons]
            exact ⟨hms.1, hrest⟩
        next =>
          injection h with h
          rw [← h]
          exact hrest

/-- **The fields of a record that was read fit.** -/
theorem fields_fits {s : List Char} {x : Json} {c : Completeness} {names : List String}
    {f : Fields} (hx : parse s = some x) (hf : x.fields c names = some f) :
    ∀ e ∈ f, Fits e.2 := by
  unfold parse at hx
  split at hx
  next y rest hvalue =>
    have hy : y = x := by
      split at hx
      next => exact Option.some.inj hx
      next => cases hx
    rw [hy] at hvalue
    rcases value_cases hvalue with ⟨_, _, rfl⟩ | ⟨xs, rfl, hxs⟩ | ⟨ms, rfl, hms⟩ | rfl | ⟨_, rfl⟩
      | ⟨_, rfl⟩ | ⟨_, rfl⟩
    case inr.inl =>
      have hfits : ∀ x ∈ xs, Fits x := by
        rcases hxs with rfl | ⟨s, hs⟩
        · simp
        · exact items_fits hs
      rw [fields] at hf
      split at hf
      next =>
        intro e he
        rw [← Option.some.inj hf] at he
        exact hfits e.2 (List.of_mem_zip he).2
      next => cases hf
    case inr.inr.inl =>
      refine pick_fits hf ?_
      rcases hms with rfl | ⟨s, hs⟩
      · simp
      · exact members_fits hs
    all_goals cases hf
  next => cases hx

/-- **A quantity among them is finite.** -/
theorem asFloat_finite {x : Json} {y : Float} (hx : Fits x) (h : x.asFloat = some y) :
    y.isFinite = true := by
  cases x with
  | integer n =>
    rw [← Option.some.inj h]
    have hn := hx n rfl
    simp only [fits64, Bool.and_eq_true, decide_eq_true_eq] at hn
    exact FloatLaws.isFinite_ofInt (by omega)
  | real x =>
    rw [asFloat] at h
    split at h
    next hfinite =>
      rw [← Option.some.inj h]
      exact hfinite
    next => cases h
  | _ => cases h

end HeatMeter.Json
