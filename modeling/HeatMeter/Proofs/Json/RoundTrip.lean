/-
  HeatMeter.Proofs.Json.RoundTrip
  ───────────────────────────────
  **A DOCUMENT IS READ BACK, LAID OUT OR ON ONE LINE.**

  What is written is the document itself up to three losses: a real that is not finite
  is written as `null`, a string that spells no text as an empty one, and an integer
  beyond 64 bits as digits that are read as a real.  `written` is the document with
  these losses.

      Reads            a text is read as a value, whatever stands after it
      reads_laidOut    every document reads as it was written, at any level
      reads_compact    and on one line
      parse_pretty     so does a whole text that is laid out
      parse_compact    and one that is a line

  The two differ in the gaps after brackets and commas alone, so both are texts
  `enclosed` in brackets, with line breaks for gaps or with none.
-/
import HeatMeter.Proofs.Decimal.DataText
import HeatMeter.Proofs.Json.Strings

namespace HeatMeter.Json

open Text

/-! ## §1. What is written of a document. -/

mutual

/-- The document that the text of a document holds. -/
def written : Json → Json
  | .null => .null
  | .bool b => .bool b
  | .integer n => wholeNumber (decide (n < 0)) (decimal n.natAbs)
  | .real x => if x.isFinite then .real x else .null
  | .string s => text (s.getD "")
  | .array xs => .array (writtenItems xs)
  | .object ms => .object (writtenMembers ms)

/-- What is written of items. -/
def writtenItems : List Json → List Json
  | [] => []
  | x :: rest => written x :: writtenItems rest

/-- What is written of members. -/
def writtenMembers : List (Option String × Json) → List (Option String × Json)
  | [] => []
  | (k, x) :: rest => (some (k.getD ""), written x) :: writtenMembers rest

end

/-! ## §2. White space. -/

/-- Nothing but white space. -/
def IsGap (g : List Char) : Prop :=
  ∀ c ∈ g, isSpace c = true

theorem isGap_lineBreak (level : Nat) : IsGap (lineBreak level) := by
  intro c hc
  rcases List.mem_cons.1 hc with rfl | hc
  · rfl
  · rw [List.eq_of_mem_replicate hc]
    rfl

theorem skipSpace_gap {g : List Char} (hg : IsGap g) (s : List Char) :
    skipSpace (g ++ s) = skipSpace s :=
  List.dropWhile_append_of_pos hg

theorem skipSpace_cons {c : Char} (hc : isSpace c = false) (s : List Char) :
    skipSpace (c :: s) = c :: s :=
  List.dropWhile_cons_of_neg (by rw [hc]; decide)

variable {g : List Char}

theorem value_gap (hg : IsGap g) (fuel : Nat) (s : List Char) :
    value fuel (g ++ s) = value fuel s := by
  cases fuel with
  | zero => rw [value, value]
  | succ fuel => rw [value, value, skipSpace_gap hg]

theorem items_gap (hg : IsGap g) (fuel : Nat) (s : List Char) :
    items fuel (g ++ s) = items fuel s := by
  cases fuel with
  | zero => rw [items, items]
  | succ fuel => rw [items, items, value_gap hg]

theorem members_gap (hg : IsGap g) (fuel : Nat) (s : List Char) :
    members fuel (g ++ s) = members fuel s := by
  cases fuel with
  | zero => rw [members, members]
  | succ fuel => rw [members, members, skipSpace_gap hg]

/-! ## §3. Texts that are read as values. -/

/-- A text is read as a value by enough fuel, before anything that ends a number. -/
structure Reads (s : List Char) (x : Json) : Prop where
  /-- The text starts a value and no gap, and closes no array. -/
  starts : ∃ c more, s = c :: more ∧ isSpace c = false ∧ c ≠ ']'
  value : ∀ fuel, 2 * s.length ≤ fuel → ∀ rest, EndsNumber rest →
    value fuel (s ++ rest) = some (x, rest)

/-- A value whose text starts with a character, from what the reader makes of it. -/
theorem Reads.of_cons {c : Char} {s : List Char} {x : Json} (hspace : isSpace c = false)
    (hclose : c ≠ ']')
    (h : ∀ fuel, 2 * s.length ≤ fuel → ∀ rest, EndsNumber rest →
      Json.value (fuel + 1) (c :: (s ++ rest)) = some (x, rest)) : Reads (c :: s) x := by
  refine ⟨⟨c, s, rfl, hspace, hclose⟩, ?_⟩
  intro fuel hfuel rest hrest
  rw [List.length_cons] at hfuel
  obtain ⟨fuel, rfl⟩ : ∃ f, fuel = f + 1 := ⟨fuel - 1, by omega⟩
  exact h fuel (by omega) rest hrest

theorem reads_null : Reads "null".toList .null :=
  .of_cons rfl (by decide) fun _ _ _ _ => rfl

theorem reads_bool (b : Bool) : Reads (if b then "true" else "false").toList (.bool b) := by
  cases b
  · exact .of_cons rfl (by decide) fun _ _ _ _ => rfl
  · exact .of_cons rfl (by decide) fun _ _ _ _ => rfl

theorem reads_text (s : String) : Reads (quoted s.toList) (text s) := by
  refine .of_cons rfl (by decide) ?_
  intro fuel _ rest _
  show (stringBody (s.toList.flatMap escape ++ ['"'] ++ rest)).map _ = _
  rw [List.append_assoc]
  show (stringBody (s.toList.flatMap escape ++ '"' :: rest)).map _ = _
  rw [stringBody_text]
  rfl

theorem stringText_eq (s : Option String) : stringText s = quoted (s.getD "").toList := by
  cases s with
  | none => rfl
  | some s => rfl

theorem reads_stringText (s : Option String) : Reads (stringText s) (text (s.getD "")) := by
  rw [stringText_eq]
  exact reads_text _

/-- A text that starts with a digit or a sign is read as a number. -/
theorem value_number {c : Char} (hc : c.isDigit = true ∨ c = '-') (fuel : Nat)
    (s : List Char) : value (fuel + 1) (c :: s) = number (c :: s) := by
  have hother : ∀ d : Char, d.isDigit = false → d ≠ '-' → c ≠ d := by
    rintro d hd hminus rfl
    rcases hc with h | h
    · rw [hd] at h
      cases h
    · exact hminus h
  have hspace : isSpace c = false := by
    unfold isSpace
    rw [decide_eq_false (hother ' ' rfl (by decide)), decide_eq_false (hother '\n' rfl (by decide)),
      decide_eq_false (hother '\r' rfl (by decide)), decide_eq_false (hother '\t' rfl (by decide))]
    rfl
  rw [value, skipSpace_cons hspace]
  split
  all_goals first
    | rfl
    | next heq =>
      injection heq with heq _
      exact absurd heq (hother _ rfl (by decide))

theorem isSpace_of_number {c : Char} (hc : c.isDigit = true ∨ c = '-') : isSpace c = false := by
  cases hspace : isSpace c with
  | false => rfl
  | true =>
    simp only [isSpace, Bool.or_eq_true, decide_eq_true_eq] at hspace
    rcases hspace with ((rfl | rfl) | rfl) | rfl <;> simp at hc

theorem reads_number (negative : Bool) {t : NumberText} (ht : t.WellFormed) :
    Reads (Decimal.signedText negative t.text) (t.read negative) := by
  obtain ⟨c, more, hc⟩ := List.exists_cons_of_ne_nil ht.whole_ne
  have hdigit : c.isDigit = true := ht.whole c (by rw [hc]; exact List.mem_cons_self)
  obtain ⟨d, s, hd, hs⟩ : ∃ d s, (d.isDigit = true ∨ d = '-')
      ∧ Decimal.signedText negative t.text = d :: s := by
    cases negative with
    | true => exact ⟨'-', t.text, .inr rfl, rfl⟩
    | false =>
      refine ⟨c, more ++ (NumberText.fractionText t.fraction
        ++ NumberText.exponentText t.exponent), .inl hdigit, ?_⟩
      show t.text = _
      rw [NumberText.text, hc]
      rfl
  have hclose : d ≠ ']' := by
    rintro rfl
    simp at hd
  rw [hs]
  refine .of_cons (isSpace_of_number hd) hclose ?_
  intro fuel _ rest hrest
  rw [value_number hd, ← List.cons_append, ← hs]
  exact number_text ht hrest negative

/-- An integer is read as the number of its digits. -/
theorem reads_integer (n : Int) :
    Reads (signedDecimal n) (wholeNumber (decide (n < 0)) (decimal n.natAbs)) := by
  have ht : (NumberText.mk (decimal n.natAbs) none none).WellFormed := by
    refine ⟨decimal_ne_nil _, allDigits_decimal _, ?_, by simp, by simp⟩
    intro hzero
    rcases Nat.eq_zero_or_pos n.natAbs with h | h
    · rw [h]
      rfl
    · exact absurd hzero (head?_decimal h)
  have hread := reads_number (decide (n < 0)) ht
  have htext : (NumberText.mk (decimal n.natAbs) none none).text = decimal n.natAbs :=
    List.append_nil _
  rw [htext] at hread
  unfold signedDecimal
  by_cases hneg : n < 0
  · rw [if_pos hneg]
    rw [decide_eq_true hneg] at hread ⊢
    exact hread
  · rw [if_neg hneg]
    rw [decide_eq_false hneg] at hread ⊢
    exact hread

/-- A finite real is read back, and any other one is written as `null`. -/
theorem reads_real (x : Float) : Reads (realText x) (if x.isFinite then .real x else .null) := by
  unfold realText
  cases h : x.isFinite with
  | true =>
    rw [Decimal.data?_of_isFinite h, if_pos rfl, ← Decimal.read_floatNumber h]
    exact reads_number _ (Decimal.wellFormed_floatNumber x)
  | false =>
    rw [Decimal.data?_of_not_isFinite h, if_neg (by decide)]
    exact reads_null

/-! ## §4. Items and members. -/

section Collections

variable {between close : List Char}

theorem endsNumber_gap {g : List Char} {c : Char} (hg : IsGap g) (hc : c.isDigit = false)
    (hpoint : c ≠ '.') (he : c ≠ 'e') (hE : c ≠ 'E') (rest : List Char) :
    EndsNumber (g ++ c :: rest) := by
  intro d hd
  cases g with
  | nil =>
    -- without a gap the character itself ends the number
    rw [← Option.some.inj hd]
    exact ⟨hc, hpoint, he, hE⟩
  | cons d' g =>
    have hspace := hg d' List.mem_cons_self
    rw [← Option.some.inj hd]
    simp only [isSpace, Bool.or_eq_true, decide_eq_true_eq] at hspace
    rcases hspace with ((rfl | rfl) | rfl) | rfl <;> decide

theorem endsNumber_comma (rest : List Char) : EndsNumber (',' :: rest) :=
  endsNumber_gap (g := []) nofun rfl (by decide) (by decide) (by decide) rest

/-- The first of several texts, and the others after a separator. -/
theorem separated_cons (between text text' : List Char) (texts : List (List Char)) :
    separated (',' :: between) (text :: text' :: texts)
      = text ++ (',' :: (between ++ separated (',' :: between) (text' :: texts))) := by
  show text ++ (',' :: between) ++ separated (',' :: between) (text' :: texts) = _
  rw [List.append_assoc]
  rfl

/-- **Items are read up to the closing bracket.** -/
theorem items_separated (hbetween : IsGap between) (hclose : IsGap close)
    {texts : List (List Char)} {xs : List Json} (h : List.Forall₂ Reads texts xs)
    (hne : texts ≠ []) (fuel : Nat)
    (hfuel : 2 * (separated (',' :: between) texts).length < fuel) (rest : List Char) :
    items fuel (separated (',' :: between) texts ++ (close ++ ']' :: rest))
      = some (xs, rest) := by
  induction h generalizing fuel with
  | nil => exact absurd rfl hne
  | @cons text x texts xs hx hxs ih =>
    obtain ⟨fuel, rfl⟩ : ∃ f, fuel = f + 1 := ⟨fuel - 1, by omega⟩
    cases hxs with
    | nil =>
      have hends : EndsNumber (close ++ ']' :: rest) :=
        endsNumber_gap hclose rfl (by decide) (by decide) (by decide) rest
      rw [separated] at hfuel ⊢
      rw [items, hx.value fuel (by omega) _ hends]
      dsimp only
      rw [skipSpace_gap hclose]
      rfl
    | @cons text' x' texts xs hx' hxs' =>
      -- the comma and the first item are what the others need less fuel by
      have hmore := ih (by simp) fuel
      rw [separated_cons] at hfuel ⊢
      generalize separated (',' :: between) (text' :: texts) = s at hfuel hmore ⊢
      rw [List.length_append, List.length_cons, List.length_append] at hfuel
      rw [List.append_assoc, List.cons_append, items,
        hx.value fuel (by omega) _ (endsNumber_comma _)]
      show (items fuel (between ++ s ++ (close ++ ']' :: rest))).map _ = _
      rw [List.append_assoc, items_gap hbetween, hmore (by omega)]
      rfl

/-- A text is read as a member: a key, a colon, a gap and a value. -/
def ReadsMember (text : List Char) (m : Option String × Json) : Prop :=
  ∃ (key : String) (gap s : List Char), IsGap gap ∧ Reads s m.2 ∧ m.1 = some key
    ∧ text = quoted key.toList ++ ':' :: (gap ++ s)

/-- One member is read, and then what its value is followed by. -/
theorem members_member {text : List Char} {m : Option String × Json} (h : ReadsMember text m)
    {fuel : Nat} (hfuel : 2 * text.length ≤ fuel) {rest more : List Char}
    (hrest : EndsNumber rest) :
    (skipSpace rest = ',' :: more → members (fuel + 1) (text ++ rest)
        = (members fuel more).map fun (ms, rest) => (m :: ms, rest))
      ∧ (skipSpace rest = '}' :: more → members (fuel + 1) (text ++ rest) = some ([m], more)) := by
  obtain ⟨key, gap, s, hgap, hs, hkey, rfl⟩ := h
  obtain ⟨k, x⟩ := m
  have hkey : k = some key := hkey
  have hbody : quoted key.toList ++ ':' :: (gap ++ s) ++ rest
      = '"' :: (key.toList.flatMap escape ++ '"' :: ':' :: (gap ++ (s ++ rest))) := by
    simp [quoted]
  have hlength : 2 * s.length ≤ fuel := by
    simp only [List.length_append, List.length_cons] at hfuel
    omega
  rw [hbody, members, skipSpace_cons rfl, hkey]
  constructor
  · intro hcomma
    simp only [stringBody_text, skipSpace_cons (c := ':') rfl, value_gap hgap,
      hs.value fuel hlength rest hrest, hcomma]
  · intro hbrace
    simp only [stringBody_text, skipSpace_cons (c := ':') rfl, value_gap hgap,
      hs.value fuel hlength rest hrest, hbrace]

/-- **Members are read up to the closing brace.** -/
theorem members_separated (hbetween : IsGap between) (hclose : IsGap close)
    {texts : List (List Char)} {ms : List (Option String × Json)}
    (h : List.Forall₂ ReadsMember texts ms) (hne : texts ≠ []) (fuel : Nat)
    (hfuel : 2 * (separated (',' :: between) texts).length < fuel) (rest : List Char) :
    members fuel (separated (',' :: between) texts ++ (close ++ '}' :: rest))
      = some (ms, rest) := by
  induction h generalizing fuel with
  | nil => exact absurd rfl hne
  | @cons text m texts ms hm hms ih =>
    obtain ⟨fuel, rfl⟩ : ∃ f, fuel = f + 1 := ⟨fuel - 1, by omega⟩
    cases hms with
    | nil =>
      have hends : EndsNumber (close ++ '}' :: rest) :=
        endsNumber_gap hclose rfl (by decide) (by decide) (by decide) rest
      rw [separated] at hfuel ⊢
      apply (members_member hm (by omega) hends).2
      rw [skipSpace_gap hclose]
      rfl
    | @cons text' m' texts ms hm' hms' =>
      have hmore := ih (by simp) fuel
      rw [separated_cons] at hfuel ⊢
      generalize separated (',' :: between) (text' :: texts) = s at hfuel hmore ⊢
      rw [List.length_append, List.length_cons, List.length_append] at hfuel
      rw [List.append_assoc, List.cons_append,
        (members_member hm (by omega) (endsNumber_comma _)).1 (skipSpace_cons rfl _),
        List.append_assoc, members_gap hbetween, hmore (by omega)]
      rfl

end Collections

/-! ## §5. Brackets. -/

/-- Texts between brackets, with a gap after the opening one and after each comma, and
another before the closing one. -/
def enclosed (between close : List Char) (opening closing : Char) (texts : List (List Char)) :
    List Char :=
  opening :: (between ++ (separated (',' :: between) texts ++ (close ++ [closing])))

/-- A bracket that no closing one follows opens items. -/
theorem value_array {c : Char} (hg : IsGap g) (hspace : isSpace c = false) (hclose : c ≠ ']')
    (fuel : Nat) (s : List Char) :
    value (fuel + 1) ('[' :: (g ++ c :: s))
      = (items fuel (c :: s)).map fun (xs, rest) => (Json.array xs, rest) := by
  rw [value, skipSpace_cons rfl]
  simp only [skipSpace_gap hg, skipSpace_cons hspace]
  split
  next heq =>
    injection heq with heq _
    exact absurd heq hclose
  next => rfl

/-- A brace that a quote follows opens members. -/
theorem value_object (hg : IsGap g) (fuel : Nat) (s : List Char) :
    value (fuel + 1) ('{' :: (g ++ '"' :: s))
      = (members fuel ('"' :: s)).map fun (ms, rest) => (Json.object ms, rest) := by
  rw [value, skipSpace_cons rfl]
  simp only [skipSpace_gap hg, skipSpace_cons (c := '"') rfl]
  rfl

/-- Separated texts start as the first of them does. -/
theorem separated_starts (separator : List Char) (c : Char) (more : List Char)
    (texts : List (List Char)) :
    ∃ after, separated separator ((c :: more) :: texts) = c :: after := by
  cases texts with
  | nil => exact ⟨more, rfl⟩
  | cons text texts => exact ⟨_, rfl⟩

section Brackets

variable {between close : List Char}

/-- What is enclosed is read as a value if its bracket is, up to the closing one. -/
theorem reads_enclosed {opening closing : Char} {texts : List (List Char)} {x : Json}
    (hspace : isSpace opening = false) (hclose : opening ≠ ']')
    (h : ∀ fuel, 2 * (separated (',' :: between) texts).length < fuel → ∀ rest,
      value (fuel + 1) (opening :: (between ++ (separated (',' :: between) texts
        ++ (close ++ closing :: rest)))) = some (x, rest)) :
    Reads (enclosed between close opening closing texts) x := by
  refine .of_cons hspace hclose ?_
  intro fuel hfuel rest _
  simp only [List.length_append, List.length_cons] at hfuel
  simp only [List.append_assoc, List.cons_append, List.nil_append]
  exact h fuel (by omega) rest

/-- **Items between brackets are read as an array.** -/
theorem reads_array (hbetween : IsGap between) (hclose : IsGap close) {text : List Char}
    {texts : List (List Char)} {x : Json} {xs : List Json} (hx : Reads text x)
    (hxs : List.Forall₂ Reads texts xs) :
    Reads (enclosed between close '[' ']' (text :: texts)) (.array (x :: xs)) := by
  refine reads_enclosed rfl (by decide) ?_
  intro fuel hfuel rest
  have hitems := items_separated hbetween hclose (.cons hx hxs) (by simp) fuel hfuel rest
  -- the first item shows that the array is not empty
  obtain ⟨c, more, rfl, hspace, hbracket⟩ := hx.starts
  obtain ⟨after, hafter⟩ := separated_starts (',' :: between) c more texts
  rw [hafter, List.cons_append] at hitems ⊢
  rw [value_array hbetween hspace hbracket, hitems]
  rfl

/-- **Members between braces are read as an object.** -/
theorem reads_object (hbetween : IsGap between) (hclose : IsGap close) {text : List Char}
    {texts : List (List Char)} {m : Option String × Json} {ms : List (Option String × Json)}
    (hm : ReadsMember text m) (hms : List.Forall₂ ReadsMember texts ms) :
    Reads (enclosed between close '{' '}' (text :: texts)) (.object (m :: ms)) := by
  refine reads_enclosed rfl (by decide) ?_
  intro fuel hfuel rest
  have hmembers := members_separated hbetween hclose (.cons hm hms) (by simp) fuel hfuel rest
  obtain ⟨key, gap, s, -, -, -, rfl⟩ := hm
  obtain ⟨after, hafter⟩ := separated_starts (',' :: between) '"'
    (key.toList.flatMap escape ++ ['"'] ++ ':' :: (gap ++ s)) texts
  have hstart : separated (',' :: between)
      ((quoted key.toList ++ ':' :: (gap ++ s)) :: texts) = '"' :: after := hafter
  rw [hstart, List.cons_append] at hmembers ⊢
  rw [value_object hbetween, hmembers]
  rfl

end Brackets

theorem reads_emptyArray : Reads ['[', ']'] (.array []) :=
  .of_cons rfl (by decide) fun _ _ _ _ => rfl

theorem reads_emptyObject : Reads ['{', '}'] (.object []) :=
  .of_cons rfl (by decide) fun _ _ _ _ => rfl

/-! ## §6. Documents laid out over lines. -/

/-- A block of texts encloses them in line breaks. -/
theorem block_cons (level : Nat) (opening closing : Char) (text : List Char)
    (texts : List (List Char)) :
    block level opening closing (text :: texts)
      = enclosed (lineBreak (level + 1)) (lineBreak level) opening closing (text :: texts) := by
  show opening :: lineBreak (level + 1) ++ separated _ (text :: texts) ++ lineBreak level
    ++ [closing] = _
  unfold enclosed
  simp only [List.append_assoc, List.cons_append]

theorem reads_arrayBlock (level : Nat) {texts : List (List Char)} {xs : List Json}
    (h : List.Forall₂ Reads texts xs) : Reads (block level '[' ']' texts) (.array xs) := by
  cases h with
  | nil => exact reads_emptyArray
  | cons hx hxs =>
    rw [block_cons]
    exact reads_array (isGap_lineBreak _) (isGap_lineBreak _) hx hxs

theorem reads_objectBlock (level : Nat) {texts : List (List Char)}
    {ms : List (Option String × Json)} (h : List.Forall₂ ReadsMember texts ms) :
    Reads (block level '{' '}' texts) (.object ms) := by
  cases h with
  | nil => exact reads_emptyObject
  | cons hm hms =>
    rw [block_cons]
    exact reads_object (isGap_lineBreak _) (isGap_lineBreak _) hm hms

mutual

/-- **Every document reads as it was written**, at any level. -/
theorem reads_laidOut (level : Nat) : (x : Json) → Reads (laidOut level x) (written x)
  | .null => by
    rw [laidOut, written]
    exact reads_null
  | .bool b => by
    rw [laidOut, written]
    exact reads_bool b
  | .integer n => by
    rw [laidOut, written]
    exact reads_integer n
  | .real x => by
    rw [laidOut, written]
    exact reads_real x
  | .string s => by
    rw [laidOut, written]
    exact reads_stringText s
  | .array xs => by
    rw [laidOut, written]
    exact reads_arrayBlock level (reads_laidOutItems (level + 1) xs)
  | .object ms => by
    rw [laidOut, written]
    exact reads_objectBlock level (reads_laidOutMembers (level + 1) ms)

theorem reads_laidOutItems (level : Nat) :
    (xs : List Json) → List.Forall₂ Reads (laidOutItems level xs) (writtenItems xs)
  | [] => by
    rw [laidOutItems, writtenItems]
    exact .nil
  | x :: rest => by
    rw [laidOutItems, writtenItems]
    exact .cons (reads_laidOut level x) (reads_laidOutItems level rest)

theorem reads_laidOutMembers (level : Nat) : (ms : List (Option String × Json)) →
    List.Forall₂ ReadsMember (laidOutMembers level ms) (writtenMembers ms)
  | [] => by
    rw [laidOutMembers, writtenMembers]
    exact .nil
  | (k, x) :: rest => by
    rw [laidOutMembers, writtenMembers]
    refine .cons ⟨k.getD "", [' '], laidOut level x, ?_, reads_laidOut level x, rfl, ?_⟩
      (reads_laidOutMembers level rest)
    · intro c hc
      rw [List.mem_singleton.1 hc]
      rfl
    · rw [stringText_eq]
      rfl

end

/-- A text that reads as a document is one. -/
theorem Reads.parse {s : List Char} {x : Json} (h : Reads s x) : Json.parse s = some x := by
  have hread := h.value (2 * s.length + 1) (Nat.le_succ _) [] endsNumber_nil
  rw [List.append_nil] at hread
  unfold Json.parse
  rw [hread]
  rfl

/-- **A document laid out over lines is read as what was written of it.** -/
theorem parse_pretty (x : Json) : parse (pretty x) = some (written x) :=
  (reads_laidOut 0 x).parse

/-! ## §7. Documents on one line. -/

theorem reads_arrayLine {texts : List (List Char)} {xs : List Json}
    (h : List.Forall₂ Reads texts xs) :
    Reads ('[' :: separated [','] texts ++ [']']) (.array xs) := by
  cases h with
  | nil => exact reads_emptyArray
  | cons hx hxs => exact @reads_array [] [] nofun nofun _ _ _ _ hx hxs

theorem reads_objectLine {texts : List (List Char)} {ms : List (Option String × Json)}
    (h : List.Forall₂ ReadsMember texts ms) :
    Reads ('{' :: separated [','] texts ++ ['}']) (.object ms) := by
  cases h with
  | nil => exact reads_emptyObject
  | cons hm hms => exact @reads_object [] [] nofun nofun _ _ _ _ hm hms

mutual

/-- **Every document reads as it was written**, on one line. -/
theorem reads_compact : (x : Json) → Reads (compact x) (written x)
  | .null => by
    rw [compact, written]
    exact reads_null
  | .bool b => by
    rw [compact, written]
    exact reads_bool b
  | .integer n => by
    rw [compact, written]
    exact reads_integer n
  | .real x => by
    rw [compact, written]
    exact reads_real x
  | .string s => by
    rw [compact, written]
    exact reads_stringText s
  | .array xs => by
    rw [compact, written]
    exact reads_arrayLine (reads_compactItems xs)
  | .object ms => by
    rw [compact, written]
    exact reads_objectLine (reads_compactMembers ms)

theorem reads_compactItems :
    (xs : List Json) → List.Forall₂ Reads (compactItems xs) (writtenItems xs)
  | [] => by
    rw [compactItems, writtenItems]
    exact .nil
  | x :: rest => by
    rw [compactItems, writtenItems]
    exact .cons (reads_compact x) (reads_compactItems rest)

theorem reads_compactMembers : (ms : List (Option String × Json)) →
    List.Forall₂ ReadsMember (compactMembers ms) (writtenMembers ms)
  | [] => by
    rw [compactMembers, writtenMembers]
    exact .nil
  | (k, x) :: rest => by
    rw [compactMembers, writtenMembers]
    refine .cons ⟨k.getD "", [], compact x, nofun, reads_compact x, rfl, ?_⟩
      (reads_compactMembers rest)
    rw [stringText_eq]
    rfl

end

/-- **A document on one line is read as what was written of it.** -/
theorem parse_compact (x : Json) : parse (compact x) = some (written x) :=
  (reads_compact x).parse

end HeatMeter.Json
