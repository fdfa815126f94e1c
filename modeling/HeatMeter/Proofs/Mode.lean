/-
  HeatMeter.Proofs.Mode
  ─────────────────────
  **ONE GRAMMAR FOR THE TEXT OF A MODE, WHOEVER READS IT.**

  A text reports a mode if it says the word of the mode, up to the case of ASCII letters
  and with blanks around it.  It reports that there is no mode if it says `none` so, or is
  blank:

      text                    a report     a mode that is needed    a report as data
      says a mode's word      the mode     the mode                 the mode
      says `none`, or blank   no mode      an error                 no mode
      anything else           an error     an error                 refused

  `ofReport_eq_some_iff` and `ofReport_eq_none_iff` are the first column; the other two
  are read off it.
-/
import HeatMeter.Data.Basic
import HeatMeter.Proofs.Text.Blank

namespace HeatMeter.Mode

open Text

/-! ## §1. Reports. -/

theorem lowerAscii_name (m : Mode) : lowerAscii m.name.toList = m.name.toList := by
  cases m <;> decide

theorem noBlank_name (m : Mode) : NoBlank m.name.toList := by
  cases m <;> exact noBlank_of_all (by decide)

theorem ofName?_name (m : Mode) : ofName? m.name.toList = some m := by
  cases m <;> decide

/-- **A word names the mode whose word it is.** -/
theorem ofName?_eq_some_iff {word : List Char} {m : Mode} :
    ofName? word = some m ↔ word = m.name.toList := by
  constructor
  · intro h
    have hname := List.find?_some (p := fun k : Mode => decide (k.name.toList = word)) h
    exact (of_decide_eq_true hname).symm
  · rintro rfl
    exact ofName?_name m

/-- **A text reports a mode exactly if it says its word.** -/
theorem ofReport_eq_some_iff (s : List Char) (m : Mode) :
    ofReport s = .ok (some m) ↔ Says s m.name.toList := by
  rw [← lowerAscii_trim_eq_iff (lowerAscii_name m) (noBlank_name m), ← ofName?_eq_some_iff]
  unfold ofReport
  dsimp only
  cases ofName? (lowerAscii (trim s)) with
  | some k => simp
  | none =>
    dsimp only
    split <;> simp

/-- **A text reports that there is no mode exactly if it is blank or says `none`.** -/
theorem ofReport_eq_none_iff (s : List Char) :
    ofReport s = .ok none ↔ AllBlank s ∨ Says s "none".toList := by
  have hsmall : lowerAscii "none".toList = "none".toList := by decide
  have hnone : NoBlank "none".toList := noBlank_of_all (by decide)
  rw [← lowerAscii_trim_eq_nil_iff, ← lowerAscii_trim_eq_iff hsmall hnone]
  unfold ofReport
  dsimp only
  cases hname : ofName? (lowerAscii (trim s)) with
  | some k =>
    -- the word of a mode is neither of the two
    rw [ofName?_eq_some_iff.1 hname]
    cases k <;> simp [name]
  | none =>
    dsimp only
    split
    next hword => exact iff_of_true rfl hword
    next hword => exact iff_of_false nofun hword

/-- **Every other text is an error.** -/
theorem exists_ofReport_error_iff (s : List Char) :
    (∃ e, ofReport s = .error e)
      ↔ (∀ m : Mode, ¬ Says s m.name.toList) ∧ ¬ (AllBlank s ∨ Says s "none".toList) := by
  rw [← ofReport_eq_none_iff]
  simp only [← ofReport_eq_some_iff]
  cases ofReport s with
  | error e => simp
  | ok mode => cases mode <;> simp

/-! ## §2. The other readers. -/

/-- A mode that is needed is a report of one. -/
theorem ofText_eq_ok_iff (s : List Char) (m : Mode) :
    ofText s = .ok m ↔ ofReport s = .ok (some m) := by
  unfold ofText
  cases ofReport s with
  | error e => simp
  | ok mode => cases mode <;> simp

/-- A report as data is what the text reports, and is refused where that is an error. -/
theorem ofReportJson?_text (s : String) :
    ofReportJson? (.text s) = (ofReport s.toList).toOption := by
  have hreport : (Json.text s).asText.map ofReport = some (ofReport s.toList) := rfl
  unfold ofReportJson?
  split
  next hnull => cases hnull
  next =>
    rw [hreport]
    cases ofReport s.toList <;> rfl

/-- **The text of a mode has one grammar.**  A report is the mode whose word it says, no
mode if it is blank or says `none`, and an error otherwise; a mode that is needed is read
from the texts of the first kind alone; and data reports a mode, none, or is refused on the
same texts. -/
theorem readers_agree (s : String) (m : Mode) :
    (ofReport s.toList = .ok (some m) ↔ Says s.toList m.name.toList)
      ∧ (ofReport s.toList = .ok none ↔ AllBlank s.toList ∨ Says s.toList "none".toList)
      ∧ ((∃ e, ofReport s.toList = .error e) ↔ (∀ k : Mode, ¬ Says s.toList k.name.toList)
        ∧ ¬ (AllBlank s.toList ∨ Says s.toList "none".toList))
      ∧ (ofText s.toList = .ok m ↔ Says s.toList m.name.toList)
      ∧ (ofReportJson? (.text s) = some (some m) ↔ Says s.toList m.name.toList)
      ∧ (ofReportJson? (.text s) = some none
        ↔ AllBlank s.toList ∨ Says s.toList "none".toList)
      ∧ (ofReportJson? (.text s) = none ↔ ∃ e, ofReport s.toList = .error e) := by
  have hsome := ofReport_eq_some_iff s.toList m
  have hnone := ofReport_eq_none_iff s.toList
  refine ⟨hsome, hnone, exists_ofReport_error_iff s.toList, ?_, ?_, ?_, ?_⟩
  · rw [ofText_eq_ok_iff, hsome]
  · rw [ofReportJson?_text, ← hsome]
    cases ofReport s.toList <;> simp [Except.toOption]
  · rw [ofReportJson?_text, ← hnone]
    cases ofReport s.toList <;> simp [Except.toOption]
  · rw [ofReportJson?_text]
    cases ofReport s.toList <;> simp [Except.toOption]

end HeatMeter.Mode
