/-
  HeatMeter.Proofs.Disk
  ─────────────────────
  **WHAT IS WRITTEN TO A PATH IS READ FROM IT.**

  Writing adds one file.  Every folder stays a folder, so the path leads to the same
  location as before; the location of the file becomes no folder, as a file lies above
  other locations only.

      isFolder_put     the folders after a file is put
      locate_write     the path of a file that was written leads to it
      read_write       and reads as what was written

  On two disks that differ in the content of one file every path leads to the same
  location, and reading and writing elsewhere go the same way:

      SameBut.locate   paths
      SameBut.write    a write fails on both, or leaves two such disks

  A path that can be written to ends below folders that are there, so that no folder is
  made: before and after a write the disk is the same but for one file.

      writtenAt_of_write   what a write leaves
      WrittenAt.read_iff   and what is read elsewhere
-/
import HeatMeter.Disk
import Mathlib

namespace HeatMeter

open Text.Utf8 (Bytes)

namespace Keyed

variable {κ β : Type} [DecidableEq κ]

/-- The keys after a value is put. -/
theorem any_put (p : κ → Bool) (key : κ) (x : β) (es : List (κ × β)) :
    ((put key x es).any fun e => p e.1) = ((es.any fun e => p e.1) || p key) := by
  induction es with
  | nil => rw [put, List.any_cons, List.any_nil, Bool.or_false, Bool.false_or]
  | cons e rest ih =>
    obtain ⟨k, y⟩ := e
    by_cases h : k = key
    · rw [put, if_pos h, List.any_cons, List.any_cons, h]
      generalize (rest.any fun e => p e.1) = others
      show (p key || others) = (p key || others || p key)
      cases p key <;> cases others <;> rfl
    · rw [put, if_neg h, List.any_cons, List.any_cons, ih, Bool.or_assoc]

end Keyed

namespace Disk

variable {d written : Disk} {path : String} {bytes : Bytes} {l : Location}

/-! ## §1. Folders. -/

/-- Putting a file makes folders of the locations above it, and of no other. -/
theorem isFolder_put (d : Disk) (l : Location) (bytes : Bytes) (other : Location) :
    isFolder { d with files := Keyed.put l bytes d.files } other
      = (d.isFolder other || (l ≠ other && isWithin l other)) := by
  unfold isFolder
  dsimp only
  rw [Keyed.any_put (fun f => decide (f ≠ other) && isWithin f other), Bool.or_assoc,
    Bool.or_assoc, Bool.or_assoc]

/-- **A step is taken from a folder**, by a name that is not too long. -/
theorem walk_cons_iff {k : Location} {part : String} {rest : List String} :
    d.walk k (part :: rest) = .ok l
      ↔ d.isFolder k = true ∧ ¬ longestName < part.utf8ByteSize
        ∧ d.walk (step k part) rest = .ok l := by
  rw [walk]
  cases d.isFolder k with
  | false => simp
  | true =>
    by_cases hlong : longestName < part.utf8ByteSize
    · simp [hlong]
    · simp [hlong]

/-- A walk goes on as before where there are more folders. -/
theorem walk_of_folders
    (hfolders : ∀ other, d.isFolder other = true → written.isFolder other = true)
    {start : Location} {steps : List String} (h : d.walk start steps = .ok l) :
    written.walk start steps = .ok l := by
  induction steps generalizing start with
  | nil => exact h
  | cons part rest ih =>
    obtain ⟨hfolder, hshort, hrest⟩ := walk_cons_iff.1 h
    exact walk_cons_iff.2 ⟨hfolders start hfolder, hshort, ih hrest⟩

/-! ## §2. Paths. -/

/-- A path that a file can be written to leads to a location, and there is no folder. -/
theorem write_ok (h : d.write path bytes = .ok written) :
    ∃ l, d.locate path = .ok l ∧ d.isFolder l = false
      ∧ written = { d with files := Keyed.put l bytes d.files } := by
  unfold write at h
  split at h
  next => cases h
  next l hl =>
    split at h
    next => cases h
    next hfolder =>
      refine ⟨l, ?_, by rw [← Bool.not_eq_true]; exact hfolder, (Except.ok.inj h).symm⟩
      unfold locateForWriting at hl
      unfold locate
      split at hl
      next => cases hl
      next =>
        dsimp only at hl ⊢
        split at hl
        next =>
          -- a path that ends in a stroke means a folder
          split at hl <;> cases hl
        next => exact hl

theorem content?_put (d : Disk) (l : Location) (bytes : Bytes) :
    content? { d with files := Keyed.put l bytes d.files } l = some bytes := by
  unfold content?
  rw [← Keyed.lookup_put_self l bytes d.files]
  congr 1
  exact lawful_beq_subsingleton _ _

theorem content?_put_of_ne {other : Location} (h : other ≠ l) :
    content? { d with files := Keyed.put l bytes d.files } other = d.content? other := by
  have hput := Keyed.lookup_put_of_ne h bytes d.files
  rwa [lawful_beq_subsingleton instBEqOfDecidableEq List.instBEq] at hput

theorem locate_of_folders
    (hfolders : ∀ other, d.isFolder other = true → written.isFolder other = true)
    (h : d.locate path = .ok l) : written.locate path = .ok l := by
  unfold locate at h ⊢
  split at h
  next => cases h
  next => exact walk_of_folders hfolders h

/-- The path of a file that was written leads to it, and there is no folder. -/
theorem locate_write (h : d.write path bytes = .ok written) :
    ∃ l, written.locate path = .ok l ∧ written.isFolder l = false
      ∧ written.content? l = some bytes := by
  obtain ⟨l, hl, hfolder, rfl⟩ := write_ok h
  refine ⟨l, locate_of_folders ?_ hl, ?_, content?_put d l bytes⟩
  · intro other hother
    rw [isFolder_put, hother, Bool.true_or]
  · rw [isFolder_put, hfolder, Bool.false_or]
    simp

theorem read_eq_ok_iff :
    d.read path = .ok bytes
      ↔ ∃ l, d.locate path = .ok l ∧ d.isFolder l = false ∧ d.content? l = some bytes := by
  unfold read
  cases d.locate path with
  | error fault => simp
  | ok l =>
    cases hfolder : d.isFolder l with
    | true => simp [hfolder]
    | false => cases hcontent : d.content? l <;> simp [hfolder, hcontent]

/-- **What is written to a path is read from it.** -/
theorem read_write (h : d.write path bytes = .ok written) : written.read path = .ok bytes :=
  read_eq_ok_iff.2 (locate_write h)

theorem contains_write (h : d.write path bytes = .ok written) : written.contains path = true := by
  obtain ⟨l, hl, -, hcontent⟩ := locate_write h
  unfold contains
  rw [hl]
  dsimp only
  rw [hcontent, Option.isSome_some, Bool.or_true]

/-! ## §3. Disks that differ in one file. -/

/-- The same files and folders, with the same contents but in the file at `l`. -/
structure SameBut (l : Location) (d e : Disk) : Prop where
  /-- The folders are the same. -/
  folders : ∀ k, d.isFolder k = e.isFolder k
  /-- There are files at the same locations. -/
  present : ∀ k, (d.content? k).isSome = (e.content? k).isSome
  /-- Elsewhere the contents are the same. -/
  contents : ∀ k, k ≠ l → d.content? k = e.content? k

namespace SameBut

variable {e : Disk}

theorem walk (h : SameBut l d e) (k : Location) (steps : List String) :
    d.walk k steps = e.walk k steps := by
  induction steps generalizing k with
  | nil => rfl
  | cons part rest ih => rw [Disk.walk, Disk.walk, h.folders k, h.present k, ih]

/-- A path leads to the same location on both disks. -/
theorem locate (h : SameBut l d e) (path : String) : d.locate path = e.locate path := by
  unfold Disk.locate
  simp only [h.walk]

theorem locateForWriting (h : SameBut l d e) (path : String) :
    d.locateForWriting path = e.locateForWriting path := by
  unfold Disk.locateForWriting
  simp only [h.walk]

theorem contains (h : SameBut l d e) (path : String) : d.contains path = e.contains path := by
  unfold Disk.contains
  simp only [h.locate, h.folders, h.present]

/-- A path to another location reads the same. -/
theorem read (h : SameBut l d e) (hpath : d.locate path ≠ .ok l) : d.read path = e.read path := by
  unfold Disk.read
  rw [← h.locate path]
  cases hk : d.locate path with
  | error fault => rfl
  | ok k =>
    have hkl : k ≠ l := by
      rintro rfl
      exact hpath hk
    dsimp only
    rw [h.folders k, h.contents k hkl]

theorem put (h : SameBut l d e) (k : Location) (bytes : Bytes) :
    SameBut l { d with files := Keyed.put k bytes d.files }
      { e with files := Keyed.put k bytes e.files } := by
  refine ⟨fun m => ?_, fun m => ?_, fun m hm => ?_⟩
  · rw [isFolder_put, isFolder_put, h.folders]
  · by_cases hmk : m = k
    · rw [hmk, content?_put, content?_put]
    · rw [content?_put_of_ne hmk, content?_put_of_ne hmk]
      exact h.present m
  · by_cases hmk : m = k
    · rw [hmk, content?_put, content?_put]
    · rw [content?_put_of_ne hmk, content?_put_of_ne hmk]
      exact h.contents m hm

/-- **What is written to both disks fails alike, or leaves two disks that differ in the
same file.** -/
theorem write (h : SameBut l d e) (path : String) (bytes : Bytes) :
    (∃ fault, d.write path bytes = .error fault ∧ e.write path bytes = .error fault)
      ∨ ∃ d' e', d.write path bytes = .ok d' ∧ e.write path bytes = .ok e'
        ∧ SameBut l d' e' := by
  unfold Disk.write
  rw [← h.locateForWriting path]
  cases hk : d.locateForWriting path with
  | error fault => exact .inl ⟨fault, rfl, rfl⟩
  | ok k =>
    dsimp only
    rw [← h.folders k]
    cases hfolder : d.isFolder k with
    | true => exact .inl ⟨.isFolder, rfl, rfl⟩
    | false => exact .inr ⟨_, _, rfl, rfl, h.put k bytes⟩

end SameBut

/-! ## §4. Disks before and after a write. -/

/-- Every location above this one is a folder. -/
def Below (d : Disk) (l : Location) : Prop :=
  ∀ above, above <+: l → above ≠ l → d.isFolder above = true

theorem isFolder_of_isOutside (d : Disk) (h : isOutside l = true) : d.isFolder l = true := by
  unfold isFolder
  rw [h, Bool.true_or, Bool.true_or]

theorem isOutside_of_upward {above : Location} (h : above <+: l)
    (hup : l.all (· = "..") = true) : isOutside above = true := by
  rw [List.all_eq_true] at hup
  unfold isOutside
  rw [Bool.or_eq_true, List.all_eq_true]
  exact .inr fun part hpart => hup part (h.mem hpart)

theorem start_fst (path : String) : (start path).1 = [] ∨ (start path).1 = ["/"] := by
  unfold start
  dsimp only
  split
  next => exact .inr rfl
  next => exact .inl rfl

theorem below_start (d : Disk) (path : String) : d.Below (start path).1 := by
  intro above habove hne
  have hempty : above = [] := by
    rcases start_fst path with hstart | hstart
    · rw [hstart] at habove
      exact List.prefix_nil.1 habove
    · rw [hstart] at habove hne
      have hroot : above <+: [] ++ ["/"] := habove
      rcases List.prefix_concat_iff.1 hroot with heq | hprefix
      · exact absurd heq hne
      · exact List.prefix_nil.1 hprefix
  rw [hempty]
  exact isFolder_of_isOutside d rfl

theorem Below.parent (h : d.Below l) : d.Below (parent l) := by
  unfold Disk.parent
  split
  next => exact h
  next =>
    split
    next hup =>
      -- all the way up there are folders
      have hall : (".." :: l).all (· = "..") = true := by
        rw [List.all_cons, hup]
        rfl
      intro above habove _
      exact isFolder_of_isOutside d (isOutside_of_upward habove hall)
    next =>
      intro above habove hne
      have hprefix : above <+: l := habove.trans (List.dropLast_prefix l)
      refine h above hprefix ?_
      rintro rfl
      exact hne (habove.eq_of_length_le (by rw [List.length_dropLast]; omega))

/-- A step from a folder leads to a location below folders. -/
theorem Below.step (h : d.Below l) (hfolder : d.isFolder l = true) (part : String) :
    d.Below (step l part) := by
  unfold Disk.step
  split
  next => exact h
  next =>
    split
    next => exact h.parent
    next =>
      intro above habove hne
      rcases List.prefix_concat_iff.1 habove with heq | hprefix
      · exact absurd heq hne
      · by_cases hself : above = l
        · rw [hself]
          exact hfolder
        · exact h above hprefix hself

/-- **A walk ends below folders.** -/
theorem Below.walk {k : Location} (h : d.Below k) {steps : List String}
    (hwalk : d.walk k steps = .ok l) : d.Below l := by
  induction steps generalizing k with
  | nil =>
    obtain rfl : k = l := Except.ok.inj hwalk
    exact h
  | cons part rest ih =>
    obtain ⟨hfolder, -, hrest⟩ := walk_cons_iff.1 hwalk
    exact ih (h.step hfolder part) hrest

theorem below_locate (h : d.locate path = .ok l) : d.Below l := by
  unfold locate at h
  split at h
  next => cases h
  next => exact (below_start d path).walk h

/-- The same folders, and the same files but for the one at `l`, which may be new. -/
structure WrittenAt (l : Location) (d e : Disk) : Prop where
  /-- The folders are the same. -/
  folders : ∀ k, e.isFolder k = d.isFolder k
  /-- Elsewhere there are the same files with the same contents. -/
  contents : ∀ k, k ≠ l → e.content? k = d.content? k

/-- **Writing touches one file and makes no folder.** -/
theorem writtenAt_of_write (h : d.write path bytes = .ok written) :
    ∃ l, d.locate path = .ok l ∧ WrittenAt l d written := by
  obtain ⟨l, hl, -, rfl⟩ := write_ok h
  refine ⟨l, hl, ⟨fun k => ?_, fun k hk => content?_put_of_ne hk⟩⟩
  rw [isFolder_put]
  cases hfolder : d.isFolder k with
  | true => rw [Bool.true_or]
  | false =>
    -- a location above the file was a folder before
    rw [Bool.false_or, Bool.and_eq_false_iff, decide_eq_false_iff_not, not_not]
    by_cases heq : l = k
    · exact .inl heq
    · refine .inr ?_
      rw [← Bool.not_eq_true, isWithin, List.isPrefixOf_iff_prefix]
      intro hprefix
      rw [below_locate hl k hprefix fun h => heq h.symm] at hfolder
      cases hfolder

namespace WrittenAt

variable {e : Disk}

theorem walk_iff (h : WrittenAt l d e) {k m : Location} {steps : List String} :
    e.walk k steps = .ok m ↔ d.walk k steps = .ok m := by
  induction steps generalizing k with
  | nil => rfl
  | cons part rest ih => rw [walk_cons_iff, walk_cons_iff, h.folders k, ih]

/-- A path leads to the same location before and after. -/
theorem locate_iff (h : WrittenAt l d e) {path : String} {m : Location} :
    e.locate path = .ok m ↔ d.locate path = .ok m := by
  unfold Disk.locate
  split
  next => rfl
  next => exact h.walk_iff

/-- **A path that does not lead to the file reads the same before and after.** -/
theorem read_iff (h : WrittenAt l d e) (hpath : d.locate path ≠ .ok l) {bytes : Bytes} :
    e.read path = .ok bytes ↔ d.read path = .ok bytes := by
  rw [read_eq_ok_iff, read_eq_ok_iff]
  apply exists_congr
  intro k
  rw [h.locate_iff, h.folders k]
  apply and_congr_right
  intro hk
  have hkl : k ≠ l := by
    rintro rfl
    exact hpath hk
  rw [h.contents k hkl]

end WrittenAt

end Disk

end HeatMeter
