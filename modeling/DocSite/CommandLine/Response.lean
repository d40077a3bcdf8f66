import DocSite.CommandLine.Run

/-!
# The answer to a command line

What a run has done becomes what the program answers: an exit code, the result,
the lines beside it, and the file system as it is left.  A report is shown as its
level and its wording, if the filter lets it through; a report of several lines
goes on as it is.  Reports may name files, and a file may be named by characters
that steer a terminal, so those are spelled out in them.

A command line that asks for no command is answered at once: with the help or
the version it asks for, or with what is wrong with it and a code of its own.
-/

namespace DocSite
namespace CommandLine

/-- A character of a report as it is shown: one that could steer a terminal is
spelled out. -/
def shownChar (c : Char) : List Char :=
  if ['\x07', '\x08', '\x0c', '\x1b', '\x7f'].contains c then
    ['\\', 'x', JsonValue.hexDigit (c.toNat / 16), JsonValue.hexDigit (c.toNat % 16)]
  else if 0x80 ≤ c.toNat ∧ c.toNat ≤ 0x9f then
    ['\\', 'u', '\x7b', JsonValue.hexDigit (c.toNat / 16), JsonValue.hexDigit (c.toNat % 16),
      '\x7d']
  else [c]

/-- A report as it is shown. -/
def reportText (e : Event) : String :=
  e.level.label ++ " " ++ String.ofList (e.message.toList.flatMap shownChar)

/-- A notice as it is shown, if it is. -/
def Notice.shown? (filter : LogFilter) : Notice → Option String
  | logged e => if filter.shows e then some (reportText e) else none
  | told text => some text

/-- The lines that a run shows beside its result. -/
def Outcome.remarks (colours : Bool) (filter : LogFilter) (o : Outcome) : List String :=
  let texts := filter.remarks ++ o.progress.notices.filterMap (Notice.shown? filter) ++
    o.failure.toList.map fun cause => Tone.failure.apply colours ("Error: " ++ cause.message)
  texts.flatMap fun text => text.splitOn "\n"

/-- What the program answers to a command line. -/
structure Response where
  exitCode : Nat
  printed : String
  remarks : List String
  fs : FileSystem

/-- The answer of the program to a command line. -/
def respond (fs : FileSystem) (env : Environment) (arguments : List String) : Response :=
  match Invocation.ofArguments arguments with
  | .error (.usage fault) => ⟨2, "", [fault.message], fs⟩
  | .error (.help about) => ⟨0, helpText about, [], fs⟩
  | .error .version => ⟨0, versionText, [], fs⟩
  | .ok i =>
    let o := execute fs env i
    ⟨o.exitCode, o.progress.printed,
      o.remarks (insistsOnColours env) (.ofEnvironment env i.verbose), o.progress.fs⟩

end CommandLine
end DocSite
