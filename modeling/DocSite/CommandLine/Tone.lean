import DocSite.Settings.Reference

/-!
# Tones

Some of what the program prints is meant to stand out or to stand back, and a
terminal shows that by colour and weight.  The program prints plain text all the
same, since it is mostly read by other programs, unless the environment insists
on colours; a terminal is never asked for.

A tone is put around a text and leaves the text itself alone, so what is printed
with colours is what is printed without, between marks that a terminal hides.
-/

namespace DocSite
namespace CommandLine

/-- How a text is meant to be read. -/
inductive Tone where
  /-- It may be passed over. -/
  | aside
  /-- It heads what follows. -/
  | heading
  /-- Something went well. -/
  | success
  /-- Something went wrong. -/
  | failure
  deriving DecidableEq, Inhabited, Repr

namespace Tone

/-- The numbers by which a terminal is told of a tone: faint, cyan and bold,
green, red. -/
def codes : Tone → List Nat
  | aside => [2]
  | heading => [36, 1]
  | success => [32]
  | failure => [31]

/-- The mark that tells a terminal of one number. -/
def mark (code : Nat) : String :=
  "\x1b[" ++ toString code ++ "m"

/-- A text in a tone, if there are colours. -/
def apply (colours : Bool) (tone : Tone) (text : String) : String :=
  if colours then String.join (tone.codes.map mark) ++ text ++ mark 0 else text

end Tone

/-- Whether the environment insists on colours. -/
def insistsOnColours (env : Environment) : Bool :=
  match env.get? "CLICOLOR_FORCE" with
  | some (.text value) => value ≠ "0"
  | some .undecodable | none => false

end CommandLine
end DocSite
