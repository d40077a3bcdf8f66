import DocSite.CommandLine.Invocation

/-!
# Explaining the command line

The text that is printed when help is asked for: what the program or a command
does, how it is called, and one line for each command and option, with what they
are for in a column of its own.
-/

namespace DocSite
namespace CommandLine

/-- A text filled up with blanks to a width. -/
def padRight (width : Nat) (text : String) : String :=
  String.ofList (text.toList ++ List.replicate (width - text.toList.length) ' ')

/-- Lines of two columns, the second of which starts two blanks behind the
longest text of the first. -/
def columns (rows : List (String × String)) : List String :=
  let width := (rows.map fun row => row.1.length).foldl max 0
  rows.map fun (left, right) => "  " ++ padRight width left ++ "  " ++ right

/-- How an option is written. -/
def Parameter.written (p : Parameter) : String :=
  let short := match p.short? with
    | some c => String.ofList ['-', c, ',', ' ']
    | none => "    "
  short ++ "--" ++ p.long ++ (p.valueName?.map fun v => s!" <{v}>").getD ""

/-- The first line of an explanation. -/
def aboutLine : Option CommandName → String
  | none => "Tome - site structure tool"
  | some c => c.purpose

/-- The lines that explain the commands. -/
def commandLines : Option CommandName → List String
  | none =>
    let rows := CommandName.all.map fun c => (c.label, c.purpose)
    "Commands:" ::
      columns
        (rows ++ [("help", "Print this message or the help of the given subcommand(s)")]) ++ [""]
  | some _ => []

/-- The explanation of the program or of a command. -/
def helpText (about : Option CommandName) : String :=
  let usage := match about with
    | none => s!"Usage: {programName} [OPTIONS] <COMMAND>"
    | some c => s!"Usage: {programName} {c.label} [OPTIONS]"
  let options := columns ((Parameter.inScope about).map fun p => (p.written, p.purpose about))
  String.join (([aboutLine about, "", usage, ""] ++ commandLines about ++ "Options:" :: options).map
    (· ++ "\n"))

/-- The text that names the version. -/
def versionText : String :=
  s!"{programName} {programVersion}\n"

end CommandLine
end DocSite
