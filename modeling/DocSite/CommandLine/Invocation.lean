import DocSite.CommandLine.Parameter
import DocSite.Settings.Load

/-!
# Reading a command line

A command line is read argument by argument from the left.  Before the command,
and again behind it, arguments are options: a long one, whose value may be
attached with an equals sign, or several short ones in one argument, the last of
which may have its value attached.  A value that is not attached is the next
argument, unless that looks like an option itself.  A lone dash is a value, and
two dashes end the options; since no command takes anything else, nothing may
follow them.

Reading stops at the first thing that decides: at a request for help or for the
version, or at the first fault.  Faults that only the whole command line shows,
such as two switches that exclude each other, come last.

What was read is kept as two lists (`Reading`), one for each side of the command,
because a parameter that is understood on both sides may be given once on each;
then the one behind the command counts.
-/

namespace DocSite
namespace CommandLine

/-- What is wrong with a command line. -/
inductive UsageFault where
  | unexpected (argument : String)
  | missingValue (p : Parameter)
  | emptyValue (p : Parameter)
  | needlessValue (p : Parameter)
  | repeated (p : Parameter)
  | conflict (p q : Parameter)
  | missingCommand
  deriving DecidableEq, Inhabited, Repr

/-- The wording of what is wrong. -/
def UsageFault.message : UsageFault → String
  | unexpected argument => s!"error: unexpected argument '{argument}' found"
  | missingValue p => s!"error: a value is required for '--{p.long}' but none was supplied"
  | emptyValue p => s!"error: a value is required for '--{p.long}' but none was supplied"
  | needlessValue p => s!"error: unexpected value for '--{p.long}' found; no more were expected"
  | repeated p => s!"error: the argument '--{p.long}' cannot be used multiple times"
  | conflict p q => s!"error: the argument '--{p.long}' cannot be used with '--{q.long}'"
  | missingCommand => "error: a command is required but one was not provided"

/-- Why a command line asks for no command. -/
inductive Halt where
  | usage (fault : UsageFault)
  | help (about : Option CommandName)
  | version
  deriving DecidableEq, Inhabited, Repr

/-- A parameter that was given, with its value if it takes one. -/
structure Given where
  parameter : Parameter
  value : String
  deriving DecidableEq, Inhabited, Repr

/-- What was read of a command line. -/
structure Reading where
  /-- The command, once it was met. -/
  command : Option CommandName
  /-- What was given before the command. -/
  before : List Given
  /-- What was given behind the command. -/
  behind : List Given
  /-- A parameter whose value is the next argument. -/
  pending : Option Parameter
  /-- Whether two dashes ended the options. -/
  ended : Bool
  /-- Whether help is asked for by name, so that only a command may follow. -/
  asksHelp : Bool
  deriving Inhabited, Repr

namespace Reading

/-- Nothing was read yet. -/
def start : Reading := ⟨none, [], [], none, false, false⟩

/-- What was given on the side of the command that is being read. -/
def here (r : Reading) : List Given :=
  if r.command.isSome then r.behind else r.before

/-- A parameter given on the side of the command that is being read. -/
def give (r : Reading) (g : Given) : Except Halt Reading :=
  if g.parameter = .help then throw (.help r.command)
  else if g.parameter = .version then throw .version
  else if g.parameter.takesValue && g.value = "" then throw (.usage (.emptyValue g.parameter))
  else if !g.parameter.isRepeatable && r.here.any (fun other => other.parameter = g.parameter) then
    throw (.usage (.repeated g.parameter))
  else
    let done := { r with pending := none }
    return if r.command.isSome then { done with behind := r.behind ++ [g] }
      else { done with before := r.before ++ [g] }

/-- A long option, with the value that is attached to it. -/
def readLong (r : Reading) (name : String) (attached : Option String) : Except Halt Reading :=
  match Parameter.ofLong? r.command name, attached with
  | none, _ => throw (.usage (.unexpected ("--" ++ name)))
  | some p, some value =>
    if p.takesValue then r.give ⟨p, value⟩ else throw (.usage (.needlessValue p))
  | some p, none => if p.takesValue then return { r with pending := some p } else r.give ⟨p, ""⟩

/-- Short options of one argument, from left to right. -/
def readShorts (r : Reading) : List Char → Except Halt Reading
  | [] => return r
  | c :: rest =>
    match Parameter.ofShort? r.command c with
    | none => throw (.usage (.unexpected (String.ofList ['-', c])))
    | some p =>
      if p.takesValue then
        match rest with
        | [] => return { r with pending := some p }
        | '=' :: value => r.give ⟨p, String.ofList value⟩
        | value => r.give ⟨p, String.ofList value⟩
      else do readShorts (← r.give ⟨p, ""⟩) rest

/-- A word that is no option and no value. -/
def readWord (r : Reading) (word : String) : Except Halt Reading :=
  match r.command, CommandName.ofLabel? word with
  | none, some c => return { r with command := some c }
  | none, none =>
    -- The help of `help` itself has nothing below it.
    if word = "help" then return { r with asksHelp := true, ended := r.asksHelp }
    else throw (.usage (.unexpected word))
  | some _, _ => throw (.usage (.unexpected word))

/-- One more argument. -/
def step (r : Reading) (argument : String) : Except Halt Reading :=
  if r.ended then throw (.usage (.unexpected argument))
  else if r.asksHelp then r.readWord argument
  else
    match r.pending, argument.toList with
    | some p, '-' :: _ :: _ => throw (.usage (.missingValue p))
    | some p, _ => r.give ⟨p, argument⟩
    | none, ['-', '-'] => return { r with ended := true }
    | none, '-' :: '-' :: long =>
      let name := long.takeWhile (· ≠ '=')
      let attached := long.drop (name.length + 1)
      r.readLong (String.ofList name)
        (if name.length < long.length then some (String.ofList attached) else none)
    | none, '-' :: c :: shorts => r.readShorts (c :: shorts)
    | none, _ => r.readWord argument

/-- The last value given for a parameter; behind the command counts more. -/
def value? (r : Reading) (p : Parameter) : Option String :=
  ((r.before ++ r.behind).reverse.find? fun g => g.parameter = p).map Given.value

/-- All values given for a parameter. -/
def values (r : Reading) (p : Parameter) : List String :=
  ((r.before ++ r.behind).filter fun g => g.parameter = p).map Given.value

/-- Whether a switch was given. -/
def has (r : Reading) (p : Parameter) : Bool :=
  (r.value? p).isSome

end Reading

/-- How a navigation is printed. -/
inductive NavView where
  | tree
  | json
  | pages
  | spec
  deriving DecidableEq, Inhabited, Repr

/-- What the program is to do. -/
inductive Command where
  | files (json : Bool)
  | nav (view : NavView)
  | copyStatic (onlyModified : Bool)
  deriving DecidableEq, Inhabited, Repr

/-- A command line that asks for a command. -/
structure Invocation where
  /-- The configuration file that is named. -/
  config : Option Path
  verbose : Bool
  overrides : Overrides
  command : Command
  deriving Inhabited, Repr

namespace Invocation

/-- The view of a navigation that the switches ask for; they exclude each
other. -/
def viewOf (r : Reading) : Except Halt NavView :=
  match r.has .json, r.has .pages, r.has .spec with
  | true, true, _ => throw (.usage (.conflict .json .pages))
  | true, false, true => throw (.usage (.conflict .json .spec))
  | false, true, true => throw (.usage (.conflict .pages .spec))
  | true, false, false => return .json
  | false, true, false => return .pages
  | false, false, true => return .spec
  | false, false, false => return .tree

/-- The command that was read, with its own switches. -/
def commandOf (r : Reading) : CommandName → Except Halt Command
  | .files => return .files (r.has .json)
  | .nav => return .nav (← viewOf r)
  | .copyStatic => return .copyStatic (r.has .dirty)

/-- What was said about the site. -/
def overridesOf (r : Reading) : Overrides where
  docsDir := (r.value? .docsDir).map Path.mk
  siteDir := (r.value? .siteDir).map Path.mk
  directoryUrls := if r.has .noDirectoryUrls then some false else none
  strict := if r.has .strict then some true else none
  themeDirs := (r.values .themeDir).map Path.mk

/-- What was read, taken as a whole. -/
def ofReading (r : Reading) : Except Halt Invocation := do
  if r.asksHelp then throw (.help r.command)
  if let some p := r.pending then throw (.usage (.missingValue p))
  match r.command with
  | none => throw (.usage .missingCommand)
  | some name =>
    return ⟨(r.value? .config).map Path.mk, r.has .verbose, overridesOf r, ← commandOf r name⟩

/-- What a command line asks for. -/
def ofArguments (arguments : List String) : Except Halt Invocation := do
  ofReading (← arguments.foldlM Reading.step .start)

end Invocation
end CommandLine
end DocSite
