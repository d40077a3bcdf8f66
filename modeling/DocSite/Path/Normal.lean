import DocSite.Path.Basic

/-!
# Normal paths

`Path.normalize` takes the detours out of a path by name alone, without asking
the file system: `.` goes away, and a name followed by `..` goes away together
with it.  At the root `..` has nowhere to go and is dropped; at the start of a
relative path it stays, so a normal relative path is a run of `..` followed by
names.  A path with nothing left is written `.`.

The steps are kept on a stack with the last step on top (`pushStep`), so that
the rule reads as one line per kind of step, and the result is written by
`Path.ofComponents`.

`portable` is the other reading of a path as text: its steps with one slash
between two of them, `.` left out and `..` kept.  It is how a file is named
inside a site, where the same file must have one name on every system.
-/

namespace DocSite

/-- One step taken from a place that is described by a stack of steps, the last
one on top. -/
def pushStep (stack : List Component) : Component → List Component
  | .here => stack
  | .up =>
    match stack with
    | .name _ :: below => below
    | .root :: below => .root :: below
    | _ => .up :: stack
  | .root => [.root]
  | .name text => .name text :: stack

/-- The steps that are left when every detour is taken out. -/
def normalSteps (steps : List Component) : List Component :=
  (steps.foldl pushStep []).reverse

namespace Path

/-- The same place by name, without detours. -/
def normalize (p : Path) : Path :=
  match normalSteps p.components with
  | [] => ⟨"."⟩
  | steps => ofComponents steps

/-- The steps of a path with one slash between two of them, `.` left out. -/
def portable (p : Path) : String :=
  (ofComponents (p.components.filter (· ≠ .here))).text

end Path

end DocSite
