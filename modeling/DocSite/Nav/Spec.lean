import DocSite.Json.Value

/-!
# Navigation specifications

A site may say how its pages are to be arranged.  It says so with a recursive
value of three shapes: the name of a document (or an address), a list, or a
mapping from titles to values in the order in which they are written.  A mapping
may hold a title twice; nothing is merged and nothing is lost.

The shapes are not the arrangement.  A mapping is a row of titled entries when
it stands where a list could stand, and a single titled entry when it stands
inside a list; what a value means is decided when a navigation is built from it
(`Nav.Build`).
-/

namespace DocSite
namespace Nav

/-- How the pages of a site are to be arranged. -/
inductive Spec where
  /-- A document by its path, or an address. -/
  | leaf (target : String)
  | list (items : List Spec)
  | mapping (entries : List (String × Spec))
  deriving Inhabited, Repr

namespace Spec

/-- A single titled entry, the usual shape of a list item. -/
def entry (title : String) (value : Spec) : Spec :=
  .mapping [(title, value)]

mutual
/-- Whether two specifications are the same value. -/
def decEq : (a b : Spec) → Decidable (a = b)
  | .leaf s, .leaf t =>
    if h : s = t then isTrue (h ▸ rfl) else isFalse fun e => h (Spec.leaf.inj e)
  | .list xs, .list ys =>
    match decEqList xs ys with
    | isTrue h => isTrue (h ▸ rfl)
    | isFalse h => isFalse fun e => h (Spec.list.inj e)
  | .mapping xs, .mapping ys =>
    match decEqEntries xs ys with
    | isTrue h => isTrue (h ▸ rfl)
    | isFalse h => isFalse fun e => h (Spec.mapping.inj e)
  | .leaf _, .list _ | .leaf _, .mapping _ | .list _, .leaf _ | .list _, .mapping _
  | .mapping _, .leaf _ | .mapping _, .list _ => isFalse nofun

/-- Whether two lists of specifications are the same. -/
def decEqList : (a b : List Spec) → Decidable (a = b)
  | [], [] => isTrue rfl
  | [], _ :: _ | _ :: _, [] => isFalse nofun
  | x :: xs, y :: ys =>
    match decEq x y, decEqList xs ys with
    | isTrue h, isTrue hs => isTrue (h ▸ hs ▸ rfl)
    | isFalse h, _ => isFalse fun e => h (List.cons.inj e).1
    | _, isFalse hs => isFalse fun e => hs (List.cons.inj e).2

/-- Whether two rows of titled entries are the same. -/
def decEqEntries : (a b : List (String × Spec)) → Decidable (a = b)
  | [], [] => isTrue rfl
  | [], _ :: _ | _ :: _, [] => isFalse nofun
  | (s, x) :: xs, (t, y) :: ys =>
    if ht : s = t then
      match decEq x y, decEqEntries xs ys with
      | isTrue h, isTrue hs => isTrue (ht ▸ h ▸ hs ▸ rfl)
      | isFalse h, _ => isFalse fun e => h (Prod.mk.inj (List.cons.inj e).1).2
      | _, isFalse hs => isFalse fun e => hs (List.cons.inj e).2
    else isFalse fun e => ht (Prod.mk.inj (List.cons.inj e).1).1
end

instance : DecidableEq Spec := decEq

/-! ## As JSON -/

mutual
/-- A specification as a JSON value of the same shape. -/
def toJson : Spec → JsonValue
  | .leaf target => .text target
  | .list items => .list (toJsonItems items)
  | .mapping entries => .object (toJsonEntries entries)

/-- Specifications as JSON values, in order. -/
def toJsonItems : List Spec → List JsonValue
  | [] => []
  | item :: rest => item.toJson :: toJsonItems rest

/-- Titled specifications as the fields of an object, in order. -/
def toJsonEntries : List (String × Spec) → List (String × JsonValue)
  | [] => []
  | (title, value) :: rest => (title, value.toJson) :: toJsonEntries rest
end

end Spec
end Nav
end DocSite
