/-!
# The four shapes of an address

An address in a navigation entry or in a link is sorted by its beginning alone,
before anybody asks what it leads to.  A scheme such as `mailto:` or an
authority such as `//host` leads out of the site; a slash starts at the site's
root; `#` stays on the page; everything else is read against the page on which
it stands.

A scheme starts with an ASCII letter, so `1st:thing` has none, and an authority
is not empty, so `///odd` is an ordinary address from the root.
-/

namespace DocSite
namespace Url

/-- Where an address leads, by its beginning. -/
inductive Kind where
  /-- Out of the site: it has a scheme or an authority. -/
  | external
  /-- From the root of the site. -/
  | rootAbsolute
  /-- To a place on the same page. -/
  | fragment
  /-- Read against the page on which it stands. -/
  | relative
  deriving DecidableEq, Inhabited, Repr

/-- The characters of a scheme behind its first letter. -/
def isSchemeChar (c : Char) : Bool :=
  c.isAlphanum || c == '+' || c == '.' || c == '-'

/-- A letter, then scheme characters, then a colon. -/
def hasScheme (url : List Char) : Bool :=
  match url with
  | [] => false
  | c :: rest => c.isAlpha && (rest.dropWhile isSchemeChar).head? == some ':'

/-- Two slashes and then a character that can begin a host. -/
def hasAuthority : List Char → Bool
  | '/' :: '/' :: c :: _ => c != '/' && c != '?' && c != '#'
  | _ => false

/-- The shape of an address. -/
def kind (url : String) : Kind :=
  if hasScheme url.toList || hasAuthority url.toList then .external
  else
    match url.toList with
    | '/' :: _ => .rootAbsolute
    | '#' :: _ => .fragment
    | _ => .relative

end Url
end DocSite
