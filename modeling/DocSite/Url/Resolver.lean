import DocSite.Url.Kind
import DocSite.Url.Relative

/-!
# Resolving the links of a page, with a memory

Pages ask for the same relative addresses again and again, so a `Resolver`
remembers what it has worked out.  The memory must never change an answer, and
its type says so: every remembered pair comes with the address that `relative`
computes for it (`right`), and no pair is remembered twice (`distinct`).  What
can be seen of the memory is its size, the number of different pairs that were
asked for since it was last cleared.

`Resolver.resolve` is the entry for links as they are written.  Addresses that
lead out of the site, start at its root or stay on the page are answered as they
are and leave the memory alone.
-/

namespace DocSite
namespace Url

/-- The relative addresses worked out so far, latest first. -/
structure Resolver where
  memory : List ((String × String) × String)
  distinct : (memory.map Prod.fst).Nodup
  right : ∀ entry ∈ memory, entry.2 = relative entry.1.1 entry.1.2

namespace Resolver

/-- A resolver that remembers nothing. -/
def empty : Resolver :=
  ⟨[], by simp, by simp⟩

instance : Inhabited Resolver := ⟨empty⟩

/-- The number of different pairs that are remembered. -/
def size (r : Resolver) : Nat :=
  r.memory.length

/-- The remembered address of a pair. -/
def remembered? (r : Resolver) (url other : String) : Option String :=
  (r.memory.find? fun entry => entry.1 = (url, other)).map Prod.snd

/-- A pair that is not remembered may be added with its address. -/
def remember (r : Resolver) (url other : String) (h : r.remembered? url other = none) :
    Resolver where
  memory := ((url, other), relative url other) :: r.memory
  distinct := by
    have hnew : ∀ entry ∈ r.memory, entry.1 ≠ (url, other) := by
      simpa [remembered?] using h
    refine List.nodup_cons.2 ⟨?_, r.distinct⟩
    intro hmem
    obtain ⟨entry, hentry, heq⟩ := List.mem_map.1 hmem
    exact hnew entry hentry heq
  right := by
    intro entry hentry
    rcases List.mem_cons.1 hentry with rfl | hentry
    · rfl
    · exact r.right entry hentry

/-- `url` as it is written on `other`, from memory if it is there. -/
def relative (r : Resolver) (url other : String) : String × Resolver :=
  match h : r.remembered? url other with
  | some known => (known, r)
  | none => (Url.relative url other, r.remember url other h)

/-- A link as it is written on a page: kept when it does not depend on the page,
written against `page` when one is given, and put behind `base` otherwise.  An
empty link means the current directory. -/
def resolve (r : Resolver) (link : String) (page : Option String) (base : String) :
    String × Resolver :=
  let link := if link = "" then "." else link
  match kind link, page with
  | .relative, some page => r.relative link page
  | .relative, none => (under base link, r)
  | _, _ => (link, r)

end Resolver
end Url
end DocSite
