import DocSite.Proofs.SourceFile.Serving
import DocSite.Proofs.Url.Encoded
import DocSite.Proofs.Url.Remembering

/-!
# The address of a file as a link

A page may be asked for a link to a file in two ways.  The file writes its address on the
page, or its address is given to a resolver like any other link.  A resolver first asks for
the shape of what it is given, and a file may have a name like an address that leads out of
the site, such as `mailto:team`, or a path with two slashes in it.  But its address never
has such a shape (`kind_url`): no colon and no `#` is left when it is encoded, and it does
not begin with a slash.  So the two ways give the same link (`fst_resolve_url`).

What is written is the encoded form of the link between the two places on the site
(`urlOn_url_eq`), since addresses may be encoded before or after they are written relative
to one another.
-/

namespace DocSite

namespace Url

/-! ## Texts that depend on the page -/

theorem hasScheme_eq_false {url : List Char} (h : ':' ∉ url) : hasScheme url = false := by
  cases url with
  | nil => rfl
  | cons c rest =>
    have hcolon : (rest.dropWhile isSchemeChar).head? ≠ some ':' := fun hhead =>
      h (List.mem_cons_of_mem c ((List.dropWhile_sublist _).subset (List.mem_of_head? hhead)))
    rw [hasScheme, beq_eq_false_iff_ne.2 hcolon, Bool.and_false]

theorem hasAuthority_eq_false {url : List Char} (h : url.head? ≠ some '/') :
    hasAuthority url = false := by
  rw [hasAuthority]
  rintro c rest rfl
  exact absurd rfl h

/-- A text that is a path only and does not start at the root depends on the page. -/
theorem kind_of_safe {text : String} (h : Safe text) (hslash : text.toList.head? ≠ some '/') :
    kind text = .relative := by
  have hcolon : ':' ∉ text.toList := fun hmem => (h ':' hmem).1 rfl
  rw [kind, hasScheme_eq_false hcolon, hasAuthority_eq_false hslash]
  split
  · exact absurd ‹_› Bool.false_ne_true
  · split
    · rename_i heq
      exact absurd (by rw [heq]; rfl) hslash
    · rename_i heq
      exact absurd rfl (h '#' (by rw [heq]; exact List.mem_cons_self ..)).2.2
    · rfl

/-- The empty text and the current directory are written alike. -/
theorem relative_orHere (url other : String) :
    relative (orHere url) other = relative url other := by
  rw [orHere]
  split
  · rename_i hempty
    have hsteps : steps "." = steps "" := by decide
    have hslash : finalSlash "." = finalSlash "" := by decide
    rw [hempty, relative_eq, hsteps, hslash, relative_eq]
  · rfl

theorem kind_orHere {url : String} (h : kind url = .relative) : kind (orHere url) = .relative := by
  rw [orHere]
  split
  · decide
  · exact h

end Url

open Url

namespace SourceFile

/-! ## The two ways to a link -/

/-- The address of a file does not start at the root. -/
theorem head?_url_ne_slash {f : SourceFile} (h : f.path.isAbsolute = false) :
    f.url.toList.head? ≠ some '/' := by
  rcases srcUri_eq_empty_or_exists_destUri_eq h with hempty | ⟨front, last, hdest, hparts, -⟩
  · rw [url_of_srcUri_eq_empty hempty]
    decide
  · have hend : SlashFree (encode (addressEnd f.directoryUrls front last)) :=
      slashFree_encode (slashFree_addressEnd (hparts.slashFree last (by simp)) _ _)
    rw [url_eq hdest hparts, List.map_append, List.map_singleton]
    exact head?_joined_append_ne_slash (areParts_map_encode hparts.of_append_left) hend

theorem kind_url {f : SourceFile} (h : f.path.isAbsolute = false) : kind f.url = .relative :=
  kind_of_safe (safe_encode f.rawUrl) (head?_url_ne_slash h)

/-- **A resolver and a file never disagree about a link to the file**, whatever the file is
called, whatever the resolver remembers and whatever base it is given. -/
theorem fst_resolve_url {f : SourceFile} (h : f.path.isAbsolute = false) :
    kind f.url = .relative ∧ ∀ (r : Resolver) (page base : String),
      (r.resolve f.url (some page) base).1 = f.urlOn page := by
  refine ⟨kind_url h, fun r page base => ?_⟩
  rw [Resolver.fst_resolve, linkOn, if_neg (not_not.2 (kind_orHere (kind_url h)))]
  exact relative_orHere f.url page

/-- A page in a directory called `https:`, given with two slashes, whose name has the marks
of a query and of a fragment; and a resolver that remembers something. -/
theorem fst_resolve_url_likeScheme :
    let page := SourceFile.ofPath ⟨"https://é#a?b.md"⟩ ⟨"docs"⟩ ⟨"site"⟩ true
    let r := (Resolver.empty.relative "." "guide/").2
    page.url = "https%3A/%C3%A9%23a%3Fb/" ∧ kind page.url = .relative ∧
      (r.resolve "https%3A/%C3%A9%23a%3Fb/" (some "guide/") "//host").1 =
        "../https%3A/%C3%A9%23a%3Fb/" := by
  intro page r
  have hraw : page.rawUrl = "https:/é#a?b/" := by decide
  have hurl : page.url = "https%3A/%C3%A9%23a%3Fb/" := by
    rw [url, hraw]
    decide
  obtain ⟨hkind, hresolve⟩ := fst_resolve_url (f := page) (by decide)
  have hlink := hresolve r "guide/" "//host"
  rw [urlOn, hurl] at hlink
  refine ⟨hurl, hkind, hlink.trans ?_⟩
  decide

/-- **Links between files may be encoded before or after they are written**: no two texts
are encoded alike, the relative address of two encoded texts is that of the texts, encoded,
and so the link from one file to another is that between their places on the site. -/
theorem urlOn_url_eq :
    Function.Injective encode ∧
      (∀ url other : String, encode (relative url other) = relative (encode url) (encode other)) ∧
      ∀ f g : SourceFile, f.urlOn g.url = encode (relative f.rawUrl g.rawUrl) := by
  refine ⟨encode_injective, encode_relative, fun f g => ?_⟩
  rw [encode_relative, urlOn, url, url]

end SourceFile
end DocSite
