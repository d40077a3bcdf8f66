import Mathlib.Data.List.Infix
import DocSite.Proofs.SourceFile.Naming
import DocSite.Proofs.Url.Following
import DocSite.Proofs.Url.Percent

/-!
# Links between the files of a site

A page links to a file with an address that is relative to its own.  Followed from the
page, such a link leads to the address of the file (`resolve_urlOn`), whatever the
names of the two: no character of a name is left that would begin a query or a scheme,
names with dots in them are not taken for directories, and `.` and `..` in the place of
a page name lead the same way on both sides.

The address of a file is its published names, encoded one by one, and only the last of
them may be written otherwise (`url_eq`): in directory style it is empty where it was
`index.html`.  Of a page, what stands there is empty or has a dot
(`encode_addressEnd_html`); of any file, it is empty, or it is `.` for the root, or
it is a name that the file has on the site (`Stands.addressEnd_cases`).
-/

namespace DocSite

open Url

namespace SourceFile

/-! ## The address of a file, piece by piece -/

/-- The last piece of an address, before it is encoded. -/
def addressEnd (directoryUrls : Bool) (front : List String) (last : String) : String :=
  if directoryUrls && last = "index.html" then
    if front = [] then "." else ""
  else last

/-- Before it is encoded, the address of a file is its published names, but for the last
of them. -/
theorem rawUrl_eq {f : SourceFile} {front : List String} {last : String}
    (hdest : f.destUri = joined (front ++ [last])) (hparts : AreParts (front ++ [last])) :
    f.rawUrl = joined (front ++ [addressEnd f.directoryUrls front last]) := by
  simp only [rawUrl, hdest, cutLast_joined hparts.slashFree, addressEnd]
  split
  · rcases eq_or_ne front [] with rfl | hne
    · simp
    · rw [if_neg (joined_ne_empty hparts.of_append_left hne), if_neg hne,
        joined_append_singleton hne, String.append_empty]
  · rfl

/-- **The address of a file is its published names, encoded one by one**, but for the
last of them. -/
theorem url_eq {f : SourceFile} {front : List String} {last : String}
    (hdest : f.destUri = joined (front ++ [last])) (hparts : AreParts (front ++ [last])) :
    f.url = joined ((front ++ [addressEnd f.directoryUrls front last]).map encode) := by
  rw [url, rawUrl_eq hdest hparts, encode_joined]

theorem slashFree_addressEnd {last : String} (h : SlashFree last) (directoryUrls : Bool)
    (front : List String) : SlashFree (addressEnd directoryUrls front last) := by
  rw [addressEnd]
  split
  · split <;> decide
  · exact h

/-- The pieces of an address can stand between slashes, and only the last of them may be
empty. -/
theorem Stands.url_pieces {f : SourceFile} {dirs : List String} {file : String}
    (h : f.Stands dirs file) {front : List String} {last : String}
    (hnames : publishedNames f.directoryUrls dirs file = front ++ [last]) :
    f.url = joined (front.map encode ++ [encode (addressEnd f.directoryUrls front last)]) ∧
      AreParts (front.map encode) ∧
      SlashFree (encode (addressEnd f.directoryUrls front last)) := by
  have hdest := h.destUri
  have hparts := h.areParts_publishedNames f.directoryUrls
  rw [hnames] at hdest hparts
  refine ⟨?_, ?_, ?_⟩
  · rw [url_eq hdest hparts, List.map_append, List.map_singleton]
  · exact areParts_map_encode hparts.of_append_left
  · exact slashFree_encode (slashFree_addressEnd (hparts.slashFree _ (by simp)) _ _)

/-- A file that no name leads to is published under none. -/
theorem destUri_of_srcUri_eq_empty {f : SourceFile} (h : f.srcUri = "") : f.destUri = "" := by
  have hkind : f.isDocumentation = false := by
    rw [isDocumentation, h]
    decide
  simp only [destUri, hkind, Bool.not_false, if_true, h]

theorem rawUrl_of_srcUri_eq_empty {f : SourceFile} (h : f.srcUri = "") : f.rawUrl = "" := by
  have hlast : (cutLast "").2 ≠ "index.html" := by decide
  simp only [rawUrl, destUri_of_srcUri_eq_empty h, decide_eq_false hlast, Bool.and_false,
    Bool.false_eq_true, if_false]

/-- A file that no name leads to has the empty address. -/
theorem url_of_srcUri_eq_empty {f : SourceFile} (h : f.srcUri = "") : f.url = "" := by
  rw [url, rawUrl_of_srcUri_eq_empty h, encode_empty]

/-- The address of a page ends in an empty piece or in one with a dot. -/
theorem encode_addressEnd_html (directoryUrls : Bool) (front : List String) (stem : String) :
    encode (addressEnd directoryUrls front (stem ++ ".html")) = "" ∨
      '.' ∈ (encode (addressEnd directoryUrls front (stem ++ ".html"))).toList := by
  rw [addressEnd]
  split
  · split
    · exact .inr (by decide)
    · exact .inl rfl
  · exact .inr (mem_encode (by simp) (by decide))

/-- Nothing in an encoded path ends a scheme or begins a query or a fragment. -/
theorem safe_encode (path : String) : Safe (encode path) := by
  intro c hc
  rcases isPlain_or_eq_percent_of_mem_encode hc with hplain | rfl
  · refine ⟨?_, ?_, ?_⟩ <;> rintro rfl <;> exact absurd hplain (by decide)
  · decide

/-! ## Pages and the files they link to -/

/-- The names before the last one of a page lead to a beginning of these, although the
last of them may be `.` or `..`. -/
theorem Stands.exists_publishedNames_page {f : SourceFile} {dirs : List String} {file : String}
    (h : f.Stands dirs file) (hmarkdown : isMarkdown file) : ∃ front stem,
      publishedNames f.directoryUrls dirs file = front ++ [stem ++ ".html"] ∧
        settled (front.map encode) <+: front.map encode := by
  have hdirs := areLegal_map_encode h.legal_dirs
  obtain ⟨last, hnames, -, hlast⟩ | ⟨-, -, -, hnames⟩ :=
    publishedNames_cases h.legal_file f.directoryUrls dirs
  · obtain ⟨stem, rfl⟩ := hlast hmarkdown
    exact ⟨dirs, stem, hnames, by rw [settled_of_areLegal hdirs]⟩
  · refine ⟨dirs ++ [pageName file], "index", by rw [hnames, List.append_assoc]; rfl, ?_⟩
    rw [List.map_append, List.map_singleton]
    exact settled_append_singleton_isPrefix hdirs _

/-- Where an address would end in `index.html`, it ends in a slash or it is that of the
root. -/
theorem addressEnd_of_index {directoryUrls : Bool} {last : String}
    (h : directoryUrls && last = "index.html") (front : List String) :
    addressEnd directoryUrls front last = "" ∨
      front = [] ∧ addressEnd directoryUrls front last = "." := by
  rw [addressEnd, if_pos h]
  split
  · exact .inr ⟨‹_›, rfl⟩
  · exact .inl rfl

/-- The address of a file ends in a slash, or it is the address of the root, or it ends
in the last of the names that the file has on the site. -/
theorem Stands.addressEnd_cases {f : SourceFile} {dirs : List String} {file : String}
    (h : f.Stands dirs file) : ∃ front last,
      publishedNames f.directoryUrls dirs file = front ++ [last] ∧
        (addressEnd f.directoryUrls front last = "" ∨
          front = [] ∧ addressEnd f.directoryUrls front last = "." ∨
          AreLegal (front ++ [last]) ∧ addressEnd f.directoryUrls front last = last) := by
  obtain ⟨last, hnames, hlast, -⟩ | ⟨-, hdirectoryUrls, -, hnames⟩ :=
    publishedNames_cases h.legal_file f.directoryUrls dirs
  · refine ⟨dirs, last, hnames, ?_⟩
    by_cases hindex : f.directoryUrls && decide (last = "index.html")
    · rw [← or_assoc]
      exact .inl (addressEnd_of_index hindex dirs)
    · exact .inr (.inr ⟨h.legal_dirs.append_singleton hlast, by rw [addressEnd, if_neg hindex]⟩)
  · refine ⟨dirs ++ [pageName file], "index.html", by rw [hnames, List.append_assoc]; rfl, ?_⟩
    rw [← or_assoc]
    exact .inl (addressEnd_of_index (by rw [hdirectoryUrls]; rfl) _)

/-- What is published beside a page does not have the name of a directory in which the
page is. -/
theorem not_prefix_of_coexist {a b : SourceFile} {front names : List String} {last : String}
    (ha : a.destUri = joined (front ++ [last])) (hb : b.destUri = joined names)
    (hne : names ≠ []) (hcoexist : ∀ rest, a.destUri ≠ b.destUri ++ "/" ++ rest) :
    ¬ names <+: front := by
  rintro ⟨rest, rfl⟩
  refine hcoexist (joined (rest ++ [last])) ?_
  rw [ha, hb, List.append_assoc, joined_append hne (by simp)]

/-- **A link leads to the file.**  The address of a page is a path, and what a page with
this path writes for a file is read as the address of the file. -/
theorem resolve_urlOn {a b : SourceFile} (hpage : a.isDocumentation) (ha : a.path.LeadsDown)
    (hb : b.path.LeadsDown) (hcoexist : ∀ rest, a.destUri ≠ b.destUri ++ "/" ++ rest) :
    Address.ofText ("/" ++ a.url) = ⟨none, none, "/" ++ a.url, none, none⟩ ∧
      ∀ page : Address, page.path = "/" ++ a.url →
        page.resolve (.ofText (b.urlOn a.url)) =
          ⟨page.scheme, page.authority, Address.withoutDots ("/" ++ b.url), none, none⟩ := by
  have hsafePage : Safe a.url := safe_encode a.rawUrl
  have hsafe : Safe b.url := safe_encode b.rawUrl
  rcases srcUri_eq_or_stands ha with hempty | ⟨dirs, file, hstands⟩
  · rw [SourceFile.isDocumentation, hempty] at hpage
    exact absurd hpage (by decide)
  rw [hstands.isDocumentation] at hpage
  obtain ⟨front, stem, hnames, hsettled⟩ := hstands.exists_publishedNames_page hpage
  obtain ⟨hurl, hfront, hlast⟩ := hstands.url_pieces hnames
  have hdirectory := encode_addressEnd_html a.directoryUrls front stem
  rw [hurl] at hsafePage
  rw [urlOn, hurl]
  refine ⟨ofText_slash_append_joined hfront hlast hsafePage, fun page haddress => ?_⟩
  rcases srcUri_eq_or_stands hb with hempty | ⟨goalDirs, goalFile, hgoalStands⟩
  · have hgoalUrl : b.url = joined ([] ++ [""]) := by
      rw [url_of_srcUri_eq_empty hempty, List.nil_append, joined_singleton]
    rw [hgoalUrl] at hsafe ⊢
    exact resolve_relative haddress hfront hlast hdirectory areLegal_nil.areParts (by decide) hsafe
      (.inl rfl)
  obtain ⟨goalFront, goalLast, hgoalNames, hends⟩ := hgoalStands.addressEnd_cases
  obtain ⟨hgoalUrl, hgoalFront, hgoalLast⟩ := hgoalStands.url_pieces hgoalNames
  rw [hgoalUrl] at hsafe ⊢
  refine resolve_relative haddress hfront hlast hdirectory hgoalFront hgoalLast hsafe ?_
  rcases hends with hend | ⟨rfl, hend⟩ | ⟨hlegal, hend⟩
  · exact .inl (by rw [hend, encode_empty])
  · exact .inr (.inl (by rw [hend, encode_dot]; decide))
  · have hencoded := areLegal_map_encode hlegal
    have hbeside := not_prefix_of_coexist (hnames ▸ hstands.destUri)
      (hgoalNames ▸ hgoalStands.destUri) (by simp) hcoexist
    rw [hend, ← List.map_singleton, ← List.map_append, settled_of_areLegal hencoded]
    exact .inr (.inr ⟨hencoded _ (by simp), fun hbegins =>
      hbeside ((List.prefix_map_iff_of_injective encode_injective).1 (hbegins.trans hsettled))⟩)

/-- A page whose name has a dot, in a directory whose name has a space, links to an
image whose name has marks that mean something in an address. -/
theorem resolve_urlOn_image :
    let page := SourceFile.ofPath ⟨"a b/v1.2.md"⟩ ⟨"docs"⟩ ⟨"site"⟩ true
    let image := SourceFile.ofPath ⟨"a b/50%:?#.png"⟩ ⟨"docs"⟩ ⟨"site"⟩ true
    image.urlOn page.url = "../50%25%3A%3F%23.png" ∧
      (Address.ofText "https://host/a%20b/v1.2/").resolve (.ofText "../50%25%3A%3F%23.png") =
        .ofText "https://host/a%20b/50%25%3A%3F%23.png" := by
  intro page image
  have hpage : page.url = "a%20b/v1.2/" := by decide +kernel
  have hlink : image.urlOn page.url = "../50%25%3A%3F%23.png" := by decide +kernel
  have hcoexist : ∀ rest, page.destUri ≠ image.destUri ++ "/" ++ rest := by
    have hdest : page.destUri = "a b/v1.2/index.html" := by decide +kernel
    have hother : image.destUri = "a b/50%:?#.png" := by decide +kernel
    intro rest heq
    rw [hdest, hother] at heq
    have hbegins : "a b/50%:?#.png/".toList <+: "a b/v1.2/index.html".toList :=
      ⟨rest.toList, by rw [heq]; simp⟩
    exact absurd hbegins (by decide)
  have hleads := (resolve_urlOn (by decide +kernel) (by decide +kernel) (by decide +kernel)
    hcoexist).2 (.ofText "https://host/a%20b/v1.2/") (by rw [hpage]; decide +kernel)
  have himage : image.url = "a%20b/50%25%3A%3F%23.png" := by decide +kernel
  rw [hlink, himage] at hleads
  refine ⟨hlink, hleads.trans ?_⟩
  cbv

end SourceFile
end DocSite
