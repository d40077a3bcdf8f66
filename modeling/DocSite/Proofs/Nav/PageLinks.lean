import DocSite.CommandLine.Run
import DocSite.Proofs.Nav.Attachment
import DocSite.Proofs.Nav.Neighbours
import DocSite.Proofs.Nav.Tree
import DocSite.Proofs.SourceFile.Links
import DocSite.Proofs.Url.Reaching

/-!
# Following the pages of a site

The pages of a site are printed with the addresses of their neighbours, as they are
written on each page.  A reader who follows them goes through the reading order as long
as no page misleads (`resolve_pageLink_iff`).

A page can be made for any file that a specification names.  The address of a page of a
document ends in a slash or has a dot in its last piece, so such a page misleads only
about a neighbour that is a file of whose name its directory or one around it is.  The
page of another file may be a name without a dot, and then it misleads about every
neighbour that lies in the same directory at the top (`exists_pageLink_astray`).
-/

namespace DocSite

open Url

namespace SourceFile

/-- **The address of a file is a path that ends well.** -/
theorem exists_url_eq {f : SourceFile} (h : f.path.LeadsDown) : ∃ front last,
    f.url = joined (front ++ [last]) ∧ AreParts front ∧ SlashFree last ∧ EndsWell front last := by
  rcases srcUri_eq_or_stands h with hempty | ⟨dirs, file, hstands⟩
  · exact ⟨[], "", by rw [url_of_srcUri_eq_empty hempty]; rfl, areLegal_nil.areParts, by decide,
      .inl rfl⟩
  · obtain ⟨front, last, hnames, hends⟩ := hstands.addressEnd_cases
    obtain ⟨hurl, hfront, hlast⟩ := hstands.url_pieces hnames
    refine ⟨_, _, hurl, hfront, hlast, ?_⟩
    rcases hends with hend | ⟨rfl, hend⟩ | ⟨hlegal, hend⟩
    · exact .inl (by rw [hend, encode_empty])
    · exact .inr (.inl ⟨rfl, by rw [hend, encode_dot]⟩)
    · exact .inr (.inr (by rw [hend]; exact areLegal_map_encode hlegal _ (by simp)))

/-- **When a link leads to a file**: the address of a file is read as a path, and what is
written there for another file is read as the address of that file, unless the one misleads
about the other. -/
theorem resolve_urlOn_iff {a b : SourceFile} (ha : a.path.LeadsDown) (hb : b.path.LeadsDown) :
    Address.ofText ("/" ++ a.url) = ⟨none, none, "/" ++ a.url, none, none⟩ ∧
      ∀ page : Address, page.path = "/" ++ a.url →
        (page.resolve (.ofText (b.urlOn a.url)) =
            ⟨page.scheme, page.authority, Address.withoutDots ("/" ++ b.url), none, none⟩ ↔
          ¬ Misleads b.url a.url) := by
  obtain ⟨front, last, hurl, hfront, hlast, -⟩ := exists_url_eq ha
  obtain ⟨goalFront, goalLast, hgoalUrl, hgoal, hgoalLast, hend⟩ := exists_url_eq hb
  have hsafePage : Safe a.url := safe_encode a.rawUrl
  have hsafe : Safe b.url := safe_encode b.rawUrl
  rw [hurl] at hsafePage
  rw [hgoalUrl] at hsafe
  rw [urlOn, hurl, hgoalUrl]
  exact ⟨ofText_slash_append_joined hfront hlast hsafePage, fun page hpage =>
    resolve_relative_iff hpage hfront hlast hgoal hgoalLast hsafe hend⟩

end SourceFile

namespace Nav

/-- The address of a page is that of a file of the catalog. -/
theorem exists_url_eq_of_page? {spec : Option Spec} {factory : PageFactory}
    {catalog filled : Catalog} {nav : Navigation} (hfactory : MakesPagesOfFiles factory)
    (h : (build spec factory catalog).value = (.ok nav, filled)) {id : PageId} {p : Page}
    (hp : nav.page? id = some p) : ∃ f ∈ catalog.files, p.url = f.url := by
  obtain ⟨title, f, hf, hcontents⟩ := (made_of_value_build h).1 p.withoutPlace
    (List.mem_map_of_mem (List.mem_of_getElem? hp))
  obtain ⟨given, hpage⟩ := hfactory title f
  obtain ⟨g, hg, hdetach⟩ := List.mem_map.1 hf
  have hurl : p.url = f.url := by
    rw [hpage] at hcontents
    simpa only [Page.withoutPlace, Page.ofFile] using congrArg Page.url hcontents
  obtain ⟨hpath, -, -, hstyle⟩ : g.path = f.path ∧ g.root = f.root ∧ g.site = f.site ∧
      g.directoryUrls = f.directoryUrls := by
    simpa [SourceFile.detach] using hdetach
  have huri : f.srcUri = g.srcUri := congrArg Path.portable hpath.symm
  exact ⟨g, hg, hurl.trans (SourceFile.url_congr huri hstyle.symm)⟩

/-- **Following the neighbours of the pages walks the reading order**, unless a page
misleads: on every page of a built navigation, the address that is printed for a
neighbour is followed to the neighbour exactly when the page does not mislead about it. -/
theorem resolve_pageLink_iff {spec : Option Spec} {factory : PageFactory}
    {catalog filled : Catalog} {nav : Navigation} (hfactory : MakesPagesOfFiles factory)
    (h : (build spec factory catalog).value = (.ok nav, filled))
    (hpaths : ∀ f ∈ catalog.files, f.path.LeadsDown) {n : Nat} {id other : PageId} {p : Page}
    (hid : nav.readingOrder[n]? = some id) (hp : nav.page? id = some p)
    (hother : other ∈ p.previous ∨ other ∈ p.next) :
    (nav.readingOrder[n + 1]? = some other ∨ 0 < n ∧ nav.readingOrder[n - 1]? = some other) ∧
      ∃ q, nav.page? other = some q ∧
        Address.ofText ("/" ++ p.url) = ⟨none, none, "/" ++ p.url, none, none⟩ ∧
        ∀ page : Address, page.path = "/" ++ p.url →
          (page.resolve (.ofText (CommandLine.pageLink nav p (some other))) =
              ⟨page.scheme, page.authority, Address.withoutDots ("/" ++ q.url), none, none⟩ ↔
            ¬ Misleads q.url p.url) := by
  obtain ⟨hprevious, hnext⟩ := neighbours_of_value_build hfactory.makesNewPages h hid hp
  have hread : nav.readingOrder[n + 1]? = some other ∨
      0 < n ∧ nav.readingOrder[n - 1]? = some other := by
    rw [hprevious, hnext] at hother
    rcases hother with hother | hother
    · split at hother
      · simp at hother
      · exact .inr ⟨Nat.pos_of_ne_zero ‹_›, hother⟩
    · exact .inl hother
  have hmem : other ∈ nav.readingOrder :=
    hread.elim List.mem_of_getElem? fun hread => List.mem_of_getElem? hread.2
  obtain ⟨q, hq⟩ := exists_page?_of_mem_readingOrder hfactory.makesNewPages h hmem
  obtain ⟨f, hf, hfile⟩ := exists_url_eq_of_page? hfactory h hp
  obtain ⟨g, hg, hgoal⟩ := exists_url_eq_of_page? hfactory h hq
  have hlink : CommandLine.pageLink nav p (some other) = g.urlOn f.url := by
    rw [CommandLine.pageLink, Option.bind_some, hq, Option.map_some, Option.getD_some, hgoal, hfile,
      SourceFile.urlOn]
  refine ⟨hread, q, hq, ?_⟩
  rw [hlink, hfile, hgoal]
  exact SourceFile.resolve_urlOn_iff (hpaths f hf) (hpaths g hg)

theorem exists_resolve_pageLink_smallSite : ∃ nav filled p q,
    (build (some smallSpec) Page.ofFile smallSite).value = (.ok nav, filled) ∧
      nav.page? ⟨1⟩ = some p ∧ nav.page? ⟨2⟩ = some q ∧ p.next = some ⟨2⟩ ∧
      CommandLine.pageLink nav p p.next = "../../logo.png" ∧
      (Address.ofText ("/" ++ p.url)).resolve (.ofText (CommandLine.pageLink nav p p.next)) =
        ⟨none, none, Address.withoutDots ("/" ++ q.url), none, none⟩ := by
  have hshown : (build (some smallSpec) Page.ofFile smallSite).value.1.toOption.map (fun nav =>
      (nav.readingOrder[1]?, ((nav.page? ⟨1⟩).map fun p =>
        (p.url, p.next, CommandLine.pageLink nav p p.next)), (nav.page? ⟨2⟩).map Page.url)) =
      some (some ⟨1⟩, some ("guide/a/", some ⟨2⟩, "../../logo.png"), some "logo.png") := by
    decide +kernel
  rcases hbuild : (build (some smallSpec) Page.ofFile smallSite).value with ⟨_ | nav, filled⟩
  · rw [hbuild] at hshown
    simp [Except.toOption] at hshown
  · rw [hbuild] at hshown
    have hpages := Option.some.inj hshown
    rw [Prod.mk.injEq, Prod.mk.injEq] at hpages
    obtain ⟨p, hp, hfields⟩ := Option.map_eq_some_iff.1 hpages.2.1
    obtain ⟨hurl, hnext, hlink⟩ : p.url = "guide/a/" ∧ p.next = some ⟨2⟩ ∧
        CommandLine.pageLink nav p p.next = "../../logo.png" := by
      simpa using hfields
    obtain ⟨-, q, hq, -, hleads⟩ := resolve_pageLink_iff (fun title f => ⟨title, rfl⟩) hbuild
      (by decide +kernel) hpages.1 hp (.inr hnext)
    have hgoal : q.url = "logo.png" := by
      have hgoal := hpages.2.2
      rw [hq] at hgoal
      exact Option.some.inj hgoal
    refine ⟨nav, filled, p, q, rfl, hp, hq, hnext, hlink, ?_⟩
    have hleads' := (hleads (Address.ofText ("/" ++ p.url)) (by rw [hurl]; decide +kernel)).2
      (by rw [hurl, hgoal]; decide +kernel)
    rw [hnext, hleads', hurl]
    rfl

/-! ## A page that misleads -/

/-- A file without an extension, and a document in the same directory. -/
def licensedSite : Catalog :=
  (Catalog.ofFiles (["a/LICENSE", "a/b.md"].map fun name =>
    .ofPath ⟨name⟩ ⟨"docs"⟩ ⟨"site"⟩ true)).value

/-- Both files, the one without an extension first. -/
def licensedSpec : Spec :=
  .list [.leaf "a/LICENSE", .leaf "a/b.md"]

/-- **The next page can be missed**: on the page of the file, the link to the document is
`../b/`, which leads out of the directory that both are in. -/
theorem exists_pageLink_astray : ∃ nav filled p q,
    (build (some licensedSpec) Page.ofFile licensedSite).value = (.ok nav, filled) ∧
      (∀ f ∈ licensedSite.files, f.path.LeadsDown) ∧
      nav.page? ⟨0⟩ = some p ∧ p.next = some ⟨1⟩ ∧ nav.page? ⟨1⟩ = some q ∧
      (Address.ofText ("/" ++ p.url)).resolve (.ofText (CommandLine.pageLink nav p p.next)) ≠
        ⟨none, none, Address.withoutDots ("/" ++ q.url), none, none⟩ := by
  have hshown :
      (build (some licensedSpec) Page.ofFile licensedSite).value.1.toOption.map (fun nav =>
      ((nav.page? ⟨0⟩).map fun p => (p.url, p.next, CommandLine.pageLink nav p p.next),
        (nav.page? ⟨1⟩).map Page.url)) =
      some (some ("a/LICENSE", some ⟨1⟩, "../b/"), some "a/b/") := by
    decide +kernel
  rcases hbuild : (build (some licensedSpec) Page.ofFile licensedSite).value with
    ⟨_ | nav, filled⟩
  · rw [hbuild] at hshown
    simp [Except.toOption] at hshown
  · rw [hbuild] at hshown
    have hpages := Option.some.inj hshown
    rw [Prod.mk.injEq] at hpages
    obtain ⟨p, hp, hfields⟩ := Option.map_eq_some_iff.1 hpages.1
    obtain ⟨q, hq, hgoal⟩ := Option.map_eq_some_iff.1 hpages.2
    obtain ⟨hurl, hnext, hlink⟩ : p.url = "a/LICENSE" ∧ p.next = some ⟨1⟩ ∧
        CommandLine.pageLink nav p p.next = "../b/" := by
      simpa using hfields
    refine ⟨nav, filled, p, q, rfl, by decide +kernel, hp, hnext, hq, ?_⟩
    rw [hlink, hurl, hgoal]
    decide +kernel

end Nav
end DocSite
