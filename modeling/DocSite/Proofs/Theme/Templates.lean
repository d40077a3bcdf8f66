import DocSite.Proofs.Theme.Candidates

/-!
# Templates without wildcards

A template in which no wildcard stands describes one text, and that is the template itself
(`Glob.isMatch_iff_of_isLiteral`).  The path of a file is put into small letters before the
patterns are tried on it, but the templates stay as they are written.  So a template in
small letters keeps back every path that is the same but for the case of its letters, the
template itself among them; and one in which a letter is not small keeps back none of these:
whether such a path is published is decided by the other patterns
(`ThemeFilter.accepts_of_isLiteral`).  A template `Sitemap.xml` is copied as it is
(`ThemeFilter.exists_accepts_template`).
-/

namespace DocSite

namespace Glob

/-- A text in which no wildcard stands. -/
def IsLiteral (text : String) : Prop :=
  ∀ c ∈ text.toList, c ≠ '?' ∧ c ≠ '*' ∧ c ≠ '['

-- looked for in the text; there are instances that go through all characters
instance (text : String) : Decidable (IsLiteral text) :=
  List.decidableBAll (fun c => c ≠ '?' ∧ c ≠ '*' ∧ c ≠ '[') text.toList

variable {text : String}

/-- Without wildcards every character stands for itself. -/
theorem tokensFrom_of_literal {text : List Char} (h : ∀ c ∈ text, c ≠ '?' ∧ c ≠ '*' ∧ c ≠ '[')
    (position : Nat) (before : Option Char) :
    tokensFrom position before text = .ok (text.map .char) := by
  induction text generalizing position before with
  | nil => rw [tokensFrom]; rfl
  | cons c rest ih =>
    obtain ⟨⟨hany, hstar, hbracket⟩, hrest⟩ := List.forall_mem_cons.1 h
    rw [tokensFrom]
    · rw [ih hrest]
      rfl
    all_goals simp [hany, hstar, hbracket]

theorem ofText_of_isLiteral (h : IsLiteral text) : ofText text = .ok ⟨text.toList.map .char⟩ := by
  rw [ofText, tokensFrom_of_literal h]
  rfl

theorem attempt_chars_eq_matched_iff {word text : List Char} :
    attempt (word.map .char) text = .matched ↔ text = word := by
  induction word generalizing text with
  | nil => cases text <;> simp [attempt]
  | cons c word ih =>
    cases text with
    | nil => simp [attempt]
    | cons d text =>
      rw [List.map_cons, attempt, List.cons.injEq, ← ih]
      · by_cases hsame : d = c <;> simp [Token.accepts, hsame]
      all_goals simp

/-- **A text without wildcards describes itself and nothing else.** -/
theorem isMatch_iff_of_isLiteral {path : String} :
    isMatch ⟨text.toList.map .char⟩ path = true ↔ path = text := by
  rw [isMatch, decide_eq_true_iff, attempt_chars_eq_matched_iff, String.toList_inj]

end Glob

namespace ThemeFilter

variable {templates : List String} {filter : ThemeFilter} {path : String}

theorem exists_ofText_of_ofTemplates (h : ofTemplates templates = .ok filter) {template : String}
    (htemplate : template ∈ templates) : ∃ glob, Glob.ofText template = .ok glob := by
  rw [ofTemplates, bind_eq_ok_iff] at h
  obtain ⟨refused, hrefused, -⟩ := h
  obtain ⟨glob, hglob⟩ := exists_mapM_eq_ok_iff.1 ⟨refused, hrefused⟩ template
    (List.mem_append_right _ htemplate)
  exact ⟨glob, readPattern_eq_ok_iff.1 hglob⟩

/-- A template in small letters keeps back what is the same but for the case of letters. -/
theorem accepts_eq_false_of_isLiteral (h : ofTemplates templates = .ok filter)
    {template : String} (htemplate : template ∈ templates) (hliteral : Glob.IsLiteral template)
    (hpath : Case.lower path = template) : filter.accepts path = false := by
  rw [← Bool.not_eq_true, accepts_iff h]
  intro hall
  have hdiffers := hall template (List.mem_append_right _ htemplate) _
    (Glob.ofText_of_isLiteral hliteral)
  rw [Glob.isMatch_iff_of_isLiteral.2 hpath] at hdiffers
  cases hdiffers

/-- **What a template without wildcards keeps back.**  If it is in small letters, no path
that is the same but for the case of letters is published, and themes add none.  If it is
not, then such a path is published exactly when it is published without the template. -/
theorem accepts_of_isLiteral (search : ThemeSearch) (template : String)
    (h : ofTemplates search.templates = .ok filter) (htemplate : template ∈ search.templates)
    (hliteral : Glob.IsLiteral template) :
    (Case.lower template = template →
      (∀ path, Case.lower path = Case.lower template → filter.accepts path = false) ∧
      ∀ fs c candidates journal, Catalog.addThemeFiles fs search candidates c = .ok journal →
        ∃ added, journal.value.2.files = c.files ++ added ∧
          ∀ f ∈ added, Case.lower f.path.text ≠ Case.lower template) ∧
    (Case.lower template ≠ template →
      ∃ others, ofTemplates (search.templates.filter (· ≠ template)) = .ok others ∧
        ∀ path, Case.lower path = Case.lower template →
          filter.accepts path = others.accepts path) := by
  constructor
  · intro hsmall
    have hrefused : ∀ path, Case.lower path = Case.lower template → filter.accepts path = false :=
      fun path hpath => accepts_eq_false_of_isLiteral h htemplate hliteral (hpath.trans hsmall)
    refine ⟨hrefused, fun fs c candidates journal hadd => ?_⟩
    obtain ⟨other, hother, added, hfiles, hbrought⟩ := Catalog.exists_added_of_addThemeFiles hadd
    obtain rfl : filter = other := Except.ok.inj (h.symm.trans hother)
    refine ⟨added, hfiles, fun f hf hsame => ?_⟩
    obtain ⟨candidate, -, dir, hbrings⟩ := hbrought f hf
    have haccepts := hbrings.accepts
    rw [hbrings.path_eq] at hsame
    rw [hrefused _ hsame] at haccepts
    cases haccepts
  · intro hlarge
    obtain ⟨others, hothers⟩ : ∃ others,
        ofTemplates (search.templates.filter (· ≠ template)) = .ok others :=
      exists_ofTemplates_eq_ok fun text htext =>
        exists_ofText_of_ofTemplates h (List.mem_filter.1 htext).1
    refine ⟨others, hothers, fun path hpath => ?_⟩
    rw [Bool.eq_iff_iff, accepts_iff h, accepts_iff hothers]
    constructor
    · intro hall pattern hpattern
      refine hall pattern (List.mem_append.2 ?_)
      exact (List.mem_append.1 hpattern).imp_right fun hmem => (List.mem_filter.1 hmem).1
    · intro hall pattern hpattern glob hglob
      rcases eq_or_ne pattern template with rfl | hne
      · -- the template describes itself only, and the path is in small letters
        obtain rfl := Except.ok.inj (hglob.symm.trans (Glob.ofText_of_isLiteral hliteral))
        rw [← Bool.not_eq_true, Glob.isMatch_iff_of_isLiteral, hpath]
        exact hlarge
      · refine hall pattern (List.mem_append.2 ?_) glob hglob
        exact (List.mem_append.1 hpattern).imp_right fun hmem =>
          List.mem_filter.2 ⟨hmem, by simpa using hne⟩

/-- A template in small letters keeps back the path in any letters, and one with a capital
letter is as good as none. -/
theorem accepts_of_isLiteral_capitals : ∃ filter others,
    ofTemplates ["sitemap.xml", "Feed.xml"] = .ok filter ∧
      ofTemplates ["sitemap.xml"] = .ok others ∧ filter.accepts "SiteMap.XML" = false ∧
      filter.accepts "FEED.xml" = others.accepts "FEED.xml" := by
  have hlower : Case.lower "SiteMap.XML" = Case.lower "sitemap.xml" ∧
      Case.lower "sitemap.xml" = "sitemap.xml" ∧ Case.lower "FEED.xml" = Case.lower "Feed.xml" ∧
      Case.lower "Feed.xml" ≠ "Feed.xml" := by
    decide +kernel
  obtain ⟨filter, hfilter⟩ : ∃ filter, ofTemplates ["sitemap.xml", "Feed.xml"] = .ok filter := by
    refine exists_ofTemplates_eq_ok fun template htemplate => ⟨_, Glob.ofText_of_isLiteral ?_⟩
    rcases List.mem_pair.1 htemplate with rfl | rfl <;> decide
  have hsmall := (accepts_of_isLiteral
    { Catalog.plantedSearch with templates := ["sitemap.xml", "Feed.xml"] } "sitemap.xml" hfilter
    (by simp) (by decide)).1 hlower.2.1
  obtain ⟨others, hothers, hsame⟩ := (accepts_of_isLiteral
    { Catalog.plantedSearch with templates := ["sitemap.xml", "Feed.xml"] } "Feed.xml" hfilter
    (by simp) (by decide)).2 hlower.2.2.2
  exact ⟨filter, others, hfilter, hothers, hsmall.1 _ hlower.1, hsame _ hlower.2.2.1⟩

/-- The file of a template is published under the very name that is configured. -/
theorem exists_accepts_template : Glob.IsLiteral "Sitemap.xml" ∧
    ∃ filter, ofTemplates ["Sitemap.xml"] = .ok filter ∧ filter.accepts "Sitemap.xml" = true := by
  have haccepts : (ofTemplates ["Sitemap.xml"]).map (fun filter => filter.accepts "Sitemap.xml") =
      .ok true := by
    decide +kernel
  exact ⟨by decide, map_eq_ok_iff.1 haccepts⟩

end ThemeFilter
end DocSite
