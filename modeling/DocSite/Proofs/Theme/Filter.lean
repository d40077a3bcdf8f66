import DocSite.Proofs.Refusal
import DocSite.Proofs.SourceFile.Naming
import DocSite.Theme

/-!
# What themes keep back

The patterns of a theme filter are tried on a path in small letters.  A word of small
letters and signs stays as it is there (`Case.exists_lower_eq`), and a star with a word
behind it describes every text in which the word stands, or ends it
(`Glob.attempt_star_eq_matched`).  So the filter keeps back what its patterns say of the
path as it is written: no piece of a published path begins with a dot
(`ThemeFilter.head?_ne_dot_of_accepts`), in particular none is `..`, and no published path
has the extension of a document (`ThemeFilter.isMarkdown_of_accepts`).
-/

namespace DocSite

/-! ## Words in small letters -/

namespace Case

/-- A character that is its own small form. -/
def IsSmall (c : Char) : Prop :=
  c.val < 128 ∧ c.toLower = c

instance (c : Char) : Decidable (IsSmall c) :=
  inferInstanceAs (Decidable (_ ∧ _))

/-- A word of small characters. -/
def AreSmall (word : List Char) : Prop :=
  ∀ c ∈ word, IsSmall c

-- looked for in the word; there are instances that go through all characters
instance (word : List Char) : Decidable (AreSmall word) :=
  List.decidableBAll IsSmall word

theorem lowerChars_cons_of_isSmall {c : Char} (h : IsSmall c) (before after : List Char) :
    lowerChars before (c :: after) = c :: lowerChars (c :: before) after := by
  have hsigma : c ≠ 'Σ' := by
    rintro rfl
    exact absurd h.1 (by decide)
  rw [lowerChars, if_neg hsigma, lowerChar, if_pos h.1, h.2, List.singleton_append]

/-- A word of small characters stays, whatever stands before and behind it. -/
theorem lowerChars_append_of_small {word : List Char} (h : AreSmall word)
    (before rest : List Char) :
    lowerChars before (word ++ rest) = word ++ lowerChars (word.reverse ++ before) rest := by
  induction word generalizing before with
  | nil => rfl
  | cons c word ih =>
    rw [List.cons_append, lowerChars_cons_of_isSmall (h c (List.mem_cons_self ..)),
      ih fun other hother => h other (List.mem_cons_of_mem _ hother)]
    simp

/-- What stands behind a text is put into small letters behind the text. -/
theorem exists_lowerChars_append (text before rest : List Char) :
    ∃ small, lowerChars before (text ++ rest) =
      small ++ lowerChars (text.reverse ++ before) rest ∧ (text = [] → small = []) := by
  induction text generalizing before with
  | nil => exact ⟨[], rfl, fun _ => rfl⟩
  | cons c text ih =>
    obtain ⟨small, hsmall, -⟩ := ih (c :: before)
    rw [List.cons_append, lowerChars, hsmall, List.reverse_cons, List.append_assoc text.reverse,
      List.singleton_append, ← List.append_assoc]
    exact ⟨_, rfl, by simp⟩

/-- **A word of small characters stands in the small form of a text**, and at its beginning
or end if it stands so in the text. -/
theorem exists_lower_eq {text : String} {front back : List Char} (word : List Char)
    (h : AreSmall word) (htext : text.toList = front ++ word ++ back) :
    ∃ front' back', (lower text).toList = front' ++ word ++ back' ∧
      (front = [] → front' = []) ∧ (back = [] → back' = []) := by
  obtain ⟨small, hsmall, hfront⟩ := exists_lowerChars_append front [] (word ++ back)
  refine ⟨small, lowerChars (word.reverse ++ (front.reverse ++ [])) back, ?_, hfront, ?_⟩
  · rw [lower, String.toList_ofList, htext, List.append_assoc, hsmall,
      lowerChars_append_of_small h, List.append_assoc]
  · rintro rfl
    rfl

end Case

/-! ## A star and a word -/

namespace Glob

theorem attempt_chars_append (word rest : List Char) (tokens : List Token) :
    attempt (word.map .char ++ tokens) (word ++ rest) = attempt tokens rest := by
  induction word with
  | nil => rfl
  | cons c word ih =>
    rw [List.map_cons, List.cons_append, List.cons_append, attempt,
      if_pos (by simp [Token.accepts])]
    · exact ih
    all_goals simp

/-- A text as long as a word is not too short for it. -/
theorem attempt_chars_ne_tooShort {tokens : List Token}
    (h : ∀ text, attempt tokens text ≠ .tooShort)
    {word text : List Char} (hlength : word.length ≤ text.length) :
    attempt (word.map .char ++ tokens) text ≠ .tooShort := by
  induction word generalizing text with
  | nil => exact h text
  | cons c word ih =>
    cases text with
    | nil => simp at hlength
    | cons d text =>
      rw [List.map_cons, List.cons_append, attempt]
      · split
        · exact ih (by simpa using hlength)
        · simp
      all_goals simp

/-- What matches at some point behind a star is found, if nothing before it is too short. -/
theorem sweep_eq_matched {next : List Char → Outcome} {back : List Char}
    (hback : next back = .matched)
    (hlong : ∀ text : List Char, back.length ≤ text.length → next text ≠ .tooShort)
    (front : List Char) : sweep next (front ++ back) = .matched := by
  induction front with
  | nil => cases back <;> simp [sweep, hback, Outcome.orElse]
  | cons c front ih =>
    rw [List.cons_append, sweep]
    have hnot := hlong (c :: (front ++ back)) (by simp; omega)
    cases hnext : next (c :: (front ++ back)) with
    | matched => rfl
    | differs => exact ih
    | tooShort => exact absurd hnext hnot

theorem attempt_anySequence (text : List Char) : attempt [.anySequence] text = .matched := by
  have hend : ∀ text : List Char, attempt [] text ≠ .tooShort := by
    intro text
    cases text <;> simp [attempt]
  have hsweep : sweep (attempt []) (text ++ []) = .matched :=
    sweep_eq_matched rfl (fun rest _ => hend rest) text
  rwa [List.append_nil] at hsweep

/-- **A star and then a word describe a text in which the word stands**, if what follows in
the pattern describes what follows in the text. -/
theorem attempt_star_eq_matched {tokens : List Token}
    (htokens : ∀ text, attempt tokens text ≠ .tooShort) (front word : List Char)
    {back : List Char} (hback : attempt tokens back = .matched) :
    attempt (.anySequence :: (word.map .char ++ tokens)) (front ++ word ++ back) = .matched := by
  rw [attempt, List.append_assoc]
  refine sweep_eq_matched ?_ (fun text hlength => ?_) front
  · rw [attempt_chars_append, hback]
  · exact attempt_chars_ne_tooShort htokens (by simp at hlength; omega)

end Glob

/-! ## The filter -/

namespace ThemeFilter

variable {templates : List String} {filter : ThemeFilter} {path : String}

theorem readPattern_eq_ok_iff {name text : String} {glob : Glob} :
    readPattern name text = .ok glob ↔ Glob.ofText text = .ok glob := by
  rw [readPattern]
  cases Glob.ofText text <;> simp

/-- A path is published when no pattern describes it in small letters. -/
theorem accepts_iff (h : ofTemplates templates = .ok filter) : filter.accepts path = true ↔
    ∀ pattern ∈ themePatterns ++ templates, ∀ glob, Glob.ofText pattern = .ok glob →
      glob.isMatch (Case.lower path) = false := by
  rw [ofTemplates, bind_eq_ok_iff] at h
  obtain ⟨refused, hrefused, hfilter⟩ := h
  obtain rfl := Except.ok.inj hfilter
  rw [accepts, Bool.not_eq_true', List.any_eq_false]
  simp only [mem_iff_of_mapM_eq_ok hrefused, readPattern_eq_ok_iff, Bool.not_eq_true]
  constructor
  · exact fun hall pattern hpattern glob hglob => hall glob ⟨pattern, hpattern, hglob⟩
  · rintro hall glob ⟨pattern, hpattern, hglob⟩
    exact hall pattern hpattern glob hglob

/-- A published path is described by no pattern of the filter. -/
theorem attempt_ne_matched (h : ofTemplates templates = .ok filter) (haccepts : filter.accepts path)
    {pattern : String} (hpattern : pattern ∈ themePatterns) {tokens : List Glob.Token}
    (hglob : Glob.ofText pattern = .ok ⟨tokens⟩) :
    Glob.attempt tokens (Case.lower path).toList ≠ .matched := by
  have hdiffers := (accepts_iff h).1 haccepts pattern (List.mem_append_left _ hpattern) _ hglob
  simpa [Glob.isMatch] using hdiffers

/-- **No piece of a published path begins with a dot.** -/
theorem head?_ne_dot_of_accepts (h : ofTemplates templates = .ok filter)
    (haccepts : filter.accepts path) : ∀ piece ∈ pieces path, piece.toList.head? ≠ some '.' := by
  have hhidden : Glob.ofText ".*" = .ok ⟨[.char '.', .anySequence]⟩ := by decide +kernel
  have hbelow : Glob.ofText "*/.*" = .ok ⟨[.anySequence, .char '/', .char '.', .anySequence]⟩ := by
    decide +kernel
  have hsequence : ∀ text, Glob.attempt [.anySequence] text ≠ .tooShort := by
    simp [Glob.attempt_anySequence]
  intro piece hpiece hdot
  obtain ⟨rest, hrest⟩ := List.head?_eq_some_iff.1 hdot
  obtain ⟨front, back, hpieces⟩ := List.append_of_mem hpiece
  -- from the piece on, the path is a dot and something more
  have hnonempty : piece ≠ "" := by
    rintro rfl
    simp at hrest
  have hbehind := head?_joined_cons hnonempty back
  rw [hdot] at hbehind
  obtain ⟨more, hmore⟩ := List.head?_eq_some_iff.1 hbehind
  rcases eq_or_ne front [] with rfl | hfront
  · have htext : path.toList = [] ++ ['.'] ++ more := by
      rw [← joined_pieces path, hpieces, List.nil_append, hmore]
      rfl
    obtain ⟨front', back', hlower, hbegins, -⟩ :=
      Case.exists_lower_eq ['.'] (by decide) htext
    have hmatch := attempt_ne_matched h haccepts (by decide) hhidden
    rw [hlower, hbegins rfl] at hmatch
    have hfound := Glob.attempt_chars_append ['.'] back' [.anySequence]
    exact hmatch (hfound.trans (Glob.attempt_anySequence back'))
  · have htext : path.toList = (joined front).toList ++ ['/', '.'] ++ more := by
      rw [← joined_pieces path, hpieces, joined_append hfront (by simp), String.toList_append,
        String.toList_append, hmore, List.append_assoc, List.append_assoc]
      rfl
    obtain ⟨front', back', hlower, -, -⟩ :=
      Case.exists_lower_eq ['/', '.'] (by decide) htext
    have hmatch := attempt_ne_matched h haccepts (by decide) hbelow
    rw [hlower] at hmatch
    exact hmatch (Glob.attempt_star_eq_matched hsequence front' ['/', '.']
      (Glob.attempt_anySequence back'))

/-- **No published path has the extension of a document.** -/
theorem isMarkdown_of_accepts (h : ofTemplates templates = .ok filter)
    (haccepts : filter.accepts path) : isMarkdown path = false := by
  rw [Bool.eq_false_iff]
  intro hmarkdown
  obtain ⟨extension, hextension, stem, rfl⟩ := isMarkdown_iff.1 hmarkdown
  have hsmall : ∀ extension ∈ markdownExtensions, Case.AreSmall extension.toList := by
    decide
  have hglob : ∀ extension ∈ markdownExtensions, "*" ++ extension ∈ themePatterns ∧
      Glob.ofText ("*" ++ extension) =
        .ok ⟨.anySequence :: (extension.toList.map .char ++ [])⟩ := by
    decide +kernel
  have htext : (stem ++ extension).toList = stem.toList ++ extension.toList ++ [] := by simp
  obtain ⟨front', back', hlower, -, hends⟩ :=
    Case.exists_lower_eq extension.toList (hsmall extension hextension) htext
  obtain ⟨hpattern, hread⟩ := hglob extension hextension
  have hmatch := attempt_ne_matched h haccepts hpattern hread
  rw [hlower, hends rfl] at hmatch
  exact hmatch (Glob.attempt_star_eq_matched (fun text => by cases text <;> simp [Glob.attempt])
    front' extension.toList rfl)

end ThemeFilter
end DocSite
