import DocSite.Proofs.SourceFile.Links

/-!
# What is sent for the address of a file

A server of static files reads the escapes of an address, and sends for a directory the
`index.html` in it (`Url.served?`).  What it sends for the address of a file is the file
that was published (`SourceFile.serves_url`), whatever its name is and whether it stands
above the directory that its path is relative to.  So two files of one style have the same
address when they are published at the same place, and only then.

Three things could go wrong and do not.  A name that looks encoded is encoded again, so
reading the escapes gives it back.  The address of the root is `.`, and nothing else is
published under this name, because no last name of a path is `.`.  And nothing that is
published ends in a slash.
-/

namespace DocSite

namespace Url

/-! ## What is sent -/

/-- The text that an encoded text stands for, if its bytes are that of a text. -/
def decodedText? (address : String) : Option String :=
  String.fromUTF8? ⟨(decode address.toList).toArray⟩

theorem decodedText?_encode (path : String) : decodedText? (encode path) = some path := by
  have hbytes : (⟨(decode (encode path).toList).toArray⟩ : ByteArray) = path.toUTF8 := by
    rw [decode_encode, bytes]
  rw [decodedText?, hbytes, String.fromUTF8?]
  exact dif_pos path.isValidUTF8

/-- The file that a server of static files sends for a path.  In directory style a
directory stands for the `index.html` in it. -/
def sent (directoryUrls : Bool) (path : String) : String :=
  if !directoryUrls then path
  else if path = "." then "index.html"
  else if path.toList.getLast? = some '/' then path ++ "index.html"
  else path

/-- What a server of static files sends for an address, if it can read the address. -/
def served? (directoryUrls : Bool) (address : String) : Option String :=
  (decodedText? address).map (sent directoryUrls)

theorem served?_encode (directoryUrls : Bool) (path : String) :
    served? directoryUrls (encode path) = some (sent directoryUrls path) := by
  rw [served?, decodedText?_encode, Option.map_some]

/-- A path that is neither `.` nor ends in a slash stands for itself. -/
theorem sent_of_ne {directoryUrls : Bool} {path : String} (hdot : path ≠ ".")
    (hslash : path.toList.getLast? ≠ some '/') : sent directoryUrls path = path := by
  rw [sent, if_neg hdot, if_neg hslash, ite_self]

/-- A path that ends in a slash stands for `index.html` behind the slash. -/
theorem sent_append_slash (directory : String) :
    sent true (directory ++ "/") = directory ++ "/" ++ "index.html" := by
  have hdot : directory ++ "/" ≠ "." := by
    intro heq
    have hlast : (directory ++ "/").toList.getLast? = some '/' := by simp
    rw [heq] at hlast
    exact absurd hlast (by decide)
  rw [sent, if_neg (by decide), if_neg hdot, if_pos (by simp)]

/-! ## What an address is written with -/

/-- A text of characters that stand for themselves in an address, and of escapes. -/
inductive IsEscaped : List Char → Prop where
  | nil : IsEscaped []
  | plain {c : Char} {rest : List Char} (hc : c.isAlphanum ∨ c ∈ ['-', '.', '_', '~', '/'])
      (hrest : IsEscaped rest) : IsEscaped (c :: rest)
  | escape {high low : Char} {rest : List Char} (hhigh : (digitValue? high).isSome)
      (hlow : (digitValue? low).isSome) (hrest : IsEscaped rest) :
      IsEscaped ('%' :: high :: low :: rest)

theorem IsEscaped.append {chars others : List Char} (h : IsEscaped chars)
    (h' : IsEscaped others) : IsEscaped (chars ++ others) := by
  induction h with
  | nil => exact h'
  | plain hc _ ih => exact .plain hc ih
  | escape hhigh hlow _ ih => exact .escape hhigh hlow ih

theorem IsEscaped.flatMap {α : Type} {write : α → List Char} (h : ∀ a, IsEscaped (write a))
    (as : List α) : IsEscaped (as.flatMap write) := by
  induction as with
  | nil => exact .nil
  | cons a rest ih =>
    rw [List.flatMap_cons]
    exact (h a).append ih

theorem isEscaped_escapeByte (b : UInt8) : IsEscaped (escapeByte b) := by
  have hlt := b.toNat_lt
  refine .escape ?_ ?_ .nil
  · rw [digitValue?_hexDigit (by omega)]
    rfl
  · rw [digitValue?_hexDigit (by omega)]
    rfl

theorem isEscaped_encodeChar (c : Char) : IsEscaped (encodeChar c) := by
  rw [encodeChar]
  split
  · rename_i hplain
    refine .plain ?_ .nil
    simp only [isPlain, Bool.or_eq_true, beq_iff_eq] at hplain
    rcases hplain with ((((hplain | rfl) | rfl) | rfl) | rfl) | rfl
    · exact .inl hplain
    all_goals exact .inr (by decide)
  · exact IsEscaped.flatMap isEscaped_escapeByte _

/-- **An encoded text consists of plain characters and escapes.** -/
theorem isEscaped_encode (path : String) : IsEscaped (encode path).toList := by
  rw [toList_encode]
  exact IsEscaped.flatMap isEscaped_encodeChar _

end Url

/-! ## The files of a site -/

/-- No names with slashes between them are written `.`, but for this name itself. -/
theorem joined_ne_dot {front : List String} {last : String} (hparts : AreParts (front ++ [last]))
    (hlast : last ≠ ".") : joined (front ++ [last]) ≠ "." := by
  intro heq
  have hpieces := pieces_joined (by simp) hparts.slashFree
  rw [heq, pieces_of_slashFree (by decide)] at hpieces
  have hmem : last ∈ ["."] := hpieces ▸ List.mem_append_right front (List.mem_singleton_self last)
  exact hlast (List.mem_singleton.1 hmem)

open Url

namespace SourceFile

/-- What is published for a relative path has a last name, which is not `.`, unless the
path leads nowhere. -/
theorem srcUri_eq_empty_or_exists_destUri_eq {f : SourceFile} (h : f.path.isAbsolute = false) :
    f.srcUri = "" ∨ ∃ front last, f.destUri = joined (front ++ [last]) ∧
      AreParts (front ++ [last]) ∧ last ≠ "." := by
  rcases srcUri_cases_of_isAbsolute_eq_false h with hempty | ⟨dirs, hparts, hsrc, hkind⟩ |
      ⟨dirs, file, hreached⟩
  · exact .inl hempty
  · refine .inr ⟨dirs, "..", ?_, hparts, by decide⟩
    rw [destUri, hkind, Bool.not_false, if_pos rfl, hsrc]
  · have hdest := hreached.destUri
    have hparts := hreached.areParts_publishedNames f.directoryUrls
    obtain ⟨last, hnames, hlast, -⟩ | ⟨-, -, -, hnames⟩ :=
      publishedNames_cases hreached.legal_file f.directoryUrls dirs
    · rw [hnames] at hdest hparts
      exact .inr ⟨dirs, last, hdest, hparts, hlast.2.1⟩
    · rw [hnames, List.append_cons] at hdest hparts
      exact .inr ⟨dirs ++ [pageName file], "index.html", hdest, hparts, by decide⟩

/-- For the address of a file, before it is encoded, the server sends what was published. -/
theorem sent_rawUrl {f : SourceFile} (h : f.path.isAbsolute = false) :
    sent f.directoryUrls f.rawUrl = f.destUri := by
  rcases srcUri_eq_empty_or_exists_destUri_eq h with hempty | ⟨front, last, hdest, hparts, hlast⟩
  · rw [rawUrl_of_srcUri_eq_empty hempty, destUri_of_srcUri_eq_empty hempty]
    exact sent_of_ne (by decide) (by decide)
  rw [rawUrl_eq hdest hparts, hdest, addressEnd]
  split
  · rename_i hindex
    rw [Bool.and_eq_true, decide_eq_true_eq] at hindex
    obtain ⟨hstyle, rfl⟩ := hindex
    rw [hstyle]
    split
    · -- the root
      rename_i hroot
      rw [hroot, List.nil_append, List.nil_append, joined_singleton, joined_singleton]
      rfl
    · rename_i hne
      rw [joined_append_singleton hne, joined_append_singleton hne, String.append_empty,
        sent_append_slash]
  · exact sent_of_ne (joined_ne_dot hparts hlast) (getLast?_joined_ne_slash hparts)

/-- **The address of a file and the place where it is published decide each other.**  What
a server sends for the address is what was published, there is nothing in the address but
plain characters and escapes, and files of one style have one address exactly when they are
published at one place. -/
theorem serves_url {f : SourceFile} (h : f.path.isAbsolute = false) :
    served? f.directoryUrls f.url = some f.destUri ∧ IsEscaped f.url.toList ∧
      ∀ g : SourceFile, g.path.isAbsolute = false → g.directoryUrls = f.directoryUrls →
        (g.url = f.url ↔ g.destUri = f.destUri) := by
  have hserved : ∀ g : SourceFile, g.path.isAbsolute = false →
      served? g.directoryUrls g.url = some g.destUri := fun g hg => by
    rw [url, served?_encode, sent_rawUrl hg]
  refine ⟨hserved f h, isEscaped_encode f.rawUrl, fun g hg hstyle => ⟨fun hurl => ?_, ?_⟩⟩
  · have hsame := hserved g hg
    rw [hstyle, hurl, hserved f h] at hsame
    exact (Option.some.inj hsame).symm
  · intro hdest
    rw [url, url, rawUrl, rawUrl, hdest, hstyle]

/-- A page above the root, whose name has a percent sign, a mark of an address and a letter
that is written with escapes, in directory style; and the file that is published as this
page. -/
theorem serves_url_page :
    let page := SourceFile.ofPath ⟨"../50%3A?é.md"⟩ ⟨"docs"⟩ ⟨"site"⟩ true
    let copy := SourceFile.ofPath ⟨"./..//50%3A?é/index.html"⟩ ⟨"docs"⟩ ⟨"site"⟩ true
    page.url = "../50%253A%3F%C3%A9/" ∧
      served? true "../50%253A%3F%C3%A9/" = some "../50%3A?é/index.html" ∧
      IsEscaped "../50%253A%3F%C3%A9/".toList ∧ copy.url = page.url := by
  intro page copy
  have hraw : page.rawUrl = "../50%3A?é/" := by decide
  have hurl : page.url = "../50%253A%3F%C3%A9/" := by
    rw [url, hraw]
    decide
  have hdest : page.destUri = "../50%3A?é/index.html" := by decide
  obtain ⟨hserved, hescaped, hsame⟩ := serves_url (f := page) (by decide)
  rw [hurl] at hserved hescaped
  rw [hdest] at hserved hsame
  exact ⟨hurl, hserved, hescaped, (hsame copy (by decide) rfl).2 (by decide)⟩

end SourceFile
end DocSite
