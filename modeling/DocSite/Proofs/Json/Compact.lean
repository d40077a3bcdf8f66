import Mathlib.Data.List.Infix
import DocSite.Nav.Spec

/-!
# Compact JSON can be read in one way only

The compact form has no blanks, so nothing but the text itself says where a value ends.  It
is enough: the first characters of a text are those of one value at most, and what is
behind them is what was written behind the value (`compactChars_append_inj`).  The statement
is about a value and what follows it, and not about whole texts, because that is what is
needed of the members of a list, behind which a comma or the closing bracket follows.  A
list and an object are read alike once this is known of what is in them
(`intercalate_append_inj`).

Between quotation marks the same holds of single characters.  No character is written as the
beginning of another one (`eq_of_escapeChar_isPrefix`), and none begins with a quotation
mark, so the first quotation mark at which a character could begin closes the text
(`quoted_append_inj`).

A specification becomes a value of the same shape, a mapping with its titles in order and
as often as they occur.  Hence its compact form loses nothing
(`Spec.compact_toJson_eq_iff`).
-/

namespace DocSite
namespace JsonValue

/-! ## Characters between quotation marks -/

/-- The characters that are written with a backslash: the quotation mark, the backslash
and what is below the space. -/
def escaped : List Char :=
  '"' :: '\\' :: (List.range 32).map Char.ofNat

theorem escapeChar_of_notMem {c : Char} (h : c ∉ escaped) : escapeChar c = [c] := by
  obtain ⟨hquote, hbackslash, hlow⟩ : c ≠ '"' ∧ c ≠ '\\' ∧ ¬ c.toNat < 32 := by
    refine ⟨fun heq => h (by simp [escaped, heq]), fun heq => h (by simp [escaped, heq]),
      fun hlt => h ?_⟩
    have hmem : c ∈ (List.range 32).map Char.ofNat :=
      List.mem_map.2 ⟨c.toNat, List.mem_range.2 hlt, Char.ofNat_toNat c⟩
    exact List.mem_cons_of_mem _ (List.mem_cons_of_mem _ hmem)
  rw [escapeChar, if_neg hquote, if_neg hbackslash, if_neg hlow]

/-- What is written for one of these characters begins with a backslash, and what is
written for another one is the character. -/
theorem exists_escapeChar_eq (c : Char) :
    ∃ more, escapeChar c = (if c ∈ escaped then '\\' else c) :: more := by
  split
  · rename_i hc
    have hall : (escaped.all fun c => (escapeChar c).head? == some '\\') = true := by
      decide +kernel
    exact List.head?_eq_some_iff.1 (by simpa using List.all_eq_true.1 hall c hc)
  · rename_i hc
    exact ⟨[], escapeChar_of_notMem hc⟩

/-- No character begins with a quotation mark. -/
theorem quote_cons_ne (c : Char) (rest other : List Char) :
    '"' :: rest ≠ escapeChar c ++ other := by
  intro h
  obtain ⟨more, hc⟩ := exists_escapeChar_eq c
  rw [hc, List.cons_append] at h
  have hquote := (List.cons.inj h).1
  split at hquote
  · exact absurd hquote (by decide)
  · rename_i hnot
    exact hnot (by rw [← hquote]; decide)

/-- **No character is written as the beginning of another one.** -/
theorem eq_of_escapeChar_isPrefix {c d : Char} (h : escapeChar c <+: escapeChar d) : c = d := by
  obtain ⟨more, hc⟩ := exists_escapeChar_eq c
  obtain ⟨other, hd⟩ := exists_escapeChar_eq d
  have hfirst : (if c ∈ escaped then '\\' else c) = if d ∈ escaped then '\\' else d := by
    rw [hc, hd, List.cons_prefix_cons] at h
    exact h.1
  have hbackslash : '\\' ∈ escaped := by decide
  by_cases hcmem : c ∈ escaped <;> by_cases hdmem : d ∈ escaped
  · -- both begin with a backslash, and there are only so many of these
    have hall : (escaped.all fun c => escaped.all fun d =>
        !(escapeChar c).isPrefixOf (escapeChar d) || c == d) = true := by
      decide +kernel
    have hcd := List.all_eq_true.1 (List.all_eq_true.1 hall c hcmem) d hdmem
    simpa [List.isPrefixOf_iff_prefix.2 h] using hcd
  · rw [if_pos hcmem, if_neg hdmem] at hfirst
    exact absurd (hfirst ▸ hbackslash) hdmem
  · rw [if_neg hcmem, if_pos hdmem] at hfirst
    exact absurd (hfirst ▸ hbackslash) hcmem
  · rwa [if_neg hcmem, if_neg hdmem] at hfirst

theorem escapeChar_append_inj {c d : Char} {rest other : List Char}
    (h : escapeChar c ++ rest = escapeChar d ++ other) : c = d ∧ rest = other := by
  obtain rfl : c = d := by
    rcases List.prefix_or_prefix_of_prefix (List.prefix_append (escapeChar c) rest)
      (h ▸ List.prefix_append (escapeChar d) other) with hc | hd
    · exact eq_of_escapeChar_isPrefix hc
    · exact (eq_of_escapeChar_isPrefix hd).symm
  exact ⟨rfl, List.append_cancel_left h⟩

/-- Texts one after another end at a character with which none of them begins, if each of
them ends where it ends. -/
theorem flatMap_append_inj {α : Type} {f : α → List Char} {close : Char} {as bs : List α}
    {rest other : List Char}
    (hinj : ∀ a ∈ as, ∀ (b : α) {rest other : List Char},
      f a ++ rest = f b ++ other → a = b ∧ rest = other)
    (hclose : ∀ (a : α) (rest other : List Char), close :: rest ≠ f a ++ other)
    (h : as.flatMap f ++ close :: rest = bs.flatMap f ++ close :: other) :
    as = bs ∧ rest = other := by
  induction as generalizing bs with
  | nil =>
    cases bs with
    | nil => exact ⟨rfl, (List.cons.inj h).2⟩
    | cons b bs =>
      rw [List.flatMap_cons, List.append_assoc] at h
      exact absurd h (hclose b _ _)
  | cons a as ih =>
    cases bs with
    | nil =>
      rw [List.flatMap_cons, List.append_assoc] at h
      exact absurd h.symm (hclose a _ _)
    | cons b bs =>
      rw [List.flatMap_cons, List.flatMap_cons, List.append_assoc, List.append_assoc] at h
      obtain ⟨rfl, hbehind⟩ := hinj a List.mem_cons_self b h
      obtain ⟨rfl, hrest⟩ := ih (fun a ha => hinj a (List.mem_cons_of_mem _ ha)) hbehind
      exact ⟨rfl, hrest⟩

/-- **A text between quotation marks ends where it ends.** -/
theorem quoted_append_inj {s t : String} {rest other : List Char}
    (h : quoted s ++ rest = quoted t ++ other) : s = t ∧ rest = other := by
  simp only [quoted, List.cons_append, List.append_assoc, List.nil_append, List.cons.injEq,
    true_and] at h
  obtain ⟨hchars, hrest⟩ :=
    flatMap_append_inj (fun c _ d => escapeChar_append_inj) quote_cons_ne h
  exact ⟨String.toList_inj.1 hchars, hrest⟩

/-! ## Values -/

/-- The character with which a value begins. -/
def firstChar : JsonValue → Char
  | bool value => if value then 't' else 'f'
  | text _ => '"'
  | list _ => '['
  | object _ => '{'

theorem exists_compactChars_eq (v : JsonValue) : ∃ rest, v.compactChars = v.firstChar :: rest := by
  cases v with
  | bool value => cases value <;> exact ⟨_, rfl⟩
  | text value => exact ⟨_, rfl⟩
  | list items => exact ⟨_, by rw [compactChars]; rfl⟩
  | object fields => exact ⟨_, by rw [compactChars]; rfl⟩

theorem firstChar_eq_of_append_eq {v w : JsonValue} {rest other : List Char}
    (h : v.compactChars ++ rest = w.compactChars ++ other) : v.firstChar = w.firstChar := by
  obtain ⟨v', hv⟩ := v.exists_compactChars_eq
  obtain ⟨w', hw⟩ := w.exists_compactChars_eq
  rw [hv, hw] at h
  exact (List.cons.inj h).1

/-- No value begins with a closing bracket. -/
theorem bracket_cons_ne (v : JsonValue) (rest other : List Char) :
    ']' :: rest ≠ v.compactChars ++ other := by
  intro h
  obtain ⟨more, hv⟩ := v.exists_compactChars_eq
  rw [hv, List.cons_append] at h
  have hfirst := (List.cons.inj h).1
  cases v with
  | bool value => cases value <;> exact absurd hfirst (by decide)
  | _ => exact absurd hfirst (by simp [firstChar])

/-! ## Commas -/

/-- With one more comma in front, there is a comma before each text. -/
theorem cons_intercalate_comma {α : Type} (f : α → List Char) (a : α) (as : List α) :
    ',' :: [','].intercalate ((a :: as).map f) = (a :: as).flatMap fun a => ',' :: f a := by
  induction as generalizing a with
  | nil => simp
  | cons b as ih =>
    have hcons : [','].intercalate ((a :: b :: as).map f)
        = f a ++ ',' :: [','].intercalate ((b :: as).map f) := by
      simp [List.intercalate_cons_cons]
    rw [hcons, ih b]
    simp

/-- Texts with commas between them end at a character with which none of them begins and
which is no comma, if each of them ends where it ends. -/
theorem intercalate_append_inj {α : Type} {f : α → List Char} {close : Char} {as bs : List α}
    {rest other : List Char}
    (hinj : ∀ a ∈ as, ∀ (b : α) {rest other : List Char},
      f a ++ rest = f b ++ other → a = b ∧ rest = other)
    (hclose : ∀ (a : α) (rest other : List Char), close :: rest ≠ f a ++ other)
    (hcomma : close ≠ ',')
    (h : [','].intercalate (as.map f) ++ close :: rest
      = [','].intercalate (bs.map f) ++ close :: other) :
    as = bs ∧ rest = other := by
  have hbegin : ∀ (a : α) (as : List α), ∃ more,
      [','].intercalate ((a :: as).map f) = f a ++ more := by
    intro a as
    have hcons := cons_intercalate_comma f a as
    rw [List.flatMap_cons, List.cons_append] at hcons
    exact ⟨_, (List.cons.inj hcons).2⟩
  have hflat : as.flatMap (fun a => ',' :: f a) ++ close :: rest
      = bs.flatMap (fun b => ',' :: f b) ++ close :: other := by
    match as, bs with
    | [], [] => exact h
    | [], b :: bs =>
      obtain ⟨more, hb⟩ := hbegin b bs
      rw [hb, List.append_assoc] at h
      exact absurd h (hclose b _ _)
    | a :: as, [] =>
      obtain ⟨more, ha⟩ := hbegin a as
      rw [ha, List.append_assoc] at h
      exact absurd h.symm (hclose a _ _)
    | a :: as, b :: bs =>
      rw [← cons_intercalate_comma, ← cons_intercalate_comma, List.cons_append,
        List.cons_append, h]
  refine flatMap_append_inj (fun a ha b rest other hab => ?_)
    (fun a rest other hab => hcomma (List.cons.inj hab).1) hflat
  rw [List.cons_append, List.cons_append] at hab
  exact hinj a ha b (List.cons.inj hab).2

theorem compactItems_eq (items : List JsonValue) :
    compactItems items = [','].intercalate (items.map compactChars) := by
  induction items with
  | nil => rw [compactItems]; rfl
  | cons item rest ih =>
    cases rest with
    | nil => rw [compactItems]; simp
    | cons next rest =>
      rw [compactItems, ih]
      · simp [List.intercalate_cons_cons]
      · simp

/-- A field of an object without blanks. -/
def fieldChars (field : String × JsonValue) : List Char :=
  quoted field.1 ++ ':' :: field.2.compactChars

theorem compactFields_eq (fields : List (String × JsonValue)) :
    compactFields fields = [','].intercalate (fields.map fieldChars) := by
  induction fields with
  | nil => rw [compactFields]; rfl
  | cons field rest ih =>
    cases rest with
    | nil => rw [compactFields]; simp [fieldChars]
    | cons next rest =>
      rw [compactFields, ih]
      · simp [List.intercalate_cons_cons, fieldChars]
      · simp

/-- A field ends where it ends if its value does. -/
theorem fieldChars_append_inj {v : JsonValue}
    (hinj : ∀ (w : JsonValue) {rest other : List Char},
      v.compactChars ++ rest = w.compactChars ++ other → v = w ∧ rest = other)
    {key : String} {field : String × JsonValue} {rest other : List Char}
    (h : fieldChars (key, v) ++ rest = fieldChars field ++ other) :
    (key, v) = field ∧ rest = other := by
  rw [fieldChars, fieldChars, List.append_assoc, List.append_assoc] at h
  obtain ⟨rfl, hvalue⟩ := quoted_append_inj h
  rw [List.cons_append, List.cons_append] at hvalue
  obtain ⟨rfl, rfl⟩ := hinj field.2 (List.cons.inj hvalue).2
  exact ⟨rfl, rfl⟩

/-! ## Values and what follows them -/

/-- **A value ends where it ends**: what begins with its compact form begins with that of no
other value. -/
theorem compactChars_append_inj : ∀ (v w : JsonValue) {rest other : List Char},
    v.compactChars ++ rest = w.compactChars ++ other → v = w ∧ rest = other
  | .bool a, w, rest, other, h => by
    have hfirst := firstChar_eq_of_append_eq h
    cases w with
    | bool b =>
      obtain rfl : a = b := by cases a <;> cases b <;> simp [firstChar] at hfirst ⊢
      exact ⟨rfl, List.append_cancel_left h⟩
    | _ => simp [firstChar, ite_eq_iff] at hfirst
  | .text s, w, rest, other, h => by
    have hfirst := firstChar_eq_of_append_eq h
    cases w with
    | text t =>
      obtain ⟨rfl, rfl⟩ := quoted_append_inj h
      exact ⟨rfl, rfl⟩
    | _ => simp [firstChar, eq_ite_iff] at hfirst
  | .list vs, w, rest, other, h => by
    have hfirst := firstChar_eq_of_append_eq h
    cases w with
    | list ws =>
      simp only [compactChars, compactItems_eq, List.cons_append, List.append_assoc,
        List.nil_append, List.cons.injEq, true_and] at h
      obtain ⟨rfl, rfl⟩ := intercalate_append_inj
        (fun v hmem w => compactChars_append_inj v w) bracket_cons_ne (by decide) h
      exact ⟨rfl, rfl⟩
    | _ => simp [firstChar, eq_ite_iff] at hfirst
  | .object vs, w, rest, other, h => by
    have hfirst := firstChar_eq_of_append_eq h
    cases w with
    | object ws =>
      simp only [compactChars, compactFields_eq, List.cons_append, List.append_assoc,
        List.nil_append, List.cons.injEq, true_and] at h
      obtain ⟨rfl, rfl⟩ := intercalate_append_inj
        (fun (key, v) hmem field => fieldChars_append_inj (compactChars_append_inj v))
        (fun field rest other hab => absurd (List.cons.inj hab).1 (by decide)) (by decide) h
      exact ⟨rfl, rfl⟩
    | _ => simp [firstChar, eq_ite_iff] at hfirst
termination_by v => v
decreasing_by
  · have hsize := List.sizeOf_lt_of_mem hmem
    simp only [JsonValue.list.sizeOf_spec]
    omega
  · have hsize := List.sizeOf_lt_of_mem hmem
    simp only [Prod.mk.sizeOf_spec] at hsize
    simp only [JsonValue.object.sizeOf_spec]
    omega

theorem compact_injective : Function.Injective compact := by
  intro v w h
  have hchars : v.compactChars ++ [] = w.compactChars ++ [] := by
    rw [List.append_nil, List.append_nil]
    exact String.ofList_injective h
  exact (compactChars_append_inj v w hchars).1

end JsonValue

namespace Nav
namespace Spec

/-! ## Specifications -/

mutual
/-- No two specifications become the same value. -/
theorem toJson_inj : ∀ {a b : Spec}, a.toJson = b.toJson → a = b
  | .leaf s, .leaf t, h => by
    rw [JsonValue.text.inj h]
  | .list as, .list bs, h => by
    rw [toJsonItems_inj (JsonValue.list.inj h)]
  | .mapping as, .mapping bs, h => by
    rw [toJsonEntries_inj (JsonValue.object.inj h)]
  | .leaf _, .list _, h | .leaf _, .mapping _, h | .list _, .leaf _, h | .list _, .mapping _, h
  | .mapping _, .leaf _, h | .mapping _, .list _, h => by
    simp [toJson] at h

theorem toJsonItems_inj : ∀ {as bs : List Spec}, toJsonItems as = toJsonItems bs → as = bs
  | [], [], _ => rfl
  | a :: as, b :: bs, h => by
    obtain ⟨hfirst, hrest⟩ := List.cons.inj h
    rw [toJson_inj hfirst, toJsonItems_inj hrest]
  | [], _ :: _, h | _ :: _, [], h => by
    simp [toJsonItems] at h

theorem toJsonEntries_inj : ∀ {as bs : List (String × Spec)},
    toJsonEntries as = toJsonEntries bs → as = bs
  | [], [], _ => rfl
  | (s, a) :: as, (t, b) :: bs, h => by
    obtain ⟨hfirst, hrest⟩ := List.cons.inj h
    obtain ⟨rfl, hvalue⟩ := Prod.mk.inj hfirst
    rw [toJson_inj hvalue, toJsonEntries_inj hrest]
  | [], _ :: _, h | _ :: _, [], h => by
    simp [toJsonEntries] at h
end

/-- **The JSON text of a specification loses nothing**: two specifications that are written
alike are the same, whatever is nested in them, and whatever characters stand in their
targets and titles. -/
theorem compact_toJson_eq_iff (a b : Spec) : a.toJson.compact = b.toJson.compact ↔ a = b :=
  ⟨fun h => toJson_inj (JsonValue.compact_injective h), fun h => by rw [h]⟩

end Spec
end Nav
end DocSite
