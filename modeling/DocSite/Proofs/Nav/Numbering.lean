import Mathlib.Data.List.Intervals
import DocSite.Proofs.Nav.Drafting
import DocSite.Proofs.Nav.Forest

/-!
# Numbers go with the walk

What is made for a row of entries gets the numbers from the ends of the tables
on.  Going down through it, in a navigation that has the sections of the draft,
meets each of these numbers once: those of pages and of links in their order,
and those of sections in another, because a section is visited before what is in
it and numbered after it (`numbered_placedAll`).

Nothing is said about which sections the navigation has besides.  So the same
statement serves inside a section, whose number is not given yet, and for the
finished navigation, where it says that the walk visits every part once
(`Numbered.nodup`).
-/

namespace DocSite
namespace Nav
namespace Drafting

variable {factory : PageFactory} {draft made later : Draft} {nav : Navigation}
  {visited others : List Item}

/-- A navigation has the sections of a draft, with what is in them. -/
def Within (draft : Draft) (nav : Navigation) : Prop :=
  ∀ n s, draft.sections[n]? = some s → nav.children (.ofSection ⟨n⟩) = s.children

theorem Within.of_grows (h : Within made nav) (hgrows : Grows draft made) :
    Within draft nav := by
  intro n s hs
  obtain ⟨added, hadded⟩ := hgrows.sections
  obtain ⟨hn, -⟩ := List.getElem?_eq_some_iff.1 hs
  exact h n s (by rw [← hadded, List.getElem?_append_left hn, hs])

theorem Grows.length_pages_le (h : Grows draft made) : draft.pages.length ≤ made.pages.length :=
  h.pages.length_le

theorem Grows.length_sections_le (h : Grows draft made) :
    draft.sections.length ≤ made.sections.length :=
  h.sections.length_le

theorem Grows.length_links_le (h : Grows draft made) : draft.links.length ≤ made.links.length :=
  h.links.length_le

/-- Going down meets the numbers that were given out between two drafts, each
once. -/
structure Numbered (draft made : Draft) (visited : List Item) : Prop where
  pages : visited.filterMap Item.page? =
    (List.Ico draft.pages.length made.pages.length).map PageId.mk
  links : visited.filterMap Item.link? =
    (List.Ico draft.links.length made.links.length).map LinkId.mk
  sections : (visited.filterMap Item.section?).Perm
    ((List.Ico draft.sections.length made.sections.length).map SectionId.mk)

theorem Numbered.nil (draft : Draft) : Numbered draft draft [] where
  pages := by simp
  links := by simp
  sections := by simp

theorem Numbered.append (h : Numbered draft made visited) (h' : Numbered made later others)
    (hgrows : Grows draft made) (hgrows' : Grows made later) :
    Numbered draft later (visited ++ others) where
  pages := by
    rw [List.filterMap_append, h.pages, h'.pages, ← List.map_append,
      List.Ico.append_consecutive hgrows.length_pages_le hgrows'.length_pages_le]
  links := by
    rw [List.filterMap_append, h.links, h'.links, ← List.map_append,
      List.Ico.append_consecutive hgrows.length_links_le hgrows'.length_links_le]
  sections := by
    rw [List.filterMap_append, ← List.Ico.append_consecutive hgrows.length_sections_le
      hgrows'.length_sections_le, List.map_append]
    exact h.sections.append h'.sections

/-- A section is visited before what is in it and has the number after it. -/
theorem Numbered.addSection (h : Numbered draft made visited) (hgrows : Grows draft made)
    (s : Section) :
    Numbered draft { made with sections := made.sections ++ [s] }
      (.ofSection ⟨made.sections.length⟩ :: visited) where
  pages := h.pages
  links := h.links
  sections := by
    rw [List.length_append, List.length_singleton, List.Ico.succ_top hgrows.length_sections_le,
      List.map_append]
    exact (h.sections.cons _).trans (List.perm_append_singleton _ _).symm

mutual
theorem numbered_placed (factory : PageFactory) : ∀ (e : Entry) (draft : Draft),
    Within (placed factory e draft).2 nav →
      Numbered draft (placed factory e draft).2 (nav.below (placed factory e draft).1)
  | .leaf title target, draft, _ => by
    rw [placed_leaf]
    split
    · rw [Navigation.below_ofLink]
      exact ⟨by simp [Item.page?], by simp [Item.link?, List.Ico.succ_singleton],
        by simp [Item.section?]⟩
    · rw [Navigation.below_ofPage]
      exact ⟨by simp [Item.page?, List.Ico.succ_singleton], by simp [Item.link?],
        by simp [Item.section?]⟩
  | .group title entries, draft, hwithin => by
    rw [placed_group] at hwithin ⊢
    have hgrows := grows_placedAll factory entries draft
    -- the navigation has the section made last, and all that were made before it
    have hchildren : nav.children
        (.ofSection ⟨(placedAll factory entries draft).2.sections.length⟩) =
          (placedAll factory entries draft).1 :=
      hwithin _ _ List.getElem?_concat_length
    have hinside : Within (placedAll factory entries draft).2 nav :=
      hwithin.of_grows ⟨List.prefix_rfl, List.prefix_append _ _, List.prefix_rfl, rfl⟩
    rw [Navigation.below_eq, hchildren]
    exact (numbered_placedAll factory entries draft hinside).addSection hgrows _

theorem numbered_placedAll (factory : PageFactory) : ∀ (entries : List Entry) (draft : Draft),
    Within (placedAll factory entries draft).2 nav →
      Numbered draft (placedAll factory entries draft).2
        ((placedAll factory entries draft).1.flatMap nav.below)
  | [], draft, _ => by
    rw [placedAll_nil]
    exact Numbered.nil draft
  | e :: rest, draft, hwithin => by
    rw [placedAll_cons] at hwithin ⊢
    have hgrows := grows_placed factory e draft
    have hgrows' := grows_placedAll factory rest (placed factory e draft).2
    rw [List.flatMap_cons]
    exact (numbered_placed factory e draft (hwithin.of_grows hgrows')).append
      (numbered_placedAll factory rest _ hwithin) hgrows hgrows'
end

/-! ## Each part once -/

/-- The items of one kind are counted by their numbers. -/
theorem count_filterMap {α : Type} [DecidableEq α] {part? : Item → Option α} {ofPart : α → Item}
    (hpart : ∀ item id, part? item = some id ↔ item = ofPart id) (visited : List Item) (id : α) :
    (visited.filterMap part?).count id = visited.count (ofPart id) := by
  rw [List.count, List.countP_filterMap, List.count]
  refine List.countP_congr fun item _ => ?_
  cases h : part? item with
  | none =>
    have hne : item ≠ ofPart id := fun heq => by simp [(hpart item id).2 heq] at h
    simp [hne]
  | some other =>
    obtain rfl := (hpart item other).1 h
    have hiff : other = id ↔ ofPart other = ofPart id := by
      rw [← hpart, h, Option.some.injEq]
    simp [hiff]

theorem count_map_Ico {α : Type} [DecidableEq α] {mk : ℕ → α} {index : α → ℕ}
    (hindex : ∀ n, index (mk n) = n) (hmk : ∀ id, mk (index id) = id) (low high : ℕ) (id : α) :
    ((List.Ico low high).map mk).count id =
      if low ≤ index id ∧ index id < high then 1 else 0 := by
  have hinjective : Function.Injective mk := Function.LeftInverse.injective hindex
  have hmem : id ∈ (List.Ico low high).map mk ↔ low ≤ index id ∧ index id < high := by
    rw [← hmk id, List.mem_map_of_injective hinjective, List.Ico.mem, hindex]
  rw [((List.Ico.nodup low high).map hinjective).count]
  simp only [hmem]

theorem Numbered.count_ofPage (h : Numbered draft made visited) (id : PageId) :
    visited.count (.ofPage id) =
      if draft.pages.length ≤ id.index ∧ id.index < made.pages.length then 1 else 0 := by
  rw [← count_filterMap Item.page?_eq_some_iff, h.pages]
  exact count_map_Ico (fun _ => rfl) (fun _ => rfl) _ _ id

theorem Numbered.count_ofLink (h : Numbered draft made visited) (id : LinkId) :
    visited.count (.ofLink id) =
      if draft.links.length ≤ id.index ∧ id.index < made.links.length then 1 else 0 := by
  rw [← count_filterMap Item.link?_eq_some_iff, h.links]
  exact count_map_Ico (fun _ => rfl) (fun _ => rfl) _ _ id

theorem Numbered.count_ofSection (h : Numbered draft made visited) (id : SectionId) :
    visited.count (.ofSection id) =
      if draft.sections.length ≤ id.index ∧ id.index < made.sections.length then 1 else 0 := by
  rw [← count_filterMap Item.section?_eq_some_iff, h.sections.count_eq]
  exact count_map_Ico (fun _ => rfl) (fun _ => rfl) _ _ id

/-- Nothing is visited twice. -/
theorem Numbered.nodup (h : Numbered draft made visited) : visited.Nodup := by
  rw [List.nodup_iff_count_le_one]
  intro item
  cases item with
  | ofPage id => rw [h.count_ofPage]; split <;> omega
  | ofSection id => rw [h.count_ofSection]; split <;> omega
  | ofLink id => rw [h.count_ofLink]; split <;> omega

end Drafting
end Nav
end DocSite
