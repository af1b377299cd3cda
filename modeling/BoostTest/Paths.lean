import Mathlib.Data.List.DropRight

/-! Paths as texts of any alphabet with separators. A path is taken without its
root; runs of separators count as one. -/
namespace BoostTest.Paths

variable {α : Type} (separator : α → Bool)

/-- The parts of a path, in order. -/
def components (text : List α) : List (List α) := (text.splitOnP separator).filter (!·.isEmpty)

/-- What follows the last separator. -/
def filename (text : List α) : List α := text.rtakeWhile (!separator ·)

/-- The path without its last part and the separators in front of that. -/
def parentPath (text : List α) : List α := (text.rdropWhile (!separator ·)).rdropWhile separator

/-- The text of one part. -/
structure Part (text : List α) : Prop where
  nonempty : text ≠ []
  unbroken : ∀ c ∈ text, separator c = false

/-- Each part with a separator behind it. -/
def listing (slash : α) (parts : List (List α)) : List α := parts.flatMap (· ++ [slash])

variable {separator}

theorem Part.append {left right : List α} (part : Part separator left)
    (more : ∀ c ∈ right, separator c = false) : Part separator (left ++ right) where
  nonempty empty := part.nonempty (List.append_eq_nil_iff.mp empty).1
  unbroken c member := (List.mem_append.mp member).elim (part.unbroken c) (more c)

@[simp] theorem components_nil : components separator ([] : List α) = [] := rfl

theorem components_append {slash : α} (separates : separator slash = true) (left right : List α) :
    components separator (left ++ slash :: right) =
      components separator left ++ components separator right := by
  simp only [components, List.splitOnP_append_cons _ _ separates, List.filter_append]

theorem components_cons {slash : α} (separates : separator slash = true) (text : List α) :
    components separator (slash :: text) = components separator text :=
  components_append separates [] text

theorem components_snoc {slash : α} (separates : separator slash = true) (text : List α) :
    components separator (text ++ [slash]) = components separator text :=
  (components_append separates text []).trans (List.append_nil _)

theorem Part.components {text : List α} (part : Part separator text) :
    components separator text = [text] := by
  have visible : text.isEmpty = false := List.isEmpty_eq_false_iff.mpr part.nonempty
  simp [Paths.components, List.splitOnP_eq_singleton part.unbroken, visible]

theorem components_rdropWhile (text : List α) :
    components separator (text.rdropWhile separator) = components separator text := by
  induction text using List.reverseRecOn with
  | nil => rfl
  | append_singleton text c ih =>
    by_cases separates : separator c = true
    · rw [List.rdropWhile_concat_pos _ _ _ separates, ih, components_snoc separates]
    · rw [List.rdropWhile_concat_neg _ _ _ separates]

section Listing
variable {slash : α} {parts : List (List α)} {text : List α}

theorem components_listing_append (separates : separator slash = true)
    (all : ∀ part ∈ parts, Part separator part) (text : List α) :
    components separator (listing slash parts ++ text) = parts ++ components separator text := by
  induction parts with
  | nil => rfl
  | cons part rest ih =>
    have first : listing slash (part :: rest) ++ text = part ++ slash :: (listing slash rest ++ text) := by
      simp [listing]
    rw [first, components_append separates, (all part List.mem_cons_self).components,
      ih fun other member => all other (List.mem_cons_of_mem _ member)]
    rfl

/-- Such a text does not begin with a separator. -/
theorem listing_append_head (all : ∀ part ∈ parts, Part separator part) (last : Part separator text) :
    ∃ c tail, listing slash parts ++ text = c :: tail ∧ separator c = false := by
  cases parts with
  | nil =>
    obtain ⟨c, tail, shape⟩ := List.exists_cons_of_ne_nil last.nonempty
    exact ⟨c, tail, shape, last.unbroken c (by simp [shape])⟩
  | cons part rest =>
    have first := all part List.mem_cons_self
    obtain ⟨c, tail, shape⟩ := List.exists_cons_of_ne_nil first.nonempty
    exact ⟨c, tail ++ slash :: (listing slash rest ++ text), by simp [listing, shape],
      first.unbroken c (by simp [shape])⟩

/-- A text without separators after some parts is the last part. -/
theorem rdropWhile_listing (separates : separator slash = true)
    (unbroken : ∀ c ∈ text, separator c = false) :
    (listing slash parts ++ text).rdropWhile (!separator ·) = listing slash parts := by
  induction text using List.reverseRecOn with
  | nil =>
    rw [List.append_nil]
    cases parts using List.reverseRecOn with
    | nil => rfl
    | append_singleton before last =>
      have ends : listing slash (before ++ [last]) = (listing slash before ++ last) ++ [slash] := by
        simp [listing]
      rw [ends]
      exact List.rdropWhile_concat_neg _ _ _ (by simp [separates])
  | append_singleton text c ih =>
    have plain : separator c = false := unbroken c (by simp)
    rw [← List.append_assoc, List.rdropWhile_concat_pos _ _ _ (by simp [plain])]
    exact ih fun other member => unbroken other (List.mem_append_left _ member)

theorem filename_listing (separates : separator slash = true)
    (unbroken : ∀ c ∈ text, separator c = false) :
    filename separator (listing slash parts ++ text) = text := by
  have whole := List.rdropWhile_append_rtakeWhile (l := listing slash parts ++ text)
    (p := (!separator ·))
  rw [rdropWhile_listing separates unbroken] at whole
  exact List.append_cancel_left whole

theorem components_parentPath_listing (separates : separator slash = true)
    (all : ∀ part ∈ parts, Part separator part) (unbroken : ∀ c ∈ text, separator c = false) :
    components separator (parentPath separator (listing slash parts ++ text)) = parts := by
  have listed := components_listing_append separates all []
  rw [List.append_nil, components_nil, List.append_nil] at listed
  rw [parentPath, components_rdropWhile, rdropWhile_listing separates unbroken, listed]

end Listing
end BoostTest.Paths
