import CatalogSync.Catalog.TypeRule
import CatalogSync.Proofs.Text.Words

/-!
What the rules for types can give. A field type is one of a few names; a native type is one word,
whatever the catalog writes, since it ends at the first space of a text with single spaces.
-/

namespace CatalogSync.TypeRule

open Text (isBlank NoBlank SingleSpaced)

/-- A field type without a marker is that of some rule or the default. -/
theorem baseFieldType_cases {p : String → Prop} (hrule : ∀ r ∈ fieldRules, p r.fieldType)
    (hdefault : p defaultFieldType) (sqlType : String) : p (baseFieldType sqlType) := by
  rw [baseFieldType]
  split
  next rule hfound => exact hrule rule (List.mem_of_find?_eq_some hfound)
  next => exact hdefault

theorem fieldType_ne (sqlType : String) (nullable : Bool) : fieldType sqlType nullable ≠ "" := by
  have hbase : baseFieldType sqlType ≠ "" := by
    refine baseFieldType_cases (p := (· ≠ "")) ?_ ?_ sqlType
    · decide
    · decide
  simp [fieldType, String.append_eq_empty_iff, hbase]

theorem singleSpaced_normalise (s : List Char) : SingleSpaced (normalise s) :=
  (Text.singleSpaced_joined_words fun _ hw => Text.mem_words hw).1

theorem afterSize_suffix (s : List Char) : afterSize s <:+ s := by
  unfold afterSize
  split
  next rest =>
    split
    next d ds after htake hdrop =>
      have hsuffix : ')' :: after <:+ rest := hdrop ▸ List.dropWhile_suffix _
      exact ((List.suffix_cons ')' after).trans hsuffix).trans (List.suffix_cons '(' rest)
    next => exact List.suffix_refl _
  next => exact List.suffix_refl _

theorem after?_suffix {mark s rest : List Char} (h : Text.after? mark s = some rest) :
    rest <:+ s := by
  rw [Text.after?_eq_some_iff.1 h]
  exact List.suffix_append _ _

theorem afterUnsigned?_suffix {s rest : List Char} (h : afterUnsigned? s = some rest) :
    rest <:+ s := by
  unfold afterUnsigned? at h
  split at h
  next c tail =>
    split at h
    · exact ((after?_suffix h).trans (List.dropWhile_suffix _)).trans (List.suffix_cons c tail)
    · cases h
  next => cases h

/-- What a rule leaves of a text is an end of the text. -/
theorem NativeRule.rest?_suffix {r : NativeRule} {s rest : List Char} (h : r.rest? s = some rest) :
    rest <:+ s := by
  rw [rest?] at h
  split at h
  next tail htail =>
    split at h
    · exact ((afterUnsigned?_suffix h).trans (afterSize_suffix tail)).trans (after?_suffix htail)
    · obtain rfl := Option.some.inj h
      exact after?_suffix htail
  next => cases h

/-- A native type is one word. -/
theorem noBlank_of_nativeType? {sqlType t : String} (h : nativeType? sqlType = some t) :
    NoBlank t.toList := by
  obtain ⟨s, hs, rfl⟩ := Option.map_eq_some_iff.1 h
  obtain ⟨rule, hrule, hreplaced⟩ := List.exists_of_findSome?_eq_some hs
  obtain ⟨rest, hrest, rfl⟩ := Option.map_eq_some_iff.1 hreplaced
  have hnative : NoBlank rule.native.toList := by
    have hall : ∀ r ∈ nativeRules, NoBlank r.native.toList := by decide
    exact hall rule hrule
  have hspaced := (singleSpaced_normalise sqlType.toList).of_isInfix (rule.rest?_suffix hrest).isInfix
  rw [String.toList_ofList]
  intro c hc
  have hspace : c ≠ ' ' := by
    have := List.all_eq_true.1 List.all_takeWhile c hc
    simpa using this
  rcases List.mem_append.1 ((List.takeWhile_prefix _).subset hc) with hmem | hmem
  · exact hnative c hmem
  · cases hb : isBlank c with
    | false => rfl
    | true => exact absurd (hspaced.1 c hmem hb) hspace

end CatalogSync.TypeRule
