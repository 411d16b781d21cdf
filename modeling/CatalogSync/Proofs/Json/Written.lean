import CatalogSync.Json.Writer
import CatalogSync.Proofs.Text.Loose

/-!
Halves of surrogate pairs in JSON text. What is written of a value holds the halves of its texts, names
among them, in their order; so it can be encoded exactly where all of them can.
-/

namespace CatalogSync.Json

open LooseText (Marked)

theorem marked_renderString (s : LooseText) :
    Marked s.halves (renderString (s.shownBy '?')) (renderString (s.shownBy '!')) := by
  have body := (Marked.shownBy s).flatMap (f := escapedChar) (by decide) (by decide)
  exact (body.prepend ['"']).followed ['"']

/-! A value and the rest of an array or an object go on in one another, as the writer does. -/

mutual

theorem marked_renderAt (depth : Nat) : (j : Json) → Marked (j.texts.flatMap (·.halves))
    (renderAt depth (j.shownBy '?')) (renderAt depth (j.shownBy '!'))
  | .null => .refl _
  | .bool _ => .refl _
  | .int _ => .refl _
  | .float _ => .refl _
  | .str s => by
    rw [texts, List.flatMap_singleton]
    exact marked_renderString s
  | .arr [] => .refl _
  | .arr (first :: rest) => by
    have item := marked_renderAt (depth + 1) first
    have items := item.append (marked_renderRest (depth + 1) rest)
    have all := (items.prepend ('[' :: lineStart (depth + 1))).followed (lineStart depth ++ [']'])
    simpa [texts, textsOfItems, shownBy, itemsShownBy, renderAt] using all
  | .obj [] => .refl _
  | .obj ((name, first) :: rest) => by
    have value := (marked_renderAt (depth + 1) first).prepend ": ".toList
    have member := (marked_renderString name).append value
    have members := member.append (marked_renderMembers (depth + 1) rest)
    have all := (members.prepend ('{' :: lineStart (depth + 1))).followed (lineStart depth ++ ['}'])
    simpa [texts, textsOfMembers, shownBy, membersShownBy, renderAt] using all

theorem marked_renderRest (depth : Nat) : (items : List Json) →
    Marked ((textsOfItems items).flatMap (·.halves)) (renderRest depth (itemsShownBy '?' items))
      (renderRest depth (itemsShownBy '!' items))
  | [] => .refl _
  | item :: rest => by
    have items := (marked_renderAt depth item).append (marked_renderRest depth rest)
    have all := items.prepend (',' :: lineStart depth)
    simpa [textsOfItems, itemsShownBy, renderRest] using all

theorem marked_renderMembers (depth : Nat) : (members : List (LooseText × Json)) →
    Marked ((textsOfMembers members).flatMap (·.halves))
      (renderMembers depth (membersShownBy '?' members))
      (renderMembers depth (membersShownBy '!' members))
  | [] => .refl _
  | (name, item) :: rest => by
    have value := (marked_renderAt depth item).prepend ": ".toList
    have member := (marked_renderString name).append value
    have members := member.append (marked_renderMembers depth rest)
    have all := members.prepend (',' :: lineStart depth)
    simpa [textsOfMembers, membersShownBy, renderMembers] using all

end

/-- The text of a value is broken exactly where one of the texts in it is. -/
theorem isBroken_written (j : Json) : j.written.isBroken = j.texts.any (·.isBroken) :=
  LooseText.isBroken_written (marked_renderAt 0 j)

theorem textsOfItems_eq (items : List Json) : textsOfItems items = items.flatMap texts := by
  induction items with
  | nil => rfl
  | cons item rest ih => rw [textsOfItems, List.flatMap_cons, ih]

end CatalogSync.Json
