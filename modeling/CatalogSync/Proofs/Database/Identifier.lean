import CatalogSync.Database.Session

/-!
Identifiers in statements, as the database reads them: from one backtick to the first one behind it that is not
doubled. A name that is quoted is read as it was, up to the end of the quoted text and not beyond it, so no name
gets out of its quotes; and no other text is read as that name. So the statements that describe tables tell their
names apart.
-/

namespace CatalogSync

/-- The name up to the first backtick that is not doubled, two backticks standing for one, and what is left of
the text behind that backtick. -/
def nameToBacktick? : List Char → Option (List Char × List Char)
  | [] => none
  | '\x60' :: '\x60' :: rest => (nameToBacktick? rest).map fun p => ('\x60' :: p.1, p.2)
  | '\x60' :: rest => some ([], rest)
  | c :: rest => (nameToBacktick? rest).map fun p => (c :: p.1, p.2)

/-- Reads an identifier between backticks: its name, and what is left of the text. -/
def readIdentifier? : List Char → Option (List Char × List Char)
  | '\x60' :: rest => nameToBacktick? rest
  | _ => none

open quoteIdentifier (double)

theorem nameToBacktick?_cons_of_ne {c : Char} (h : c ≠ '\x60') (s : List Char) :
    nameToBacktick? (c :: s) = (nameToBacktick? s).map fun p => (c :: p.1, p.2) := by
  rw [nameToBacktick?]
  · exact fun _ hc => absurd hc h
  · exact fun hc => absurd hc h

/-- A backtick that no other follows ends the name. -/
theorem nameToBacktick?_cons_of_head? {rest : List Char} (h : rest.head? ≠ some '\x60') :
    nameToBacktick? ('\x60' :: rest) = some ([], rest) := by
  rw [nameToBacktick?]
  rintro tail rfl
  exact h rfl

/-- A name with its backticks doubled is read as it was, whatever follows its last backtick. -/
theorem nameToBacktick?_double (name : List Char) {rest : List Char} (h : rest.head? ≠ some '\x60') :
    nameToBacktick? (name.flatMap double ++ '\x60' :: rest) = some (name, rest) := by
  induction name with
  | nil => exact nameToBacktick?_cons_of_head? h
  | cons c name ih =>
    rw [List.flatMap_cons, List.append_assoc, double]
    split
    next hc =>
      rw [hc, List.cons_append, List.singleton_append, nameToBacktick?, ih]
      rfl
    next hc =>
      rw [List.singleton_append, nameToBacktick?_cons_of_ne hc, ih]
      rfl

/-- Only the name with its backticks doubled is read as the name. -/
theorem eq_of_nameToBacktick? {s name rest : List Char} (h : nameToBacktick? s = some (name, rest)) :
    s = name.flatMap double ++ '\x60' :: rest ∧ rest.head? ≠ some '\x60' := by
  induction s using nameToBacktick?.induct generalizing name with
  | case1 => cases h
  | case2 s ih =>
    rw [nameToBacktick?] at h
    obtain ⟨⟨n, r⟩, hread, heq⟩ := Option.map_eq_some_iff.1 h
    obtain ⟨rfl, rfl⟩ := Prod.mk.inj heq
    obtain ⟨rfl, hrest⟩ := ih hread
    exact ⟨rfl, hrest⟩
  | case3 s hnext =>
    rw [nameToBacktick?] at h
    · obtain ⟨rfl, rfl⟩ := Prod.mk.inj (Option.some.inj h)
      refine ⟨rfl, fun hhead => ?_⟩
      obtain ⟨tail, rfl⟩ := List.head?_eq_some_iff.1 hhead
      exact hnext tail rfl
    · exact hnext
  | case4 c s _ hc ih =>
    rw [nameToBacktick?_cons_of_ne hc] at h
    obtain ⟨⟨n, r⟩, hread, heq⟩ := Option.map_eq_some_iff.1 h
    obtain ⟨rfl, rfl⟩ := Prod.mk.inj heq
    obtain ⟨rfl, hrest⟩ := ih hread
    refine ⟨?_, hrest⟩
    rw [List.flatMap_cons, double, if_neg hc]
    rfl

theorem toList_quoteIdentifier (name : String) :
    (quoteIdentifier name).toList = '\x60' :: name.toList.flatMap double ++ ['\x60'] :=
  String.toList_ofList

/-- An identifier is read where a quoted name stands in front of a text that does not go on with a backtick. -/
theorem readIdentifier?_eq_some_iff {s rest : List Char} {name : String} :
    readIdentifier? s = some (name.toList, rest) ↔
      s = (quoteIdentifier name).toList ++ rest ∧ rest.head? ≠ some '\x60' := by
  rw [toList_quoteIdentifier]
  constructor
  · intro h
    unfold readIdentifier? at h
    split at h
    next s =>
      obtain ⟨rfl, hrest⟩ := eq_of_nameToBacktick? h
      exact ⟨by simp, hrest⟩
    next => cases h
  · rintro ⟨rfl, hrest⟩
    simpa [readIdentifier?] using nameToBacktick?_double name.toList hrest

example : readIdentifier? "\x60we\x60\x60ird\x60\x60\x60;".toList = some ("we\x60ird\x60".toList, [';']) := by
  decide

/-- A quoted name is read as the name with nothing left, no other text is, and in front of a text that does not go
on with a backtick the same is read; so the statements that describe tables are the same only for the same
name. -/
theorem readIdentifier?_quoteIdentifier (name : String) :
    readIdentifier? (quoteIdentifier name).toList = some (name.toList, []) ∧
    (∀ s rest, readIdentifier? s = some (name.toList, rest) ↔
      s = (quoteIdentifier name).toList ++ rest ∧ rest.head? ≠ some '\x60') ∧
    ∀ other, (Statement.describe name).sql = (Statement.describe other).sql ↔ name = other := by
  have hread : ∀ n : String, readIdentifier? (quoteIdentifier n).toList = some (n.toList, []) :=
    fun n => readIdentifier?_eq_some_iff.2 ⟨(List.append_nil _).symm, nofun⟩
  refine ⟨hread name, fun s rest => readIdentifier?_eq_some_iff, fun other => ⟨fun hsql => ?_, fun h => h ▸ rfl⟩⟩
  have hquoted : quoteIdentifier name = quoteIdentifier other := (String.append_right_inj _).1 hsql
  have hsame : some (name.toList, ([] : List Char)) = some (other.toList, []) := by
    rw [← hread name, hquoted, hread other]
  exact String.toList_inj.1 (Prod.mk.inj (Option.some.inj hsame)).1

end CatalogSync
