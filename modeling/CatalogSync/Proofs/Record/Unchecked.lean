import CatalogSync.Record.Assign

/-!
Records whose fields are not checked. What stands under a name of a record that was made of an object is
the value of that name, and setting a field puts a value that was checked for it in that place alone.
-/

namespace CatalogSync

namespace Unchecked

variable {kind : RecordName} {parts : List (String × (Json → Unchecked))}

/-- What stands under a name in the record of an object. -/
theorem member_ofObject (members : List (LooseText × Json)) (name : String) :
    (ofObject kind parts (.obj members)).member name = match Json.lookup? members (.text name) with
      | some value => .ok (readPart parts (.text name) value)
      | none => .error (.lacking kind.word name) := by
  rw [ofObject, member, Json.lookup?]
  have hfind : (members.map fun m => (m.1, readPart parts m.1 m.2)).find? (·.1 = .text name) =
      (members.find? (·.1 = .text name)).map fun m => (m.1, readPart parts m.1 m.2) := by
    rw [List.find?_map]
    rfl
  rw [hfind]
  cases hmember : members.find? (·.1 = .text name) with
  | none => rfl
  | some m =>
    have hname : m.1 = .text name := by simpa using List.find?_some hmember
    simp [hname]

/-- A text inside a text is as it is. -/
@[simp]
theorem inline_text (s : String) : (plain (.str (.text s))).inline = s := rfl

theorem ok_bind {α β : Type} (a : α) (f : α → Except Fault β) : (Except.ok a >>= f) = f a := rfl

/-- Values that are all plain stand for the plain values. -/
theorem map_plain_of_mapM {vs : List Unchecked} {js : List Json} (h : vs.mapM plain? = some js) :
    js.map .plain = vs := by
  induction vs generalizing js with
  | nil =>
    cases h
    rfl
  | cons v vs ih =>
    simp only [List.mapM_cons, Option.pure_def, Option.bind_eq_bind, Option.bind_eq_some_iff,
      Option.some.injEq] at h
    obtain ⟨j, hj, rest, hrest, rfl⟩ := h
    have hv : .plain j = v := by
      cases v with
      | plain _ => exact congrArg _ (Option.some.inj hj).symm
      | list _ => cases hj
      | record _ _ _ => cases hj
    rw [List.map_cons, hv, ih hrest]

theorem items_ofItems (vs : List Unchecked) : (ofItems vs).items = .ok vs := by
  rw [ofItems]
  cases hplain : vs.mapM plain? with
  | none => rfl
  | some js =>
    rw [← map_plain_of_mapM hplain]
    rfl

theorem isTruthy_ofItems (vs : List Unchecked) : (ofItems vs).isTruthy = !vs.isEmpty := by
  rw [ofItems]
  cases hplain : vs.mapM plain? with
  | none => rfl
  | some js =>
    rw [← map_plain_of_mapM hplain, List.isEmpty_map]
    rfl

/-- A value that is put at the end of a list. -/
theorem append_ofItems (vs : List Unchecked) :
    ∃ push, (ofItems vs).append = .ok push ∧ ∀ v, push v = ofItems (vs ++ [v]) := by
  rw [ofItems]
  cases hplain : vs.mapM plain? with
  | some js => exact ⟨_, rfl, fun v => by rw [map_plain_of_mapM hplain]⟩
  | none =>
    refine ⟨_, rfl, fun v => ?_⟩
    rw [ofItems, List.mapM_append, hplain]
    rfl

/-! ### What is put under a name -/

variable {members : List (LooseText × Unchecked)} {name : LooseText} {v : Unchecked}

theorem find?_put_self : (put members name v).find? (·.1 = name) = some (name, v) := by
  induction members with
  | nil => simp [put]
  | cons m members ih =>
    obtain ⟨n, w⟩ := m
    by_cases hn : n = name <;> simp [put, hn, ih]

theorem find?_put_of_ne {other : LooseText} (h : other ≠ name) :
    (put members name v).find? (·.1 = other) = members.find? (·.1 = other) := by
  induction members with
  | nil => simp [put, h.symm]
  | cons m members ih =>
    obtain ⟨n, w⟩ := m
    by_cases hn : n = name
    · subst hn
      simp [put, h.symm]
    · simp [put, hn, List.find?_cons, ih]

end Unchecked

namespace Record.Shape

variable {shape : Shape} {members : List (LooseText × Unchecked)} {name : String} {value : Json}

/-- Setting a field of a record in which nothing is set aside puts what was read for it in its place. -/
theorem assign_field (hcomputed : shape.isComputed name = false) (hfield : isAside name = false) :
    shape.assign (.record shape.kind members {}) name value =
      (shape.read name value).map fun v =>
        .record shape.kind (Unchecked.put members (.text name) v) {} := by
  have hbarred : barred {} name = .ok () := rfl
  rw [assign, hbarred, Unchecked.ok_bind, if_neg (by simp [hcomputed]), if_neg (by simp [hfield])]
  cases hread : shape.read name value with
  | error e => rfl
  | ok v => rfl

/-- A value that was set passed the check of its field. It stands under the name of the field, and
nothing else is changed. -/
theorem exists_of_assign {record : Unchecked} (hcomputed : shape.isComputed name = false)
    (hfield : isAside name = false)
    (h : shape.assign (.record shape.kind members {}) name value = .ok record) :
    ∃ v, shape.read name value = .ok v ∧ record.member name = .ok v ∧
      ∀ other, other ≠ name →
        record.member other = (Unchecked.record shape.kind members {}).member other := by
  rw [assign_field hcomputed hfield] at h
  cases hread : shape.read name value with
  | error e =>
    rw [hread] at h
    cases h
  | ok v =>
    rw [hread] at h
    cases h
    refine ⟨v, rfl, ?_, fun other hother => ?_⟩
    · rw [Unchecked.member, Unchecked.find?_put_self]
    · rw [Unchecked.member, Unchecked.member, Unchecked.find?_put_of_ne (by simpa using hother)]

/-- Whatever is wrong with a value that is to be set is wrong with the field. -/
theorem path_of_check {faults : List FieldFault} (h : shape.check name value = .invalid faults) :
    ∀ f ∈ faults, f.path.head? = some (.name name) := by
  rw [check] at h
  split at h
  next field _ =>
    cases hvalue : field.2 value with
    | valid v =>
      rw [hvalue] at h
      cases h
    | invalid inner =>
      rw [hvalue] at h
      cases h
      simp [FieldFault.under]
  next =>
    cases h
    simp

end Record.Shape

end CatalogSync
