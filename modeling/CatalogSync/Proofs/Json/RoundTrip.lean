import CatalogSync.Json.Reader
import CatalogSync.Json.Writer
import Mathlib.Data.List.Nodup

/-!
JSON text that is read back. A value of texts, arrays and objects is read from its own text, whatever
follows the text, as long as it holds no halves of pairs, no object of it has two members of one name
and it goes no deeper than reading does.
-/

namespace CatalogSync

namespace Json

open Text (hexDigit hexDigits)

/-! ### Strings -/

/-- The four digits of a control character are read as its number. -/
theorem hexUnit?_hexDigits {n : Nat} (h : n < 0x20) : ∃ a b c d, hexDigits 4 n = [a, b, c, d] ∧
    hexUnit? a b c d = some n := by
  have hall : ∀ n < 0x20, hexUnit? (hexDigit (n / 16 / 16 / 16 % 16)) (hexDigit (n / 16 / 16 % 16))
      (hexDigit (n / 16 % 16)) (hexDigit (n % 16)) = some n := by decide
  exact ⟨_, _, _, _, rfl, hall n h⟩

/-- An escape by a letter is read as the character that the letter stands for. -/
theorem stringUnits_escaped {letter c : Char} (h : escaped? letter = some c) (rest : List Char) :
    stringUnits ('\\' :: letter :: rest) =
      (stringUnits rest).map fun p => (c.toNat :: p.1, p.2) := by
  have hletter : letter ≠ 'u' := by
    rintro rfl
    cases h
  rw [stringUnits.eq_4 _ _ fun _ _ _ _ _ hu _ => hletter hu, h]
  cases stringUnits rest <;> rfl

/-- A character is read back from the way it is written in a string. -/
theorem stringUnits_escapedChar (c : Char) (rest : List Char) :
    stringUnits (escapedChar c ++ rest) = (stringUnits rest).map fun p => (c.toNat :: p.1, p.2) := by
  rw [escapedChar]
  split
  next hc => exact stringUnits_escaped (by rw [hc]; rfl) rest
  next hquote =>
  split
  next hc => exact stringUnits_escaped (by rw [hc]; rfl) rest
  next hslash =>
  split
  next hc => exact stringUnits_escaped (by rw [hc]; rfl) rest
  split
  next hc => exact stringUnits_escaped (by rw [hc]; rfl) rest
  split
  next hc => exact stringUnits_escaped (by rw [hc]; rfl) rest
  split
  next hc => exact stringUnits_escaped (by rw [hc]; rfl) rest
  split
  next hc => exact stringUnits_escaped (by rw [hc]; rfl) rest
  split
  next hcontrol =>
    obtain ⟨x, y, z, w, hdigits, hunit⟩ := hexUnit?_hexDigits hcontrol
    rw [hdigits, List.cons_append, List.cons_append, List.cons_append, List.cons_append,
      List.cons_append, List.cons_append, List.nil_append, stringUnits, hunit]
    cases stringUnits rest <;> rfl
  next hplain =>
    rw [List.cons_append, List.nil_append, stringUnits.eq_5 _ _ hquote
      (fun _ _ _ _ _ hc _ => hslash hc) (fun _ _ hc _ => hslash hc), if_neg (by
        rintro (hc | hc)
        · exact hplain hc
        · exact hslash hc)]
    cases stringUnits rest <;> rfl

/-- The characters of a string are read up to its closing quote. -/
theorem stringUnits_flatMap (s rest : List Char) :
    stringUnits (s.flatMap escapedChar ++ '"' :: rest) = some (s.map (·.toNat), rest) := by
  induction s with
  | nil => rfl
  | cons c s ih =>
    rw [List.flatMap_cons, List.append_assoc, stringUnits_escapedChar, ih]
    rfl

/-- Characters are no halves, so that none are joined. -/
theorem joinUnits_toNat (s : List Char) : joinUnits (s.map (·.toNat)) = s.map (·.toNat) := by
  induction s with
  | nil => rfl
  | cons c s ih =>
    cases s with
    | nil => rfl
    | cons d s =>
      have hvalid : c.toNat < 0xD800 ∨ 0xDFFF < c.toNat ∧ c.toNat < 0x110000 := c.valid
      rw [List.map_cons] at ih
      rw [List.map_cons, List.map_cons, joinUnits, if_neg (by omega), ih]

theorem renderString_text (s : String) :
    renderString (.text s) = '"' :: (s.toList.flatMap escapedChar ++ ['"']) := rfl

/-- A text is read back from its string. -/
theorem stringBody_append (s : String) (rest : List Char) :
    stringBody (s.toList.flatMap escapedChar ++ '"' :: rest) = some (.text s, rest) := by
  have hcodes : LooseText.ofCodes (s.toList.map (·.toNat)) = .text s :=
    LooseText.ofCodes_codes (.text s)
  rw [stringBody, stringUnits_flatMap, Option.map_some, joinUnits_toNat, hcodes]

/-! ### Objects -/

theorem mem_of_mem_put {members : List (LooseText × Json)} {name : LooseText} {value : Json}
    {m : LooseText × Json} (h : m ∈ put members name value) : m ∈ members ∨ m = (name, value) := by
  induction members with
  | nil => exact .inr (List.mem_singleton.1 h)
  | cons n members ih =>
    rw [put] at h
    split at h
    next hname =>
      rcases List.mem_cons.1 h with rfl | hmem
      · exact .inr (by rw [hname])
      · exact .inl (List.mem_cons_of_mem _ hmem)
    next =>
      rcases List.mem_cons.1 h with rfl | hmem
      · exact .inl List.mem_cons_self
      · exact (ih hmem).imp_left (List.mem_cons_of_mem _)

/-- An object that is read from named values has no other values. -/
theorem mem_of_mem_foldl_put {members known : List (LooseText × Json)} {m : LooseText × Json}
    (h : m ∈ members.foldl (fun known m => put known m.1 m.2) known) : m ∈ known ∨ m ∈ members := by
  induction members generalizing known with
  | nil => exact .inl h
  | cons n members ih =>
    rcases ih h with hmem | hmem
    · exact (mem_of_mem_put hmem).imp_right fun heq => List.mem_cons.2 (.inl heq)
    · exact .inr (List.mem_cons_of_mem _ hmem)

theorem put_of_not_mem {members : List (LooseText × Json)} {name : LooseText} (value : Json)
    (h : name ∉ members.map (·.1)) : put members name value = members ++ [(name, value)] := by
  induction members with
  | nil => rfl
  | cons m members ih =>
    rw [List.map_cons, List.mem_cons, not_or] at h
    rw [put, if_neg fun hm => h.1 hm.symm, ih h.2]
    rfl

/-- Members of distinct names are the members of their object. -/
theorem ofMembers_of_nodup {members : List (LooseText × Json)} (h : (members.map (·.1)).Nodup) :
    ofMembers members = .obj members := by
  have hfold : ∀ known : List (LooseText × Json), ((known ++ members).map (·.1)).Nodup →
      members.foldl (fun known m => put known m.1 m.2) known = known ++ members := by
    induction members with
    | nil => exact fun known _ => (List.append_nil known).symm
    | cons m members ih =>
      intro known hknown
      have hnew : m.1 ∉ known.map (·.1) := by
        rw [List.map_append, List.map_cons, List.nodup_append] at hknown
        exact fun hmem => hknown.2.2 _ hmem _ List.mem_cons_self rfl
      rw [List.foldl_cons, put_of_not_mem m.2 hnew, ih (List.nodup_cons.1 h).2 _ (by simpa using hknown)]
      simp
  rw [ofMembers, hfold [] h]
  rfl

/-- A value of texts, arrays and objects, at most a number of containers deep, without halves of
pairs and with distinct names in each object. -/
inductive Plain : Nat → Json → Prop where
  | str (depth : Nat) (s : String) : Plain depth (.str (.text s))
  | arr {depth : Nat} {items : List Json} (h : ∀ j ∈ items, Plain depth j) :
    Plain (depth + 1) (.arr items)
  | obj {depth : Nat} {members : List (LooseText × Json)} (hnodup : (members.map (·.1)).Nodup)
    (htext : ∀ m ∈ members, ∃ name, m.1 = .text name) (h : ∀ m ∈ members, Plain depth m.2) :
    Plain (depth + 1) (.obj members)

/-! ### White space -/

theorem skipSpace_of_head? {s : List Char} (h : ∀ c ∈ s.head?, isSpace c = false) :
    skipSpace s = s := by
  cases s with
  | nil => rfl
  | cons c s => exact List.dropWhile_cons_of_neg (by simp [h c rfl])

/-- White space in front of a line is passed over. -/
theorem skipSpace_lineStart (depth : Nat) {s : List Char} (h : ∀ c ∈ s.head?, isSpace c = false) :
    skipSpace (lineStart depth ++ s) = s := by
  have hspaces : ∀ n : Nat, skipSpace (List.replicate n ' ' ++ s) = s := by
    intro n
    induction n with
    | zero => exact skipSpace_of_head? h
    | succ n ih => exact ih
  exact hspaces _

/-- The text of a plain value begins with a quote or an opening bracket. -/
theorem Plain.exists_renderAt {depth : Nat} {j : Json} (h : Plain depth j) (d : Nat) :
    ∃ c rest, renderAt d j = c :: rest ∧ c ∈ ['"', '[', '{'] := by
  cases h with
  | str _ s => exact ⟨'"', s.toList.flatMap escapedChar ++ ['"'], by rw [renderAt, renderString_text],
      by simp⟩
  | arr h =>
    rename_i items
    cases items with
    | nil => exact ⟨'[', [']'], rfl, by simp⟩
    | cons first rest => exact ⟨'[', _, rfl, by simp⟩
  | obj hnodup htext h =>
    rename_i members
    cases members with
    | nil => exact ⟨'{', ['}'], rfl, by simp⟩
    | cons first rest => exact ⟨'{', _, rfl, by simp⟩

theorem Plain.head?_renderAt {depth : Nat} {j : Json} (h : Plain depth j) (d : Nat)
    (rest : List Char) : ∀ c ∈ (renderAt d j ++ rest).head?, isSpace c = false := by
  obtain ⟨c, tail, htext, hc⟩ := h.exists_renderAt d
  intro e he
  rw [htext, List.cons_append, List.head?_cons, Option.mem_some_iff] at he
  subst he
  simp only [List.mem_cons, List.not_mem_nil, or_false] at hc
  rcases hc with rfl | rfl | rfl <;> rfl

/-! ### Values -/

/-- A value is read from its text at a depth, whatever follows the text. -/
def ReadsAt (room d : Nat) (j : Json) : Prop :=
  ∀ (fuel : Nat) (rest : List Char), (renderAt d j).length ≤ fuel →
    value room fuel (renderAt d j ++ rest) = .ok (j, rest)

theorem elements_last {room fuel : Nat} {s t after : List Char} {j : Json}
    (hvalue : value room fuel s = .ok (j, t)) (ht : skipSpace t = ']' :: after) :
    elements room (fuel + 1) s = .ok ([j], after) := by
  rw [elements, hvalue]
  simp only [bind, Except.bind, ht]

theorem elements_cons {room fuel : Nat} {s t more after : List Char} {j : Json} {js : List Json}
    (hvalue : value room fuel s = .ok (j, t)) (ht : skipSpace t = ',' :: more)
    (hmore : elements room fuel (skipSpace more) = .ok (js, after)) :
    elements room (fuel + 1) s = .ok (j :: js, after) := by
  rw [elements, hvalue]
  simp only [bind, Except.bind, ht, hmore]

theorem members_last {room fuel : Nat} {s r t u after : List Char} {name : LooseText} {j : Json}
    (hname : stringBody s = some (name, r)) (hcolon : skipSpace r = ':' :: t)
    (hvalue : value room fuel (skipSpace t) = .ok (j, u)) (hu : skipSpace u = '}' :: after) :
    members room (fuel + 1) ('"' :: s) = .ok ([(name, j)], after) := by
  rw [members, hname]
  simp only [found, bind, Except.bind, hcolon, hvalue, hu]

theorem members_cons {room fuel : Nat} {s r t u more after : List Char} {name : LooseText} {j : Json}
    {ms : List (LooseText × Json)} (hname : stringBody s = some (name, r))
    (hcolon : skipSpace r = ':' :: t) (hvalue : value room fuel (skipSpace t) = .ok (j, u))
    (hu : skipSpace u = ',' :: more)
    (hmore : members room fuel (skipSpace more) = .ok (ms, after)) :
    members room (fuel + 1) ('"' :: s) = .ok ((name, j) :: ms, after) := by
  rw [members, hname]
  simp only [found, bind, Except.bind, hcolon, hvalue, hu, hmore]

/-- Elements that are read one by one are read as a row. -/
theorem elements_render {depth d room : Nat} {first : Json} {items : List Json}
    (hplain : ∀ j ∈ first :: items, Plain depth j) (hreads : ∀ j ∈ first :: items, ReadsAt room d j)
    {fuel : Nat} (hfuel : (renderAt d first ++ renderRest d items).length < fuel) (outer : Nat)
    (rest : List Char) :
    elements room fuel
        (renderAt d first ++ (renderRest d items ++ (lineStart outer ++ ']' :: rest))) =
      .ok (first :: items, rest) := by
  induction items generalizing first fuel with
  | nil =>
    obtain ⟨fuel, rfl⟩ := Nat.exists_eq_succ_of_ne_zero (Nat.ne_zero_of_lt hfuel)
    rw [renderRest, List.append_nil] at hfuel
    have hfirst := hreads first List.mem_cons_self fuel (lineStart outer ++ ']' :: rest) (by omega)
    refine elements_last hfirst (skipSpace_lineStart outer ?_)
    simp [isSpace]
  | cons item items ih =>
    obtain ⟨fuel, rfl⟩ := Nat.exists_eq_succ_of_ne_zero (Nat.ne_zero_of_lt hfuel)
    simp only [renderRest, List.length_append, List.length_cons] at hfuel
    have hshape : renderRest d (item :: items) ++ (lineStart outer ++ ']' :: rest) =
        ',' :: (lineStart d ++ (renderAt d item ++ (renderRest d items ++
          (lineStart outer ++ ']' :: rest)))) := by
      simp [renderRest]
    have hitem : Plain depth item := hplain item (by simp)
    rw [hshape]
    refine elements_cons (hreads first List.mem_cons_self fuel _ (by omega))
      (skipSpace_of_head? (by simp [isSpace])) ?_
    rw [skipSpace_lineStart d (hitem.head?_renderAt d _)]
    refine ih (fun j hj => hplain j (List.mem_cons_of_mem _ hj))
      (fun j hj => hreads j (List.mem_cons_of_mem _ hj)) ?_
    rw [List.length_append]
    omega

/-- Members that are read one by one are read as a row. -/
theorem members_render {depth d room : Nat} {name : String} {first : Json}
    {items : List (LooseText × Json)} (htext : ∀ m ∈ items, ∃ name, m.1 = .text name)
    (hplain : ∀ m ∈ (.text name, first) :: items, Plain depth m.2)
    (hreads : ∀ m ∈ (.text name, first) :: items, ReadsAt room d m.2) {fuel : Nat}
    (hfuel : (renderAt d first ++ renderMembers d items).length < fuel) (outer : Nat)
    (rest : List Char) :
    members room fuel (renderString (.text name) ++ (": ".toList ++ (renderAt d first ++
        (renderMembers d items ++ (lineStart outer ++ '}' :: rest))))) =
      .ok ((.text name, first) :: items, rest) := by
  have hspace : ∀ s : List Char, ": ".toList ++ s = ':' :: ' ' :: s := fun _ => rfl
  have hblank : ∀ s : List Char, (∀ c ∈ s.head?, isSpace c = false) → skipSpace (' ' :: s) = s :=
    fun s hs => skipSpace_of_head? hs
  have hcolon : ∀ s : List Char, skipSpace (':' :: ' ' :: s) = ':' :: ' ' :: s := fun _ => rfl
  have hstring : ∀ (name : String) (s : List Char), renderString (.text name) ++ s =
      '"' :: (name.toList.flatMap escapedChar ++ '"' :: s) := by
    intro name s
    rw [renderString_text]
    simp
  induction items generalizing name first fuel with
  | nil =>
    obtain ⟨fuel, rfl⟩ := Nat.exists_eq_succ_of_ne_zero (Nat.ne_zero_of_lt hfuel)
    rw [renderMembers, List.append_nil] at hfuel
    have hfirst : ReadsAt room d first := hreads _ List.mem_cons_self
    rw [hstring, hspace]
    refine members_last (stringBody_append name _) (hcolon _) ?_
      (skipSpace_lineStart outer (by simp [isSpace]))
    rw [hblank _ ((hplain _ List.mem_cons_self).head?_renderAt d _)]
    exact hfirst fuel _ (by omega)
  | cons item items ih =>
    obtain ⟨fuel, rfl⟩ := Nat.exists_eq_succ_of_ne_zero (Nat.ne_zero_of_lt hfuel)
    obtain ⟨itemName, value⟩ := item
    obtain ⟨next, rfl⟩ := htext _ List.mem_cons_self
    simp only [renderMembers, List.length_append, List.length_cons] at hfuel
    have hfirst : ReadsAt room d first := hreads _ List.mem_cons_self
    have hshape : renderMembers d ((.text next, value) :: items) ++
        (lineStart outer ++ '}' :: rest) = ',' :: (lineStart d ++ (renderString (.text next) ++
          (": ".toList ++ (renderAt d value ++ (renderMembers d items ++
            (lineStart outer ++ '}' :: rest)))))) := by
      simp [renderMembers]
    rw [hshape, hstring, hspace]
    have hstart := fun tail => hblank _ ((hplain _ List.mem_cons_self).head?_renderAt d tail)
    refine members_cons (stringBody_append name _) (hcolon _)
      ((congrArg _ (hstart _)).trans (hfirst fuel _ (by omega)))
      (skipSpace_of_head? (by simp [isSpace])) ?_
    rw [skipSpace_lineStart d (by rw [hstring]; simp [isSpace])]
    refine ih (fun m hm => htext m (List.mem_cons_of_mem _ hm))
      (fun m hm => hplain m (List.mem_cons_of_mem _ hm))
      (fun m hm => hreads m (List.mem_cons_of_mem _ hm)) ?_
    rw [List.length_append]
    omega

theorem value_array {room fuel : Nat} {s after : List Char} {js : List Json}
    (hs : ∀ c ∈ s.head?, c ≠ ']' ∧ isSpace c = false) (d : Nat)
    (h : elements room fuel s = .ok (js, after)) :
    value (room + 1) (fuel + 1) ('[' :: (lineStart d ++ s)) = .ok (.arr js, after) := by
  rw [value, if_neg (Nat.succ_ne_zero room), skipSpace_lineStart d fun c hc => (hs c hc).2]
  split
  next after =>
    exact absurd rfl (hs ']' rfl).1
  next =>
    rw [Nat.add_sub_cancel, h]
    rfl

theorem value_object {room fuel : Nat} {s after : List Char} {ms : List (LooseText × Json)}
    (hs : ∀ c ∈ s.head?, c ≠ '}' ∧ isSpace c = false) (d : Nat)
    (h : members room fuel s = .ok (ms, after)) (hnodup : (ms.map (·.1)).Nodup) :
    value (room + 1) (fuel + 1) ('{' :: (lineStart d ++ s)) = .ok (.obj ms, after) := by
  rw [value, if_neg (Nat.succ_ne_zero room), skipSpace_lineStart d fun c hc => (hs c hc).2]
  split
  next after =>
    exact absurd rfl (hs '}' rfl).1
  next =>
    rw [Nat.add_sub_cancel, h, Except.map, ofMembers_of_nodup hnodup]

theorem readsAt_str (room d : Nat) (s : String) : ReadsAt room d (.str (.text s)) := by
  intro fuel rest hfuel
  have htext : renderAt d (.str (.text s)) ++ rest =
      '"' :: (s.toList.flatMap escapedChar ++ '"' :: rest) := by
    rw [renderAt, renderString_text]
    simp
  obtain ⟨fuel, rfl⟩ : ∃ n, fuel = n + 1 := by
    rw [renderAt, renderString_text, List.length_cons] at hfuel
    exact Nat.exists_eq_succ_of_ne_zero (by omega)
  rw [htext, value, stringBody_append]
  rfl

/-- An array is read where its items are, one level further in. -/
theorem readsAt_arr {depth room d : Nat} {items : List Json} (hplain : ∀ j ∈ items, Plain depth j)
    (hreads : ∀ j ∈ items, ReadsAt room (d + 1) j) : ReadsAt (room + 1) d (.arr items) := by
  intro fuel rest hfuel
  cases items with
  | nil =>
    obtain ⟨fuel, rfl⟩ : ∃ n, fuel = n + 1 :=
      Nat.exists_eq_succ_of_ne_zero (Nat.ne_zero_of_lt hfuel)
    rfl
  | cons first items =>
    have hshape : renderAt d (.arr (first :: items)) ++ rest =
        '[' :: (lineStart (d + 1) ++ (renderAt (d + 1) first ++ (renderRest (d + 1) items ++
          (lineStart d ++ ']' :: rest)))) := by
      rw [renderAt]
      simp
    have hfirst : Plain depth first := hplain first List.mem_cons_self
    have hspace : 0 < (lineStart d).length := by simp [lineStart]
    rw [renderAt] at hfuel
    simp only [List.length_append, List.length_cons] at hfuel
    obtain ⟨fuel, rfl⟩ : ∃ n, fuel = n + 1 := Nat.exists_eq_succ_of_ne_zero (by omega)
    rw [hshape]
    refine value_array (fun c hc => ⟨?_, hfirst.head?_renderAt (d + 1) _ c hc⟩) (d + 1)
      (elements_render hplain hreads ?_ d rest)
    · obtain ⟨e, tail, htext, he⟩ := hfirst.exists_renderAt (d + 1)
      rw [htext, List.cons_append, List.head?_cons, Option.mem_some_iff] at hc
      subst hc
      rintro rfl
      simp at he
    · rw [List.length_append]
      omega

/-- An object is read where its values are, one level further in. -/
theorem readsAt_obj {depth room d : Nat} {items : List (LooseText × Json)}
    (hnodup : (items.map (·.1)).Nodup) (htext : ∀ m ∈ items, ∃ name, m.1 = .text name)
    (hplain : ∀ m ∈ items, Plain depth m.2) (hreads : ∀ m ∈ items, ReadsAt room (d + 1) m.2) :
    ReadsAt (room + 1) d (.obj items) := by
  intro fuel rest hfuel
  cases items with
  | nil =>
    obtain ⟨fuel, rfl⟩ : ∃ n, fuel = n + 1 :=
      Nat.exists_eq_succ_of_ne_zero (Nat.ne_zero_of_lt hfuel)
    rfl
  | cons first items =>
    obtain ⟨name, first⟩ := first
    obtain ⟨name, rfl⟩ := htext _ List.mem_cons_self
    have hshape : renderAt d (.obj ((.text name, first) :: items)) ++ rest =
        '{' :: (lineStart (d + 1) ++ (renderString (.text name) ++ (": ".toList ++
          (renderAt (d + 1) first ++ (renderMembers (d + 1) items ++
            (lineStart d ++ '}' :: rest)))))) := by
      rw [renderAt]
      simp
    have hspace : 0 < (lineStart d).length := by simp [lineStart]
    rw [renderAt] at hfuel
    simp only [List.length_append, List.length_cons] at hfuel
    obtain ⟨fuel, rfl⟩ : ∃ n, fuel = n + 1 := Nat.exists_eq_succ_of_ne_zero (by omega)
    rw [hshape]
    refine value_object ?_ (d + 1) (members_render
      (fun m hm => htext m (List.mem_cons_of_mem _ hm)) hplain hreads ?_ d rest) hnodup
    · rw [renderString_text]
      simp [isSpace]
    · rw [List.length_append]
      omega

/-- A plain value is read from its text where there is room for its depth. -/
theorem Plain.readsAt {depth : Nat} {j : Json} (h : Plain depth j) :
    ∀ {room : Nat}, depth ≤ room → ∀ d, ReadsAt room d j := by
  induction h with
  | str depth s => exact fun _ d => readsAt_str _ d s
  | arr h ih =>
    intro room hroom d
    obtain ⟨room, rfl⟩ : ∃ n, room = n + 1 := Nat.exists_eq_succ_of_ne_zero (by omega)
    exact readsAt_arr h fun j hj => ih j hj (Nat.le_of_succ_le_succ hroom) (d + 1)
  | obj hnodup htext h ih =>
    intro room hroom d
    obtain ⟨room, rfl⟩ : ∃ n, room = n + 1 := Nat.exists_eq_succ_of_ne_zero (by omega)
    exact readsAt_obj hnodup htext h fun m hm => ih m hm (Nat.le_of_succ_le_succ hroom) (d + 1)

/-- A plain value is read back from its text. -/
theorem Plain.read_render [Room] {depth : Nat} {j : Json} (h : Plain depth j)
    (hdepth : depth ≤ Room.json) : read (render j) = .ok j := by
  have hvalue := h.readsAt hdepth 0 ((render j).length + 1) [] (Nat.le_succ _)
  have hspace : skipSpace (render j) = render j := by
    have hhead := h.head?_renderAt 0 []
    rw [List.append_nil] at hhead
    exact skipSpace_of_head? hhead
  have hrender : renderAt 0 j = render j := rfl
  rw [List.append_nil, hrender] at hvalue
  rw [read, hspace, hvalue]
  rfl

/-! ### Carriage returns -/

theorem return_not_mem_escapedChar (c : Char) : '\r' ∉ escapedChar c := by
  by_cases hcontrol : c.toNat < 0x20
  · have hall : ∀ n < 0x20, '\r' ∉ escapedChar (Char.ofNat n) := by decide
    have hc := hall _ hcontrol
    rwa [Char.ofNat_toNat] at hc
  · have hne : ∀ d : Char, d.toNat < 0x20 → c ≠ d := by
      rintro d hd rfl
      exact hcontrol hd
    rw [escapedChar]
    split
    · decide
    split
    · decide
    rw [if_neg (hne '\n' (by decide)), if_neg (hne '\r' (by decide)), if_neg (hne '\t' (by decide)),
      if_neg (hne (Char.ofNat 8) (by decide)), if_neg (hne (Char.ofNat 12) (by decide))]
    exact fun hmem => hne '\r' (by decide) (List.mem_singleton.1 hmem).symm

theorem return_not_mem_renderString (s : LooseText) : '\r' ∉ renderString s := by
  rw [renderString]
  simp only [List.mem_append, List.mem_cons, List.mem_flatMap, not_or]
  refine ⟨⟨by decide, ?_⟩, by decide⟩
  rintro ⟨c, -, hc⟩
  exact return_not_mem_escapedChar c hc

theorem return_not_mem_lineStart (depth : Nat) : '\r' ∉ lineStart depth := by
  rw [lineStart, List.mem_cons, not_or]
  exact ⟨by decide, fun h => absurd (List.eq_of_mem_replicate h) (by decide)⟩

/-- The text of a plain value has no carriage return. -/
theorem Plain.return_not_mem {depth : Nat} {j : Json} (h : Plain depth j) :
    ∀ d, '\r' ∉ renderAt d j := by
  induction h with
  | str _ s => exact fun d => return_not_mem_renderString _
  | arr h ih =>
    rename_i items
    intro d
    have hrest : ∀ items : List Json, (∀ j ∈ items, '\r' ∉ renderAt (d + 1) j) →
        '\r' ∉ renderRest (d + 1) items := by
      intro items hitems
      induction items with
      | nil => exact List.not_mem_nil
      | cons item items ihItems =>
        have hitem := hitems item List.mem_cons_self
        have hothers := ihItems fun j hj => hitems j (List.mem_cons_of_mem _ hj)
        simp [renderRest, return_not_mem_lineStart, hitem, hothers]
    cases items with
    | nil => simp [renderAt]
    | cons first items =>
      have hfirst := ih first List.mem_cons_self (d + 1)
      have hothers := hrest items fun j hj => ih j (List.mem_cons_of_mem _ hj) (d + 1)
      simp [renderAt, return_not_mem_lineStart, hfirst, hothers]
  | obj hnodup htext h ih =>
    rename_i members
    intro d
    have hrest : ∀ members : List (LooseText × Json), (∀ m ∈ members, '\r' ∉ renderAt (d + 1) m.2) →
        '\r' ∉ renderMembers (d + 1) members := by
      intro members hmembers
      induction members with
      | nil => exact List.not_mem_nil
      | cons m members ihMembers =>
        have hm := hmembers m List.mem_cons_self
        have hothers := ihMembers fun n hn => hmembers n (List.mem_cons_of_mem _ hn)
        simp [renderMembers, return_not_mem_lineStart, return_not_mem_renderString, hm, hothers]
    cases members with
    | nil => simp [renderAt]
    | cons first members =>
      have hfirst := ih first List.mem_cons_self (d + 1)
      have hothers := hrest members fun m hm => ih m (List.mem_cons_of_mem _ hm) (d + 1)
      simp [renderAt, return_not_mem_lineStart, return_not_mem_renderString, hfirst, hothers]

end Json

end CatalogSync
