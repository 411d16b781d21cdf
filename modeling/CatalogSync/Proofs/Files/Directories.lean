import CatalogSync.Proofs.Files.Place

/-!
Making a directory with its parents. Directories are made on the way to it, where nothing stood, and
nothing else changes. In a tree that already has more directories on the way the outcome is the same,
except that the refusal of a name that is too long may name another directory of the path.
-/

namespace CatalogSync

/-- A path that another one goes on from. -/
def Path.Above (q p : Path) : Prop := q.root = p.root ∧ q.parts <+: p.parts

theorem Path.Above.of_parent {q p : Path} (h : q.Above p.parent) : q.Above p :=
  ⟨h.1, h.2.trans (List.dropLast_prefix p.parts)⟩

/-- Two outcomes are the same, or both refuse a name of the path as too long, each with some path on
the way. -/
def FileFault.Alike {α : Type} (p : Path) (x y : Except FileFault α) : Prop :=
  x = y ∨ ¬p.Fits ∧ ∃ q q', q.Above p ∧ q'.Above p ∧
    x = .error (.os .nameTooLong q) ∧ y = .error (.os .nameTooLong q')

namespace FileTree

variable {t u : FileTree} {l k : Location} {p : Path} {room : Nat}

/-! ### What changes -/

/-- Directories were made on the way to a place, where nothing stood. -/
structure Made (l : Location) (t u : FileTree) : Prop where
  here : u.here = t.here
  sound : u.Sound
  entry : ∀ k, u.entry? k = t.entry? k ∨
    k <+: l ∧ t.entry? k = none ∧ u.entry? k = some .directory

theorem Made.refl (ht : t.Sound) : t.Made l t := ⟨rfl, ht, fun _ => .inl rfl⟩

theorem Made.mono (h : Made l t u) (hl : l <+: k) : Made k t u :=
  ⟨h.here, h.sound, fun m => (h.entry m).imp_right fun ⟨hm, hnew⟩ => ⟨hm.trans hl, hnew⟩⟩

theorem Made.trans {v : FileTree} (h : Made l t u) (h' : Made l u v) : Made l t v where
  here := h'.here.trans h.here
  sound := h'.sound
  entry k := by
    rcases h'.entry k with heq' | ⟨hk, hnone, hdirectory⟩
    · rw [heq']
      exact h.entry k
    · rcases h.entry k with heq | ⟨-, -, hmade⟩
      · exact .inr ⟨hk, heq ▸ hnone, hdirectory⟩
      · rw [hmade] at hnone
        cases hnone

theorem Made.place_eq (h : Made l t u) (p : Path) : u.place p = t.place p := by
  rw [place, place, h.here]

/-- What stands at a path stays when the directory above it is made. -/
theorem Made.entry?_place (ht : t.Sound) (h : Made (t.place p.parent) t u) :
    u.entry? (t.place p) = t.entry? (t.place p) := by
  refine (h.entry _).resolve_right fun ⟨habove, hnone, _⟩ => ?_
  by_cases hparts : p.parts = []
  · rw [place, hparts, List.append_nil, ht.here] at hnone
    cases hnone
  · rw [place_eq_concat t hparts] at habove
    have hlength := habove.length_le
    rw [List.length_append, List.length_singleton] at hlength
    omega

/-- Makes the last directory of a path, the one above it being there. -/
def makeLast (t : FileTree) (p : Path) : FileTree × Except FileFault Unit :=
  match t.makeOne p with
  | .ok u => (u, .ok ())
  | .error code =>
    if code ≠ .noEntry ∧ t.isDirectory p then (t, .ok ()) else (t, .error (.os code p))

theorem makeOne_eq_noEntry_iff : t.makeOne p = .error .noEntry ↔ t.locate p = .error .noEntry := by
  rw [makeOne]
  cases hlocate : t.locate p with
  | error code => simp [bind, Except.bind]
  | ok l => cases hentry : t.entry? l <;> simp [bind, Except.bind, hentry]

/-- A path without names is there, or its text is too long. -/
theorem parts_ne_of_noEntry (h : t.locate p = .error .noEntry) : p.parts ≠ [] := by
  intro hparts
  rw [locate, hparts] at h
  split at h <;> cases h

/-- Where nothing is missing above a directory, it is made at once. -/
theorem makeLevels_of_ne (hnul : p.hasNul = false) (hnone : t.locate p ≠ .error .noEntry)
    (room : Nat) : t.makeLevels p (room + 1) = t.makeLast p := by
  rw [makeLevels, if_neg (by simp [hnul]), makeLast]
  rw [Ne, ← makeOne_eq_noEntry_iff] at hnone
  cases hmade : t.makeOne p with
  | ok u => rfl
  | error code =>
    have hcode : code ≠ .noEntry := fun heq => hnone (heq ▸ hmade)
    cases code <;> simp_all

/-- Where something is missing above a directory, the one above it is made first. -/
theorem makeLevels_of_noEntry (hnul : p.hasNul = false) (hnone : t.locate p = .error .noEntry)
    (room : Nat) : t.makeLevels p (room + 1) = match t.makeLevels p.parent room with
      | (made, .error e) => (made, .error e)
      | (made, .ok ()) => made.makeLast p := by
  rw [makeLevels, if_neg (by simp [hnul]), makeOne_eq_noEntry_iff.2 hnone]
  dsimp only
  rw [if_neg (parts_ne_of_noEntry hnone)]
  rfl

section
variable (ht : t.Sound) (hp : p.Inside)
include hp

/-- How making the last directory ends is told by what stands at its place. -/
theorem makeLast_snd : (t.makeLast p).2 = match t.locate p with
    | .error code => .error (.os code p)
    | .ok l => match t.entry? l with
      | some (.file _) => .error (.os .exists p)
      | _ => .ok () := by
  rw [makeLast, makeOne]
  cases hlocate : t.locate p with
  | error code =>
    have hthere : t.isDirectory p ≠ true := by
      intro h
      obtain ⟨-, l, hl, -⟩ := isDirectory_iff.1 h
      rw [hlocate] at hl
      cases hl
    simp [bind, Except.bind, hthere]
  | ok l =>
    cases hentry : t.entry? l with
    | none => simp [bind, Except.bind, hentry]
    | some e =>
      have hthere : t.isDirectory p = true ↔ e = .directory := by
        rw [isDirectory_iff]
        simp [hp.noNul, hlocate, hentry]
      cases e <;> simp [bind, Except.bind, hentry, hthere]

/-- Where nothing is missing above a path, what stands at it decides. -/
theorem makeLevels_snd_of_ne (hnone : t.locate p ≠ .error .noEntry) (room : Nat) :
    (t.makeLevels p (room + 1)).2 = match t.locate p with
      | .error code => .error (.os code p)
      | .ok l => match t.entry? l with
        | some (.file _) => .error (.os .exists p)
        | _ => .ok () := by
  rw [makeLevels_of_ne hp.noNul hnone, makeLast_snd hp]

include ht

theorem made_of_makeOne (h : t.makeOne p = .ok u) : Made (t.place p) t u := by
  obtain ⟨l, hlocate, hnone, rfl⟩ := makeOne_eq_ok_iff.1 h
  obtain ⟨rfl, -⟩ := locate_eq_ok ht hp hlocate
  have hparts : p.parts ≠ [] := by
    intro hparts
    rw [place, hparts, List.append_nil, ht.here] at hnone
    cases hnone
  have hne : t.place p ≠ [] := by
    rw [place_eq_concat t hparts]
    exact List.concat_ne_nil _ _
  have habove := directory_of_locate ht hp hlocate
  refine ⟨rfl, ht.set (by rw [hnone]; rintro ⟨⟩) ?_ .directory, fun k => ?_⟩
  · rwa [place_eq_concat t hparts, List.dropLast_concat]
  · by_cases hk : k = t.place p
    · subst hk
      exact .inr ⟨List.prefix_rfl, hnone, entry?_set_self t hne _⟩
    · exact .inl (entry?_set_of_ne t hk _)

theorem made_makeLast : Made (t.place p) t (t.makeLast p).1 := by
  rw [makeLast]
  split
  next h => exact made_of_makeOne ht hp h
  · split <;> exact Made.refl ht

/-- Making a directory makes directories on the way to it, and nothing else. -/
theorem made_makeLevels (room : Nat) : Made (t.place p) t (t.makeLevels p room).1 := by
  induction room generalizing p with
  | zero => exact Made.refl ht
  | succ room ih =>
    by_cases hnone : t.locate p = .error .noEntry
    · have hparent := (ih hp.parent).mono (t.place_parent_prefix p)
      rw [makeLevels_of_noEntry hp.noNul hnone]
      rcases hlevels : t.makeLevels p.parent room with ⟨made, e | _⟩
      · rw [hlevels] at hparent
        exact hparent
      · rw [hlevels] at hparent
        have hlast := made_makeLast hparent.sound hp
        rw [hparent.place_eq] at hlast
        exact hparent.trans hlast
    · rw [makeLevels_of_ne hp.noNul hnone]
      exact made_makeLast ht hp

/-! ### How it ends -/

/-- Where something is missing above a path, the directory above it is made first, and then only the
last name can be refused. -/
theorem makeLevels_snd_of_noEntry (hnone : t.locate p = .error .noEntry) (room : Nat) :
    (t.makeLevels p (room + 1)).2 = (t.makeLevels p.parent room).2 >>= fun () =>
      if maxName < p.name.utf8ByteSize then .error (.os .nameTooLong p) else .ok () := by
  have hmade := made_makeLevels ht hp.parent room
  rw [makeLevels_of_noEntry hp.noNul hnone]
  rcases hlevels : t.makeLevels p.parent room with ⟨made, e | _⟩
  · rfl
  rw [hlevels] at hmade
  have hentry : made.entry? (t.place p) = none :=
    (hmade.entry?_place ht).trans (entry?_of_noEntry ht hp hnone)
  have hsize := Nat.not_lt.2 (size_of_locate hnone nofun)
  have hlocate := locate_of_isDirectory hmade.sound hp (isDirectory_of_makeLevels hlevels)
  simp only [hsize, false_or, hmade.place_eq] at hlocate
  dsimp only [bind, Except.bind]
  rw [makeLast_snd hp, hlocate]
  by_cases hname : maxName < p.name.utf8ByteSize
  · simp only [hname, if_true]
  · simp only [hname, if_false, hentry]

/-- A directory above which something is missing is made, unless a name is too long or too many
directories are missing. -/
theorem makeLevels_ends (hnone : t.locate p = .error .noEntry) (room : Nat) :
    (t.makeLevels p room).2 = .error .tooManyLevels ∨
      (t.makeLevels p room).2 = .ok () ∧ p.Fits ∨
      ¬p.Fits ∧ ∃ q : Path, q.Above p ∧ (t.makeLevels p room).2 = .error (.os .nameTooLong q) := by
  induction room generalizing p with
  | zero => exact .inl rfl
  | succ room ih =>
    obtain ⟨hparts, hway⟩ := locate_parent_of_noEntry ht hp hnone
    rw [makeLevels_snd_of_noEntry ht hp hnone, Path.fits_iff hparts]
    have hparent : (t.makeLevels p.parent room).2 = .error .tooManyLevels ∨
        (t.makeLevels p.parent room).2 = .ok () ∧ p.parent.Fits ∨
        ¬p.parent.Fits ∧ ∃ q : Path, q.Above p.parent ∧
          (t.makeLevels p.parent room).2 = .error (.os .nameTooLong q) := by
      rcases hway with hmissing | ⟨hlocate, hentry⟩
      · exact ih hp.parent hmissing
      · cases room with
        | zero => exact .inl rfl
        | succ room =>
          refine .inr (.inl ⟨?_, (locate_eq_ok ht hp.parent hlocate).2⟩)
          rw [makeLevels_snd_of_ne hp.parent (by rw [hlocate]; exact nofun), hlocate]
          simp only [hentry]
    rcases hparent with htoo | ⟨hok, hfits⟩ | ⟨hlong, q, hq, herror⟩
    · rw [htoo]
      exact .inl rfl
    · rw [hok]
      dsimp only [bind, Except.bind]
      split
      next hname =>
        exact .inr (.inr ⟨fun h => Nat.not_lt.2 h.2 hname, p, ⟨rfl, List.prefix_rfl⟩, rfl⟩)
      next hname => exact .inr (.inl ⟨rfl, hfits, Nat.le_of_not_lt hname⟩)
    · rw [herror]
      exact .inr (.inr ⟨fun h => hlong h.1, q, hq.of_parent, rfl⟩)

/-- A tree with more directories on the way ends alike, unless the other has too many to make. -/
theorem Grown.makeLevels (hu : u.Sound) (hhere : u.here = t.here) (h : t.Grown u (t.place p))
    (room : Nat) : (t.makeLevels p room).2 = .error .tooManyLevels ∨
      FileFault.Alike p (t.makeLevels p room).2 (u.makeLevels p room).2 := by
  induction room generalizing p with
  | zero => exact .inl rfl
  | succ room ih =>
    rcases h.locate ht hp hu hhere with heq | ⟨hnone, hfound⟩
    · by_cases hnone : t.locate p = .error .noEntry
      -- Both have to make the directory above first.
      · rw [makeLevels_snd_of_noEntry ht hp hnone, makeLevels_snd_of_noEntry hu hp (heq.trans hnone)]
        rcases ih hp.parent fun k hk => h k (hk.trans (t.place_parent_prefix p)) with
          htoo | hsame | ⟨hlong, q, q', hq, hq', herror, herror'⟩
        · rw [htoo]
          exact .inl rfl
        · rw [hsame]
          exact .inr (.inl rfl)
        · have hparts := (locate_parent_of_noEntry ht hp hnone).1
          rw [herror, herror']
          exact .inr (.inr ⟨fun hfits => hlong ((Path.fits_iff hparts).1 hfits).1, q, q',
            hq.of_parent, hq'.of_parent, rfl, rfl⟩)
      -- Neither has.
      · rw [makeLevels_snd_of_ne hp hnone, makeLevels_snd_of_ne hp (heq ▸ hnone), heq]
        refine .inr (.inl ?_)
        cases hlocate : t.locate p with
        | error code => rfl
        | ok l =>
          obtain ⟨rfl, -⟩ := locate_eq_ok ht hp hlocate
          rcases h _ List.prefix_rfl with hentry | ⟨hentry, hdirectory⟩
          · simp only [hentry]
          · simp only [hentry, hdirectory]
    -- Only the tree with fewer directories has.
    · have hends := makeLevels_ends ht hp hnone (room + 1)
      rcases hfound with hlocate | ⟨hlocate, hlong⟩
      · have hok : (u.makeLevels p (room + 1)).2 = .ok () := by
          rw [makeLevels_snd_of_ne hp (by rw [hlocate]; exact nofun), hlocate]
          rcases h _ List.prefix_rfl with hentry | ⟨-, hdirectory⟩
          · simp only [hentry, entry?_of_noEntry ht hp hnone]
          · simp only [hdirectory]
        rcases hends with htoo | ⟨hmade, -⟩ | ⟨hlong, -⟩
        · exact .inl htoo
        · exact .inr (.inl (hmade.trans hok.symm))
        · exact absurd (locate_eq_ok hu hp hlocate).2 hlong
      · have hrefused : (u.makeLevels p (room + 1)).2 = .error (.os .nameTooLong p) := by
          rw [makeLevels_snd_of_ne hp (by rw [hlocate]; exact nofun), hlocate]
        rcases hends with htoo | ⟨-, hfits⟩ | ⟨-, q, hq, herror⟩
        · exact .inl htoo
        · exact absurd hfits hlong
        · exact .inr (.inr ⟨hlong, q, p, hq, ⟨rfl, List.prefix_rfl⟩, herror, hrefused⟩)

end

end FileTree

end CatalogSync
