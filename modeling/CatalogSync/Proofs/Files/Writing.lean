import CatalogSync.Proofs.Files.Directories

/-!
Writing a file. Only what stands at its own path changes, and directories are made on the way to it. So
files whose paths do not go on from one another can be written in turn, and each is written as if it
were the only one.
-/

namespace CatalogSync

/-- Neither path goes on from the other. -/
def Path.Apart (p q : Path) : Prop := ¬p.parts <+: q.parts ∧ ¬q.parts <+: p.parts

instance (p q : Path) : Decidable (p.Apart q) := inferInstanceAs (Decidable (_ ∧ _))

namespace FileTree

variable {t u v : FileTree} {l k : Location} {p q : Path} {places : List Location}

theorem place_prefix_iff (t : FileTree) : t.place p <+: t.place q ↔ p.parts <+: q.parts :=
  List.prefix_append_right_inj t.here

/-! ### What changes -/

/-- What stands at some places may have changed, and directories were made on the way to them. -/
structure Alters (places : List Location) (t u : FileTree) : Prop where
  here : u.here = t.here
  sound : u.Sound
  entry : ∀ k, k ∉ places → u.entry? k = t.entry? k ∨
    (∃ l ∈ places, k <+: l) ∧ t.entry? k = none ∧ u.entry? k = some .directory

theorem Alters.refl (ht : t.Sound) : Alters places t t := ⟨rfl, ht, fun _ _ => .inl rfl⟩

theorem Alters.mono {more : List Location} (h : Alters places t u) (hmore : places ⊆ more) :
    Alters more t u where
  here := h.here
  sound := h.sound
  entry k hk := by
    refine (h.entry k fun hmem => hk (hmore hmem)).imp_right ?_
    rintro ⟨⟨l, hl, hkl⟩, hnew⟩
    exact ⟨⟨l, hmore hl, hkl⟩, hnew⟩

theorem Alters.trans (h : Alters places t u) (h' : Alters places u v) : Alters places t v where
  here := h'.here.trans h.here
  sound := h'.sound
  entry k hk := by
    rcases h'.entry k hk with heq' | ⟨hway, hnone, hdirectory⟩
    · rw [heq']
      exact h.entry k hk
    · rcases h.entry k hk with heq | ⟨-, -, hmade⟩
      · exact .inr ⟨hway, heq ▸ hnone, hdirectory⟩
      · rw [hmade] at hnone
        cases hnone

theorem Alters.place_eq (h : Alters places t u) (p : Path) : u.place p = t.place p := by
  rw [place, place, h.here]

/-- On the way to a place that no altered place leads to, there can only be more directories. -/
theorem Alters.grown (h : Alters places t u) (hl : ∀ k ∈ places, ¬k <+: l) : t.Grown u l :=
  fun k hk => (h.entry k fun hmem => hl k hmem hk).imp_right And.right

/-- What stands at a place that leads to no altered place is the same. -/
theorem Alters.entry?_eq (h : Alters places t u) (hl : ∀ k ∈ places, ¬l <+: k) :
    u.entry? l = t.entry? l :=
  (h.entry l fun hmem => hl l hmem List.prefix_rfl).resolve_right
    fun ⟨⟨k, hk, hlk⟩, _⟩ => hl k hk hlk

/-- Files elsewhere are neither made, changed nor removed. -/
theorem Alters.file_iff (h : Alters places t u) (hl : l ∉ places) {bytes : List UInt8} :
    u.entry? l = some (.file bytes) ↔ t.entry? l = some (.file bytes) := by
  rcases h.entry l hl with heq | ⟨-, hnone, hdirectory⟩
  · rw [heq]
  · simp [hnone, hdirectory]

section
variable (ht : t.Sound) (hp : p.Inside)
include ht hp

theorem made_prepared [Room] : Made (t.place p.parent) t (t.prepared p).1 := by
  rw [prepared]
  split
  · exact made_makeLevels ht hp.parent Room.directories
  · exact Made.refl ht

theorem isDirectory_of_prepared [Room] (hnormal : p.Normal) (h : t.prepared p = (u, .ok ())) :
    u.isDirectory p.parent = true := by
  rw [prepared] at h
  split at h
  · exact isDirectory_of_makeLevels h
  next hneeds =>
    cases h
    have hparts := hnormal.parent.parts_eq_nil hp.parent.root (by simpa [needsDirectory] using hneeds)
    exact isDirectory_iff.2 ⟨hp.parent.noNul, t.here, locate_of_parts_eq_nil hp.parent hparts, ht.here⟩

/-- Making its directory leaves what stands at the path of a file that can be written. -/
theorem status_prepared [Room] (hwritable : t.Writable p) :
    (t.prepared p).1.status p = t.status p := by
  obtain ⟨-, made, l, hprepared, hlocate, -⟩ := writable_iff.1 hwritable
  have hmade := made_prepared ht hp
  rw [hprepared] at hmade ⊢
  obtain ⟨rfl, -⟩ := locate_eq_ok hmade.sound hp hlocate
  have hentry : made.entry? (made.place p) = t.entry? (t.place p) := by
    rw [hmade.place_eq]
    exact hmade.entry?_place ht
  have hgrown : t.Grown made (t.place p) := fun k _ => (hmade.entry k).imp_right And.right
  rw [status, status, hlocate]
  simp only [bind, Except.bind, hentry]
  rcases hgrown.locate ht hp hmade.sound hmade.here with heq | ⟨hnone, -⟩
  · rw [← heq, hlocate, hmade.place_eq]
  · rw [hnone, entry?_of_noEntry ht hp hnone]

theorem bytes_prepared [Room] (hwritable : t.Writable p) :
    (t.prepared p).1.bytes p = t.bytes p := by
  rw [bytes, bytes, status_prepared ht hp hwritable]

/-- A file is put where its directory is there, unless its path is too long or a directory stands
there. -/
theorem put_eq (h : t.isDirectory p.parent = true) (bytes : List UInt8) : t.put p bytes =
    if maxPath < p.toString.utf8ByteSize ∨ maxName < p.name.utf8ByteSize then
      (t, .error (.os .nameTooLong p))
    else if t.entry? (t.place p) = some .directory then (t, .error (.os .isDirectory p))
    else (t.set (t.place p) (.file bytes), .ok ()) := by
  rw [put, if_neg (by simp [hp.noNul]), locate_of_isDirectory ht hp h]
  by_cases hlong : maxPath < p.toString.utf8ByteSize ∨ maxName < p.name.utf8ByteSize
  · simp only [hlong, if_true]
  · simp only [hlong, if_false]
    cases hentry : t.entry? (t.place p) with
    | none => simp
    | some e => cases e <;> simp

theorem alters_put (h : t.isDirectory p.parent = true) (bytes : List UInt8) :
    Alters [t.place p] t (t.put p bytes).1 := by
  rw [put_eq ht hp h]
  split
  · exact Alters.refl ht
  split
  · exact Alters.refl ht
  next hentry =>
    have habove : t.entry? (t.place p).dropLast = some .directory := by
      obtain ⟨-, m, hparent, hdirectory⟩ := isDirectory_iff.1 h
      obtain ⟨rfl, -⟩ := locate_eq_ok ht hp.parent hparent
      have hparts : p.parts ≠ [] := by
        intro hparts
        rw [place, hparts, List.append_nil] at hentry
        exact hentry ht.here
      rwa [place_eq_concat t hparts, List.dropLast_concat]
    refine ⟨rfl, ht.set hentry habove _, fun k hk => .inl (entry?_set_of_ne t ?_ _)⟩
    exact fun heq => hk (heq ▸ List.mem_singleton_self _)

/-- Writing a file changes its own place and makes directories on the way to it. -/
theorem alters_write [Room] (hnormal : p.Normal) (content : List Char) (halves : Option Text.HalfFault) :
    Alters [t.place p] t (t.write p content halves).1 := by
  have hmade := made_prepared ht hp
  rcases hprepared : t.prepared p with ⟨made, outcome⟩
  rw [hprepared] at hmade
  have halters : Alters [t.place p] t made := by
    refine ⟨hmade.here, hmade.sound, fun k _ => (hmade.entry k).imp_right fun ⟨hk, hnew⟩ => ⟨?_, hnew⟩⟩
    exact ⟨_, List.mem_singleton_self _, hk.trans (t.place_parent_prefix p)⟩
  rw [write_eq, hprepared]
  cases outcome with
  | error e => exact halters
  | ok _ =>
    cases halves with
    | some fault => exact halters
    | none =>
      have hput := alters_put hmade.sound hp (isDirectory_of_prepared ht hp hnormal hprepared)
        (Text.encode content)
      rw [hmade.place_eq] at hput
      dsimp only
      rcases hresult : made.put p (Text.encode content) with ⟨left, e | _⟩ <;> rw [hresult] at hput <;>
        exact halters.trans hput

/-! ### How it ends -/

/-- In a tree with more directories on the way, a file is written with the same outcome, unless there
are too many directories to make in the other. -/
theorem Grown.write [Room] (hnormal : p.Normal) (hu : u.Sound) (hhere : u.here = t.here)
    (h : t.Grown u (t.place p.parent)) (hentry : u.entry? (t.place p) = t.entry? (t.place p))
    (content : List Char) (halves : Option Text.HalfFault) :
    (t.write p content halves).2 = .error .tooManyLevels ∨
      FileFault.Alike p.parent (t.write p content halves).2 (u.write p content halves).2 ∧
      entry? (u.write p content halves).1 (t.place p) =
        entry? (t.write p content halves).1 (t.place p) := by
  have hplace : ∀ q, u.place q = t.place q := fun q => by rw [place, place, hhere]
  have hmade := made_prepared ht hp
  have hagain := made_prepared hu hp
  have halike : (t.prepared p).2 = .error .tooManyLevels ∨
      FileFault.Alike p.parent (t.prepared p).2 (u.prepared p).2 := by
    rw [prepared, prepared]
    split
    · exact h.makeLevels ht hp.parent hu hhere Room.directories
    · exact .inr (.inl rfl)
  rcases hprepared : t.prepared p with ⟨made, outcome⟩
  rcases hprepared' : u.prepared p with ⟨again, outcome'⟩
  rw [hprepared] at hmade halike
  rw [hprepared', hplace] at hagain
  rw [hprepared'] at halike
  have hsame := hmade.entry?_place ht
  have hsame' : again.entry? (t.place p) = t.entry? (t.place p) := by
    rw [← hentry]
    rw [← hplace] at hagain ⊢
    exact hagain.entry?_place hu
  rw [write_eq, write_eq, hprepared, hprepared']
  rcases halike with htoo | heq | ⟨hlong, q, q', hq, hq', herror, herror'⟩
  · cases htoo
    exact .inl rfl
  · cases heq
    cases outcome with
    | error e => exact .inr ⟨.inl rfl, hsame'.trans hsame.symm⟩
    | ok _ =>
      cases halves with
      | some fault => exact .inr ⟨.inl rfl, hsame'.trans hsame.symm⟩
      | none =>
        dsimp only
        rw [put_eq hmade.sound hp (isDirectory_of_prepared ht hp hnormal hprepared),
          put_eq hagain.sound hp (isDirectory_of_prepared hu hp hnormal hprepared'),
          hmade.place_eq, hagain.place_eq, hplace, hsame, hsame']
        by_cases hlong : maxPath < p.toString.utf8ByteSize ∨ maxName < p.name.utf8ByteSize
        · rw [if_pos hlong, if_pos hlong]
          exact .inr ⟨.inl rfl, hsame'.trans hsame.symm⟩
        rw [if_neg hlong, if_neg hlong]
        by_cases hfile : t.entry? (t.place p) = some .directory
        · rw [if_pos hfile, if_pos hfile]
          exact .inr ⟨.inl rfl, hsame'.trans hsame.symm⟩
        · have hne : t.place p ≠ [] := by
            intro hnil
            rw [hnil, entry?_nil] at hfile
            exact hfile rfl
          rw [if_neg hfile, if_neg hfile]
          exact .inr ⟨.inl rfl, (entry?_set_self again hne _).trans (entry?_set_self made hne _).symm⟩
  · cases herror
    cases herror'
    exact .inr ⟨.inr ⟨hlong, q, q', hq, hq', rfl, rfl⟩, hsame'.trans hsame.symm⟩

/-! ### What is found -/

theorem locate_of_entry? {e : Entry} (hsize : p.toString.utf8ByteSize ≤ maxPath) (hfits : p.Fits)
    (h : t.entry? (t.place p) = some e) : t.locate p = .ok (t.place p) := by
  induction p using Path.parent_induction generalizing e with
  | top p hparts => rw [locate_of_parts_eq_nil hp hparts, place, hparts, List.append_nil]
  | below p hparts ih =>
    have hdirectory : t.entry? (t.place p.parent) = some .directory := by
      rw [place_eq_concat t hparts] at h
      exact ht.above h
    obtain ⟨hparent, hname⟩ := (Path.fits_iff hparts).1 hfits
    have hlocate := ih hp.parent (Nat.le_trans (Path.size_parent_le hp.root hparts) hsize) hparent
      hdirectory
    rw [locate_eq_enter ht hp hparts hsize, hlocate]
    exact (enter_eq_ok_iff hp.name_ne).2 ⟨hdirectory, hname, place_eq_concat t hparts⟩

/-- What stands at the place of a path is found at the path, unless the system takes no such path. -/
theorem status_eq_ok_iff_fits {e : Entry} : t.status p = .ok e ↔
    p.toString.utf8ByteSize ≤ maxPath ∧ p.Fits ∧ t.entry? (t.place p) = some e := by
  rw [status_eq_ok_iff]
  constructor
  · rintro ⟨l, hlocate, hentry⟩
    obtain ⟨rfl, hfits⟩ := locate_eq_ok ht hp hlocate
    exact ⟨size_of_locate hlocate nofun, hfits, hentry⟩
  · rintro ⟨hsize, hfits, hentry⟩
    exact ⟨_, locate_of_entry? ht hp hsize hfits hentry, hentry⟩

/-- Trees with the same at the place of a path have the same at the path. -/
theorem toOption_status_eq (hu : u.Sound) (hhere : u.here = t.here)
    (h : u.entry? (t.place p) = t.entry? (t.place p)) :
    (u.status p).toOption = (t.status p).toOption := by
  have hplace : u.place p = t.place p := by rw [place, place, hhere]
  have hiff : ∀ e, u.status p = .ok e ↔ t.status p = .ok e := by
    intro e
    rw [status_eq_ok_iff_fits hu hp, status_eq_ok_iff_fits ht hp, hplace, h]
  cases hfound : u.status p with
  | ok e => rw [(hiff e).1 hfound]
  | error code =>
    cases hfound' : t.status p with
    | ok e =>
      rw [(hiff e).2 hfound'] at hfound
      cases hfound
    | error code' => rfl

end

end FileTree

end CatalogSync
