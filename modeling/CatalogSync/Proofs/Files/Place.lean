import CatalogSync.Proofs.Files.Tree

/-!
Relative paths that never lead back. Where such a path leads is told by its names alone, and the tree
decides only whether the system goes there. A tree with more directories than another on the way to a
path goes there too, unless a name is too long.
-/

namespace CatalogSync

namespace Path

variable {p : Path}

/-- The path starts from the place of relative paths and never leads back. -/
structure Inside (p : Path) : Prop where
  root : p.root = .here
  noBack : ".." ∉ p.parts
  noNul : p.hasNul = false

instance : Decidable p.Inside :=
  decidable_of_iff (p.root = .here ∧ ".." ∉ p.parts ∧ p.hasNul = false)
    ⟨fun ⟨h, h', h''⟩ => ⟨h, h', h''⟩, fun ⟨h, h', h''⟩ => ⟨h, h', h''⟩⟩

theorem Inside.parent (h : p.Inside) : p.parent.Inside where
  root := h.root
  noBack hback := h.noBack (List.dropLast_subset _ hback)
  noNul := by
    have hnul := h.noNul
    rw [hasNul, List.any_eq_false] at hnul ⊢
    exact fun name hname => hnul name (List.dropLast_subset _ hname)

/-- No name of the path is longer than the system takes. -/
def Fits (p : Path) : Prop := ∀ name ∈ p.parts, name.utf8ByteSize ≤ FileTree.maxName

/-- No name of the path is empty or a single dot. -/
def Normal (p : Path) : Prop := ∀ name ∈ p.parts, name ≠ "" ∧ name ≠ "."

theorem normal_ofString (s : String) : (ofString s).Normal := by
  intro name hname
  obtain ⟨piece, hpiece, rfl⟩ := List.mem_map.1 hname
  have hkept := (List.mem_filter.1 hpiece).2
  simp only [Bool.not_eq_true', decide_eq_false_iff_not, not_or] at hkept
  exact ⟨fun h => hkept.1 (String.ofList_injective h), fun h => hkept.2 (String.ofList_injective h)⟩

theorem Normal.parent (h : p.Normal) : p.parent.Normal :=
  fun name hname => h name (List.dropLast_subset _ hname)

theorem parts_eq_concat (h : p.parts ≠ []) : p.parts = p.parent.parts ++ [p.name] := by
  rw [name, List.getLastD_eq_getLast?, List.getLast?_eq_some_getLast h]
  exact (List.dropLast_concat_getLast h).symm

theorem name_mem (h : p.parts ≠ []) : p.name ∈ p.parts := by
  rw [parts_eq_concat h]
  exact List.mem_concat_self

theorem Inside.name_ne (h : p.Inside) : p.name ≠ ".." := by
  by_cases hparts : p.parts = []
  · rw [name, hparts]
    decide
  · exact fun hback => h.noBack (hback ▸ name_mem hparts)

/-- What holds of paths without names, and of a path whenever it holds of its parent, holds of all. -/
theorem parent_induction {motive : Path → Prop} (top : ∀ p, p.parts = [] → motive p)
    (below : ∀ p, p.parts ≠ [] → motive p.parent → motive p) (p : Path) : motive p := by
  induction hlength : p.parts.length generalizing p with
  | zero => exact top p (List.length_eq_zero_iff.1 hlength)
  | succ n ih =>
    have hparts : p.parts ≠ [] := by
      rintro h
      rw [h] at hlength
      cases hlength
    exact below p hparts (ih p.parent (by simp [parent, hlength]))

/-! ### Lengths -/

theorem fits_iff (h : p.parts ≠ []) :
    p.Fits ↔ p.parent.Fits ∧ p.name.utf8ByteSize ≤ FileTree.maxName := by
  rw [Fits, parts_eq_concat h]
  simp only [List.mem_append, List.mem_singleton, or_imp, forall_and, forall_eq]
  exact Iff.rfl

theorem toString_ne_empty (p : Path) : p.toString ≠ "" := by
  rw [toString]
  split
  · decide
  · assumption

theorem toString_of_here (h : p.root = .here) : p.toString =
    if "/".intercalate p.parts = "" then "." else "/".intercalate p.parts := by
  rw [toString, h]
  simp only [Root.text, String.empty_append]

/-- The text of a path is at least as long as that of its parent. -/
theorem size_parent_le (hroot : p.root = .here) (h : p.parts ≠ []) :
    p.parent.toString.utf8ByteSize ≤ p.toString.utf8ByteSize := by
  have hpos : 0 < p.toString.utf8ByteSize := by
    rw [Nat.pos_iff_ne_zero, Ne, String.utf8ByteSize_eq_zero_iff]
    exact p.toString_ne_empty
  have hdot : ".".utf8ByteSize = 1 := rfl
  rw [toString_of_here (p := p.parent) hroot]
  split
  · omega
  next htext =>
    have hparts : p.parent.parts ≠ [] := by
      rintro hnil
      rw [hnil, String.intercalate_nil] at htext
      exact htext rfl
    have hwhole : "/".intercalate p.parts = "/".intercalate p.parent.parts ++ "/" ++ p.name := by
      rw [parts_eq_concat h, String.intercalate_append_of_ne_nil hparts (by simp),
        String.intercalate_singleton]
    rw [toString_of_here hroot, hwhole, if_neg (by simp)]
    simp only [String.utf8ByteSize_append]
    omega

/-- Only a path without names is written as a dot. -/
theorem Normal.parts_eq_nil (h : p.Normal) (hroot : p.root = .here) (hdot : p.toString = ".") :
    p.parts = [] := by
  rw [toString_of_here hroot] at hdot
  cases hparts : p.parts with
  | nil => rfl
  | cons first rest =>
    obtain ⟨hempty, hsingle⟩ := h first (by simp [hparts])
    rw [hparts] at hdot
    cases rest with
    | nil =>
      rw [String.intercalate_singleton, if_neg hempty] at hdot
      exact absurd hdot hsingle
    | cons next rest =>
      rw [String.intercalate_cons_cons, if_neg (by simp)] at hdot
      have hsize := congrArg String.utf8ByteSize hdot
      have hdot : ".".utf8ByteSize = 1 := rfl
      have hslash : "/".utf8ByteSize = 1 := rfl
      have hfirst : first.utf8ByteSize ≠ 0 := by rwa [Ne, String.utf8ByteSize_eq_zero_iff]
      simp only [String.utf8ByteSize_append, hdot, hslash] at hsize
      omega

end Path

namespace FileTree

variable {t u : FileTree} {l k : Location} {p : Path} {name : String} {e : Entry}

/-! ### Trees -/

/-- Whatever stands in the tree stands in a directory, and relative paths start from one. -/
structure Sound (t : FileTree) : Prop where
  here : t.entry? t.here = some .directory
  above : ∀ {l name e}, t.entry? (l ++ [name]) = some e → t.entry? l = some .directory

/-- A tree stays sound when something is put into a directory, unless it was a directory itself. -/
theorem Sound.set (h : t.Sound) (hl : t.entry? l ≠ some .directory)
    (habove : t.entry? l.dropLast = some .directory) (e : Entry) : (t.set l e).Sound where
  here := by
    have hne : t.here ≠ l := fun heq => hl (heq ▸ h.here)
    rw [here_set, entry?_set_of_ne t hne]
    exact h.here
  above {k name e'} hk := by
    have hdirectory : t.entry? k = some .directory := by
      by_cases heq : k ++ [name] = l
      · rw [← heq, List.dropLast_concat] at habove
        exact habove
      · rw [entry?_set_of_ne t heq] at hk
        exact h.above hk
    have hne : k ≠ l := fun heq => hl (heq ▸ hdirectory)
    rw [entry?_set_of_ne t hne]
    exact hdirectory

/-- The place to which the names of a path lead. -/
def place (t : FileTree) (p : Path) : Location := t.here ++ p.parts

theorem place_eq_concat (t : FileTree) (h : p.parts ≠ []) :
    t.place p = t.place p.parent ++ [p.name] := by
  rw [place, place, List.append_assoc, ← Path.parts_eq_concat h]

theorem place_parent_prefix (t : FileTree) (p : Path) : t.place p.parent <+: t.place p :=
  (List.prefix_append_right_inj t.here).2 (List.dropLast_prefix p.parts)

/-! ### Following a path -/

/-- One name further from a place, which has to be a directory. -/
def enter (t : FileTree) (l : Location) (name : String) : Except OsCode Location :=
  match t.entry? l with
  | some .directory => step l name
  | some (.file _) => .error .notDirectory
  | none => .error .noEntry

theorem enter_of_directory (h : t.entry? l = some .directory) (hname : name ≠ "..") :
    t.enter l name = if maxName < name.utf8ByteSize then .error .nameTooLong
      else .ok (l ++ [name]) := by
  rw [enter, h]
  dsimp only
  rw [step, if_neg hname]

theorem enter_eq_ok_iff (hname : name ≠ "..") : t.enter l name = .ok k ↔
    t.entry? l = some .directory ∧ name.utf8ByteSize ≤ maxName ∧ k = l ++ [name] := by
  by_cases h : t.entry? l = some .directory
  · rw [enter_of_directory h hname]
    by_cases hsize : maxName < name.utf8ByteSize
    · simp [hsize, Nat.not_le.2 hsize]
    · simp [h, hsize, Nat.le_of_not_lt hsize, eq_comm]
  · rw [enter]
    split <;> simp_all

theorem enter_eq_noEntry_iff : t.enter l name = .error .noEntry ↔ t.entry? l = none := by
  rw [enter]
  split
  next h =>
    rw [step]
    split
    · simp [h]
    split <;> simp [h]
  next h => simp [h]
  next h => simp [h]

/-- A path is followed to the last name but one, and from there one name further. -/
theorem follow_concat (hl : t.entry? l = some .directory) (names : List String) (name : String) :
    t.follow l (names ++ [name]) = t.follow l names >>= (t.enter · name) := by
  induction names generalizing l with
  | nil => simp [follow, enter, hl, bind, Except.bind]
  | cons first rest ih =>
    have hcons : ∀ last : List String, last ≠ [] →
        t.follow l (first :: last) = step l first >>= fun m => match t.entry? m with
          | some .directory => t.follow m last
          | some (.file _) => .error .notDirectory
          | none => .error .noEntry := by
      intro last hlast
      cases last with
      | nil => exact absurd rfl hlast
      | cons next last => rfl
    rw [List.cons_append, hcons (rest ++ [name]) (by simp)]
    by_cases hrest : rest = []
    · subst hrest
      simp only [follow, List.nil_append]
      cases step l first with
      | error code => rfl
      | ok m => simp only [bind, Except.bind, enter]
    · rw [hcons rest hrest]
      cases step l first with
      | error code => rfl
      | ok m =>
        simp only [bind, Except.bind] at ih ⊢
        split
        next hm => exact ih hm
        · rfl
        · rfl

/-- Only a path that is too long is not even looked at. -/
theorem size_of_locate {found : Except OsCode Location} (h : t.locate p = found)
    (hfound : found ≠ .error .nameTooLong) : p.toString.utf8ByteSize ≤ maxPath := by
  refine Nat.le_of_not_lt fun hlong => hfound ?_
  rw [← h, locate, if_pos hlong]

section
variable (ht : t.Sound) (hp : p.Inside)
include hp

theorem locate_of_parts_eq_nil (h : p.parts = []) : t.locate p = .ok t.here := by
  have hsize : p.toString = "." := by rw [Path.toString_of_here hp.root, h]; rfl
  rw [locate, hsize, if_neg (by decide), if_pos hp.root, h, follow]

include ht

theorem locate_eq_enter (h : p.parts ≠ []) (hsize : p.toString.utf8ByteSize ≤ maxPath) :
    t.locate p = t.locate p.parent >>= (t.enter · p.name) := by
  have hparent := Nat.le_trans (Path.size_parent_le hp.root h) hsize
  rw [locate, if_neg (Nat.not_lt.2 hsize), if_pos hp.root, locate, if_neg (Nat.not_lt.2 hparent),
    if_pos hp.parent.root, ← follow_concat ht.here, ← Path.parts_eq_concat h]

/-- A path that is followed leads to the place of its names. -/
theorem locate_eq_ok (h : t.locate p = .ok l) : l = t.place p ∧ p.Fits := by
  induction p using Path.parent_induction generalizing l with
  | top p hparts =>
    rw [locate_of_parts_eq_nil hp hparts, Except.ok.injEq] at h
    exact ⟨by simp [place, hparts, h], by simp [Path.Fits, hparts]⟩
  | below p hparts ih =>
    have hsize := size_of_locate h nofun
    rw [locate_eq_enter ht hp hparts hsize] at h
    cases hparent : t.locate p.parent with
    | error code => rw [hparent] at h; cases h
    | ok m =>
      rw [hparent] at h
      obtain ⟨rfl, hfits⟩ := ih hp.parent hparent
      obtain ⟨-, hlength, rfl⟩ := (enter_eq_ok_iff hp.name_ne).1 h
      exact ⟨(place_eq_concat t hparts).symm, (Path.fits_iff hparts).2 ⟨hfits, hlength⟩⟩

/-- A path is followed from a directory that its parent leads to. -/
theorem locate_of_isDirectory (h : t.isDirectory p.parent = true) : t.locate p =
    if maxPath < p.toString.utf8ByteSize ∨ maxName < p.name.utf8ByteSize
      then .error .nameTooLong else .ok (t.place p) := by
  by_cases hparts : p.parts = []
  · have hsize : p.toString = "." := by rw [Path.toString_of_here hp.root, hparts]; rfl
    have hname : p.name = "" := by rw [Path.name, hparts]; rfl
    rw [locate_of_parts_eq_nil hp hparts, hsize, hname, if_neg (by decide), place, hparts,
      List.append_nil]
  obtain ⟨-, m, hparent, hdirectory⟩ := isDirectory_iff.1 h
  obtain ⟨rfl, -⟩ := locate_eq_ok ht hp.parent hparent
  rcases Nat.lt_or_ge maxPath p.toString.utf8ByteSize with hlong | hsize
  · rw [locate, if_pos hlong, if_pos (.inl hlong)]
  · have henter : t.locate p = t.enter (t.place p.parent) p.name := by
      rw [locate_eq_enter ht hp hparts hsize, hparent]
      rfl
    rw [henter, enter_of_directory hdirectory hp.name_ne, place_eq_concat t hparts]
    simp only [Nat.not_lt.2 hsize, false_or]

/-- What stands above a place that a path leads to is a directory. -/
theorem directory_of_locate (h : t.locate p = .ok l) :
    t.entry? (t.place p.parent) = some .directory := by
  by_cases hparts : p.parts = []
  · have hplace : t.place p.parent = t.here := by simp [place, Path.parent, hparts]
    rw [hplace]
    exact ht.here
  rw [locate_eq_enter ht hp hparts (size_of_locate h nofun)] at h
  cases hparent : t.locate p.parent with
  | error code => rw [hparent] at h; cases h
  | ok m =>
    rw [hparent] at h
    obtain ⟨rfl, -⟩ := locate_eq_ok ht hp.parent hparent
    exact ((enter_eq_ok_iff hp.name_ne).1 h).1

/-- Where a path cannot be followed, something is missing above its last name. -/
theorem locate_parent_of_noEntry (h : t.locate p = .error .noEntry) : p.parts ≠ [] ∧
    (t.locate p.parent = .error .noEntry ∨
      t.locate p.parent = .ok (t.place p.parent) ∧ t.entry? (t.place p.parent) = none) := by
  have hparts : p.parts ≠ [] := by
    intro hparts
    rw [locate_of_parts_eq_nil hp hparts] at h
    cases h
  have hsize := size_of_locate h nofun
  rw [locate_eq_enter ht hp hparts hsize] at h
  refine ⟨hparts, ?_⟩
  cases hparent : t.locate p.parent with
  | error code =>
    rw [hparent] at h
    cases h
    exact .inl rfl
  | ok m =>
    rw [hparent] at h
    obtain ⟨rfl, -⟩ := locate_eq_ok ht hp.parent hparent
    exact .inr ⟨rfl, enter_eq_noEntry_iff.1 h⟩

/-- Nothing stands at a path that cannot be followed because something is missing. -/
theorem entry?_of_noEntry (h : t.locate p = .error .noEntry) : t.entry? (t.place p) = none := by
  induction p using Path.parent_induction with
  | top p hparts => exact absurd hparts (locate_parent_of_noEntry ht hp h).1
  | below p hparts ih =>
    have hnone : t.entry? (t.place p.parent) = none := by
      rcases (locate_parent_of_noEntry ht hp h).2 with hparent | ⟨-, hnone⟩
      · exact ih hp.parent hparent
      · exact hnone
    cases hentry : t.entry? (t.place p) with
    | none => rfl
    | some e =>
      rw [place_eq_concat t hparts] at hentry
      rw [ht.above hentry] at hnone
      cases hnone

/-- On the way to a place, one tree has what another has, and directories where that has nothing. -/
def Grown (t u : FileTree) (l : Location) : Prop :=
  ∀ k, k <+: l → u.entry? k = t.entry? k ∨ t.entry? k = none ∧ u.entry? k = some .directory

/-- A tree with more directories on the way to a path follows it as far as the other, or further. -/
theorem Grown.locate (hu : u.Sound) (hhere : u.here = t.here) (h : t.Grown u (t.place p)) :
    u.locate p = t.locate p ∨ t.locate p = .error .noEntry ∧
      (u.locate p = .ok (t.place p) ∨ u.locate p = .error .nameTooLong ∧ ¬p.Fits) := by
  have hplace : u.place = t.place := by
    funext q
    rw [place, place, hhere]
  induction p using Path.parent_induction with
  | top p hparts =>
    left
    rw [locate_of_parts_eq_nil hp hparts, locate_of_parts_eq_nil hp hparts, hhere]
  | below p hparts ih =>
    rcases Nat.lt_or_ge maxPath p.toString.utf8ByteSize with hlong | hsize
    · left
      rw [FileTree.locate, FileTree.locate, if_pos hlong, if_pos hlong]
    have hway := t.place_parent_prefix p
    -- From a directory that only the grown tree has, the last name is all that can be too long.
    have hnew : u.entry? (t.place p.parent) = some .directory →
        u.enter (t.place p.parent) p.name = .ok (t.place p) ∨
          u.enter (t.place p.parent) p.name = .error .nameTooLong ∧ ¬p.Fits := by
      intro hdirectory
      rw [enter_of_directory hdirectory hp.name_ne, place_eq_concat t hparts]
      split
      next hlong => exact .inr ⟨rfl, fun hfits => Nat.not_lt.2 ((Path.fits_iff hparts).1 hfits).2 hlong⟩
      · exact .inl rfl
    rw [locate_eq_enter ht hp hparts hsize, locate_eq_enter hu hp hparts hsize]
    rcases ih hp.parent (fun k hk => h k (hk.trans hway)) with heq | ⟨hnone, hok | ⟨hlong, hfits⟩⟩
    · rw [heq]
      cases hparent : t.locate p.parent with
      | error code => exact .inl rfl
      | ok m =>
        obtain ⟨rfl, -⟩ := locate_eq_ok ht hp.parent hparent
        rcases h _ hway with hentry | ⟨hentry, hdirectory⟩
        · left
          simp only [bind, Except.bind, enter, hentry]
        · exact .inr ⟨enter_eq_noEntry_iff.2 hentry, hnew hdirectory⟩
    · rw [hnone, hok]
      rcases h _ hway with hentry | ⟨-, hdirectory⟩
      · left
        exact enter_eq_noEntry_iff.2 (hentry.trans (entry?_of_noEntry ht hp.parent hnone))
      · exact .inr ⟨rfl, hnew hdirectory⟩
    · rw [hnone, hlong]
      exact .inr ⟨rfl, .inr ⟨rfl, fun hall => hfits ((Path.fits_iff hparts).1 hall).1⟩⟩

end

end FileTree

end CatalogSync
