import ReferenceDraws.Files.Tree
import ReferenceDraws.Proofs.Files.Path
import ReferenceDraws.Proofs.OrderedMap
import ReferenceDraws.Proofs.Outcome

/-!
# What becomes of a file tree

Frame conditions for the operations on file trees.

* Entries.  `get?_put` says what one change does to every location, `put_put`
  and `drop_put` what a later change makes of it, and `file?` is the file at a
  location.
* Paths.  Where a path leads depends on directories alone, and a path that
  leads somewhere still does when directories come in (`locate_mono`).
* Directories.  `GainsDirectories` relates a tree to one that has more
  directories and is otherwise the same.
* Ways.  `Passes` are the places on the way that steps take.  Whether or not the
  directories of a path can all be made, the tree gains nothing but directories
  on the way of the path (`gainsWay_makeDirectories`).
* Files.  `HoldsSame` says that what a path leads to holds the same file as
  before, or none as before.
* Places.  `LeadsTo` is the place that a path names.  It stays where it is as
  long as directories do (`LeadsTo.mono`).
-/

namespace ReferenceDraws.FileTree

/-! ## Entries -/

theorem get?_put (t : FileTree) (l k : Location) (e : Entry) :
    (t.put l e).get? k = if k = l then some e else t.get? k := by
  split
  · rename_i h
    rw [h]
    exact OrderedMap.get?_insert_self _ _ _
  · rename_i h
    exact OrderedMap.get?_insert_of_ne _ _ h

/-- An entry that is replaced leaves no trace. -/
theorem put_put (t : FileTree) (l : Location) (e e' : Entry) :
    (t.put l e).put l e' = t.put l e' := by
  rw [put, put, put, OrderedMap.insert_insert]

/-- A new entry that is removed leaves no trace. -/
theorem drop_put {t : FileTree} {l : Location} (h : t.get? l = none) (e : Entry) :
    (t.put l e).drop l = t := by
  have hkey : l ∉ t.entries.keys := by
    intro hmem
    obtain ⟨d, hd⟩ := OrderedMap.exists_get?_of_mem_keys hmem
    rw [get?, hd] at h
    cases h
  rw [put, drop, OrderedMap.erase_insert hkey]

/-- The bytes of the file at a location. -/
def file? (t : FileTree) (l : Location) : Option (List UInt8) :=
  match t.get? l with
  | some (.file bytes) => some bytes
  | _ => none

theorem file?_eq_some_iff {t : FileTree} {l : Location} {bytes : List UInt8} :
    t.file? l = some bytes ↔ t.get? l = some (.file bytes) := by
  unfold file?
  split
  · rename_i content h
    rw [h, Option.some_inj, Option.some_inj, Entry.file.injEq]
  · rename_i hno
    constructor
    · intro h
      cases h
    · intro h
      exact absurd h (hno bytes)

/-! ## Paths -/

variable {t u v : FileTree}

/-- Steps that lead somewhere still do where all directories still are. -/
theorem follow_mono (hdirs : ∀ l, t.get? l = some .directory → u.get? l = some .directory)
    {asDirectory : Bool} {dir : Location} {steps : List String} {target : Target}
    (h : t.follow asDirectory dir steps = .ok target) :
    u.follow asDirectory dir steps = .ok target := by
  induction steps generalizing dir with
  | nil => exact h
  | cons step rest ih =>
    unfold follow at h ⊢
    split at h
    · cases h
    rename_i hname
    rw [if_neg hname]
    split at h
    · rename_i hup
      rw [if_pos hup]
      exact ih h
    rename_i hdown
    rw [if_neg hdown]
    split at h
    · rename_i hlast
      rw [if_pos hlast]
      exact h
    rename_i hmore
    rw [if_neg hmore]
    split at h
    · rename_i hdir
      rw [hdirs _ hdir]
      exact ih h
    · cases h
    · cases h

/-- A path leads somewhere if it is well formed and its steps lead there. -/
theorem locate_eq_ok_iff {path : String} {target : Target} :
    t.locate path = .ok target ↔
      path.isEmpty = false ∧ path.toList.contains '\x00' = false ∧ path.utf8ByteSize ≤ maxPath ∧
        t.follow (Path.meansDirectory path) (if Path.isAbsolute path then [] else t.workDir)
          (Path.steps path) = .ok target := by
  unfold locate
  constructor
  · intro h
    split at h
    · cases h
    rename_i hempty
    split at h
    · cases h
    rename_i hnul
    split at h
    · cases h
    rename_i hlong
    exact ⟨Bool.eq_false_iff.2 hempty, Bool.eq_false_iff.2 hnul,
      Nat.le_of_not_lt hlong, h⟩
  · rintro ⟨hempty, hnul, hlong, h⟩
    rw [hempty, hnul, if_neg Bool.false_ne_true, if_neg Bool.false_ne_true,
      if_neg (Nat.not_lt.2 hlong), h]

/-- A path that leads somewhere still does where all directories still are. -/
theorem locate_mono (hdirs : ∀ l, t.get? l = some .directory → u.get? l = some .directory)
    (hwork : u.workDir = t.workDir) {path : String} {target : Target}
    (h : t.locate path = .ok target) : u.locate path = .ok target := by
  obtain ⟨hempty, hnul, hlong, hsteps⟩ := locate_eq_ok_iff.1 h
  rw [locate_eq_ok_iff, hwork]
  exact ⟨hempty, hnul, hlong, follow_mono hdirs hsteps⟩

/-- The name that steps lead to is the last of them. -/
theorem getLast?_of_follow {asDirectory b : Bool} {dir parent : Location} {steps : List String}
    {name : String} (h : t.follow asDirectory dir steps = .ok (.name parent name b)) :
    steps.getLast? = some name := by
  induction steps generalizing dir with
  | nil => cases h
  | cons step rest ih =>
    have hlast : ∀ dir, t.follow asDirectory dir rest = .ok (.name parent name b) →
        (step :: rest).getLast? = some name := by
      intro dir hrest
      rw [List.getLast?_cons, ih hrest]
      rfl
    unfold follow at h
    split at h
    · cases h
    split at h
    · exact hlast _ h
    split at h
    · rename_i hempty
      cases h
      rw [List.isEmpty_iff.1 hempty]
      rfl
    split at h
    · exact hlast _ h
    · cases h
    · cases h

/-- The name that a path leads to is the last step of the path. -/
theorem getLast?_of_locate {path : String} {parent : Location} {name : String} {b : Bool}
    (h : t.locate path = .ok (.name parent name b)) :
    (Path.steps path).getLast? = some name := by
  obtain ⟨-, -, -, hsteps⟩ := locate_eq_ok_iff.1 h
  exact getLast?_of_follow hsteps

/-- A path that leads somewhere is not too long. -/
theorem utf8ByteSize_le_of_locate {path : String} {target : Target}
    (h : t.locate path = .ok target) : path.utf8ByteSize ≤ maxPath :=
  (locate_eq_ok_iff.1 h).2.2.1

/-! ## Directories -/

/-- A tree has come to have more directories, and is otherwise the same. -/
structure GainsDirectories (t u : FileTree) : Prop where
  kept : ∀ l e, t.get? l = some e → u.get? l = some e
  gained : ∀ l e, u.get? l = some e → t.get? l = some e ∨ e = .directory
  workDir : u.workDir = t.workDir

theorem GainsDirectories.refl (t : FileTree) : t.GainsDirectories t :=
  ⟨fun _ _ h => h, fun _ _ h => .inl h, rfl⟩

theorem GainsDirectories.trans (h : t.GainsDirectories u) (h' : u.GainsDirectories v) :
    t.GainsDirectories v where
  kept l e he := h'.kept l e (h.kept l e he)
  gained l e he := by
    rcases h'.gained l e he with he | he
    · exact h.gained l e he
    · exact .inr he
  workDir := h'.workDir.trans h.workDir

theorem GainsDirectories.locate (h : t.GainsDirectories u) {path : String} {target : Target}
    (hpath : t.locate path = .ok target) : u.locate path = .ok target :=
  locate_mono (fun l hl => h.kept l _ hl) h.workDir hpath

/-- Directories that come in leave every location its file. -/
theorem GainsDirectories.file?_eq (h : t.GainsDirectories u) (l : Location) :
    u.file? l = t.file? l := by
  apply Option.ext
  intro bytes
  rw [file?_eq_some_iff, file?_eq_some_iff]
  constructor
  · intro hfile
    rcases h.gained l _ hfile with hfile | hfile
    · exact hfile
    · cases hfile
  · exact h.kept l _

/-- Where a path leads holds a file exactly if that file was there before. -/
def HoldsSame (t u : FileTree) (path : String) : Prop :=
  ∀ dir name b, u.locate path = .ok (.name dir name b) →
    ∀ bytes, u.get? (dir ++ [name]) = some (.file bytes) ↔
      t.get? (dir ++ [name]) = some (.file bytes)

/-- No file comes, goes or changes where only directories come in. -/
theorem GainsDirectories.holdsSame (h : t.GainsDirectories u) (path : String) :
    t.HoldsSame u path := by
  intro dir name b _ bytes
  rw [← file?_eq_some_iff, ← file?_eq_some_iff, h.file?_eq]

/-! ## Ways -/

/-- Where the steps of a path start. -/
def startOf (t : FileTree) (path : String) : Location :=
  if Path.isAbsolute path then [] else t.workDir

/-- Steps pass through a place if the first of them lead there. -/
def Passes (t : FileTree) (start : Location) (steps : List String) (l : Location) : Prop :=
  ∃ before asDirectory dir name b, before <+: steps ∧
    t.follow asDirectory start before = .ok (.name dir name b) ∧ l = dir ++ [name]

namespace Passes

variable {start l : Location} {steps : List String}

/-- More steps pass through the same places. -/
theorem append (h : t.Passes start steps l) {more : List String} (hmore : steps <+: more) :
    t.Passes start more l := by
  obtain ⟨before, asDirectory, dir, name, b, hbefore, hfollow, hl⟩ := h
  exact ⟨before, asDirectory, dir, name, b, hbefore.trans hmore, hfollow, hl⟩

/-- Steps pass through the same places where all directories still are. -/
theorem mono (h : t.Passes start steps l)
    (hdirs : ∀ k, t.get? k = some .directory → u.get? k = some .directory) :
    u.Passes start steps l := by
  obtain ⟨before, asDirectory, dir, name, b, hbefore, hfollow, hl⟩ := h
  exact ⟨before, asDirectory, dir, name, b, hbefore, follow_mono hdirs hfollow, hl⟩

/-- No steps pass through no place. -/
theorem steps_ne_nil (h : t.Passes start steps l) : steps ≠ [] := by
  intro hsteps
  obtain ⟨before, asDirectory, dir, name, b, hbefore, hfollow, -⟩ := h
  rw [hsteps, List.prefix_nil] at hbefore
  rw [hbefore] at hfollow
  cases hfollow

end Passes

/-- A tree has come to have directories on the way of some steps, and is
otherwise the same. -/
structure GainsWay (t u : FileTree) (start : Location) (steps : List String) : Prop where
  gains : t.GainsDirectories u
  passes : ∀ l e, t.get? l = none → u.get? l = some e → u.Passes start steps l
  guarded : u.guarded = t.guarded

namespace GainsWay

variable {start : Location} {steps : List String}

theorem refl (t : FileTree) (start : Location) (steps : List String) :
    t.GainsWay t start steps where
  gains := .refl t
  passes l e hnone hsome := by
    rw [hnone] at hsome
    cases hsome
  guarded := rfl

theorem trans (h : t.GainsWay u start steps) (h' : u.GainsWay v start steps) :
    t.GainsWay v start steps where
  gains := h.gains.trans h'.gains
  passes l e hnone hsome := by
    cases hmiddle : u.get? l with
    | none => exact h'.passes l e hmiddle hsome
    | some d => exact (h.passes l d hnone hmiddle).mono fun k hk => h'.gains.kept k _ hk
  guarded := h'.guarded.trans h.guarded

/-- More steps have the way of fewer. -/
theorem append (h : t.GainsWay u start steps) {more : List String} (hmore : steps <+: more) :
    t.GainsWay u start more where
  gains := h.gains
  passes l e hnone hsome := (h.passes l e hnone hsome).append hmore
  guarded := h.guarded

end GainsWay

/-- A directory is made where nothing was, and where the path leads. -/
theorem gainsWay_makeDirectory {path : String} (h : t.makeDirectory path = .ok u) :
    t.GainsWay u (t.startOf path) (Path.steps path) := by
  obtain ⟨target, htarget, h⟩ := bind_eq_ok_iff.1 h
  cases target with
  | directory l => cases h
  | name dir name b =>
    simp only at h
    split at h
    · cases h
    rename_i hnone
    split at h
    · cases h
    cases h
    rw [Bool.not_eq_true, Option.isSome_eq_false_iff, Option.isNone_iff_eq_none] at hnone
    have hkept : ∀ l e, t.get? l = some e → (t.put (dir ++ [name]) .directory).get? l = some e := by
      intro l e he
      rw [get?_put, if_neg, he]
      rintro rfl
      rw [hnone] at he
      cases he
    refine ⟨⟨hkept, fun l e he => ?_, rfl⟩, fun l e hbefore he => ?_, rfl⟩
    · rw [get?_put] at he
      split at he
      · cases he
        exact .inr rfl
      · exact .inl he
    · rw [get?_put] at he
      split at he
      · rename_i hl
        obtain ⟨-, -, -, hfollow⟩ := locate_eq_ok_iff.1 htarget
        exact ⟨_, _, dir, name, b, List.prefix_refl _,
          follow_mono (fun k hk => hkept k _ hk) hfollow, hl⟩
      · rw [hbefore] at he
        cases he

/-- Whatever becomes of it, making the directories of a path makes directories
on its way only. -/
theorem gainsWay_makeDirectoriesIn (levels : Nat) (t : FileTree) (path : String) :
    t.GainsWay (t.makeDirectoriesIn levels path).1 (t.startOf path) (Path.steps path) := by
  induction levels generalizing t path with
  | zero => exact .refl t _ _
  | succ levels ih =>
    unfold makeDirectoriesIn
    split
    · rename_i u hmade
      exact gainsWay_makeDirectory hmade
    · split
      · exact .refl t _ _
      · rename_i above hparent
        obtain ⟨hsteps, hstart⟩ := Path.steps_parent? hparent
        have habove : t.GainsWay
            (if above.isEmpty then (t, .ok ()) else t.makeDirectoriesIn levels above).1
            (t.startOf path) (Path.steps path) := by
          split
          · exact .refl t _ _
          · have hway := ih t above
            rw [startOf, hstart, hsteps] at hway
            exact hway.append (List.dropLast_prefix _)
        split
        · rename_i u f heq
          rw [heq] at habove
          exact habove
        · rename_i u heq
          rw [heq] at habove
          split
          · rename_i v hmade
            have hlast := gainsWay_makeDirectory hmade
            rw [startOf, habove.gains.workDir] at hlast
            exact habove.trans hlast
          · exact habove
    · exact .refl t _ _

/-- The same for the directory of a path, which is on the way of the path. -/
theorem gainsWay_makeDirectories (t : FileTree) (path : String) :
    t.GainsWay (t.makeDirectories (Path.directoryOf path)).1 (t.startOf path)
      (Path.steps path).dropLast := by
  have hway := gainsWay_makeDirectoriesIn ((Path.directoryOf path).length + 1) t
    (Path.directoryOf path)
  refine ⟨hway.gains, fun l e hnone hsome => ?_, hway.guarded⟩
  have hpasses := hway.passes l e hnone hsome
  rwa [startOf, Path.isAbsolute_directoryOf hpasses.steps_ne_nil, Path.steps_directoryOf]
    at hpasses

/-! ## Places -/

/-- The place of the name that a path leads to. -/
def LeadsTo (t : FileTree) (path : String) (l : Location) : Prop :=
  ∃ dir name, l = dir ++ [name] ∧ t.locate path = .ok (.name dir name false)

/-- Every directory of a tree is still one. -/
structure KeepsDirectories (t u : FileTree) : Prop where
  directories : ∀ l, t.get? l = some .directory → u.get? l = some .directory
  workDir : u.workDir = t.workDir

theorem KeepsDirectories.trans (h : t.KeepsDirectories u) (h' : u.KeepsDirectories v) :
    t.KeepsDirectories v :=
  ⟨fun l hl => h'.directories l (h.directories l hl), h'.workDir.trans h.workDir⟩

theorem GainsDirectories.keepsDirectories (h : t.GainsDirectories u) : t.KeepsDirectories u :=
  ⟨fun l hl => h.kept l _ hl, h.workDir⟩

namespace LeadsTo

variable {path : String} {l : Location}

theorem mono (hpath : t.LeadsTo path l) (h : t.KeepsDirectories u) : u.LeadsTo path l := by
  obtain ⟨dir, name, hl, hlocate⟩ := hpath
  exact ⟨dir, name, hl, locate_mono h.directories h.workDir hlocate⟩

/-- The place ends in the name that the path ends in. -/
theorem getLast?_eq (hpath : t.LeadsTo path l) : l.getLast? = (Path.steps path).getLast? := by
  obtain ⟨dir, name, rfl, hlocate⟩ := hpath
  rw [List.getLast?_concat, getLast?_of_locate hlocate]

/-- A path opens to the file at its place. -/
theorem openPath (hpath : t.LeadsTo path l) {bytes : List UInt8} (h : t.file? l = some bytes) :
    t.openPath path = .ok (some bytes) := by
  obtain ⟨dir, name, rfl, hlocate⟩ := hpath
  rw [FileTree.openPath, hlocate, ok_bind]
  simp only [file?_eq_some_iff.1 h]
  rfl

end LeadsTo

end ReferenceDraws.FileTree
