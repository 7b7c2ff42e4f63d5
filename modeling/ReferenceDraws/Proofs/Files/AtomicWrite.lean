import ReferenceDraws.Files.AtomicWrite
import ReferenceDraws.Proofs.Files.Tree

/-!
# What an atomic write leaves behind

A write makes directories on the way of its path, and then ends in one of two
ways (`AtomicWrite.run_cases`).

* Refused.  The directories are all that has changed.
* Done.  The path leads to a file with all the bytes, and nothing else has
  changed (`FileTree.GainsFile`).

In between, the bytes stand under a name that nothing else in the tree has
(`AtomicWrite.get?_freshIn`), so that putting the file there and taking it away
again leaves no trace.  `AtomicWrite.run_all_or_nothing` says for every place of
the tree what a write makes of it.
-/

namespace ReferenceDraws

namespace FileTree

variable {t u v : FileTree}

/-- A file has come to stand where a path leads, and beside it the tree has
at most come to have more directories. -/
structure GainsFile (t u : FileTree) (path : String) (l : Location) (bytes : List UInt8) :
    Prop where
  leads : ∃ dir name, l = dir ++ [name] ∧ u.locate path = .ok (.name dir name false)
  there : u.get? l = some (.file bytes)
  before : t.get? l ≠ some .directory
  kept : ∀ k e, k ≠ l → t.get? k = some e → u.get? k = some e
  gained : ∀ k e, k ≠ l → u.get? k = some e → t.get? k = some e ∨ e = .directory
  workDir : u.workDir = t.workDir

namespace GainsFile

variable {path : String} {l : Location} {bytes : List UInt8}

/-- All directories are still there. -/
theorem directories (h : t.GainsFile u path l bytes) {k : Location}
    (hk : t.get? k = some .directory) : u.get? k = some .directory := by
  refine h.kept k _ ?_ hk
  rintro rfl
  exact h.before hk

theorem keepsDirectories (h : t.GainsFile u path l bytes) : t.KeepsDirectories u :=
  ⟨fun _ hk => h.directories hk, h.workDir⟩

theorem leadsTo (h : t.GainsFile u path l bytes) : u.LeadsTo path l := h.leads

theorem file?_self (h : t.GainsFile u path l bytes) : u.file? l = some bytes :=
  file?_eq_some_iff.2 h.there

/-- Other locations keep their files. -/
theorem file?_of_ne (h : t.GainsFile u path l bytes) {k : Location} (hk : k ≠ l) :
    u.file? k = t.file? k := by
  apply Option.ext
  intro content
  rw [file?_eq_some_iff, file?_eq_some_iff]
  constructor
  · intro hfile
    rcases h.gained k _ hk hfile with hfile | hfile
    · exact hfile
    · cases hfile
  · exact h.kept k _ hk

/-- The path opens to the bytes. -/
theorem openPath (h : t.GainsFile u path l bytes) : u.openPath path = .ok (some bytes) :=
  h.leadsTo.openPath h.file?_self

/-- The bytes are what the path reads as. -/
theorem read (h : t.GainsFile u path l bytes) : u.read path = .ok bytes := by
  rw [FileTree.read, h.openPath, ok_bind]
  rfl

/-- Directories that came in before do not matter. -/
theorem after (hdirs : t.GainsDirectories u) (h : u.GainsFile v path l bytes) :
    t.GainsFile v path l bytes where
  leads := h.leads
  there := h.there
  before hl := h.before (hdirs.kept l _ hl)
  kept k e hk he := h.kept k e hk (hdirs.kept k e he)
  gained k e hk he := by
    rcases h.gained k e hk he with he | he
    · exact hdirs.gained k e he
    · exact .inr he
  workDir := h.workDir.trans hdirs.workDir

/-- Directories that come in later do not matter. -/
theorem trans (h : t.GainsFile u path l bytes) (hdirs : u.GainsDirectories v) :
    t.GainsFile v path l bytes where
  leads := by
    obtain ⟨dir, name, hl, hpath⟩ := h.leads
    exact ⟨dir, name, hl, hdirs.locate hpath⟩
  there := hdirs.kept l _ h.there
  before := h.before
  kept k e hk he := hdirs.kept k e (h.kept k e hk he)
  gained k e hk he := by
    rcases hdirs.gained k e he with he | he
    · exact h.gained k e hk he
    · exact .inr he
  workDir := hdirs.workDir.trans h.workDir

/-- Another path that leads to the same place ends in the same name. -/
theorem getLast?_eq (h : t.GainsFile u path l bytes) {other : String} {dir : Location}
    {name : String} {b : Bool} (hother : u.locate other = .ok (.name dir name b))
    (hl : dir ++ [name] = l) :
    (Path.steps other).getLast? = (Path.steps path).getLast? := by
  rw [getLast?_of_locate hother, ← h.leadsTo.getLast?_eq, ← hl, List.getLast?_concat]

/-- A path that ends in another name holds what it held. -/
theorem holdsSame (h : t.GainsFile u path l bytes) {other : String}
    (hother : (Path.steps other).getLast? ≠ (Path.steps path).getLast?) :
    t.HoldsSame u other := by
  intro dir name b hleads content
  have hne : dir ++ [name] ≠ l := fun hl => hother (h.getLast?_eq hleads hl)
  rw [← file?_eq_some_iff, ← file?_eq_some_iff, h.file?_of_ne hne]

end GainsFile

/-- A file is put where a path leads to it. -/
theorem gainsFile_put {path : String} {l : Location} {bytes : List UInt8}
    (hdir : t.get? l ≠ some .directory) (hleads : (t.put l (.file bytes)).LeadsTo path l) :
    t.GainsFile (t.put l (.file bytes)) path l bytes where
  leads := hleads
  there := by rw [get?_put, if_pos rfl]
  before := hdir
  kept k e hk he := by rw [get?_put, if_neg hk, he]
  gained k e hk he := by
    rw [get?_put, if_neg hk] at he
    exact .inl he
  workDir := rfl

end FileTree

namespace AtomicWrite

open FileTree

variable {t u : FileTree}

/-! ## The fresh name -/

/-- No name in a tree is longer than the longest. -/
theorem length_le_longestName {l : Location} (h : l ∈ t.entries.keys) :
    (l.getLast?.getD "").length ≤ longestName t := by
  have hstart : ∀ (ls : List Location) (n : Nat),
      n ≤ ls.foldl (fun n l => max n ((l.getLast?.getD "").length)) n := by
    intro ls
    induction ls with
    | nil => exact Nat.le_refl
    | cons k rest ih => exact fun n => Nat.le_trans (Nat.le_max_left _ _) (ih _)
  have hmem : ∀ (ls : List Location) (n : Nat), l ∈ ls →
      (l.getLast?.getD "").length ≤
        ls.foldl (fun n l => max n ((l.getLast?.getD "").length)) n := by
    intro ls
    induction ls with
    | nil => intro n hl; cases hl
    | cons k rest ih =>
      intro n hl
      rcases List.mem_cons.1 hl with rfl | hl
      · exact Nat.le_trans (Nat.le_max_right _ _) (hstart rest _)
      · exact ih _ hl
  exact hmem _ 0 h

/-- Nothing stands under a fresh name. -/
theorem get?_freshIn {dir : String} {l : Location} (h : freshIn t dir = .ok l) :
    t.get? l = none := by
  obtain ⟨parent, -, h⟩ := bind_eq_ok_iff.1 h
  split at h
  · cases h
  cases h
  refine OrderedMap.get?_eq_none fun hmem => ?_
  have hle := length_le_longestName hmem
  rw [List.getLast?_concat, Option.getD_some, freshName] at hle
  simp only [String.length_ofList, List.length_cons, List.length_replicate] at hle
  omega

/-! ## The move -/

/-- Where a file can be put is where the path leads, and no directory. -/
theorem exists_of_fileTarget {path : String} {l : Location} (h : t.fileTarget path = .ok l) :
    (∃ dir name, l = dir ++ [name] ∧ t.locate path = .ok (.name dir name false)) ∧
      t.get? l ≠ some .directory := by
  obtain ⟨target, htarget, h⟩ := bind_eq_ok_iff.1 h
  cases target with
  | directory l => cases h
  | name dir name b =>
    simp only at h
    split at h
    · cases h
    rename_i hb
    split at h
    · cases h
    rename_i hdirectory
    split at h
    · cases h
    cases h
    rw [Bool.not_eq_true] at hb
    rw [hb] at htarget
    refine ⟨⟨dir, name, rfl, htarget⟩, fun hget => hdirectory ?_⟩
    rw [isDirectoryAt, hget]
    simp

/-- A complete file under a fresh name can be moved where its path leads without
it. -/
theorem leadsTo_of_fileTarget {fresh l : Location} {path : String} {bytes : List UInt8}
    (hfresh : t.get? fresh = none)
    (htarget : (t.put fresh (.file bytes)).fileTarget path = .ok l) :
    t.get? l ≠ some .directory ∧ (t.put l (.file bytes)).LeadsTo path l := by
  obtain ⟨⟨dir, name, hl, hpath⟩, hnodir⟩ := exists_of_fileTarget htarget
  rw [get?_put] at hnodir
  constructor
  · intro hdir
    split at hnodir
    · rename_i heq
      rw [heq, hfresh] at hdir
      cases hdir
    · exact hnodir hdir
  · -- a directory is neither the fresh file nor at the place of the new one
    have hdirs : ∀ k, (t.put fresh (.file bytes)).get? k = some .directory →
        (t.put l (.file bytes)).get? k = some .directory := by
      intro k hk
      rw [get?_put] at hk ⊢
      by_cases hkl : k = l
      · rw [hkl] at hk
        exact absurd hk hnodir
      · split at hk
        · cases hk
        · rw [if_neg hkl, hk]
    exact ⟨dir, name, hl, locate_mono hdirs rfl hpath⟩

/-! ## The whole write -/

/-- A write makes directories on the way of its path.  If it is refused, that is
all.  If it is done, the file has come to stand where the path leads. -/
theorem run_cases {disk : Disk} {path : String} {bytes : List UInt8} {result : Except Refusal Unit}
    (h : run disk t path bytes = (u, result)) :
    ∃ made, t.GainsWay made (t.startOf path) (Path.steps path).dropLast ∧
      ((∃ r, result = .error r ∧ u = made) ∨
        (result = .ok () ∧ ∃ l, u = made.put l (.file bytes) ∧
          made.get? l ≠ some .directory ∧ u.LeadsTo path l)) := by
  unfold run at h
  simp only at h
  split at h
  · cases h
    exact ⟨_, .refl _ _ _, .inl ⟨_, rfl, rfl⟩⟩
  have hway := gainsWay_makeDirectories t path
  split at h
  · rename_i made f heq
    cases h
    rw [heq] at hway
    exact ⟨_, hway, .inl ⟨_, rfl, rfl⟩⟩
  rename_i made heq
  rw [heq] at hway
  refine ⟨made, hway, ?_⟩
  split at h
  · cases h
    exact .inl ⟨_, rfl, rfl⟩
  rename_i fresh hin
  have hfresh := get?_freshIn hin
  -- From here on a refusal drops the fresh file, which leaves no trace.
  rw [put_put, drop_put hfresh, drop_put hfresh] at h
  split at h
  · cases h
    exact .inl ⟨_, rfl, rfl⟩
  split at h
  · cases h
    exact .inl ⟨_, rfl, rfl⟩
  split at h
  · cases h
    exact .inl ⟨_, rfl, rfl⟩
  split at h
  · cases h
    exact .inl ⟨_, rfl, rfl⟩
  rename_i l htarget
  split at h
  · cases h
    exact .inl ⟨_, rfl, rfl⟩
  cases h
  exact .inr ⟨rfl, l, rfl, leadsTo_of_fileTarget hfresh htarget⟩

theorem gainsDirectories_of_run {disk : Disk} {path : String} {bytes : List UInt8} {r : Refusal}
    (h : run disk t path bytes = (u, .error r)) : t.GainsDirectories u := by
  obtain ⟨made, hway, ⟨-, -, hu⟩ | ⟨hok, -⟩⟩ := run_cases h
  · rw [hu]
    exact hway.gains
  · cases hok

theorem exists_gainsFile_of_run {disk : Disk} {path : String} {bytes : List UInt8}
    (h : run disk t path bytes = (u, .ok ())) : ∃ l, t.GainsFile u path l bytes := by
  obtain ⟨made, hway, ⟨_, herror, -⟩ | ⟨-, l, hu, hdir, hleads⟩⟩ := run_cases h
  · cases herror
  · rw [hu] at hleads ⊢
    exact ⟨l, .after hway.gains (gainsFile_put hdir hleads)⟩

/-! ## The frame of a write -/

/-- A place has the entry it had, or a directory was missing there and has been
made on the way of a path. -/
def SameButWay (t u : FileTree) (path : String) (k : Location) : Prop :=
  u.get? k = t.get? k ∨
    t.get? k = none ∧ u.get? k = some .directory ∧
      u.Passes (t.startOf path) (Path.steps path).dropLast k

theorem sameButWay_of_gainsWay {path : String}
    (h : t.GainsWay u (t.startOf path) (Path.steps path).dropLast) (k : Location) :
    SameButWay t u path k := by
  cases hbefore : t.get? k with
  | some e => exact .inl (by rw [h.gains.kept k e hbefore, hbefore])
  | none =>
    cases hafter : u.get? k with
    | none => exact .inl (by rw [hbefore, hafter])
    | some e =>
      obtain hsame | rfl := h.gains.gained k e hafter
      · rw [hbefore] at hsame
        cases hsame
      · exact .inr ⟨hbefore, hafter, h.passes k _ hbefore hafter⟩

/-- A file that is put somewhere else does not matter. -/
theorem SameButWay.put {path : String} {k l : Location} {bytes : List UInt8}
    (h : SameButWay t u path k) (hdir : u.get? l ≠ some .directory) (hk : k ≠ l) :
    SameButWay t (u.put l (.file bytes)) path k := by
  have hget : ∀ k, k ≠ l → (u.put l (.file bytes)).get? k = u.get? k := by
    intro k hk
    rw [get?_put, if_neg hk]
  rw [SameButWay, hget k hk]
  obtain hsame | ⟨hbefore, hafter, hpasses⟩ := h
  · exact .inl hsame
  · refine .inr ⟨hbefore, hafter, hpasses.mono fun j hj => ?_⟩
    rw [hget j, hj]
    rintro rfl
    exact hdir hj

/-- A write is done as a whole or not at all.  If it is done, its path leads to a
file with all the bytes, where no directory was, and all other files are as
they were.  If it is refused, at whatever step, all files are as they were and
there are no others.  Whichever it is, every other place is as it was but for
directories that were missing on the way of the path. -/
theorem run_all_or_nothing {disk : Disk} {path : String} {bytes : List UInt8}
    {result : Except Refusal Unit} (h : run disk t path bytes = (u, result)) :
    (result = .ok () → ∃ l, u.LeadsTo path l ∧ u.read path = .ok bytes ∧
      t.get? l ≠ some .directory ∧ u.file? l = some bytes ∧
      (∀ k, k ≠ l → u.file? k = t.file? k) ∧ ∀ k, k ≠ l → SameButWay t u path k) ∧
    (∀ r, result = .error r → (∀ k, u.file? k = t.file? k) ∧ ∀ k, SameButWay t u path k) ∧
    u.workDir = t.workDir ∧ u.guarded = t.guarded := by
  obtain ⟨made, hway, hcases⟩ := run_cases h
  obtain ⟨r, rfl, rfl⟩ | ⟨rfl, l, rfl, hdir, hleads⟩ := hcases
  · refine ⟨?_, ?_, hway.gains.workDir, hway.guarded⟩
    · intro hok
      cases hok
    · intro _ _
      exact ⟨hway.gains.file?_eq, sameButWay_of_gainsWay hway⟩
  · have hfile : t.GainsFile (made.put l (.file bytes)) path l bytes :=
      .after hway.gains (gainsFile_put hdir hleads)
    refine ⟨?_, ?_, hfile.workDir, hway.guarded⟩
    · intro _
      refine ⟨l, hleads, hfile.read, hfile.before, hfile.file?_self, ?_, ?_⟩
      · intro k hk
        exact hfile.file?_of_ne hk
      · intro k hk
        exact (sameButWay_of_gainsWay hway k).put hdir hk
    · intro _ herror
      cases herror

/-- A tree with a single file. -/
def loneTree : FileTree where
  entries := .ofList [(["toy"], .file [1])]
  workDir := []

/-- A file comes in two directories down, and another of a name that no file has
is refused when its directory has been made. -/
theorem run_all_or_nothing_nested :
    (∃ u, run Disk.sound loneTree "out/new/toy" [2, 3] = (u, .ok ()) ∧
      u.read "out/new/toy" = .ok [2, 3] ∧ u.get? ["out", "new"] = some .directory) ∧
    ∃ u r, run Disk.sound loneTree "out/\x00" [2, 3] = (u, .error r) ∧
      u.get? ["out"] = some .directory ∧ u.file? ["toy"] = some [1] := by
  constructor
  · obtain ⟨u, hu⟩ : ∃ u, run Disk.sound loneTree "out/new/toy" [2, 3] = (u, .ok ()) := ⟨_, rfl⟩
    obtain ⟨hdone, -⟩ := run_all_or_nothing hu
    obtain ⟨l, -, hread, -⟩ := hdone rfl
    refine ⟨u, hu, hread, ?_⟩
    cases hu
    decide +kernel
  · obtain ⟨u, r, hu⟩ : ∃ u r, run Disk.sound loneTree "out/\x00" [2, 3] = (u, .error r) :=
      ⟨_, _, rfl⟩
    obtain ⟨-, hrefused, -⟩ := run_all_or_nothing hu
    obtain ⟨hfiles, -⟩ := hrefused r rfl
    refine ⟨u, r, hu, ?_, ?_⟩
    · cases hu
      decide +kernel
    · rw [hfiles]
      decide +kernel

end AtomicWrite

end ReferenceDraws
