import ReferenceDraws.Artifact.Save
import ReferenceDraws.Proofs.Files.AtomicWrite
import ReferenceDraws.Proofs.Files.Path

/-!
# What saving a reference leaves behind

The two artifacts have paths that never lead to the same place
(`SavedArtifacts.places_ne`), so that neither write undoes the other.

* A save that fails leaves no artifact, or the archive alone, complete
  (`SavedArtifacts.failureLeaves_of_save`).
* A save that succeeds leaves both (`SavedArtifacts.readable_of_save`).
-/

namespace ReferenceDraws.SavedArtifacts

open FileTree

variable {disks : Disks} {t u : FileTree} {dir : String} {chains : List ChainDraws}
  {document : InfoDocument} {saved : Logged (Except AtomicWrite.Refusal SavedArtifacts)}

/-- The bytes of the archive of a reference. -/
def archiveBytes (chains : List ChainDraws) (document : InfoDocument) : List UInt8 :=
  DrawsArchive.encode (DrawsArchive.entryName document.name) chains

/-- The paths of the two artifacts end in different names. -/
theorem getLast?_steps_ne (dir name : String) :
    (Path.steps (InfoDocument.path dir name)).getLast? ≠
      (Path.steps (DrawsArchive.path dir name)).getLast? := by
  obtain ⟨first, hinfo⟩ := Path.exists_getLast?_steps_join dir name
    (by decide : '/' ∉ ".info.json".toList) (by decide)
  obtain ⟨other, hdraws⟩ := Path.exists_getLast?_steps_join dir name
    (by decide : '/' ∉ ".json.zip".toList) (by decide)
  rw [InfoDocument.path, DrawsArchive.path, hinfo, hdraws]
  intro h
  have hlast := congrArg List.getLast? (String.ofList_injective (Option.some.inj h))
  have hn : ".info.json".toList.getLast? = some 'n' := by decide
  have hp : ".json.zip".toList.getLast? = some 'p' := by decide
  rw [List.getLast?_append, List.getLast?_append, hn, hp] at hlast
  simp at hlast

/-- The two artifacts have different places. -/
theorem places_ne {name : String} {l k : Location}
    (hdraws : u.LeadsTo (DrawsArchive.path dir name) l)
    (hinfo : u.LeadsTo (InfoDocument.path dir name) k) : l ≠ k := by
  intro hlk
  apply getLast?_steps_ne dir name
  rw [← hinfo.getLast?_eq, ← hdraws.getLast?_eq, hlk]

/-- The ways a save can go: the archive is refused, the document is refused,
or both are written. -/
theorem save_cases (h : save disks t dir chains document = (u, saved)) :
    (∃ r, saved.value = .error r ∧
      AtomicWrite.run disks.draws t (DrawsArchive.path dir document.name)
        (archiveBytes chains document) = (u, .error r)) ∨
    ∃ between, AtomicWrite.run disks.draws t (DrawsArchive.path dir document.name)
        (archiveBytes chains document) = (between, .ok ()) ∧
      ((∃ r, saved.value = .error r ∧
        InfoDocument.write disks.info between (InfoDocument.path dir document.name) document =
          (u, .error r)) ∨
      ((∃ s, saved.value = .ok s) ∧
        InfoDocument.write disks.info between (InfoDocument.path dir document.name) document =
          (u, .ok ()))) := by
  unfold save at h
  simp only at h
  split at h
  · rename_i v r heq
    cases h
    exact .inl ⟨r, rfl, heq⟩
  rename_i between heq
  refine .inr ⟨between, heq, ?_⟩
  split at h
  · rename_i v r hinfo
    cases h
    exact .inl ⟨r, rfl, hinfo⟩
  · rename_i v hinfo
    cases h
    exact .inr ⟨⟨_, rfl⟩, hinfo⟩

/-! ## Failure -/

/-- What a save leaves that ends with a refusal. -/
inductive FailureLeaves (disks : Disks) (t u : FileTree) (dir : String)
    (chains : List ChainDraws) (document : InfoDocument) (r : AtomicWrite.Refusal) : Prop where
  /-- The archive was refused: neither artifact has come or changed. -/
  | nothing
    (refused : AtomicWrite.run disks.draws t (DrawsArchive.path dir document.name)
      (archiveBytes chains document) = (u, .error r))
    (gains : t.GainsDirectories u)
    (sameDraws : t.HoldsSame u (DrawsArchive.path dir document.name))
    (sameInfo : t.HoldsSame u (InfoDocument.path dir document.name))
  /-- The document was refused: the archive stands complete at its place, and
  what the path of the document leads to has not come or changed. -/
  | archive (between : FileTree) (l : Location)
    (written : AtomicWrite.run disks.draws t (DrawsArchive.path dir document.name)
      (archiveBytes chains document) = (between, .ok ()))
    (refused : InfoDocument.write disks.info between (InfoDocument.path dir document.name)
      document = (u, .error r))
    (gains : t.GainsFile u (DrawsArchive.path dir document.name) l
      (archiveBytes chains document))
    (sameInfo : t.HoldsSame u (InfoDocument.path dir document.name))

/-- A save that fails leaves no artifact, or the archive alone. -/
theorem failureLeaves_of_save {r : AtomicWrite.Refusal}
    (h : save disks t dir chains document = (u, saved)) (herror : saved.value = .error r) :
    FailureLeaves disks t u dir chains document r := by
  rcases save_cases h with ⟨r', hvalue, hrun⟩ |
    ⟨between, hrun, ⟨r', hvalue, hwrite⟩ | ⟨⟨s, hvalue⟩, -⟩⟩
  · rw [herror] at hvalue
    cases hvalue
    have hdirs := AtomicWrite.gainsDirectories_of_run hrun
    exact .nothing hrun hdirs (hdirs.holdsSame _) (hdirs.holdsSame _)
  · rw [herror] at hvalue
    cases hvalue
    obtain ⟨l, hfile⟩ := AtomicWrite.exists_gainsFile_of_run hrun
    have hgains := hfile.trans (AtomicWrite.gainsDirectories_of_run hwrite)
    exact .archive between l hrun hwrite hgains
      (hgains.holdsSame (getLast?_steps_ne dir document.name))
  · rw [herror] at hvalue
    cases hvalue

/-! ## Success -/

/-- After a save that succeeds, both paths read as what was written. -/
theorem readable_of_save {s : SavedArtifacts} (h : save disks t dir chains document = (u, saved))
    (hok : saved.value = .ok s) :
    u.openPath (DrawsArchive.path dir document.name) =
        .ok (some (archiveBytes chains document)) ∧
      u.read (InfoDocument.path dir document.name) = .ok (Text.encode document.text) := by
  rcases save_cases h with ⟨r, hvalue, -⟩ | ⟨between, hrun, ⟨r, hvalue, -⟩ | ⟨-, hwrite⟩⟩
  · rw [hok] at hvalue
    cases hvalue
  · rw [hok] at hvalue
    cases hvalue
  · obtain ⟨l, hdraws⟩ := AtomicWrite.exists_gainsFile_of_run hrun
    obtain ⟨k, hinfo⟩ := AtomicWrite.exists_gainsFile_of_run hwrite
    refine ⟨?_, hinfo.read⟩
    have hleads := hdraws.leadsTo.mono hinfo.keepsDirectories
    have hne : l ≠ k := places_ne hleads hinfo.leadsTo
    exact hleads.openPath ((hinfo.file?_of_ne hne).trans hdraws.file?_self)

end ReferenceDraws.SavedArtifacts
