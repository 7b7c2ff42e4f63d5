import ReferenceDraws.CommandLine.Run
import ReferenceDraws.Proofs.Artifact.Save
import ReferenceDraws.Proofs.Reference.Run

/-!
# What a generation leaves behind

A generation loads its configuration, makes the reference and saves it
(`generate_cases`), and it touches the file tree in the last of these stages
only.  So a generation that ends before it has left the tree as it was
(`EndsBeforeSave`), and one whose save fails has left what a failed save
leaves: no artifact, or the draws archive alone, complete, when it is the
document that was refused (`failure_leaves_whole_artifacts`).
-/

namespace ReferenceDraws.CommandLine

variable {env : Environment} {t u : FileTree} {o : GenerateOptions} {outcome : Outcome}

/-- A generation ends before anything is saved: its configuration is refused,
or the reference cannot be made. -/
inductive EndsBeforeSave (t : FileTree) (o : GenerateOptions) (f : Failure) : Prop
  | configuration (h : loadConfig t o = .error f)
  | reference {config : RunConfig} (hconfig : loadConfig t o = .ok config)
    (h : (ReferenceRun.generate o.posterior (o.files.output t) config o.assembly).value =
      .error f)

/-- The ways a generation can go: it ends before anything is saved, the save
fails, or both artifacts are saved. -/
theorem generate_cases (h : generate env t o = (u, outcome)) :
    (∃ f, EndsBeforeSave t o f ∧ outcome.error = some (.failure f) ∧ u = t) ∨
    ∃ config r saved, loadConfig t o = .ok config ∧
      (ReferenceRun.generate o.posterior (o.files.output t) config o.assembly).value = .ok r ∧
      r.save env.disks t o.out (o.provenance env) = (u, saved) ∧
      ((∃ refusal, saved.value = .error refusal ∧
        outcome.error = some (.failure refusal.failure)) ∨
      ((∃ files, saved.value = .ok files) ∧ outcome.error = none)) := by
  unfold generate at h
  split at h
  · rename_i f hconfig
    cases h
    exact .inl ⟨f, .configuration hconfig, rfl, rfl⟩
  rename_i config hconfig
  simp only at h
  split at h
  · rename_i f hgenerated
    cases h
    exact .inl ⟨f, .reference hconfig hgenerated, rfl, rfl⟩
  rename_i r hgenerated
  refine .inr ⟨config, r, (r.save env.disks t o.out (o.provenance env)).2, hconfig, hgenerated,
    ?_⟩
  split at h
  · rename_i refusal hsaved
    cases h
    exact ⟨rfl, .inl ⟨refusal, hsaved, rfl⟩⟩
  · rename_i files hsaved
    cases h
    exact ⟨rfl, .inr ⟨⟨files, hsaved⟩, rfl⟩⟩

/-- A failure leaves no artifact that is not whole.  A generation that ends
before it saves leaves everything as it was.  A save that fails leaves the
places of both artifacts as they were, but for directories on the way; or it
was the write of the document that failed, and then the draws archive alone
has come, complete. -/
theorem failure_leaves_whole_artifacts :
    (∀ disks t u dir chains document saved r,
      SavedArtifacts.save disks t dir chains document = (u, saved) → saved.value = .error r →
        SavedArtifacts.FailureLeaves disks t u dir chains document r) ∧
    (∀ env t u o outcome e, generate env t o = (u, outcome) → outcome.error = some e →
      (∃ f, EndsBeforeSave t o f ∧ e = .failure f ∧ u = t) ∨
      ∃ config r refusal, loadConfig t o = .ok config ∧
        (ReferenceRun.generate o.posterior (o.files.output t) config o.assembly).value = .ok r ∧
        (r.document (o.provenance env)).name = o.posterior ∧ e = .failure refusal.failure ∧
        SavedArtifacts.FailureLeaves env.disks t u o.out r.chains
          (r.document (o.provenance env)) refusal) := by
  refine ⟨fun disks t u dir chains document saved r hsave herror => ?_,
    fun env t u o outcome e h herror => ?_⟩
  · exact SavedArtifacts.failureLeaves_of_save hsave herror
  · rcases generate_cases h with ⟨f, hends, hfailure, hu⟩ |
      ⟨config, r, saved, hconfig, hgenerated, hsave, hend⟩
    · rw [herror, Option.some.injEq] at hfailure
      exact .inl ⟨f, hends, hfailure, hu⟩
    rcases hend with ⟨refusal, hrefused, hfailure⟩ | ⟨-, hnone⟩
    · rw [herror, Option.some.injEq] at hfailure
      exact .inr ⟨config, r, refusal, hconfig, hgenerated, ReferenceRun.name_of_generate hgenerated,
        hfailure, SavedArtifacts.failureLeaves_of_save hsave hrefused⟩
    · rw [herror] at hnone
      cases hnone

/-! ## A refused document -/

/-- A sampler's output without parameters, and a directory where the document
of `toy` would go. -/
def occupiedTree : FileTree where
  entries := .ofList [(["draws.json"], .file (Text.encode "\x7b\x7d")),
    (["summary.csv"], .file (Text.encode "name,ESS_bulk,ESS_tail,R_hat\n")),
    (["out"], .directory), (["out", "toy.info.json"], .directory)]
  workDir := []

/-- Generates `toy` from that output. -/
def toyOptions : GenerateOptions where
  posterior := "toy"
  draws := "draws.json"
  summary := "summary.csv"
  out := "out"

/-- The day and the machine of that generation. -/
def toyEnvironment : Environment where
  today := "2024-05-01"
  platform := "linux"

/-- How the document of `toy` is refused. -/
def occupiedRefusal : AtomicWrite.Refusal := ⟨.move, "out/toy.info.json", .isADirectory⟩

/-- What becomes of that generation. -/
def occupiedResult : FileTree × Outcome := generate toyEnvironment occupiedTree toyOptions

theorem error_occupiedResult :
    occupiedResult.2.error = some (.failure occupiedRefusal.failure) := by
  decide +kernel

theorem get?_occupiedTree : occupiedTree.get? ["out", "toy.json.zip"] = none := by
  decide +kernel

theorem get?_occupiedResult : occupiedResult.1.get? ["out", "toy.json.zip"] ≠ none ∧
    occupiedResult.1.get? ["out", "toy.json.zip"] ≠ some .directory := by
  decide +kernel

/-- The document of a run of `toy` without parameters. -/
def toyDocument : InfoDocument :=
  .build "toy" {} ⟨[], 10000, 10, [], [], [], List.replicate 10 0⟩
    (toyOptions.provenance toyEnvironment)

/-- A directory in the way of the document makes both a save and a generation
fail, and neither leaves anything but the archive. -/
theorem failure_leaves_whole_artifacts_occupied :
    (SavedArtifacts.save {} occupiedTree "out" [.empty] toyDocument).2.value =
        .error occupiedRefusal ∧
      SavedArtifacts.FailureLeaves {} occupiedTree
        (SavedArtifacts.save {} occupiedTree "out" [.empty] toyDocument).1 "out" [.empty]
        toyDocument occupiedRefusal ∧
      ∃ (r : ReferenceRun) (refusal : AtomicWrite.Refusal),
        refusal.failure = occupiedRefusal.failure ∧
        SavedArtifacts.FailureLeaves {} occupiedTree occupiedResult.1 "out" r.chains
          (r.document (toyOptions.provenance toyEnvironment)) refusal := by
  have hsave : (SavedArtifacts.save {} occupiedTree "out" [.empty] toyDocument).2.value =
      .error occupiedRefusal := by
    decide +kernel
  refine ⟨hsave, failure_leaves_whole_artifacts.1 _ _ _ _ _ _ _ _ (Prod.eta _).symm hsave, ?_⟩
  rcases failure_leaves_whole_artifacts.2 toyEnvironment occupiedTree _ toyOptions _ _
    (Prod.eta occupiedResult).symm error_occupiedResult with
    ⟨-, -, -, hsame⟩ | ⟨config, r, refusal, -, -, -, hfailure, hleaves⟩
  · exact absurd (hsame ▸ get?_occupiedTree) get?_occupiedResult.1
  · exact ⟨r, refusal, (RunError.failure.inj hfailure).symm, hleaves⟩

/-- The archive of `toy` has come although its generation has failed. -/
theorem refused_document_leaves_archive :
    ¬ ∀ env t u o outcome e, generate env t o = (u, outcome) → outcome.error = some e →
      t.HoldsSame u (DrawsArchive.path o.out o.posterior) ∧
        t.HoldsSame u (InfoDocument.path o.out o.posterior) := by
  intro h
  have hsame := (h toyEnvironment occupiedTree _ toyOptions _ _ (Prod.eta occupiedResult).symm
    error_occupiedResult).1
  have hleads : occupiedResult.1.locate (DrawsArchive.path toyOptions.out toyOptions.posterior) =
      .ok (.name ["out"] "toy.json.zip" false) := rfl
  cases hentry : occupiedResult.1.get? ["out", "toy.json.zip"] with
  | none => exact get?_occupiedResult.1 hentry
  | some entry =>
    cases entry with
    | directory => exact get?_occupiedResult.2 hentry
    | file bytes =>
      have hfile := (hsame _ _ _ hleads bytes).1 hentry
      rw [List.singleton_append, get?_occupiedTree] at hfile
      cases hfile

end ReferenceDraws.CommandLine
