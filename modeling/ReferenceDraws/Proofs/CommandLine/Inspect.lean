import ReferenceDraws.Proofs.Artifact.DrawsArchive
import ReferenceDraws.Proofs.Artifact.InfoDocument
import ReferenceDraws.Proofs.CommandLine.Generate

/-!
# Inspecting what was generated

An inspection succeeds exactly if the document loads, the archive fits it and
the checks passed (`inspect_error_eq_none_iff`).  What a generation has just
written fits, but its document only loads if every statistic is finite
(`inspect_generated`): one that is not is null in the document.
-/

namespace ReferenceDraws.CommandLine

variable {env : Environment} {t u : FileTree} {outcome : Outcome}

/-- An archive fits a document if it has as many chains as the document
records. -/
theorem compareArchive_isOk_iff {d : InfoDocument} {path : String} :
    (∃ lines, compareArchive t d path = .ok lines) ↔
      ∃ chains, DrawsArchive.read t path = .ok chains ∧
        chains.length = d.diagnostics.nchains.toNat := by
  unfold compareArchive
  constructor
  · rintro ⟨lines, h⟩
    split at h
    · cases h
    · rename_i chains hread
      split at h
      · rename_i hcount
        exact ⟨chains, hread, hcount⟩
      · cases h
  · rintro ⟨chains, hread, hcount⟩
    rw [hread]
    simp only [if_pos hcount]
    exact ⟨_, rfl⟩

/-- An inspection succeeds exactly if the document loads, the archive fits it
and every check in the document passed. -/
theorem inspect_error_eq_none_iff {o : InspectOptions} :
    (inspect t o).error = none ↔
      ∃ d, InfoDocument.load t o.info = .ok d ∧
        (∀ path, o.draws = some path → ∃ chains, DrawsArchive.read t path = .ok chains ∧
          chains.length = d.diagnostics.nchains.toNat) ∧
        d.checksMade.allPassed = true := by
  unfold inspect
  constructor
  · intro h
    split at h
    · cases h
    rename_i d hload
    simp only at h
    split at h
    · cases h
    rename_i lines hfits
    refine ⟨d, hload, fun path hpath => ?_, ?_⟩
    · rw [hpath] at hfits
      exact compareArchive_isOk_iff.1 ⟨lines, hfits⟩
    · simp only at h
      split at h
      · rename_i hpassed
        exact hpassed
      · cases h
  · rintro ⟨d, hload, hfits, hpassed⟩
    have hlines : ∃ lines, o.draws.elim (.ok []) (compareArchive t d) = .ok lines := by
      cases hdraws : o.draws with
      | none => exact ⟨[], rfl⟩
      | some path => exact compareArchive_isOk_iff.2 (hfits path hdraws)
    obtain ⟨lines, hlines⟩ := hlines
    rw [hload]
    simp only [hlines, if_pos hpassed]

/-! ## After a generation -/

/-- Asks for what a generation has written. -/
def GenerateOptions.inspection (o : GenerateOptions) : InspectOptions where
  info := InfoDocument.path o.out o.posterior
  draws := some (DrawsArchive.path o.out o.posterior)

/-- The name of the entry that a path has room for is short. -/
theorem utf8ByteSize_entryName_lt {dir posterior : String} {bytes : List UInt8}
    (h : t.openPath (DrawsArchive.path dir posterior) = .ok (some bytes)) :
    (DrawsArchive.entryName posterior).utf8ByteSize < 2 ^ 16 := by
  obtain ⟨target, htarget, -⟩ := bind_eq_ok_iff.1 h
  obtain ⟨start, hstart⟩ := Path.exists_join_eq_append dir (posterior ++ ".json.zip")
  have hpath := FileTree.utf8ByteSize_le_of_locate htarget
  rw [DrawsArchive.path, hstart, String.utf8ByteSize_append, String.utf8ByteSize_append] at hpath
  have hmax : FileTree.maxPath = 4095 := rfl
  have hjson : ".json".utf8ByteSize = 5 := rfl
  rw [DrawsArchive.entryName, String.utf8ByteSize_append]
  omega

/-- After a generation that succeeds, its document loads exactly if all
statistics of the run are finite.  The inspection of its artifacts then
succeeds exactly if all checks of the run passed, and otherwise not at all. -/
theorem inspect_generated {o : GenerateOptions} (h : generate env t o = (u, outcome))
    (hsaved : outcome.error = none) :
    ∃ config r, loadConfig t o = .ok config ∧
      (ReferenceRun.generate o.posterior (o.files.output t) config o.assembly).value = .ok r ∧
      InfoDocument.load u (InfoDocument.path o.out o.posterior) =
        (if (DiagnosticsSection.ofRecord r.diagnostics).isFinite then
            .ok (r.document (o.provenance env))
          else .error (.content Json.Decoder.nullFault)) ∧
      ((DrawsArchive.encode (DrawsArchive.entryName o.posterior) r.chains).length < 2 ^ 32 →
        ¬ Archive.EndsLikeLocator (DrawsArchive.entryName o.posterior) →
        ((inspect u o.inspection).error = none ↔
          r.checks.allPassed = true ∧
            (DiagnosticsSection.ofRecord r.diagnostics).isFinite = true)) := by
  rcases generate_cases h with ⟨f, -, hfailed, -⟩ |
    ⟨config, r, saved, hconfig, hgenerated, hsave, ⟨refusal, -, hfailed⟩ | ⟨⟨files, hfiles⟩, -⟩⟩
  · rw [hsaved] at hfailed
    cases hfailed
  · rw [hsaved] at hfailed
    cases hfailed
  have hname : (r.document (o.provenance env)).name = o.posterior :=
    ReferenceRun.name_of_generate hgenerated
  obtain ⟨hdraws, hinfo⟩ := SavedArtifacts.readable_of_save hsave hfiles
  rw [SavedArtifacts.archiveBytes, hname] at hdraws
  rw [hname] at hinfo
  have hload := InfoDocument.load_of_read hinfo
  refine ⟨config, r, hconfig, hgenerated, hload, fun hlength hlocator => ?_⟩
  have hread : DrawsArchive.read u (DrawsArchive.path o.out o.posterior) =
      .ok (r.chains.map ChainDraws.readBack) :=
    DrawsArchive.read_of_openPath hdraws hlength (utf8ByteSize_entryName_lt hdraws) hlocator
  have hcount : (r.chains.map ChainDraws.readBack).length = r.diagnostics.nchains.toNat := by
    rw [List.length_map, ReferenceRun.length_chains_of_generate hgenerated,
      ReferenceRun.nchains_of_generate hgenerated]
  rw [inspect_error_eq_none_iff]
  constructor
  · rintro ⟨d, hd, -, hpassed⟩
    rw [GenerateOptions.inspection, hload] at hd
    split at hd
    · rename_i hfinite
      cases hd
      exact ⟨hpassed, hfinite⟩
    · cases hd
  · rintro ⟨hpassed, hfinite⟩
    refine ⟨r.document (o.provenance env), ?_, fun path hpath => ?_, hpassed⟩
    · rw [GenerateOptions.inspection, hload]
      exact if_pos hfinite
    · cases hpath
      exact ⟨_, hread, hcount⟩

/-- A sampler's output whose summary has a statistic that is not a number and
that no check reads. -/
def unnumberedTree : FileTree where
  entries := .ofList [(["draws.json"], .file (Text.encode "\x7b\x7d")),
    (["summary.csv"], .file (Text.encode
      "name,ESS_bulk,ESS_tail,R_hat\ntheta,820,nan,1.001\n"))]
  workDir := []

/-- What becomes of the generation of `toy` from that output. -/
def unnumberedResult : FileTree × Outcome := generate toyEnvironment unnumberedTree toyOptions

/-- The verdict on that generation, whether it has finite statistics, and its
chains. -/
theorem value_unnumbered :
    (ReferenceRun.generate toyOptions.posterior (toyOptions.files.output unnumberedTree) {}
        toyOptions.assembly).value.map
      (fun r => (r.checks.allPassed, (DiagnosticsSection.ofRecord r.diagnostics).isFinite,
        r.chains)) = .ok (true, false, List.replicate 10 .empty) := by
  decide +kernel

/-- The generation succeeds and its checks pass, but its document does not
load and its inspection fails. -/
theorem inspect_unnumbered :
    unnumberedResult.2.error = none ∧
      (∃ r, (ReferenceRun.generate toyOptions.posterior (toyOptions.files.output unnumberedTree) {}
        toyOptions.assembly).value = .ok r ∧ r.checks.allPassed = true) ∧
      InfoDocument.load unnumberedResult.1 (InfoDocument.path toyOptions.out toyOptions.posterior) =
        .error (.content Json.Decoder.nullFault) ∧
      (inspect unnumberedResult.1 toyOptions.inspection).error ≠ none := by
  have hsaved : unnumberedResult.2.error = none := by decide +kernel
  obtain ⟨config, r, hconfig, hgenerated, hload, hinspect⟩ :=
    inspect_generated (Prod.eta unnumberedResult).symm hsaved
  have hdefault : loadConfig unnumberedTree toyOptions = .ok {} := rfl
  rw [hdefault] at hconfig
  cases hconfig
  have hvalue := value_unnumbered
  rw [hgenerated] at hvalue
  simp only [Except.map, Except.ok.injEq, Prod.mk.injEq] at hvalue
  obtain ⟨hpassed, hfinite, hchains⟩ := hvalue
  rw [hchains, hfinite] at hinspect
  refine ⟨hsaved, ⟨r, hgenerated, hpassed⟩, ?_, fun hnone => ?_⟩
  · rw [hload, hfinite]
    rfl
  · have hlocator : ¬ Archive.EndsLikeLocator (DrawsArchive.entryName toyOptions.posterior) := by
      rintro ⟨hlong, -⟩
      revert hlong
      decide +kernel
    exact Bool.false_ne_true ((hinspect (by decide +kernel) hlocator).1 hnone).2

end ReferenceDraws.CommandLine
