import ReferenceDraws.Proofs.CommandLine.Inspect

/-!
# What an inspection reads of an archive

An inspection compares the chains of an archive with those that the document
records, and it counts no draws.  `compareArchive_congr` says that the number
of chains is all that it reads, and `inspect_counts_chains_only` what follows:
any chains in the right number pass, whatever draws they hold.
-/

namespace ReferenceDraws.CommandLine

section

variable {t u : FileTree} {d : InfoDocument} {info archive : String}
  {chains others : List ChainDraws}

/-- Archives of equally many chains compare alike with a document. -/
theorem compareArchive_congr (ht : DrawsArchive.read t archive = .ok chains)
    (hu : DrawsArchive.read u archive = .ok others) (hlength : chains.length = others.length) :
    compareArchive t d archive = compareArchive u d archive := by
  unfold compareArchive
  rw [ht, hu]
  simp only [hlength]

/-- An inspection with an archive succeeds exactly if both files are read, the
chains are as many as recorded, and every check passed. -/
theorem inspect_archive_eq_none_iff :
    (inspect t ⟨info, some archive⟩).error = none ↔
      ∃ d chains, InfoDocument.load t info = .ok d ∧ DrawsArchive.read t archive = .ok chains ∧
        chains.length = d.diagnostics.nchains.toNat ∧ d.checksMade.allPassed = true := by
  rw [inspect_error_eq_none_iff]
  constructor
  · rintro ⟨d, hload, hfits, hpassed⟩
    obtain ⟨chains, hread, hcount⟩ := hfits archive rfl
    exact ⟨d, chains, hload, hread, hcount, hpassed⟩
  · rintro ⟨d, chains, hload, hread, hcount, hpassed⟩
    refine ⟨d, hload, ?_, hpassed⟩
    intro path hpath
    cases hpath
    exact ⟨chains, hread, hcount⟩

end

/-- An inspection with an archive succeeds exactly if both files are read, the
archive has as many chains as the document records, and the checks passed.
Its outcome is the same for any two archives of equally many chains, so that
no number of draws makes it fail. -/
theorem inspect_counts_chains_only (t : FileTree) (info archive : String) :
    ((inspect t ⟨info, some archive⟩).error = none ↔
      ∃ d chains, InfoDocument.load t info = .ok d ∧ DrawsArchive.read t archive = .ok chains ∧
        chains.length = d.diagnostics.nchains.toNat ∧ d.checksMade.allPassed = true) ∧
    (∀ u d chains others, InfoDocument.load t info = .ok d → InfoDocument.load u info = .ok d →
      DrawsArchive.read t archive = .ok chains → DrawsArchive.read u archive = .ok others →
      chains.length = others.length →
      inspect t ⟨info, some archive⟩ = inspect u ⟨info, some archive⟩) ∧
    (∀ d posterior chains, InfoDocument.load t info = .ok d → d.checksMade.allPassed = true →
      t.openPath archive =
        .ok (some (DrawsArchive.encode (DrawsArchive.entryName posterior) chains)) →
      (DrawsArchive.encode (DrawsArchive.entryName posterior) chains).length < 2 ^ 32 →
      (DrawsArchive.entryName posterior).utf8ByteSize < 2 ^ 16 →
      ¬ Archive.EndsLikeLocator (DrawsArchive.entryName posterior) →
      chains.length = d.diagnostics.nchains.toNat →
      (inspect t ⟨info, some archive⟩).error = none) := by
  refine ⟨inspect_archive_eq_none_iff, ?_, ?_⟩
  · intro u d chains others ht hu hchains hothers hlength
    have hcompare : compareArchive t d archive = compareArchive u d archive :=
      compareArchive_congr hchains hothers hlength
    unfold inspect
    simp only [ht, hu, Option.elim_some, hcompare]
  · intro d posterior chains hload hpassed hfile hlength hname hlocator hcount
    have hread := DrawsArchive.read_of_openPath hfile hlength hname hlocator
    exact inspect_archive_eq_none_iff.2
      ⟨d, _, hload, hread, (List.length_map _).trans hcount, hpassed⟩

/-- A document of four chains with ten thousand draws of `theta`, which passes
every check. -/
def thetaDocument : InfoDocument :=
  .build "toy" { chains := 4, drawsPerChain := 2500 }
    ⟨["theta"], 10000, 4, [⟨0x4089a00000000000⟩], [⟨0x4089a00000000000⟩], [.one],
      List.replicate 4 0⟩
    (toyOptions.provenance toyEnvironment)

/-- Four chains with a single draw of `theta` among them. -/
def singleDraw : List ChainDraws :=
  [.ofList [("theta", .scalar [.one])], .empty, .empty, .empty]

/-- The document beside an archive of these chains. -/
def singleDrawTree : FileTree where
  entries := .ofList [(["toy.info.json"], .file (Text.encode thetaDocument.text)),
    (["toy.json.zip"], .file (DrawsArchive.encode (DrawsArchive.entryName "toy") singleDraw))]
  workDir := []

/-- The inspection succeeds although the archive has one draw of `theta`, in
one of the chains, where the document records ten thousand. -/
theorem inspect_accepts_single_draw :
    (inspect singleDrawTree ⟨"toy.info.json", some "toy.json.zip"⟩).error = none ∧
      ∃ d chains, InfoDocument.load singleDrawTree "toy.info.json" = .ok d ∧
        DrawsArchive.read singleDrawTree "toy.json.zip" = .ok chains ∧
        d.diagnostics.ndraws = 10000 ∧ ChainDraws.drawsOf chains "theta" = 1 := by
  have hfile : singleDrawTree.read "toy.info.json" = .ok (Text.encode thetaDocument.text) := rfl
  have hload : InfoDocument.load singleDrawTree "toy.info.json" = .ok thetaDocument := by
    rw [InfoDocument.load_of_read hfile]
    exact if_pos (by decide +kernel)
  have hopen : singleDrawTree.openPath "toy.json.zip" =
      .ok (some (DrawsArchive.encode (DrawsArchive.entryName "toy") singleDraw)) := rfl
  have hlength : (DrawsArchive.encode (DrawsArchive.entryName "toy") singleDraw).length <
      2 ^ 32 := by decide +kernel
  have hname : (DrawsArchive.entryName "toy").utf8ByteSize < 2 ^ 16 := by decide +kernel
  have hlocator : ¬ Archive.EndsLikeLocator (DrawsArchive.entryName "toy") := by
    rintro ⟨hlong, -⟩
    revert hlong
    decide +kernel
  have hpassed : thetaDocument.checksMade.allPassed = true := by decide +kernel
  have hread := DrawsArchive.read_of_openPath hopen hlength hname hlocator
  refine ⟨?_, thetaDocument, _, hload, hread, rfl, ?_⟩
  · exact (inspect_counts_chains_only singleDrawTree "toy.info.json" "toy.json.zip").2.2
      thetaDocument "toy" singleDraw hload hpassed hopen hlength hname hlocator rfl
  · decide +kernel

end ReferenceDraws.CommandLine
