import ReferenceDraws.Proofs.Draws.Series
import ReferenceDraws.Proofs.Reference.Run
import ReferenceDraws.Proofs.Zip.Archive

/-!
# Draws archives read back

What `DrawsArchive.decode` reads of the bytes that `DrawsArchive.encode`
writes.

* `decode_of_readFirst`: an archive whose entry yields the bytes that were
  put into it is read as the chains that were written, draw by draw;
* `decode_of_length_lt`: so is every archive that is not too large and whose
  posterior is not too strange, also from a path (`read_of_openPath`);
* `decode_encode_chains`: the same as what becomes of every entry, and of
  the chains of a generated reference.
-/

namespace ReferenceDraws.DrawsArchive

variable {entry : String} {chains : List ChainDraws}

/-- An archive that keeps its entry keeps the chains. -/
theorem decode_of_readFirst
    (hzip : Archive.readFirst (encode entry chains) =
      .ok (Text.encode (ChainDraws.listToJson chains).compact)) :
    decode (encode entry chains) = .ok (chains.map ChainDraws.readBack) := by
  have hwritable := ChainDraws.isWritable_listToJson chains
  have hcontent := ChainDraws.decodeList_listToJson chains
  rw [decode, hzip]
  simp only [mapError_ok, ok_bind, Json.decodeBytes_compact _ hwritable, hcontent]

/-- An archive of less than four gigabytes keeps the chains, unless the name
of its posterior is too long or hides a locator. -/
theorem decode_of_length_lt {posterior : String}
    (hlength : (encode (entryName posterior) chains).length < 2 ^ 32)
    (hname : (entryName posterior).utf8ByteSize < 2 ^ 16)
    (hlocator : ¬ Archive.EndsLikeLocator (entryName posterior)) :
    decode (encode (entryName posterior) chains) = .ok (chains.map ChainDraws.readBack) := by
  have hlong : 5 ≤ (Text.encode (entryName posterior)).length := by
    rw [Text.length_encode, entryName, String.utf8ByteSize_append]
    exact Nat.le_add_left 5 _
  rw [← Text.length_encode] at hname
  exact decode_of_readFirst
    (Archive.readFirst_write ⟨hname, hlength, Archive.not_locator hlong hlocator⟩)

/-- Such an archive is read where a path leads to it. -/
theorem read_of_openPath {t : FileTree} {path posterior : String}
    (hfile : t.openPath path = .ok (some (encode (entryName posterior) chains)))
    (hlength : (encode (entryName posterior) chains).length < 2 ^ 32)
    (hname : (entryName posterior).utf8ByteSize < 2 ^ 16)
    (hlocator : ¬ Archive.EndsLikeLocator (entryName posterior)) :
    read t path = .ok (chains.map ChainDraws.readBack) := by
  rw [read, hfile, mapError_ok, ok_bind]
  exact decode_of_length_lt hlength hname hlocator

/-- An archive whose entry yields the bytes that were put into it is read as
as many chains, each with the same names in the same order.  Under every name
stands what is read of the series: the same draws, except that a draw that is
not finite is a NaN and that a series without rows is one without numbers.
The series of a generated reference keep their shapes. -/
theorem decode_encode_chains
    (hzip : Archive.readFirst (encode entry chains) =
      .ok (Text.encode (ChainDraws.listToJson chains).compact)) :
    (∃ back, decode (encode entry chains) = .ok back ∧
      back.map OrderedMap.entries =
        chains.map fun chain => chain.entries.map fun e => (e.1, e.2.readBack)) ∧
      ∀ name output config options run,
        (ReferenceRun.generate name output config options).value = .ok run →
        run.chains = chains →
        ∀ chain ∈ chains, ∀ e ∈ chain.entries, e.2.readBack = e.2.map Double.readBack := by
  constructor
  · refine ⟨_, decode_of_readFirst hzip, ?_⟩
    rw [List.map_map]
    exact List.map_congr_left fun chain _ => ChainDraws.entries_readBack chain
  · rintro name output config options run hrun rfl chain hchain e he
    exact Series.readBack_eq_map (ReferenceRun.ne_rows_nil_of_generate hrun hchain he)

/-- Two draws of two numbers, among them a negative zero and two that are not finite. -/
def mixedDraws : DrawArray where
  values := #[.one, ⟨0x8000000000000000⟩, .nan, .infinity true]
  totalDraws := 2
  dim := some 2
  size_eq := rfl

/-- The chain of these draws. -/
def mixedChain : ChainDraws :=
  .ofList [("b", .rows [[.one, ⟨0x8000000000000000⟩], [.nan, .infinity true]])]

/-- The chain of a generated reference is read from its archive with the
shape and the finite draws that it had. -/
theorem decode_encode_mixed_chain :
    Archive.readFirst (encode "p.json" [mixedChain]) =
        .ok (Text.encode (ChainDraws.listToJson [mixedChain]).compact) ∧
      (∃ back, decode (encode "p.json" [mixedChain]) = .ok back ∧
        back.map OrderedMap.entries =
          [[("b", .rows [[.one, ⟨0x8000000000000000⟩], [.nan, .nan]])]]) ∧
      ∃ run, (ReferenceRun.generate "p" (.ofParts (.ofList [("b", .neutral)])
          (.ofList [("b", mixedDraws)]) []) { chains := 1, drawsPerChain := 2 } {}).value =
          .ok run ∧ run.chains = [mixedChain] ∧
        ∀ e ∈ mixedChain.entries, e.2.readBack = e.2.map Double.readBack := by
  have hzip : Archive.readFirst (encode "p.json" [mixedChain]) =
      .ok (Text.encode (ChainDraws.listToJson [mixedChain]).compact) := by decide +kernel
  obtain ⟨⟨back, hback, hentries⟩, hshape⟩ := decode_encode_chains hzip
  obtain ⟨run, hrun, hchains⟩ : ∃ run,
      (ReferenceRun.generate "p" (.ofParts (.ofList [("b", .neutral)])
        (.ofList [("b", mixedDraws)]) []) { chains := 1, drawsPerChain := 2 } {}).value =
        .ok run ∧ run.chains = [mixedChain] := ⟨_, rfl, rfl⟩
  refine ⟨hzip, ⟨back, hback, hentries.trans rfl⟩, run, hrun, hchains, ?_⟩
  exact hshape _ _ _ _ run hrun hchains mixedChain (by simp)

end ReferenceDraws.DrawsArchive
