import ReferenceDraws.Artifact.InfoDocument
import ReferenceDraws.Proofs.Draws.Series
import ReferenceDraws.Proofs.Files.AtomicWrite

/-!
# Info documents read back

A statistic that is not finite has no number, and no other value stands for
it where a document is read.  So a document is read from its text as it was
written if all its statistics are finite, and otherwise it is not read at all
(`InfoDocument.decode_text`).  Written again, it is the same text
(`InfoDocument.loads_iff_finite`).
-/

namespace ReferenceDraws

namespace Json.Decoder

/-- What is wrong with null in the place of a double. -/
def nullFault : Fault := wrongKind .double .null

theorem double_ofDouble (d : Double) :
    double (.ofJson (.ofDouble d)) = if d.isFinite then .ok d else .error nullFault := by
  unfold Json.ofDouble
  split
  · rfl
  · rfl

/-- Doubles are read as they were written, unless one is not finite. -/
theorem list_double_ofDoubles (ds : List Double) :
    list double (.ofJson (.ofDoubles ds)) =
      if ds.all Double.isFinite then .ok ds else .error nullFault := by
  rw [Json.ofDoubles, Reading.ofJson, list]
  induction ds with
  | nil => rfl
  | cons d ds ih =>
    rw [List.map_cons, Reading.ofItems, items, double_ofDouble, ih, List.all_cons]
    cases d.isFinite with
    | false => rfl
    | true =>
      cases ds.all Double.isFinite with
      | false => rfl
      | true => rfl

theorem list_string_ofStrings (ss : List String) :
    list string (.ofJson (.ofStrings ss)) = .ok ss := by
  have h := @list_array String String string .string id ss fun _ _ => rfl
  rwa [List.map_id] at h

theorem list_word_ofUInt64 (ns : List UInt64) :
    list word (.ofJson (.array (ns.map .ofUInt64))) = .ok ns := by
  have h := @list_array UInt64 UInt64 word .ofUInt64 id ns fun _ _ => rfl
  rwa [List.map_id] at h

end Json.Decoder

open Json.RecordDecoder

/-! ## The parts of a document -/

theorem MethodArguments.decode_toJson (a : MethodArguments) :
    decode (.ofJson a.toJson) = .ok a :=
  ((yields_required "chains" Json.Decoder.size (.ofUInt64 a.chains)).map MethodArguments.mk
    |>.and_required "iter" Json.Decoder.size (.ofUInt64 a.iter) (by decide)
    |>.and_required "warmup" Json.Decoder.size (.ofUInt64 a.warmup) (by decide)
    |>.and_required "thin" Json.Decoder.size (.ofUInt64 a.thin) (by decide)
    |>.and_required "seed" Json.Decoder.word (.ofUInt64 a.seed) (by decide)).read "MethodArguments"

theorem Inference.decode_toJson (i : Inference) : decode (.ofJson i.toJson) = .ok i := by
  have h := ((yields_required "method" Json.Decoder.string (.string i.method)).map Inference.mk
    |>.and_required "method_arguments" MethodArguments.decode i.arguments.toJson
      (by decide)).read "Inference"
  rw [MethodArguments.decode_toJson] at h
  exact h

theorem QualityChecks.decode_toJson (c : QualityChecks) : decode (.ofJson c.toJson) = .ok c :=
  ((yields_required "ndraws_is_10k" Json.Decoder.bool (.bool c.ndrawsIs10k)).map QualityChecks.mk
    |>.and_required "nchains_is_gte_4" Json.Decoder.bool (.bool c.nchainsIsGte4) (by decide)
    |>.and_required "ess_within_bounds" Json.Decoder.bool (.bool c.essWithinBounds) (by decide)
    |>.and_required "r_hat_below_1_01" Json.Decoder.bool (.bool c.rHatBelow101)
      (by decide)).read "QualityChecks"

namespace DiagnosticsSection

/-- Whether every statistic has a number. -/
def isFinite (s : DiagnosticsSection) : Bool :=
  s.essBulk.all Double.isFinite && s.essTail.all Double.isFinite && s.rHat.all Double.isFinite

theorem isFinite_iff (s : DiagnosticsSection) :
    s.isFinite = true ↔ ∀ x ∈ s.essBulk ++ s.essTail ++ s.rHat, x.isFinite = true := by
  rw [isFinite, ← List.all_append, ← List.all_append, List.all_eq_true]

theorem decodeNames_toJson (names : List String) :
    decodeNames (.ofJson (.object [("names", .ofStrings names)])) = .ok names := by
  have h := (yields_required "names" (Json.Decoder.list Json.Decoder.string)
    (.ofStrings names)).read "DiagnosticInformation"
  rw [Json.Decoder.list_string_ofStrings] at h
  exact h

/-- A section is read as it was written, unless a statistic is not finite. -/
theorem decode_toJson (s : DiagnosticsSection) :
    decode (.ofJson s.toJson) =
      if s.isFinite then .ok s else .error Json.Decoder.nullFault := by
  have h := ((yields_required "diagnostic_information" decodeNames
      (.object [("names", .ofStrings s.names)])).map DiagnosticsSection.mk
    |>.and_required "ndraws" Json.Decoder.size (.ofUInt64 s.ndraws) (by decide)
    |>.and_required "nchains" Json.Decoder.size (.ofUInt64 s.nchains) (by decide)
    |>.and_required "effective_sample_size_bulk" (Json.Decoder.list Json.Decoder.double)
      (.ofDoubles s.essBulk) (by decide)
    |>.and_required "effective_sample_size_tail" (Json.Decoder.list Json.Decoder.double)
      (.ofDoubles s.essTail) (by decide)
    |>.and_required "r_hat" (Json.Decoder.list Json.Decoder.double) (.ofDoubles s.rHat) (by decide)
    |>.and_required "divergent_transitions" (Json.Decoder.list Json.Decoder.word)
      (.array (s.divergentTransitions.map .ofUInt64)) (by decide)).read "DiagnosticsSection"
  rw [decodeNames_toJson, Json.Decoder.list_double_ofDoubles, Json.Decoder.list_double_ofDoubles,
    Json.Decoder.list_double_ofDoubles, Json.Decoder.list_word_ofUInt64] at h
  refine Eq.trans h ?_
  unfold isFinite
  cases s.essBulk.all Double.isFinite with
  | false => rfl
  | true =>
    cases s.essTail.all Double.isFinite with
    | false => rfl
    | true =>
      cases s.rHat.all Double.isFinite with
      | false => rfl
      | true => rfl

end DiagnosticsSection

/-! ## The whole document -/

namespace InfoDocument

theorem orderedMap_versions (versions : OrderedMap String String) :
    Json.Decoder.orderedMap Json.Decoder.string (.ofJson (.ofOrderedMap .string versions)) =
      .ok versions := by
  have h := @Json.Decoder.orderedMap_object String String Json.Decoder.string .string id versions
    fun _ _ => rfl
  simpa using h

/-- A document is read as it was written, unless a statistic is not finite. -/
theorem decode_toJson (d : InfoDocument) :
    decode (.ofJson d.toJson) =
      if d.diagnostics.isFinite then .ok d else .error Json.Decoder.nullFault := by
  have h := ((yields_required "name" Json.Decoder.string (.string d.name)).map InfoDocument.mk
    |>.and_required "inference" Inference.decode d.inference.toJson (by decide)
    |>.and_required "diagnostics" DiagnosticsSection.decode d.diagnostics.toJson (by decide)
    |>.and_required "checks_made" QualityChecks.decode d.checksMade.toJson (by decide)
    |>.and_required "comments" Json.Decoder.string (.string d.comments) (by decide)
    |>.and_required "added_by" Json.Decoder.string (.string d.addedBy) (by decide)
    |>.and_required "added_date" Json.Decoder.string (.string d.addedDate) (by decide)
    |>.and_required "versions" (Json.Decoder.orderedMap Json.Decoder.string)
      (.ofOrderedMap .string d.versions) (by decide)).read "InfoDocument"
  rw [Inference.decode_toJson, DiagnosticsSection.decode_toJson, QualityChecks.decode_toJson,
    orderedMap_versions] at h
  refine Eq.trans h ?_
  cases d.diagnostics.isFinite with
  | false => rfl
  | true => rfl

theorem isWritable_ofStrings (ss : List String) : (Json.ofStrings ss).IsWritable := by
  refine .array fun x hx => ?_
  obtain ⟨s, -, rfl⟩ := List.mem_map.1 hx
  exact .string s

theorem isWritable_ofUInt64 (n : UInt64) : (Json.ofUInt64 n).IsWritable := .number trivial

theorem isWritable_arguments (a : MethodArguments) : a.toJson.IsWritable := by
  refine .object fun m hm => ?_
  simp only [List.mem_cons, List.not_mem_nil, or_false] at hm
  rcases hm with rfl | rfl | rfl | rfl | rfl
  all_goals exact isWritable_ofUInt64 _

theorem isWritable_inference (i : Inference) : i.toJson.IsWritable := by
  refine .object fun m hm => ?_
  simp only [List.mem_cons, List.not_mem_nil, or_false] at hm
  rcases hm with rfl | rfl
  · exact .string _
  · exact isWritable_arguments _

theorem isWritable_checks (c : QualityChecks) : c.toJson.IsWritable := by
  refine .object fun m hm => ?_
  obtain ⟨e, -, rfl⟩ := List.mem_map.1 hm
  exact .bool e.2

theorem isWritable_diagnostics (s : DiagnosticsSection) : s.toJson.IsWritable := by
  refine .object fun m hm => ?_
  simp only [List.mem_cons, List.not_mem_nil, or_false] at hm
  rcases hm with rfl | rfl | rfl | rfl | rfl | rfl | rfl
  · refine .object fun m hm => ?_
    rw [List.mem_singleton.1 hm]
    exact isWritable_ofStrings _
  · exact isWritable_ofUInt64 _
  · exact isWritable_ofUInt64 _
  · exact Series.isWritable_ofDoubles _
  · exact Series.isWritable_ofDoubles _
  · exact Series.isWritable_ofDoubles _
  · refine .array fun x hx => ?_
    obtain ⟨n, -, rfl⟩ := List.mem_map.1 hx
    exact isWritable_ofUInt64 n

theorem isWritable_toJson (d : InfoDocument) : d.toJson.IsWritable := by
  refine .object fun m hm => ?_
  simp only [List.mem_cons, List.not_mem_nil, or_false] at hm
  rcases hm with rfl | rfl | rfl | rfl | rfl | rfl | rfl | rfl
  · exact .string _
  · exact isWritable_inference _
  · exact isWritable_diagnostics _
  · exact isWritable_checks _
  · exact .string _
  · exact .string _
  · exact .string _
  · refine .object fun m hm => ?_
    obtain ⟨e, -, rfl⟩ := List.mem_map.1 hm
    exact .string e.2

/-- The text of a document is read as it was written, unless a statistic is
not finite. -/
theorem decode_text (d : InfoDocument) :
    Json.decodeString decode d.text =
      if d.diagnostics.isFinite then .ok d else .error Json.Decoder.nullFault := by
  rw [text, Json.decodeString_pretty decode (isWritable_toJson d), decode_toJson]

/-- The file of a document loads as the document, unless a statistic is not
finite. -/
theorem load_of_read {t : FileTree} {path : String} {d : InfoDocument}
    (h : t.read path = .ok (Text.encode d.text)) :
    load t path = if d.diagnostics.isFinite then .ok d
      else .error (.content Json.Decoder.nullFault) := by
  rw [load, h]
  simp only [mapError_ok, ok_bind, Text.decode?_encode, Option.elim, decode_text]
  cases d.diagnostics.isFinite with
  | false => rfl
  | true => rfl

/-! ## Round trips -/

/-- A file with the text of a document loads exactly if every statistic of the
document is finite.  What is loaded then is that document, its versions in the
same order, and wherever it is written again the same bytes come to stand. -/
theorem loads_iff_finite {t : FileTree} {path : String} {d : InfoDocument}
    (h : t.read path = .ok (Text.encode d.text)) :
    ((∃ e, load t path = .ok e) ↔
        ∀ x ∈ d.diagnostics.essBulk ++ d.diagnostics.essTail ++ d.diagnostics.rHat,
          x.isFinite = true) ∧
      ∀ e, load t path = .ok e → e = d ∧
        ∀ disk v other w, write disk v other e = (w, .ok ()) → w.read other = t.read path := by
  have hload := load_of_read h
  rw [← DiagnosticsSection.isFinite_iff]
  constructor
  · constructor
    · rintro ⟨e, he⟩
      by_contra hfinite
      rw [hload, if_neg hfinite] at he
      cases he
    · intro hfinite
      exact ⟨d, by rw [hload, if_pos hfinite]⟩
  · intro e he
    have hed : e = d := by
      rw [hload] at he
      split at he
      · cases he
        rfl
      · cases he
    refine ⟨hed, fun disk v other w hwrite => ?_⟩
    obtain ⟨l, hgains⟩ := AtomicWrite.exists_gainsFile_of_run hwrite
    rw [hgains.read, h, hed]

/-- A document with a statistic, with a name and a remark that have to be
escaped, and with versions out of alphabetical order. -/
def storedDocument (statistic : Double) : InfoDocument :=
  .build "μ\"1\\2\"" {} ⟨["theta"], 10000, 10, [⟨0x8000000000000000⟩], [statistic], [.one], [0]⟩
    { comments := "\t\u0001\n", addedBy := "", addedDate := "2024-05-01",
      versions := .ofList [("platform", "linux"), ("cmdstan", "2.34.1")] }

/-- The tree with the text of that document in a file. -/
def storedTree (statistic : Double) : FileTree where
  entries := .ofList [(["toy.info.json"], .file (Text.encode (storedDocument statistic).text))]
  workDir := []

/-- The document loads with a finite statistic and not with an infinite one. -/
theorem loads_iff_finite_stored :
    load (storedTree .one) "toy.info.json" = .ok (storedDocument .one) ∧
      ¬ ∃ e, load (storedTree (.infinity true)) "toy.info.json" = .ok e := by
  have hread : ∀ x, (storedTree x).read "toy.info.json" =
      .ok (Text.encode (storedDocument x).text) := fun _ => rfl
  constructor
  · obtain ⟨hiff, hsame⟩ := loads_iff_finite (hread .one)
    obtain ⟨e, he⟩ := hiff.2 (by decide)
    rw [he, (hsame e he).1]
  · rw [(loads_iff_finite (hread (.infinity true))).1]
    decide

end InfoDocument

end ReferenceDraws
