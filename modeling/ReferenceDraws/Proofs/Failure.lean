import Mathlib.Data.List.Nodup
import ReferenceDraws.Failure
import ReferenceDraws.Proofs.Json.MemberOrder
import ReferenceDraws.Proofs.Json.Text
import ReferenceDraws.Proofs.SortedMap

/-!
# Failures read back, and failures made

A failure is written as an object, and it is put together from remarks.

* Written failures.  `Spells` are the values that stand for a failure: its own
  value, and those where members have changed places.  A failure is read from
  each of them (`Spells.decode`) and from their texts.
* Made failures.  A failure is made from a sequence of `Remark`s, each about
  one subject.  The last remark on a subject is the one that stays
  (`Report.lastOn_some`, `Report.lastOn_none`), so failures are the same where
  these last remarks are (`ofRemarks_eq_ofRemarks_iff`).

`Failure.reads_back_with_last_remarks` puts the two together.
-/

namespace ReferenceDraws

open Json (Decoder)
open Json.RecordDecoder

/-! ## Written failures -/

namespace Report

theorem nodup_members (r : Report) : (r.members.map Prod.fst).Nodup := by
  obtain ⟨code, message, context, hint⟩ := r
  cases hint with
  | none => simp [members]
  | some hint => simp [members]

/-- The circumstances are read as they were written. -/
theorem sortedMap_context (context : SortedMap String) :
    Decoder.sortedMap Decoder.string (.ofJson (.ofSortedMap .string context)) = .ok context := by
  have hread : Decoder.sortedMap Decoder.string (.ofJson (.ofSortedMap .string context)) =
      .ok (.ofList (context.entries.map fun e => (e.1, id e.2))) :=
    Decoder.sortedMap_object fun e _ => by rw [Json.Reading.ofJson]; rfl
  have hentries : SortedMap.ofList (context.entries.map fun e => (e.1, id e.2)) = context := by
    apply SortedMap.ext
    rw [show (context.entries.map fun e => (e.1, id e.2)) = context.entries from List.map_id _]
    exact SortedMap.entries_ofList context.sorted
  rw [hread, hentries]

/-- The fields of a report are its members. -/
theorem yields_members (r : Report) : Yields record r.members (.ok r) := by
  obtain ⟨code, message, context, hint⟩ := r
  have hthree := ((yields_required "code" Decoder.string (.string code)).map Report.mk)
    |>.and_required "message" Decoder.string (.string message) (by decide)
    |>.and_member (yields_defaulted "context" .empty (Decoder.sortedMap Decoder.string)
      (.ofSortedMap .string context)) (by decide)
  rw [sortedMap_context] at hthree
  cases hint with
  | none => exact hthree.and (yields_optional_nil "hint" Decoder.string) (by simp)
  | some hint =>
    exact hthree.and_member (yields_optional "hint" Decoder.string (.string hint)) (by decide)

theorem independent_record : Independent record :=
  ((((independent_of_slot rfl).map Report.mk).and (independent_of_slot rfl)).and
    (independent_of_slot rfl)).and (independent_of_slot rfl)

/-- A report is read from its members in any order. -/
theorem yields_perm {r : Report} {ms : List (String × Json)} (h : ms.Perm r.members) :
    Yields record ms (.ok r) :=
  r.yields_members.perm independent_record r.nodup_members h

/-- A member of a report is a string, except for the circumstances. -/
theorem mem_members {r : Report} {m : String × Json} (h : m ∈ r.members) :
    (∃ s, m.2 = .string s) ∨ m.2 = .ofSortedMap .string r.context := by
  obtain ⟨code, message, context, hint⟩ := r
  cases hint with
  | none =>
    simp only [members, List.append_nil, List.mem_cons, List.not_mem_nil, or_false] at h
    rcases h with rfl | rfl | rfl
    · exact .inl ⟨code, rfl⟩
    · exact .inl ⟨message, rfl⟩
    · exact .inr rfl
  | some hint =>
    simp only [members, List.cons_append, List.nil_append, List.mem_cons, List.not_mem_nil,
      or_false] at h
    rcases h with rfl | rfl | rfl | rfl
    · exact .inl ⟨code, rfl⟩
    · exact .inl ⟨message, rfl⟩
    · exact .inr rfl
    · exact .inl ⟨hint, rfl⟩

theorem isWritable_of_mem {r : Report} {m : String × Json} (h : m ∈ r.members) :
    m.2.IsWritable := by
  rcases mem_members h with ⟨s, hs⟩ | hs
  · rw [hs]
    exact .string s
  · rw [hs]
    refine .object fun e he => ?_
    obtain ⟨d, -, rfl⟩ := List.mem_map.1 he
    exact .string d.2

theorem fits_of_mem {r : Report} {m : String × Json} (h : m ∈ r.members) (room : Nat) :
    Decoder.Fits (room + 1) m.2 := by
  rcases mem_members h with ⟨s, hs⟩ | hs
  · rw [hs]
    exact .string (room + 1) s
  · rw [hs]
    refine .object fun e he => ?_
    obtain ⟨d, -, rfl⟩ := List.mem_map.1 he
    exact .string room d.2

end Report

namespace Failure

/-- A value stands for a failure.  It is an object of the family and the
report, and the members of both objects may come in any order. -/
inductive Spells (f : Failure) : Json → Prop
  | familyFirst {ms : List (String × Json)} (h : ms.Perm f.report.members) :
    Spells f (.object [("family", .string f.family.name), ("detail", .object ms)])
  | detailFirst {ms : List (String × Json)} (h : ms.Perm f.report.members) :
    Spells f (.object [("detail", .object ms), ("family", .string f.family.name)])

theorem spells_toJson (f : Failure) : f.Spells f.toJson := .familyFirst (.refl _)

theorem family_decode_name (family : Family) :
    Family.decode (.ofJson (.string family.name)) = .ok family := by
  rw [Json.Reading.ofJson]
  cases family <;> decide

/-- A member that is the family or the report is the next part. -/
theorem nextPart_cons {k : String} (hk : k = "family" ∨ k = "detail") (closed : Bool)
    (r : Json.Reading) (rest : List (Option String × Json.Reading)) :
    nextPart closed ((some k, r) :: rest) = .ok (some (k, r, rest)) := by
  rw [nextPart, Decoder.key, ok_bind, if_pos hk]
  rfl

/-- A failure is read from every value that stands for it. -/
theorem Spells.decode {f : Failure} {v : Json} (h : f.Spells v) :
    Failure.decode (.ofJson v) = .ok f := by
  have hfamily := family_decode_name f.family
  cases h with
  | @familyFirst ms h =>
    have hreport : Report.decode (.ofJson (.object ms)) = .ok f.report :=
      (Report.yields_perm h).read Report.recordName
    simp only [Json.Reading.ofJson, Json.Reading.ofMembers] at hreport hfamily ⊢
    simp only [Failure.decode, nextPart_cons (.inl rfl), nextPart_cons (.inr rfl), ok_bind,
      hfamily, hreport]
    rfl
  | @detailFirst ms h =>
    -- The report is kept as a value until the family is known.
    have hfits : Decoder.Fits (Decoder.maxDepth - 1) (.object ms) :=
      .object fun m hm => Report.fits_of_mem (h.mem_iff.1 hm) _
    have hwhole := Decoder.whole_ofJson hfits
    have hreport := (Report.yields_perm h).readWhole Report.recordName
    simp only [Json.Reading.ofJson, Json.Reading.ofMembers] at hwhole hfamily ⊢
    simp only [Failure.decode, nextPart_cons (.inl rfl), nextPart_cons (.inr rfl), ok_bind,
      hwhole, hfamily, hreport]
    rfl

theorem Spells.isWritable {f : Failure} {v : Json} (h : f.Spells v) : v.IsWritable := by
  have hdetail : ∀ {ms : List (String × Json)}, ms.Perm f.report.members →
      (Json.object ms).IsWritable :=
    fun h => .object fun m hm => Report.isWritable_of_mem (h.mem_iff.1 hm)
  cases h with
  | familyFirst h =>
    refine .object fun m hm => ?_
    simp only [List.mem_cons, List.not_mem_nil, or_false] at hm
    rcases hm with rfl | rfl
    · exact .string f.family.name
    · exact hdetail h
  | detailFirst h =>
    refine .object fun m hm => ?_
    simp only [List.mem_cons, List.not_mem_nil, or_false] at hm
    rcases hm with rfl | rfl
    · exact hdetail h
    · exact .string f.family.name

end Failure

/-! ## Made failures -/

/-- What can be said of a failure besides its message. -/
inductive Remark where
  /-- A circumstance. -/
  | context (key value : String)
  /-- A hint. -/
  | hint (text : String)
deriving DecidableEq

namespace Remark

/-- What a remark is about.  A circumstance is about its key, and all hints are
about one thing, for which there is no key. -/
def subject : Remark → Option String
  | .context key _ => some key
  | .hint _ => none

@[simp] theorem subject_context (key value : String) : (context key value).subject = some key := rfl

/-- The last of several remarks on a subject. -/
def lastOn (subject : Option String) (remarks : List Remark) : Option Remark :=
  remarks.reverse.find? (·.subject = subject)

variable {subject : Option String} {remarks : List Remark} {remark : Remark}

/-- What is said later counts. -/
theorem lastOn_append (subject : Option String) (earlier later : List Remark) :
    lastOn subject (earlier ++ later) = (lastOn subject later).or (lastOn subject earlier) := by
  rw [lastOn, List.reverse_append, List.find?_append]
  rfl

theorem lastOn_singleton (subject : Option String) (remark : Remark) :
    lastOn subject [remark] = if remark.subject = subject then some remark else none := by
  by_cases h : remark.subject = subject
  · simp [lastOn, h]
  · simp [lastOn, h]

theorem subject_of_lastOn (h : lastOn subject remarks = some remark) :
    remark.subject = subject := by
  simpa using List.find?_some h

theorem mem_of_lastOn (h : lastOn subject remarks = some remark) : remark ∈ remarks :=
  List.mem_reverse.1 (List.mem_of_find?_eq_some h)

/-- Where there is a remark on a subject, there is a last one. -/
theorem exists_lastOn (h : remark ∈ remarks) :
    ∃ last, lastOn remark.subject remarks = some last := by
  rw [← Option.isSome_iff_exists, lastOn, List.find?_isSome]
  exact ⟨remark, List.mem_reverse.2 h, by simp⟩

/-- A remark does not count where another on its subject follows. -/
theorem lastOn_overwritten {first second : Remark} (h : first.subject = second.subject)
    (before between after : List Remark) (subject : Option String) :
    lastOn subject (before ++ first :: between ++ second :: after) =
      lastOn subject (before ++ between ++ second :: after) := by
  rw [lastOn_append, lastOn_append _ (before ++ between)]
  by_cases hs : second.subject = subject
  · have hmem : second ∈ second :: after := List.mem_cons_self
    obtain ⟨last, hlast⟩ := exists_lastOn hmem
    rw [hs] at hlast
    rw [hlast]
    rfl
  · have hfirst : lastOn subject [first] = none := by
      rw [lastOn_singleton, if_neg (by rwa [h])]
    rw [List.append_cons, lastOn_append _ (before ++ [first]), lastOn_append _ before [first],
      lastOn_append _ before between, hfirst]
    rfl

/-- Where all subjects are distinct, each remark is the last one on its subject. -/
theorem lastOn_eq_some_iff_mem (hnodup : (remarks.map Remark.subject).Nodup) :
    lastOn subject remarks = some remark ↔ remark ∈ remarks ∧ remark.subject = subject := by
  constructor
  · intro h
    exact ⟨mem_of_lastOn h, subject_of_lastOn h⟩
  · rintro ⟨hmem, rfl⟩
    obtain ⟨last, hlast⟩ := exists_lastOn hmem
    have hsame : last = remark :=
      List.inj_on_of_nodup_map hnodup (mem_of_lastOn hlast) hmem (subject_of_lastOn hlast)
    rw [hlast, hsame]

/-- The order of remarks on distinct subjects does not count. -/
theorem lastOn_perm {remarks' : List Remark} (hperm : remarks.Perm remarks')
    (hnodup : (remarks.map Remark.subject).Nodup) (subject : Option String) :
    lastOn subject remarks = lastOn subject remarks' := by
  have hnodup' : (remarks'.map Remark.subject).Nodup :=
    (hperm.map Remark.subject).nodup_iff.1 hnodup
  ext remark
  rw [lastOn_eq_some_iff_mem hnodup, lastOn_eq_some_iff_mem hnodup', hperm.mem_iff]

end Remark

attribute [ext] Report

namespace Report

/-- A report with one more remark. -/
def withRemark (r : Report) : Remark → Report
  | .context key value => r.withContext key value
  | .hint text => r.withHint text

/-- A report with remarks that are made one after another. -/
def ofRemarks (code message : String) (remarks : List Remark) : Report :=
  remarks.foldl withRemark (.new code message)

variable (code message : String) (remarks : List Remark)

theorem ofRemarks_concat (remark : Remark) :
    ofRemarks code message (remarks ++ [remark]) =
      (ofRemarks code message remarks).withRemark remark := by
  simp [ofRemarks, List.foldl_append]

/-- Remarks leave the code and the message as they are. -/
theorem code_message_ofRemarks :
    (ofRemarks code message remarks).code = code ∧
      (ofRemarks code message remarks).message = message := by
  induction remarks using List.reverseRecOn with
  | nil => exact ⟨rfl, rfl⟩
  | append_singleton remarks remark ih =>
    rw [ofRemarks_concat]
    cases remark <;> exact ih

/-- Under a key stands the value of the last remark with this key. -/
theorem lastOn_some (key : String) :
    Remark.lastOn (some key) remarks =
      ((ofRemarks code message remarks).context.get? key).map (Remark.context key) := by
  induction remarks using List.reverseRecOn with
  | nil => rfl
  | append_singleton remarks remark ih =>
    rw [ofRemarks_concat, Remark.lastOn_append, Remark.lastOn_singleton]
    cases remark with
    | hint text => exact ih
    | context k v =>
      show _ = (((ofRemarks code message remarks).context.insert k v).get? key).map _
      by_cases hk : key = k
      · rw [hk, SortedMap.get?_insert_self, Remark.subject_context, if_pos rfl]
        rfl
      · have hne : (Remark.context k v).subject ≠ some key := by simpa using Ne.symm hk
        rw [SortedMap.get?_insert_of_ne _ _ hk, if_neg hne, Option.none_or, ih]

/-- The hint is the last one given. -/
theorem lastOn_none :
    Remark.lastOn none remarks = (ofRemarks code message remarks).hint.map Remark.hint := by
  induction remarks using List.reverseRecOn with
  | nil => rfl
  | append_singleton remarks remark ih =>
    rw [ofRemarks_concat, Remark.lastOn_append, Remark.lastOn_singleton]
    cases remark with
    | context k v => exact ih
    | hint t => rfl

/-- The last remarks make the report. -/
theorem ofRemarks_eq_ofRemarks_iff {code message code' message' : String}
    {remarks remarks' : List Remark} :
    ofRemarks code message remarks = ofRemarks code' message' remarks' ↔
      code = code' ∧ message = message' ∧
        ∀ subject, Remark.lastOn subject remarks = Remark.lastOn subject remarks' := by
  rw [Report.ext_iff]
  simp only [code_message_ofRemarks]
  constructor
  · rintro ⟨hcode, hmessage, hcontext, hhint⟩
    refine ⟨hcode, hmessage, fun subject => ?_⟩
    cases subject with
    | none => rw [lastOn_none code message, hhint, ← lastOn_none]
    | some key => rw [lastOn_some code message, hcontext, ← lastOn_some]
  · rintro ⟨hcode, hmessage, hlast⟩
    refine ⟨hcode, hmessage, SortedMap.ext_get? fun key => ?_, ?_⟩
    · have h := hlast (some key)
      rw [lastOn_some code message, lastOn_some code' message'] at h
      exact Option.map_injective (fun v w hvw => (Remark.context.inj hvw).2) h
    · have h := hlast none
      rw [lastOn_none code message, lastOn_none code' message'] at h
      exact Option.map_injective (fun t u htu => Remark.hint.inj htu) h

end Report

namespace Failure

open Remark (lastOn)

/-- A failure with remarks that are made one after another. -/
def ofRemarks (family : Family) (code message : String) (remarks : List Remark) : Failure :=
  ⟨family, .ofRemarks code message remarks⟩

/-- Failures are the same where their last remarks are. -/
theorem ofRemarks_eq_ofRemarks_iff {family family' : Family}
    {code message code' message' : String} {remarks remarks' : List Remark} :
    ofRemarks family code message remarks = ofRemarks family' code' message' remarks' ↔
      family = family' ∧ code = code' ∧ message = message' ∧
        ∀ subject, lastOn subject remarks = lastOn subject remarks' := by
  rw [ofRemarks, ofRemarks, Failure.mk.injEq, Report.ofRemarks_eq_ofRemarks_iff]

theorem ofRemarks_perm (family : Family) (code message : String) {remarks remarks' : List Remark}
    (hperm : remarks.Perm remarks') (hnodup : (remarks.map Remark.subject).Nodup) :
    ofRemarks family code message remarks = ofRemarks family code message remarks' :=
  ofRemarks_eq_ofRemarks_iff.2 ⟨rfl, rfl, rfl, Remark.lastOn_perm hperm hnodup⟩

theorem ofRemarks_overwritten (family : Family) (code message : String) {first second : Remark}
    (h : first.subject = second.subject) (before between after : List Remark) :
    ofRemarks family code message (before ++ first :: between ++ second :: after) =
      ofRemarks family code message (before ++ between ++ second :: after) :=
  ofRemarks_eq_ofRemarks_iff.2 ⟨rfl, rfl, rfl, Remark.lastOn_overwritten h before between after⟩

/-- The entries of a failure are the last remarks on the keys. -/
theorem mem_entries_ofRemarks {code message key value : String} {remarks : List Remark} :
    (key, value) ∈ (Report.ofRemarks code message remarks).context.entries ↔
      lastOn (some key) remarks = some (.context key value) := by
  rw [← SortedMap.get?_eq_some_iff, Report.lastOn_some code message, Option.map_eq_some_iff]
  simp

theorem hint_eq_some_iff {code message text : String} {remarks : List Remark} :
    (Report.ofRemarks code message remarks).hint = some text ↔
      lastOn none remarks = some (.hint text) := by
  rw [Report.lastOn_none code message, Option.map_eq_some_iff]
  simp

/-- The line of a failure has its circumstances in their order. -/
theorem display_mk (family : Family) (code message : String) (context : SortedMap String)
    (hint : Option String) :
    (⟨family, ⟨code, message, context, hint⟩⟩ : Failure).display =
      family.title ++ ": " ++ (message ++ " (code: " ++ code ++ ")" ++
        (if context.entries = [] then ""
          else " | context: [" ++
            ", ".intercalate (context.entries.map fun e => e.1 ++ "=" ++ e.2) ++ "]") ++
        hint.elim "" (" | hint: " ++ ·)) := by
  have hempty : (context.isEmpty = true) = (context.entries = []) := by
    rw [SortedMap.isEmpty, List.isEmpty_iff]
  rw [display, Report.display]
  simp only [hempty]
  cases hint <;> rfl

/-- The object of a failure has its circumstances in their order. -/
theorem toJson_mk (family : Family) (code message : String) (context : SortedMap String)
    (hint : Option String) :
    (⟨family, ⟨code, message, context, hint⟩⟩ : Failure).toJson =
      .object [("family", .string family.name), ("detail", .object
        ([("code", .string code), ("message", .string message),
          ("context", .object (context.entries.map fun e => (e.1, .string e.2)))] ++
          hint.toList.map fun text => ("hint", .string text)))] := by
  cases hint <;> rfl

/-- A failure is read back from the texts of every value that stands for it.
Failures that are made of remarks are the same exactly where the family, the
code, the message and the last remark on each subject are.  So the order of
remarks on distinct subjects does not count, and neither does a remark that
another one replaces.  What is written are the last remarks alone, in the order
of their keys. -/
theorem reads_back_with_last_remarks :
    (∀ f : Failure, f.Spells f.toJson ∧ ∀ v, f.Spells v →
      decode (.ofJson v) = .ok f ∧ Json.decodeBytes decode (Text.encode v.compact) = .ok f ∧
        Json.decodeString decode v.pretty = .ok f) ∧
    (∀ family family' code code' message message' remarks remarks',
      ofRemarks family code message remarks = ofRemarks family' code' message' remarks' ↔
        family = family' ∧ code = code' ∧ message = message' ∧
          ∀ subject, lastOn subject remarks = lastOn subject remarks') ∧
    (∀ family code message remarks remarks', List.Perm remarks remarks' →
      (remarks.map Remark.subject).Nodup →
      ofRemarks family code message remarks = ofRemarks family code message remarks') ∧
    (∀ family code message first second before between after,
      Remark.subject first = Remark.subject second →
      ofRemarks family code message (before ++ first :: between ++ second :: after) =
        ofRemarks family code message (before ++ between ++ second :: after)) ∧
    (∀ family code message remarks, ∃ (entries : List (String × String)) (hint : Option String),
      entries.Pairwise (fun a b => a.1 < b.1) ∧
      (∀ key value, (key, value) ∈ entries ↔
        lastOn (some key) remarks = some (.context key value)) ∧
      (∀ text, hint = some text ↔ lastOn none remarks = some (.hint text)) ∧
      (ofRemarks family code message remarks).display =
        family.title ++ ": " ++ (message ++ " (code: " ++ code ++ ")" ++
          (if entries = [] then ""
            else " | context: [" ++
              ", ".intercalate (entries.map fun e => e.1 ++ "=" ++ e.2) ++ "]") ++
          hint.elim "" (" | hint: " ++ ·)) ∧
      (ofRemarks family code message remarks).toJson =
        .object [("family", .string family.name), ("detail", .object
          ([("code", .string code), ("message", .string message),
            ("context", .object (entries.map fun e => (e.1, .string e.2)))] ++
            hint.toList.map fun text => ("hint", .string text)))]) := by
  refine ⟨fun f => ⟨f.spells_toJson, fun v hv => ?_⟩, ?_, ?_, ?_, ?_⟩
  · have hwritable := hv.isWritable
    rw [Json.decodeBytes_compact decode hwritable, Json.decodeString_pretty decode hwritable]
    exact ⟨hv.decode, hv.decode, hv.decode⟩
  · intros
    exact ofRemarks_eq_ofRemarks_iff
  · intro family code message remarks remarks' hperm hnodup
    exact ofRemarks_perm family code message hperm hnodup
  · intro family code message first second before between after h
    exact ofRemarks_overwritten family code message h before between after
  · intro family code message remarks
    have hparts : ofRemarks family code message remarks =
        ⟨family, ⟨code, message, (Report.ofRemarks code message remarks).context,
          (Report.ofRemarks code message remarks).hint⟩⟩ := by
      obtain ⟨hcode, hmessage⟩ := Report.code_message_ofRemarks code message remarks
      rw [ofRemarks, Failure.mk.injEq, Report.ext_iff]
      exact ⟨rfl, hcode, hmessage, rfl, rfl⟩
    refine ⟨(Report.ofRemarks code message remarks).context.entries,
      (Report.ofRemarks code message remarks).hint,
      (Report.ofRemarks code message remarks).context.sorted,
      fun key value => mem_entries_ofRemarks, fun text => hint_eq_some_iff, ?_, ?_⟩
    · rw [hparts, display_mk]
    · rw [hparts, toJson_mk]

/-- A failure is read from an object whose members have all changed places, and
another is made from remarks in another order and without those replaced. -/
theorem reads_back_with_last_remarks_config :
    Json.decodeString decode (Json.object
        [("detail", .object [("code", .string "C001"),
            ("context", .object [("a\"b", .string "\u2113\n")]), ("hint", .string "h"),
            ("message", .string "bad")]),
          ("family", .string "Config")]).pretty =
      .ok (ofRemarks .config "C001" "bad" [.context "a\"b" "\u2113\n", .hint "h"]) ∧
    ofRemarks .config "C001" "bad" [.context "k" "1", .hint "g", .context "k" "2", .hint "h"] =
      ofRemarks .config "C001" "bad" [.hint "h", .context "k" "2"] := by
  obtain ⟨hread, -, hperm, hover, -⟩ := reads_back_with_last_remarks
  constructor
  · have hspells : (ofRemarks .config "C001" "bad"
        [.context "a\"b" "\u2113\n", .hint "h"]).Spells (.object
          [("detail", .object [("code", .string "C001"),
              ("context", .object [("a\"b", .string "\u2113\n")]), ("hint", .string "h"),
              ("message", .string "bad")]),
            ("family", .string "Config")]) := by
      refine .detailFirst ?_
      show List.Perm _ [("code", Json.string "C001"), ("message", .string "bad"),
        ("context", .object [("a\"b", .string "\u2113\n")]), ("hint", .string "h")]
      exact .cons _ (.symm (.trans (.swap _ _ _) (.cons _ (.swap _ _ _))))
    exact ((hread _).2 _ hspells).2.2
  · have hkey := hover .config "C001" "bad" (.context "k" "1") (.context "k" "2") []
      [.hint "g"] [.hint "h"] rfl
    have hhint := hover .config "C001" "bad" (.hint "g") (.hint "h") [] [.context "k" "2"] [] rfl
    have horder := hperm .config "C001" "bad" [.context "k" "2", .hint "h"]
      [.hint "h", .context "k" "2"] (.swap _ _ _) (by decide)
    exact (hkey.trans hhint).trans horder

end Failure

end ReferenceDraws
