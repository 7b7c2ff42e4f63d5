import Mathlib.Data.List.Induction
import ReferenceDraws.Proofs.Artifact.Save

/-!
# Saves in sequence

Many references may be saved into one directory, one after another and some
more than once, and every save may fail at any of its steps.  The names of
their posteriors have no slashes.

* Paths.  The path of an artifact ends in a name that no other artifact of any
  posterior has (`getLast?_steps_path_inj`), so that no two of them lead to
  one place.
* One save.  `Request.Effect` says what a save can do to a tree, and
  `effect_run` that it does nothing else.
* All saves.  `saveAll` runs a list of requests, and `OccursAt` says what
  happens on the way.  `file?_saveAll` and `untouched_saveAll` are the two
  inductions over the list: an artifact is that of the last save that wrote
  it, and what is no artifact stays.
* The result.  `artifacts_of_saveAll` says what becomes of both artifacts of
  every posterior, and that a document is never newer than its archive.
-/

namespace ReferenceDraws.SavedArtifacts

open FileTree

/-- A save that is asked for. -/
structure Request where
  /-- The disk at its two writes. -/
  disks : Disks := {}
  chains : List ChainDraws
  document : InfoDocument

/-- The artifacts of a posterior. -/
inductive Artifact where
  | archive
  | document

namespace Artifact

/-- How the names of such artifacts end. -/
def ending : Artifact → String
  | .archive => ".json.zip"
  | .document => ".info.json"

/-- Where the artifact of a posterior goes. -/
def path (dir posterior : String) : Artifact → String
  | .archive => DrawsArchive.path dir posterior
  | .document => InfoDocument.path dir posterior

/-- What a save writes there. -/
def bytes (q : Request) : Artifact → List UInt8
  | .archive => archiveBytes q.chains q.document
  | .document => Text.encode q.document.text

/-! ## Paths -/

theorem getLast?_steps_path (a : Artifact) (dir : String) {n : String} (hn : '/' ∉ n.toList) :
    (Path.steps (a.path dir n)).getLast? = some (n ++ a.ending) := by
  have hending : '/' ∉ a.ending.toList ∧ 2 ≤ a.ending.toList.length := by
    cases a <;> decide
  have hpath : a.path dir n = Path.join dir (n ++ a.ending) := by
    cases a <;> rfl
  rw [hpath]
  apply Path.getLast?_steps_join
  · rw [String.toList_append, List.mem_append, not_or]
    exact ⟨hn, hending.1⟩
  · rw [String.toList_append, List.length_append]
    omega

/-- The last letter tells the artifacts apart. -/
theorem eq_of_append_ending {a b : Artifact} {m n : String} (h : m ++ a.ending = n ++ b.ending) :
    a = b := by
  have hletter : ∀ c : Artifact, c.ending.toList.getLast? =
      some (match c with
        | .archive => 'p'
        | .document => 'n') := by
    intro c
    cases c <;> decide
  have hlast := congrArg (fun s : String => s.toList.getLast?) h
  simp only [String.toList_append, List.getLast?_append, hletter, Option.some_or,
    Option.some_inj] at hlast
  cases a with
  | archive =>
    cases b with
    | archive => rfl
    | document => exact absurd hlast (by decide)
  | document =>
    cases b with
    | archive => exact absurd hlast (by decide)
    | document => rfl

/-- No two artifacts have paths with one last step. -/
theorem getLast?_steps_path_inj {a b : Artifact} {dir m n : String} (hm : '/' ∉ m.toList)
    (hn : '/' ∉ n.toList)
    (h : (Path.steps (a.path dir m)).getLast? = (Path.steps (b.path dir n)).getLast?) :
    a = b ∧ m = n := by
  rw [getLast?_steps_path a dir hm, getLast?_steps_path b dir hn, Option.some_inj] at h
  obtain rfl := eq_of_append_ending h
  exact ⟨rfl, (String.append_left_inj _).1 h⟩

end Artifact

/-! ## One save -/

namespace Request

/-- The tree after a save. -/
def run (dir : String) (t : FileTree) (q : Request) : FileTree :=
  (save q.disks t dir q.chains q.document).1

/-- Whether the write of the archive succeeds. -/
def Archives (dir : String) (t : FileTree) (q : Request) : Prop :=
  (AtomicWrite.run q.disks.draws t (DrawsArchive.path dir q.document.name)
    (archiveBytes q.chains q.document)).2 = .ok ()

/-- Whether the save succeeds. -/
def Completes (dir : String) (t : FileTree) (q : Request) : Prop :=
  ∃ s, (save q.disks t dir q.chains q.document).2.value = .ok s

theorem completes_iff {dir : String} {t : FileTree} {q : Request} :
    q.Completes dir t ↔ (save q.disks t dir q.chains q.document).2.value.isOk = true := by
  unfold Completes
  cases (save q.disks t dir q.chains q.document).2.value with
  | ok s => exact ⟨fun _ => rfl, fun _ => ⟨s, rfl⟩⟩
  | error r =>
    constructor
    · rintro ⟨s, hs⟩
      cases hs
    · intro h
      cases h

/-- Whether a save writes an artifact of a posterior. -/
def Writes (dir n : String) (a : Artifact) (t : FileTree) (q : Request) : Prop :=
  q.document.name = n ∧
    match a with
    | .archive => q.Archives dir t
    | .document => q.Completes dir t

/-- What a save does to a tree. -/
structure Effect (dir : String) (t u : FileTree) (q : Request) : Prop where
  keeps : t.KeepsDirectories u
  ordered : q.Completes dir t → q.Archives dir t
  put : ∀ a n, Writes dir n a t q →
    ∃ l, u.LeadsTo (a.path dir n) l ∧ u.file? l = some (a.bytes q)
  frame : ∀ l, u.file? l = t.file? l ∨ ∃ a n, Writes dir n a t q ∧ u.LeadsTo (a.path dir n) l

variable {dir : String} {t between u : FileTree} {q : Request}

/-- A refused archive leaves more directories at most. -/
theorem effect_of_not_archives (hno : ¬ q.Archives dir t) (hfail : ¬ q.Completes dir t)
    (hgains : t.GainsDirectories u) : q.Effect dir t u where
  keeps := hgains.keepsDirectories
  ordered h := absurd h hfail
  put a n hwrites := by
    cases a with
    | archive => exact absurd hwrites.2 hno
    | document => exact absurd hwrites.2 hfail
  frame l := .inl (hgains.file?_eq l)

/-- A refused document leaves the archive. -/
theorem effect_of_archives {l : Location} (hyes : q.Archives dir t)
    (hfail : ¬ q.Completes dir t)
    (hgains : t.GainsFile u (Artifact.archive.path dir q.document.name) l
      (Artifact.archive.bytes q)) : q.Effect dir t u where
  keeps := hgains.keepsDirectories
  ordered _ := hyes
  put a n hwrites := by
    obtain ⟨rfl, hwrites⟩ := hwrites
    cases a with
    | archive => exact ⟨l, hgains.leadsTo, hgains.file?_self⟩
    | document => exact absurd hwrites hfail
  frame k := by
    by_cases hk : k = l
    · exact .inr ⟨.archive, q.document.name, ⟨rfl, hyes⟩, hk ▸ hgains.leadsTo⟩
    · exact .inl (hgains.file?_of_ne hk)

/-- A save that succeeds writes both artifacts, to different places. -/
theorem effect_of_completes {l k : Location} (hyes : q.Archives dir t)
    (hdone : q.Completes dir t)
    (hdraws : t.GainsFile between (Artifact.archive.path dir q.document.name) l
      (Artifact.archive.bytes q))
    (hinfo : between.GainsFile u (Artifact.document.path dir q.document.name) k
      (Artifact.document.bytes q)) : q.Effect dir t u := by
  have hleads : u.LeadsTo (Artifact.archive.path dir q.document.name) l :=
    hdraws.leadsTo.mono hinfo.keepsDirectories
  have hne : l ≠ k := places_ne hleads hinfo.leadsTo
  constructor
  case keeps => exact hdraws.keepsDirectories.trans hinfo.keepsDirectories
  case ordered => exact fun _ => hyes
  case put =>
    intro a n hwrites
    obtain ⟨rfl, -⟩ := hwrites
    cases a with
    | archive => exact ⟨l, hleads, (hinfo.file?_of_ne hne).trans hdraws.file?_self⟩
    | document => exact ⟨k, hinfo.leadsTo, hinfo.file?_self⟩
  case frame =>
    intro i
    by_cases hk : i = k
    · exact .inr ⟨.document, q.document.name, ⟨rfl, hdone⟩, hk ▸ hinfo.leadsTo⟩
    · by_cases hl : i = l
      · exact .inr ⟨.archive, q.document.name, ⟨rfl, hyes⟩, hl ▸ hleads⟩
      · exact .inl ((hinfo.file?_of_ne hk).trans (hdraws.file?_of_ne hl))

theorem effect_run (dir : String) (t : FileTree) (q : Request) : q.Effect dir t (q.run dir t) := by
  obtain ⟨u, saved, hsave⟩ :
      ∃ u saved, save q.disks t dir q.chains q.document = (u, saved) := ⟨_, _, rfl⟩
  have hrun : q.run dir t = u := congrArg Prod.fst hsave
  have hcompletes : q.Completes dir t ↔ ∃ s, saved.value = .ok s := by
    rw [Completes, hsave]
  have hrefused : ∀ r, saved.value = .error r → ¬ q.Completes dir t := by
    intro r herror h
    obtain ⟨s, hs⟩ := hcompletes.1 h
    rw [herror] at hs
    cases hs
  rw [hrun]
  rcases save_cases hsave with ⟨r, herror, hdraws⟩ |
    ⟨between, hdraws, ⟨r, herror, hinfo⟩ | ⟨hok, hinfo⟩⟩
  · have hno : ¬ q.Archives dir t := by
      rw [Archives, hdraws]
      rintro ⟨⟩
    exact effect_of_not_archives hno (hrefused r herror)
      (AtomicWrite.gainsDirectories_of_run hdraws)
  · obtain ⟨l, hfile⟩ := AtomicWrite.exists_gainsFile_of_run hdraws
    exact effect_of_archives (congrArg Prod.snd hdraws) (hrefused r herror)
      (hfile.trans (AtomicWrite.gainsDirectories_of_run hinfo))
  · obtain ⟨l, hfile⟩ := AtomicWrite.exists_gainsFile_of_run hdraws
    obtain ⟨k, hlast⟩ := AtomicWrite.exists_gainsFile_of_run hinfo
    exact effect_of_completes (congrArg Prod.snd hdraws) (hcompletes.2 hok) hfile hlast

/-- The place of an artifact changes only when the artifact is written. -/
theorem file?_run_of_not_writes {dir n : String} {a : Artifact} {t : FileTree} {q : Request}
    (hn : '/' ∉ n.toList) (hq : '/' ∉ q.document.name.toList) (hno : ¬ Writes dir n a t q)
    {l : Location} (hl : l.getLast? = (Path.steps (a.path dir n)).getLast?) :
    (q.run dir t).file? l = t.file? l := by
  rcases (effect_run dir t q).frame l with hsame | ⟨b, m, hwrites, hleads⟩
  · exact hsame
  · have hm : '/' ∉ m.toList := hwrites.1 ▸ hq
    rw [hleads.getLast?_eq] at hl
    obtain ⟨rfl, rfl⟩ := Artifact.getLast?_steps_path_inj hm hn hl
    exact absurd hwrites hno

end Request

/-! ## All saves -/

/-- The tree after a sequence of saves. -/
def saveAll (dir : String) (t : FileTree) (qs : List Request) : FileTree :=
  qs.foldl (Request.run dir) t

theorem saveAll_concat (dir : String) (t : FileTree) (qs : List Request) (q : Request) :
    saveAll dir t (qs ++ [q]) = q.run dir (saveAll dir t qs) := by
  rw [saveAll, List.foldl_append]
  rfl

/-- The save at a position of a sequence does something, given the tree that it
finds. -/
def OccursAt (dir : String) (t : FileTree) (qs : List Request)
    (does : FileTree → Request → Prop) (k : Nat) : Prop :=
  ∃ q, qs[k]? = some q ∧ does (saveAll dir t (qs.take k)) q

/-- It is the last that does. -/
def LastAt (dir : String) (t : FileTree) (qs : List Request)
    (does : FileTree → Request → Prop) (k : Nat) : Prop :=
  OccursAt dir t qs does k ∧ ∀ i, OccursAt dir t qs does i → i ≤ k

section Occurrences

variable {dir : String} {t : FileTree} {qs : List Request} {q : Request}
  {does : FileTree → Request → Prop} {k : Nat}

theorem OccursAt.lt_length (h : OccursAt dir t qs does k) : k < qs.length := by
  obtain ⟨q, hq, -⟩ := h
  exact (List.getElem?_eq_some_iff.1 hq).1

/-- A save more leaves the positions before as they were. -/
theorem occursAt_concat_iff :
    OccursAt dir t (qs ++ [q]) does k ↔
      OccursAt dir t qs does k ∨ (k = qs.length ∧ does (saveAll dir t qs) q) := by
  rcases Nat.lt_trichotomy k qs.length with hlt | rfl | hgt
  · rw [OccursAt, List.getElem?_append_left hlt, List.take_append_of_le_length (by omega)]
    constructor
    · exact .inl
    · rintro (h | ⟨hk, -⟩)
      · exact h
      · omega
  · constructor
    · rintro ⟨p, hp, hdoes⟩
      rw [List.getElem?_concat_length] at hp
      cases hp
      rw [List.take_left] at hdoes
      exact .inr ⟨rfl, hdoes⟩
    · rintro (h | ⟨-, hdoes⟩)
      · exact absurd h.lt_length (Nat.lt_irrefl _)
      · refine ⟨q, List.getElem?_concat_length, ?_⟩
        rw [List.take_left]
        exact hdoes
  · constructor
    · intro h
      have hlt := h.lt_length
      rw [List.length_append, List.length_singleton] at hlt
      omega
    · rintro (h | ⟨hk, -⟩)
      · exact absurd h.lt_length (by omega)
      · omega

/-- The last save is the last that does what it does. -/
theorem lastAt_concat (h : does (saveAll dir t qs) q) :
    LastAt dir t (qs ++ [q]) does qs.length := by
  refine ⟨occursAt_concat_iff.2 (.inr ⟨rfl, h⟩), fun i hi => ?_⟩
  have hlt := hi.lt_length
  rw [List.length_append, List.length_singleton] at hlt
  omega

theorem LastAt.concat (hlast : LastAt dir t qs does k) (h : ¬ does (saveAll dir t qs) q) :
    LastAt dir t (qs ++ [q]) does k := by
  refine ⟨occursAt_concat_iff.2 (.inl hlast.1), fun i hi => ?_⟩
  rcases occursAt_concat_iff.1 hi with hi | ⟨-, hdoes⟩
  · exact hlast.2 i hi
  · exact absurd hdoes h

end Occurrences

/-- After a sequence of saves an artifact is that of the last save that wrote
it, or no save has and its place holds what it held. -/
theorem file?_saveAll {dir n : String} (a : Artifact) (t : FileTree) {qs : List Request}
    (hn : '/' ∉ n.toList) (hqs : ∀ q ∈ qs, '/' ∉ q.document.name.toList) :
    ((∀ k, ¬ OccursAt dir t qs (Request.Writes dir n a) k) ∧
      ∀ l, l.getLast? = (Path.steps (a.path dir n)).getLast? →
        (saveAll dir t qs).file? l = t.file? l) ∨
    ∃ k q l, LastAt dir t qs (Request.Writes dir n a) k ∧ qs[k]? = some q ∧
      (saveAll dir t qs).LeadsTo (a.path dir n) l ∧
      (saveAll dir t qs).file? l = some (a.bytes q) := by
  induction qs using List.reverseRecOn with
  | nil =>
    left
    refine ⟨fun k hk => ?_, fun l _ => rfl⟩
    exact absurd hk.lt_length (Nat.not_lt_zero k)
  | append_singleton qs q ih =>
    have hbefore := ih fun p hp => hqs p (List.mem_append_left _ hp)
    have hq : '/' ∉ q.document.name.toList := hqs q (by simp)
    rw [saveAll_concat]
    by_cases hwrites : Request.Writes dir n a (saveAll dir t qs) q
    · right
      obtain ⟨l, hleads, hfile⟩ := (Request.effect_run dir _ q).put a n hwrites
      exact ⟨qs.length, q, l, lastAt_concat hwrites, List.getElem?_concat_length, hleads, hfile⟩
    · have hframe : ∀ l, l.getLast? = (Path.steps (a.path dir n)).getLast? →
          (q.run dir (saveAll dir t qs)).file? l = (saveAll dir t qs).file? l :=
        fun l hl => Request.file?_run_of_not_writes hn hq hwrites hl
      rcases hbefore with ⟨hnone, hsame⟩ | ⟨k, p, l, hlast, hp, hleads, hfile⟩
      · left
        refine ⟨fun k hk => ?_, fun l hl => (hframe l hl).trans (hsame l hl)⟩
        rcases occursAt_concat_iff.1 hk with hk | ⟨-, hdoes⟩
        · exact hnone k hk
        · exact hwrites hdoes
      · right
        refine ⟨k, p, l, hlast.concat hwrites, ?_, ?_, ?_⟩
        · rw [List.getElem?_append_left hlast.1.lt_length, hp]
        · exact hleads.mono (Request.effect_run dir _ q).keeps
        · rw [hframe l hleads.getLast?_eq, hfile]

/-- What is not the place of an artifact that some save wrote stays. -/
theorem untouched_saveAll (dir : String) (t : FileTree) (qs : List Request) (l : Location) :
    (saveAll dir t qs).file? l = t.file? l ∨
      ∃ a n k, OccursAt dir t qs (Request.Writes dir n a) k ∧
        (saveAll dir t qs).LeadsTo (a.path dir n) l := by
  induction qs using List.reverseRecOn with
  | nil => exact .inl rfl
  | append_singleton qs q ih =>
    rw [saveAll_concat]
    have heffect := Request.effect_run dir (saveAll dir t qs) q
    rcases heffect.frame l with hsame | ⟨a, n, hwrites, hleads⟩
    · rcases ih with hbefore | ⟨a, n, k, hk, hleads⟩
      · exact .inl (hsame.trans hbefore)
      · exact .inr ⟨a, n, k, occursAt_concat_iff.2 (.inl hk), hleads.mono heffect.keeps⟩
    · exact .inr ⟨a, n, qs.length, occursAt_concat_iff.2 (.inr ⟨rfl, hwrites⟩), hleads⟩

/-! ## The result -/

/-- What becomes of the artifacts of a posterior. -/
structure History (dir : String) (t : FileTree) (qs : List Request) (n : String) : Prop where
  /-- Each is that of the last save that wrote it, or what it was. -/
  holds : ∀ a : Artifact,
    ((∀ k, ¬ OccursAt dir t qs (Request.Writes dir n a) k) ∧
      ∀ l, (saveAll dir t qs).LeadsTo (a.path dir n) l →
        (saveAll dir t qs).file? l = t.file? l) ∨
    ∃ k q, LastAt dir t qs (Request.Writes dir n a) k ∧ qs[k]? = some q ∧
      (saveAll dir t qs).openPath (a.path dir n) = .ok (some (a.bytes q))
  /-- The document is not newer than the archive. -/
  ordered : ∀ j, LastAt dir t qs (Request.Writes dir n .document) j →
    ∃ k, LastAt dir t qs (Request.Writes dir n .archive) k ∧ j ≤ k
  /-- Saves of other posteriors do not touch them. -/
  others : ∀ (a : Artifact) (k : Nat) (q : Request), qs[k]? = some q → q.document.name ≠ n →
    ∀ l, (saveAll dir t (qs.take (k + 1))).LeadsTo (a.path dir n) l →
      (saveAll dir t (qs.take (k + 1))).file? l = (saveAll dir t (qs.take k)).file? l

/-- A sequence of saves of posteriors whose names have no slashes, each of
which may succeed or fail at any step, leaves every artifact whole: it is what
it was, or what the last save that wrote it has put there.  No file changes
that is not at the place of an artifact that was written. -/
theorem artifacts_of_saveAll {dir : String} {t : FileTree} {qs : List Request}
    (hqs : ∀ q ∈ qs, '/' ∉ q.document.name.toList) :
    (∀ n : String, '/' ∉ n.toList → History dir t qs n) ∧
      ∀ l bytes, t.file? l = some bytes → (saveAll dir t qs).file? l = some bytes ∨
        ∃ a n k, OccursAt dir t qs (Request.Writes dir n a) k ∧
          (saveAll dir t qs).LeadsTo (a.path dir n) l := by
  constructor
  · intro n hn
    constructor
    case holds =>
      intro a
      rcases file?_saveAll a t hn hqs with ⟨hnone, hsame⟩ | ⟨k, q, l, hlast, hq, hleads, hfile⟩
      · exact .inl ⟨hnone, fun l hl => hsame l hl.getLast?_eq⟩
      · exact .inr ⟨k, q, hlast, hq, hleads.openPath hfile⟩
    case ordered =>
      intro j hj
      obtain ⟨q, hq, hname, hcompletes⟩ := hj.1
      have harchived : OccursAt dir t qs (Request.Writes dir n .archive) j :=
        ⟨q, hq, hname, (Request.effect_run dir _ q).ordered hcompletes⟩
      rcases file?_saveAll .archive t hn hqs with ⟨hnone, -⟩ | ⟨k, p, l, hlast, -⟩
      · exact absurd harchived (hnone j)
      · exact ⟨k, hlast, hlast.2 j harchived⟩
    case others =>
      intro a k q hq hne l hleads
      have hstep : saveAll dir t (qs.take (k + 1)) = q.run dir (saveAll dir t (qs.take k)) := by
        rw [List.take_add_one, hq, Option.toList_some, saveAll_concat]
      rw [hstep] at hleads ⊢
      exact Request.file?_run_of_not_writes hn (hqs q (List.mem_of_getElem? hq))
        (fun hwrites => hne hwrites.1) hleads.getLast?_eq
  · intro l bytes hfile
    rcases untouched_saveAll dir t qs l with hsame | hplace
    · exact .inl (hsame.trans hfile)
    · exact .inr hplace

/-- An empty directory. -/
def emptyOut : FileTree where
  entries := .ofList [(["out"], .directory)]
  workDir := []

/-- A document with a remark. -/
def remarkedDocument (name remark : String) : InfoDocument :=
  .build name {} ⟨[], 10000, 10, [], [], [], []⟩ { (default : Provenance) with comments := remark }

/-- A save of `a`. -/
def firstSave : Request := ⟨{}, [.empty], remarkedDocument "a" "first"⟩

/-- Another save of `a`, which ends before its document is moved. -/
def secondSave : Request :=
  ⟨{ info := fun step => step = .move }, [], remarkedDocument "a" "second"⟩

/-- A save of `b`, which ends before its archive is filled. -/
def thirdSave : Request :=
  ⟨{ draws := fun step => step = .fill }, [], remarkedDocument "b" "third"⟩

/-- The second archive of `a` is left and its first document. -/
theorem artifacts_of_saveAll_interrupted :
    (saveAll "out" emptyOut [firstSave, secondSave, thirdSave]).openPath "out/a.json.zip" =
        .ok (some (archiveBytes [] (remarkedDocument "a" "second"))) ∧
      (saveAll "out" emptyOut [firstSave, secondSave, thirdSave]).openPath "out/a.info.json" =
        .ok (some (Text.encode (remarkedDocument "a" "first").text)) := by
  have ha : History "out" emptyOut [firstSave, secondSave, thirdSave] "a" :=
    (artifacts_of_saveAll (by decide)).1 "a" (by decide)
  have hcompleted : firstSave.Completes "out" emptyOut := by
    rw [Request.completes_iff]
    decide +kernel
  have harchived : secondSave.Archives "out" (firstSave.run "out" emptyOut) := by
    rw [Request.Archives]
    decide +kernel
  have hinterrupted : ¬ secondSave.Completes "out" (firstSave.run "out" emptyOut) := by
    rw [Request.completes_iff]
    decide +kernel
  -- The third save is one of another posterior.
  have hlate : ∀ a k, OccursAt "out" emptyOut [firstSave, secondSave, thirdSave]
      (Request.Writes "out" "a" a) k → k < 2 := by
    intro a k hk
    have hlt : k < 3 := hk.lt_length
    obtain ⟨q, hq, hname, -⟩ := hk
    by_contra hge
    obtain rfl : k = 2 := by omega
    cases hq
    exact absurd hname (by decide)
  constructor
  · rcases ha.holds .archive with ⟨hnone, -⟩ | ⟨k, q, hlast, hq, hopen⟩
    · exact absurd ⟨secondSave, rfl, rfl, harchived⟩ (hnone 1)
    · have hge : 1 ≤ k := hlast.2 1 ⟨secondSave, rfl, rfl, harchived⟩
      have hlt : k < 2 := hlate _ k hlast.1
      obtain rfl : k = 1 := by omega
      cases hq
      exact hopen
  · rcases ha.holds .document with ⟨hnone, -⟩ | ⟨k, q, hlast, hq, hopen⟩
    · exact absurd ⟨firstSave, rfl, rfl, hcompleted⟩ (hnone 0)
    · have hlt : k < 2 := hlate _ k hlast.1
      have hfirst : k ≠ 1 := by
        rintro rfl
        obtain ⟨p, hp, -, hcompletes⟩ := hlast.1
        cases hp
        exact hinterrupted hcompletes
      obtain rfl : k = 0 := by omega
      cases hq
      exact hopen

end ReferenceDraws.SavedArtifacts
