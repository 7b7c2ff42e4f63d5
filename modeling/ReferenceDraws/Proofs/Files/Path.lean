import Mathlib.Data.List.TakeWhile
import ReferenceDraws.Files.Path

/-!
# The steps of a path

* The last step.  A path that ends in a text without slashes has a last step
  that ends in it, whatever directory the path starts from
  (`exists_getLast?_steps_join`).  So paths that end differently never have the
  same last step.  A name without slashes that is joined to a directory is the
  last step as a whole (`getLast?_steps_join`).
* The other steps.  The directory of a path has the steps of the path but the
  last, however many slashes and dots stand between them
  (`steps_directoryOf`), and it starts where the path starts
  (`isAbsolute_directoryOf`).
-/

namespace ReferenceDraws.Path

/-- A text without slashes is one part. -/
theorem splitSlashes_of_not_mem {cs : List Char} (h : '/' ∉ cs) : splitSlashes cs = [cs] := by
  induction cs with
  | nil => rfl
  | cons c rest ih =>
    rw [List.mem_cons, not_or] at h
    rw [splitSlashes, if_neg (Ne.symm h.1), ih h.2]

/-- Text without slashes at the end of a path becomes the end of its last
part. -/
theorem exists_splitSlashes_append {cs ending : List Char} (h : '/' ∉ ending) :
    ∃ parts last, splitSlashes cs = parts ++ [last] ∧
      splitSlashes (cs ++ ending) = parts ++ [last ++ ending] := by
  induction cs with
  | nil => exact ⟨[], [], rfl, splitSlashes_of_not_mem h⟩
  | cons c rest ih =>
    obtain ⟨parts, last, hparts, happend⟩ := ih
    by_cases hc : c = '/'
    · refine ⟨[] :: parts, last, ?_, ?_⟩
      · rw [splitSlashes, if_pos hc, hparts, List.cons_append]
      · rw [List.cons_append, splitSlashes, if_pos hc, happend, List.cons_append]
    · cases parts with
      | nil =>
        refine ⟨[], c :: last, ?_, ?_⟩
        · simp only [splitSlashes, if_neg hc, hparts, List.nil_append]
        · simp only [List.cons_append, splitSlashes, if_neg hc, happend, List.nil_append]
      | cons part parts =>
        refine ⟨(c :: part) :: parts, last, ?_, ?_⟩
        · simp only [splitSlashes, if_neg hc, hparts, List.cons_append]
        · simp only [List.cons_append, splitSlashes, if_neg hc, happend]

/-- The last step of a path ends in the text that the path ends in, unless
that text is too short to tell. -/
theorem exists_getLast?_steps {start ending : String} (hslash : '/' ∉ ending.toList)
    (hlength : 2 ≤ ending.toList.length) :
    ∃ first, (steps (start ++ ending)).getLast? = some (String.ofList (first ++ ending.toList)) := by
  obtain ⟨parts, last, -, happend⟩ := exists_splitSlashes_append hslash
  have hlong : 2 ≤ (last ++ ending.toList).length := by
    rw [List.length_append]
    omega
  have hempty : last ++ ending.toList ≠ [] := by
    intro h
    rw [h] at hlong
    simp at hlong
  have hdot : last ++ ending.toList ≠ ['.'] := by
    intro h
    rw [h] at hlong
    simp at hlong
  refine ⟨last, ?_⟩
  rw [steps, String.toList_append, happend, List.filter_append,
    List.filter_cons_of_pos (by simp only [decide_eq_true_eq]; exact ⟨hempty, hdot⟩),
    List.filter_nil, List.map_append, List.map_singleton, List.getLast?_concat]

/-- What is joined to a directory is the end of the path. -/
theorem exists_join_eq_append (dir name : String) : ∃ start, join dir name = start ++ name := by
  unfold join
  split
  · exact ⟨"", String.empty_append.symm⟩
  · split
    · exact ⟨dir, rfl⟩
    · exact ⟨dir ++ "/", rfl⟩

/-- The same below a directory. -/
theorem exists_getLast?_steps_join (dir name : String) {ending : String}
    (hslash : '/' ∉ ending.toList) (hlength : 2 ≤ ending.toList.length) :
    ∃ first, (steps (join dir (name ++ ending))).getLast? =
      some (String.ofList (first ++ ending.toList)) := by
  obtain ⟨start, hstart⟩ := exists_join_eq_append dir (name ++ ending)
  rw [hstart, ← String.append_assoc]
  exact exists_getLast?_steps hslash hlength

/-! ## Names as last steps -/

/-- The parts before and after a slash. -/
theorem splitSlashes_append_slash (cs rest : List Char) :
    splitSlashes (cs ++ '/' :: rest) = splitSlashes cs ++ splitSlashes rest := by
  induction cs with
  | nil => rfl
  | cons c cs ih =>
    by_cases hc : c = '/'
    · rw [List.cons_append, splitSlashes, if_pos hc, ih, splitSlashes, if_pos hc,
        List.cons_append]
    · obtain ⟨part, parts, hparts⟩ : ∃ part parts, splitSlashes cs = part :: parts := by
        have hslash : '/' ∉ ([] : List Char) := List.not_mem_nil
        obtain ⟨parts, last, hparts, -⟩ := exists_splitSlashes_append hslash
        cases parts with
        | nil => exact ⟨last, [], hparts⟩
        | cons part parts => exact ⟨part, parts ++ [last], hparts⟩
      simp only [List.cons_append, splitSlashes, if_neg hc, ih, hparts]

/-- A name is what comes after the last slash of the path it is joined to. -/
theorem exists_join_eq (dir : String) {name : String} (h : '/' ∉ name.toList) :
    join dir name = name ∨
      ∃ start : List Char, (join dir name).toList = start ++ '/' :: name.toList := by
  have hrelative : isAbsolute name = false := by
    rw [isAbsolute, decide_eq_false_iff_not]
    intro hhead
    exact h (List.mem_of_mem_head? hhead)
  unfold join
  rw [if_neg (by rw [hrelative]; exact Bool.false_ne_true)]
  split
  · rename_i hdir
    rw [Bool.or_eq_true, decide_eq_true_eq] at hdir
    rcases hdir with hempty | hslash
    · left
      rw [String.isEmpty_iff.1 hempty, String.empty_append]
    · right
      obtain ⟨start, hstart⟩ := List.getLast?_eq_some_iff.1 hslash
      refine ⟨start, ?_⟩
      rw [String.toList_append, hstart, List.append_assoc]
      rfl
  · right
    refine ⟨dir.toList, ?_⟩
    rw [String.toList_append, String.toList_append, List.append_assoc]
    rfl

/-- A name that is joined to a directory is the last step of the path. -/
theorem getLast?_steps_join {dir name : String} (hslash : '/' ∉ name.toList)
    (hlength : 2 ≤ name.toList.length) : (steps (join dir name)).getLast? = some name := by
  have hempty : name.toList ≠ [] := by
    intro h
    rw [h] at hlength
    simp at hlength
  have hdot : name.toList ≠ ['.'] := by
    intro h
    rw [h] at hlength
    simp at hlength
  obtain ⟨before, hbefore⟩ :
      ∃ before, splitSlashes (join dir name).toList = before ++ [name.toList] := by
    rcases exists_join_eq dir hslash with hjoin | ⟨start, hjoin⟩
    · refine ⟨[], ?_⟩
      rw [hjoin, splitSlashes_of_not_mem hslash, List.nil_append]
    · refine ⟨splitSlashes start, ?_⟩
      rw [hjoin, splitSlashes_append_slash, splitSlashes_of_not_mem hslash]
  rw [steps, hbefore, List.filter_append,
    List.filter_cons_of_pos (by simp only [decide_eq_true_eq]; exact ⟨hempty, hdot⟩),
    List.filter_nil, List.map_append, List.map_singleton, List.getLast?_concat,
    String.ofList_toList]

/-! ## Directories -/

/-- The parts of a text that count as steps. -/
def parts (cs : List Char) : List (List Char) :=
  (splitSlashes cs).filter fun part => part ≠ [] ∧ part ≠ ['.']

theorem steps_eq (path : String) : steps path = (parts path.toList).map String.ofList := rfl

theorem parts_append_slash (cs rest : List Char) :
    parts (cs ++ '/' :: rest) = parts cs ++ parts rest := by
  rw [parts, splitSlashes_append_slash, List.filter_append]
  rfl

/-- A name is one part. -/
theorem parts_name {cs : List Char} (hslash : '/' ∉ cs) (hempty : cs ≠ []) (hdot : cs ≠ ['.']) :
    parts cs = [cs] := by
  rw [parts, splitSlashes_of_not_mem hslash, List.filter_cons_of_pos (by simp [hempty, hdot]),
    List.filter_nil]

/-- Slashes and dots at the end of a text are no parts. -/
theorem parts_reverse_trimEnd (cs : List Char) : parts (trimEnd cs).reverse = parts cs.reverse := by
  fun_induction trimEnd cs with
  | case1 rest ih =>
    rw [ih, List.reverse_cons, parts_append_slash]
    exact (List.append_nil _).symm
  | case2 rest ih =>
    rw [ih, List.reverse_cons, List.reverse_cons, List.append_assoc, List.singleton_append,
      parts_append_slash]
    exact (List.append_nil _).symm
  | case3 => rfl
  | case4 cs => rfl

theorem trimEnd_suffix (cs : List Char) : trimEnd cs <:+ cs := by
  fun_induction trimEnd cs with
  | case1 rest ih => exact ih.trans (List.suffix_cons _ _)
  | case2 rest ih => exact ih.trans ((List.suffix_cons _ _).trans (List.suffix_cons _ _))
  | case3 => exact List.nil_suffix
  | case4 cs => exact List.suffix_refl cs

/-- What is left after trimming ends in a name. -/
theorem takeWhile_trimEnd {cs : List Char} (h : trimEnd cs ≠ []) :
    (trimEnd cs).takeWhile (· ≠ '/') ≠ [] ∧ (trimEnd cs).takeWhile (· ≠ '/') ≠ ['.'] := by
  fun_induction trimEnd cs with
  | case1 rest ih => exact ih h
  | case2 rest ih => exact ih h
  | case3 => exact absurd rfl h
  | case4 cs hslash hdots hdot =>
    cases cs with
    | nil => exact absurd rfl h
    | cons c rest =>
      have hc : c ≠ '/' := fun hc => hslash rest (by rw [hc])
      rw [List.takeWhile_cons_of_pos (by simpa using hc)]
      refine ⟨List.cons_ne_nil _ _, fun hname => ?_⟩
      obtain ⟨hc, hrest⟩ := List.cons.inj hname
      cases rest with
      | nil => exact hdot (by rw [hc])
      | cons d rest =>
        by_cases hd : d = '/'
        · exact hdots rest (by rw [hc, hd])
        · rw [List.takeWhile_cons_of_pos (by simpa using hd)] at hrest
          cases hrest

/-- A text that ends in a name has the parts before the name, and the name. -/
theorem parts_reverse_trimmed {cs : List Char} (h : trimEnd cs ≠ []) :
    ∃ name, parts (trimEnd cs).reverse =
      parts (((trimEnd cs).dropWhile (· ≠ '/')).drop 1).reverse ++ [name] := by
  obtain ⟨hempty, hdot⟩ := takeWhile_trimEnd h
  have hsplit := List.takeWhile_append_dropWhile (p := (· ≠ '/')) (l := trimEnd cs)
  generalize hname : (trimEnd cs).takeWhile (· ≠ '/') = name at *
  generalize hrest : (trimEnd cs).dropWhile (· ≠ '/') = rest at *
  have hslash : '/' ∉ name.reverse := by
    rw [List.mem_reverse, ← hname]
    intro hmem
    simpa using List.mem_takeWhile_imp hmem
  have hlast : parts name.reverse = [name.reverse] :=
    parts_name hslash (by simpa using hempty) (by simpa [List.reverse_eq_iff] using hdot)
  refine ⟨name.reverse, ?_⟩
  rw [← hsplit]
  cases rest with
  | nil =>
    rw [List.append_nil, hlast]
    rfl
  | cons c rest =>
    have hc : c = '/' := by
      have hhead := List.head?_dropWhile_not (· ≠ '/') (trimEnd cs)
      rw [hrest] at hhead
      simpa using hhead
    rw [hc, List.reverse_append, List.reverse_cons, List.append_assoc, List.singleton_append,
      parts_append_slash, hlast]
    rfl

/-- A root or a dot at the start is no step, whatever follows of the text. -/
theorem parts_lead {cs rest : List Char} (h : rest <+: cs.drop (leadLength cs)) :
    parts (cs.take (leadLength cs) ++ rest) = parts rest := by
  have hnone : parts [] = [] := rfl
  have hdot : parts ['.'] = [] := rfl
  unfold leadLength at h ⊢
  split
  · -- the root
    rw [List.take_succ_cons, List.take_zero, List.singleton_append]
    exact (parts_append_slash [] rest).trans (List.nil_append _)
  · -- a dot alone
    obtain rfl := List.prefix_nil.1 h
    rfl
  · -- a dot before a slash
    rename_i more
    cases rest with
    | nil => rfl
    | cons c rest =>
      obtain ⟨rfl, -⟩ := List.cons_prefix_cons.1 h
      calc parts (['.'] ++ '/' :: rest) = parts ['.'] ++ parts rest := parts_append_slash _ _
        _ = parts [] ++ parts rest := by rw [hdot, hnone]
        _ = parts ('/' :: rest) := (parts_append_slash [] rest).symm
  · rfl

/-- A text starts with a slash exactly if what is taken of it does. -/
theorem head?_lead {cs rest : List Char} (h : rest <+: cs.drop (leadLength cs)) :
    (cs.take (leadLength cs) ++ rest).head? = some '/' ↔ cs.head? = some '/' := by
  have hprefix : cs.take (leadLength cs) ++ rest <+: cs := by
    obtain ⟨more, hmore⟩ := h
    exact ⟨more, by rw [List.append_assoc, hmore, List.take_append_drop]⟩
  constructor
  · intro hhead
    obtain ⟨more, hmore⟩ := hprefix
    rw [← hmore, List.head?_append, hhead]
    rfl
  · intro hhead
    obtain ⟨more, rfl⟩ := List.head?_eq_some_iff.1 hhead
    rfl

/-- A text has the parts that it has between its lead and the slashes and dots at
its end. -/
theorem parts_eq_trimmed (cs : List Char) :
    parts cs = parts (trimEnd (cs.drop (leadLength cs)).reverse).reverse := by
  rw [parts_reverse_trimEnd, List.reverse_reverse, ← parts_lead (List.prefix_refl _),
    List.take_append_drop]

/-- The directory above a path has the steps of the path but the last. -/
theorem steps_parent? {path above : String} (h : parent? path = some above) :
    steps above = (steps path).dropLast ∧ isAbsolute above = isAbsolute path := by
  unfold parent? at h
  simp only at h
  generalize hcs : path.toList = cs at h
  have hparts := parts_eq_trimmed cs
  rw [steps_eq, steps_eq, isAbsolute, isAbsolute, hcs, ← List.map_dropLast]
  split at h
  · rename_i hnone
    rw [hnone] at hparts
    split at h
    · rename_i hlead
      cases h
      rw [hparts]
      refine ⟨rfl, ?_⟩
      have hhead := head?_lead (List.nil_prefix (l := cs.drop (leadLength cs)))
      rw [hlead] at hhead
      simpa using hhead
    · cases h
  · rename_i hnamed
    have hsome : trimEnd (cs.drop (leadLength cs)).reverse ≠ [] := hnamed
    obtain ⟨name, hname⟩ := parts_reverse_trimmed hsome
    have hsuffix := trimEnd_suffix (cs.drop (leadLength cs)).reverse
    generalize trimEnd (cs.drop (leadLength cs)).reverse = named at *
    cases h
    have hprefix : (trimEnd ((named.dropWhile (· ≠ '/')).drop 1)).reverse <+:
        cs.drop (leadLength cs) := by
      rw [← List.reverse_reverse (cs.drop (leadLength cs)), List.reverse_prefix]
      exact (trimEnd_suffix _).trans
        ((List.drop_suffix _ _).trans ((List.dropWhile_suffix _).trans hsuffix))
    rw [String.toList_ofList, parts_lead hprefix, parts_reverse_trimEnd, hparts, hname,
      List.dropLast_concat]
    exact ⟨rfl, decide_eq_decide.2 (head?_lead hprefix)⟩

/-- Where there is no directory above a path, the path has no steps. -/
theorem steps_of_parent?_eq_none {path : String} (h : parent? path = none) : steps path = [] := by
  unfold parent? at h
  simp only at h
  split at h
  · rename_i hnone
    rw [steps_eq, parts_eq_trimmed, hnone]
    rfl
  · cases h

/-- The directory of a path has the steps of the path but the last. -/
theorem steps_directoryOf (path : String) :
    steps (directoryOf path) = (steps path).dropLast := by
  have hdot : steps "." = [] := rfl
  unfold directoryOf
  cases hparent : parent? path with
  | none => rw [steps_of_parent?_eq_none hparent, hdot, List.dropLast_nil]
  | some above =>
    obtain ⟨hsteps, -⟩ := steps_parent? hparent
    simp only
    split
    · rename_i hempty
      rw [String.isEmpty_iff.1 hempty] at hsteps
      rw [hdot, ← hsteps]
      rfl
    · exact hsteps

/-- The directory of a path starts where the path starts, unless it has no
steps. -/
theorem isAbsolute_directoryOf {path : String} (h : steps (directoryOf path) ≠ []) :
    isAbsolute (directoryOf path) = isAbsolute path := by
  have hdot : steps "." = [] := rfl
  unfold directoryOf at h ⊢
  cases hparent : parent? path with
  | none =>
    simp only [hparent] at h
    exact absurd hdot h
  | some above =>
    simp only [hparent] at h ⊢
    split at h
    · exact absurd hdot h
    · rename_i hsome
      rw [if_neg hsome]
      exact (steps_parent? hparent).2

end ReferenceDraws.Path
