import ReferenceDraws.Proofs.Draws.Faults

/-!
# Missing variables under the two policies

An assembly that fails on a missing variable, beside one that leaves it out.
The two walks take the same steps up to the first request whose variable has
no draws, and there they part.

* One step.  `request_fail_of_isAbsent` and `request_fail_of_not_isAbsent` say
  what the strict policy changes about a request.
* The walk.  `collect_fail_eq_ok_iff` is the induction that runs both walks
  side by side, and `collect_fail_eq_missing` says where they part.
* The result.  `strict_assembly_agrees` compares the two assemblies, whichever
  way they end.
-/

namespace ReferenceDraws

namespace Assembly

variable {matrix : DrawMatrix} {config : RunConfig} {parameters : List String}
  {parameter : String}

/-! ## One step -/

/-- A fault that blames a request for its missing variable, and whose failure
names both. -/
def BlamesMissing (matrix : DrawMatrix) (parameter : String) (fault : Fault) : Prop :=
  ∃ name, ParameterName.resolve parameter = .ok name ∧ matrix.get? name.base = none ∧
    fault = .missing parameter name.base ∧ fault.failure.family = .missingVariable ∧
    fault.failure.report.context.get? "parameter" = some parameter ∧
    fault.failure.report.context.get? "variable" = some name.base

theorem context_missing (parameter base : String) :
    (Fault.missing parameter base).failure.report.context.get? "parameter" = some parameter ∧
      (Fault.missing parameter base).failure.report.context.get? "variable" = some base := by
  have hcontext : (Fault.missing parameter base).failure.report.context =
      (SortedMap.empty.insert "parameter" parameter).insert "variable" base := rfl
  rw [hcontext]
  constructor
  · rw [SortedMap.get?_insert_of_ne _ _ (by decide), SortedMap.get?_insert_self]
  · exact SortedMap.get?_insert_self _ _ _

theorem request_fail_of_isAbsent (config : RunConfig) (h : isAbsent matrix parameter = true) :
    ∃ fault, request matrix config .fail parameter = .error fault ∧
      BlamesMissing matrix parameter fault := by
  obtain ⟨name, hname, hget⟩ := isAbsent_iff.1 h
  refine ⟨.missing parameter name.base, by simp only [request, hname, hget], ?_⟩
  exact ⟨name, hname, hget, rfl, rfl, context_missing parameter name.base⟩

/-- A request that is not absent is malformed, or its variable has draws. -/
theorem cases_of_not_isAbsent (h : isAbsent matrix parameter = false) :
    (∃ m, ParameterName.resolve parameter = .error m) ∨
      ∃ name a, ParameterName.resolve parameter = .ok name ∧
        matrix.get? name.base = some a := by
  cases hname : ParameterName.resolve parameter with
  | error m => exact .inl ⟨m, rfl⟩
  | ok name =>
    cases hget : matrix.get? name.base with
    | none =>
      rw [isAbsent_iff.2 ⟨name, hname, hget⟩] at h
      cases h
    | some a => exact .inr ⟨name, a, rfl, hget⟩

theorem request_fail_of_not_isAbsent (h : isAbsent matrix parameter = false) :
    request matrix config .fail parameter = request matrix config .omit parameter := by
  rcases cases_of_not_isAbsent h with ⟨m, hname⟩ | ⟨name, a, hname, hget⟩
  · simp only [request, hname]
  · simp only [request, hname, hget]

/-- A request whose variable has draws is not left out. -/
theorem ne_none_of_request_omit {draws : Option (List Series)}
    (h : isAbsent matrix parameter = false)
    (hdraws : request matrix config .omit parameter = .ok draws) : draws ≠ none := by
  obtain ⟨name, hname, ⟨hget, -, -⟩ | ⟨a, series, -, -, rfl⟩⟩ := request_eq_ok_iff.1 hdraws
  · rw [isAbsent_iff.2 ⟨name, hname, hget⟩] at h
    cases h
  · exact Option.some_ne_none series

/-! ## The walk -/

/-- The strict walk ends well exactly when the other one does and leaves
nothing out. -/
theorem collect_fail_eq_ok_iff {c : Collected} :
    (collect matrix config .fail parameters).value = .ok c ↔
      (collect matrix config .omit parameters).value = .ok c ∧ c.omitted = [] := by
  induction parameters generalizing c with
  | nil =>
    constructor
    · intro h
      cases h
      exact ⟨rfl, rfl⟩
    · exact fun h => h.1
  | cons p rest ih =>
    rw [value_collect_cons, value_collect_cons, bind_eq_ok_iff, bind_eq_ok_iff]
    cases habsent : isAbsent matrix p with
    | true =>
      obtain ⟨fault, hfault, -⟩ := request_fail_of_isAbsent config habsent
      constructor
      · rintro ⟨draws, hdraws, -⟩
        rw [hfault] at hdraws
        cases hdraws
      · rintro ⟨⟨draws, hdraws, h⟩, homitted⟩
        rw [request_omit_of_isAbsent habsent] at hdraws
        cases hdraws
        obtain ⟨d, -, rfl⟩ := map_eq_ok_iff.1 h
        cases homitted
    | false =>
      rw [request_fail_of_not_isAbsent habsent]
      constructor
      · rintro ⟨draws, hdraws, h⟩
        obtain ⟨d, hd, rfl⟩ := map_eq_ok_iff.1 h
        obtain ⟨hd, homitted⟩ := ih.1 hd
        refine ⟨⟨draws, hdraws, map_eq_ok_iff.2 ⟨d, hd, rfl⟩⟩, ?_⟩
        cases draws with
        | none => exact absurd rfl (ne_none_of_request_omit habsent hdraws)
        | some series => exact homitted
      · rintro ⟨⟨draws, hdraws, h⟩, homitted⟩
        obtain ⟨d, hd, rfl⟩ := map_eq_ok_iff.1 h
        cases draws with
        | none => exact absurd rfl (ne_none_of_request_omit habsent hdraws)
        | some series => exact ⟨_, hdraws, map_eq_ok_iff.2 ⟨d, ih.2 ⟨hd, homitted⟩, rfl⟩⟩

/-- The strict walk fails at the first missing variable, if the other walk
gets as far. -/
theorem collect_fail_eq_missing {earlier later : List String}
    (hearlier : ∀ q ∈ earlier, ∃ draws, request matrix config .omit q = .ok draws)
    (hpresent : ∀ q ∈ earlier, isAbsent matrix q = false)
    (habsent : isAbsent matrix parameter = true) :
    ∃ fault, (collect matrix config .fail (earlier ++ parameter :: later)).value = .error fault ∧
      BlamesMissing matrix parameter fault := by
  obtain ⟨fault, hfault, hblames⟩ := request_fail_of_isAbsent config habsent
  refine ⟨fault, collect_eq_error_iff.2 ⟨earlier, parameter, later, rfl, ?_, hfault⟩, hblames⟩
  intro q hq
  rw [request_fail_of_not_isAbsent (hpresent q hq)]
  exact hearlier q hq

/-- What is left out are the requests whose variable has no draws. -/
theorem omitted_of_collect {missing : MissingPolicy} {c : Collected}
    (h : (collect matrix config missing parameters).value = .ok c) :
    c.omitted = parameters.filter (isAbsent matrix) := by
  have hdescribes := describes_collect h
  rw [hdescribes.omitted]
  apply List.filter_congr
  intro q hq
  obtain ⟨name, hname⟩ := hdescribes.resolves q hq
  simp only [arrayOf?, isAbsent, hname]

/-! ## The result -/

end Assembly

/-- Where the chains can be held, an assembly that fails on missing variables
ends as one that leaves them out, as long as no variable is missing.  The first
missing variable makes it fail, unless another request has failed before. -/
theorem strict_assembly_agrees {parameters : List String} {matrix : DrawMatrix}
    {config : RunConfig} (hroom : config.chains.toNat ≤ Assembly.maxChains) :
    (∀ a, (assemble parameters matrix config ⟨.fail⟩).value = .ok a ↔
      (assemble parameters matrix config ⟨.omit⟩).value = .ok a ∧ a.omitted = []) ∧
    (∀ a p rest, (assemble parameters matrix config ⟨.omit⟩).value = .ok a →
      a.omitted = p :: rest →
      ∃ missing, (assemble parameters matrix config ⟨.fail⟩).value = .error missing ∧
        Assembly.BlamesMissing matrix p missing) ∧
    (∀ fault, (assemble parameters matrix config ⟨.omit⟩).value = .error fault ↔
      ∃ before p after, parameters = before ++ p :: after ∧
        Assembly.FailsAt matrix config .omit before p fault) ∧
    (∀ before p after fault, parameters = before ++ p :: after →
      Assembly.FailsAt matrix config .omit before p fault →
      ((∀ q ∈ before, Assembly.isAbsent matrix q = false) →
        (assemble parameters matrix config ⟨.fail⟩).value = .error fault) ∧
      (∀ earlier q later, before = earlier ++ q :: later →
        (∀ x ∈ earlier, Assembly.isAbsent matrix x = false) →
        Assembly.isAbsent matrix q = true →
        ∃ missing, (assemble parameters matrix config ⟨.fail⟩).value = .error missing ∧
          Assembly.BlamesMissing matrix q missing)) := by
  simp only [Assembly.value_assemble hroom, Assembly.failsAt_iff hroom, map_eq_error_iff]
  refine ⟨fun a => ?_, fun a p rest hvalue homitted => ?_,
    fun fault => Assembly.collect_eq_error_iff, ?_⟩
  · simp only [map_eq_ok_iff, Assembly.collect_fail_eq_ok_iff]
    constructor
    · rintro ⟨c, ⟨hcollect, homitted⟩, rfl⟩
      exact ⟨⟨c, hcollect, rfl⟩, homitted⟩
    · rintro ⟨⟨c, hcollect, rfl⟩, homitted⟩
      exact ⟨c, ⟨hcollect, homitted⟩, rfl⟩
  · obtain ⟨c, hcollect, rfl⟩ := map_eq_ok_iff.1 hvalue
    have hfilter := (Assembly.omitted_of_collect hcollect).symm.trans homitted
    obtain ⟨earlier, later, rfl, hpresent, habsent, -⟩ := List.filter_eq_cons_iff.1 hfilter
    have hok := Assembly.exists_collect_iff.1 ⟨c, hcollect⟩
    exact Assembly.collect_fail_eq_missing
      (fun q hq => hok q (List.mem_append_left _ hq))
      (fun q hq => Bool.eq_false_iff.2 (hpresent q hq)) habsent
  · rintro before p after fault rfl ⟨hbefore, hp⟩
    constructor
    · intro hall
      have hpresent : Assembly.isAbsent matrix p = false := by
        rw [Bool.eq_false_iff]
        intro habsent
        rw [Assembly.request_omit_of_isAbsent habsent] at hp
        cases hp
      refine Assembly.collect_eq_error_iff.2 ⟨before, p, after, rfl, ?_, ?_⟩
      · intro q hq
        rw [Assembly.request_fail_of_not_isAbsent (hall q hq)]
        exact hbefore q hq
      · rw [Assembly.request_fail_of_not_isAbsent hpresent]
        exact hp
    · rintro earlier q later rfl hearlier habsent
      rw [List.append_assoc]
      exact Assembly.collect_fail_eq_missing
        (fun x hx => hbefore x (List.mem_append_left _ hx)) hearlier habsent

/-- A missing variable before an index past the last.  The index is blamed
where variables may be missing, and else the variable. -/
theorem strict_assembly_agrees_mixed :
    Assembly.FailsAt mixedMatrix twoByTwo .omit ["theta", "sigma[2]"] "beta[3]"
        (.misshapen "beta[3]" (.indexBounds 3 2)) ∧
      (assemble mixedRequests mixedMatrix twoByTwo ⟨.omit⟩).value =
        .error (.misshapen "beta[3]" (.indexBounds 3 2)) ∧
      ∃ missing, (assemble mixedRequests mixedMatrix twoByTwo ⟨.fail⟩).value = .error missing ∧
        Assembly.BlamesMissing mixedMatrix "sigma[2]" missing := by
  obtain ⟨-, -, hlenient, hstrict⟩ :=
    @strict_assembly_agrees mixedRequests mixedMatrix twoByTwo (by decide)
  have hstops : Assembly.FailsAt mixedMatrix twoByTwo .omit ["theta", "sigma[2]"] "beta[3]"
      (.misshapen "beta[3]" (.indexBounds 3 2)) := ⟨⟨_, rfl⟩, rfl⟩
  refine ⟨hstops, (hlenient _).2 ⟨_, _, _, rfl, hstops⟩, ?_⟩
  exact (hstrict _ _ _ _ rfl hstops).2 ["theta"] "sigma[2]" [] rfl
    (by simp only [List.mem_singleton, forall_eq]; decide) (by decide)

end ReferenceDraws
