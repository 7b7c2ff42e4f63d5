import ReferenceDraws.Proofs.Draws.Faults
import ReferenceDraws.Proofs.Reference.Alignment
import ReferenceDraws.Proofs.Related

/-!
# The log of a run

A run reports what it does while it works: what there is to do, what becomes of
each parameter, and what its diagnostics do not tell.  This module says that
the log of a run and its result tell the same.

* One request.  `Reports` is what is reported of a request on its own, and
  `events_collect_cons` is the log of the walk over the requests in terms of
  it.
* The walk.  `exists_told` is the induction over the requests: they are
  reported one after another as long as none is refused.  `namedAt_told` reads
  the requests left out and the requests taken off their reports.
* The run.  `Accounts` is how a log accounts for a result, and
  `log_of_generate` says that every log of a run does.
-/

namespace ReferenceDraws

open List (Forall₂)

/-- The parameters that the events of a level name, in order. -/
def namedAt (level : LogLevel) (events : List LogEvent) : List String :=
  (events.filter (·.level = level)).filterMap (·.fields.lookup "parameter")

theorem namedAt_append (level : LogLevel) (es fs : List LogEvent) :
    namedAt level (es ++ fs) = namedAt level es ++ namedAt level fs := by
  simp only [namedAt, List.filter_append, List.filterMap_append]

namespace Assembly

variable {matrix : DrawMatrix} {config : RunConfig} {missing : MissingPolicy}
  {parameter : String} {parameters : List String}

/-! ## One request -/

/-- What is reported of a request: that it was left out, where its variable has
no draws and may be missing, or that its draws were taken. -/
inductive Reports (matrix : DrawMatrix) (config : RunConfig) :
    MissingPolicy → String → LogEvent → Prop
  | omitted {parameter : String} {name : ParameterName}
    (hname : ParameterName.resolve parameter = .ok name)
    (habsent : matrix.get? name.base = none) :
    Reports matrix config .omit parameter (omittedEvent parameter)
  | assembled {missing : MissingPolicy} {parameter : String} {name : ParameterName}
    {a : DrawArray} {series : List Series}
    (hname : ParameterName.resolve parameter = .ok name)
    (harray : matrix.get? name.base = some a)
    (hseries : slices a config name.index = .ok series) :
    Reports matrix config missing parameter (assembledEvent parameter config.chains)

theorem reports_of_request {draws : Option (List Series)}
    (h : request matrix config missing parameter = .ok draws) :
    Reports matrix config missing parameter (eventOf config parameter draws) := by
  obtain ⟨name, hname, ⟨hget, rfl, rfl⟩ | ⟨a, series, hget, hslices, rfl⟩⟩ :=
    request_eq_ok_iff.1 h
  · exact .omitted hname hget
  · exact .assembled hname hget hslices

/-- A request is reported before those that follow it.  One that is refused is
not reported, and none follows it. -/
theorem events_collect_cons (rest : List String) :
    (collect matrix config missing (parameter :: rest)).events =
      match request matrix config missing parameter with
      | .ok draws => eventOf config parameter draws :: (collect matrix config missing rest).events
      | .error _ => [] := by
  rw [collect_cons]
  cases request matrix config missing parameter with
  | error fault => rfl
  | ok draws => rfl

/-! ## The walk -/

/-- Requests that are not refused are reported one after another. -/
theorem exists_told {before : List String}
    (h : ∀ q ∈ before, ∃ draws, request matrix config missing q = .ok draws) :
    ∃ told, Forall₂ (Reports matrix config missing) before told ∧
      ∀ rest, (collect matrix config missing (before ++ rest)).events =
        told ++ (collect matrix config missing rest).events := by
  induction before with
  | nil => exact ⟨[], .nil, fun rest => rfl⟩
  | cons q before ih =>
    rw [List.forall_mem_cons] at h
    obtain ⟨⟨draws, hdraws⟩, hbefore⟩ := h
    obtain ⟨told, htold, hwalk⟩ := ih hbefore
    refine ⟨eventOf config q draws :: told, .cons (reports_of_request hdraws) htold, ?_⟩
    intro rest
    rw [List.cons_append, events_collect_cons, hdraws, List.cons_append, ← hwalk rest]

/-- The warnings name the requests whose variable has no draws, and the debug
events name the rest. -/
theorem namedAt_told {told : List LogEvent}
    (h : Forall₂ (Reports matrix config missing) parameters told) :
    namedAt .warn told = parameters.filter (fun p => (arrayOf? matrix p).isNone) ∧
      namedAt .debug told = parameters.filter (fun p => (arrayOf? matrix p).isSome) := by
  induction h with
  | nil => exact ⟨rfl, rfl⟩
  | @cons p event rest told hevent _ ih =>
    rw [← List.singleton_append, namedAt_append, namedAt_append, ih.1, ih.2]
    cases hevent with
    | omitted hname habsent =>
      have harray : arrayOf? matrix p = none := (arrayOf?_of_resolve hname).trans habsent
      rw [List.filter_cons_of_pos (by simp [harray]), List.filter_cons_of_neg (by simp [harray])]
      exact ⟨rfl, rfl⟩
    | @assembled _ _ _ a _ hname hget _ =>
      have harray : arrayOf? matrix p = some a := (arrayOf?_of_resolve hname).trans hget
      rw [List.filter_cons_of_neg (by simp [harray]), List.filter_cons_of_pos (by simp [harray])]
      exact ⟨rfl, rfl⟩

/-- An assembly that ends well has reported every request. -/
theorem reports_of_assemble_eq_ok {a : Assembly}
    (h : (assemble parameters matrix config ⟨missing⟩).value = .ok a) :
    Forall₂ (Reports matrix config missing) parameters
      (assemble parameters matrix config ⟨missing⟩).events := by
  obtain ⟨c, hcollect, -⟩ := bind_eq_ok_iff.1 h
  obtain ⟨told, htold, hwalk⟩ := exists_told (exists_collect_iff.1 ⟨c, hcollect⟩)
  have hevents := hwalk []
  rw [List.append_nil] at hevents
  show Forall₂ _ parameters (collect matrix config missing parameters).events
  rw [hevents]
  exact (List.append_nil told).symm ▸ htold

/-- An assembly that fails has reported the requests before the one at which it
fails. -/
theorem reports_of_assemble_eq_error {fault : Fault}
    (hroom : config.chains.toNat ≤ maxChains)
    (h : (assemble parameters matrix config ⟨missing⟩).value = .error fault) :
    ∃ before p after, parameters = before ++ p :: after ∧
      FailsAt matrix config missing before p fault ∧
      Forall₂ (Reports matrix config missing) before
        (assemble parameters matrix config ⟨missing⟩).events := by
  rw [value_assemble hroom, map_eq_error_iff] at h
  obtain ⟨before, p, after, hsplit, hbefore, hp⟩ := collect_eq_error_iff.1 h
  obtain ⟨told, htold, hwalk⟩ := exists_told hbefore
  refine ⟨before, p, after, hsplit, (failsAt_iff hroom).2 ⟨hbefore, hp⟩, ?_⟩
  show Forall₂ _ before (collect matrix config missing parameters).events
  rw [hsplit, hwalk, events_collect_cons, hp]
  exact (List.append_nil told).symm ▸ htold

end Assembly

namespace ReferenceRun

open DiagnosticsRecord (divergenceEvent neutralEvent)

variable {name : String} {summary : SummaryTable} {matrix : DrawMatrix} {auxiliary : List String}
  {config : RunConfig} {missing : MissingPolicy}

/-! ## The run -/

/-- How a log accounts for the result of a run.  It opens with the numbers of
parameters and variables.  If the run ends well, all parameters are reported in
the order of the summary, and a warning follows where divergences are flagged.
If it fails, the parameters before the first one that cannot be assembled are
reported, and nothing follows. -/
inductive Accounts (name : String) (summary : SummaryTable) (matrix : DrawMatrix)
    (auxiliary : List String) (config : RunConfig) (missing : MissingPolicy) :
    List LogEvent → Except Failure ReferenceRun → Prop
  | finished {told : List LogEvent} {r : ReferenceRun}
    (htold : Forall₂ (Assembly.Reports matrix config missing) summary.parameterNames told) :
    Accounts name summary matrix auxiliary config missing
      (startEvent name summary.parameterNames matrix ::
        (told ++ if "divergent__" ∈ auxiliary then [divergenceEvent] else []))
      (.ok r)
  | failed {before after : List String} {p : String} {told : List LogEvent}
    {fault : Assembly.Fault} (hsplit : summary.parameterNames = before ++ p :: after)
    (hfails : Assembly.FailsAt matrix config missing before p fault)
    (htold : Forall₂ (Assembly.Reports matrix config missing) before told) :
    Accounts name summary matrix auxiliary config missing
      (startEvent name summary.parameterNames matrix :: told) (.error fault.failure)

/-- The parameters of a summary have rows in it, so that no statistics have to
be made up. -/
theorem neutralEvents_parameterNames (summary : SummaryTable) :
    DiagnosticsRecord.neutralEvents summary summary.parameterNames = [] := by
  have hrows : ∀ n ∈ summary.parameterNames, ¬ (summary.get? n).isNone = true := by
    intro n hn
    have hkey : n ∈ summary.keys := List.filter_sublist.subset hn
    obtain ⟨row, hrow⟩ := OrderedMap.exists_get?_of_mem_keys hkey
    rw [hrow]
    exact Bool.false_ne_true
  rw [DiagnosticsRecord.neutralEvents, List.filter_eq_nil_iff.2 hrows, List.map_nil]

/-- What is reported of the diagnostics of a summary's own parameters. -/
theorem events_aggregate (summary : SummaryTable) (nchains ndraws : UInt64)
    (auxiliary : List String) :
    (DiagnosticsRecord.aggregate summary.parameterNames summary nchains ndraws auxiliary).events =
      if "divergent__" ∈ auxiliary then [divergenceEvent] else [] := by
  have hwalk := DiagnosticsRecord.collects summary summary.parameterNames
  rw [DiagnosticsRecord.aggregate_eq_of_collects hwalk, neutralEvents_parameterNames]
  exact List.append_nil _

/-- Where a run may begin, it assembles the parameters of the summary. -/
theorem generate_ofParts (hvalid : config.validate = .ok ()) (options : AssemblyOptions) :
    generate name (.ofParts summary matrix auxiliary) config options =
      generateFrom name summary matrix (.ok auxiliary) config options := by
  have hbegin : (part (config.validate.mapError RunConfig.Fault.failure)).value = .ok () := by
    rw [hvalid]
    rfl
  rw [generate, andThen_of_ok hbegin]
  rfl

/-- A run whose parameters cannot be assembled ends there. -/
theorem generateFrom_of_error {options : AssemblyOptions} {fault : Assembly.Fault}
    (h : (assemble summary.parameterNames matrix config options).value = .error fault) :
    generateFrom name summary matrix (.ok auxiliary) config options =
      ⟨startEvent name summary.parameterNames matrix ::
        (assemble summary.parameterNames matrix config options).events,
        .error fault.failure⟩ := by
  unfold generateFrom
  dsimp only
  rw [h, mapError_error, andThen_of_error rfl]
  rfl

/-- A run whose parameters are assembled goes on to its diagnostics. -/
theorem generateFrom_of_ok {options : AssemblyOptions} {a : Assembly}
    (h : (assemble summary.parameterNames matrix config options).value = .ok a) :
    generateFrom name summary matrix (.ok auxiliary) config options =
      ⟨startEvent name summary.parameterNames matrix ::
        ((assemble summary.parameterNames matrix config options).events ++
          if "divergent__" ∈ auxiliary then [divergenceEvent] else []),
        .ok ⟨name, config, a.chains, (DiagnosticsRecord.aggregate summary.parameterNames summary
          config.chains config.totalDraws auxiliary).value, a.omitted⟩⟩ := by
  unfold generateFrom
  dsimp only
  rw [h, mapError_ok, andThen_of_ok rfl, andThen_of_ok rfl]
  rw [← events_aggregate summary config.chains config.totalDraws auxiliary]
  rfl

/-- The log of a run accounts for its result. -/
theorem accounts_generateFrom (hroom : config.chains.toNat ≤ Assembly.maxChains) :
    Accounts name summary matrix auxiliary config missing
      (generateFrom name summary matrix (.ok auxiliary) config ⟨missing⟩).events
      (generateFrom name summary matrix (.ok auxiliary) config ⟨missing⟩).value := by
  cases h : (assemble summary.parameterNames matrix config ⟨missing⟩).value with
  | ok a =>
    rw [generateFrom_of_ok h]
    exact .finished (Assembly.reports_of_assemble_eq_ok h)
  | error fault =>
    rw [generateFrom_of_error h]
    obtain ⟨before, p, after, hsplit, hfails, htold⟩ :=
      Assembly.reports_of_assemble_eq_error hroom h
    exact .failed hsplit hfails htold

/-- No log says that statistics were made up. -/
theorem Accounts.neutralEvent_not_mem {events : List LogEvent} {value : Except Failure ReferenceRun}
    (h : Accounts name summary matrix auxiliary config missing events value) (n : String) :
    neutralEvent n ∉ events := by
  -- Every kind of event has a message of its own.
  have hstart : neutralEvent n ≠ startEvent name summary.parameterNames matrix := by
    simp [neutralEvent, startEvent]
  have hreports : ∀ {before told}, Forall₂ (Assembly.Reports matrix config missing) before told →
      neutralEvent n ∉ told := by
    intro before told htold hmem
    obtain ⟨p, -, hp⟩ := exists_of_mem_forall₂ htold hmem
    generalize hevent : neutralEvent n = event at hp
    cases hp with
    | omitted _ _ => simp [neutralEvent, Assembly.omittedEvent] at hevent
    | assembled _ _ _ => simp [neutralEvent, Assembly.assembledEvent] at hevent
  cases h with
  | failed _ _ htold => exact List.not_mem_cons_of_ne_of_not_mem hstart (hreports htold)
  | finished htold =>
    apply List.not_mem_cons_of_ne_of_not_mem hstart
    rw [List.mem_append, not_or]
    refine ⟨hreports htold, ?_⟩
    split <;> simp [neutralEvent, divergenceEvent]

/-- What opens a log and what may close it name no parameter. -/
theorem namedAt_around (level : LogLevel) (told : List LogEvent) :
    namedAt level (startEvent name summary.parameterNames matrix ::
      (told ++ if "divergent__" ∈ auxiliary then [divergenceEvent] else [])) =
      namedAt level told := by
  have hstart : namedAt level [startEvent name summary.parameterNames matrix] = [] := by
    cases level <;> rfl
  have hclose : namedAt level (if "divergent__" ∈ auxiliary then [divergenceEvent] else []) =
      [] := by
    split <;> cases level <;> rfl
  rw [← List.singleton_append, namedAt_append, namedAt_append, hstart, hclose,
    List.append_nil, List.nil_append]

/-- The warnings of a run that ends well name the parameters left out, and its
debug events name those of every chain. -/
theorem namedAt_generateFrom {r : ReferenceRun}
    (h : (generateFrom name summary matrix (.ok auxiliary) config ⟨missing⟩).value = .ok r) :
    namedAt .warn (generateFrom name summary matrix (.ok auxiliary) config ⟨missing⟩).events =
        r.omitted ∧
      ∀ chain ∈ r.chains,
        namedAt .debug
          (generateFrom name summary matrix (.ok auxiliary) config ⟨missing⟩).events =
          chain.keys := by
  cases hassemble : (assemble summary.parameterNames matrix config ⟨missing⟩).value with
  | error fault =>
    rw [generateFrom_of_error hassemble] at h
    cases h
  | ok a =>
    rw [generateFrom_of_ok hassemble] at h ⊢
    cases h
    obtain ⟨hwarn, hdebug⟩ := Assembly.namedAt_told (Assembly.reports_of_assemble_eq_ok hassemble)
    dsimp only
    rw [namedAt_around, namedAt_around, hwarn, hdebug]
    constructor
    · obtain ⟨c, hdescribes, -, -, homitted⟩ := Assembly.exists_collected hassemble
      rw [homitted, hdescribes.omitted]
    · intro chain hchain
      have hnodup : summary.parameterNames.Nodup := summary.keys_nodup.sublist List.filter_sublist
      exact (Assembly.keys_of_mem_chains hnodup hassemble hchain).symm

end ReferenceRun

end ReferenceDraws
