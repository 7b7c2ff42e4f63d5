import ReferenceDraws.Draws.Assembly
import ReferenceDraws.Proofs.Draws.ChainLayout
import ReferenceDraws.Proofs.OrderedMap

/-!
# Where the draws of an assembly come from

`assemble` walks the requested parameters once and then fills the chains
parameter by parameter.  This module follows both loops.

* One parameter.  `getElem?_slices` says that a parameter's draws in all
  chains are the splits of its array, one for each chain.
* One request.  `request` is what becomes of a request on its own, and
  `collect_cons` is one step of the walk over the requests in terms of it.
* The walk over the requests.  `Collected.Describes` is what is known of
  the parameters taken and the names left out.  One more request keeps it
  (`Collected.Describes.enter`), and `describes_collect` is the induction
  over the requests.
* The filling of the chains.  `getElem?_chainsOf` turns the loop over the
  parameters around: each chain is the map of its own column.
  `exists_collected` puts both loops together.
* The result.  `assemble_places_draws` reads chains, keys, draws and
  omitted names off a finished assembly.
-/

namespace ReferenceDraws

namespace Assembly

/-! ## One parameter -/

theorem slicesFrom_getElem? {a : DrawArray} {chains drawsPerChain : UInt64}
    {index : Option UInt64} {count start : Nat} {series : List Series}
    (h : slicesFrom a chains drawsPerChain index count start = .ok series) :
    series.length = count ∧
      ∀ j < count, ∃ s, series[j]? = some s ∧
        ChainLayout.split a (UInt64.ofNat (start + j)) chains drawsPerChain index = .ok s := by
  induction count generalizing start series with
  | zero =>
    cases h
    exact ⟨rfl, fun j hj => absurd hj (Nat.not_lt_zero j)⟩
  | succ count ih =>
    obtain ⟨first, hfirst, h⟩ := bind_eq_ok_iff.1 h
    obtain ⟨rest, hrest, h⟩ := bind_eq_ok_iff.1 h
    cases h
    obtain ⟨hlength, hget⟩ := ih hrest
    refine ⟨by rw [List.length_cons, hlength], fun j hj => ?_⟩
    cases j with
    | zero => exact ⟨first, rfl, hfirst⟩
    | succ j =>
      obtain ⟨s, hs, hsplit⟩ := hget j (by omega)
      refine ⟨s, hs, ?_⟩
      rwa [show start + (j + 1) = start + 1 + j by omega]

/-- A parameter has draws in every chain, and these are the split of its
array for that chain. -/
theorem getElem?_slices {a : DrawArray} {config : RunConfig} {index : Option UInt64}
    {series : List Series} (h : slices a config index = .ok series) :
    series.length = config.chains.toNat ∧
      ∀ c < config.chains.toNat, ∃ s, series[c]? = some s ∧
        s.IsBlock a index (c * config.drawsPerChain.toNat) config.drawsPerChain.toNat := by
  obtain ⟨hlength, hget⟩ := slicesFrom_getElem? h
  refine ⟨hlength, fun c hc => ?_⟩
  obtain ⟨s, hs, hsplit⟩ := hget c hc
  have hword : (UInt64.ofNat (0 + c)).toNat = c := by
    rw [Nat.zero_add]
    exact UInt64.toNat_ofNat_of_lt' (Nat.lt_trans hc config.chains.toNat_lt)
  have hblock := ChainLayout.isBlock_of_split hsplit
  rw [hword] at hblock
  exact ⟨s, hs, hblock⟩

/-! ## One request -/

/-- What becomes of a request on its own: its fault, or its draws in every
chain, or nothing where its variable has no draws and may be missing. -/
def request (matrix : DrawMatrix) (config : RunConfig) (missing : MissingPolicy)
    (parameter : String) : Except Fault (Option (List Series)) :=
  match ParameterName.resolve parameter with
  | .error name => .error (.malformed name)
  | .ok name =>
    match matrix.get? name.base, missing with
    | some a, _ => ((slices a config name.index).map some).mapError (.misshapen parameter)
    | none, .omit => .ok none
    | none, .fail => .error (.missing parameter name.base)

/-- Enters what became of a request before all that was collected. -/
def Collected.enter (parameter : String) (draws : Option (List Series)) (c : Collected) :
    Collected :=
  match draws with
  | some series => ⟨(parameter, series) :: c.taken, c.omitted⟩
  | none => ⟨c.taken, parameter :: c.omitted⟩

/-- The event of a request that is not refused. -/
def eventOf (config : RunConfig) (parameter : String) : Option (List Series) → LogEvent
  | none => omittedEvent parameter
  | some _ => assembledEvent parameter config.chains

variable {matrix : DrawMatrix} {config : RunConfig} {missing : MissingPolicy}
  {parameters : List String} {parameter : String}

/-- A request that is not refused is left out, or its draws are taken. -/
theorem request_eq_ok_iff {draws : Option (List Series)} :
    request matrix config missing parameter = .ok draws ↔
      ∃ name, ParameterName.resolve parameter = .ok name ∧
        ((matrix.get? name.base = none ∧ missing = .omit ∧ draws = none) ∨
          ∃ a series, matrix.get? name.base = some a ∧
            slices a config name.index = .ok series ∧ draws = some series) := by
  unfold request
  constructor
  · intro h
    cases hname : ParameterName.resolve parameter with
    | error m =>
      rw [hname] at h
      cases h
    | ok name =>
      refine ⟨name, rfl, ?_⟩
      simp only [hname] at h
      cases hget : matrix.get? name.base with
      | none =>
        simp only [hget] at h
        cases missing <;> cases h
        exact .inl ⟨rfl, rfl, rfl⟩
      | some a =>
        simp only [hget] at h
        obtain ⟨series, hseries, rfl⟩ := map_eq_ok_iff.1 (mapError_eq_ok_iff.1 h)
        exact .inr ⟨a, series, rfl, hseries, rfl⟩
  · rintro ⟨name, hname, ⟨hget, rfl, rfl⟩ | ⟨a, series, hget, hseries, rfl⟩⟩
    · simp only [hname, hget]
    · simp only [hname, hget, hseries]
      rfl

/-- The walk reports a request and enters it before those that follow, or ends
with its fault. -/
theorem collect_cons (rest : List String) :
    collect matrix config missing (parameter :: rest) =
      match request matrix config missing parameter with
      | .error fault => .quiet (.error fault)
      | .ok draws =>
        .after (eventOf config parameter draws)
          ⟨(collect matrix config missing rest).events,
            (collect matrix config missing rest).value.map (Collected.enter parameter draws)⟩ := by
  unfold request
  rw [collect]
  cases ParameterName.resolve parameter with
  | error name => rfl
  | ok name =>
    cases hget : matrix.get? name.base with
    | none =>
      simp only [hget]
      cases missing <;> rfl
    | some a =>
      simp only [hget]
      cases slices a config name.index with
      | error shape => rfl
      | ok series => rfl

theorem value_collect_cons (rest : List String) :
    (collect matrix config missing (parameter :: rest)).value =
      request matrix config missing parameter >>= fun draws =>
        (collect matrix config missing rest).value.map (Collected.enter parameter draws) := by
  rw [collect_cons]
  cases request matrix config missing parameter with
  | error fault => rfl
  | ok draws => rfl

/-! ## The walk over the requests -/

/-- The array of the variable that a requested parameter names, if that
variable has draws. -/
def arrayOf? (matrix : DrawMatrix) (parameter : String) : Option DrawArray :=
  match ParameterName.resolve parameter with
  | .ok name => matrix.get? name.base
  | .error _ => none

theorem arrayOf?_of_resolve {matrix : DrawMatrix} {parameter : String} {name : ParameterName}
    (h : ParameterName.resolve parameter = .ok name) :
    arrayOf? matrix parameter = matrix.get? name.base := by
  rw [arrayOf?, h]

/-- What is known of parameters that were taken for a list of requests:
every request is a name, the names left out are those without an array,
and the others come with the draws of their arrays. -/
structure Collected.Describes (matrix : DrawMatrix) (config : RunConfig)
    (parameters : List String) (c : Collected) : Prop where
  resolves : ∀ p ∈ parameters, ∃ name, ParameterName.resolve p = .ok name
  omitted : c.omitted = parameters.filter fun p => (arrayOf? matrix p).isNone
  names : c.taken.map Prod.fst = parameters.filter fun p => (arrayOf? matrix p).isSome
  draws : ∀ e ∈ c.taken, ∃ name a, ParameterName.resolve e.1 = .ok name ∧
    matrix.get? name.base = some a ∧ slices a config name.index = .ok e.2

/-- One more request before those that are described. -/
theorem Collected.Describes.enter {c : Collected} {draws : Option (List Series)}
    (hc : c.Describes matrix config parameters)
    (h : request matrix config missing parameter = .ok draws) :
    (c.enter parameter draws).Describes matrix config (parameter :: parameters) := by
  obtain ⟨name, hname, hdraws⟩ := request_eq_ok_iff.1 h
  have harray : arrayOf? matrix parameter = matrix.get? name.base := arrayOf?_of_resolve hname
  have hresolves : ∀ q ∈ parameter :: parameters,
      ∃ name, ParameterName.resolve q = .ok name := by
    intro q hq
    rcases List.mem_cons.1 hq with rfl | hq
    · exact ⟨name, hname⟩
    · exact hc.resolves q hq
  rcases hdraws with ⟨hget, -, rfl⟩ | ⟨a, series, hget, hslices, rfl⟩
  · rw [hget] at harray
    constructor
    case resolves => exact hresolves
    case omitted => simp [Collected.enter, harray, hc.omitted]
    case names => simp [Collected.enter, harray, hc.names]
    case draws => exact hc.draws
  · rw [hget] at harray
    constructor
    case resolves => exact hresolves
    case omitted => simp [Collected.enter, harray, hc.omitted]
    case names => simp [Collected.enter, harray, hc.names]
    case draws =>
      intro e he
      rcases List.mem_cons.1 he with rfl | he
      · exact ⟨name, a, hname, hget, hslices⟩
      · exact hc.draws e he

/-- The walk over the requests ends with what it is meant to collect. -/
theorem describes_collect {matrix : DrawMatrix} {config : RunConfig} {missing : MissingPolicy}
    {parameters : List String} {c : Collected}
    (h : (collect matrix config missing parameters).value = .ok c) :
    c.Describes matrix config parameters := by
  induction parameters generalizing c with
  | nil =>
    cases h
    exact ⟨by simp, rfl, rfl, by simp⟩
  | cons p rest ih =>
    rw [value_collect_cons] at h
    obtain ⟨draws, hdraws, h⟩ := bind_eq_ok_iff.1 h
    obtain ⟨d, hd, rfl⟩ := map_eq_ok_iff.1 h
    exact (ih hd).enter hdraws

/-! ## The filling of the chains -/

/-- The column of a chain in a table of parameters by chains. -/
def column (taken : List (String × List Series)) (c : Nat) : List (String × Series) :=
  taken.filterMap fun e => e.2[c]?.map (e.1, ·)

/-- Adding a parameter to every chain adds its entry to each column. -/
theorem getElem?_addParameter {chains : List ChainDraws} {p : String} {series : List Series}
    {c : Nat} {chain : ChainDraws} {s : Series} (hchain : chains[c]? = some chain)
    (hs : series[c]? = some s) :
    (addParameter chains p series)[c]? = some (chain.insert p s) := by
  rw [addParameter, List.getElem?_zipWith, hchain, hs]

/-- Each chain is filled with its own column, and no chain is lost. -/
theorem getElem?_chainsOf {count : Nat} {taken : List (String × List Series)}
    (hlength : ∀ e ∈ taken, e.2.length = count) :
    (chainsOf count taken).length = count ∧
      ∀ c < count, (chainsOf count taken)[c]? = some (.ofList (column taken c)) := by
  induction taken using List.reverseRecOn with
  | nil =>
    refine ⟨List.length_replicate, fun c hc => ?_⟩
    simp [chainsOf, column, hc]
  | append_singleton taken e ih =>
    obtain ⟨ihlength, ihget⟩ := ih fun d hd => hlength d (List.mem_append_left _ hd)
    have helength : e.2.length = count := hlength e (by simp)
    have hstep : chainsOf count (taken ++ [e]) = addParameter (chainsOf count taken) e.1 e.2 := by
      simp [chainsOf, List.foldl_append]
    rw [hstep]
    constructor
    · rw [addParameter, List.length_zipWith, ihlength, helength, Nat.min_self]
    · intro c hc
      have hbound : c < e.2.length := helength ▸ hc
      have hs : e.2[c]? = some e.2[c] := List.getElem?_eq_getElem _
      have hcolumn : column (taken ++ [e]) c = column taken c ++ [(e.1, e.2[c])] := by
        simp [column, hs]
      rw [hcolumn, OrderedMap.ofList_concat]
      exact getElem?_addParameter (ihget c hc) hs

/-- Every chain is filled with some column. -/
theorem exists_column_of_mem_chainsOf {count : Nat} {taken : List (String × List Series)}
    (hlength : ∀ e ∈ taken, e.2.length = count) {chain : ChainDraws}
    (h : chain ∈ chainsOf count taken) :
    ∃ c < count, chain = .ofList (column taken c) := by
  obtain ⟨hcount, hget⟩ := getElem?_chainsOf hlength
  obtain ⟨c, hc, rfl⟩ := List.getElem_of_mem h
  have hcolumn := hget c (hcount ▸ hc)
  rw [List.getElem?_eq_getElem hc, Option.some_inj] at hcolumn
  exact ⟨c, hcount ▸ hc, hcolumn⟩

/-- The entries of a column are those of the table. -/
theorem mem_column {taken : List (String × List Series)} {c : Nat} {p : String} {s : Series}
    (h : (p, s) ∈ column taken c) : ∃ series, (p, series) ∈ taken ∧ series[c]? = some s := by
  obtain ⟨e, he, hs⟩ := List.mem_filterMap.1 h
  obtain ⟨t, ht, heq⟩ := Option.map_eq_some_iff.1 hs
  cases heq
  exact ⟨e.2, he, ht⟩

/-- In a table with full rows every column has all the names. -/
theorem map_fst_column {count c : Nat} {taken : List (String × List Series)}
    (hlength : ∀ e ∈ taken, e.2.length = count) (hc : c < count) :
    (column taken c).map Prod.fst = taken.map Prod.fst := by
  induction taken with
  | nil => rfl
  | cons e rest ih =>
    have hbound : c < e.2.length := hlength e (by simp) ▸ hc
    have hs : e.2[c]? = some e.2[c] := List.getElem?_eq_getElem _
    have hrest := ih fun d hd => hlength d (List.mem_cons_of_mem _ hd)
    rw [column] at hrest
    simp [column, hs, hrest]

/-- A finished assembly is what was collected, chain by chain. -/
theorem exists_collected {parameters : List String} {matrix : DrawMatrix} {config : RunConfig}
    {options : AssemblyOptions} {result : Assembly}
    (h : (assemble parameters matrix config options).value = .ok result) :
    ∃ collected : Collected, collected.Describes matrix config parameters ∧
      (∀ e ∈ collected.taken, e.2.length = config.chains.toNat) ∧
      result.chains = chainsOf config.chains.toNat collected.taken ∧
      result.omitted = collected.omitted := by
  obtain ⟨collected, hcollect, h⟩ := bind_eq_ok_iff.1 h
  split at h
  · cases h
  cases h
  have hdescribes := describes_collect hcollect
  refine ⟨collected, hdescribes, fun e he => ?_, rfl, rfl⟩
  obtain ⟨name, a, -, -, hslices⟩ := hdescribes.draws e he
  exact (getElem?_slices hslices).1

/-- Every entry of a chain has as many draws as a chain has. -/
theorem isBlock_of_mem_entries {parameters : List String} {matrix : DrawMatrix}
    {config : RunConfig} {options : AssemblyOptions} {result : Assembly}
    (h : (assemble parameters matrix config options).value = .ok result) {chain : ChainDraws}
    (hchain : chain ∈ result.chains) {e : String × Series} (he : e ∈ chain.entries) :
    ∃ a index start, e.2.IsBlock a index start config.drawsPerChain.toNat := by
  obtain ⟨collected, hdescribes, hrows, hchains, -⟩ := exists_collected h
  rw [hchains] at hchain
  obtain ⟨c, hcount, rfl⟩ := exists_column_of_mem_chainsOf hrows hchain
  obtain ⟨p, s⟩ := e
  obtain ⟨series, htaken, hseries⟩ := mem_column (OrderedMap.mem_of_mem_entries_ofList he)
  obtain ⟨name, a, -, -, hslices⟩ := hdescribes.draws _ htaken
  obtain ⟨t, ht, hblock⟩ := (getElem?_slices hslices).2 c hcount
  cases hseries.symm.trans ht
  exact ⟨a, name.index, _, hblock⟩

/-- Without repeated requests, the keys of a chain are the requests whose
variable has draws. -/
theorem keys_of_mem_chains {parameters : List String} {matrix : DrawMatrix}
    {config : RunConfig} {options : AssemblyOptions} {result : Assembly}
    (hnodup : parameters.Nodup)
    (h : (assemble parameters matrix config options).value = .ok result) {chain : ChainDraws}
    (hchain : chain ∈ result.chains) :
    chain.keys = parameters.filter fun p => (arrayOf? matrix p).isSome := by
  obtain ⟨collected, hdescribes, hrows, hchains, -⟩ := exists_collected h
  rw [hchains] at hchain
  obtain ⟨c, hcount, rfl⟩ := exists_column_of_mem_chainsOf hrows hchain
  have hnames := (map_fst_column hrows hcount).trans hdescribes.names
  have hentries := OrderedMap.entries_ofList (hnames ▸ hnodup.filter _)
  rw [OrderedMap.keys, hentries, hnames]

end Assembly

/-! ## The result -/

/-- A finished assembly has a chain for each one configured.  Every chain
has the requested names whose variable has draws, each at its first
occurrence, and under each name the rows of the variable's array that
belong to the chain.  What is left out are the other names. -/
theorem assemble_places_draws {parameters : List String} {matrix : DrawMatrix}
    {config : RunConfig} {options : AssemblyOptions} {result : Assembly}
    (h : (assemble parameters matrix config options).value = .ok result) :
    result.chains.length = config.chains.toNat ∧
      (∀ p ∈ parameters, ∃ name, ParameterName.resolve p = .ok name) ∧
      (∀ chain ∈ result.chains, chain.keys =
        (parameters.filter fun p => (Assembly.arrayOf? matrix p).isSome).eraseDups) ∧
      (∀ p ∈ parameters, ∀ name a, ParameterName.resolve p = .ok name →
        matrix.get? name.base = some a →
        ∀ c < config.chains.toNat, ∃ chain series, result.chains[c]? = some chain ∧
          chain.get? p = some series ∧
          series.IsBlock a name.index (c * config.drawsPerChain.toNat)
            config.drawsPerChain.toNat) ∧
      result.omitted = parameters.filter fun p => (Assembly.arrayOf? matrix p).isNone := by
  obtain ⟨collected, hdescribes, hrows, hchains, homitted⟩ := Assembly.exists_collected h
  obtain ⟨hlength, hchain⟩ := Assembly.getElem?_chainsOf hrows
  rw [hchains, homitted]
  refine ⟨hlength, hdescribes.resolves, ?_, ?_, hdescribes.omitted⟩
  · intro chain hmem
    obtain ⟨c, hc, rfl⟩ := List.getElem_of_mem hmem
    have hcount : c < config.chains.toNat := hlength ▸ hc
    have hget := hchain c hcount
    rw [List.getElem?_eq_getElem hc, Option.some_inj] at hget
    rw [hget, OrderedMap.keys_ofList, Assembly.map_fst_column hrows hcount, hdescribes.names]
  · intro p hp name a hname hget c hc
    have hkey : p ∈ (Assembly.column collected.taken c).map Prod.fst := by
      rw [Assembly.map_fst_column hrows hc, hdescribes.names, List.mem_filter]
      refine ⟨hp, ?_⟩
      rw [Assembly.arrayOf?, hname]
      simp [hget]
    obtain ⟨s, hmem, hs⟩ := OrderedMap.exists_get?_ofList hkey
    obtain ⟨series, htaken, hseries⟩ := Assembly.mem_column hmem
    -- Two entries under one name were resolved and sliced alike.
    obtain ⟨name', a', hname', hget', hslices⟩ := hdescribes.draws _ htaken
    cases hname.symm.trans hname'
    cases hget.symm.trans hget'
    obtain ⟨t, ht, hblock⟩ := (Assembly.getElem?_slices hslices).2 c hc
    cases hseries.symm.trans ht
    exact ⟨_, s, hchain c hc, hs, hblock⟩

/-- Four draws of two numbers, not all of them finite. -/
def pairedDraws : DrawArray where
  values := #[⟨1⟩, ⟨2⟩, ⟨3⟩, .nan, ⟨5⟩, ⟨6⟩, ⟨7⟩, .infinity true]
  totalDraws := 4
  dim := some 2
  size_eq := rfl

/-- Two chains of two draws.  One name is asked for twice and one has no
variable; the draws that are no numbers stay at their place. -/
theorem assemble_places_paired_draws :
    ∃ result,
      (assemble ["beta[2]", "sigma", "theta", "beta[2]", "beta"]
        (.ofList [("beta", pairedDraws), ("theta", .scalar [⟨1⟩, ⟨2⟩, ⟨3⟩, ⟨4⟩])])
        { chains := 2, drawsPerChain := 2 } {}).value = .ok result ∧
      result.chains.length = 2 ∧ result.omitted = ["sigma"] ∧
      (∀ chain ∈ result.chains, chain.keys = ["beta[2]", "theta", "beta"]) ∧
      ∃ chain series, result.chains[1]? = some chain ∧ chain.get? "beta[2]" = some series ∧
        series.IsBlock pairedDraws (some 2) (1 * 2) 2 := by
  obtain ⟨result, h⟩ : ∃ result,
      (assemble ["beta[2]", "sigma", "theta", "beta[2]", "beta"]
        (.ofList [("beta", pairedDraws), ("theta", .scalar [⟨1⟩, ⟨2⟩, ⟨3⟩, ⟨4⟩])])
        { chains := 2, drawsPerChain := 2 } {}).value = .ok result := ⟨_, rfl⟩
  obtain ⟨hlength, -, hkeys, hdraws, homitted⟩ := assemble_places_draws h
  refine ⟨result, h, hlength, homitted.trans (by decide), ?_, ?_⟩
  · intro chain hchain
    exact (hkeys chain hchain).trans (by decide)
  · exact hdraws "beta[2]" (by simp) _ pairedDraws rfl rfl 1 (by decide)

end ReferenceDraws
