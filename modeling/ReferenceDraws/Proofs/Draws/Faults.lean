import ReferenceDraws.Proofs.Draws.Assembly

/-!
# When an assembly fails

Which requests an assembly refuses, and whose fault it reports.

* One array.  `ChainLayout.Misfit` lists the ways in which an array does not
  fit a layout and an index.  `split_eq_error_iff` says that a chain is
  refused exactly then, and the number of the chain plays no part in it.
* The walk.  `collect_eq_error_iff` says that the walk ends with the fault of
  the first request that has one.
* The result.  `Offence` is what an assembly that may leave parameters out
  refuses, and `assemble_blames_first_offender` says when it fails and how.
-/

namespace ReferenceDraws

namespace ChainLayout

/-! ## One array -/

/-- Draws divide into blocks of all chains: a block is not empty, its size
fits a word, and the draws are a positive multiple of it. -/
def Divides (chains drawsPerChain : UInt64) (totalDraws : Nat) : Prop :=
  chains.toNat * drawsPerChain.toNat ≠ 0 ∧ chains.toNat * drawsPerChain.toNat ≤ maxWord ∧
    totalDraws ≠ 0 ∧ chains.toNat * drawsPerChain.toNat ∣ totalDraws

instance (chains drawsPerChain : UInt64) (totalDraws : Nat) :
    Decidable (Divides chains drawsPerChain totalDraws) :=
  inferInstanceAs (Decidable (_ ∧ _ ∧ _ ∧ _))

theorem divides_iff {chains drawsPerChain : UInt64} {totalDraws : Nat} :
    Divides chains drawsPerChain totalDraws ↔
      ∃ n, blockSize? chains drawsPerChain = some n ∧ totalDraws ≠ 0 ∧ totalDraws % n = 0 := by
  constructor
  · rintro ⟨hpos, hle, htotal, hdvd⟩
    exact ⟨_, blockSize?_eq_some_iff.2 ⟨rfl, hpos, hle⟩, htotal, Nat.mod_eq_zero_of_dvd hdvd⟩
  · rintro ⟨n, hblock, htotal, hmod⟩
    obtain ⟨rfl, hpos, hle⟩ := blockSize?_eq_some_iff.1 hblock
    exact ⟨hpos, hle, htotal, Nat.dvd_of_mod_eq_zero hmod⟩

/-- Where draws do not divide into blocks, no chain has a place. -/
theorem bounds_of_not_divides {totalDraws : Nat} {chain chains drawsPerChain : UInt64}
    (h : ¬ Divides chains drawsPerChain totalDraws) :
    bounds totalDraws chain chains drawsPerChain =
      .error (.layout totalDraws chains drawsPerChain) := by
  unfold bounds
  cases hblock : blockSize? chains drawsPerChain with
  | none => rfl
  | some n =>
    have hinvalid : (totalDraws ≠ 0 && totalDraws % n = 0) = false := by
      rw [Bool.eq_false_iff]
      intro hvalid
      rw [Bool.and_eq_true, decide_eq_true_eq, decide_eq_true_eq] at hvalid
      exact h (divides_iff.2 ⟨n, hblock, hvalid⟩)
    simp only [hinvalid]
    rfl

/-- Where they do, a chain past the last has no place. -/
theorem bounds_of_le {totalDraws : Nat} {chain chains drawsPerChain : UInt64}
    (h : Divides chains drawsPerChain totalDraws) (hchain : chains ≤ chain) :
    bounds totalDraws chain chains drawsPerChain = .error (.noChain chain chains) := by
  obtain ⟨n, hblock, htotal, hmod⟩ := divides_iff.1 h
  unfold bounds
  simp [hblock, htotal, hmod, hchain]

/-- The ways in which an array does not fit a layout of chains and an index:
its draws do not divide, or else the index picks an element that its rows do
not have. -/
inductive Misfit (a : DrawArray) (chains drawsPerChain : UInt64) (index : Option UInt64) :
    ShapeFault → Prop
  | layout (h : ¬ Divides chains drawsPerChain a.totalDraws) :
    Misfit a chains drawsPerChain index (.layout a.totalDraws chains drawsPerChain)
  | indexOnScalar {i : UInt64} (h : Divides chains drawsPerChain a.totalDraws)
    (hdim : a.dim = none) (hindex : index = some i) :
    Misfit a chains drawsPerChain index (.indexOnScalar i)
  | indexBounds {i : UInt64} {dim : Nat} (h : Divides chains drawsPerChain a.totalDraws)
    (hdim : a.dim = some dim) (hindex : index = some i) (hbound : dim < i.toNat) :
    Misfit a chains drawsPerChain index (.indexBounds i dim)

variable {a : DrawArray} {chain chains drawsPerChain : UInt64} {index : Option UInt64}
  {fault : ShapeFault}

/-- Where draws divide into blocks, an index is refused by the shape of the
array alone. -/
theorem split_eq_error_iff_of_divides (hdivides : Divides chains drawsPerChain a.totalDraws)
    (hchain : chain < chains) (hindex : index ≠ some 0) :
    split a chain chains drawsPerChain index = .error fault ↔
      Misfit a chains drawsPerChain index fault := by
  have hbounds := bounds_eq_ok_iff.2 ⟨divides_iff.1 hdivides, hchain, rfl⟩
  rw [split, hbounds, ok_bind]
  constructor
  · intro h
    cases hdim : a.dim with
    | none =>
      cases index with
      | none =>
        simp only [hdim] at h
        cases h
      | some i =>
        simp only [hdim] at h
        cases h
        exact .indexOnScalar hdivides hdim rfl
    | some dim =>
      cases index with
      | none =>
        simp only [hdim] at h
        cases h
      | some i =>
        simp only [hdim] at h
        split at h
        · rename_i hbad
          cases h
          have hbound : dim < i.toNat := hbad.resolve_left fun h0 => hindex (congrArg some h0)
          exact .indexBounds hdivides hdim rfl hbound
        · cases h
  · intro h
    cases h with
    | layout h => exact absurd hdivides h
    | indexOnScalar _ hdim hi =>
      simp only [hdim, hi]
      rfl
    | indexBounds _ hdim hi hbound =>
      simp only [hdim, hi, if_pos (Or.inr hbound)]
      rfl

/-- Every chain is refused for the same reason, if it is refused. -/
theorem split_eq_error_iff (hchain : chain < chains) (hindex : index ≠ some 0) :
    split a chain chains drawsPerChain index = .error fault ↔
      Misfit a chains drawsPerChain index fault := by
  by_cases hdivides : Divides chains drawsPerChain a.totalDraws
  · exact split_eq_error_iff_of_divides hdivides hchain hindex
  · rw [split, bounds_of_not_divides hdivides, error_bind]
    constructor
    · intro h
      cases h
      exact .layout hdivides
    · intro h
      cases h with
      | layout _ => rfl
      | indexOnScalar h => exact absurd h hdivides
      | indexBounds h => exact absurd h hdivides

end ChainLayout

namespace Assembly

open ChainLayout (Divides Misfit split_eq_error_iff)

theorem exists_of_slicesFrom_eq_error {a : DrawArray} {chains drawsPerChain : UInt64}
    {index : Option UInt64} {fault : ShapeFault} {count start : Nat}
    (h : slicesFrom a chains drawsPerChain index count start = .error fault) :
    ∃ j < count,
      ChainLayout.split a (UInt64.ofNat (start + j)) chains drawsPerChain index =
        .error fault := by
  induction count generalizing start with
  | zero => cases h
  | succ count ih =>
    unfold slicesFrom at h
    cases hfirst : ChainLayout.split a (UInt64.ofNat start) chains drawsPerChain index with
    | error e =>
      rw [hfirst, error_bind] at h
      cases h
      exact ⟨0, Nat.succ_pos count, hfirst⟩
    | ok s =>
      rw [hfirst, ok_bind] at h
      cases hrest : slicesFrom a chains drawsPerChain index count (start + 1) with
      | ok rest =>
        rw [hrest, ok_bind] at h
        cases h
      | error e =>
        rw [hrest, error_bind] at h
        cases h
        obtain ⟨j, hj, hsplit⟩ := ih hrest
        refine ⟨j + 1, Nat.succ_lt_succ hj, ?_⟩
        rwa [show start + (j + 1) = start + 1 + j by omega]

/-- The first chain of several already tells whether an array fits. -/
theorem slices_eq_error_iff {a : DrawArray} {config : RunConfig} {index : Option UInt64}
    {fault : ShapeFault} (hchains : 1 ≤ config.chains.toNat) (hindex : index ≠ some 0) :
    slices a config index = .error fault ↔
      Misfit a config.chains config.drawsPerChain index fault := by
  have hword : ∀ j < config.chains.toNat, UInt64.ofNat j < config.chains := by
    intro j hj
    rw [UInt64.lt_iff_toNat_lt,
      UInt64.toNat_ofNat_of_lt' (Nat.lt_trans hj config.chains.toNat_lt)]
    exact hj
  constructor
  · intro h
    obtain ⟨j, hj, hsplit⟩ := exists_of_slicesFrom_eq_error h
    rw [Nat.zero_add] at hsplit
    exact (split_eq_error_iff (hword j hj) hindex).1 hsplit
  · intro h
    obtain ⟨count, hcount⟩ := Nat.exists_eq_add_of_le' hchains
    have hfirst := (split_eq_error_iff (hword 0 hchains) hindex).2 h
    rw [slices, hcount, slicesFrom, hfirst, error_bind]

variable {matrix : DrawMatrix} {config : RunConfig} {missing : MissingPolicy}
  {parameters : List String} {parameter : String} {fault : Fault}

/-! ## The walk -/

/-- The walk ends with the fault of the first request that has one. -/
theorem collect_eq_error_iff :
    (collect matrix config missing parameters).value = .error fault ↔
      ∃ before p after, parameters = before ++ p :: after ∧
        (∀ q ∈ before, ∃ draws, request matrix config missing q = .ok draws) ∧
        request matrix config missing p = .error fault := by
  induction parameters with
  | nil =>
    constructor
    · intro h
      cases h
    · rintro ⟨before, p, after, h, -⟩
      cases before <;> cases h
  | cons first rest ih =>
    rw [value_collect_cons]
    cases hfirst : request matrix config missing first with
    | error e =>
      rw [error_bind]
      constructor
      · intro h
        cases h
        exact ⟨[], first, rest, rfl, by simp, hfirst⟩
      · rintro ⟨before, p, after, hsplit, hbefore, hp⟩
        cases before with
        | nil =>
          cases hsplit
          cases hfirst.symm.trans hp
          rfl
        | cons q before =>
          cases hsplit
          obtain ⟨draws, hdraws⟩ := hbefore first List.mem_cons_self
          rw [hfirst] at hdraws
          cases hdraws
    | ok draws =>
      rw [ok_bind, map_eq_error_iff, ih]
      constructor
      · rintro ⟨before, p, after, rfl, hbefore, hp⟩
        refine ⟨first :: before, p, after, rfl, ?_, hp⟩
        intro q hq
        rcases List.mem_cons.1 hq with rfl | hq
        · exact ⟨draws, hfirst⟩
        · exact hbefore q hq
      · rintro ⟨before, p, after, hsplit, hbefore, hp⟩
        cases before with
        | nil =>
          cases hsplit
          rw [hfirst] at hp
          cases hp
        | cons q before =>
          cases hsplit
          exact ⟨before, p, after, rfl, fun q hq => hbefore q (List.mem_cons_of_mem _ hq), hp⟩

/-- The walk ends well exactly when it refuses no request. -/
theorem exists_collect_iff :
    (∃ c, (collect matrix config missing parameters).value = .ok c) ↔
      ∀ p ∈ parameters, ∃ draws, request matrix config missing p = .ok draws := by
  induction parameters with
  | nil =>
    constructor
    · intro _ p hp
      cases hp
    · intro _
      exact ⟨_, rfl⟩
  | cons first rest ih =>
    rw [value_collect_cons]
    constructor
    · rintro ⟨c, h⟩ p hp
      obtain ⟨draws, hdraws, h⟩ := bind_eq_ok_iff.1 h
      obtain ⟨d, hd, -⟩ := map_eq_ok_iff.1 h
      rcases List.mem_cons.1 hp with rfl | hp
      · exact ⟨draws, hdraws⟩
      · exact ih.1 ⟨d, hd⟩ p hp
    · intro h
      obtain ⟨draws, hdraws⟩ := h first List.mem_cons_self
      obtain ⟨d, hd⟩ := ih.2 fun p hp => h p (List.mem_cons_of_mem _ hp)
      rw [hdraws, ok_bind, hd]
      exact ⟨_, rfl⟩

/-- Where the chains can be held, an assembly is its walk with the chains
filled. -/
theorem value_assemble (hroom : config.chains.toNat ≤ maxChains) :
    (assemble parameters matrix config ⟨missing⟩).value =
      (collect matrix config missing parameters).value.map fun c =>
        ⟨chainsOf config.chains.toNat c.taken, c.omitted⟩ := by
  unfold assemble
  dsimp only
  cases (collect matrix config missing parameters).value with
  | error fault => rfl
  | ok c =>
    rw [ok_bind, if_neg (Nat.not_lt.2 hroom)]
    rfl

/-- An assembly gets through the requests before `p` and fails at `p`. -/
def FailsAt (matrix : DrawMatrix) (config : RunConfig) (missing : MissingPolicy)
    (before : List String) (p : String) (fault : Fault) : Prop :=
  (∃ a, (assemble before matrix config ⟨missing⟩).value = .ok a) ∧
    (assemble (before ++ [p]) matrix config ⟨missing⟩).value = .error fault

theorem failsAt_iff (hroom : config.chains.toNat ≤ maxChains) {before : List String} :
    FailsAt matrix config missing before parameter fault ↔
      (∀ q ∈ before, ∃ draws, request matrix config missing q = .ok draws) ∧
        request matrix config missing parameter = .error fault := by
  unfold FailsAt
  simp only [value_assemble hroom, map_eq_error_iff]
  constructor
  · rintro ⟨⟨a, ha⟩, hfault⟩
    obtain ⟨c, hcollect, -⟩ := map_eq_ok_iff.1 ha
    have hbefore := exists_collect_iff.1 ⟨c, hcollect⟩
    refine ⟨hbefore, ?_⟩
    -- The fault is that of some request, and none before the last has one.
    obtain ⟨front, p, back, hsplit, -, hp⟩ := collect_eq_error_iff.1 hfault
    have hmem : p ∈ before ++ [parameter] := by
      rw [hsplit]
      simp
    rcases List.mem_append.1 hmem with hmem | hmem
    · obtain ⟨draws, hdraws⟩ := hbefore p hmem
      rw [hp] at hdraws
      cases hdraws
    · rw [← List.mem_singleton.1 hmem]
      exact hp
  · rintro ⟨hbefore, hp⟩
    obtain ⟨c, hcollect⟩ := exists_collect_iff.2 hbefore
    exact ⟨⟨_, map_eq_ok_iff.2 ⟨c, hcollect, rfl⟩⟩,
      collect_eq_error_iff.2 ⟨before, parameter, [], rfl, hbefore, hp⟩⟩

/-- The chains come from the parameters taken alone. -/
theorem map_chains_assemble (hroom : config.chains.toNat ≤ maxChains) :
    (assemble parameters matrix config ⟨missing⟩).value.map Assembly.chains =
      ((collect matrix config missing parameters).value.map Collected.taken).map
        (chainsOf config.chains.toNat) := by
  rw [value_assemble hroom]
  cases (collect matrix config missing parameters).value with
  | error fault => rfl
  | ok c => rfl

/-! ## The result -/

/-- What is refused of a request where parameters may be left out: a name that
is malformed, or draws that do not fit. -/
inductive Offence (matrix : DrawMatrix) (config : RunConfig) (parameter : String) : Fault → Prop
  | malformed {name : ParameterName.Malformed}
    (hname : ParameterName.resolve parameter = .error name) :
    Offence matrix config parameter (.malformed name)
  | misshapen {name : ParameterName} {a : DrawArray} {shape : ShapeFault}
    (hname : ParameterName.resolve parameter = .ok name)
    (harray : matrix.get? name.base = some a)
    (hmisfit : Misfit a config.chains config.drawsPerChain name.index shape) :
    Offence matrix config parameter (.misshapen parameter shape)

theorem request_omit_eq_error_iff (hchains : 1 ≤ config.chains.toNat) :
    request matrix config .omit parameter = .error fault ↔
      Offence matrix config parameter fault := by
  unfold request
  cases hname : ParameterName.resolve parameter with
  | error m =>
    constructor
    · intro h
      cases h
      exact .malformed hname
    · intro h
      cases h with
      | malformed hm =>
        cases hname.symm.trans hm
        rfl
      | misshapen hok => cases hname.symm.trans hok
  | ok name =>
    cases hget : matrix.get? name.base with
    | none =>
      simp only [hget]
      constructor
      · intro h
        cases h
      · intro h
        cases h with
        | malformed hm => cases hname.symm.trans hm
        | misshapen hok harray =>
          cases hname.symm.trans hok
          cases hget.symm.trans harray
    | some a =>
      simp only [hget]
      rw [mapError_eq_error_iff]
      simp only [map_eq_error_iff, slices_eq_error_iff hchains name.index_ne_zero]
      constructor
      · rintro ⟨shape, hmisfit, rfl⟩
        exact .misshapen hname hget hmisfit
      · intro h
        cases h with
        | malformed hm => cases hname.symm.trans hm
        | misshapen hok harray hmisfit =>
          cases hname.symm.trans hok
          cases hget.symm.trans harray
          exact ⟨_, hmisfit, rfl⟩

theorem exists_request_omit_eq_ok_iff (hchains : 1 ≤ config.chains.toNat) :
    (∃ draws, request matrix config .omit parameter = .ok draws) ↔
      ∀ fault, ¬ Offence matrix config parameter fault := by
  simp only [← request_omit_eq_error_iff hchains]
  cases request matrix config .omit parameter <;> simp

/-- Whether a request is a name whose variable has no draws. -/
def isAbsent (matrix : DrawMatrix) (parameter : String) : Bool :=
  match ParameterName.resolve parameter with
  | .ok name => (matrix.get? name.base).isNone
  | .error _ => false

theorem isAbsent_iff : isAbsent matrix parameter = true ↔
    ∃ name, ParameterName.resolve parameter = .ok name ∧ matrix.get? name.base = none := by
  unfold isAbsent
  cases ParameterName.resolve parameter <;> simp

theorem request_omit_of_isAbsent (h : isAbsent matrix parameter = true) :
    request matrix config .omit parameter = .ok none := by
  obtain ⟨name, hname, hget⟩ := isAbsent_iff.1 h
  simp only [request, hname, hget]

/-- Entering a request does the same to equal parameters, whatever has been
left out. -/
theorem map_taken_enter {x y : Except Fault Collected} (draws : Option (List Series))
    (h : x.map Collected.taken = y.map Collected.taken) :
    (x.map (Collected.enter parameter draws)).map Collected.taken =
      (y.map (Collected.enter parameter draws)).map Collected.taken := by
  cases x with
  | error e =>
    cases y with
    | error d => exact h
    | ok d => cases h
  | ok c =>
    cases y with
    | error d => cases h
    | ok d =>
      have htaken : c.taken = d.taken := Except.ok.inj h
      cases draws <;> simp [Except.map, Collected.enter, htaken]

/-- The walk takes the same parameters if the absent ones are not asked for. -/
theorem taken_collect_filter (matrix : DrawMatrix) (config : RunConfig)
    (parameters : List String) :
    (collect matrix config .omit (parameters.filter (!isAbsent matrix ·))).value.map
        Collected.taken =
      (collect matrix config .omit parameters).value.map Collected.taken := by
  induction parameters with
  | nil => rfl
  | cons p rest ih =>
    by_cases habsent : isAbsent matrix p = true
    · rw [List.filter_cons_of_neg (by simp [habsent]), ih, value_collect_cons,
        request_omit_of_isAbsent habsent, ok_bind]
      cases (collect matrix config .omit rest).value <;> rfl
    · rw [List.filter_cons_of_pos (by simp [habsent]), value_collect_cons, value_collect_cons]
      cases request matrix config .omit p with
      | error fault => rfl
      | ok draws => exact map_taken_enter draws ih

/-- How the failure of a refused request reads: as that of its malformed name,
or as one of shape with the request under `parameter`.  A layout that does not
divide the draws is reported before an index that picks no element. -/
def ReportedAs (matrix : DrawMatrix) (config : RunConfig) (parameter : String) (f : Failure) :
    Prop :=
  (∃ name, ParameterName.resolve parameter = .error name ∧ f = name.failure) ∨
    ∃ name a, ParameterName.resolve parameter = .ok name ∧ matrix.get? name.base = some a ∧
      f.family = .shapeMismatch ∧ f.report.context.get? "parameter" = some parameter ∧
      f.report.code =
        if ¬ Divides config.chains config.drawsPerChain a.totalDraws then
          "pdbref_draws.chain_layout"
        else if a.dim = none then "pdbref_draws.index_on_scalar"
        else "pdbref_draws.index_bounds"

theorem reportedAs_of_offence (h : Offence matrix config parameter fault) :
    ReportedAs matrix config parameter fault.failure := by
  cases h with
  | malformed hname => exact .inl ⟨_, hname, rfl⟩
  | @misshapen name a shape hname harray hmisfit =>
    refine .inr ⟨name, a, hname, harray, rfl, SortedMap.get?_insert_self _ _ _, ?_⟩
    cases hmisfit with
    | layout h => rw [if_pos h]; rfl
    | indexOnScalar h hdim => rw [if_neg (not_not_intro h), if_pos hdim]; rfl
    | indexBounds h hdim => rw [if_neg (not_not_intro h), if_neg (by simp [hdim])]; rfl

/-- An assembly that fails has the fault of the first request at fault. -/
theorem assemble_omit_eq_error_iff (hchains : 1 ≤ config.chains.toNat)
    (hroom : config.chains.toNat ≤ maxChains) :
    (assemble parameters matrix config ⟨.omit⟩).value = .error fault ↔
      ∃ before p after, parameters = before ++ p :: after ∧
        (∀ q ∈ before, ∀ f, ¬ Offence matrix config q f) ∧ Offence matrix config p fault := by
  rw [value_assemble hroom, map_eq_error_iff, collect_eq_error_iff]
  simp only [exists_request_omit_eq_ok_iff hchains, request_omit_eq_error_iff hchains]

/-- A request at fault makes the assembly fail, wherever it stands. -/
theorem exists_fault_of_offence (hchains : 1 ≤ config.chains.toNat)
    (hroom : config.chains.toNat ≤ maxChains) (hmem : parameter ∈ parameters)
    (h : Offence matrix config parameter fault) :
    ∃ first, (assemble parameters matrix config ⟨.omit⟩).value = .error first := by
  rw [value_assemble hroom]
  simp only [map_eq_error_iff]
  cases hcollect : (collect matrix config .omit parameters).value with
  | error first => exact ⟨first, rfl⟩
  | ok c =>
    have hok := exists_collect_iff.1 ⟨c, hcollect⟩ parameter hmem
    exact absurd h ((exists_request_omit_eq_ok_iff hchains).1 hok fault)

end Assembly

/-- Where parameters may be left out and the chains can be held, an assembly
fails exactly if a request is refused on its own, and then with the fault of
the first one that is.  Requests whose variable has no draws do not matter. -/
theorem assemble_blames_first_offender {parameters : List String} {matrix : DrawMatrix}
    {config : RunConfig} (hchains : 1 ≤ config.chains.toNat)
    (hroom : config.chains.toNat ≤ Assembly.maxChains) :
    ((∃ fault, (assemble parameters matrix config ⟨.omit⟩).value = .error fault) ↔
      ∃ p ∈ parameters, ∃ fault, Assembly.Offence matrix config p fault) ∧
    (∀ fault, (assemble parameters matrix config ⟨.omit⟩).value = .error fault ↔
      ∃ before p after, parameters = before ++ p :: after ∧
        (∀ q ∈ before, ∀ f, ¬ Assembly.Offence matrix config q f) ∧
        Assembly.Offence matrix config p fault) ∧
    (∀ p fault, Assembly.Offence matrix config p fault →
      Assembly.ReportedAs matrix config p fault.failure) ∧
    (assemble (parameters.filter (!Assembly.isAbsent matrix ·)) matrix config ⟨.omit⟩).value.map
        Assembly.chains =
      (assemble parameters matrix config ⟨.omit⟩).value.map Assembly.chains := by
  refine ⟨⟨?_, ?_⟩, fun fault => Assembly.assemble_omit_eq_error_iff hchains hroom,
    fun p fault => Assembly.reportedAs_of_offence, ?_⟩
  · rintro ⟨fault, hfault⟩
    obtain ⟨before, p, after, rfl, -, hp⟩ :=
      (Assembly.assemble_omit_eq_error_iff hchains hroom).1 hfault
    exact ⟨p, by simp, fault, hp⟩
  · rintro ⟨p, hp, fault, hfault⟩
    exact Assembly.exists_fault_of_offence hchains hroom hp hfault
  · rw [Assembly.map_chains_assemble hroom, Assembly.map_chains_assemble hroom,
      Assembly.taken_collect_filter]

/-- Requests of every kind: one that is taken, one whose variable is absent, an
index past the last, draws that do not divide, and a malformed name. -/
def mixedRequests : List String := ["theta", "sigma[2]", "beta[3]", "mu", "beta[0]"]

/-- The draws for these requests. -/
def mixedMatrix : DrawMatrix :=
  .ofList [("beta", pairedDraws), ("mu", .scalar [⟨1⟩, ⟨2⟩, ⟨3⟩]),
    ("theta", .scalar [⟨1⟩, ⟨2⟩, ⟨3⟩, ⟨4⟩])]

/-- Two chains of two draws. -/
def twoByTwo : RunConfig := { chains := 2, drawsPerChain := 2 }

/-- Of the three requests at fault the index past the last comes first. -/
theorem assemble_blames_index_past_last :
    (assemble mixedRequests mixedMatrix twoByTwo ⟨.omit⟩).value =
        .error (.misshapen "beta[3]" (.indexBounds 3 2)) ∧
      (∃ before after, mixedRequests = before ++ "beta[3]" :: after ∧
        ∀ q ∈ before, ∀ f, ¬ Assembly.Offence mixedMatrix twoByTwo q f) ∧
      Assembly.ReportedAs mixedMatrix twoByTwo "beta[3]"
        (Assembly.Fault.misshapen "beta[3]" (.indexBounds 3 2)).failure := by
  obtain ⟨-, hfirst, hreported, -⟩ :=
    @assemble_blames_first_offender mixedRequests mixedMatrix twoByTwo (by decide) (by decide)
  have hvalue : (assemble mixedRequests mixedMatrix twoByTwo ⟨.omit⟩).value =
      .error (.misshapen "beta[3]" (.indexBounds 3 2)) := rfl
  obtain ⟨before, p, after, hsplit, hbefore, hp⟩ := (hfirst _).1 hvalue
  have hreport := hreported p _ hp
  cases hp
  exact ⟨hvalue, ⟨before, after, hsplit, hbefore⟩, hreport⟩

end ReferenceDraws
