import GoDDS.Lib.Go

/-!
# Environment variables for pods

The webhook adds the variables of a participant to the containers of a pod, by a JSON Patch.
-/

namespace GoDDS.Operator

open Go List

structure EnvVar where
  name : Str
  value : Str

/-- `other`: the fields that are neither read nor written here. -/
structure Container (α : Type) where
  name : Str
  env : List EnvVar
  other : α

structure DDSParticipantSpec where
  domain : Int
  qosProfile : Str
  transportKind : Str
  transportPort : Int
  peers : List Str

structure DDSDomainSpec where
  domainID : Int

def itoa (n : Int) : Str := str (toString n)

def computeEnv : Option DDSParticipantSpec → Option DDSDomainSpec → List EnvVar
  | none, _ => []
  | some p, domain =>
    let domainID := if p.domain = 0 then (domain.map (·.domainID)).getD p.domain else p.domain
    ⟨str "DDS_DOMAIN_ID", itoa domainID⟩ ::
      ((if p.qosProfile ≠ [] then [⟨str "DDS_QOS_PROFILE", p.qosProfile⟩] else []) ++
      (if p.transportKind ≠ [] then [⟨str "DDS_TRANSPORT", p.transportKind⟩] else []) ++
      (if p.transportPort ≠ 0 then [⟨str "DDS_TRANSPORT_PORT", itoa p.transportPort⟩] else []) ++
      if p.peers ≠ [] then [⟨str "DDS_PEERS", (str ",").intercalate p.peers⟩] else [])

variable {α : Type}

/-- `trimSpace` is `strings.TrimSpace`. -/
def targetContainers (trimSpace : Str → Str) (annotationValue : Str)
    (containers : List (Container α)) : List Str :=
  if annotationValue = [] ∨ annotationValue = str "all" then containers.map (·.name)
  else ((annotationValue.splitOn 44).map trimSpace).filter (· ≠ [])

/-- `add` of the variables of container `i`, or of one variable at the end of them. -/
inductive PatchOp where
  | env (i : Nat) (value : List EnvVar)
  | envAppend (i : Nat) (value : EnvVar)

def missing (env : List EnvVar) (c : Container α) : List EnvVar :=
  env.filter fun e => e.name ∉ c.env.map EnvVar.name

def containerOps (targets : List Str) (env : List EnvVar) (i : Nat) (c : Container α) : List PatchOp :=
  if c.name ∉ targets ∨ missing env c = [] then []
  else if c.env = [] then [.env i (missing env c)]
  else (missing env c).map (.envAppend i)

def buildPatch (containers : List (Container α)) (targets : List Str) (env : List EnvVar) :
    List PatchOp :=
  (containers.mapIdx (containerOps targets env)).flatten

/-- RFC 6902. A list of variables without elements is not there: there is nothing to append to. -/
def PatchOp.apply (containers : List (Container α)) : PatchOp → Option (List (Container α))
  | env i value => containers[i]?.map fun c => containers.set i { c with env := value }
  | envAppend i value => containers[i]?.bind fun c =>
      if c.env = [] then none else some (containers.set i { c with env := c.env ++ [value] })

def applyPatch (ops : List PatchOp) (containers : List (Container α)) :
    Option (List (Container α)) :=
  ops.foldlM PatchOp.apply containers

/-- What is asked for: a target container has its own variables, then those of `env` under whose
name it has none. -/
def injected (targets : List Str) (env : List EnvVar) (c : Container α) : Container α :=
  if c.name ∈ targets then
    { c with env := c.env ++ env.filter fun e => ¬ ∃ own ∈ c.env, own.name = e.name }
  else c

variable {c : Container α} {done rest containers : List (Container α)} {env vs : List EnvVar}
  {targets : List Str}

theorem missing_eq : missing env c = env.filter fun e => ¬ ∃ own ∈ c.env, own.name = e.name := by
  simp [missing]

theorem applyPatch_append (hne : c.env ≠ []) :
    applyPatch (vs.map (.envAppend done.length)) (done ++ c :: rest) =
      some (done ++ { c with env := c.env ++ vs } :: rest) := by
  induction vs generalizing c with
  | nil => simp [applyPatch]
  | cons v vs ih =>
    have hstep := ih (c := { c with env := c.env ++ [v] }) (by simp)
    simp only [applyPatch, map_cons, foldlM_cons] at hstep ⊢
    simpa [PatchOp.apply, hne] using hstep

theorem applyPatch_container :
    applyPatch (containerOps targets env done.length c) (done ++ c :: rest) =
      some (done ++ injected targets env c :: rest) := by
  unfold containerOps injected
  rw [← missing_eq]
  by_cases htarget : c.name ∈ targets
  · by_cases hnone : missing env c = []
    · simp [applyPatch, htarget, hnone]
    · rw [if_neg (by simp [htarget, hnone]), if_pos htarget]
      split_ifs with hempty
      · simp [applyPatch, PatchOp.apply, hempty]
      · exact applyPatch_append hempty
  · simp [applyPatch, htarget]

theorem applyPatch_mapIdx : applyPatch ((containers.mapIdx fun i c =>
        containerOps targets env (done.length + i) c).flatten) (done ++ containers) =
      some (done ++ containers.map (injected targets env)) := by
  induction containers generalizing done with
  | nil => simp [applyPatch]
  | cons c rest ih =>
    have hrest : applyPatch _ ((done ++ [injected targets env c]) ++ rest) = _ := ih
    have hhead : applyPatch _ (done ++ c :: rest) = some (done ++ injected targets env c :: rest) :=
      applyPatch_container
    simp only [applyPatch] at hhead hrest ⊢
    simp only [mapIdx_cons, flatten_cons, foldlM_append, Nat.add_zero, hhead]
    simpa [Nat.add_assoc, Nat.add_comm 1] using hrest

theorem missing_injected (h : c.name ∈ targets) : missing env (injected targets env c) = [] := by
  rw [missing, filter_eq_nil_iff]
  intro e he
  by_cases hold : e.name ∈ c.env.map EnvVar.name
  · simp_all [injected]
  · have hnew : e ∈ missing env c := mem_filter.2 ⟨he, by simpa using hold⟩
    simp only [injected, ← missing_eq, h, if_true, map_append, mem_append]
    simpa using fun _ => ⟨e, hnew, rfl⟩

/-- The patch appends to the variables of each target container those it does not define, changes
nothing else, and a second patch is empty. -/
theorem injection_idempotent (trimSpace : Str → Str) (annotationValue : Str)
    (containers : List (Container α)) (participant : Option DDSParticipantSpec)
    (domain : Option DDSDomainSpec) :
    let targets := targetContainers trimSpace annotationValue containers
    let env := computeEnv participant domain
    let patched := containers.map (injected targets env)
    applyPatch (buildPatch containers targets env) containers = some patched ∧
      buildPatch patched (targetContainers trimSpace annotationValue patched) env = [] := by
  intro targets env patched
  have hname : ∀ c : Container α, (injected targets env c).name = c.name := fun c => by
    unfold injected
    split_ifs <;> rfl
  have hnames : patched.map (·.name) = containers.map (·.name) := by
    simp [patched, Function.comp_def, hname]
  have htargets : targetContainers trimSpace annotationValue patched = targets := by
    rw [targetContainers, hnames]
    rfl
  constructor
  · have hall : applyPatch _ ([] ++ containers) = some ([] ++ patched) := applyPatch_mapIdx
    simpa [buildPatch] using hall
  · rw [htargets, buildPatch, flatten_eq_nil_iff]
    intro ops hops
    obtain ⟨i, hi, rfl⟩ := mem_mapIdx.1 hops
    simp only [patched, getElem_map, containerOps, hname]
    split_ifs with hskip
    · rfl
    all_goals
      rw [not_or, not_not] at hskip
      exact absurd (missing_injected hskip.1) hskip.2

end GoDDS.Operator
