import CodeIndex.Config.Reader
/-!
# What the environment overrides

Three limits of the scheduler can be given by a variable of the environment and by a member of the
configuration file, and have a built-in value. Which of the three counts depends on one thing
(`get_of_load`): a file with a section for the scheduler settles all three limits, by its members or
by the built-in values, and the variables count only for a file without one.

So a variable does not win over every file. `environment_overrides_iff` tells exactly when variables
do, and `not_overridden_other_member` is a file that does not give a limit and still keeps the
variable of that limit from counting, because it gives another one.

What a file gives is looked up here in its document, member by member, without reading the rest.
-/

namespace CodeIndex.Config

open CodeIndex.Yaml CodeIndex.Yaml.Reads

/-! ### Limits with a variable -/

/-- A limit that a variable of the environment can give. -/
inductive SharedLimit where
  | concurrentTasks
  | batchSize
  | fileWorkers
  deriving DecidableEq, Repr

namespace SharedLimit

def variableName : SharedLimit → String
  | concurrentTasks => "CODEINTEL_MAX_TASKS"
  | batchSize => "CODEINTEL_BATCH_SIZE"
  | fileWorkers => "CODEINTEL_WORKERS"

/-- The member of the scheduler's section that gives the limit. -/
def memberName : SharedLimit → String
  | concurrentTasks => "max_concurrent_tasks"
  | batchSize => "batch_size"
  | fileWorkers => "file_workers"

def get (p : Pipeline) : SharedLimit → Nat
  | concurrentTasks => p.maxConcurrentTasks
  | batchSize => p.batchSize
  | fileWorkers => p.fileWorkers

/-- The value without a variable and without a member. -/
def builtin (limit : SharedLimit) : Nat :=
  limit.get {}

end SharedLimit

/-! ### What a file gives -/

/-- The value of a member of a mapping. -/
def member? (n : Yaml.Node) (name : String) : Option Yaml.Node :=
  match n with
  | .mapping entries => (entries.find? fun entry => (text entry.1).toOption == some name).map (·.2)
  | _ => none

/-- The document in a file. No file is like one in which nothing is written. -/
def document (file : Option (List UInt8)) : Yaml.Node :=
  (file.bind fun bytes =>
    (String.fromUTF8? ⟨bytes.toArray⟩).bind fun s =>
      (Yaml.Node.ofText? s).toOption.join).getD .empty

/-- The section of a file for the scheduler. -/
def section? (file : Option (List UInt8)) : Option Yaml.Node :=
  member? (document file) "pipeline"

/-- The number that a file gives for a limit. -/
def given? (file : Option (List UInt8)) (limit : SharedLimit) : Option Nat :=
  ((section? file).bind (member? · limit.memberName)).bind fun n => (number n).toOption

/-- The limit is the number in its variable, if that holds a positive one. If it holds no number,
the limit is what the file gives, or else the built-in value. -/
structure Overrides (env : Environment) (file : Option (List UInt8)) (config : Config)
    (limit : SharedLimit) : Prop where
  of_variable : ∀ n, 0 < n → env.number? limit.variableName = some n → limit.get config.pipeline = n
  of_file : env.number? limit.variableName = none →
    limit.get config.pipeline = (given? file limit).getD limit.builtin

/-! ### Reading members -/

/-- A sequence of two readings succeeds when both do. -/
theorem bind_eq_ok {ε α β : Type} {x : Except ε α} {f : α → Except ε β} {b : β} :
    (x >>= f) = .ok b ↔ ∃ a, x = .ok a ∧ f a = .ok b := by
  cases x with
  | error e => exact ⟨nofun, fun ⟨a, ha, _⟩ => nomatch ha⟩
  | ok a => exact ⟨fun h => ⟨a, rfl, h⟩, fun ⟨a', ha, h⟩ => by cases ha; exact h⟩

theorem eq_ok_of_toOption {ε α : Type} {x : Except ε α} {a : α} (h : x.toOption = some a) :
    x = .ok a := by
  cases x with
  | error e => cases h
  | ok a' =>
    cases h
    rfl

/-- Of some entries that are read as members, one with a name is found where it was. -/
theorem lookup_of_mapM {entries : List (Yaml.Node × Yaml.Node)} {ms : Members} (name : String)
    (h : entries.mapM (fun entry => do return (← text entry.1, entry.2)) = .ok ms) :
    ms.lookup name
      = (entries.find? fun entry => (text entry.1).toOption == some name).map (·.2) := by
  induction entries generalizing ms with
  | nil =>
    obtain rfl : [] = ms := by simpa [pure, Except.pure] using h
    rfl
  | cons entry entries ih =>
    rw [List.mapM_cons] at h
    obtain ⟨m, hm, h⟩ := bind_eq_ok.mp h
    obtain ⟨rest, hrest, h⟩ := bind_eq_ok.mp h
    obtain ⟨key, hkey, hm⟩ := bind_eq_ok.mp hm
    cases hm
    cases h
    have hread : (text entry.1).toOption = some key := by
      rw [hkey]
      rfl
    rw [List.find?_cons, hread, List.lookup_cons, ih hrest]
    by_cases hname : key = name
    · subst hname
      simp
    · have hsome : (some key == some name) = false := by simpa using hname
      have hkey : (name == key) = false := by simpa using fun h : name = key => hname h.symm
      rw [hsome, hkey]

/-- Members that were read are those of the mapping. -/
theorem lookup_members {known : List String} {n : Yaml.Node} {ms : Members} (name : String)
    (h : members known n = .ok ms) : ms.lookup name = member? n name := by
  unfold members at h
  split at h
  · obtain ⟨ms', hms', h⟩ := bind_eq_ok.mp h
    split at h
    · cases h
    · cases h
      exact lookup_of_mapM name hms'
  · cases h
    rfl
  · cases h

/-- A member is read where it is given, and else has its built-in value. -/
theorem getD_members {α : Type} {known : List String} {n : Yaml.Node} {ms : Members} {name : String}
    {read : Reads α} {builtin a : α} (hms : members known n = .ok ms)
    (h : ms.getD name read builtin = .ok a) :
    match member? n name with
    | some value => read value = .ok a
    | none => a = builtin := by
  rw [Members.getD, lookup_members name hms] at h
  cases hmember : member? n name with
  | none =>
    rw [hmember] at h
    cases h
    rfl
  | some value =>
    rw [hmember] at h
    exact h

/-! ### Loading -/

/-- The members of a section for the scheduler are its limits. -/
theorem get_of_read {n : Yaml.Node} {p : Pipeline} (h : Pipeline.read n = .ok p)
    (limit : SharedLimit) :
    limit.get p
      = ((member? n limit.memberName).bind fun n => (number n).toOption).getD limit.builtin := by
  obtain ⟨ms, hms, h⟩ := bind_eq_ok.mp h
  obtain ⟨tasks, htasks, h⟩ := bind_eq_ok.mp h
  obtain ⟨depth, -, h⟩ := bind_eq_ok.mp h
  obtain ⟨size, hsize, h⟩ := bind_eq_ok.mp h
  obtain ⟨workers, hworkers, h⟩ := bind_eq_ok.mp h
  obtain ⟨retained, -, h⟩ := bind_eq_ok.mp h
  cases h
  have hlimit : ms.getD limit.memberName number limit.builtin = .ok (limit.get
      ⟨tasks, depth, size, workers, retained⟩) := by
    cases limit with
    | concurrentTasks => exact htasks
    | batchSize => exact hsize
    | fileWorkers => exact hworkers
  have hgiven := getD_members hms hlimit
  cases hmember : member? n limit.memberName with
  | none =>
    rw [hmember] at hgiven
    exact hgiven
  | some value =>
    rw [hmember] at hgiven
    rw [Option.bind_some, hgiven]
    rfl

theorem get_ofEnvironment (env : Environment) (limit : SharedLimit) :
    limit.get (.ofEnvironment env) = (env.number? limit.variableName).getD limit.builtin := by
  cases limit <;> rfl

/-- A configuration that passes the check of its limits is not changed by it. -/
theorem eq_of_validated {c config : Config}
    (h : (match c.validated with
      | .ok c => pure c
      | .error cause => throw (Fault.config cause) : Except Fault Config) = .ok config) :
    c = config := by
  cases hc : c.validated with
  | error cause =>
    rw [hc] at h
    cases h
  | ok c' =>
    rw [hc] at h
    cases h
    rw [validated] at hc
    split at hc
    · cases hc
    · cases hc
      rfl

/-- The scheduler's section of a document, if it has one, is read as it stands. -/
theorem pipeline_of_ofNode {env : Environment} {n : Yaml.Node} {config : Config}
    (h : ofNode env n = .ok config) :
    match member? n "pipeline" with
    | some value => Pipeline.read value = .ok config.pipeline
    | none => config.pipeline = .ofEnvironment env := by
  obtain ⟨ms, hms, h⟩ := bind_eq_ok.mp h
  obtain ⟨pipeline, hpipeline, h⟩ := bind_eq_ok.mp h
  obtain ⟨chunking, -, h⟩ := bind_eq_ok.mp h
  obtain ⟨source, -, h⟩ := bind_eq_ok.mp h
  obtain ⟨rules, -, h⟩ := bind_eq_ok.mp h
  cases h
  exact getD_members hms hpipeline

/-- A file that loads holds a document, and what that writes is loaded. -/
theorem ofNode_of_load {env : Environment} {bytes : List UInt8} {config : Config}
    (h : load env (some bytes) = .ok config) :
    ofNode env (document (some bytes)) = .ok config := by
  unfold load at h
  dsimp only at h
  rw [document, Option.bind_some]
  cases hs : String.fromUTF8? ⟨bytes.toArray⟩ with
  | none =>
    rw [hs] at h
    cases h
  | some s =>
    rw [hs] at h
    dsimp only at h
    rw [Option.bind_some]
    cases hread : ofText env s with
    | error cause =>
      rw [hread] at h
      cases h
    | ok c =>
      rw [hread] at h
      obtain rfl := eq_of_validated h
      unfold ofText at hread
      cases hn : Yaml.Node.ofText? s with
      | error problem =>
        rw [hn] at hread
        cases hread
      | ok n =>
        rw [hn] at hread
        exact hread

/-- **Which of the three counts**: the section of a file settles every limit, and without a section
a variable counts before the built-in value. -/
theorem get_of_load {env : Environment} {file : Option (List UInt8)} {config : Config}
    (h : load env file = .ok config) (limit : SharedLimit) :
    limit.get config.pipeline
      = if (section? file).isSome then (given? file limit).getD limit.builtin
        else (env.number? limit.variableName).getD limit.builtin := by
  cases file with
  | none =>
    unfold load at h
    obtain rfl := eq_of_validated h
    exact get_ofEnvironment env limit
  | some bytes =>
    have hpipeline := pipeline_of_ofNode (ofNode_of_load h)
    rw [given?, section?]
    cases hsection : member? (document (some bytes)) "pipeline" with
    | none =>
      rw [hsection] at hpipeline
      dsimp only at hpipeline
      rw [hpipeline]
      exact get_ofEnvironment env limit
    | some value =>
      rw [hsection] at hpipeline
      exact get_of_read hpipeline limit

/-! ### When variables win -/

/-- **Variables win over a file** exactly when it has no section for the scheduler, or that section
leaves every limit with a positive number in its variable at this very number. -/
theorem environment_overrides_iff {env : Environment} {file : Option (List UInt8)}
    {config : Config} (h : load env file = .ok config) :
    (∀ limit, Overrides env file config limit) ↔
      ((section? file).isSome → ∀ limit n, 0 < n → env.number? limit.variableName = some n →
        (given? file limit).getD limit.builtin = n) := by
  have hget := get_of_load h
  constructor
  · intro hoverrides hsection limit n hn hnumber
    have := (hoverrides limit).of_variable n hn hnumber
    rwa [hget, if_pos hsection] at this
  · intro hagree limit
    by_cases hsection : (section? file).isSome
    · refine ⟨fun n hn hnumber => ?_, fun _ => ?_⟩
      · rw [hget, if_pos hsection]
        exact hagree hsection limit n hn hnumber
      · rw [hget, if_pos hsection]
    · have hgiven : given? file limit = none := by
        rw [given?, Option.not_isSome_iff_eq_none.mp hsection]
        rfl
      refine ⟨fun n _ hnumber => ?_, fun hnumber => ?_⟩
      · rw [hget, if_neg hsection, hnumber]
        rfl
      · rw [hget, if_neg hsection, hnumber, hgiven]

/-- A section that repeats what one variable holds, and a variable that holds no number. -/
theorem environment_overrides_iff_agreeing :
    let env : Environment :=
      ⟨fun name =>
        [("CODEINTEL_MAX_TASKS", "+9"), ("CODEINTEL_BATCH_SIZE", "many")].lookup name, none⟩
    let file := some (Text.octets "pipeline:\n  max_concurrent_tasks: 9\n  batch_size: 7\n")
    let config : Config := { pipeline := { maxConcurrentTasks := 9, batchSize := 7 } }
    load env file = .ok config ∧ (section? file).isSome ∧
    ∀ limit, Overrides env file config limit := by
  intro env file config
  have hload : load env file = .ok config := eq_ok_of_toOption (by decide +kernel)
  refine ⟨hload, by decide +kernel, (environment_overrides_iff hload).mpr ?_⟩
  intro _ limit n _ hnumber
  cases limit with
  | concurrentTasks =>
    have hnine : env.number? "CODEINTEL_MAX_TASKS" = some 9 := by decide
    obtain rfl : 9 = n := Option.some.inj (hnine.symm.trans hnumber)
    decide +kernel
  | batchSize =>
    have hnone : env.number? "CODEINTEL_BATCH_SIZE" = none := by decide
    cases hnone.symm.trans hnumber
  | fileWorkers => cases hnumber

/-- A section that gives another limit leaves this one at its built-in value, whatever its variable
holds. -/
theorem not_overridden_other_member :
    let env : Environment := ⟨fun name => [("CODEINTEL_MAX_TASKS", "9")].lookup name, none⟩
    let file := some (Text.octets "pipeline:\n  max_queue_depth: 10\n")
    let config : Config := { pipeline := { maxQueueDepth := 10 } }
    load env file = .ok config ∧ env.number? "CODEINTEL_MAX_TASKS" = some 9 ∧
    ¬ ∀ limit, Overrides env file config limit := by
  intro env file config
  have hnumber : env.number? "CODEINTEL_MAX_TASKS" = some 9 := by decide
  refine ⟨eq_ok_of_toOption (by decide +kernel), hnumber, fun h => ?_⟩
  have hthree : (3 : Nat) = 9 := (h .concurrentTasks).of_variable 9 (by decide) hnumber
  cases hthree

end CodeIndex.Config
