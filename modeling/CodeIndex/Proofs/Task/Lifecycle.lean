import CodeIndex.Proofs.Task.Changes
import CodeIndex.Scheduler.Step
import Mathlib.Data.List.Destutter
/-!
# The life of a task

`lifecycle_kept`: whatever is done to the registry, and in whatever order, a task fails before it
starts, or it starts and then completes or fails. Its times tell how far it came, and once it has
ended its record stays as it ended. A task is changed in three ways only (`Task.Succeeds`): it stays
but for its progress, it starts, or it ends; each operation of the registry does one of them to a
task that it retains (`Operation.succeeds`).

The operations that change a status say truthfully whether they did, and those that refuse change
nothing (`TaskRegistry.AnswersExactly`).
-/

namespace CodeIndex

/-! ### Progress -/

/-- The change touches nothing but the progress of a task. -/
def Task.IsProgress (f : Task → Task) : Prop :=
  ∀ t, ∃ processed total failed chunks triples current, f t = { t with
    filesProcessed := processed
    totalFiles := total
    filesFailed := failed
    chunksEmitted := chunks
    triplesEmitted := triples
    currentFile := current }

theorem Task.isProgress_beginFile (path : String) : IsProgress (beginFile path) :=
  fun _ => ⟨_, _, _, _, _, _, rfl⟩

theorem Task.isProgress_expectFiles (count : Nat) : IsProgress (expectFiles count) :=
  fun _ => ⟨_, _, _, _, _, _, rfl⟩

/-- What a runner notes of a finished file is progress. -/
theorem Task.isProgress_recorded (outcome : Ingest.Outcome) :
    IsProgress (Scheduler.recorded outcome) := by
  cases outcome <;> exact fun _ => ⟨_, _, _, _, _, _, rfl⟩

/-! ### Operations -/

/-- One call of the registry. -/
inductive Operation where
  | insert (id source : String) (branch retryOf : Option String) (now : Time.Timestamp)
  | update (id : String) (f : Task → Task)
  | requestCancel (id : String)
  | transition (id : String) (next : TaskStatus) (error : Option String) (now : Time.Timestamp)
  | failPending (id error : String) (now : Time.Timestamp)
  | remove (id : String)
  | evict (limit : Nat)

/-- What a call answers. -/
inductive Answer where
  | done
  | moved (b : Bool)
  | task (t : Task)
  | refused (fault : Fault)
  | evicted (count : Nat)

namespace Operation

/-- The registry after a call, and the answer. A call that is refused changes nothing. -/
def perform (r : TaskRegistry) : Operation → TaskRegistry × Answer
  | insert id source branch retryOf now =>
    (r.insert (.submitted id source branch retryOf now), .done)
  | update id f => (r.update id f, .done)
  | requestCancel id =>
    match r.requestCancel id with
    | .ok (r', t) => (r', .task t)
    | .error fault => (r, .refused fault)
  | transition id next error now =>
    let (r', b) := r.transition id next error now
    (r', .moved b)
  | failPending id error now =>
    let (r', b) := r.failPending id error now
    (r', .moved b)
  | remove id =>
    match r.remove id with
    | .ok (r', t) => (r', .task t)
    | .error fault => (r, .refused fault)
  | evict limit =>
    let (r', count) := r.evict limit
    (r', .evicted count)

/-- Ids are not inserted twice, and updates are progress. -/
def IsGranted (r : TaskRegistry) : Operation → Prop
  | insert id _ _ _ _ => r.get? id = none
  | update _ f => Task.IsProgress f
  | _ => True

end Operation

/-! ### Histories -/

namespace TaskRegistry

/-- The registry after some calls. -/
def after (r : TaskRegistry) (ops : List Operation) : TaskRegistry :=
  ops.foldl (fun r op => (op.perform r).1) r

/-- Every call is granted when it comes. -/
def Grants : TaskRegistry → List Operation → Prop
  | _, [] => True
  | r, op :: ops => op.IsGranted r ∧ Grants (op.perform r).1 ops

/-- A task as it stands at first and after each call, until it is let go. -/
def life (id : String) : TaskRegistry → List Operation → List Task
  | r, [] => (r.get? id).toList
  | r, op :: ops =>
    match r.get? id with
    | none => []
    | some t => t :: life id (op.perform r).1 ops

theorem head?_life (id : String) (r : TaskRegistry) (ops : List Operation) :
    (r.life id ops).head? = r.get? id := by
  cases ops with
  | nil =>
    rw [life]
    cases r.get? id <;> rfl
  | cons op ops =>
    rw [life]
    split
    · rename_i h
      rw [h]
      rfl
    · rename_i h
      rw [h]
      rfl

/-- What is granted after some calls. -/
theorem grants_append {r : TaskRegistry} {ops ops' : List Operation} :
    r.Grants (ops ++ ops') ↔ r.Grants ops ∧ (r.after ops).Grants ops' := by
  induction ops generalizing r with
  | nil => exact ⟨fun h => ⟨trivial, h⟩, fun h => h.2⟩
  | cons op ops ih => rw [List.cons_append, Grants, Grants, ih, and_assoc]; rfl

end TaskRegistry

/-! ### One step -/

/-- How a task is changed: it stays but for its progress, it starts, or it ends. -/
inductive Task.Succeeds (t u : Task) : Prop where
  | stays (status : u.status = t.status) (error : u.error = t.error)
      (startedAt : u.startedAt = t.startedAt) (finishedAt : u.finishedAt = t.finishedAt)
  | starts (pending : t.status = .pending) (status : u.status = .processing)
      (startedAt : u.startedAt.isSome) (finishedAt : u.finishedAt = t.finishedAt)
  | ends (move : t.status.canMoveTo u.status = true) (ended : u.status.isTerminal = true)
      (startedAt : u.startedAt = t.startedAt) (finishedAt : u.finishedAt.isSome)

namespace Task

variable {t u : Task}

theorem Succeeds.refl (t : Task) : t.Succeeds t :=
  .stays rfl rfl rfl rfl

theorem IsProgress.succeeds {f : Task → Task} (h : IsProgress f) (t : Task) : t.Succeeds (f t) := by
  obtain ⟨_, _, _, _, _, _, hf⟩ := h t
  rw [hf]
  exact .stays rfl rfl rfl rfl

theorem IsProgress.id_eq {f : Task → Task} (h : IsProgress f) (t : Task) : (f t).id = t.id := by
  obtain ⟨_, _, _, _, _, _, hf⟩ := h t
  rw [hf]

theorem succeeds_moveTo? {next : TaskStatus} {error : Option String} {now : Time.Timestamp}
    (h : t.moveTo? next error now = some u) : t.Succeeds u := by
  obtain ⟨hmove, -, hstatus, -, -⟩ := moveTo?_eq_some h
  rw [moveTo?, if_pos hmove] at h
  obtain rfl := Option.some.inj h
  cases hnext : next with
  | pending =>
    -- Nothing moves back to pending.
    rw [hnext] at hmove
    cases hfrom : t.status <;> rw [hfrom] at hmove <;> cases hmove
  | processing =>
    have hpending : t.status = .pending := by
      rw [hnext] at hmove
      cases hfrom : t.status <;> rw [hfrom] at hmove <;> first | rfl | cases hmove
    exact .starts hpending rfl rfl rfl
  | completed => exact .ends (hnext ▸ hmove) rfl rfl rfl
  | failed => exact .ends (hnext ▸ hmove) rfl rfl rfl

theorem succeeds_failPending? {error : String} {now : Time.Timestamp}
    (h : t.failPending? error now = some u) : t.Succeeds u := by
  obtain ⟨hpending, -⟩ := failPending?_eq_some h
  rw [failPending?, if_pos hpending] at h
  obtain rfl := Option.some.inj h
  exact .ends (by rw [hpending]; rfl) rfl rfl rfl

end Task

namespace TaskRegistry

variable {r r' : TaskRegistry} {id : String} {t u : Task}

theorem Keeps.succeeds (h : r.Keeps r') (ht : r.get? id = some t) (hu : r'.get? id = some u) :
    t.Succeeds u := by
  have hseen := (lastSeen?_of_get? hu).symm.trans
    ((h.lastSeen? id).trans (lastSeen?_of_get? ht))
  obtain rfl := Option.some.inj hseen
  exact .refl u

theorem succeeds_update {f : Task → Task} {j : String} (hf : ∀ t, t.id = j → (f t).id = j)
    (hstep : ∀ t, r.get? j = some t → t.Succeeds (f t)) (ht : r.get? id = some t)
    (hu : (r.update j f).get? id = some u) : t.Succeeds u := by
  by_cases hj : id = j
  · subst hj
    obtain ⟨a, ha, hretained, rfl⟩ := get?_eq_some ht
    have hseen := (lastSeen?_of_get? hu).symm.trans (lastSeen?_update_self hf ha hretained)
    obtain rfl := Option.some.inj hseen
    exact hstep _ ht
  · have hseen := (lastSeen?_of_get? hu).symm.trans
      ((lastSeen?_update_of_ne hf hj).trans (lastSeen?_of_get? ht))
    obtain rfl := Option.some.inj hseen
    exact .refl u

theorem succeeds_updateIf {f : Task → Option Task} {j : String}
    (hf : ∀ t u, f t = some u → u.id = t.id ∧ t.Succeeds u) (ht : r.get? id = some t)
    (hu : (r.updateIf j f).1.get? id = some u) : t.Succeeds u := by
  rcases updateIf_cases r j f with ⟨a, v, ha, hretained, hv, heq⟩ | ⟨-, heq⟩
  · rw [heq] at hu
    obtain ⟨hid, hstep⟩ := hf _ _ hv
    refine succeeds_update (fun _ _ => hid.trans (id_of_record? ha)) (fun t' ht' => ?_) ht hu
    obtain rfl := Option.some.inj ((get?_of_record? ha hretained).symm.trans ht')
    exact hstep
  · rw [heq] at hu
    obtain rfl := Option.some.inj (hu.symm.trans ht)
    exact .refl u

theorem succeeds_insert {v : Task} (hnew : r.get? v.id = none) (ht : r.get? id = some t)
    (hu : (r.insert v).get? id = some u) : t.Succeeds u := by
  have hne : v.id ≠ id := by
    rintro rfl
    cases hnew.symm.trans ht
  have hseen := lastSeen?_insert (r := r) v id
  rw [if_neg hne, lastSeen?_of_get? hu, lastSeen?_of_get? ht] at hseen
  obtain rfl := Option.some.inj hseen
  exact .refl u

end TaskRegistry

/-- Each call changes a task that it retains in one of the three ways. -/
theorem Operation.succeeds {r : TaskRegistry} {op : Operation} {id : String} {t u : Task}
    (hgranted : op.IsGranted r) (ht : r.get? id = some t)
    (hu : (op.perform r).1.get? id = some u) : t.Succeeds u := by
  cases op with
  | insert j source branch retryOf now =>
    have hnew : r.get? (Task.submitted j source branch retryOf now).id = none := hgranted
    exact TaskRegistry.succeeds_insert hnew ht hu
  | update j f =>
    have hf : Task.IsProgress f := hgranted
    exact TaskRegistry.succeeds_update (fun t hid => (hf.id_eq t).trans hid)
      (fun t _ => hf.succeeds t) ht hu
  | requestCancel j =>
    rw [perform] at hu
    split at hu
    · rename_i r' v hok
      exact (TaskRegistry.keeps_requestCancel hok).succeeds ht hu
    · exact (TaskRegistry.Keeps.refl r).succeeds ht hu
  | transition j next error now =>
    exact TaskRegistry.succeeds_updateIf
      (fun _ _ h => ⟨(Task.moveTo?_eq_some h).2.1, Task.succeeds_moveTo? h⟩) ht hu
  | failPending j error now =>
    exact TaskRegistry.succeeds_updateIf
      (fun _ _ h => ⟨(Task.failPending?_eq_some h).2.1, Task.succeeds_failPending? h⟩) ht hu
  | remove j =>
    rw [perform] at hu
    split at hu
    · rename_i r' v hok
      exact (TaskRegistry.keeps_remove hok).succeeds ht hu
    · exact (TaskRegistry.Keeps.refl r).succeeds ht hu
  | evict limit => exact (TaskRegistry.keeps_evict limit).succeeds ht hu

/-! ### The whole life -/

/-- A life goes on step by step. -/
theorem TaskRegistry.isChain_life (id : String) {r : TaskRegistry} {ops : List Operation}
    (h : r.Grants ops) : (r.life id ops).IsChain Task.Succeeds := by
  induction ops generalizing r with
  | nil =>
    rw [life]
    cases r.get? id with
    | none => exact .nil
    | some t => exact .singleton t
  | cons op ops ih =>
    rw [life]
    split
    · exact .nil
    · rename_i t ht
      refine List.isChain_cons.mpr ⟨fun u hu => ?_, ih h.2⟩
      rw [head?_life] at hu
      exact Operation.succeeds h.1 ht hu

/-- What holds of the first form of a task and, whatever was before, is carried from one form to the
next holds at every point of its life. -/
theorem Task.life_induction {life : List Task} {P : List Task → Task → Prop}
    (hlife : life.IsChain Task.Succeeds) (first : ∀ t, life.head? = some t → P [] t)
    (step : ∀ past t u, P past t → t.Succeeds u → P (past ++ [t]) u) {past : List Task} {t : Task}
    (h : past ++ [t] <+: life) : P past t := by
  induction past using List.reverseRecOn generalizing t with
  | nil =>
    refine first t ?_
    obtain ⟨rest, rfl⟩ := h
    rfl
  | append_singleton past s ih =>
    refine step past s t (ih ((List.prefix_append _ _).trans h)) ?_
    obtain ⟨rest, rfl⟩ := h
    rw [List.append_assoc, List.append_assoc] at hlife
    exact (List.isChain_append.mp hlife).2.1.rel

namespace TaskStatus

/-- All that a task can go through. -/
def paths : List (List TaskStatus) :=
  [[pending, failed], [pending, processing, completed], [pending, processing, failed]]

/-- Moves that follow one another from the beginning are part of a path. -/
theorem exists_path {rest : List TaskStatus}
    (h : (pending :: rest).IsChain fun s t => s.canMoveTo t = true) :
    ∃ path ∈ paths, pending :: rest <+: path := by
  -- After an ended status there is no move, so there are at most two moves to look at.
  have hstop : ∀ {s : TaskStatus} {l : List TaskStatus}, s.isTerminal = true →
      (s :: l).IsChain (fun s t => s.canMoveTo t = true) → l = [] := by
    intro s l hended hchain
    cases l with
    | nil => rfl
    | cons t l =>
      have hmove := hchain.rel
      rw [canMoveTo_of_isTerminal hended] at hmove
      cases hmove
  cases rest with
  | nil => exact ⟨_, List.mem_cons_self, by decide⟩
  | cons s rest =>
    obtain ⟨hmove, hrest⟩ := List.isChain_cons_cons.mp h
    cases s with
    | pending => cases hmove
    | completed => cases hmove
    | failed =>
      obtain rfl := hstop rfl hrest
      exact ⟨_, List.mem_cons_self, List.prefix_refl _⟩
    | processing =>
      cases rest with
      | nil => exact ⟨[pending, processing, completed], by decide, by decide⟩
      | cons t rest =>
        obtain ⟨hmove', hrest'⟩ := List.isChain_cons_cons.mp hrest
        cases t with
        | pending => cases hmove'
        | processing => cases hmove'
        | completed =>
          obtain rfl := hstop rfl hrest'
          exact ⟨[pending, processing, completed], by decide, List.prefix_refl _⟩
        | failed =>
          obtain rfl := hstop rfl hrest'
          exact ⟨[pending, processing, failed], by decide, List.prefix_refl _⟩

end TaskStatus

/-- Without repetitions, a chain of steps and stays is a chain of steps. -/
theorem exists_destutter' {α : Type} [DecidableEq α] {R : α → α → Prop} {a : α} {l : List α}
    (h : (a :: l).IsChain fun x y => y = x ∨ R x y) :
    ∃ rest, l.destutter' (· ≠ ·) a = a :: rest ∧ (a :: rest).IsChain R := by
  induction l generalizing a with
  | nil => exact ⟨[], rfl, .singleton a⟩
  | cons b l ih =>
    obtain ⟨hstep, hrest⟩ := List.isChain_cons_cons.mp h
    obtain ⟨rest, heq, hchain⟩ := ih hrest
    by_cases hab : a = b
    · subst hab
      exact ⟨rest, by rw [List.destutter'_cons_neg l (by simp), heq], hchain⟩
    · have hmove : R a b := hstep.resolve_left (Ne.symm hab)
      exact ⟨b :: rest, by rw [List.destutter'_cons_pos l hab, heq],
        List.isChain_cons_cons.mpr ⟨hmove, hchain⟩⟩

namespace Task

/-! ### What a life tells -/

/-- Once a task has ended it stays as it ended. -/
def IsSettled (t u : Task) : Prop :=
  t.status.isTerminal = true → u.status = t.status ∧ u.error = t.error ∧
    u.startedAt = t.startedAt ∧ u.finishedAt = t.finishedAt

theorem IsSettled.trans {t u v : Task} (h : t.IsSettled u) (h' : u.IsSettled v) :
    t.IsSettled v := by
  intro ht
  obtain ⟨hstatus, herror, hstart, hfinish⟩ := h ht
  obtain ⟨hstatus', herror', hstart', hfinish'⟩ := h' (hstatus.symm ▸ ht)
  exact ⟨hstatus'.trans hstatus, herror'.trans herror, hstart'.trans hstart,
    hfinish'.trans hfinish⟩

/-- What a life is like: the status follows a path, the times tell how far it came, and nothing
changes once the task has ended. -/
structure IsLife (life : List Task) : Prop where
  first : (life.head?.map (·.status)) = some .pending
  /-- The statuses, one after the other, without repetitions. -/
  path : ∃ path ∈ TaskStatus.paths, (life.map (·.status)).destutter (· ≠ ·) <+: path
  /-- At any point the task has a start exactly if it has been processing so far. -/
  started : ∀ past t, past ++ [t] <+: life →
    (t.startedAt.isSome ↔ .processing ∈ (past ++ [t]).map (·.status))
  finished : ∀ t ∈ life, (t.finishedAt.isSome ↔ t.status.isTerminal)
  settled : life.Pairwise IsSettled

namespace Succeeds

variable {t u : Task} (h : t.Succeeds u)
include h

theorem status_cases : u.status = t.status ∨ t.status.canMoveTo u.status = true := by
  cases h with
  | stays status => exact Or.inl status
  | starts pending status => exact Or.inr (by rw [pending, status]; rfl)
  | ends move => exact Or.inr move

theorem settled : t.IsSettled u := by
  intro ht
  cases h with
  | stays status error startedAt finishedAt => exact ⟨status, error, startedAt, finishedAt⟩
  | starts pending =>
    rw [pending] at ht
    cases ht
  | ends move =>
    rw [TaskStatus.canMoveTo_of_isTerminal ht] at move
    cases move

/-- The finish is set by the step that ends the task. -/
theorem finished (ht : t.finishedAt.isSome ↔ t.status.isTerminal) :
    u.finishedAt.isSome ↔ u.status.isTerminal := by
  cases h with
  | stays status error startedAt finishedAt => rw [status, finishedAt, ht]
  | starts pending status startedAt finishedAt => rw [finishedAt, ht, pending, status]; rfl
  | ends move ended startedAt finishedAt => rw [finishedAt, ended]

/-- The start is set by the step that starts the task. -/
theorem started {past : List Task}
    (ht : t.startedAt.isSome ↔ .processing ∈ (past ++ [t]).map (·.status)) :
    u.startedAt.isSome ↔ .processing ∈ ((past ++ [t]) ++ [u]).map (·.status) := by
  rw [List.map_append, List.mem_append, ← ht, List.map_singleton, List.mem_singleton]
  cases h with
  | stays status error startedAt finishedAt =>
    rw [startedAt, status]
    refine ⟨Or.inl, fun h => h.elim (fun hstarted => hstarted) fun hstatus => ht.mpr ?_⟩
    rw [List.map_append, List.mem_append, List.map_singleton, List.mem_singleton]
    exact Or.inr hstatus
  | starts pending status startedAt finishedAt =>
    exact ⟨fun _ => Or.inr status.symm, fun _ => startedAt⟩
  | ends move ended startedAt finishedAt =>
    rw [startedAt]
    refine ⟨Or.inl, fun h => h.resolve_right fun hstatus => ?_⟩
    rw [← hstatus] at ended
    cases ended

end Succeeds

/-- A life that begins with a task just submitted and goes on step by step. -/
theorem isLife_of_isChain {life : List Task} {t : Task} (hfirst : life.head? = some t)
    (hpending : t.status = .pending) (hstart : t.startedAt = none) (hfinish : t.finishedAt = none)
    (hlife : life.IsChain Task.Succeeds) : IsLife life where
  first := by rw [hfirst, Option.map_some, hpending]
  path := by
    obtain ⟨rest, rfl⟩ := List.head?_eq_some_iff.mp hfirst
    have hmoves : ((t :: rest).map (·.status)).IsChain
        fun s s' => s' = s ∨ s.canMoveTo s' = true :=
      (List.isChain_map _).mpr (hlife.imp fun _ _ h => h.status_cases)
    rw [List.map_cons, hpending] at hmoves ⊢
    obtain ⟨rest', heq, hchain⟩ := exists_destutter' hmoves
    rw [List.destutter_cons', heq]
    exact TaskStatus.exists_path hchain
  started := by
    intro past u hu
    refine life_induction (P := fun past u => u.startedAt.isSome ↔
      .processing ∈ (past ++ [u]).map (·.status)) hlife ?_ ?_ hu
    · intro t' ht'
      obtain rfl := Option.some.inj (hfirst.symm.trans ht')
      rw [hstart, List.nil_append, List.map_singleton, List.mem_singleton, hpending]
      exact ⟨nofun, nofun⟩
    · exact fun _ _ _ ih h => h.started ih
  finished := by
    intro u hu
    obtain ⟨past, rest, hsplit⟩ := List.append_of_mem hu
    have hprefix : past ++ [u] <+: life := ⟨rest, by rw [List.append_assoc, hsplit]; rfl⟩
    refine life_induction (P := fun _ u => u.finishedAt.isSome ↔ u.status.isTerminal)
      hlife ?_ (fun _ _ _ ih h => h.finished ih) hprefix
    intro t' ht'
    obtain rfl := Option.some.inj (hfirst.symm.trans ht')
    rw [hfinish, hpending]
    rfl
  settled := by
    -- To stay as it ended carries over from step to step, as the status stays ended.
    have htrans : Trans IsSettled IsSettled IsSettled := ⟨fun h h' => h.trans h'⟩
    exact List.isChain_iff_pairwise.mp (hlife.imp fun _ _ h => h.settled)

end Task

/-! ### Answers -/

namespace TaskRegistry

variable {r : TaskRegistry} {id : String}

/-- The status of a retained task. -/
def status? (r : TaskRegistry) (id : String) : Option TaskStatus :=
  (r.get? id).map (·.status)

/-- A change that always changes the status says whether it did, and changes nothing else. -/
theorem updateIf_answer {f : Task → Option Task}
    (hf : ∀ t u, f t = some u → u.id = t.id ∧ u.status ≠ t.status) :
    ((r.updateIf id f).2 = true ↔ (r.updateIf id f).1.status? id ≠ r.status? id) ∧
      ((r.updateIf id f).2 = false → (r.updateIf id f).1 = r) := by
  rcases updateIf_cases r id f with ⟨a, u, ha, hretained, hu, heq⟩ | ⟨-, heq⟩
  · obtain ⟨hid, hstatus⟩ := hf _ _ hu
    have hnew := record?_update_self (fun _ _ => hid.trans (id_of_record? ha)) ha hretained
    rw [heq, status?, status?, get?_of_record? hnew hretained, get?_of_record? ha hretained]
    refine ⟨⟨fun _ h => hstatus (Option.some.inj h), fun _ => rfl⟩, nofun⟩
  · rw [heq]
    exact ⟨⟨nofun, fun h => absurd rfl h⟩, fun _ => rfl⟩

/-- Operations that change a status say whether they did, and those that refuse change nothing. -/
structure AnswersExactly (r : TaskRegistry) (id : String) : Prop where
  transition : ∀ next error now,
    ((r.transition id next error now).2 = true ↔
      (r.transition id next error now).1.status? id ≠ r.status? id) ∧
    ((r.transition id next error now).2 = false → (r.transition id next error now).1 = r)
  failPending : ∀ error now,
    ((r.failPending id error now).2 = true ↔
      (r.failPending id error now).1.status? id ≠ r.status? id) ∧
    ((r.failPending id error now).2 = false → (r.failPending id error now).1 = r)
  requestCancel_unknown : r.get? id = none →
    (Operation.requestCancel id).perform r = (r, .refused (.taskNotFound id))
  requestCancel_ended : ∀ t, r.get? id = some t → t.status.isTerminal = true →
    (Operation.requestCancel id).perform r = (r, .refused (.taskState (.cannotCancel id t.status)))
  remove_unknown : r.get? id = none →
    (Operation.remove id).perform r = (r, .refused (.taskNotFound id))
  remove_unended : ∀ t, r.get? id = some t → t.status.isTerminal = false →
    (Operation.remove id).perform r = (r, .refused (.taskState (.cannotForget id t.status)))

theorem answersExactly (r : TaskRegistry) (id : String) : r.AnswersExactly id where
  transition := fun next error now => updateIf_answer fun t u h => by
    obtain ⟨hmove, hid, hstatus, -, -⟩ := Task.moveTo?_eq_some h
    refine ⟨hid, fun hsame => ?_⟩
    -- No status may move to itself.
    rw [← hstatus, hsame] at hmove
    cases hfrom : t.status <;> rw [hfrom] at hmove <;> cases hmove
  failPending := fun error now => updateIf_answer fun t u h => by
    obtain ⟨hpending, hid, hstatus, -, -⟩ := Task.failPending?_eq_some h
    exact ⟨hid, by rw [hpending, hstatus]; decide⟩
  requestCancel_unknown := fun h => by rw [Operation.perform, requestCancel, h]
  requestCancel_ended := fun t h hended => by
    rw [Operation.perform, requestCancel, h]
    dsimp only
    rw [if_pos hended]
  remove_unknown := fun h => by rw [Operation.perform, remove, h]
  remove_unended := fun t h hunended => by
    rw [Operation.perform, remove, h]
    dsimp only
    rw [if_neg (by rw [hunended]; decide)]

end TaskRegistry

/-! ### The result -/

open TaskRegistry

/-- **Lifecycle**: in every history of the registry each task that is inserted lives as a task may,
from its insertion until it is let go; and at every point of it the registry answers truthfully. -/
theorem lifecycle_kept {earlier later : List Operation} {id source : String}
    {branch retryOf : Option String} {now : Time.Timestamp}
    (h : TaskRegistry.empty.Grants (earlier ++ .insert id source branch retryOf now :: later)) :
    Task.IsLife ((empty.after (earlier ++ [.insert id source branch retryOf now])).life id later) ∧
    ∀ j, (empty.after (earlier ++ .insert id source branch retryOf now :: later)).AnswersExactly
      j := by
  refine ⟨?_, fun j => answersExactly _ j⟩
  obtain ⟨-, hnew, hlater⟩ := grants_append.mp h
  have hafter : empty.after (earlier ++ [.insert id source branch retryOf now])
      = (empty.after earlier).insert (.submitted id source branch retryOf now) := by
    rw [after, List.foldl_append]
    rfl
  rw [hafter]
  refine Task.isLife_of_isChain (t := .submitted id source branch retryOf now) ?_ rfl rfl rfl
    (isChain_life id hlater)
  rw [head?_life]
  have hid : (Task.submitted id source branch retryOf now).id = id := rfl
  have hrecord := record?_insert (r := empty.after earlier)
    (.submitted id source branch retryOf now) id
  rw [if_pos hid] at hrecord
  exact get?_of_record? hrecord rfl

/-- Two tasks: `a` starts, works on a file, is asked to cancel and fails; `b`, which failed before
it started, is forgotten in the meantime. -/
theorem lifecycle_kept_two_tasks :
    let later : List Operation :=
      [.transition "a" .processing none .epoch, .failPending "b" "refused" .epoch,
        .update "a" (.expectFiles 1), .update "a" (.beginFile "x"), .requestCancel "a",
        .update "a" (Scheduler.recorded (.ingested "x" 2 1 false)), .remove "b",
        .transition "a" .failed (some "cancelled") .epoch, .failPending "a" "late" .epoch,
        .evict 0]
    let life := (empty.after ([.insert "b" "s" none none .epoch] ++
      [.insert "a" "s" none none .epoch])).life "a" later
    life.map (·.status) = [.pending, .processing, .processing, .processing, .processing,
      .processing, .processing, .processing, .failed, .failed] ∧
    life.map (·.error) = List.replicate 8 none ++ List.replicate 2 (some "cancelled") ∧
    Task.IsLife life := by
  intro later life
  have hgrants : empty.Grants ([.insert "b" "s" none none .epoch] ++
      .insert "a" "s" none none .epoch :: later) :=
    ⟨rfl, rfl, trivial, trivial, Task.isProgress_expectFiles 1, Task.isProgress_beginFile "x",
      trivial, Task.isProgress_recorded _, trivial, trivial, trivial, trivial, trivial⟩
  exact ⟨by decide, by decide, (lifecycle_kept hgrants).1⟩

end CodeIndex
