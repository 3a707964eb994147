import CodeIndex.Proofs.Scheduler.Moves
import Mathlib.Order.Bounds.Basic
/-!
# Capacity

A submission counts the pending tasks and inserts its own in two turns. Between the two others may
do the same, so the tasks that are about to be inserted have to be counted as well: together with
them there are at most `maxQueueDepth` pending tasks, and one more for every further submission that
stands between its two turns at the same time (`State.pending_le`). So many there can be, whatever
the limits (`isGreatest_pending`).
-/

namespace CodeIndex

/-! ### Pending tasks -/

namespace TaskRegistry

variable {r r' : TaskRegistry}

/-- The task is pending. -/
def isPending (r : TaskRegistry) (j : String) : Bool :=
  (r.lastSeen? j).any (·.status == .pending)

/-- The number of pending tasks. -/
def pending (r : TaskRegistry) : Nat :=
  r.records.countP (·.task.status == .pending)

/-- Pending tasks may be counted by their ids. -/
theorem pending_eq (hnodup : r.ids.Nodup) : r.pending = r.ids.countP r.isPending := by
  rw [pending, ids, List.countP_map]
  refine List.countP_congr fun a ha => ?_
  have hseen := lastSeen?_of_record? (record?_of_mem hnodup ha)
  rw [Function.comp_apply, isPending, hseen, Option.any_some]

/-- Where no task becomes pending, there are no more pending tasks than before. -/
theorem pending_le (hnodup : r.ids.Nodup) (hids : r'.ids = r.ids)
    (h : ∀ j, r'.isPending j = true → r.isPending j = true) : r'.pending ≤ r.pending := by
  rw [pending_eq hnodup, pending_eq (hids ▸ hnodup), hids]
  exact List.countP_mono_left fun j _ => h j

theorem Keeps.pending_le (h : r.Keeps r') (hnodup : r.ids.Nodup) : r'.pending ≤ r.pending :=
  TaskRegistry.pending_le hnodup h.ids fun j hj => by rwa [isPending, h.lastSeen?] at hj

theorem Moves.pending_le {id : String} {next : TaskStatus} {error : Option String}
    (h : r.Moves r' id next error) (hnext : next ≠ .pending) (hnodup : r.ids.Nodup) :
    r'.pending ≤ r.pending := by
  refine TaskRegistry.pending_le hnodup h.ids fun j hj => ?_
  obtain ⟨u, hu, hpending⟩ := (Option.any_eq_true _ _).mp hj
  rcases h.back hu with hsame | ⟨_, hstatus, _⟩
  · exact (Option.any_eq_true _ _).mpr ⟨u, hsame, hpending⟩
  · rw [hstatus] at hpending
    exact absurd (beq_iff_eq.mp hpending) hnext

theorem pending_insert {t : Task} (hnew : t.id ∉ r.ids) (hpending : t.status = .pending) :
    (r.insert t).pending = r.pending + 1 := by
  have happend := Keyed.put_of_not_mem TaskRecord.id (x := ⟨t, false, true⟩) hnew
  rw [pending, insert, happend, List.countP_append, pending, List.countP_singleton, if_pos]
  rw [hpending]
  rfl

end TaskRegistry

namespace Scheduler

variable {σ : Type} {S : Setting σ} {s s' : Shared σ}

/-- Pending tasks are listed. -/
theorem State.IsSound.pending_eq {s : State σ} (h : s.IsSound S) :
    s.shared.registry.pending = s.shared.registry.count .pending := by
  refine List.countP_congr fun a ha => ?_
  have hrecord := TaskRegistry.record?_of_mem h.nodup_ids ha
  rw [Bool.and_eq_true, beq_iff_eq]
  refine ⟨fun hpending => ⟨?_, hpending⟩, fun hboth => hboth.2⟩
  have hunstarted : a.IsUnstarted := by
    by_cases hrun : a.id ∈ runnerJobs s.runners
    · obtain ⟨r, hr, hid⟩ := List.mem_map.mp hrun
      obtain ⟨b, hb, hstands⟩ := h.stands hr
      rw [hid, hrecord] at hb
      cases hb
      exact hstands.isUnstarted (hstands.stage_of_pending hpending)
    · exact h.isUnstarted hrun hrecord
  rcases hunstarted with ⟨_, hretained⟩ | hfailed
  · exact hretained
  · cases hpending.symm.trans hfailed

/-! ### Turns -/

/-- No task becomes pending at its end. -/
theorem Ending.Turn.pending_le {ending : Ending} {left : Option Ending}
    (turn : Ending.Turn S s ending s' left) (hnodup : s.registry.ids.Nodup) :
    s'.registry.pending ≤ s.registry.pending := by
  cases turn with
  | settles moves =>
    refine moves.pending_le ?_ hnodup
    split <;> decide
  | stays | finds | misses | announces => exact le_refl _
  | evicts keeps => exact keeps.pending_le hnodup

/-- The call has counted the pending tasks and is about to insert its own. -/
def Call.isInserting : Call → Bool
  | insert .. => true
  | _ => false

/-- A call either inserts a pending task, or does not make more of them; it only gets to where it
inserts one if there were less than allowed. -/
theorem Call.Turn.pending_cases {call call' : Call} (turn : Call.Turn S s call s' call')
    (hnodup : s.registry.ids.Nodup) (hnew : idOf s.issued ∉ s.registry.ids) :
    call.isInserting = true ∧ call'.isInserting = false ∧
      s'.registry.pending = s.registry.pending + 1 ∨
    call.isInserting = false ∧ s'.registry.pending ≤ s.registry.pending ∧
      (call'.isInserting = true → s.registry.count .pending < S.limits.maxQueueDepth) := by
  cases turn with
  | reads before after =>
    have hbefore : call.isInserting = false := by cases call <;> first | rfl | cases before
    have hafter : call'.isInserting = false := by cases call' <;> first | rfl | cases after
    refine Or.inr ⟨hbefore, le_refl _, fun hinserting => ?_⟩
    rw [hafter] at hinserting
    cases hinserting
  | counts below => exact Or.inr ⟨rfl, le_refl _, fun _ => below⟩
  | inserts => exact Or.inl ⟨rfl, rfl, TaskRegistry.pending_insert hnew rfl⟩
  | sends | returns | leaves | refusesFurther | signals | takes =>
    exact Or.inr ⟨rfl, le_refl _, fun h => nomatch h⟩
  | @refuses ending left _ _ turn next =>
    refine Or.inr ⟨rfl, turn.pending_le hnodup, fun hinserting => ?_⟩
    rw [next] at hinserting
    cases left <;> cases hinserting
  | cancels accepted =>
    have hle := (TaskRegistry.keeps_requestCancel accepted).pending_le hnodup
    exact Or.inr ⟨rfl, hle, fun h => nomatch h⟩
  | fails moves => exact Or.inr ⟨rfl, moves.pending_le (by decide) hnodup, fun h => nomatch h⟩
  | @announces ending left _ _ _ _ turn next =>
    refine Or.inr ⟨rfl, turn.pending_le hnodup, fun hinserting => ?_⟩
    rw [next] at hinserting
    cases left <;> cases hinserting
  | forgets keeps => exact Or.inr ⟨rfl, keeps.pending_le hnodup, fun h => nomatch h⟩

/-- The dispatcher makes no task pending. -/
theorem Dispatcher.Turn.pending_le {dispatcher dispatcher' : Dispatcher}
    {runners started : List Runner}
    (turn : Dispatcher.Turn S runners s dispatcher s' dispatcher' started)
    (hnodup : s.registry.ids.Nodup) : s'.registry.pending ≤ s.registry.pending := by
  rcases turn.ending_cases with ⟨_, _, turn⟩ | ⟨hregistry, _⟩
  · exact turn.pending_le hnodup
  · rw [hregistry]

/-- A runner makes no task pending. -/
theorem Runner.Turn.pending_le {r r' : Runner} {a : TaskRecord} (turn : Runner.Turn S s r s' r')
    (hnodup : s.registry.ids.Nodup) (ha : s.registry.record? r.job.id = some a)
    (hstands : r.Stands a) : s'.registry.pending ≤ s.registry.pending := by
  cases turn with
  | begins _ moves => exact moves.pending_le (by decide) hnodup
  | declines | works | concludes | givesBack => exact le_refl _
  | @updates f _ _ before _ same =>
    have hf : ∀ t : Task, t.id = r.job.id → (f t).id = r.job.id := fun t ht => (same t).1.trans ht
    -- The runner only counts while its task is processed.
    have hrunning := hstands.isRunning before
    have hnot : (s.registry.update r.job.id f).isPending r.job.id = false := by
      rw [TaskRegistry.isPending, TaskRegistry.lastSeen?_update_self hf ha hrunning.2,
        Option.any_some, (same a.task).2.1, hrunning.1]
      rfl
    refine TaskRegistry.pending_le hnodup (TaskRegistry.ids_update hf) fun j hj => ?_
    have hid : j ≠ r.job.id := by
      rintro rfl
      cases hnot.symm.trans hj
    rw [TaskRegistry.isPending] at hj ⊢
    rwa [← TaskRegistry.lastSeen?_update_of_ne hf hid]
  | finishes _ turn => exact turn.pending_le hnodup

/-! ### The bound -/

/-- The calls that have counted the pending tasks and are about to insert theirs. -/
def State.inserting (s : State σ) : Nat :=
  s.calls.countP Call.isInserting

/-- Counting in a list of which one element is replaced. -/
theorem countP_set {α : Type} (p : α → Bool) {xs : List α} {k : Nat} {x : α} (y : α)
    (h : xs[k]? = some x) :
    (xs.set k y).countP p + (p x).toNat = xs.countP p + (p y).toNat := by
  obtain ⟨hk, rfl⟩ := List.getElem?_eq_some_iff.mp h
  have hpos : p xs[k] = true → 0 < xs.countP p :=
    fun hp => List.countP_pos_iff.mpr ⟨_, List.getElem_mem hk, hp⟩
  rw [List.countP_set hk]
  cases hx : p xs[k] with
  | false => cases p y <;> simp
  | true =>
    have hcount := hpos hx
    cases p y <;> simp <;> omega

/-- The pending tasks and those that are about to be inserted, when no more than `crowd` of these
were ever so at the same time. -/
def State.IsBounded (S : Setting σ) (crowd : Nat) (s : State σ) : Prop :=
  s.shared.registry.pending + s.inserting ≤ S.limits.maxQueueDepth + (crowd - 1)

/-- The bound is kept: a call takes a place only when it has counted fewer pending tasks than
allowed, and gives it up with its insertion. -/
theorem State.IsBounded.act {crowd : Nat} {s : State σ} (h : s.IsBounded S crowd)
    (hsound : s.IsSound S) (a : Act) (hcrowd : (s.act S a).inserting ≤ crowd) :
    (s.act S a).IsBounded S crowd := by
  have hturn := s.turn S a
  generalize s.act S a = s' at hturn hcrowd ⊢
  rw [IsBounded] at h ⊢
  cases hturn with
  | rests | letsGo | worker => exact h
  | requests r =>
    have hsame : (s.request r).inserting = s.inserting := by
      rw [inserting, request, List.countP_append, inserting]
      cases r <;> rfl
    rw [hsame]
    exact h
  | @call i call call' shared made turn =>
    have hcount := countP_set Call.isInserting call' made
    rcases turn.pending_cases hsound.nodup_ids hsound.idOf_not_mem with
      ⟨hbefore, hafter, hpending⟩ | ⟨hbefore, hpending, hbelow⟩
    · -- What was counted as about to be inserted is pending now.
      rw [hbefore, hafter] at hcount
      simp only [inserting] at h ⊢
      simp only [Bool.toNat_true, Bool.toNat_false] at hcount
      omega
    · rw [hbefore] at hcount
      simp only [inserting] at h hcrowd ⊢
      cases hinserting : call'.isInserting with
      | false =>
        rw [hinserting] at hcount
        simp only [Bool.toNat_false] at hcount
        omega
      | true =>
        have hdepth := hbelow hinserting
        rw [← hsound.pending_eq] at hdepth
        rw [hinserting] at hcount
        simp only [Bool.toNat_true, Bool.toNat_false] at hcount
        omega
  | dispatcher turn =>
    have hle := turn.pending_le hsound.nodup_ids
    simp only [inserting] at h ⊢
    omega
  | runner started turn =>
    obtain ⟨b, hb, hstands⟩ := hsound.stands (List.mem_of_getElem? started)
    have hle := turn.pending_le hsound.nodup_ids hb hstands
    simp only [inserting] at h ⊢
    omega

/-- The state is one that a fresh scheduler gets into while no more than `crowd` calls at a time are
about to insert a task. -/
def State.IsWithin (S : Setting σ) (store : σ) (crowd : Nat) (s : State σ) : Prop :=
  ∃ held acts, (State.start S.limits store held).run S acts = s ∧
    ∀ before, before <+: acts →
      ((State.start S.limits store held).run S before).inserting ≤ crowd

theorem State.IsWithin.pending_le {store : σ} {crowd : Nat} {s : State σ}
    (h : s.IsWithin S store crowd) :
    s.shared.registry.pending ≤ S.limits.maxQueueDepth + (crowd - 1) := by
  obtain ⟨held, acts, rfl, hcrowd⟩ := h
  have hbounded : ∀ acts, (∀ before, before <+: acts →
      ((State.start S.limits store held).run S before).inserting ≤ crowd) →
      ((State.start S.limits store held).run S acts).IsBounded S crowd := by
    refine run_induction (P := fun acts s => (∀ before, before <+: acts →
      ((State.start S.limits store held).run S before).inserting ≤ crowd) → s.IsBounded S crowd)
      (fun _ => Nat.zero_le _) fun acts a ih hcrowd => ?_
    have hnow := hcrowd _ (List.prefix_refl _)
    rw [run_concat] at hnow
    refine (ih fun before hbefore => hcrowd before ?_).act (isSound_run S store held acts) a hnow
    exact hbefore.trans (List.prefix_append _ _)
  exact (Nat.le_add_right _ _).trans (hbounded acts hcrowd)

/-! ### The bound is reached -/

namespace State

/-- The state with one more call, which stands somewhere. -/
def addCall (s : State σ) (call : Call) : State σ :=
  { s with calls := s.calls ++ [call] }

/-- A call that has a move takes its turn. -/
theorem act_call {s : State σ} {i : Nat} {call call' : Call} {shared : Shared σ}
    (hcall : s.calls[i]? = some call)
    (hmove : call.step? S s.dispatcher s.shared = some (shared, call')) :
    s.act S (.move (.call i)) = { s with shared := shared, calls := s.calls.set i call' } := by
  simp only [act, step?, hcall, hmove, Option.bind_eq_bind, Option.bind_some, Option.pure_def,
    Option.getD_some]

theorem act_addCall {s : State σ} {call call' : Call}
    (hmove : call.step? S s.dispatcher s.shared = some (s.shared, call')) :
    (s.addCall call).act S (.move (.call s.calls.length)) = s.addCall call' := by
  have hlast : (s.addCall call).calls[s.calls.length]? = some call :=
    List.getElem?_concat_length
  have hset : (s.calls ++ [call]).set s.calls.length call' = s.calls ++ [call'] := by
    rw [List.set_append_right _ _ (le_refl _), Nat.sub_self, List.set_cons_zero]
  rw [act_call hlast hmove, addCall, hset]
  rfl

theorem inserting_addCall (s : State σ) (call : Call) :
    (s.addCall call).inserting = s.inserting + call.isInserting.toNat := by
  rw [inserting, addCall, List.countP_append, ← inserting, List.countP_singleton]
  cases call.isInserting <;> rfl

namespace IsWithin

variable {store : σ} {crowd : Nat} {s : State σ} (h : s.IsWithin S store crowd)
include h

theorem isSound : s.IsSound S := by
  obtain ⟨held, acts, rfl, _⟩ := h
  exact isSound_run S store held acts

theorem inserting_le : s.inserting ≤ crowd := by
  obtain ⟨held, acts, rfl, hbefore⟩ := h
  exact hbefore acts (List.prefix_refl _)

theorem act (a : Act) (hcrowd : (s.act S a).inserting ≤ crowd) :
    (s.act S a).IsWithin S store crowd := by
  obtain ⟨held, acts, rfl, hbefore⟩ := h
  refine ⟨held, acts ++ [a], run_concat _ _ _, fun before hprefix => ?_⟩
  rcases List.prefix_concat_iff.mp hprefix with rfl | hold
  · rw [run_concat]
    exact hcrowd
  · exact hbefore before hold

end IsWithin

/-- So many tasks are pending, and so many calls, the last ones, are about to insert one more. -/
structure IsCrowded (S : Setting σ) (store : σ) (crowd pending waiting : Nat) (s : State σ) :
    Prop where
  within : s.IsWithin S store crowd
  isOpen : s.shared.shuttingDown = false
  pending : s.shared.registry.pending = pending
  calls : ∃ others, s.calls = others ++ List.replicate waiting (.insert "s" none none) ∧
    others.countP Call.isInserting = 0

namespace IsCrowded

variable {store : σ} {crowd pending waiting : Nat} {s : State σ}

theorem inserting (h : s.IsCrowded S store crowd pending waiting) : s.inserting = waiting := by
  obtain ⟨others, hcalls, hothers⟩ := h.calls
  rw [State.inserting, hcalls, List.countP_append, hothers, List.countP_replicate, Nat.zero_add]
  exact if_pos rfl

/-- One more call counts the pending tasks. -/
theorem count (h : s.IsCrowded S store crowd pending waiting)
    (hdepth : pending < S.limits.maxQueueDepth) (hcrowd : waiting < crowd) :
    ∃ s' : State σ, s'.IsCrowded S store crowd pending (waiting + 1) := by
  have hcheck : (Call.check "s" none none).step? S s.dispatcher s.shared
      = some (s.shared, .count "s" none none) := by
    have hblank : Text.isBlank "s" = false := by decide
    simp only [Call.step?, hblank, h.isOpen, Bool.false_eq_true, if_false]
  have hcount : (Call.count "s" none none).step? S s.dispatcher s.shared
      = some (s.shared, .insert "s" none none) := by
    have hbelow : ¬ S.limits.maxQueueDepth ≤ s.shared.registry.count .pending := by
      rw [← h.within.isSound.pending_eq, h.pending]
      exact Nat.not_le_of_lt hdepth
    simp only [Call.step?, if_neg hbelow]
  have hinserting : ∀ call, (s.addCall call).inserting ≤ waiting + call.isInserting.toNat := by
    intro call
    rw [inserting_addCall, h.inserting]
  -- A submission is made and takes its first two turns.
  have hfirst : (s.addCall (.check "s" none none)).IsWithin S store crowd :=
    h.within.act (.request (.submit "s" none)) ((hinserting _).trans hcrowd.le)
  have hsecond : (s.addCall (.count "s" none none)).IsWithin S store crowd := by
    rw [← act_addCall hcheck]
    refine hfirst.act _ ?_
    rw [act_addCall hcheck]
    exact (hinserting _).trans hcrowd.le
  have hthird : (s.addCall (.insert "s" none none)).IsWithin S store crowd := by
    rw [← act_addCall hcount]
    refine hsecond.act _ ?_
    rw [act_addCall hcount]
    exact (hinserting _).trans hcrowd
  obtain ⟨others, hcalls, hothers⟩ := h.calls
  refine ⟨_, hthird, h.isOpen, h.pending, others, ?_, hothers⟩
  rw [addCall, hcalls, List.append_assoc, ← List.replicate_succ']

/-- The first of the calls inserts its task. -/
theorem insert (h : s.IsCrowded S store crowd pending (waiting + 1)) :
    ∃ s' : State σ, s'.IsCrowded S store crowd (pending + 1) waiting := by
  obtain ⟨others, hcalls, hothers⟩ := h.calls
  have hsound := h.within.isSound
  have hcall : s.calls[others.length]? = some (.insert "s" none none) := by
    rw [hcalls, List.replicate_succ]
    exact List.getElem?_append_right (le_refl _) |>.trans (by rw [Nat.sub_self]; rfl)
  have hturn := act_call (S := S) hcall rfl
  have hcount := countP_set Call.isInserting (.send ⟨idOf s.shared.issued, "s", none⟩) hcall
  have hle : (s.act S (.move (.call others.length))).inserting ≤ crowd := by
    have hnow := h.within.inserting_le
    rw [hturn]
    simp only [State.inserting] at hnow ⊢
    simp only [Call.isInserting, Bool.toNat_true, Bool.toNat_false] at hcount
    omega
  have hwithin := h.within.act _ hle
  rw [hturn] at hwithin
  refine ⟨_, hwithin, h.isOpen, ?_, others ++ [.send ⟨idOf s.shared.issued, "s", none⟩], ?_, ?_⟩
  · rw [← h.pending]
    exact TaskRegistry.pending_insert hsound.idOf_not_mem rfl
  · show s.calls.set _ _ = _
    rw [hcalls, List.replicate_succ, List.set_append_right _ _ (le_refl _), Nat.sub_self,
      List.set_cons_zero, List.append_assoc]
    rfl
  · rw [List.countP_append, hothers]
    rfl

end IsCrowded

/-- As many tasks as allowed but one are submitted, one after the other. -/
theorem exists_isCrowded_pending (S : Setting σ) (store : σ) {crowd : Nat} (hcrowd : 1 ≤ crowd) :
    ∀ pending, pending < S.limits.maxQueueDepth →
      ∃ s : State σ, s.IsCrowded S store crowd pending 0 := by
  intro pending
  induction pending with
  | zero =>
    intro _
    refine ⟨State.start S.limits store [], ⟨[], [], rfl, fun before hbefore => ?_⟩, rfl, rfl, [],
      rfl, rfl⟩
    rw [List.prefix_nil.mp hbefore]
    exact Nat.zero_le _
  | succ pending ih =>
    intro hdepth
    obtain ⟨s, hs⟩ := ih (Nat.lt_of_succ_lt hdepth)
    obtain ⟨s', hs'⟩ := hs.count (Nat.lt_of_succ_lt hdepth) hcrowd
    exact hs'.insert

/-- Then as many calls as may be at once count the pending tasks. -/
theorem exists_isCrowded_waiting (S : Setting σ) (store : σ) {crowd : Nat} (hcrowd : 1 ≤ crowd)
    (hdepth : 1 ≤ S.limits.maxQueueDepth) :
    ∀ waiting ≤ crowd,
      ∃ s : State σ, s.IsCrowded S store crowd (S.limits.maxQueueDepth - 1) waiting := by
  have hlt : S.limits.maxQueueDepth - 1 < S.limits.maxQueueDepth :=
    Nat.sub_lt hdepth Nat.one_pos
  intro waiting
  induction waiting with
  | zero => exact fun _ => exists_isCrowded_pending S store hcrowd _ hlt
  | succ waiting ih =>
    intro hwaiting
    obtain ⟨s, hs⟩ := ih (Nat.le_of_succ_le hwaiting)
    exact hs.count hlt hwaiting

/-- All calls that have counted the pending tasks insert theirs. -/
theorem IsCrowded.exists_pending {store : σ} {crowd pending waiting : Nat} {s : State σ}
    (h : s.IsCrowded S store crowd pending waiting) :
    ∃ s' : State σ, s'.IsCrowded S store crowd (pending + waiting) 0 := by
  induction waiting generalizing pending s with
  | zero => exact ⟨s, h⟩
  | succ waiting ih =>
    obtain ⟨s', hs'⟩ := h.insert
    rw [Nat.add_succ, ← Nat.succ_add]
    exact ih hs'

end State

/-- As long as no more than `crowd` submissions at a time stand between counting the pending tasks
and inserting their own, there may be as many pending tasks as the limit says, and one more for
every submission of these but the first. -/
theorem isGreatest_pending (S : Setting σ) (store : σ) (crowd : Nat)
    (hdepth : 1 ≤ S.limits.maxQueueDepth) (hcrowd : 1 ≤ crowd) :
    IsGreatest {n | ∃ s : State σ, s.IsWithin S store crowd ∧ s.shared.registry.pending = n}
      (S.limits.maxQueueDepth + (crowd - 1)) := by
  constructor
  · obtain ⟨s, hs⟩ := State.exists_isCrowded_waiting S store hcrowd hdepth crowd (le_refl _)
    obtain ⟨s', hs'⟩ := hs.exists_pending
    refine ⟨s', hs'.within, hs'.pending.trans ?_⟩
    omega
  · rintro n ⟨s, hs, rfl⟩
    exact hs.pending_le

/-- Of three submissions at a time two may pass that should not: where two tasks may wait, up to
four do. -/
theorem isGreatest_pending_three :
    IsGreatest {n | ∃ s : State Store.Memory,
      s.IsWithin (.withoutFiles { maxQueueDepth := 2 }) .empty 3 ∧
        s.shared.registry.pending = n} 4 :=
  isGreatest_pending (.withoutFiles { maxQueueDepth := 2 }) Store.Memory.empty 3 (by decide)
    (by decide)

/-- Two submissions count the pending tasks before either inserts its own, and both pass where only
one task may wait. -/
theorem pending_exceeds :
    let S := Setting.withoutFiles { maxQueueDepth := 1 }
    let acts := [.request (.submit "s" none), .request (.submit "s" none)]
      ++ Move.turns (.call 0) 2 ++ Move.turns (.call 1) 4 ++ Move.turns (.call 0) 2
    let s := (State.start S.limits Store.Memory.empty []).run S acts
    S.limits.maxQueueDepth = 1 ∧ s.shared.registry.count .pending = 2 ∧
      s.calls = [.done (.id "T1"), .done (.id "T0")] := by
  decide +kernel

end Scheduler

end CodeIndex
