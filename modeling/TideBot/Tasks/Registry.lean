/-
  Background tasks of several processes, and their registry in Redis (`tasks.py`).

  `create_task` starts a task and then saves its id: in a hash of all tasks, and in the set of the tasks of its item.
  `cleanup_task` takes it out again, whether or not it has been saved by then: when the task is done, and before that
  when a chat has been processed.  `stop_task` looks up the item, publishes a command to all processes that are
  subscribed, and takes the task out.  `redis_cleanup_task` ends by deleting the set of an item if it has counted no
  task in it; that is a command of its own.

  A pipeline is one step, as is every other command, and anything may happen between two of them.  Ids are new
  (`uuid4`).
-/
import TideBot.Lib.Dict
import TideBot.Lib.Machine
import TideBot.Lib.Text

namespace TideBot

open Lib

inductive TaskPhase where
  | running
  | done
deriving DecidableEq

/-- A task, as its process has it. -/
structure TaskEntry where
  process : ℕ
  item : Option Text
  /-- `redis_save_task` has been executed -/
  saved : Bool
  /-- for a command that stops it -/
  cancelled : Bool
  phase : TaskPhase
  /-- the pipeline of a `cleanup_task` has been executed -/
  cleaned : Bool
deriving DecidableEq

/-- Where a call of `stop_task` or `cleanup_task` goes on; the latter ends with a task to forget. -/
inductive TaskCall where
  | publishing (task : Text) (item : Option Text)
  | cleaning (task : Text) (item : Option Text)
  | counting (item : Text) (forget : Option Text)
  | deleting (item : Text) (forget : Option Text)
deriving DecidableEq

structure TaskWorld where
  tasks : Dict Text TaskEntry
  /-- The tasks that are in `tasks`, each of its process. -/
  known : Finset Text
  /-- `tasks` in Redis: each task with its item, or with the empty text -/
  hash : Dict Text Text
  /-- `tasks:item:{item_id}`: items with their tasks -/
  sets : Finset (Text × Text)
  /-- The commands that a subscribed process has not read yet. -/
  inboxes : Dict ℕ (List Text)
  calls : Dict ℕ TaskCall

inductive TaskStep where
  /-- `create_task`, up to the first `await` -/
  | create (process : ℕ) (task : Text) (item : Option Text)
  /-- `redis_save_task` -/
  | save (task : Text)
  /-- The coroutine of a task ends, or is cancelled. -/
  | finish (task : Text)
  /-- `cleanup_task`: the pipeline of `redis_cleanup_task` -/
  | cleanup (call : ℕ) (task : Text)
  /-- The same of an id that is no task's, when a chat is processed without one. -/
  | cleanupChat (call : ℕ) (item : Text)
  /-- `stop_task`: the item is looked up -/
  | stop (call : ℕ) (task : Text)
  | resume (call : ℕ)
  /-- `redis_task_command_listener` -/
  | subscribe (process : ℕ)
  | disconnect (process : ℕ)
  | listen (process : ℕ)
deriving DecidableEq

inductive TaskEvent where
  | none
  | saved (task : Text)
  | cleaned (task : Text)
  | stopping (task : Text)
  /-- The set of an item is deleted, with what was in it. -/
  | deleted (lost : Finset (Text × Text))
deriving DecidableEq

/-- An empty item is none. -/
def truthyItem (item : Option Text) : Option Text := item.filter (· ≠ [])

/-- Where the sets have a task. -/
def itemMembers (task : Text) (item : Option Text) : Finset (Text × Text) :=
  match truthyItem item with
  | some i => {(i, task)}
  | none => ∅

namespace TaskWorld

variable (w : TaskWorld)

/-- `redis_save_task` -/
def redisSaveTask (task : Text) (item : Option Text) : TaskWorld :=
  { w with hash := w.hash.set task (item.getD []), sets := w.sets ∪ itemMembers task item }

/-- A call returns, and `cleanup_task` forgets its task. -/
def returned (call : ℕ) (forget : Option Text) : TaskWorld :=
  { w with known := w.known \ forget.toFinset, calls := w.calls.erase call }

/-- `redis_cleanup_task`: the pipeline, and how it goes on -/
def redisCleanupTask (call : ℕ) (task : Text) (item : Option Text) (forget : Option Text) : TaskWorld :=
  { w with
    hash := w.hash.erase task
    sets := w.sets \ itemMembers task item
    known := if truthyItem item = none then w.known \ forget.toFinset else w.known
    calls := match truthyItem item with
      | some i => w.calls.set call (.counting i forget)
      | none => w.calls.erase call }

/-- The process of a task cancels it, if it is running. -/
def cancel (process : ℕ) (task : Text) : TaskWorld :=
  match w.tasks.get task with
  | some e =>
    if e.process = process ∧ task ∈ w.known ∧ e.phase = .running then { w with tasks := w.tasks.set task { e with cancelled := true } }
    else w
  | none => w

/-- The next command of a call. -/
def resume (call : ℕ) : TaskCall → TaskWorld × TaskEvent
  | .publishing task item =>
    ({ w with inboxes := w.inboxes.mapValues (· ++ [task]), calls := w.calls.set call (.cleaning task item) }, .none)
  | .cleaning task item => (w.redisCleanupTask call task item none, .none)
  | .counting item forget =>
    if ∀ m ∈ w.sets, m.1 ≠ item then ({ w with calls := w.calls.set call (.deleting item forget) }, .none)
    else (w.returned call forget, .none)
  | .deleting item forget =>
    (({ w with sets := w.sets.filter fun m => m.1 ≠ item } : TaskWorld).returned call forget,
      .deleted (w.sets.filter fun m => m.1 = item))

end TaskWorld

/-- The registry as a machine. -/
def taskMachine : Machine TaskWorld TaskStep TaskEvent where
  step w
    | .create process task item =>
      if (w.tasks.get task).isSome then none
      else some ({ w with
        tasks := w.tasks.set task ⟨process, item, false, false, .running, false⟩
        known := insert task w.known }, .none)
    | .save task => ((w.tasks.get task).filter fun e => !e.saved).map fun e =>
      (({ w with tasks := w.tasks.set task { e with saved := true } } : TaskWorld).redisSaveTask task e.item, .saved task)
    | .finish task => ((w.tasks.get task).filter fun e => e.phase = .running).map fun e =>
      ({ w with tasks := w.tasks.set task { e with phase := .done } }, .none)
    | .cleanup call task =>
      if (w.calls.get call).isSome then none
      else (w.tasks.get task).map fun e =>
        (({ w with tasks := w.tasks.set task { e with cleaned := true } } : TaskWorld).redisCleanupTask call task e.item
          (some task), .cleaned task)
    | .cleanupChat call item =>
      if (w.calls.get call).isSome then none
      else some ({ w with calls := w.calls.set call (.counting item none) }, .none)
    | .stop call task =>
      if (w.calls.get call).isSome then none
      else some ({ w with calls := w.calls.set call (.publishing task (w.hash.get task)) }, .stopping task)
    | .resume call => (w.calls.get call).map fun c => w.resume call c
    | .subscribe process => some ({ w with inboxes := w.inboxes.set process [] }, .none)
    | .disconnect process => some ({ w with inboxes := w.inboxes.erase process }, .none)
    | .listen process =>
      match w.inboxes.get process with
      | some (task :: rest) =>
        some (({ w with inboxes := w.inboxes.set process rest } : TaskWorld).cancel process task, .none)
      | _ => none

/-! ## What a step does to a task -/

variable {w w' : TaskWorld} {tr : List (TaskStep × TaskEvent)} {i : TaskStep} {o : TaskEvent} {task : Text}

theorem mem_itemMembers {task' : Text} {item : Option Text} {m : Text} :
    (m, task) ∈ itemMembers task' item ↔ task = task' ∧ truthyItem item = some m := by
  rw [itemMembers]
  split
  · rename_i i hi
    rw [Finset.mem_singleton, Prod.mk.injEq, hi, Option.some.injEq, and_comm]
    exact and_congr_right fun _ => eq_comm
  · rename_i hnone
    simp [hnone]

/-- The task that a call of `stop_task` stops. -/
def TaskCall.stops : TaskCall → Option Text
  | .publishing task _ | .cleaning task _ => some task
  | .counting .. | .deleting .. => none

/-- A call, or a command, that stops a task is on its way. -/
def TaskWorld.Stopping (w : TaskWorld) (task : Text) : Prop :=
  (∃ call c, w.calls.get call = some c ∧ c.stops = some task) ∨
    ∃ process commands, w.inboxes.get process = some commands ∧ task ∈ commands

/-- A task stays in the sets where it is. -/
def SameSets (task : Text) (w w' : TaskWorld) : Prop := ∀ m, (m, task) ∈ w'.sets ↔ (m, task) ∈ w.sets

/-- **What a step does to a task, and to its places in the registry.** -/
inductive TaskDoes (task : Text) (w w' : TaskWorld) (o : TaskEvent) : Prop where
  | idle (htasks : w'.tasks.get task = w.tasks.get task) (hhash : w'.hash.get task = w.hash.get task)
    (hsets : SameSets task w w') (ho : o ≠ .saved task ∧ o ≠ .cleaned task ∧ ∀ lost, o ≠ .deleted lost)
  | create {process item} (hnew : w.tasks.get task = none) (ho : o = .none)
    (htasks : w'.tasks.get task = some ⟨process, item, false, false, .running, false⟩)
    (hhash : w'.hash.get task = w.hash.get task) (hsets : SameSets task w w')
  | save {e} (he : w.tasks.get task = some e) (hsaved : e.saved = false) (ho : o = .saved task)
    (htasks : w'.tasks.get task = some { e with saved := true }) (hhash : w'.hash.get task = some (e.item.getD []))
    (hsets : ∀ m, (m, task) ∈ w'.sets ↔ (m, task) ∈ w.sets ∨ truthyItem e.item = some m)
  | finish {e} (he : w.tasks.get task = some e) (ho : o = .none)
    (htasks : w'.tasks.get task = some { e with phase := .done }) (hhash : w'.hash.get task = w.hash.get task)
    (hsets : SameSets task w w')
  | cleanup {e} (he : w.tasks.get task = some e) (ho : o = .cleaned task)
    (htasks : w'.tasks.get task = some { e with cleaned := true }) (hhash : w'.hash.get task = none)
    (hsets : ∀ m, (m, task) ∈ w'.sets ↔ (m, task) ∈ w.sets ∧ truthyItem e.item ≠ some m)
  | cancel {e} (he : w.tasks.get task = some e) (ho : o = .none) (hstopping : w.Stopping task)
    (htasks : w'.tasks.get task = some { e with cancelled := true }) (hhash : w'.hash.get task = w.hash.get task)
    (hsets : SameSets task w w')
  | clean (hstopping : w.Stopping task) (ho : o = .none) (htasks : w'.tasks.get task = w.tasks.get task)
    (hhash : w'.hash.get task = none) (hsets : ∀ m, (m, task) ∈ w'.sets → (m, task) ∈ w.sets)
  | delete {lost} (ho : o = .deleted lost) (htasks : w'.tasks.get task = w.tasks.get task)
    (hhash : w'.hash.get task = w.hash.get task)
    (hsets : ∀ m, (m, task) ∈ w.sets ↔ (m, task) ∈ w'.sets ∨ (m, task) ∈ lost)
    (hlost : ∀ m, (m, task) ∈ lost → (m, task) ∉ w'.sets)

theorem sameSets_refl (h : w'.sets = w.sets) : SameSets task w w' := fun _ => by rw [h]

theorem TaskDoes.of_eq (htasks : w'.tasks = w.tasks) (hhash : w'.hash = w.hash) (hsets : w'.sets = w.sets)
    (ho : o ≠ .saved task ∧ o ≠ .cleaned task ∧ ∀ lost, o ≠ .deleted lost) : TaskDoes task w w' o :=
  .idle (by rw [htasks]) (by rw [hhash]) (sameSets_refl hsets) ho

theorem TaskDoes.of_ne {task' : Text} {e : TaskEntry} (hne : task ≠ task') (htasks : w'.tasks = w.tasks.set task' e)
    (hhash : w'.hash.get task = w.hash.get task) (hsets : SameSets task w w')
    (ho : o ≠ .saved task ∧ o ≠ .cleaned task ∧ ∀ lost, o ≠ .deleted lost) : TaskDoes task w w' o :=
  .idle (by rw [htasks, Dict.get_set_of_ne _ hne]) hhash hsets ho

theorem sameSets_redisSaveTask {task' : Text} {item : Option Text} (hne : task ≠ task') :
    SameSets task w (w.redisSaveTask task' item) := by
  intro m
  simp only [TaskWorld.redisSaveTask, Finset.mem_union, mem_itemMembers, hne, false_and, or_false]

theorem sameSets_redisCleanupTask {call : ℕ} {task' : Text} {item forget : Option Text} (hne : task ≠ task') :
    SameSets task w (w.redisCleanupTask call task' item forget) := by
  intro m
  simp only [TaskWorld.redisCleanupTask, Finset.mem_sdiff, mem_itemMembers, hne, false_and, not_false_eq_true, and_true]

theorem TaskDoes.resume {call : ℕ} {c : TaskCall} (hc : w.calls.get call = some c) :
    TaskDoes task w (w.resume call c).1 (w.resume call c).2 := by
  cases c with
  | publishing task' item => exact .of_eq rfl rfl rfl (by simp [TaskWorld.resume])
  | cleaning task' item =>
    by_cases heq : task = task'
    · subst heq
      exact .clean (.inl ⟨call, _, hc, rfl⟩) rfl rfl (Dict.get_erase_self ..) fun m hm => (Finset.mem_sdiff.1 hm).1
    · exact .idle rfl (Dict.get_erase_of_ne _ heq) (sameSets_redisCleanupTask heq) (by simp [TaskWorld.resume])
  | counting item forget =>
    rw [TaskWorld.resume]
    split_ifs
    · exact .of_eq rfl rfl rfl (by simp)
    · exact .of_eq rfl rfl rfl (by simp)
  | deleting item forget =>
    refine .delete rfl rfl rfl (fun m => ?_) fun m hm => ?_
    · by_cases hitem : m = item <;> simp [TaskWorld.resume, TaskWorld.returned, hitem]
    · simp only [Finset.mem_filter] at hm
      simp [TaskWorld.resume, TaskWorld.returned, hm.2]

theorem TaskDoes.listen {process : ℕ} {task' : Text} {rest : List Text}
    (hinbox : w.inboxes.get process = some (task' :: rest)) :
    TaskDoes task w (({ w with inboxes := w.inboxes.set process rest } : TaskWorld).cancel process task') .none := by
  have ho : TaskEvent.none ≠ .saved task ∧ TaskEvent.none ≠ .cleaned task ∧ ∀ lost, TaskEvent.none ≠ .deleted lost := by
    simp
  rw [TaskWorld.cancel]
  split
  · rename_i e he
    split_ifs
    · by_cases heq : task = task'
      · subst heq
        exact .cancel he rfl (.inr ⟨process, _, hinbox, List.mem_cons_self ..⟩) (Dict.get_set_self ..) rfl
          (sameSets_refl rfl)
      · exact .of_ne heq rfl rfl (sameSets_refl rfl) ho
    · exact .of_eq rfl rfl rfl ho
  · exact .of_eq rfl rfl rfl ho

/-- **One step.** -/
theorem taskDoes_of_step (hs : taskMachine.step w i = some (w', o)) : TaskDoes task w w' o := by
  cases i with
  | create process task' item =>
    obtain ⟨hnew, hs⟩ := Option.ite_none_left_eq_some.1 hs
    cases hs
    by_cases heq : task = task'
    · subst heq
      exact .create (Option.not_isSome_iff_eq_none.1 hnew) rfl (Dict.get_set_self ..) rfl (sameSets_refl rfl)
    · exact .of_ne heq rfl rfl (sameSets_refl rfl) (by simp)
  | save task' =>
    obtain ⟨e, he, hs⟩ := Option.map_eq_some_iff.1 hs
    obtain ⟨he, hsaved⟩ := Option.filter_eq_some_iff.1 he
    cases hs
    by_cases heq : task = task'
    · subst heq
      refine .save he (by simpa using hsaved) rfl (Dict.get_set_self ..) (Dict.get_set_self ..) fun m => ?_
      simp only [TaskWorld.redisSaveTask, Finset.mem_union, mem_itemMembers, true_and]
    · refine .of_ne heq rfl (Dict.get_set_of_ne _ heq) (sameSets_redisSaveTask heq) ⟨?_, by simp, by simp⟩
      rintro ⟨⟩
      exact heq rfl
  | finish task' =>
    obtain ⟨e, he, hs⟩ := Option.map_eq_some_iff.1 hs
    obtain ⟨he, -⟩ := Option.filter_eq_some_iff.1 he
    cases hs
    by_cases heq : task = task'
    · subst heq
      exact .finish he rfl (Dict.get_set_self ..) rfl (sameSets_refl rfl)
    · exact .of_ne heq rfl rfl (sameSets_refl rfl) (by simp)
  | cleanup call task' =>
    obtain ⟨-, hs⟩ := Option.ite_none_left_eq_some.1 hs
    obtain ⟨e, he, hs⟩ := Option.map_eq_some_iff.1 hs
    cases hs
    by_cases heq : task = task'
    · subst heq
      refine .cleanup he rfl (Dict.get_set_self ..) (Dict.get_erase_self ..) fun m => ?_
      simp only [TaskWorld.redisCleanupTask, Finset.mem_sdiff, mem_itemMembers, true_and, ne_eq]
    · refine .of_ne heq rfl (Dict.get_erase_of_ne _ heq) (sameSets_redisCleanupTask heq) ⟨by simp, ?_, by simp⟩
      rintro ⟨⟩
      exact heq rfl
  | stop call task' =>
    obtain ⟨-, hs⟩ := Option.ite_none_left_eq_some.1 hs
    cases hs
    exact .of_eq rfl rfl rfl (by simp)
  | cleanupChat call item =>
    obtain ⟨-, hs⟩ := Option.ite_none_left_eq_some.1 hs
    cases hs
    exact .of_eq rfl rfl rfl (by simp)
  | resume call =>
    obtain ⟨c, hc, hs⟩ := Option.map_eq_some_iff.1 hs
    obtain ⟨rfl, rfl⟩ := Prod.mk.inj hs
    exact .resume hc
  | subscribe process =>
    cases hs
    exact .of_eq rfl rfl rfl (by simp)
  | disconnect process =>
    cases hs
    exact .of_eq rfl rfl rfl (by simp)
  | listen process =>
    simp only [taskMachine] at hs
    split at hs
    · rename_i task' rest hinbox
      cases hs
      exact .listen hinbox
    · cases hs

theorem stopping_of_eq (h : w'.Stopping task) (hinboxes : w'.inboxes = w.inboxes)
    (hcalls : ∀ call c, w'.calls.get call = some c → c.stops = some task → w.Stopping task) : w.Stopping task := by
  rcases h with ⟨call, c, hc, hstops⟩ | ⟨process, commands, hinbox, hmem⟩
  · exact hcalls call c hc hstops
  · exact .inr ⟨process, commands, hinboxes ▸ hinbox, hmem⟩

theorem stopping_of_set {call : ℕ} {c : TaskCall} (hc : c.stops = none) (hcalls : w'.calls = w.calls.set call c) :
    ∀ call c, w'.calls.get call = some c → c.stops = some task → w.Stopping task := by
  intro call' c' hc' hstops
  rw [hcalls] at hc'
  rcases Dict.eq_or_get_of_set hc' with ⟨-, rfl⟩ | hc'
  · rw [hc] at hstops
    cases hstops
  · exact .inl ⟨call', c', hc', hstops⟩

theorem stopping_of_erase {call : ℕ} (hcalls : w'.calls = w.calls.erase call) :
    ∀ call c, w'.calls.get call = some c → c.stops = some task → w.Stopping task := by
  intro call' c' hc' hstops
  rw [hcalls] at hc'
  exact .inl ⟨call', c', Dict.get_of_erase hc', hstops⟩

theorem stopping_of_redisCleanupTask {call : ℕ} {task' : Text} {item forget : Option Text}
    (h : (w.redisCleanupTask call task' item forget).Stopping task) : w.Stopping task := by
  refine stopping_of_eq h rfl ?_
  cases hitem : truthyItem item with
  | none =>
    have hcalls : (w.redisCleanupTask call task' item forget).calls = w.calls.erase call := by
      simp only [TaskWorld.redisCleanupTask, hitem]
    exact stopping_of_erase hcalls
  | some i =>
    have hcalls : (w.redisCleanupTask call task' item forget).calls = w.calls.set call (.counting i forget) := by
      simp only [TaskWorld.redisCleanupTask, hitem]
    exact stopping_of_set rfl hcalls

theorem stopping_of_resume {call : ℕ} {c : TaskCall} (hc : w.calls.get call = some c)
    (h : (w.resume call c).1.Stopping task) : w.Stopping task := by
  cases c with
  | publishing task' item =>
    have hthis : task = task' → w.Stopping task := by
      rintro rfl
      exact .inl ⟨call, _, hc, rfl⟩
    rcases h with ⟨call', c', hc', hstops⟩ | ⟨process, commands, hinbox, hmem⟩
    · rcases Dict.eq_or_get_of_set hc' with ⟨-, rfl⟩ | hc'
      · exact hthis (Option.some.inj hstops).symm
      · exact .inl ⟨call', c', hc', hstops⟩
    · obtain ⟨commands', hinbox', rfl⟩ := Option.map_eq_some_iff.1 (Dict.get_mapValues.symm.trans hinbox)
      rcases List.mem_append.1 hmem with hmem | hmem
      · exact .inr ⟨process, commands', hinbox', hmem⟩
      · exact hthis (List.mem_singleton.1 hmem)
  | cleaning task' item => exact stopping_of_redisCleanupTask h
  | counting item forget =>
    rw [TaskWorld.resume] at h
    split_ifs at h
    · exact stopping_of_eq h rfl (stopping_of_set (c := .deleting item forget) rfl rfl)
    · exact stopping_of_eq h rfl (stopping_of_erase rfl)
  | deleting item forget => exact stopping_of_eq h rfl (stopping_of_erase rfl)

theorem cancel_calls {process : ℕ} {task' : Text} :
    (w.cancel process task').calls = w.calls ∧ (w.cancel process task').inboxes = w.inboxes := by
  rw [TaskWorld.cancel]
  split
  · split_ifs <;> exact ⟨rfl, rfl⟩
  · exact ⟨rfl, rfl⟩

/-- **A stop that is on its way was before, or starts now.** -/
theorem stopping_of_step (hs : taskMachine.step w i = some (w', o)) (h : w'.Stopping task) :
    w.Stopping task ∨ o = .stopping task := by
  cases i with
  | create =>
    obtain ⟨-, hs⟩ := Option.ite_none_left_eq_some.1 hs
    cases hs
    exact .inl h
  | save | finish =>
    obtain ⟨e, -, hs⟩ := Option.map_eq_some_iff.1 hs
    cases hs
    exact .inl h
  | cleanup call task' =>
    obtain ⟨-, hs⟩ := Option.ite_none_left_eq_some.1 hs
    obtain ⟨e, -, hs⟩ := Option.map_eq_some_iff.1 hs
    cases hs
    have hclean : (w.redisCleanupTask call task' e.item (some task')).Stopping task := h
    exact .inl (stopping_of_redisCleanupTask hclean)
  | cleanupChat call item =>
    obtain ⟨-, hs⟩ := Option.ite_none_left_eq_some.1 hs
    cases hs
    exact .inl (stopping_of_eq h rfl (stopping_of_set (c := .counting item none) rfl rfl))
  | stop call task' =>
    obtain ⟨-, hs⟩ := Option.ite_none_left_eq_some.1 hs
    cases hs
    rcases h with ⟨call', c, hc, hstops⟩ | hinbox
    · rcases Dict.eq_or_get_of_set hc with ⟨-, rfl⟩ | hc
      · exact .inr (congrArg TaskEvent.stopping (Option.some.inj hstops))
      · exact .inl (.inl ⟨call', c, hc, hstops⟩)
    · exact .inl (.inr hinbox)
  | resume call =>
    obtain ⟨c, hc, hs⟩ := Option.map_eq_some_iff.1 hs
    obtain ⟨rfl, rfl⟩ := Prod.mk.inj hs
    exact .inl (stopping_of_resume hc h)
  | subscribe process =>
    cases hs
    rcases h with hcalls | ⟨process', commands, hinbox, hmem⟩
    · exact .inl (.inl hcalls)
    · rcases Dict.eq_or_get_of_set hinbox with ⟨-, rfl⟩ | hinbox
      · cases hmem
      · exact .inl (.inr ⟨process', commands, hinbox, hmem⟩)
  | disconnect process =>
    cases hs
    rcases h with hcalls | ⟨process', commands, hinbox, hmem⟩
    · exact .inl (.inl hcalls)
    · exact .inl (.inr ⟨process', commands, Dict.get_of_erase hinbox, hmem⟩)
  | listen process =>
    simp only [taskMachine] at hs
    split at hs
    · rename_i task' rest hread
      cases hs
      rw [TaskWorld.Stopping, cancel_calls.1, cancel_calls.2] at h
      rcases h with hcalls | ⟨process', commands, hinbox, hmem⟩
      · exact .inl (.inl hcalls)
      · rcases Dict.eq_or_get_of_set hinbox with ⟨-, rfl⟩ | hinbox
        · exact .inl (.inr ⟨process, _, hread, List.mem_cons_of_mem _ hmem⟩)
        · exact .inl (.inr ⟨process', commands, hinbox, hmem⟩)
    · cases hs

/-! ## What the registry lists -/

/-- Nothing has been started. -/
def TaskWorld.initial : TaskWorld := ⟨.empty, ∅, .empty, ∅, .empty, .empty⟩

/-- What is so of a task after a run with these events. -/
structure TaskInv (task : Text) (events : List TaskEvent) (w : TaskWorld) : Prop where
  stopped : w.Stopping task → .stopping task ∈ events
  known : ∀ m, (m, task) ∈ w.sets → ∃ e, w.tasks.get task = some e ∧ e.saved = true ∧ truthyItem e.item = some m
  lost : ∀ lost m, .deleted lost ∈ events → (m, task) ∈ lost →
    (m, task) ∉ w.sets ∧ ∃ e, w.tasks.get task = some e ∧ e.saved = true
  listed : ∀ e, w.tasks.get task = some e → .stopping task ∉ events → e.cancelled = false ∧
    (e.saved = true → e.cleaned = false → w.hash.get task = some (e.item.getD []) ∧
      ∀ m, truthyItem e.item = some m → (m, task) ∈ w.sets ∨ ∃ lost, .deleted lost ∈ events ∧ (m, task) ∈ lost)

variable {events : List TaskEvent}

/-- The sets and the deletions are as before, and the entry is saved if it was. -/
theorem TaskInv.of_sameSets (h : TaskInv task events w) (hstopped : w'.Stopping task → .stopping task ∈ events ++ [o])
    (hsets : SameSets task w w') (ho : ∀ lost, o ≠ .deleted lost)
    (hsaved : ∀ e, w.tasks.get task = some e → e.saved = true →
      ∃ e', w'.tasks.get task = some e' ∧ e'.saved = true ∧ e'.item = e.item)
    (hlisted : ∀ e', w'.tasks.get task = some e' → .stopping task ∉ events → (e'.cancelled = false ∧
      (e'.saved = true → e'.cleaned = false → w'.hash.get task = some (e'.item.getD []) ∧
        ∀ m, truthyItem e'.item = some m →
          (m, task) ∈ w.sets ∨ ∃ lost, .deleted lost ∈ events ∧ (m, task) ∈ lost))) :
    TaskInv task (events ++ [o]) w' where
  stopped := hstopped
  known m hm := by
    obtain ⟨e, he, hs, hitem⟩ := h.known m ((hsets m).1 hm)
    obtain ⟨e', he', hs', heq⟩ := hsaved e he hs
    exact ⟨e', he', hs', heq ▸ hitem⟩
  lost lost m hdeleted hm := by
    rcases List.mem_append.1 hdeleted with hdeleted | hdeleted
    · obtain ⟨hnot, e, he, hs⟩ := h.lost lost m hdeleted hm
      obtain ⟨e', he', hs', -⟩ := hsaved e he hs
      exact ⟨fun hm => hnot ((hsets m).1 hm), e', he', hs'⟩
    · exact absurd (List.mem_singleton.1 hdeleted).symm (ho lost)
  listed e' he' hnot := by
    obtain ⟨hcancelled, hrest⟩ := hlisted e' he' fun hmem => hnot (List.mem_append_left _ hmem)
    refine ⟨hcancelled, fun hs hcleaned => ?_⟩
    obtain ⟨hhash, hmembers⟩ := hrest hs hcleaned
    refine ⟨hhash, fun m hm => ?_⟩
    rcases hmembers m hm with hset | ⟨lost, hdeleted, hmem⟩
    · exact .inl ((hsets m).2 hset)
    · exact .inr ⟨lost, List.mem_append_left _ hdeleted, hmem⟩

theorem TaskInv.step (h : TaskInv task events w) (hs : taskMachine.step w i = some (w', o)) :
    TaskInv task (events ++ [o]) w' := by
  have hstopped : w'.Stopping task → .stopping task ∈ events ++ [o] := fun hw => by
    rcases stopping_of_step hs hw with hw | rfl
    · exact List.mem_append_left _ (h.stopped hw)
    · exact List.mem_append_right _ (List.mem_singleton_self _)
  have hdoes : TaskDoes task w w' o := taskDoes_of_step hs
  cases hdoes with
  | idle htasks hhash hsets ho =>
    refine h.of_sameSets hstopped hsets ho.2.2 (fun e he hsaved => ⟨e, htasks.trans he, hsaved, rfl⟩) ?_
    rw [htasks, hhash]
    exact h.listed
  | create hnew ho htasks hhash hsets =>
    refine h.of_sameSets hstopped hsets (by simp [ho]) (fun e he => by rw [hnew] at he; cases he) ?_
    rintro e' he' -
    obtain rfl := Option.some.inj (htasks.symm.trans he')
    exact ⟨rfl, fun hsaved => by cases hsaved⟩
  | @save e he hsaved ho htasks hhash hsets =>
    have hnone : ∀ m, (m, task) ∉ w.sets := fun m hm => by
      obtain ⟨e₁, he₁, hs₁, -⟩ := h.known m hm
      rw [Option.some.inj (he.symm.trans he₁)] at hsaved
      rw [hsaved] at hs₁
      cases hs₁
    have hknown : ∀ m, (m, task) ∈ w'.sets → truthyItem e.item = some m := fun m hm =>
      ((hsets m).1 hm).resolve_left (hnone m)
    refine ⟨hstopped, fun m hm => ⟨_, htasks, rfl, hknown m hm⟩, fun lost m hdeleted hm => ?_, fun e' he' hnot => ?_⟩
    · rcases List.mem_append.1 hdeleted with hdeleted | hdeleted
      · -- what has been deleted was saved
        obtain ⟨-, e₁, he₁, hs₁⟩ := h.lost lost m hdeleted hm
        rw [Option.some.inj (he.symm.trans he₁)] at hsaved
        rw [hsaved] at hs₁
        cases hs₁
      · rw [ho] at hdeleted
        cases List.mem_singleton.1 hdeleted
    · obtain rfl := Option.some.inj (htasks.symm.trans he')
      obtain ⟨hcancelled, -⟩ := h.listed e he fun hmem => hnot (List.mem_append_left _ hmem)
      exact ⟨hcancelled, fun _ _ => ⟨hhash, fun m hm => .inl ((hsets m).2 (.inr hm))⟩⟩
  | @finish e he ho htasks hhash hsets =>
    refine h.of_sameSets hstopped hsets (by simp [ho]) (fun e₁ he₁ hs₁ => ?_) fun e' he' hnot => ?_
    · obtain rfl := Option.some.inj (he.symm.trans he₁)
      exact ⟨_, htasks, hs₁, rfl⟩
    · obtain rfl := Option.some.inj (htasks.symm.trans he')
      obtain ⟨hcancelled, hrest⟩ := h.listed e he hnot
      rw [hhash]
      exact ⟨hcancelled, hrest⟩
  | @cleanup e he ho htasks hhash hsets =>
    refine ⟨hstopped, fun m hm => ?_, fun lost m hdeleted hm => ?_, fun e' he' hnot => ?_⟩
    · obtain ⟨e₁, he₁, hs₁, hitem⟩ := h.known m ((hsets m).1 hm).1
      obtain rfl := Option.some.inj (he.symm.trans he₁)
      exact ⟨_, htasks, hs₁, hitem⟩
    · rcases List.mem_append.1 hdeleted with hdeleted | hdeleted
      · obtain ⟨hnot, e₁, he₁, hs₁⟩ := h.lost lost m hdeleted hm
        obtain rfl := Option.some.inj (he.symm.trans he₁)
        exact ⟨fun hm => hnot ((hsets m).1 hm).1, _, htasks, hs₁⟩
      · rw [ho] at hdeleted
        cases List.mem_singleton.1 hdeleted
    · obtain rfl := Option.some.inj (htasks.symm.trans he')
      obtain ⟨hcancelled, -⟩ := h.listed e he fun hmem => hnot (List.mem_append_left _ hmem)
      exact ⟨hcancelled, fun _ hcleaned => by cases hcleaned⟩
  | @cancel e he ho hstopping htasks hhash hsets =>
    refine h.of_sameSets hstopped hsets (by simp [ho]) (fun e₁ he₁ hs₁ => ?_) fun e' _ hnot => ?_
    · obtain rfl := Option.some.inj (he.symm.trans he₁)
      exact ⟨_, htasks, hs₁, rfl⟩
    · exact absurd (h.stopped hstopping) hnot
  | clean hstopping ho htasks hhash hsets =>
    refine ⟨hstopped, fun m hm => ?_, fun lost m hdeleted hm => ?_, fun e' _ hnot => ?_⟩
    · rw [htasks]
      exact h.known m (hsets m hm)
    · rcases List.mem_append.1 hdeleted with hdeleted | hdeleted
      · obtain ⟨hnot, hsaved⟩ := h.lost lost m hdeleted hm
        exact ⟨fun hm => hnot (hsets m hm), htasks ▸ hsaved⟩
      · rw [ho] at hdeleted
        cases List.mem_singleton.1 hdeleted
    · exact absurd (List.mem_append_left _ (h.stopped hstopping)) hnot
  | @delete lost ho htasks hhash hsets hlost =>
    refine ⟨hstopped, fun m hm => ?_, fun lost' m hdeleted hm => ?_, fun e' he' hnot => ?_⟩
    · rw [htasks]
      exact h.known m ((hsets m).2 (.inl hm))
    · rw [htasks]
      rcases List.mem_append.1 hdeleted with hdeleted | hdeleted
      · obtain ⟨hnot, hsaved⟩ := h.lost lost' m hdeleted hm
        exact ⟨fun hm => hnot ((hsets m).2 (.inl hm)), hsaved⟩
      · rw [ho] at hdeleted
        cases List.mem_singleton.1 hdeleted
        obtain ⟨e, he, hs, -⟩ := h.known m ((hsets m).2 (.inr hm))
        exact ⟨hlost m hm, e, he, hs⟩
    · obtain ⟨hcancelled, hrest⟩ := h.listed e' (htasks ▸ he') fun hmem => hnot (List.mem_append_left _ hmem)
      refine ⟨hcancelled, fun hs hcleaned => ?_⟩
      obtain ⟨hin, hmembers⟩ := hrest hs hcleaned
      refine ⟨hhash.trans hin, fun m hm => ?_⟩
      rcases hmembers m hm with hset | ⟨lost', hdeleted, hmem⟩
      · rcases (hsets m).1 hset with hset | hmem
        · exact .inl hset
        · exact .inr ⟨lost, List.mem_append_right _ (by rw [ho]; exact List.mem_singleton_self _), hmem⟩
      · exact .inr ⟨lost', List.mem_append_left _ hdeleted, hmem⟩

theorem taskInv_run (hrun : taskMachine.Run .initial tr w') : TaskInv task (tr.map Prod.snd) w' := by
  refine hrun.traceInvariant (I := fun tr w => TaskInv task (tr.map Prod.snd) w) (fun tr w i w' o _ h hs => ?_) ?_
  · rw [List.map_append]
    exact h.step hs
  · refine ⟨?_, fun m hm => absurd hm (Finset.notMem_empty _), fun lost m hm => absurd hm List.not_mem_nil, ?_⟩
    · rintro (⟨call, c, hc, -⟩ | ⟨process, commands, hinbox, -⟩)
      · cases hc
      · cases hinbox
    · rintro e ⟨⟩

/-- **A running task that has been saved is listed**: in every run, as long as nobody stops it, it is not cancelled, the
    hash has it with its item, and it is in the set of its item, unless it was in a set that has been deleted. -/
theorem running_listed (hrun : taskMachine.Run .initial tr w') : ∀ task e, w'.tasks.get task = some e →
    e.saved = true → e.cleaned = false → .stopping task ∉ tr.map Prod.snd →
      e.cancelled = false ∧ w'.hash.get task = some (e.item.getD []) ∧ ∀ item, truthyItem e.item = some item →
        ((item, task) ∈ w'.sets ↔ ∀ lost, .deleted lost ∈ tr.map Prod.snd → (item, task) ∉ lost) := by
  intro task e he hsaved hcleaned hnot
  have h : TaskInv task (tr.map Prod.snd) w' := taskInv_run hrun
  obtain ⟨hcancelled, hrest⟩ := h.listed e he hnot
  obtain ⟨hhash, hmembers⟩ := hrest hsaved hcleaned
  refine ⟨hcancelled, hhash, fun item hitem => ⟨fun hset lost hdeleted hmem => ?_, fun hkept => ?_⟩⟩
  · exact (h.lost lost item hdeleted hmem).1 hset
  · rcases hmembers item hitem with hset | ⟨lost, hdeleted, hmem⟩
    · exact hset
    · exact absurd hmem (hkept lost hdeleted)

namespace Sample

/-- Two tasks of an item one after the other: the set is deleted after the first, when the second is in it. -/
def deletedRun : List TaskStep := [.create 0 (.lit "a") (some (.lit "c")), .save (.lit "a"), .finish (.lit "a"),
  .cleanup 0 (.lit "a"), .resume 0, .create 1 (.lit "b") (some (.lit "c")), .save (.lit "b"), .resume 0]

end Sample

/-- The second task runs and is in the hash, but not in the set of its item any more. -/
theorem running_listed_deleted : ∃ tr w', taskMachine.Run .initial tr w' ∧
    w'.hash.get (.lit "b") = some (.lit "c") ∧ (.lit "c", .lit "b") ∉ w'.sets := by
  obtain ⟨⟨tr, w'⟩, hm, he, hnot, hlost, hsets⟩ : ∃ r ∈ taskMachine.exec (fun _ _ => True) .initial Sample.deletedRun,
      r.2.tasks.get (.lit "b") = some ⟨1, some (.lit "c"), true, false, .running, false⟩ ∧
        .stopping (.lit "b") ∉ r.1.map Prod.snd ∧ .deleted {(.lit "c", .lit "b")} ∈ r.1.map Prod.snd ∧
          (.lit "c", .lit "b") ∉ r.2.sets := by
    decide +kernel
  have hrun := Machine.runIn_of_exec hm
  obtain ⟨-, hhash, -⟩ := running_listed hrun (.lit "b") _ he rfl rfl hnot
  exact ⟨tr, w', hrun, hhash, hsets⟩

/-! ## What it forgets -/

/-- A task that has been cleaned up after `before`, with these events since. -/
structure RemovedInv (task : Text) (before events : List TaskEvent) (w : TaskWorld) : Prop where
  stopped : w.Stopping task → .stopping task ∈ before ++ events
  created : (w.tasks.get task).isSome
  gone : .saved task ∉ events → w.hash.get task = none ∧ ∀ m, (m, task) ∉ w.sets
  listed : .saved task ∈ events → .cleaned task ∉ events → .stopping task ∉ before ++ events → w.hash.get task ≠ none

theorem RemovedInv.step {before : List TaskEvent} (h : RemovedInv task before events w)
    (hs : taskMachine.step w i = some (w', o)) : RemovedInv task before (events ++ [o]) w' := by
  have hstopped : w'.Stopping task → .stopping task ∈ before ++ (events ++ [o]) := fun hw => by
    rw [← List.append_assoc]
    rcases stopping_of_step hs hw with hw | rfl
    · exact List.mem_append_left _ (h.stopped hw)
    · exact List.mem_append_right _ (List.mem_singleton_self _)
  have hbefore : .stopping task ∈ before ++ events → .stopping task ∈ before ++ (events ++ [o]) := fun hmem => by
    rw [← List.append_assoc]
    exact List.mem_append_left _ hmem
  -- the hash is as before, and so the sets, or there is less in them
  have hquiet : (w'.tasks.get task).isSome → w'.hash.get task = w.hash.get task →
      (∀ m, (m, task) ∈ w'.sets → (m, task) ∈ w.sets) → o ≠ .saved task →
        RemovedInv task before (events ++ [o]) w' := fun htasks hhash hsets ho => by
    refine ⟨hstopped, htasks, fun hnot => ?_, fun hmem hcleaned hnot => ?_⟩
    · obtain ⟨hnone, hempty⟩ := h.gone fun hmem => hnot (List.mem_append_left _ hmem)
      exact ⟨hhash.trans hnone, fun m hm => hempty m (hsets m hm)⟩
    · rw [hhash]
      refine h.listed ?_ (fun hmem => hcleaned (List.mem_append_left _ hmem)) fun hmem => hnot (hbefore hmem)
      rcases List.mem_append.1 hmem with hmem | hmem
      · exact hmem
      · exact absurd (List.mem_singleton.1 hmem).symm ho
  have hdoes : TaskDoes task w w' o := taskDoes_of_step hs
  cases hdoes with
  | idle htasks hhash hsets ho => exact hquiet (htasks ▸ h.created) hhash (fun m => (hsets m).1) ho.1
  | create hnew => exact absurd h.created (by simp [hnew])
  | save he hsaved ho htasks hhash hsets =>
    refine ⟨hstopped, by simp [htasks], fun hnot => absurd ?_ hnot, fun _ _ _ => ?_⟩
    · rw [ho]
      exact List.mem_append_right _ (List.mem_singleton_self _)
    · rw [hhash]
      exact Option.some_ne_none _
  | finish he ho htasks hhash hsets => exact hquiet (by simp [htasks]) hhash (fun m => (hsets m).1) (by simp [ho])
  | cleanup he ho htasks hhash hsets =>
    refine ⟨hstopped, by simp [htasks], fun hnot => ⟨hhash, fun m hm => ?_⟩, fun _ hcleaned => absurd ?_ hcleaned⟩
    · exact (h.gone fun hmem => hnot (List.mem_append_left _ hmem)).2 m ((hsets m).1 hm).1
    · rw [ho]
      exact List.mem_append_right _ (List.mem_singleton_self _)
  | cancel he ho hstopping htasks hhash hsets =>
    exact hquiet (by simp [htasks]) hhash (fun m => (hsets m).1) (by simp [ho])
  | clean hstopping ho htasks hhash hsets =>
    have hold := hbefore (h.stopped hstopping)
    refine ⟨hstopped, htasks ▸ h.created, fun hnot => ?_, fun _ _ hnot => absurd hold hnot⟩
    obtain ⟨-, hempty⟩ := h.gone fun hmem => hnot (List.mem_append_left _ hmem)
    exact ⟨hhash, fun m hm => hempty m (hsets m hm)⟩
  | delete ho htasks hhash hsets =>
    exact hquiet (htasks ▸ h.created) hhash (fun m hm => (hsets m).2 (.inl hm)) (by simp [ho])

/-- **When the registry forgets a task**: once `cleanup_task` has taken it out, it is nowhere in the registry again
    unless it is saved only then; if it is, it stays in the hash until it is cleaned up again, or somebody stops it. -/
theorem cleaned_forgotten (hrun : taskMachine.Run .initial tr w') : ∀ xs ys i task, tr = xs ++ (i, .cleaned task) :: ys →
    (.saved task ∉ ys.map Prod.snd → w'.hash.get task = none ∧ ∀ item, (item, task) ∉ w'.sets) ∧
      (.saved task ∈ ys.map Prod.snd → .cleaned task ∉ ys.map Prod.snd → .stopping task ∉ tr.map Prod.snd →
        w'.hash.get task ≠ none) := by
  rintro xs ys i task rfl
  obtain ⟨t, t', hxs, -, hs, hys⟩ := hrun.split
  have hinv : TaskInv task (xs.map Prod.snd) t := taskInv_run hxs
  have hstart : RemovedInv task (xs.map Prod.snd ++ [.cleaned task]) [] t' := by
    have hstopped := (hinv.step hs).stopped
    have hdoes : TaskDoes task t t' (.cleaned task) := taskDoes_of_step hs
    cases hdoes with
    | idle _ _ _ ho => exact absurd rfl ho.2.1
    | create _ ho | save _ _ ho | finish _ ho | cancel _ ho | clean _ ho | delete ho => cases ho
    | @cleanup e he ho htasks hhash hsets =>
      refine ⟨by rwa [List.append_nil], by simp [htasks], fun _ => ⟨hhash, fun m hm => ?_⟩, fun hmem => by cases hmem⟩
      obtain ⟨e₁, he₁, -, hitem⟩ := hinv.known m ((hsets m).1 hm).1
      obtain rfl := Option.some.inj (he.symm.trans he₁)
      exact ((hsets m).1 hm).2 hitem
  have h := hys.traceInvariant
    (I := fun ys w => RemovedInv task (xs.map Prod.snd ++ [.cleaned task]) (ys.map Prod.snd) w)
    (fun ys w i w' o _ h hs => by rw [List.map_append]; exact h.step hs) hstart
  refine ⟨h.gone, fun hmem hcleaned hnot => h.listed hmem hcleaned ?_⟩
  simpa using hnot

/-- A task that is cleaned up while it runs and when it has ended, both before its id is saved, stays listed. -/
theorem cleaned_forgotten_late : ∃ tr w', taskMachine.Run .initial tr w' ∧
    tr.map Prod.snd = [.none, .cleaned (.lit "a"), .none, .cleaned (.lit "a"), .saved (.lit "a")] ∧
      w'.hash.get (.lit "a") ≠ none := by
  obtain ⟨⟨tr, w'⟩, hm, htr⟩ : ∃ r ∈ taskMachine.exec (fun _ _ => True) .initial
      [.create 0 (.lit "a") none, .cleanup 0 (.lit "a"), .finish (.lit "a"), .cleanup 1 (.lit "a"), .save (.lit "a")],
      r.1 = [(.create 0 (.lit "a") none, .none), (.cleanup 0 (.lit "a"), .cleaned (.lit "a")),
        (.finish (.lit "a"), .none)] ++ (.cleanup 1 (.lit "a"), .cleaned (.lit "a")) ::
          [(.save (.lit "a"), .saved (.lit "a"))] := by
    decide +kernel
  have hrun := Machine.runIn_of_exec hm
  exact ⟨tr, w', hrun, congrArg (List.map Prod.snd) htr,
    (cleaned_forgotten hrun _ _ _ _ htr).2 (List.mem_singleton_self _) (by decide) (by rw [htr]; decide)⟩

end TideBot
