/-
  Stopping the tasks of an item without Redis (`tasks.py`).

  The tasks of an item are in a list, which `create_task` appends to and `cleanup_task` removes from; a new list is made
  when there is none, or it is empty.  `stop_item_tasks` goes through that very list, by an index, and waits for each
  task it stops to end.  In between, tasks may be created, and cleaned up: those that have ended, and chats as soon as
  they have been processed.

  A task that has been stopped and is cleaned up moves the rest of the list under the index, so that a task is passed
  over: of plain tasks, which are cleaned up when the next one has been stopped already, the third; of chats, which are
  cleaned up before they end, the second.  There are no more such tasks than were stopped and cleaned up
  (`stopItem_stops`).
-/
import TideBot.Tasks.Registry

namespace TideBot

open Lib

/-- What `stop_item_tasks` does next. -/
inductive StopPhase where
  | next
  /-- `stop_task` waits for a task -/
  | waiting (task : Text)
  | returned
deriving DecidableEq

/-- A call of `stop_item_tasks`: the list, and the index. -/
structure StopLoop where
  list : ℕ
  index : ℕ
  phase : StopPhase
deriving DecidableEq

structure MemoryWorld where
  /-- The tasks that have been created, with their items. -/
  items : Dict Text (Option Text)
  /-- `tasks` -/
  tasks : Finset Text
  ended : Finset Text
  /-- `item_tasks`: the list of an item -/
  itemTasks : Dict (Option Text) ℕ
  lists : Dict ℕ (List Text)
  calls : Dict ℕ StopLoop

inductive MemoryStep where
  /-- `create_task`; a new list, if one is made, gets this number -/
  | create (task : Text) (item : Option Text) (list : ℕ)
  /-- The coroutine of a task ends. -/
  | finish (task : Text)
  /-- `cleanup_task` -/
  | cleanup (task : Text)
  /-- `stop_item_tasks`, and its next turn -/
  | stopItem (call : ℕ) (item : Option Text)
  | turn (call : ℕ)
deriving DecidableEq

inductive MemoryEvent where
  | none
  /-- `stop_item_tasks` has cancelled a task. -/
  | stopped (call : ℕ) (task : Text)
  /-- A task is not among `tasks` any more, so that the rest is left. -/
  | notFound (call : ℕ)
  | allStopped (call : ℕ)
deriving DecidableEq

namespace MemoryWorld

variable (w : MemoryWorld)

/-- The tasks of an item, in the list it has. -/
def ofItem (item : Option Text) : Option (ℕ × List Text) :=
  (w.itemTasks.get item).bind fun l => (w.lists.get l).map fun ts => (l, ts)

/-- `create_task` -/
def create (task : Text) (item : Option Text) (list : ℕ) : MemoryWorld :=
  let w := { w with items := w.items.set task item, tasks := insert task w.tasks }
  match (w.ofItem item).filter fun e => e.2 ≠ [] with
  | some (l, ts) => { w with lists := w.lists.set l (ts ++ [task]) }
  | none => { w with lists := w.lists.set list [task], itemTasks := w.itemTasks.set item list }

/-- `cleanup_task`; a task without an item stays in its list. -/
def cleanup (task : Text) (item : Option Text) : MemoryWorld :=
  let w := { w with tasks := w.tasks.erase task }
  match (w.ofItem item).filter fun e => truthyItem item ≠ none ∧ task ∈ e.2 with
  | some (l, ts) =>
    { w with
      lists := w.lists.set l (ts.erase task)
      itemTasks := if ts.erase task = [] then w.itemTasks.erase item else w.itemTasks }
  | none => w

def goOn (call : ℕ) (loop : StopLoop) : MemoryWorld := { w with calls := w.calls.set call loop }

/-- The next task of the loop is stopped, if there is one. -/
def turn (call : ℕ) (loop : StopLoop) : MemoryWorld × MemoryEvent :=
  match ((w.lists.get loop.list).getD [])[loop.index]? with
  | none => (w.goOn call { loop with phase := .returned }, .allStopped call)
  | some task =>
    if task ∈ w.tasks then
      (({ w with tasks := w.tasks.erase task } : MemoryWorld).goOn call ⟨loop.list, loop.index + 1, .waiting task⟩,
        .stopped call task)
    else (w.goOn call { loop with phase := .returned }, .notFound call)

end MemoryWorld

/-- The registry of one process as a machine. -/
def memoryMachine : Machine MemoryWorld MemoryStep MemoryEvent where
  step w
    | .create task item list =>
      if (w.items.get task).isSome ∨ (w.lists.get list).isSome then none else some (w.create task item list, .none)
    | .finish task => if (w.items.get task).isSome then some ({ w with ended := insert task w.ended }, .none) else none
    | .cleanup task => (w.items.get task).map fun item => (w.cleanup task item, .none)
    | .stopItem call item =>
      if (w.calls.get call).isSome then none
      else some (match (w.ofItem item).filter fun e => e.2 ≠ [] with
        | some (l, _) => (w.goOn call ⟨l, 0, .next⟩, .none)
        | none => (w, .none))
    | .turn call => (w.calls.get call).bind fun loop =>
      match loop.phase with
      | .next => some (w.turn call loop)
      | .waiting task => if task ∈ w.ended then some (w.turn call loop) else none
      | .returned => none

/-! ## What the loop sees -/

variable {w w' : MemoryWorld} {tr : List (MemoryStep × MemoryEvent)} {i : MemoryStep} {o : MemoryEvent} {call l : ℕ}
  {ts : List Text}

theorem get_of_ofItem {item : Option Text} {p : ℕ × List Text → Bool} {e : ℕ × List Text}
    (h : (w.ofItem item).filter p = some e) : w.lists.get e.1 = some e.2 := by
  obtain ⟨list, -, hget⟩ := Option.bind_eq_some_iff.1 (Option.filter_eq_some_iff.1 h).1
  obtain ⟨ts, hts, rfl⟩ := Option.map_eq_some_iff.1 hget
  exact hts

theorem turn_lists (loop : StopLoop) : (w.turn call loop).1.lists = w.lists := by
  rw [MemoryWorld.turn]
  split
  · rfl
  · split_ifs <;> rfl

theorem turn_of_step (hs : memoryMachine.step w (.turn call) = some (w', o)) :
    ∃ loop, w.calls.get call = some loop ∧ loop.phase ≠ .returned ∧ (w', o) = w.turn call loop := by
  obtain ⟨loop, hc, hs⟩ := Option.bind_eq_some_iff.1 hs
  split at hs
  · rename_i hphase
    exact ⟨loop, hc, by simp [hphase], (Option.some.inj hs).symm⟩
  · rename_i hphase
    obtain ⟨-, hs⟩ := Option.ite_none_right_eq_some.1 hs
    exact ⟨loop, hc, by simp [hphase], (Option.some.inj hs).symm⟩
  · cases hs

/-- **What a step does to a list**: a task is appended, or removed by its cleanup. -/
theorem list_of_step (hs : memoryMachine.step w i = some (w', o)) (hl : w.lists.get l = some ts) :
    w'.lists.get l = some ts ∨ (∃ task, w'.lists.get l = some (ts ++ [task])) ∨
      ∃ task, i = .cleanup task ∧ w'.lists.get l = some (ts.erase task) := by
  cases i with
  | create task item list =>
    obtain ⟨hnew, hs⟩ := Option.ite_none_left_eq_some.1 hs
    cases hs
    have hne : l ≠ list := by
      rintro rfl
      exact hnew (.inr (by rw [hl]; rfl))
    simp only [MemoryWorld.create]
    split
    · rename_i l' ts' hof
      have hget := get_of_ofItem hof
      by_cases heq : l = l'
      · subst heq
        rw [show w.lists.get l = some ts' from hget, Option.some.injEq] at hl
        subst hl
        exact .inr (.inl ⟨task, Dict.get_set_self ..⟩)
      · exact .inl ((Dict.get_set_of_ne _ heq).trans hl)
    · exact .inl ((Dict.get_set_of_ne _ hne).trans hl)
  | finish task =>
    obtain ⟨-, hs⟩ := Option.ite_none_right_eq_some.1 hs
    cases hs
    exact .inl hl
  | cleanup task =>
    obtain ⟨item, -, hs⟩ := Option.map_eq_some_iff.1 hs
    cases hs
    simp only [MemoryWorld.cleanup]
    split
    · rename_i l' ts' hof
      have hget := get_of_ofItem hof
      by_cases heq : l = l'
      · subst heq
        rw [show w.lists.get l = some ts' from hget, Option.some.injEq] at hl
        subst hl
        exact .inr (.inr ⟨task, rfl, Dict.get_set_self ..⟩)
      · exact .inl ((Dict.get_set_of_ne _ heq).trans hl)
    · exact .inl hl
  | stopItem call' item =>
    obtain ⟨-, hs⟩ := Option.ite_none_left_eq_some.1 hs
    split at hs <;> cases hs <;> exact .inl hl
  | turn call' =>
    obtain ⟨loop, -, -, hturn⟩ := turn_of_step hs
    have hw : w'.lists = w.lists := (congrArg (fun r => r.1.lists) hturn).trans (turn_lists loop)
    exact .inl (hw ▸ hl)

/-- The tasks that a call has stopped. -/
def stoppedTasks (call : ℕ) (tr : List (MemoryStep × MemoryEvent)) : List Text :=
  tr.filterMap fun e =>
    match e.2 with
    | .stopped c task => if c = call then some task else none
    | _ => none

def WasCleanedUp (tr : List (MemoryStep × MemoryEvent)) (task : Text) : Prop := .cleanup task ∈ tr.map Prod.fst

instance (tr : List (MemoryStep × MemoryEvent)) (task : Text) : Decidable (WasCleanedUp tr task) :=
  inferInstanceAs (Decidable (_ ∈ _))

/-- A task goes on: the call has not stopped it, and it has not been cleaned up. -/
def goesOn (call : ℕ) (tr : List (MemoryStep × MemoryEvent)) (task : Text) : Bool :=
  task ∉ stoppedTasks call tr ∧ ¬ WasCleanedUp tr task

/-- A step that is not the turn of a call leaves the call, and does not stop a task for it. -/
theorem call_of_step (tr : List (MemoryStep × MemoryEvent)) (hs : memoryMachine.step w i = some (w', o))
    (hne : i ≠ .turn call) :
    (∀ loop, w.calls.get call = some loop → w'.calls.get call = some loop) ∧
      stoppedTasks call (tr ++ [(i, o)]) = stoppedTasks call tr := by
  have hnone : stoppedTasks call (tr ++ [(i, MemoryEvent.none)]) = stoppedTasks call tr := by
    simp [stoppedTasks]
  cases i with
  | create task item list =>
    obtain ⟨-, hs⟩ := Option.ite_none_left_eq_some.1 hs
    cases hs
    refine ⟨fun loop hc => ?_, hnone⟩
    simp only [MemoryWorld.create]
    split <;> exact hc
  | finish task =>
    obtain ⟨-, hs⟩ := Option.ite_none_right_eq_some.1 hs
    cases hs
    exact ⟨fun _ hc => hc, hnone⟩
  | cleanup task =>
    obtain ⟨item, -, hs⟩ := Option.map_eq_some_iff.1 hs
    cases hs
    refine ⟨fun loop hc => ?_, hnone⟩
    simp only [MemoryWorld.cleanup]
    split <;> exact hc
  | stopItem call' item =>
    obtain ⟨hnew, hs⟩ := Option.ite_none_left_eq_some.1 hs
    have hother : ∀ loop, w.calls.get call = some loop → call ≠ call' := by
      rintro loop hc rfl
      exact hnew (by rw [hc]; rfl)
    split at hs <;> cases hs
    · exact ⟨fun loop hc => (Dict.get_set_of_ne _ (hother loop hc)).trans hc, hnone⟩
    · exact ⟨fun _ hc => hc, hnone⟩
  | turn call' =>
    obtain ⟨loop', -, -, hturn⟩ := turn_of_step hs
    have hother : call ≠ call' := fun heq => hne (by rw [heq])
    rw [MemoryWorld.turn] at hturn
    split at hturn
    · cases hturn
      exact ⟨fun loop hc => (Dict.get_set_of_ne _ hother).trans hc, by simp [stoppedTasks]⟩
    · split_ifs at hturn <;> cases hturn
      · exact ⟨fun loop hc => (Dict.get_set_of_ne _ hother).trans hc, by simp [stoppedTasks, hother.symm]⟩
      · exact ⟨fun loop hc => (Dict.get_set_of_ne _ hother).trans hc, by simp [stoppedTasks]⟩

/-! ## What it stops -/

/-- Another element is removed: of this one there are no fewer among the first. -/
theorem count_take_le_erase {a b : Text} (hne : a ≠ b) (n : ℕ) :
    (ts.take n).count a ≤ ((ts.erase b).take n).count a := by
  induction ts generalizing n with
  | nil => simp
  | cons x ts ih =>
    cases n with
    | zero => simp
    | succ n =>
      by_cases hx : x = b
      · subst hx
        rw [List.erase_cons_head, List.take_succ_cons, List.count_cons_of_ne hne.symm]
        exact (List.take_sublist_take_left (Nat.le_succ n)).count_le a
      · rw [List.erase_cons_tail (by simpa using hx), List.take_succ_cons, List.take_succ_cons, List.count_cons,
          List.count_cons]
        exact Nat.add_le_add_right (ih n) _

/-- **What is in the list of a call**: what was in it and has not been cleaned up, and before the index what has been
stopped and not cleaned up. -/
structure LoopInv (call l : ℕ) (ts : List Text) (tr : List (MemoryStep × MemoryEvent)) (w : MemoryWorld)
    (loop : StopLoop) (now : List Text) : Prop where
  calls : w.calls.get call = some loop
  list : loop.list = l
  index : loop.phase ≠ .returned → loop.index = (stoppedTasks call tr).length
  parts : w.lists.get l = some now
  kept : ∀ task, ¬ WasCleanedUp tr task → ts.count task ≤ now.count task
  stopped : ∀ task, ¬ WasCleanedUp tr task →
    (stoppedTasks call tr).count task ≤ (now.take (stoppedTasks call tr).length).count task

variable {loop : StopLoop} {now : List Text}

theorem not_wasCleanedUp {task : Text} (h : ¬ WasCleanedUp (tr ++ [(i, o)]) task) :
    ¬ WasCleanedUp tr task ∧ i ≠ .cleanup task := by
  rw [WasCleanedUp, List.map_append, List.mem_append, not_or] at h
  exact ⟨h.1, fun heq => h.2 (by simp [heq])⟩

theorem LoopInv.turn (h : LoopInv call l ts tr w loop now) (hphase : loop.phase ≠ .returned)
    (hturn : (w', o) = w.turn call loop) : ∃ loop', LoopInv call l ts (tr ++ [(.turn call, o)]) w' loop' now := by
  have hkept : ∀ o task, ¬ WasCleanedUp (tr ++ [(.turn call, o)]) task → ts.count task ≤ now.count task :=
    fun o task hnot => h.kept task (not_wasCleanedUp hnot).1
  have hreturned : ∀ o, stoppedTasks call (tr ++ [(.turn call, o)]) = stoppedTasks call tr →
      LoopInv call l ts (tr ++ [(.turn call, o)]) (w.goOn call { loop with phase := .returned })
        { loop with phase := .returned } now := fun o hsame =>
    ⟨Dict.get_set_self .., h.list, absurd rfl, h.parts, hkept o, fun task hnot => by
      rw [hsame]
      exact h.stopped task (not_wasCleanedUp hnot).1⟩
  rw [MemoryWorld.turn] at hturn
  split at hturn
  · cases hturn
    exact ⟨_, hreturned _ (by simp [stoppedTasks])⟩
  · rename_i task hget
    split_ifs at hturn <;> cases hturn
    · rw [h.list, h.parts, Option.getD_some, h.index hphase] at hget
      have hmore : stoppedTasks call (tr ++ [(.turn call, .stopped call task)]) = stoppedTasks call tr ++ [task] := by
        simp [stoppedTasks]
      refine ⟨_, Dict.get_set_self .., h.list, fun _ => ?_, h.parts, hkept _, fun task' hnot => ?_⟩
      · rw [hmore, List.length_append, List.length_singleton, h.index hphase]
      · rw [hmore, List.length_append, List.length_singleton, List.take_add_one, hget, Option.toList_some,
          List.count_append, List.count_append]
        exact Nat.add_le_add_right (h.stopped task' (not_wasCleanedUp hnot).1) _
    · exact ⟨_, hreturned _ (by simp [stoppedTasks])⟩

theorem LoopInv.step (h : LoopInv call l ts tr w loop now) (hs : memoryMachine.step w i = some (w', o)) :
    ∃ loop' now', LoopInv call l ts (tr ++ [(i, o)]) w' loop' now' := by
  by_cases hi : i = .turn call
  · subst hi
    obtain ⟨loop', hc, hphase, hturn⟩ := turn_of_step hs
    obtain rfl := Option.some.inj (h.calls.symm.trans hc)
    obtain ⟨loop', h'⟩ := h.turn hphase hturn
    exact ⟨loop', now, h'⟩
  · obtain ⟨hcalls, hsame⟩ := call_of_step tr hs hi
    have hnow : ∀ now', w'.lists.get l = some now' → (∀ task, ¬ WasCleanedUp (tr ++ [(i, o)]) task →
        now.count task ≤ now'.count task ∧ ∀ n, (now.take n).count task ≤ (now'.take n).count task) →
          LoopInv call l ts (tr ++ [(i, o)]) w' loop now' := fun now' hl hle =>
      ⟨hcalls loop h.calls, h.list, hsame ▸ h.index, hl,
        fun task hnot => (h.kept task (not_wasCleanedUp hnot).1).trans (hle task hnot).1, fun task hnot => by
          rw [hsame]
          exact (h.stopped task (not_wasCleanedUp hnot).1).trans ((hle task hnot).2 _)⟩
    rcases list_of_step hs h.parts with hl | ⟨task, hl⟩ | ⟨task, rfl, hl⟩
    · exact ⟨_, _, hnow _ hl fun _ _ => ⟨le_rfl, fun _ => le_rfl⟩⟩
    · refine ⟨_, _, hnow _ hl fun task' _ => ⟨?_, fun n => ?_⟩⟩
      · exact (List.sublist_append_left now [task]).count_le task'
      · rw [List.take_append]
        exact (List.sublist_append_left _ _).count_le task'
    · refine ⟨_, _, hnow _ hl fun task' hnot => ?_⟩
      have hne : task' ≠ task := fun heq => (not_wasCleanedUp hnot).2 (by rw [heq])
      exact ⟨(List.count_erase_of_ne hne).ge, count_take_le_erase hne⟩

theorem countP_le_of_count_le {p : Text → Bool} (as bs : List Text) (h : ∀ a, p a → as.count a ≤ bs.count a) :
    as.countP p ≤ bs.countP p := by
  rw [List.countP_eq_length_filter, List.countP_eq_length_filter]
  refine (List.subperm_ext_iff.2 fun a ha => ?_).length_le
  have hp := List.of_mem_filter ha
  rw [List.count_filter hp, List.count_filter hp]
  exact h a hp

/-- **How many tasks of an item are left**: if `stop_item_tasks` says that all are stopped, then of the tasks that were
in the list it has not stopped, and that have not been cleaned up, at most as many as it has stopped and have been
cleaned up; so none, if none of these has. -/
theorem stopItem_stops (hrun : memoryMachine.Run w tr w') (hstart : w.calls.get call = some ⟨l, 0, .next⟩)
    (hl : w.lists.get l = some ts) {w'' : MemoryWorld}
    (hlast : memoryMachine.step w' (.turn call) = some (w'', .allStopped call)) :
    ts.countP (goesOn call tr) ≤ (stoppedTasks call tr).countP (fun task => WasCleanedUp tr task) ∧
      ((∀ task ∈ stoppedTasks call tr, ¬ WasCleanedUp tr task) →
        ∀ task ∈ ts, task ∈ stoppedTasks call tr ∨ WasCleanedUp tr task) := by
  obtain ⟨loop, now, h⟩ := hrun.traceInvariant (I := fun tr w => ∃ loop now, LoopInv call l ts tr w loop now)
    (fun tr w i w' o _ ⟨loop, now, h⟩ hs => h.step hs)
    ⟨_, ts, hstart, rfl, fun _ => rfl, hl, fun _ _ => le_rfl, fun _ _ => Nat.zero_le _⟩
  have hend : now.length ≤ (stoppedTasks call tr).length := by
    obtain ⟨loop', hc, hphase, hturn⟩ := turn_of_step hlast
    obtain rfl := Option.some.inj (h.calls.symm.trans hc)
    rw [MemoryWorld.turn] at hturn
    split at hturn
    · rename_i hnone
      rwa [h.list, h.parts, Option.getD_some, h.index hphase, List.getElem?_eq_none_iff] at hnone
    · split_ifs at hturn <;> cases hturn
  have hstopped := h.stopped
  rw [List.take_of_length_le hend] at hstopped
  have hbound : ts.countP (goesOn call tr) ≤ (stoppedTasks call tr).countP (fun task => WasCleanedUp tr task) := by
    have hleft : ts.countP (goesOn call tr) ≤ now.countP (goesOn call tr) :=
      countP_le_of_count_le ts now fun task hp => h.kept task (of_decide_eq_true hp).2
    have hunstopped : now.countP (goesOn call tr) ≤ now.countP fun task => !decide (task ∈ stoppedTasks call tr) :=
      List.countP_mono_left fun task _ hp => by simpa using (of_decide_eq_true hp).1
    have hstoppedNow := countP_le_of_count_le (p := fun task => !decide (WasCleanedUp tr task)) (stoppedTasks call tr)
      (now.filter (· ∈ stoppedTasks call tr)) fun task hp => by
        by_cases hmem : task ∈ stoppedTasks call tr
        · rw [List.count_filter (by simpa using hmem)]
          exact hstopped task (by simpa using hp)
        · rw [List.count_eq_zero_of_not_mem hmem]
          exact Nat.zero_le _
    have hnow := List.length_eq_countP_add_countP (fun task => decide (task ∈ stoppedTasks call tr)) (l := now)
    have hall := List.length_eq_countP_add_countP (fun task => decide (WasCleanedUp tr task)) (l := stoppedTasks call tr)
    have hfilter := List.countP_le_length (p := fun task => !decide (WasCleanedUp tr task))
      (l := now.filter (· ∈ stoppedTasks call tr))
    rw [← List.countP_eq_length_filter] at hfilter
    simp only [decide_not, Bool.decide_eq_true] at hnow hall hunstopped
    omega
  refine ⟨hbound, fun hnone task htask => ?_⟩
  by_contra hnot
  rw [not_or] at hnot
  have hpos := List.countP_pos_iff.2 ⟨task, htask, show goesOn call tr task from decide_eq_true hnot⟩
  have hzero : (stoppedTasks call tr).countP (fun task => WasCleanedUp tr task) = 0 :=
    List.countP_eq_zero.2 fun task hmem => by simpa using hnone task hmem
  omega

namespace Sample

/-- `stop_item_tasks` has been called for the tasks of an item. -/
def stopWorld (ts : List Text) : MemoryWorld where
  items := ts.foldl (fun d t => d.set t (some (.lit "i"))) .empty
  tasks := ts.toFinset
  ended := ∅
  itemTasks := Dict.empty.set (some (.lit "i")) 0
  lists := Dict.empty.set 0 ts
  calls := Dict.empty.set 0 ⟨0, 0, .next⟩

end Sample

/-- Of three tasks the third goes on: the first is cleaned up while the second is stopped. -/
theorem stopItem_stops_third : ∃ tr w',
    memoryMachine.Run (Sample.stopWorld [.lit "a", .lit "b", .lit "c"]) tr w' ∧ .lit "c" ∈ w'.tasks \ w'.ended ∧
      [Text.lit "a", .lit "b", .lit "c"].filter (goesOn 0 tr) = [.lit "c"] ∧
        1 ≤ (stoppedTasks 0 tr).countP fun task => WasCleanedUp tr task := by
  obtain ⟨⟨tr, w'⟩, hm, hgoesOn, hleft, ⟨w'', o⟩, hlast, ho⟩ : ∃ r ∈ memoryMachine.exec (fun _ _ => True)
      (Sample.stopWorld [.lit "a", .lit "b", .lit "c"])
      [.turn 0, .finish (.lit "a"), .turn 0, .cleanup (.lit "a"), .finish (.lit "b")],
      .lit "c" ∈ r.2.tasks \ r.2.ended ∧ [Text.lit "a", .lit "b", .lit "c"].filter (goesOn 0 r.1) = [.lit "c"] ∧
        ∃ r' ∈ memoryMachine.step r.2 (.turn 0), r'.2 = .allStopped 0 := by
    decide +kernel
  obtain rfl : o = .allStopped 0 := ho
  have hrun := Machine.runIn_of_exec hm
  have hlist : (Sample.stopWorld [.lit "a", .lit "b", .lit "c"]).lists.get 0 =
      some [.lit "a", .lit "b", .lit "c"] := rfl
  have hbound := (stopItem_stops hrun rfl hlist hlast).1
  rw [List.countP_eq_length_filter, hleft] at hbound
  exact ⟨tr, w', hrun, hgoesOn, hleft, hbound⟩

end TideBot
