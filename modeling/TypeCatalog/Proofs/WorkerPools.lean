import Mathlib.Algebra.GroupWithZero.Nat
import Mathlib.Data.List.Basic

/-! # Pools of workers

A pool runs one task for each input. Tasks are begun in order, as many at a time as there are
workers, and end in any order. Every run of a pool with a worker comes to an end
(`TypeCatalog.Pool.exists_ended`), within two steps for each task
(`TypeCatalog.Pool.Run.length_le`), and then the outcomes are those of the inputs in order,
whatever the order in which the tasks ended (`TypeCatalog.Pool.outcomes_of_ended`).
-/

namespace TypeCatalog

/-- Where a task of a pool stands. -/
inductive TaskState (β : Type) where
  | waiting
  | running
  | done (outcome : β)

/-- A task of a pool: what it is to work on, and where it stands. -/
structure PoolTask (α β : Type) where
  input : α
  state : TaskState β

namespace PoolTask

variable {α β : Type}

def isRunning (task : PoolTask α β) : Bool :=
  match task.state with
  | .running => true
  | _ => false

def isWaiting (task : PoolTask α β) : Bool :=
  match task.state with
  | .waiting => true
  | _ => false

def outcome? (task : PoolTask α β) : Option β :=
  match task.state with
  | .done outcome => some outcome
  | _ => none

/-- The number of steps that a task still takes. -/
def stepsLeft (task : PoolTask α β) : Nat :=
  match task.state with
  | .waiting => 2
  | .running => 1
  | .done _ => 0

end PoolTask

namespace Pool

variable {α β : Type} (work : α → β) (workers : Nat)

/-- The tasks of a pool before any is begun. -/
def start (inputs : List α) : List (PoolTask α β) := inputs.map fun input => ⟨input, .waiting⟩

/-- A step of a pool: the first task that waits is begun when a worker is free, or some task that is
run ends. -/
inductive Step : List (PoolTask α β) → List (PoolTask α β) → Prop where
  | start {front behind : List (PoolTask α β)} {input : α}
      (isFirst : ∀ task ∈ front, task.isWaiting = false)
      (free : (front ++ behind).countP PoolTask.isRunning < workers) :
      Step (front ++ ⟨input, .waiting⟩ :: behind) (front ++ ⟨input, .running⟩ :: behind)
  | finish {front behind : List (PoolTask α β)} {input : α} :
      Step (front ++ ⟨input, .running⟩ :: behind) (front ++ ⟨input, .done (work input)⟩ :: behind)

/-- A number of steps. -/
inductive Run : Nat → List (PoolTask α β) → List (PoolTask α β) → Prop where
  | refl (tasks : List (PoolTask α β)) : Run 0 tasks tasks
  | step {steps : Nat} {first next last : List (PoolTask α β)}
      (taken : Step work workers first next) (run : Run steps next last) :
      Run (steps + 1) first last

/-- Nothing is left to do. -/
def Ended (tasks : List (PoolTask α β)) : Prop := ∀ next, ¬ Step work workers tasks next

/-! ## What a step keeps -/

/-- The tasks of given inputs, of which those that are done have the outcomes of their inputs. -/
structure Sound (inputs : List α) (tasks : List (PoolTask α β)) : Prop where
  inputs : tasks.map PoolTask.input = inputs
  outcomes : ∀ task ∈ tasks, ∀ outcome ∈ task.outcome?, outcome = work task.input
  staffed : tasks.countP PoolTask.isRunning ≤ workers

variable {work workers} {inputs : List α} {tasks next : List (PoolTask α β)}

theorem sound_start (inputs : List α) : Sound work workers inputs (start inputs) where
  inputs := by
    rw [start, List.map_map]
    exact List.map_id inputs
  outcomes := by
    intro task listed outcome isDone
    obtain ⟨input, _, rfl⟩ := List.mem_map.mp listed
    simp [PoolTask.outcome?] at isDone
  staffed := by
    rw [start, List.countP_map, List.countP_eq_zero.mpr (by simp [PoolTask.isRunning])]
    exact Nat.zero_le _

/-- What a step does: a task keeps its input and comes one step nearer to its end, at which it has
the outcome of its input. -/
theorem Step.exists_task (taken : Step work workers tasks next) :
    ∃ front behind, ∃ task changed : PoolTask α β, tasks = front ++ task :: behind ∧
      next = front ++ changed :: behind ∧ changed.input = task.input ∧
      task.stepsLeft = changed.stepsLeft + 1 ∧
      (∀ outcome ∈ changed.outcome?, outcome = work changed.input) ∧
      ((front ++ task :: behind).countP PoolTask.isRunning ≤ workers →
        (front ++ changed :: behind).countP PoolTask.isRunning ≤ workers) := by
  cases taken with
  | start isFirst free =>
      rename_i front behind input
      refine ⟨front, behind, _, _, rfl, rfl, rfl, rfl, by simp [PoolTask.outcome?], ?_⟩
      intro _
      have begun : (front ++ (⟨input, .running⟩ : PoolTask α β) :: behind).countP
          PoolTask.isRunning = (front ++ behind).countP PoolTask.isRunning + 1 := by
        rw [List.countP_append, List.countP_append, List.countP_cons_of_pos rfl, Nat.add_assoc]
      rw [begun]
      exact free
  | finish =>
      rename_i front behind input
      refine ⟨front, behind, _, _, rfl, rfl, rfl, rfl, by simp [PoolTask.outcome?], ?_⟩
      intro staffed
      have ended : (front ++ (⟨input, .running⟩ : PoolTask α β) :: behind).countP
          PoolTask.isRunning = (front ++ ⟨input, .done (work input)⟩ :: behind).countP
            PoolTask.isRunning + 1 := by
        rw [List.countP_append, List.countP_append, List.countP_cons_of_pos rfl,
          List.countP_cons_of_neg (by simp [PoolTask.isRunning]), Nat.add_assoc]
      rw [ended] at staffed
      exact Nat.le_of_succ_le staffed

/-- **One step.** Tasks stay sound. -/
theorem Sound.step (sound : Sound work workers inputs tasks)
    (taken : Step work workers tasks next) : Sound work workers inputs next := by
  obtain ⟨front, behind, task, changed, rfl, rfl, same, _, isDone, staffed⟩ := taken.exists_task
  refine ⟨?_, ?_, staffed sound.staffed⟩
  · rw [← sound.inputs, List.map_append, List.map_append, List.map_cons, List.map_cons, same]
  · intro other listed
    rcases List.mem_append.mp listed with inFront | inRest
    · exact sound.outcomes other (List.mem_append_left _ inFront)
    · rcases List.mem_cons.mp inRest with rfl | inBehind
      · exact isDone
      · exact sound.outcomes other (List.mem_append_right _ (List.mem_cons_of_mem _ inBehind))

/-- **A run.** Tasks stay sound. -/
theorem Run.sound {steps : Nat} (run : Run work workers steps tasks next)
    (sound : Sound work workers inputs tasks) : Sound work workers inputs next := by
  induction run with
  | refl => exact sound
  | step taken _ ih => exact ih (sound.step taken)

/-- No more tasks are run at a time than there are workers. -/
theorem Run.running_le {steps : Nat} (run : Run work workers steps (start inputs) tasks) :
    tasks.countP PoolTask.isRunning ≤ workers := (run.sound (sound_start inputs)).staffed

/-- The number of steps that a pool still takes. -/
def stepsLeft (tasks : List (PoolTask α β)) : Nat := (tasks.map PoolTask.stepsLeft).sum

/-- Every step brings the end one step nearer. -/
theorem Step.stepsLeft_eq (taken : Step work workers tasks next) :
    stepsLeft tasks = stepsLeft next + 1 := by
  obtain ⟨front, behind, task, changed, rfl, rfl, _, nearer, _⟩ := taken.exists_task
  simp only [stepsLeft, List.map_append, List.map_cons, List.sum_append, List.sum_cons, nearer]
  omega

theorem Run.stepsLeft_eq {steps : Nat} (run : Run work workers steps tasks next) :
    stepsLeft tasks = stepsLeft next + steps := by
  induction run with
  | refl => rfl
  | step taken _ ih => rw [taken.stepsLeft_eq, ih, Nat.add_assoc]

theorem stepsLeft_start (inputs : List α) :
    stepsLeft (start inputs : List (PoolTask α β)) = 2 * inputs.length := by
  induction inputs with
  | nil => rfl
  | cons input rest ih =>
      have first : stepsLeft (start (input :: rest) : List (PoolTask α β)) =
          2 + stepsLeft (start rest : List (PoolTask α β)) := rfl
      rw [first, ih, List.length_cons]
      omega

/-- A run takes at most two steps for each task. -/
theorem Run.length_le {steps : Nat} (run : Run work workers steps (start inputs) tasks) :
    steps ≤ 2 * inputs.length := by
  rw [← stepsLeft_start (β := β), run.stepsLeft_eq]
  exact Nat.le_add_left _ _

/-! ## Progress -/

/-- A task that is run can end. -/
theorem Ended.isRunning_eq_false (ended : Ended work workers tasks) :
    ∀ task ∈ tasks, task.isRunning = false := by
  intro task listed
  obtain ⟨front, behind, rfl⟩ := List.append_of_mem listed
  obtain ⟨input, state⟩ := task
  cases state with
  | running => exact absurd .finish (ended _)
  | waiting => rfl
  | done outcome => rfl

/-- A task that waits can be begun when none is run, or another before it. -/
theorem Ended.isWaiting_eq_false (ended : Ended work workers tasks) (staffed : 1 ≤ workers) :
    ∀ task ∈ tasks, task.isWaiting = false := by
  by_contra someWaits
  have found : (tasks.find? PoolTask.isWaiting).isSome := by
    rw [List.find?_isSome]
    simpa using someWaits
  obtain ⟨⟨input, state⟩, first⟩ := Option.isSome_iff_exists.mp found
  obtain ⟨waits, front, behind, rfl, isFirst⟩ := List.find?_eq_some_iff_append.mp first
  cases state with
  | waiting =>
      -- The first task that waits: nothing is run, so a worker is free.
      refine ended _ (.start (fun task listed => by simpa using isFirst task listed) ?_)
      rw [List.countP_eq_zero.mpr]
      · exact staffed
      · intro task listed
        have among : task ∈ front ++ (⟨input, .waiting⟩ : PoolTask α β) :: behind := by
          rcases List.mem_append.mp listed with inFront | inBehind
          · exact List.mem_append_left _ inFront
          · exact List.mem_append_right _ (List.mem_cons_of_mem _ inBehind)
        simp [ended.isRunning_eq_false task among]
  | running => simp [PoolTask.isWaiting] at waits
  | done outcome => simp [PoolTask.isWaiting] at waits

/-- Where a pool with a worker cannot go on, every task is done. -/
theorem Ended.isDone (ended : Ended work workers tasks) (staffed : 1 ≤ workers) :
    ∀ task ∈ tasks, ∃ outcome, task.outcome? = some outcome := by
  intro task listed
  have idle := ended.isRunning_eq_false task listed
  have begun := ended.isWaiting_eq_false staffed task listed
  obtain ⟨input, state⟩ := task
  cases state with
  | waiting => simp [PoolTask.isWaiting] at begun
  | running => simp [PoolTask.isRunning] at idle
  | done outcome => exact ⟨outcome, rfl⟩

/-- From wherever it stands, a pool can be run to its end. -/
theorem exists_ended (tasks : List (PoolTask α β)) :
    ∃ steps last, Run work workers steps tasks last ∧ Ended work workers last := by
  -- The steps that are left bound the run: every step that can be taken lowers them.
  induction left : stepsLeft tasks using Nat.strongRecOn generalizing tasks with
  | ind left ih =>
      by_cases ended : Ended work workers tasks
      · exact ⟨0, tasks, .refl tasks, ended⟩
      · obtain ⟨next, taken⟩ := not_forall_not.mp ended
        have nearer := taken.stepsLeft_eq
        obtain ⟨steps, last, run, isEnd⟩ := ih (stepsLeft next) (by omega) next rfl
        exact ⟨steps + 1, last, .step taken run, isEnd⟩

/-! ## Outcomes -/

/-- The outcomes of the tasks that are done, in the order of tasks. -/
def outcomes (tasks : List (PoolTask α β)) : List β := tasks.filterMap PoolTask.outcome?

/-- **Outcomes.** When nothing is left to do, the outcomes are those of the inputs in order. -/
theorem outcomes_of_ended {steps : Nat} (staffed : 1 ≤ workers)
    (run : Run work workers steps (start inputs) tasks) (ended : Ended work workers tasks) :
    outcomes tasks = inputs.map work := by
  have sound := run.sound (sound_start inputs)
  rw [← sound.inputs, List.map_map, outcomes, ← List.filterMap_eq_map]
  refine List.filterMap_congr fun task listed => ?_
  obtain ⟨outcome, isDone⟩ := ended.isDone staffed task listed
  rw [isDone, Function.comp_apply, Function.comp_apply, sound.outcomes task listed outcome isDone]

end Pool

end TypeCatalog
