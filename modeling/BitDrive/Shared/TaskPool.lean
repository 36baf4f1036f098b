import Mathlib.Algebra.BigOperators.Group.List.Basic
import Mathlib.Algebra.GroupWithZero.Nat

set_option autoImplicit false

namespace TaskPool

variable {σ ε τ ι : Type}

structure Pool (σ τ : Type) where
  state : σ
  tasks : List τ

structure Machine (σ ε τ ι : Type) where
  handle : σ → ε → σ × List τ
  execute : σ → τ → ι → σ × List τ

inductive Action (ε τ ι : Type) where
  | event (event : ε)
  | run (task : τ) (answer : ι)

namespace Machine

variable (machine : Machine σ ε τ ι) [DecidableEq τ]

def handled (pool : Pool σ τ) (event : ε) : Pool σ τ :=
  let made := machine.handle pool.state event
  { state := made.1, tasks := pool.tasks ++ made.2 }

def executed (pool : Pool σ τ) (task : τ) (answer : ι) : Pool σ τ :=
  let made := machine.execute pool.state task answer
  { state := made.1, tasks := pool.tasks.erase task ++ made.2 }

-- Only a task that was launched and has not run yet can run.
def step (pool : Pool σ τ) : Action ε τ ι → Option (Pool σ τ)
  | .event event => some (machine.handled pool event)
  | .run task answer => if task ∈ pool.tasks then some (machine.executed pool task answer) else none

def actions : Pool σ τ → List (Action ε τ ι) → Option (Pool σ τ)
  | pool, [] => some pool
  | pool, action :: rest => (machine.step pool action).bind fun next => actions next rest

def runs (pool : Pool σ τ) (schedule : List (τ × ι)) : Option (Pool σ τ) :=
  machine.actions pool (schedule.map fun step => .run step.1 step.2)

@[simp] theorem actions_nil (pool : Pool σ τ) : machine.actions pool [] = some pool := rfl

@[simp] theorem runs_nil (pool : Pool σ τ) : machine.runs pool [] = some pool := rfl

theorem actions_append (pool : Pool σ τ) (front back : List (Action ε τ ι)) :
    machine.actions pool (front ++ back) =
      (machine.actions pool front).bind fun next => machine.actions next back := by
  induction front generalizing pool with
  | nil => rfl
  | cons action front ih =>
    rw [List.cons_append, actions, actions, Option.bind_assoc]
    congr 1
    funext next
    exact ih next

variable {machine}

theorem runs_cons (pool final : Pool σ τ) (task : τ) (answer : ι) (schedule : List (τ × ι)) :
    machine.runs pool ((task, answer) :: schedule) = some final ↔
      task ∈ pool.tasks ∧ machine.runs (machine.executed pool task answer) schedule = some final := by
  by_cases launched : task ∈ pool.tasks
  next => simp [runs, actions, step, launched]
  next => simp [runs, actions, step, launched]

theorem exists_turn (pool final : Pool σ τ) (schedule : List (τ × ι)) (task : τ)
    (launched : task ∈ pool.tasks) (ran : machine.runs pool schedule = some final)
    (drained : final.tasks = []) :
    ∃ before answer after turn, schedule = before ++ (task, answer) :: after ∧
      machine.runs (machine.executed turn task answer) after = some final := by
  induction schedule generalizing pool with
  | nil =>
    obtain rfl : pool = final := Option.some.inj ran
    rw [drained] at launched
    contradiction
  | cons first schedule ih =>
    have ⟨_, later⟩ := (runs_cons pool final first.1 first.2 schedule).mp ran
    by_cases now : task = first.1
    next => exact ⟨[], first.2, schedule, pool, by rw [now]; rfl, now ▸ later⟩
    next =>
      have waiting : task ∈ (machine.executed pool first.1 first.2).tasks :=
        List.mem_append_left _ ((List.mem_erase_of_ne now).mpr launched)
      have ⟨before, answer, after, turn, split, rest⟩ := ih _ waiting later
      exact ⟨first :: before, answer, after, turn, by rw [split, List.cons_append], rest⟩

section

variable (weight : τ → Nat)

def load (pool : Pool σ τ) : Nat := (pool.tasks.map weight).sum

def Lightens (machine : Machine σ ε τ ι) : Prop :=
  ∀ state task answer,
    ((machine.execute state task answer).2.map weight).sum < weight task

theorem load_executed (lightens : Lightens weight machine) (pool : Pool σ τ) (task : τ)
    (answer : ι) (launched : task ∈ pool.tasks) :
    load weight (machine.executed pool task answer) < load weight pool := by
  have total := List.sum_map_erase weight launched
  have less := lightens pool.state task answer
  simp only [load, executed, List.map_append, List.sum_append]
  omega

theorem exists_drained (lightens : Lightens weight machine) (answer : ι) (pool : Pool σ τ) :
    ∃ schedule final, machine.runs pool schedule = some final ∧ final.tasks = [] ∧
      ∀ step ∈ schedule, step.2 = answer := by
  induction size : load weight pool using Nat.strongRecOn generalizing pool with
  | ind size ih =>
    cases tasks : pool.tasks with
    | nil => exact ⟨[], pool, rfl, tasks, by simp⟩
    | cons task others =>
      have launched : task ∈ pool.tasks := tasks ▸ List.mem_cons_self
      have lighter := load_executed weight lightens pool task answer launched
      have ⟨schedule, final, ran, drained, answers⟩ :=
        ih _ (size ▸ lighter) (machine.executed pool task answer) rfl
      refine ⟨(task, answer) :: schedule, final, ?_, drained, ?_⟩
      next => exact (runs_cons pool final task answer schedule).mpr ⟨launched, ran⟩
      next => exact List.forall_mem_cons.mpr ⟨rfl, answers⟩

end

end Machine

end TaskPool
