import RustReality.Lib.Mealy

/-!
# Interleavings of tasks over shared state

Any number of tasks take atomic actions on a shared state in an arbitrary order. A task that waits
for a lock or has returned does not act when it is scheduled. `execute` runs a schedule and collects
what happened; `execute_invariant` is the induction over it.

A lock is a cell with an owner. `Owned` is the discipline that a task which is in a critical section
owns its cell, so no two tasks are in the same one.
-/

namespace RustReality.Interleaving
open List Function

/-- A value behind a lock, and the task that holds the lock. -/
structure Mutex (ι α : Type) where
  owner : Option ι
  value : α

structure Config (ι σ τ : Type) where
  shared : σ
  tasks : ι → τ

/-- The next action of a task under answers of its environment; `none` if it cannot act. -/
abbrev Program (ι κ σ τ ω : Type) := ι → κ → σ → τ → Option (σ × τ × Option ω)

variable {ι κ σ τ ω : Type} [DecidableEq ι] (program : Program ι κ σ τ ω)

def act (config : Config ι σ τ) (turn : ι × κ) : Config ι σ τ × Option (ι × ω) :=
  match program turn.1 turn.2 config.shared (config.tasks turn.1) with
  | none => (config, none)
  | some (shared, task, event) => (⟨shared, Function.update config.tasks turn.1 task⟩, event.map (turn.1, ·))

variable {i : ι}

theorem act_of_none {program : Program ι κ σ τ ω} {config : Config ι σ τ} {answers : κ}
    (h : program i answers config.shared (config.tasks i) = none) :
    act program config (i, answers) = (config, none) := by
  simp only [act, h]

variable {task : τ}

theorem act_of_some {program : Program ι κ σ τ ω} {config : Config ι σ τ} {answers : κ} {shared : σ}
    {event : Option ω} (h : program i answers config.shared (config.tasks i) = some (shared, task, event)) :
    act program config (i, answers) = (⟨shared, Function.update config.tasks i task⟩, event.map (i, ·)) := by
  simp only [act, h]

def execute (config : Config ι σ τ) (schedule : List (ι × κ)) : Config ι σ τ × List (ι × ω) :=
  let result := Mealy.run (act program) config schedule
  (result.1, result.2.reduceOption)

theorem execute_append (program : Program ι κ σ τ ω) (config : Config ι σ τ) (first second : List (ι × κ)) :
    execute program config (first ++ second) =
      ((execute program (execute program config first).1 second).1,
        (execute program config first).2 ++ (execute program (execute program config first).1 second).2) := by
  simp only [execute, Mealy.run_append, reduceOption_append]

/-- An invariant of the runs each step of which is allowed in the state before it. -/
theorem execute_invariant_of {program : Program ι κ σ τ ω} {Inv : Config ι σ τ → List (ι × ω) → Prop}
    {Allowed : Config ι σ τ → ι → Prop}
    (hstep : ∀ config history i answers shared task event, Inv config history → Allowed config i →
      program i answers config.shared (config.tasks i) = some (shared, task, event) →
      Inv ⟨shared, Function.update config.tasks i task⟩ (history ++ (event.map (i, ·)).toList))
    {config : Config ι σ τ} (hinit : Inv config []) (schedule : List (ι × κ))
    (hallowed : ∀ front turn back, schedule = front ++ turn :: back → Allowed (execute program config front).1 turn.1) :
    Inv (execute program config schedule).1 (execute program config schedule).2 := by
  induction schedule using reverseRecOn with
  | nil => exact hinit
  | append_singleton schedule turn ih =>
    have hinv := ih fun front turn' back heq => hallowed front turn' (back ++ [turn]) (by rw [heq, append_assoc]; rfl)
    have hturn := hallowed schedule turn [] rfl
    rw [execute_append]
    generalize execute program config schedule = before at hinv hturn ⊢
    obtain ⟨i, answers⟩ := turn
    cases hact : program i answers before.1.shared (before.1.tasks i) with
    | none => simpa [execute, act_of_none hact] using hinv
    | some result =>
      obtain ⟨shared, task, event⟩ := result
      have hnext := hstep _ _ i answers shared task event hinv hturn hact
      cases event <;> simpa [execute, act_of_some hact] using hnext

theorem execute_invariant {program : Program ι κ σ τ ω} {Inv : Config ι σ τ → List (ι × ω) → Prop}
    (hs : ∀ config history i answers shared task event, Inv config history →
      program i answers config.shared (config.tasks i) = some (shared, task, event) →
      Inv ⟨shared, Function.update config.tasks i task⟩ (history ++ (event.map (i, ·)).toList))
    {config : Config ι σ τ} (hi : Inv config []) (schedule : List (ι × κ)) :
    Inv (execute program config schedule).1 (execute program config schedule).2 :=
  @execute_invariant_of _ _ _ _ _ _ program Inv (fun _ _ => True)
    (fun config history i answers shared task event h _ => hs config history i answers shared task event h) _ hi schedule
    fun _ _ _ _ => trivial

theorem execute_sublist (program : Program ι κ σ τ ω) (config : Config ι σ τ) (schedule : List (ι × κ)) :
    ((execute program config schedule).2.map Prod.fst).Sublist (schedule.map Prod.fst) := by
  induction schedule generalizing config with
  | nil => exact .slnil
  | cons turn schedule ih =>
    rcases turn with ⟨i, answers⟩
    have hr := ih (act program config (i, answers)).1
    cases hp : program i answers config.shared (config.tasks i) with
    | none =>
      simpa [execute, act_of_none hp] using hr.cons i
    | some result =>
      rcases result with ⟨shared, task, event⟩
      cases event with
      | none => simpa [execute, act_of_some hp] using hr.cons i
      | some event => simpa [execute, act_of_some hp] using hr.cons_cons i

/-- An event at the end of a history is the last one or comes after the others. -/
theorem concat_eq_append_cons {α : Type} {history before after : List α} {last event : α}
    (h : history ++ [last] = before ++ event :: after) :
    (after = [] ∧ event = last ∧ before = history) ∨
      ∃ front, after = front ++ [last] ∧ history = before ++ event :: front := by
  rcases eq_nil_or_concat after with rfl | ⟨front, final, rfl⟩
  · rcases append_inj' h rfl with ⟨hb, he⟩
    cases he
    exact .inl ⟨rfl, rfl, hb.symm⟩
  · right
    rw [concat_eq_append, ← cons_append, ← append_assoc] at h
    rcases append_inj' h rfl with ⟨hf, hfn⟩
    cases hfn
    exact ⟨front, concat_eq_append, hf⟩

theorem exists_update {P : τ → Prop} {tasks : ι → τ} (hi : P (tasks i) → P task)
    (h : ∃ j, P (tasks j)) : ∃ j, P (Function.update tasks i task j) := by
  obtain ⟨j, hj⟩ := h
  by_cases hij : j = i
  · subst hij
    exact ⟨j, by simpa using hi hj⟩
  · exact ⟨j, by simpa [update_of_ne hij] using hj⟩

/-! ### Sums over the tasks and the cells -/

theorem sum_update [Fintype ι] {α : Type} (f : α → Nat) (g : ι → α) (i : ι) (value : α) :
    ∑ j, f (Function.update g i value j) + f (g i) = ∑ j, f (g j) + f value := by
  have hr : ∑ j ∈ Finset.univ.erase i, f (Function.update g i value j) = ∑ j ∈ Finset.univ.erase i, f (g j) := by
    refine Finset.sum_congr rfl fun j hj => ?_
    rw [update_of_ne (Finset.ne_of_mem_erase hj)]
  rw [← Finset.add_sum_erase _ _ (Finset.mem_univ i), ← Finset.add_sum_erase _ (fun j => f (g j)) (Finset.mem_univ i),
    hr, update_self]
  omega

/-! ### Locks -/

section Owned

variable {α γ : Type}

def Owned (holds : τ → Option γ) (cells : γ → Mutex ι α) (tasks : ι → τ) : Prop :=
  ∀ i cell, holds (tasks i) = some cell → (cells cell).owner = some i

variable {holds : τ → Option γ} {cells : γ → Mutex ι α} {tasks : ι → τ}

theorem Owned.keep (h : Owned holds cells tasks) (hs : holds task = holds (tasks i)) :
    Owned holds cells (Function.update tasks i task) := by
  intro j cell hj
  by_cases hij : j = i
  · subst hij
    rw [update_self, hs] at hj
    exact h j cell hj
  · rw [update_of_ne hij] at hj
    exact h j cell hj

/-- A task takes a free cell or changes the one it owns, and keeps it or gives it back. -/
theorem Owned.touch [DecidableEq γ] (h : Owned holds cells tasks) {cell : γ} {owner : Option ι} {value : α}
    (hf : (cells cell).owner = none ∨ (cells cell).owner = some i)
    (hh : holds (tasks i) = none ∨ holds (tasks i) = some cell)
    (ho : (owner = some i ∧ holds task = some cell) ∨ holds task = none) :
    Owned holds (Function.update cells cell ⟨owner, value⟩) (Function.update tasks i task) := by
  intro j other hj
  by_cases hij : j = i
  · subst hij
    rw [update_self] at hj
    rcases ho with ⟨rfl, ht⟩ | ht
    · rw [ht] at hj
      cases hj
      rw [update_self]
    · rw [ht] at hj
      cases hj
  · rw [update_of_ne hij] at hj
    have how := h j other hj
    by_cases hc : other = cell
    · subst hc
      rcases hf with hf | hf
      · rw [hf] at how
        cases how
      · rw [hf] at how
        exact absurd (Option.some.inj how).symm hij
    · rw [update_of_ne hc]
      exact how

end Owned

end RustReality.Interleaving
