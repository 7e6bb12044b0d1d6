import Chip8Launcher.Proofs.Session.Account

/-!
# Whose read is in flight

A loader marks a read as in flight with one truth value, which says nothing about whose read it
is.  As long as the loader is used only through tasks this is enough: there is at most one task
whose read has begun and not ended, and a delivery made by a task is always that of its own read.
-/

namespace Chip8Launcher.Session

/-- The task is live, and its read has begun and not ended. -/
def Reads (s : Session) (task : Nat) : Prop :=
  ∃ file left, s.tasks[task]? = some (.reading file left)

/-- The task was cancelled after its read had begun and before it ended. -/
def Abandoned (s : Session) (task : Nat) : Prop := s.tasks[task]? = some (.cancelled true)

namespace Account

variable {engine : Engine} {calls : List Call} {sel : List (List File)} {s : Session} {task : Nat}

/-- A read that is in flight or abandoned is the last of all. -/
theorem last_of_reads (h : s.Account engine sel calls) (hReads : s.Reads task ∨ s.Abandoned task) :
    ∃ failures file, begun calls = failures ++ [(task, file)] ∧ InFlight calls task file ∧
      s.loader = .atStage engine .reading := by
  have hPhase : ∃ phase, s.tasks[task]? = some phase ∧
      (phase = .cancelled true ∨ ∃ file left, phase = .reading file left) := by
    rcases hReads with ⟨file, left, hTask⟩ | hTask
    · exact ⟨_, hTask, .inr ⟨file, left, rfl⟩⟩
    · exact ⟨_, hTask, .inl rfl⟩
  obtain ⟨phase, hTask, hCases⟩ := hPhase
  rcases h.phase_cases hTask with hIdle | ⟨e, rfl⟩ | ⟨failures, file, hBegun, -, hLast⟩
  · rcases hCases with rfl | ⟨file, left, rfl⟩ <;> cases hIdle
  · rcases hCases with hEq | ⟨file, left, hEq⟩ <;> cases hEq
  · cases hLast with
    | reading hLoader _ _ hFlight | abandoned hLoader _ _ hFlight =>
      exact ⟨failures, file, hBegun, hFlight, hLoader⟩
    | launching _ _ _ _ hLast | loaded _ _ _ _ hLast =>
      cases hLast.symm.trans hTask
      rcases hCases with hEq | ⟨file, left, hEq⟩ <;> cases hEq

theorem exists_reads (h : s.Account engine sel calls) (hReading : s.loader.reading = true) :
    ∃ task, s.Reads task ∨ s.Abandoned task := by
  obtain ⟨failures, last, -, -, hStanding⟩ := h.reads
  cases hStanding with
  | @reading task file left _ _ _ _ hTask => exact ⟨task, .inl ⟨file, left, hTask⟩⟩
  | @abandoned task _ _ _ _ _ hTask => exact ⟨task, .inr hTask⟩
  | idle hLoader | launching _ hLoader | loaded _ hLoader =>
    rw [hLoader, Loader.atStage_reading] at hReading
    cases hReading

theorem ne_noReadInFlight (h : s.Account engine sel calls) (task : Nat) :
    s.tasks[task]? ≠ some (.ended (.error .noReadInFlight)) := by
  intro hTask
  rcases h.phase_cases hTask with hIdle | ⟨e, hEq⟩ | ⟨failures, file, -, -, hLast⟩
  · cases hIdle
  · cases hEq
  · cases hLast with
    | loaded _ _ _ _ hLast =>
      have hResult := Phase.ended.inj (Option.some.inj (hLast.symm.trans hTask))
      exact engine.outcome_ne_noReadInFlight hResult
    | reading _ _ _ _ hLast | abandoned _ _ _ _ hLast | launching _ _ _ _ hLast =>
      cases hLast.symm.trans hTask

end Account

/-- **One read at a time, and everyone ends his own.**  As long as the loader is used only through
tasks, at most one live task has begun its read and not ended it; a read is marked as in flight
just when there is such a task or one that was cancelled there; the last read begun is then that
task's; no task ends with `noReadInFlight`; and every delivery is one of the read in flight, made
by the task that began it. -/
theorem one_read_at_a_time (engine : Engine) (screen : Framebuffer) {actions : List Action}
    (hActions : ∀ action ∈ actions, action.ThroughTasks) :
    let s := (arm engine screen).after actions
    let calls := (arm engine screen).calls actions
    (∀ task task', s.Reads task → s.Reads task' → task = task') ∧
      (s.loader.reading = true ↔ ∃ task, s.Reads task ∨ s.Abandoned task) ∧
      (∀ task, s.Reads task ∨ s.Abandoned task → ∃ file, InFlight calls task file) ∧
      (∀ task : Nat, s.tasks[task]? ≠ some (.ended (.error .noReadInFlight))) ∧
      Matched calls := by
  intro s calls
  have h : s.Account engine (selections actions) calls := .after_arm engine screen hActions
  refine ⟨?_, ⟨h.exists_reads, ?_⟩, ?_, h.ne_noReadInFlight, h.matched⟩
  · intro task task' hTask hTask'
    obtain ⟨failures, file, hBegun, -⟩ := h.last_of_reads (.inl hTask)
    obtain ⟨failures', file', hBegun', -⟩ := h.last_of_reads (.inl hTask')
    obtain ⟨-, hLast⟩ := List.append_inj' (hBegun.symm.trans hBegun') rfl
    exact (Prod.mk.inj (List.singleton_inj.1 hLast)).1
  · rintro ⟨task, hTask⟩
    obtain ⟨failures, file, -, -, hLoader⟩ := h.last_of_reads hTask
    rw [hLoader, Loader.atStage_reading]
  · intro task hTask
    obtain ⟨failures, file, -, hFlight, -⟩ := h.last_of_reads hTask
    exact ⟨file, hFlight⟩

/-- A second task is polled while the first one reads, and then the first is cancelled: its read
stays in flight for good. -/
theorem one_read_at_a_time_cancelled :
    let slow : File := ⟨"slow.ch8", .ok [0x12, 0x00], 2⟩
    let actions : List Action := [.spawn [slow], .spawn [slow], .poll 0, .poll 1, .cancel 0]
    let s := (arm ⟨none⟩ .standard).after actions
    (∀ action ∈ actions, action.ThroughTasks) ∧ s.Abandoned 0 ∧ s.loader.reading = true := by
  intro slow actions s
  have hActions : ∀ action ∈ actions, action.ThroughTasks := by
    simp [actions, Action.ThroughTasks]
  have hAbandoned : s.Abandoned 0 := rfl
  have hIff := (one_read_at_a_time ⟨none⟩ .standard hActions).2.1
  exact ⟨hActions, hAbandoned, hIff.2 ⟨0, .inr hAbandoned⟩⟩

end Chip8Launcher.Session
