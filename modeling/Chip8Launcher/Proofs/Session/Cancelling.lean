import Chip8Launcher.Proofs.Session.OneShot
import Chip8Launcher.Proofs.Session.Ownership

/-!
# Cancelling

When a task is cancelled nobody cleans up after it.  If its read was in flight the loader waits for
a delivery that no other task can make, and so it is blocked for good: `Account.abandoned` says how
the session stands, and the task stays where it is (`Sound.after_over`).

A task that was not polled has left nothing behind.  That it is cancelled shows in its own place
only, and every step that does not name it goes past it (`act_setTask`, `after_setTask`).
-/

namespace Chip8Launcher

/-- The step is one of the task. -/
def Action.names (task : Nat) : Action → Bool
  | .poll other | .cancel other => other == task
  | _ => false

namespace Session

/-- The steps of a run, each with what it gave. -/
def told (s : Session) (actions : List Action) : List (Action × Response) :=
  actions.zip (s.run actions).2

@[simp] theorem told_nil (s : Session) : s.told [] = [] := rfl

@[simp] theorem told_cons (s : Session) (action : Action) (actions : List Action) :
    s.told (action :: actions) = (action, (s.act action).2) :: (s.act action).1.told actions := rfl

variable {engine : Engine} {calls : List Call} {sel : List (List File)} {s : Session}
  {task other : Nat}

/-! ### A read that nobody ends -/

/-- While the read of a cancelled task is in flight, no engine has got anything. -/
theorem Account.abandoned (h : s.Account engine sel calls) (hTask : s.Abandoned task) :
    s.loader = .atStage engine .reading ∧ s.running = [] ∧ s.received = [] := by
  rcases h.phase_cases hTask with hIdle | ⟨e, hEnded⟩ | ⟨failures, file, -, -, hLast⟩
  · cases hIdle
  · cases hEnded
  · cases hLast with
    | abandoned hLoader hRunning hReceived => exact ⟨hLoader, hRunning, hReceived⟩
    | reading _ _ _ _ hLast | launching _ _ _ _ hLast | loaded _ _ _ _ hLast =>
      cases hLast.symm.trans hTask

/-- No engine was entered before a read that is in flight. -/
theorem Sound.not_entered (h : Sound engine calls s)
    (hLoader : s.loader = .atStage engine .reading) :
    ∀ call ∈ calls, call.enters = false := by
  obtain ⟨stage, hStage, hPath⟩ := h.stage
  obtain rfl := Loader.atStage_injective engine (hStage.symm.trans hLoader)
  have hReleases := hPath.countP_releases
  have hEntered := h.entered
  have hNone : calls.countP Call.enters = 0 := by
    simp only [Stage.shots] at hReleases
    omega
  intro call hCall
  exact Bool.eq_false_iff.2 (List.countP_eq_zero.1 hNone call hCall)

theorem poll_fresh_reading (hLoader : s.loader = .atStage engine .reading) {files : List File}
    (hTask : s.tasks[task]? = some (.fresh files)) :
    s.poll task = (s.setTask task (.ended (.ok ())),
      ⟨.ended (.ok ()), [Selection.entry (φ := File) .busy], [⟨some task, .picked .busy⟩]⟩) := by
  simp only [poll, hTask, begin, hLoader, Loader.pick_reading, Selection.file?]
  rw [← hLoader]

theorem cancel_reads (hReads : s.Reads task) :
    s.cancel task = (s.setTask task (.cancelled true), ⟨.cancelled true, [], []⟩) := by
  obtain ⟨file, left, hTask⟩ := hReads
  simp only [cancel, hTask]

/-! ### A task that was never heard of -/

theorem setTask_comm (s : Session) (hNe : other ≠ task) (phase phase' : Phase) :
    (s.setTask task phase).setTask other phase' = (s.setTask other phase').setTask task phase := by
  simp only [setTask, List.set_comm _ _ hNe.symm]

theorem complete_setTask (s : Session) (hNe : other ≠ task) (phase : Phase) (file : File) :
    (s.setTask task phase).complete other file =
      ((s.complete other file).1.setTask task phase, (s.complete other file).2) := by
  rcases hDeliver : s.loader.deliver file.read with ⟨loader, delivery⟩
  have hSet := setTask_comm { s with loader := loader } hNe phase
  cases hResult : delivery.result with
  | error e =>
    simp only [complete, setTask_loader, hDeliver, hResult]
    exact Prod.ext (hSet _) rfl
  | ok handoff =>
    simp only [complete, setTask_loader, hDeliver, hResult]
    exact Prod.ext (congrArg (·.enter (some other) handoff) (hSet .launching)) rfl

theorem advance_setTask_ne (s : Session) (hNe : other ≠ task) (phase : Phase) (file : File)
    (left : Nat) :
    (s.setTask task phase).advance other file left =
      ((s.advance other file left).1.setTask task phase, (s.advance other file left).2) := by
  cases left with
  | zero => exact complete_setTask s hNe phase file
  | succ left => exact Prod.ext (setTask_comm s hNe phase _) rfl

theorem begin_setTask (s : Session) (hNe : other ≠ task) (phase : Phase) (files : List File) :
    (s.setTask task phase).begin other files =
      ((s.begin other files).1.setTask task phase, (s.begin other files).2) := by
  rcases hPick : s.loader.pick files with ⟨loader, selection⟩
  cases hFile : selection.file? with
  | none =>
    simp only [begin, setTask_loader, hPick, hFile]
    exact Prod.ext (setTask_comm { s with loader := loader } hNe phase _) rfl
  | some file =>
    have hAdvance := advance_setTask_ne { s with loader := loader } hNe phase file file.delay
    simp only [begin, setTask_loader, hPick, hFile]
    exact Prod.ext (congrArg (·.1) hAdvance)
      (congrArg (fun step => { step.2 with
        log := selection.entry :: step.2.log,
        calls := ⟨some other, .picked selection⟩ :: step.2.calls }) hAdvance)

theorem poll_setTask (s : Session) (hNe : other ≠ task) (phase : Phase) :
    (s.setTask task phase).poll other =
      ((s.poll other).1.setTask task phase, (s.poll other).2) := by
  rw [poll, poll, getElem?_setTask_ne hNe]
  split
  · exact begin_setTask s hNe phase _
  · exact advance_setTask_ne s hNe phase _ _
  · rfl

theorem cancel_setTask (s : Session) (hNe : other ≠ task) (phase : Phase) :
    (s.setTask task phase).cancel other =
      ((s.cancel other).1.setTask task phase, (s.cancel other).2) := by
  rw [cancel, cancel, getElem?_setTask_ne hNe]
  split
  · exact Prod.ext (setTask_comm s hNe phase _) rfl
  · exact Prod.ext (setTask_comm s hNe phase _) rfl
  · rfl

theorem finish_setTask (s : Session) (phase : Phase)
    (hIdle : ∀ activation ∈ s.running, activation.task ≠ some task) :
    (s.setTask task phase).finish = (s.finish.1.setTask task phase, s.finish.2) := by
  cases hRunning : s.running with
  | nil => simp only [finish, setTask_running, hRunning]
  | cons activation running =>
    cases hOther : activation.task with
    | none => simp only [finish, setTask_running, hRunning, hOther]; rfl
    | some other =>
      have hNe : other ≠ task := by
        rintro rfl
        exact hIdle activation (by simp [hRunning]) hOther
      simp only [finish, setTask_running, hRunning, hOther]
      exact Prod.ext (setTask_comm { s with running := running, received := _ } hNe phase _) rfl

/-- A step that does not name a task goes past whatever its phase is. -/
theorem act_setTask {old : Phase} (hTask : s.tasks[task]? = some old)
    (hIdle : ∀ activation ∈ s.running, activation.task ≠ some task) {action : Action}
    (hNames : action.names task = false) (phase : Phase) :
    (s.setTask task phase).act action =
      ((s.act action).1.setTask task phase, (s.act action).2) := by
  cases action with
  | read =>
    cases hPicked : s.picked with
    | none => simp only [act, setTask, hPicked]
    | some file =>
      simp only [act, setTask, hPicked]
      rfl
  | start =>
    cases hHandoff : s.handoff with
    | none => simp only [act, start, setTask, hHandoff]
    | some handoff =>
      simp only [act, start, setTask, hHandoff]
      rfl
  | spawn files =>
    have hLt : task < s.tasks.length := (List.getElem?_eq_some_iff.1 hTask).1
    simp only [act, setTask, List.length_set, List.set_append_left _ _ hLt]
  | poll other => exact poll_setTask s (by simpa [Action.names] using hNames) phase
  | cancel other => exact cancel_setTask s (by simpa [Action.names] using hNames) phase
  | draw fill =>
    cases hRunning : s.running <;> simp only [act, setTask_running, hRunning] <;> rfl
  | finish => exact finish_setTask s phase hIdle
  | _ => rfl

theorem act_of_names {phase : Phase} (hTask : s.tasks[task]? = some phase) (hOver : phase.IsOver)
    {action : Action} (hNames : action.names task = true) :
    (s.act action).1 = s ∧ (s.act action).2.log = [] ∧ (s.act action).2.calls = [] := by
  cases action with
  | poll other =>
    obtain rfl : other = task := by simpa [Action.names] using hNames
    rw [act, poll_over hTask hOver]
    exact ⟨rfl, rfl, rfl⟩
  | cancel other =>
    obtain rfl : other = task := by simpa [Action.names] using hNames
    rw [act, cancel_over hTask hOver]
    exact ⟨rfl, rfl, rfl⟩
  | _ => cases hNames

/-- **A task that is given up before its first poll is as good as left out**: the run goes on as
it does without the steps that name the task, and these do nothing. -/
theorem Sound.after_setTask (h : Sound engine calls s) {files : List File}
    (hTask : s.tasks[task]? = some (.fresh files)) (actions : List Action) :
    let t := s.setTask task (.cancelled false)
    let others := actions.filter (!·.names task)
    t.after actions = (s.after others).setTask task (.cancelled false) ∧
      (t.told actions).filter (!·.1.names task) = s.told others ∧
      ∀ step ∈ t.told actions, step.1.names task = true → step.2.log = [] ∧ step.2.calls = [] := by
  induction actions generalizing calls s with
  | nil => exact ⟨rfl, rfl, List.forall_mem_nil _⟩
  | cons action actions ih =>
    intro t others
    have hCancelled : t.tasks[task]? = some (.cancelled false) := getElem?_setTask_self hTask _
    cases hNames : action.names task with
    | true =>
      obtain ⟨hStill, hLog, hCalls⟩ := act_of_names hCancelled trivial hNames
      obtain ⟨hAfter, hTold, hNothing⟩ := ih h hTask
      simp only [others, List.filter_cons, hNames, Bool.not_true, Bool.false_eq_true, if_false,
        after_cons, told_cons, hStill]
      refine ⟨hAfter, hTold, List.forall_mem_cons.2 ⟨fun _ => ⟨hLog, hCalls⟩, hNothing⟩⟩
    | false =>
      have hPolls : action ≠ .poll task := by
        rintro rfl
        simp [Action.names] at hNames
      have hCancels : action ≠ .cancel task := by
        rintro rfl
        simp [Action.names] at hNames
      have hIdle : ∀ activation ∈ s.running, activation.task ≠ some task := by
        intro activation hActivation hOther
        cases hTask.symm.trans (h.launching activation hActivation task hOther)
      have hAct : t.act action =
          ((s.act action).1.setTask task (.cancelled false), (s.act action).2) :=
        act_setTask hTask hIdle hNames _
      obtain ⟨hAfter, hTold, hNothing⟩ :=
        ih (h.act action) (h.act_other hTask (by simp) hPolls hCancels)
      simp only [others, List.filter_cons, hNames, Bool.not_false, if_true, after_cons, told_cons,
        hAct]
      refine ⟨hAfter, congrArg (_ :: ·) hTold, List.forall_mem_cons.2 ⟨?_, hNothing⟩⟩
      intro hNamed
      cases hNames.symm.trans hNamed

theorem cancel_fresh {files : List File} (hTask : s.tasks[task]? = some (.fresh files)) :
    s.cancel task = (s.setTask task (.cancelled false), ⟨.cancelled true, [], []⟩) := by
  simp only [cancel, hTask]

/-- **A cancelled read blocks the loader for good, and nothing else that is cancelled does
anything.**  If a task is cancelled while it reads, in a session that goes through tasks only, the
loader stays armed and reading with its engine in place and the selector shown, every task that is
then polled for the first time ends well at once without a read, and no engine is ever entered.
If a task is cancelled before its first poll, at any point of any session, what comes after is what
comes without that task: the session differs in its place only, every step that is not one of that
task gives the same, and the steps of that task do nothing. -/
theorem cancelling (engine : Engine) (screen : Framebuffer) (before later : List Action)
    (task : Nat) :
    let s := (arm engine screen).after before
    let t := s.after (.cancel task :: later)
    ((∀ action ∈ before ++ later, action.ThroughTasks) → s.Reads task →
      t.loader = { state := .armed, reading := true, engine := some engine, hides := 0 } ∧
        (∀ other files, t.tasks[other]? = some (.fresh files) →
          t.poll other = (t.setTask other (.ended (.ok ())),
            ⟨.ended (.ok ()), [Selection.entry (φ := File) .busy],
              [⟨some other, .picked .busy⟩]⟩)) ∧
        (∀ call ∈ (arm engine screen).calls (before ++ .cancel task :: later),
          call.enters = false) ∧
        t.running = [] ∧ t.received = []) ∧
    ((∃ files, s.tasks[task]? = some (.fresh files)) →
      let others := later.filter (!·.names task)
      let cancelled := (s.cancel task).1
      (s.cancel task).2 = ⟨.cancelled true, [], []⟩ ∧
        t = (s.after others).setTask task (.cancelled false) ∧
        (cancelled.told later).filter (!·.1.names task) = s.told others ∧
        ∀ step ∈ cancelled.told later, step.1.names task = true →
          step.2.log = [] ∧ step.2.calls = []) := by
  intro s t
  have hSound : Sound engine ((arm engine screen).calls before) s :=
    .after_arm engine screen before
  refine ⟨?_, ?_⟩
  · intro hActions hReads
    obtain ⟨hBefore, hLater⟩ := List.forall_mem_append.1 hActions
    have hWhole : ∀ action ∈ before ++ .cancel task :: later, action.ThroughTasks :=
      List.forall_mem_append.2 ⟨hBefore, List.forall_mem_cons.2 ⟨trivial, hLater⟩⟩
    have hAfter : t = (arm engine screen).after (before ++ .cancel task :: later) :=
      (after_append _ before _).symm
    have hCancelled : (s.act (.cancel task)).1.tasks[task]? = some (.cancelled true) := by
      obtain ⟨file, left, hTask⟩ := id hReads
      rw [act, cancel_reads hReads]
      exact getElem?_setTask_self hTask _
    have hAbandoned : t.Abandoned task := (hSound.act _).after_over hCancelled trivial later
    have hAccount := Account.after_arm engine screen hWhole
    rw [← hAfter] at hAccount
    obtain ⟨hLoader, hRunning, hReceived⟩ := hAccount.abandoned hAbandoned
    refine ⟨hLoader, fun other files => poll_fresh_reading hLoader, ?_, hRunning, hReceived⟩
    have hSound' := Sound.after_arm engine screen (before ++ .cancel task :: later)
    rw [← hAfter] at hSound'
    exact hSound'.not_entered hLoader
  · rintro ⟨files, hTask⟩ others cancelled
    have hCancelled := cancel_fresh hTask
    have hRun := hSound.after_setTask hTask later
    refine ⟨congrArg (·.2) hCancelled, ?_⟩
    simp only [t, cancelled, after_cons, act, hCancelled]
    exact hRun

/-- A second task is polled while the first one reads, and then the first is cancelled; a third is
cancelled before its first poll, and its later polls do nothing. -/
theorem cancelling_slow_read :
    let engine : Engine := ⟨some "stack overflow"⟩
    let slow : File := ⟨"slow.ch8", .ok [0x12, 0x00], 2⟩
    let before : List Action := [.spawn [slow], .spawn [slow], .poll 0, .poll 1]
    let later : List Action := [.spawn [slow], .poll 0, .cancel 0, .finish]
    let s := (arm engine .standard).after before
    let t := s.after (.cancel 0 :: later)
    let idle := (arm engine .standard).after (.spawn [slow] :: before)
    (∀ action ∈ before ++ later, action.ThroughTasks) ∧ s.Reads 0 ∧
      t.tasks[2]? = some (.fresh [slow]) ∧
      t.loader = { state := .armed, reading := true, engine := some engine, hides := 0 } ∧
      (t.poll 2).1.tasks[2]? = some (.ended (.ok ())) ∧
      idle.tasks[2]? = some (.fresh [slow]) ∧
      idle.after [.cancel 2, .poll 2, .poll 0, .poll 0] =
        (idle.after [.poll 0, .poll 0]).setTask 2 (.cancelled false) := by
  intro engine slow before later s t idle
  have hActions : ∀ action ∈ before ++ later, action.ThroughTasks := by
    simp [before, later, Action.ThroughTasks]
  have hReads : s.Reads 0 := ⟨slow, 1, rfl⟩
  have hFresh : t.tasks[2]? = some (.fresh [slow]) := rfl
  have hIdle : idle.tasks[2]? = some (.fresh [slow]) := rfl
  obtain ⟨hLoader, hPolls, -⟩ := (cancelling engine .standard before later 0).1 hActions hReads
  have hLeft := (cancelling engine .standard (.spawn [slow] :: before) [.poll 2, .poll 0, .poll 0]
    2).2 ⟨_, hIdle⟩
  refine ⟨hActions, hReads, hFresh, hLoader, ?_, hIdle, hLeft.2.1⟩
  rw [hPolls 2 [slow] hFresh]
  exact getElem?_setTask_self hFresh _

end Session

end Chip8Launcher
