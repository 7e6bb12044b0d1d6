import Chip8Launcher.Proofs.Session.Sound

/-!
# Rolling back

A delivery that is refused changes nothing, and one that fails only gives up the read.  So a read
that fails leaves the loader as it was before it began, however often that happens, and a loader
that waits is as good as new.

To compare a session of any past with a new one, the tasks of the past must be skipped.
`s.behind past` is the session `s` with that past in front of it: the tasks are numbered from the
end of the old ones and the images come after the old ones.  `act_behind` says that a step does not
see the past, `run_behind` that a run does not.
-/

namespace Chip8Launcher

/-! ### Later numbers -/

/-- The step with the numbers of tasks moved up by `n`. -/
def Action.shift (n : Nat) : Action → Action
  | .poll task => .poll (n + task)
  | .cancel task => .cancel (n + task)
  | action => action

def Answer.shift (n : Nat) : Answer → Answer
  | .pending task => .pending (n + task)
  | answer => answer

def Call.shift (n : Nat) (call : Call) : Call := { call with task := call.task.map (n + ·) }

def Response.shift (n : Nat) (response : Response) : Response where
  answer := response.answer.shift n
  log := response.log
  calls := response.calls.map (Call.shift n)

def Activation.shift (n : Nat) (activation : Activation) : Activation :=
  { activation with task := activation.task.map (n + ·) }

namespace Session

/-- A session with the tasks and the images of another one in front of its own. -/
def behind (s past : Session) : Session :=
  { s with
    tasks := past.tasks ++ s.tasks
    running := s.running.map (Activation.shift past.tasks.length)
    received := past.received ++ s.received }

variable {engine : Engine} {calls : List Call} {s : Session}

/-! ### What does not see the past -/

theorem setTask_behind (s past : Session) (task : Nat) (phase : Phase) :
    (s.behind past).setTask (past.tasks.length + task) phase =
      (s.setTask task phase).behind past := by
  simp [behind, setTask, List.set_append_right]

theorem getElem?_behind (s past : Session) (task : Nat) :
    (s.behind past).tasks[past.tasks.length + task]? = s.tasks[task]? := by
  rw [behind, List.getElem?_append_right (Nat.le_add_right _ _), Nat.add_sub_cancel_left]

theorem complete_behind (s past : Session) (task : Nat) (file : File) :
    (s.behind past).complete (past.tasks.length + task) file =
      ((s.complete task file).1.behind past,
        (s.complete task file).2.shift past.tasks.length) := by
  rcases hDeliver : s.loader.deliver file.read with ⟨loader, delivery⟩
  have hDeliver' : (s.behind past).loader.deliver file.read = (loader, delivery) := hDeliver
  have hSet := setTask_behind { s with loader := loader } past task
  cases hResult : delivery.result with
  | error e =>
    simp only [complete, hDeliver, hDeliver', hResult]
    exact Prod.ext (hSet _) rfl
  | ok handoff =>
    simp only [complete, hDeliver, hDeliver', hResult]
    exact Prod.ext (congrArg (·.enter (some (past.tasks.length + task)) handoff) (hSet _)) rfl

theorem advance_behind (s past : Session) (task : Nat) (file : File) (left : Nat) :
    (s.behind past).advance (past.tasks.length + task) file left =
      ((s.advance task file left).1.behind past,
        (s.advance task file left).2.shift past.tasks.length) := by
  cases left with
  | zero => exact complete_behind s past task file
  | succ left => exact Prod.ext (setTask_behind s past task _) rfl

theorem begin_behind (s past : Session) (task : Nat) (files : List File) :
    (s.behind past).begin (past.tasks.length + task) files =
      ((s.begin task files).1.behind past, (s.begin task files).2.shift past.tasks.length) := by
  rcases hPick : s.loader.pick files with ⟨loader, selection⟩
  have hPick' : (s.behind past).loader.pick files = (loader, selection) := hPick
  cases hFile : selection.file? with
  | none =>
    simp only [begin, hPick, hPick', hFile]
    exact Prod.ext (setTask_behind { s with loader := loader } past task _) rfl
  | some file =>
    have hAdvance := advance_behind { s with loader := loader } past task file file.delay
    have hBegun : { s.behind past with loader := loader } =
        { s with loader := loader }.behind past := rfl
    simp only [begin, hPick, hPick', hFile, hBegun, hAdvance]
    rfl

theorem poll_behind (s past : Session) (task : Nat) :
    (s.behind past).poll (past.tasks.length + task) =
      ((s.poll task).1.behind past, (s.poll task).2.shift past.tasks.length) := by
  rw [poll, poll, getElem?_behind]
  split
  · exact begin_behind s past task _
  · exact advance_behind s past task _ _
  · rfl

theorem cancel_behind (s past : Session) (task : Nat) :
    (s.behind past).cancel (past.tasks.length + task) =
      ((s.cancel task).1.behind past, (s.cancel task).2.shift past.tasks.length) := by
  rw [cancel, cancel, getElem?_behind]
  split
  · exact Prod.ext (setTask_behind s past task _) rfl
  · exact Prod.ext (setTask_behind s past task _) rfl
  · rfl

theorem finish_behind (s past : Session) :
    (s.behind past).finish =
      (s.finish.1.behind past, s.finish.2.shift past.tasks.length) := by
  cases hRunning : s.running with
  | nil =>
    simp only [finish, behind, hRunning]
    rfl
  | cons activation running =>
    have hReceived : { s.behind past with
          running := running.map (Activation.shift past.tasks.length)
          received := (s.behind past).received ++ [activation.handoff.image] } =
        { s with
          running := running
          received := s.received ++ [activation.handoff.image] }.behind past := by
      simp only [behind, List.append_assoc]
    have hRunning' : (s.behind past).running =
        activation.shift past.tasks.length ::
          running.map (Activation.shift past.tasks.length) := by
      rw [behind, hRunning, List.map_cons]
    cases hTask : activation.task with
    | none =>
      simp only [finish, hRunning, hRunning', Activation.shift, hTask, Option.map_none]
      exact Prod.ext hReceived rfl
    | some task =>
      simp only [finish, hRunning, hRunning', Activation.shift, hTask, Option.map_some]
      rw [hReceived, setTask_behind]
      rfl

/-- **A step does not see what lies before it** of other tasks and images. -/
theorem act_behind (s past : Session) (action : Action) :
    (s.behind past).act (action.shift past.tasks.length) =
      ((s.act action).1.behind past, (s.act action).2.shift past.tasks.length) := by
  cases action with
  | read =>
    cases hPicked : s.picked with
    | none => simp only [act, Action.shift, behind, hPicked]; rfl
    | some file => simp only [act, Action.shift, behind, hPicked]; rfl
  | start =>
    cases hHandoff : s.handoff with
    | none => simp only [act, Action.shift, start, behind, hHandoff]; rfl
    | some handoff => simp only [act, Action.shift, start, behind, hHandoff]; rfl
  | spawn files =>
    simp only [act, Action.shift, behind, List.append_assoc, List.length_append]
    rfl
  | poll task => exact poll_behind s past task
  | cancel task => exact cancel_behind s past task
  | draw fill =>
    have hEmpty : (s.behind past).running.isEmpty = s.running.isEmpty := List.isEmpty_map
    cases hRunning : s.running.isEmpty <;> simp only [act, Action.shift, hEmpty, hRunning] <;> rfl
  | finish => exact finish_behind s past
  | _ => rfl

theorem run_behind (s past : Session) (actions : List Action) :
    (s.behind past).run (actions.map (Action.shift past.tasks.length)) =
      ((s.run actions).1.behind past,
        (s.run actions).2.map (Response.shift past.tasks.length)) := by
  induction actions generalizing s with
  | nil => rfl
  | cons action actions ih =>
    rw [List.map_cons, run, act_behind, run]
    dsimp only
    rw [ih]
    rfl

/-! ### Waiting again -/

/-- Before anything is released there is nothing to start, and no engine has control. -/
theorem Sound.of_waiting (h : Sound engine calls s)
    (hLoader : s.loader = .atStage engine .waiting) : s.handoff = none ∧ s.running = [] := by
  obtain ⟨stage, hStage, hPath⟩ := h.stage
  obtain rfl := Loader.atStage_injective engine (hStage.symm.trans hLoader)
  have hReleases := hPath.countP_releases
  have hEntered := h.entered
  have hRunning := h.running
  simp only [Stage.shots] at hReleases
  constructor
  · have hNone : s.handoff.toList.length = 0 := by omega
    simpa using hNone
  · exact List.length_eq_zero_iff.1 (by omega)

/-- A session that waits is a new one, but for its past and for the file that is kept. -/
theorem Sound.eq_behind (h : Sound engine calls s)
    (hLoader : s.loader = .atStage engine .waiting) :
    s = { Session.arm engine s.screen with picked := s.picked }.behind s := by
  obtain ⟨hHandoff, hRunning⟩ := h.of_waiting hLoader
  obtain ⟨loader, tasks, picked, handoff, running, received, screen⟩ := s
  simp_all [behind, Session.arm]

/-- A read that is begun and fails, both by hand. -/
structure FailedRead where
  file : File
  /-- What was selected besides the file. -/
  rest : List File
  error : ReadError

def FailedRead.actions (read : FailedRead) : List Action :=
  [.pick (read.file :: read.rest), .deliver (.error read.error)]

theorem after_failedRead (hLoader : s.loader = .atStage engine .waiting) (read : FailedRead) :
    s.after read.actions = { s with picked := some read.file } := by
  simp only [FailedRead.actions, after_cons, after_nil, act, pick, deliver, hLoader,
    Loader.pick_waiting, Loader.deliver_reading_error, Selection.file?, Option.some_or]

theorem after_failedReads (hLoader : s.loader = .atStage engine .waiting)
    (reads : List FailedRead) :
    ∃ picked, s.after (reads.flatMap FailedRead.actions) = { s with picked := picked } := by
  induction reads generalizing s with
  | nil => exact ⟨s.picked, rfl⟩
  | cons read reads ih =>
    rw [List.flatMap_cons, after_append, after_failedRead hLoader]
    exact ih (s := { s with picked := some read.file }) hLoader

/-- After any number of failed reads the session is a new one, but for its past and for the file
that is kept. -/
theorem Sound.after_failedReads (h : Sound engine calls s)
    (hLoader : s.loader = .atStage engine .waiting) (reads : List FailedRead) :
    let t := s.after (reads.flatMap FailedRead.actions)
    t.loader = s.loader ∧
      t = { Session.arm engine s.screen with picked := t.picked }.behind s := by
  intro t
  obtain ⟨picked, hAfter⟩ := Session.after_failedReads hLoader reads
  have hPicked : t.picked = picked := congrArg Session.picked hAfter
  have hKept : t = { s with picked := t.picked } := by
    rw [hPicked]
    exact hAfter
  have hBack := congrArg Session.loader hKept
  exact ⟨hBack, hKept.trans
    (congrArg (fun u : Session => { u with picked := t.picked }) (h.eq_behind hLoader))⟩

/-- **Failures are rolled back.**  In any session a delivery is refused only if no read is in
flight, and then changes nothing, and one that fails only ends the read.  So after any number of
reads that have failed the loader is what it was and what a new one is: whatever is done from then
on gives what it gives in a new session. -/
theorem failures_are_rolled_back (engine : Engine) (screen : Framebuffer) (before : List Action) :
    let s := (arm engine screen).after before
    (∀ content, (s.loader.deliver content).2.result = .error .noReadInFlight ↔
        s.loader.reading = false) ∧
      (s.loader.reading = false → ∀ content, (s.loader.deliver content).1 = s.loader) ∧
      (s.loader.reading = true → ∀ e,
        (s.loader.deliver (.error e)).1 = { s.loader with reading := false } ∧
          (s.loader.deliver (.error e)).2.result = .error (.read e)) ∧
      (s.loader.state = .armed → s.loader.reading = false →
        (∀ (file : File) rest e,
          ((s.loader.pick (file :: rest)).1.deliver (.error e)).1 = s.loader) ∧
        ∀ reads : List FailedRead,
          let t := s.after (reads.flatMap FailedRead.actions)
          let fresh := { arm engine s.screen with picked := t.picked }
          t.loader = s.loader ∧ t.loader = .arm engine ∧
            ∀ later, t.run (later.map (Action.shift s.tasks.length)) =
              ((fresh.run later).1.behind s,
                (fresh.run later).2.map (Response.shift s.tasks.length))) := by
  intro s
  have hSound : Sound engine ((arm engine screen).calls before) s := .after_arm engine screen before
  obtain ⟨stage, hLoader, -⟩ := hSound.stage
  refine ⟨?_, ?_, ?_, ?_⟩
  · intro content
    rw [hLoader]
    cases stage <;> cases content <;>
      simp [Loader.atStage, Loader.deliver, Delivery.result]
  · intro hReading content
    rw [hLoader] at hReading ⊢
    cases stage with
    | waiting => rfl
    | reading => cases hReading
    | spent => rfl
  · intro hReading e
    rw [hLoader] at hReading ⊢
    obtain rfl := (Loader.atStage_reading engine stage).1 hReading
    exact ⟨rfl, rfl⟩
  · intro hArmed hReading
    have hWaiting : s.loader = .atStage engine .waiting := by
      rw [hLoader] at hArmed hReading ⊢
      cases stage with
      | waiting => rfl
      | reading => cases hReading
      | spent => cases hArmed
    refine ⟨?_, ?_⟩
    · intro file rest e
      rw [hWaiting, Loader.pick_waiting, Loader.deliver_reading_error]
    · intro reads t fresh
      obtain ⟨hBack, hSame⟩ := hSound.after_failedReads hWaiting reads
      refine ⟨hBack, hBack.trans hWaiting, fun later => ?_⟩
      have hRun := congrArg (·.run (later.map (Action.shift s.tasks.length))) hSame
      exact hRun.trans (run_behind fresh s later)

/-- A delivery made by hand fails the read of a task, and two more reads fail.  The next task loads
its file as the first one of a new session does. -/
theorem failures_are_rolled_back_stolen_read :
    let engine : Engine := ⟨none⟩
    let file : File := ⟨"game.ch8", .ok [0x12, 0x00], 1⟩
    let error : ReadError := ⟨"game.ch8", "gone"⟩
    let before : List Action := [.spawn [file], .poll 0, .deliver (.error error)]
    let reads : List FailedRead := [⟨file, [], error⟩, ⟨file, [file], error⟩]
    let s := (arm engine .standard).after before
    let t := s.after (reads.flatMap FailedRead.actions)
    s.loader.state = .armed ∧ s.loader.reading = false ∧ t.loader = .arm engine ∧
      (t.after [.spawn [file], .poll 1, .poll 1, .finish]).received = [⟨[0x12, 0x00]⟩] := by
  intro engine file error before reads s t
  have hArmed : s.loader.state = .armed := rfl
  have hIdle : s.loader.reading = false := rfl
  obtain ⟨-, hRounds⟩ := (failures_are_rolled_back engine .standard before).2.2.2 hArmed hIdle
  obtain ⟨-, hLoader, hLater⟩ := hRounds reads
  have hRun := hLater [.spawn [file], .poll 0, .poll 0, .finish]
  exact ⟨hArmed, hIdle, hLoader, congrArg (·.1.received) hRun⟩

end Session

end Chip8Launcher
