import Chip8Launcher.Proofs.Session.Account

/-!
# The history of a session

What a session through tasks has come to is told by the files its tasks have begun to read, if no
task is ever cancelled: what each of these tasks ends with, what the engine has on record and how
the loader stands.  That the reads come one after the other is `Account.ended_of_begun`; the rest
is the account of the session without its abandoned case.
-/

namespace Chip8Launcher.Session

/-- No task has been cancelled. -/
def Uncancelled (s : Session) : Prop :=
  ∀ (task : Nat) (reading : Bool), s.tasks[task]? ≠ some (.cancelled reading)

section Uncancelled

variable {calls : List Call} {s t : Session} {task : Nat}

theorem Uncancelled.of_setTask (h : s.Uncancelled) {phase : Phase}
    (hTasks : t.tasks = (s.setTask task phase).tasks)
    (hPhase : ∀ reading, phase ≠ .cancelled reading) : t.Uncancelled := by
  intro other reading hOther
  rw [hTasks, setTask, List.getElem?_set] at hOther
  split at hOther
  · split at hOther
    · exact hPhase reading (Option.some.inj hOther)
    · cases hOther
  · exact h other reading hOther

theorem Uncancelled.moves (h : s.Uncancelled) (hMoves : Moves task s calls t) :
    t.Uncancelled := by
  induction hMoves with
  | refl => exact h
  | head hMove _ ih =>
    refine ih ?_
    cases hMove <;> exact h.of_setTask rfl (by simp)

theorem Uncancelled.finish (h : s.Uncancelled) : s.finish.1.Uncancelled := by
  rw [Session.finish]
  split
  · exact h
  next activation running _ =>
    cases activation.task with
    | none => exact h
    | some task => exact h.of_setTask rfl (by simp)

theorem Uncancelled.act (h : s.Uncancelled) {action : Action} (hAction : action.ThroughTasks)
    (hKept : ∀ task, action ≠ .cancel task) : (s.act action).1.Uncancelled := by
  cases action with
  | spawn files =>
    intro task reading hTask
    rcases getElem?_spawn hTask with hTask | ⟨-, hPhase⟩
    · exact h task reading hTask
    · cases hPhase
  | poll task => exact h.moves (poll_moves s task)
  | cancel task => exact absurd rfl (hKept task)
  | draw fill =>
    simp only [Session.act]
    split <;> exact h
  | finish => exact h.finish
  | _ => cases hAction

theorem Uncancelled.after (h : s.Uncancelled) {actions : List Action}
    (hActions : ∀ action ∈ actions, action.ThroughTasks)
    (hKept : ∀ task, .cancel task ∉ actions) : (s.after actions).Uncancelled := by
  induction actions generalizing s with
  | nil => exact h
  | cons action actions ih =>
    obtain ⟨hAction, hActions⟩ := List.forall_mem_cons.1 hActions
    refine ih (h.act hAction ?_) hActions ?_
    · rintro task rfl
      exact hKept task List.mem_cons_self
    · intro task hTask
      exact hKept task (List.mem_cons_of_mem action hTask)

end Uncancelled

/-! ### One after the other -/

theorem Move.not_fresh {task : Nat} {calls : List Call} {s t : Session}
    (h : Move task s calls t) (files : List File) : t.tasks[task]? ≠ some (.fresh files) := by
  intro hFresh
  cases h with
  | ignore hTask | begin hTask | wait hTask | fail hTask | launch hTask =>
    cases (getElem?_setTask_self hTask _).symm.trans hFresh

theorem Moves.not_fresh {task : Nat} {calls : List Call} {s t : Session}
    (h : Moves task s calls t) (hNotFresh : ∀ files, s.tasks[task]? ≠ some (.fresh files)) :
    ∀ files, t.tasks[task]? ≠ some (.fresh files) := by
  induction h with
  | refl => exact hNotFresh
  | head hMove _ ih => exact ih hMove.not_fresh

theorem Moves.begun_eq_nil {task : Nat} {calls : List Call} {s t : Session}
    (h : Moves task s calls t) (hNotFresh : ∀ files, s.tasks[task]? ≠ some (.fresh files)) :
    begun calls = [] := by
  induction h with
  | refl => rfl
  | head hMove _ ih =>
    rw [begun_append, ih hMove.not_fresh, List.append_nil]
    cases hMove with
    | ignore hFresh | begin hFresh => exact absurd hFresh (hNotFresh _)
    | wait | fail | launch => rfl

/-- A poll that begins a read does so at once. -/
theorem Moves.pick_of_begun {task : Nat} {calls : List Call} {s t : Session}
    (h : Moves task s calls t) (hBegun : begun calls ≠ []) :
    ∃ (files : List File) (file : File) (loader : Loader Engine),
      s.loader.pick files = (loader, .picked file) := by
  cases h with
  | refl => exact absurd rfl hBegun
  | head hMove hMoves =>
    rw [begun_append, hMoves.begun_eq_nil hMove.not_fresh, List.append_nil] at hBegun
    cases hMove with
    | begin _ hPick => exact ⟨_, _, _, hPick⟩
    | @ignore files selection _ _ hNone =>
      have hQuiet : Call.IsQuiet ⟨some task, .picked selection⟩ :=
        Call.isQuiet_of_file?_eq_none hNone
      exact absurd (begun_of_quiet (List.forall_mem_singleton.2 hQuiet)) hBegun
    | wait | fail | launch => exact absurd rfl hBegun

/-- A step begins a read only when the tasks of all reads before have ended. -/
theorem Account.ended_of_begun {engine : Engine} {sel : List (List File)} {calls : List Call}
    {s : Session} (h : s.Account engine sel calls) {action : Action}
    (hAction : action.ThroughTasks) (hBegun : begun (s.act action).2.calls ≠ []) :
    ∀ read ∈ begun calls, ∃ result, s.tasks[read.1]? = some (.ended result) := by
  cases action with
  | poll task =>
    obtain ⟨files, file, loader, hPick⟩ := (poll_moves s task).pick_of_begun hBegun
    obtain ⟨failures, last, hReads, hFailed, hStanding⟩ := h.reads
    cases hStanding with
    | reading hLoader | abandoned hLoader | launching _ hLoader | loaded _ hLoader =>
      simp [hLoader] at hPick
    | idle =>
      intro read hRead
      rw [hReads, List.append_nil] at hRead
      obtain ⟨reason, -, hEnded⟩ := hFailed read hRead
      exact ⟨_, hEnded⟩
  | cancel task =>
    rw [Session.act, cancel_calls] at hBegun
    exact absurd rfl hBegun
  | finish =>
    rw [Session.act, finish_calls] at hBegun
    exact absurd rfl hBegun
  | spawn | draw => exact absurd rfl hBegun
  | _ => cases hAction

/-- **The reads tell everything.**  In a session through tasks, none of which is cancelled, take
the reads in the order in which they were begun, each of the first file of its task's selection.
Each begins only after the tasks of those before have ended.  All but the last have failed, with
the name and the reason of their file.  Once the last has succeeded and its engine has returned,
its task has ended as the engine does, and the record is the one image with exactly the bytes of
the file; until it succeeds, the record is empty and the loader has its engine.  Between the two
the engine has control, which an engine that does nothing but record never shows.  All other
tasks that were polled have ended well. -/
theorem reads_tell_everything (engine : Engine) (screen : Framebuffer) {actions : List Action}
    (hActions : ∀ action ∈ actions, action.ThroughTasks)
    (hKept : ∀ task, .cancel task ∉ actions) :
    let start := arm engine screen
    let s := start.after actions
    let reads := begun (start.calls actions)
    (∀ read ∈ reads, ∃ rest, (selections actions)[read.1]? = some (read.2 :: rest)) ∧
      (∀ before action later, actions = before ++ action :: later →
        begun ((start.after before).act action).2.calls ≠ [] →
        ∀ read ∈ begun (start.calls before),
          ∃ result, (start.after before).tasks[read.1]? = some (.ended result)) ∧
      (∀ (task : Nat) (phase : Phase), s.tasks[task]? = some phase →
        (∀ file, (task, file) ∉ reads) →
        phase = .ended (.ok ()) ∨ ∃ files, phase = .fresh files) ∧
      ∃ failures last, reads = failures ++ last ∧
        (∀ read ∈ failures, s.Failed read.1 read.2) ∧
        (last = [] ∧ s.loader = .atStage engine .waiting ∧ s.running = [] ∧ s.received = [] ∨
          ∃ task file, last = [(task, file)] ∧
            ((∃ left, s.tasks[task]? = some (.reading file left)) ∧
                s.loader = .atStage engine .reading ∧ s.running = [] ∧ s.received = [] ∨
              ∃ bytes, file.content = .ok bytes ∧ s.loader = .atStage engine .spent ∧
                (s.tasks[task]? = some .launching ∧ s.received = [] ∧
                    s.running = [⟨some task, ⟨⟨bytes⟩, engine⟩⟩] ∨
                  s.tasks[task]? = some (.ended engine.outcome) ∧ s.received = [⟨bytes⟩] ∧
                    s.running = []))) := by
  intro start s reads
  have h : s.Account engine (selections actions) (start.calls actions) :=
    .after_arm engine screen hActions
  have hUncancelled : s.Uncancelled :=
    Uncancelled.after (by simp [Uncancelled, start, arm]) hActions hKept
  refine ⟨h.selected, ?_, ?_, ?_⟩
  · intro before action later hSplit hBegun
    have hBefore : ∀ action ∈ before, action.ThroughTasks := by
      intro other hOther
      exact hActions other (hSplit ▸ List.mem_append_left _ hOther)
    have hAction : action.ThroughTasks :=
      hActions action (hSplit ▸ List.mem_append_right _ List.mem_cons_self)
    exact (Account.after_arm engine screen hBefore).ended_of_begun hAction hBegun
  · intro task phase hTask hNot
    have hIdle := h.others task phase hTask hNot
    cases phase with
    | fresh files => exact .inr ⟨files, rfl⟩
    | cancelled reading => exact absurd hTask (hUncancelled task reading)
    | ended result =>
      cases result with
      | ok => exact .inl rfl
      | error => cases hIdle
    | _ => cases hIdle
  · obtain ⟨failures, last, hReads, hFailed, hStanding⟩ := h.reads
    refine ⟨failures, last, hReads, hFailed, ?_⟩
    cases hStanding with
    | idle hLoader hRunning hReceived => exact .inl ⟨rfl, hLoader, hRunning, hReceived⟩
    | @reading task file left hLoader hRunning hReceived _ hTask =>
      exact .inr ⟨task, file, rfl, .inl ⟨⟨left, hTask⟩, hLoader, hRunning, hReceived⟩⟩
    | abandoned _ _ _ _ hTask => exact absurd hTask (hUncancelled _ true)
    | @launching task file bytes hContent hLoader hRunning hReceived hTask =>
      exact .inr ⟨task, file, rfl, .inr ⟨bytes, hContent, hLoader,
        .inl ⟨hTask, hReceived, hRunning⟩⟩⟩
    | @loaded task file bytes hContent hLoader hRunning hReceived hTask =>
      exact .inr ⟨task, file, rfl, .inr ⟨bytes, hContent, hLoader,
        .inr ⟨hTask, hReceived, hRunning⟩⟩⟩

/-- A file that cannot be read, then one that can and is slow, with an impatient third task in
between, and an engine that fails. -/
theorem reads_tell_everything_overlapping :
    let engine : Engine := ⟨some "stack overflow"⟩
    let locked : File := ⟨"locked.ch8", .error "NotReadableError", 0⟩
    let pong : File := ⟨"pong.ch8", .ok [0x6a, 0x02], 1⟩
    let actions : List Action :=
      [.spawn [locked], .poll 0, .spawn [pong, locked], .poll 1, .spawn [pong], .poll 2, .poll 1,
        .finish]
    let s := (arm engine .standard).after actions
    (∀ action ∈ actions, action.ThroughTasks) ∧ (∀ task, .cancel task ∉ actions) ∧
      begun ((arm engine .standard).calls actions) = [(0, locked), (1, pong)] ∧
      s.Failed 0 locked ∧ s.tasks[1]? = some (.ended engine.outcome) ∧
      s.received = [⟨[0x6a, 0x02]⟩] := by
  intro engine locked pong actions s
  have hActions : ∀ action ∈ actions, action.ThroughTasks := by
    simp [actions, Action.ThroughTasks]
  have hKept : ∀ task, .cancel task ∉ actions := by simp [actions]
  have hBegun : begun ((arm engine .standard).calls actions) = [(0, locked), (1, pong)] := rfl
  obtain ⟨-, -, -, failures, last, hReads, hFailed, hLast⟩ :=
    reads_tell_everything engine .standard hActions hKept
  refine ⟨hActions, hKept, hBegun, ?_⟩
  rcases hLast with ⟨-, -, -, hReceived⟩ | ⟨task, file, rfl, hLast⟩
  · cases hReceived
  · have hSplit : [(0, locked)] ++ [(1, pong)] = failures ++ [(task, file)] :=
      hBegun.symm.trans hReads
    obtain ⟨rfl, hPong⟩ := List.append_inj' hSplit rfl
    obtain ⟨rfl, rfl⟩ := Prod.mk.inj (List.singleton_inj.1 hPong)
    refine ⟨hFailed _ List.mem_cons_self, ?_⟩
    rcases hLast with ⟨-, -, -, hReceived⟩ | ⟨bytes, hContent, -, ⟨-, hReceived, -⟩ | hEnded⟩
    · cases hReceived
    · cases hReceived
    · obtain rfl := Except.ok.inj hContent
      exact ⟨hEnded.1, hEnded.2.1⟩

end Chip8Launcher.Session
