import Chip8Launcher.Proofs.Session.Sound

/-!
# One shot

A loader releases one image in its life, and with that it is spent: nothing changes it any more,
every selection is ignored, every delivery is refused, a task that is polled for the first time
ends at once, and a task whose read is still pending ends when its read does, with
`noReadInFlight`.

The last of these is a run lemma, `pending_after`, on top of what one step does to a task that it
does not name, `act_other`.
-/

namespace Chip8Launcher

/-- The step polls the task. -/
def Action.polls (task : Nat) : Action → Bool
  | .poll other => other == task
  | _ => false

theorem Action.polls_iff {action : Action} {task : Nat} :
    action.polls task = true ↔ action = .poll task := by
  cases action <;> simp [polls]

/-- A task of this phase is never heard of again. -/
def Phase.IsOver : Phase → Prop
  | .ended _ | .cancelled _ => True
  | _ => False

namespace Session

variable {engine : Engine} {calls new : List Call} {s t : Session} {task : Nat}

/-! ### Tasks that a step does not name -/

theorem Move.other {other : Nat} (h : Move task s new t) (hNe : other ≠ task) :
    t.tasks[other]? = s.tasks[other]? := by
  cases h <;> exact getElem?_setTask_ne hNe _

theorem Moves.other {other : Nat} (h : Moves task s new t) (hNe : other ≠ task) :
    t.tasks[other]? = s.tasks[other]? := by
  induction h with
  | refl s => rfl
  | head hMove _ ih => exact ih.trans (hMove.other hNe)

theorem cancel_other {other : Nat} (s : Session) (hNe : other ≠ task) :
    (s.cancel task).1.tasks[other]? = s.tasks[other]? := by
  rw [cancel]
  split
  · exact getElem?_setTask_ne hNe _
  · exact getElem?_setTask_ne hNe _
  · rfl

/-- Only a launching task hears of the end of its engine's visit. -/
theorem Sound.finish_other (h : Sound engine calls s) {phase : Phase}
    (hTask : s.tasks[task]? = some phase) (hPhase : phase ≠ .launching) :
    s.finish.1.tasks[task]? = some phase := by
  rw [Session.finish]
  split
  · exact hTask
  next activation running hRunning =>
    cases hOther : activation.task with
    | none => exact hTask
    | some other =>
      have hLaunching := h.launching activation (by rw [hRunning]; exact List.mem_cons_self) other
        hOther
      have hNe : task ≠ other := by
        rintro rfl
        exact hPhase (Option.some.inj (hTask.symm.trans hLaunching))
      exact (getElem?_setTask_ne hNe _).trans hTask

theorem Sound.act_other (h : Sound engine calls s) {phase : Phase} {action : Action}
    (hTask : s.tasks[task]? = some phase) (hPhase : phase ≠ .launching)
    (hPolls : action ≠ .poll task) (hCancels : action ≠ .cancel task) :
    (s.act action).1.tasks[task]? = some phase := by
  cases action with
  | read =>
    simp only [Session.act]
    split <;> exact hTask
  | start =>
    simp only [Session.act, Session.start]
    split <;> exact hTask
  | spawn files => exact getElem?_append_of_eq_some hTask _
  | poll other =>
    have hNe : task ≠ other := by
      rintro rfl
      exact hPolls rfl
    exact ((poll_moves s other).other hNe).trans hTask
  | cancel other =>
    have hNe : task ≠ other := by
      rintro rfl
      exact hCancels rfl
    exact (cancel_other s hNe).trans hTask
  | draw fill =>
    simp only [Session.act]
    split <;> exact hTask
  | finish => exact h.finish_other hTask hPhase
  | _ => exact hTask

/-! ### Tasks that are over -/

theorem poll_over {phase : Phase} (hTask : s.tasks[task]? = some phase) (hOver : phase.IsOver) :
    s.poll task = (s, ⟨.noTask, [], []⟩) := by
  cases phase with
  | ended | cancelled => simp only [poll, hTask]
  | _ => cases hOver

theorem cancel_over {phase : Phase} (hTask : s.tasks[task]? = some phase) (hOver : phase.IsOver) :
    s.cancel task = (s, ⟨.cancelled false, [], []⟩) := by
  cases phase with
  | ended | cancelled => simp only [cancel, hTask]
  | _ => cases hOver

theorem Sound.act_over (h : Sound engine calls s) {phase : Phase}
    (hTask : s.tasks[task]? = some phase) (hOver : phase.IsOver) (action : Action) :
    (s.act action).1.tasks[task]? = some phase := by
  by_cases hPolls : action = .poll task
  · subst hPolls
    rw [Session.act, poll_over hTask hOver, hTask]
  by_cases hCancels : action = .cancel task
  · subst hCancels
    rw [Session.act, cancel_over hTask hOver, hTask]
  have hNot : phase ≠ .launching := by
    rintro rfl
    exact hOver
  exact h.act_other hTask hNot hPolls hCancels

theorem Sound.after_over (h : Sound engine calls s) {phase : Phase}
    (hTask : s.tasks[task]? = some phase) (hOver : phase.IsOver) (actions : List Action) :
    (s.after actions).tasks[task]? = some phase := by
  induction actions generalizing calls s with
  | nil => exact hTask
  | cons action actions ih => exact ih (h.act action) (h.act_over hTask hOver action)

/-! ### A spent loader -/

theorem act_spent (hLoader : s.loader = .atStage engine .spent) (action : Action) :
    (s.act action).1.loader = .atStage engine .spent := by
  obtain ⟨stage, hStage, hPath⟩ := act_path hLoader action
  rwa [hPath.eq_spent] at hStage

theorem after_spent (hLoader : s.loader = .atStage engine .spent) (actions : List Action) :
    (s.after actions).loader = .atStage engine .spent := by
  obtain ⟨stage, hStage, hPath⟩ := run_path hLoader actions
  rwa [hPath.eq_spent] at hStage

theorem poll_fresh_spent (hLoader : s.loader = .atStage engine .spent) {files : List File}
    (hTask : s.tasks[task]? = some (.fresh files)) :
    s.poll task = (s.setTask task (.ended (.ok ())),
      ⟨.ended (.ok ()), [Selection.entry (φ := File) .alreadyUsed],
        [⟨some task, .picked .alreadyUsed⟩]⟩) := by
  simp only [poll, hTask, begin, hLoader, Loader.pick_spent, Selection.file?]
  rw [← hLoader]

theorem poll_last_spent (hLoader : s.loader = .atStage engine .spent) {file : File}
    (hTask : s.tasks[task]? = some (.reading file 0)) :
    s.poll task = (s.setTask task (.ended (.error .noReadInFlight)),
      ⟨.ended (.error .noReadInFlight), [], [⟨some task, .delivered .unexpected⟩]⟩) := by
  simp only [poll, hTask, advance, complete, hLoader, Loader.deliver_spent, Delivery.result,
    Delivery.entries]
  rw [← hLoader]

theorem poll_wait {file : File} {left : Nat}
    (hTask : s.tasks[task]? = some (.reading file (left + 1))) :
    s.poll task = (s.setTask task (.reading file left), ⟨.pending task, [], []⟩) := by
  simp only [poll, hTask, advance]

/-- **A pending read is lost on a spent loader.**  Unless it is cancelled, its task goes on for
as many polls as the read is pending and then ends with `noReadInFlight`, whatever happens in
between. -/
theorem Sound.pending_after (h : Sound engine calls s)
    (hLoader : s.loader = .atStage engine .spent) {file : File} {left : Nat}
    (hTask : s.tasks[task]? = some (.reading file left)) {actions : List Action}
    (hKept : .cancel task ∉ actions) :
    (s.after actions).tasks[task]? = some
      (if actions.countP (·.polls task) ≤ left
        then .reading file (left - actions.countP (·.polls task))
        else .ended (.error .noReadInFlight)) := by
  -- on the steps to come: the count of polls and what is left of the read fall together
  induction actions generalizing calls s left with
  | nil => simpa using hTask
  | cons action actions ih =>
    have hHere : action ≠ .cancel task := (List.ne_of_not_mem_cons hKept).symm
    have hLater : .cancel task ∉ actions := List.not_mem_of_not_mem_cons hKept
    have hLoader' := act_spent hLoader action
    have hSound := h.act action
    rw [after_cons, List.countP_cons]
    by_cases hPolls : action = .poll task
    · subst hPolls
      have hCounts : Action.polls task (.poll task) = true := Action.polls_iff.2 rfl
      cases left with
      | zero =>
        have hEnded :
            (s.act (.poll task)).1.tasks[task]? = some (.ended (.error .noReadInFlight)) := by
          rw [Session.act, poll_last_spent hLoader hTask]
          exact getElem?_setTask_self hTask _
        rw [hSound.after_over hEnded trivial, hCounts]
        simp
      | succ left =>
        have hPending : (s.act (.poll task)).1.tasks[task]? = some (.reading file left) := by
          rw [Session.act, poll_wait hTask]
          exact getElem?_setTask_self hTask _
        rw [ih hSound hLoader' hPending hLater, hCounts]
        simp
    · have hOther : action.polls task = false :=
        Bool.eq_false_iff.2 (mt Action.polls_iff.1 hPolls)
      have hStays := h.act_other hTask (by simp) hPolls hHere
      rw [ih hSound hLoader' hStays hLater, hOther]
      simp

/-- **A loader fires once**, whoever uses it and whatever its engine does meanwhile.  In a whole
session at most one call releases an image and at most one gives control to the engine.  After
the first release the loader never changes again: selections are ignored, deliveries refused,
and tasks end at their first poll, or with `noReadInFlight` when their read was still pending. -/
theorem one_shot (engine : Engine) (screen : Framebuffer) (before later : List Action) :
    let start := arm engine screen
    let s := start.after before
    let t := s.after later
    (start.calls (before ++ later)).countP Call.releases ≤ 1 ∧
      (start.calls (before ++ later)).countP Call.enters ≤ 1 ∧
      ((∃ call ∈ start.calls before, call.releases) →
        t.loader = s.loader ∧
        (∀ files : List File, t.loader.pick files = (t.loader, .alreadyUsed)) ∧
        (∀ content, t.loader.deliver content = (t.loader, .unexpected)) ∧
        (∀ task files, t.tasks[task]? = some (.fresh files) →
          t.poll task = (t.setTask task (.ended (.ok ())),
            ⟨.ended (.ok ()), [Selection.entry (φ := File) .alreadyUsed],
              [⟨some task, .picked .alreadyUsed⟩]⟩)) ∧
        (∀ task file, t.tasks[task]? = some (.reading file 0) →
          t.poll task = (t.setTask task (.ended (.error .noReadInFlight)),
            ⟨.ended (.error .noReadInFlight), [], [⟨some task, .delivered .unexpected⟩]⟩)) ∧
        ∀ task file left, s.tasks[task]? = some (.reading file left) →
          .cancel task ∉ later →
          t.tasks[task]? = some
            (if later.countP (·.polls task) ≤ left
              then .reading file (left - later.countP (·.polls task))
              else .ended (.error .noReadInFlight))) := by
  intro start s t
  have hBefore : Sound engine (start.calls before) s := .after_arm engine screen before
  have hWhole := Sound.after_arm engine screen (before ++ later)
  refine ⟨hWhole.releases_le_one, hWhole.enters_le_one, ?_⟩
  intro hReleased
  have hSpent : s.loader = .atStage engine .spent := hBefore.spent_of_releases hReleased
  have hStill : t.loader = .atStage engine .spent := after_spent hSpent later
  refine ⟨hStill.trans hSpent.symm, ?_, ?_, ?_, ?_, ?_⟩
  · intro files
    rw [hStill, Loader.pick_spent]
  · intro content
    rw [hStill, Loader.deliver_spent]
  · intro task files hTask
    exact poll_fresh_spent hStill hTask
  · intro task file hTask
    exact poll_last_spent hStill hTask
  · intro task file left hTask hKept
    exact hBefore.pending_after hSpent hTask hKept

/-- A delivery made by hand takes the read of a task away from it, and the image is given up
before it is started.  The task that lost its read ends with `noReadInFlight`. -/
theorem one_shot_stolen_read :
    let engine : Engine := ⟨some "stack overflow"⟩
    let slow : File := ⟨"slow.ch8", .ok [0x12, 0x00], 1⟩
    let before : List Action := [.spawn [slow], .poll 0, .deliver (.ok [0xff]), .discard]
    let later : List Action := [.spawn [slow], .poll 0, .pick [slow], .poll 1, .poll 0]
    let s := (arm engine .standard).after before
    (∃ call ∈ (arm engine .standard).calls before, call.releases) ∧
      s.tasks[0]? = some (.reading slow 0) ∧
      .cancel 0 ∉ later ∧
      (s.after later).loader = s.loader ∧
      (s.after later).tasks[0]? = some (.ended (.error .noReadInFlight)) := by
  intro engine slow before later s
  have hReleased : ∃ call ∈ (arm engine .standard).calls before, call.releases :=
    List.any_eq_true.1 rfl
  have hTask : s.tasks[0]? = some (.reading slow 0) := rfl
  have hKept : .cancel 0 ∉ later := by simp [later]
  obtain ⟨hLoader, -, -, -, -, hPending⟩ :=
    (one_shot engine .standard before later).2.2 hReleased
  exact ⟨hReleased, hTask, hKept, hLoader, hPending 0 slow 0 hTask hKept⟩

end Session

end Chip8Launcher
