import Chip8Launcher.Proofs.Session.Stages

/-!
# What holds in every session

`Sound calls s` is what is known of a session `s` that began with an armed loader and has made
`calls` since, whoever made them.  Besides the stage of the loader it says that engines are
entered only with what was released for them, each released image at most once, and that a task
whose engine has control is launching.

* `Sound.act` and `Sound.run`: every step keeps it, and so does every run.
* `Sound.releases_le_one`, `Sound.enters_le_one`: a loader fires once.
-/

namespace Chip8Launcher

/-- The call released an image together with its engine. -/
def Call.releases (call : Call) : Bool :=
  match call.use with
  | .delivered (.released _) => true
  | _ => false

/-- The call gave control to an engine. -/
def Call.enters (call : Call) : Bool :=
  match call.use with
  | .entered _ => true
  | _ => false

theorem Stage.Path.countP_releases {engine : Engine} {a b : Stage} {calls : List Call}
    (h : Path engine a calls b) : calls.countP Call.releases + a.shots = b.shots := by
  induction h with
  | refl => simp
  | @cons a b c call calls hStep _ ih =>
    obtain ⟨task, use⟩ := call
    rw [List.countP_cons, ← ih]
    cases hStep <;> simp [Call.releases, Stage.shots]

theorem Stage.Path.eq_spent {engine : Engine} {b : Stage} {calls : List Call}
    (h : Path engine .spent calls b) : b = .spent := by
  have hShots := h.countP_releases
  have hLe := b.shots_le_one
  cases b with
  | spent => rfl
  | _ => simp [Stage.shots] at hShots

namespace Session

structure Sound (engine : Engine) (calls : List Call) (s : Session) : Prop where
  stage : ∃ stage, s.loader = .atStage engine stage ∧ Stage.Path engine .waiting calls stage
  /-- What was released was either entered or is still kept, unless it was given up. -/
  entered : calls.countP Call.enters + s.handoff.toList.length ≤ calls.countP Call.releases
  running : s.running.length ≤ calls.countP Call.enters
  launching : ∀ activation ∈ s.running, ∀ task, activation.task = some task →
    s.tasks[task]? = some .launching

namespace Sound

variable {engine : Engine} {calls new : List Call} {s t : Session}

theorem arm (engine : Engine) (screen : Framebuffer) :
    Sound engine [] (arm engine screen) where
  stage := ⟨.waiting, rfl, .refl _⟩
  entered := Nat.le_refl 0
  running := Nat.le_refl 0
  launching := by intro activation h; cases h

theorem releases_le_one (h : Sound engine calls s) : calls.countP Call.releases ≤ 1 := by
  obtain ⟨stage, -, hPath⟩ := h.stage
  have hShots := hPath.countP_releases
  have hLe := stage.shots_le_one
  omega

theorem enters_le_one (h : Sound engine calls s) : calls.countP Call.enters ≤ 1 := by
  have hEntered := h.entered
  have hOnce := h.releases_le_one
  omega

theorem running_length_le_one (h : Sound engine calls s) : s.running.length ≤ 1 :=
  Nat.le_trans h.running h.enters_le_one

/-- A loader is spent as soon as it has released an image. -/
theorem spent_of_releases (h : Sound engine calls s) (hReleased : ∃ call ∈ calls, call.releases) :
    s.loader = .atStage engine .spent := by
  obtain ⟨stage, hLoader, hPath⟩ := h.stage
  have hShots := hPath.countP_releases
  have hPos : 0 < calls.countP Call.releases := List.countP_pos_iff.2 hReleased
  cases stage with
  | spent => exact hLoader
  | _ => simp only [Stage.shots] at hShots; omega

/-! ### Steps -/

theorem stage_of_path (h : Sound engine calls s)
    (hPath : ∀ stage, s.loader = .atStage engine stage →
      ∃ stage', t.loader = .atStage engine stage' ∧ Stage.Path engine stage new stage') :
    ∃ stage', t.loader = .atStage engine stage' ∧
      Stage.Path engine .waiting (calls ++ new) stage' := by
  obtain ⟨stage, hLoader, hBefore⟩ := h.stage
  obtain ⟨stage', hLoader', hNew⟩ := hPath stage hLoader
  exact ⟨stage', hLoader', hBefore.append hNew⟩

/-- A task that is not launching can be given any phase. -/
theorem launching_setTask (h : Sound engine calls s) {task : Nat} {old : Phase}
    (hOld : s.tasks[task]? = some old) (hPhase : old ≠ .launching) (phase : Phase) :
    ∀ activation ∈ s.running, ∀ other, activation.task = some other →
      (s.setTask task phase).tasks[other]? = some .launching := by
  intro activation hActivation other hOther
  have hLaunching := h.launching activation hActivation other hOther
  have hNe : other ≠ task := by
    rintro rfl
    exact hPhase (Option.some.inj (hOld.symm.trans hLaunching))
  rw [getElem?_setTask_ne hNe, hLaunching]

theorem move (h : Sound engine calls s) {task : Nat} (hMove : Move task s new t) :
    Sound engine (calls ++ new) t := by
  have hStage := h.stage_of_path fun stage hLoader => hMove.path hLoader
  have hEntered := h.entered
  have hRunning := h.running
  cases hMove with
  | ignore hFresh _ _ =>
    refine ⟨hStage, ?_, ?_, h.launching_setTask hFresh (by simp) _⟩
    · simpa [Call.enters, Call.releases] using hEntered
    · simpa [Call.enters] using hRunning
  | begin hFresh _ =>
    refine ⟨hStage, ?_, ?_, h.launching_setTask hFresh (by simp) _⟩
    · simpa [Call.enters, Call.releases] using hEntered
    · simpa [Call.enters] using hRunning
  | wait hReading =>
    rw [List.append_nil] at hStage ⊢
    exact ⟨hStage, hEntered, hRunning, h.launching_setTask hReading (by simp) _⟩
  | @fail file loader delivery e hReading _ hError =>
    refine ⟨hStage, ?_, ?_, h.launching_setTask hReading (by simp) _⟩
    · simp [Call.enters]
      omega
    · simpa [Call.enters] using hRunning
  | @launch file loader handoff hReading _ =>
    refine ⟨hStage, ?_, ?_, ?_⟩
    · simp [List.countP_cons, Call.enters, Call.releases]
      omega
    · simp [List.countP_cons, Call.enters]
      omega
    · intro activation hActivation other hOther
      rcases List.mem_cons.1 hActivation with rfl | hActivation
      · obtain rfl := Option.some.inj hOther
        exact getElem?_setTask_self (s := { s with loader := loader }) hReading _
      · exact h.launching_setTask hReading (by simp) _ activation hActivation other hOther

theorem moves (h : Sound engine calls s) {task : Nat} (hMoves : Moves task s new t) :
    Sound engine (calls ++ new) t := by
  induction hMoves generalizing calls with
  | refl s => rwa [List.append_nil]
  | head hMove _ ih =>
    rw [← List.append_assoc]
    exact ih (h.move hMove)

theorem pick (h : Sound engine calls s) (files : List File) :
    Sound engine (calls ++ (s.pick files).2.calls) (s.pick files).1 := by
  refine ⟨h.stage_of_path fun stage hLoader => act_path hLoader (.pick files), ?_, ?_,
    h.launching⟩
  · simpa [Session.pick, Call.enters, Call.releases] using h.entered
  · simpa [Session.pick, Call.enters] using h.running

theorem deliver (h : Sound engine calls s) (content : Except ReadError (List UInt8)) :
    Sound engine (calls ++ (s.deliver content).2.calls) (s.deliver content).1 := by
  refine ⟨h.stage_of_path fun stage hLoader => deliver_path hLoader content, ?_, ?_,
    h.launching⟩
  · have hEntered := h.entered
    rcases hDeliver : s.loader.deliver content with ⟨loader, delivery⟩
    cases delivery <;> simp [Session.deliver, hDeliver, Call.enters, Call.releases] <;> omega
  · simpa [Session.deliver, Call.enters] using h.running

theorem start (h : Sound engine calls s) :
    Sound engine (calls ++ s.start.2.calls) s.start.1 := by
  have hStage := h.stage_of_path fun stage hLoader => act_path hLoader .start
  have hEntered := h.entered
  have hRunning := h.running
  cases hHandoff : s.handoff with
  | none =>
    simp only [act, Session.start, hHandoff, List.append_nil] at hStage ⊢
    exact ⟨hStage, hEntered, hRunning, h.launching⟩
  | some handoff =>
    simp only [act, Session.start, hHandoff] at hStage ⊢
    refine ⟨hStage, ?_, ?_, ?_⟩
    · simp [Call.enters, Call.releases, hHandoff] at hEntered ⊢
      omega
    · simp [Call.enters]
      omega
    · intro activation hActivation task hTask
      rcases List.mem_cons.1 hActivation with rfl | hActivation
      · cases hTask
      · exact h.launching activation hActivation task hTask

theorem discard (h : Sound engine calls s) : Sound engine calls { s with handoff := none } :=
  ⟨h.stage, by have := h.entered; simp; omega, h.running, h.launching⟩

theorem spawn (h : Sound engine calls s) (files : List File) :
    Sound engine calls { s with tasks := s.tasks ++ [.fresh files] } := by
  refine ⟨h.stage, h.entered, h.running, ?_⟩
  intro activation hActivation task hTask
  exact getElem?_append_of_eq_some (h.launching activation hActivation task hTask) _

theorem cancel (h : Sound engine calls s) (task : Nat) :
    Sound engine calls (s.cancel task).1 := by
  rw [Session.cancel]
  split
  next hFresh => exact ⟨h.stage, h.entered, h.running, h.launching_setTask hFresh (by simp) _⟩
  next hReading =>
    exact ⟨h.stage, h.entered, h.running, h.launching_setTask hReading (by simp) _⟩
  next => exact h

/-- With its one engine returned no engine has control any more. -/
theorem finish_running (h : Sound engine calls s) : s.finish.1.running = [] := by
  have hLe := h.running_length_le_one
  rw [Session.finish]
  split
  · assumption
  next activation running hRunning =>
    rw [hRunning, List.length_cons] at hLe
    have hNil : running = [] := List.length_eq_zero_iff.1 (by omega)
    cases activation.task <;> exact hNil

@[simp] theorem finish_handoff (s : Session) : s.finish.1.handoff = s.handoff := by
  rw [Session.finish]
  split
  · rfl
  next activation running _ => cases activation.task <;> rfl

theorem finish (h : Sound engine calls s) : Sound engine calls s.finish.1 where
  stage := (finish_loader s).symm ▸ h.stage
  entered := (finish_handoff s).symm ▸ h.entered
  running := by rw [h.finish_running]; exact Nat.zero_le _
  launching := by rw [h.finish_running]; intro activation hActivation; cases hActivation

theorem act (h : Sound engine calls s) (action : Action) :
    Sound engine (calls ++ (s.act action).2.calls) (s.act action).1 := by
  cases action with
  | pick files => exact h.pick files
  | deliver content => exact h.deliver content
  | read =>
    simp only [Session.act]
    split
    · rwa [List.append_nil]
    · exact deliver (s := { s with picked := none })
        ⟨h.stage, h.entered, h.running, h.launching⟩ _
  | start => exact h.start
  | discard => rw [Session.act, List.append_nil]; exact h.discard
  | spawn files => rw [Session.act, List.append_nil]; exact h.spawn files
  | poll task => exact h.moves (poll_moves s task)
  | cancel task => rw [Session.act, cancel_calls, List.append_nil]; exact h.cancel task
  | draw fill =>
    rw [Session.act, List.append_nil]
    split
    · exact h
    · exact ⟨h.stage, h.entered, h.running, h.launching⟩
  | finish => rw [Session.act, finish_calls, List.append_nil]; exact h.finish

theorem run (h : Sound engine calls s) (actions : List Action) :
    Sound engine (calls ++ s.calls actions) (s.after actions) := by
  induction actions generalizing calls s with
  | nil => rwa [calls_nil, List.append_nil]
  | cons action actions ih =>
    rw [calls_cons, ← List.append_assoc]
    exact ih (h.act action)

theorem after_arm (engine : Engine) (screen : Framebuffer) (actions : List Action) :
    Sound engine ((Session.arm engine screen).calls actions)
      ((Session.arm engine screen).after actions) :=
  (arm engine screen).run actions

end Sound

end Session

end Chip8Launcher
