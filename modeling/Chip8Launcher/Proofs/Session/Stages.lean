import Mathlib.Logic.ExistsUnique
import Chip8Launcher.Proofs.Session.Moves

/-!
# The stages of a session's loader

Whatever is done in a session, by hand, by tasks or while an engine has control, its loader goes
from stage to stage along the arrows of `Stage.Step`, one for each call:

* `act_path` says so for one step;
* `run_path` says so for a run, and with that for all sessions that begin with an armed loader.
-/

namespace Chip8Launcher

/-- What a use of a loader that was armed with `engine` can give at a stage, and the stage that
it leads to.  There is no arrow for a delivery that finds no engine. -/
inductive Stage.Step (engine : Engine) : Stage → Use → Stage → Prop where
  | picked (file : File) : Step engine .waiting (.picked (.picked file)) .reading
  | empty : Step engine .waiting (.picked .empty) .waiting
  | busy : Step engine .reading (.picked .busy) .reading
  | alreadyUsed : Step engine .spent (.picked .alreadyUsed) .spent
  | unexpected {stage : Stage} (hStage : stage ≠ .reading) :
      Step engine stage (.delivered .unexpected) stage
  | failed (e : ReadError) : Step engine .reading (.delivered (.failed e)) .waiting
  | released (image : Image) : Step engine .reading (.delivered (.released ⟨image, engine⟩)) .spent
  | entered {stage : Stage} (image : Image) : Step engine stage (.entered image) stage

/-- Arrows one after the other, with the calls that take them. -/
inductive Stage.Path (engine : Engine) : Stage → List Call → Stage → Prop where
  | refl (stage : Stage) : Path engine stage [] stage
  | cons {a b c : Stage} {call : Call} {calls : List Call} (hStep : Step engine a call.use b)
      (hPath : Path engine b calls c) : Path engine a (call :: calls) c

namespace Stage

variable {engine : Engine} {a b c : Stage}

theorem Path.single {call : Call} (h : Step engine a call.use b) : Path engine a [call] b :=
  .cons h (.refl b)

theorem Path.append {calls calls' : List Call} (h : Path engine a calls b)
    (h' : Path engine b calls' c) : Path engine a (calls ++ calls') c := by
  induction h with
  | refl => exact h'
  | cons hStep _ ih => exact .cons hStep (ih h')

/-- A path can be left after any of its calls. -/
theorem Path.split {calls calls' : List Call} (h : Path engine a (calls ++ calls') c) :
    ∃ b, Path engine a calls b ∧ Path engine b calls' c := by
  induction calls generalizing a with
  | nil => exact ⟨a, .refl a, h⟩
  | cons call calls ih =>
    cases h with
    | cons hStep hPath =>
      obtain ⟨b, hBefore, hLater⟩ := ih hPath
      exact ⟨b, .cons hStep hBefore, hLater⟩

theorem Step.ne_engineless {use : Use} (h : Step engine a use b) :
    use ≠ .delivered .engineless := by
  cases h <;> simp

theorem Path.ne_engineless {calls : List Call} (h : Path engine a calls b) :
    ∀ call ∈ calls, call.use ≠ .delivered .engineless := by
  induction h with
  | refl => simp
  | cons hStep _ ih => exact List.forall_mem_cons.2 ⟨hStep.ne_engineless, ih⟩

end Stage

/-! ### One use -/

theorem Loader.pick_step (engine : Engine) (stage : Stage) (files : List File) :
    ∃ stage', ((atStage engine stage).pick files).1 = atStage engine stage' ∧
      stage.Step engine (.picked ((atStage engine stage).pick files).2) stage' := by
  cases stage with
  | waiting =>
    cases files with
    | nil => exact ⟨.waiting, rfl, .empty⟩
    | cons file files => exact ⟨.reading, rfl, .picked file⟩
  | reading => exact ⟨.reading, rfl, .busy⟩
  | spent => exact ⟨.spent, rfl, .alreadyUsed⟩

theorem Loader.deliver_step (engine : Engine) (stage : Stage)
    (content : Except ReadError (List UInt8)) :
    ∃ stage', ((atStage engine stage).deliver content).1 = atStage engine stage' ∧
      stage.Step engine (.delivered ((atStage engine stage).deliver content).2) stage' := by
  cases stage with
  | waiting => exact ⟨.waiting, rfl, .unexpected (by decide)⟩
  | reading =>
    cases content with
    | error e => exact ⟨.waiting, rfl, .failed e⟩
    | ok bytes => exact ⟨.spent, rfl, .released ⟨bytes⟩⟩
  | spent => exact ⟨.spent, rfl, .unexpected (by decide)⟩

namespace Session

variable {engine : Engine} {s t : Session} {stage : Stage}

/-! ### Moves and steps -/

theorem Move.path {task : Nat} {calls : List Call} (h : Move task s calls t)
    (hLoader : s.loader = .atStage engine stage) :
    ∃ stage', t.loader = .atStage engine stage' ∧ stage.Path engine calls stage' := by
  cases h with
  | @ignore files selection hFresh hPick hNone =>
    obtain ⟨stage', hLoader', hStep⟩ := Loader.pick_step engine stage files
    rw [← hLoader, hPick] at hLoader' hStep
    exact ⟨stage', hLoader', .single hStep⟩
  | @begin files file loader hFresh hPick =>
    obtain ⟨stage', hLoader', hStep⟩ := Loader.pick_step engine stage files
    rw [← hLoader, hPick] at hLoader' hStep
    exact ⟨stage', hLoader', .single hStep⟩
  | wait hReading => exact ⟨stage, hLoader, .refl stage⟩
  | @fail file loader delivery e hReading hDeliver hError =>
    obtain ⟨stage', hLoader', hStep⟩ := Loader.deliver_step engine stage file.read
    rw [← hLoader, hDeliver] at hLoader' hStep
    exact ⟨stage', hLoader', .single hStep⟩
  | @launch file loader handoff hReading hDeliver =>
    obtain ⟨stage', hLoader', hStep⟩ := Loader.deliver_step engine stage file.read
    rw [← hLoader, hDeliver] at hLoader' hStep
    exact ⟨stage', hLoader', .cons hStep (.single (.entered handoff.image))⟩

theorem Moves.path {task : Nat} {calls : List Call} (h : Moves task s calls t)
    (hLoader : s.loader = .atStage engine stage) :
    ∃ stage', t.loader = .atStage engine stage' ∧ stage.Path engine calls stage' := by
  induction h generalizing stage with
  | refl s => exact ⟨stage, hLoader, .refl stage⟩
  | head hMove _ ih =>
    obtain ⟨stage₁, hLoader₁, hPath₁⟩ := hMove.path hLoader
    obtain ⟨stage₂, hLoader₂, hPath₂⟩ := ih hLoader₁
    exact ⟨stage₂, hLoader₂, hPath₁.append hPath₂⟩

theorem deliver_path (hLoader : s.loader = .atStage engine stage)
    (content : Except ReadError (List UInt8)) :
    ∃ stage', (s.deliver content).1.loader = .atStage engine stage' ∧
      stage.Path engine (s.deliver content).2.calls stage' := by
  obtain ⟨stage', hLoader', hStep⟩ := Loader.deliver_step engine stage content
  rw [← hLoader] at hLoader' hStep
  exact ⟨stage', hLoader', .single hStep⟩

@[simp] theorem cancel_loader (s : Session) (task : Nat) : (s.cancel task).1.loader = s.loader := by
  unfold cancel
  split <;> rfl

@[simp] theorem cancel_calls (s : Session) (task : Nat) : (s.cancel task).2.calls = [] := by
  unfold cancel
  split <;> rfl

@[simp] theorem finish_loader (s : Session) : s.finish.1.loader = s.loader := by
  unfold finish
  split
  · rfl
  · next activation running _ => cases activation.task <;> rfl

@[simp] theorem finish_calls (s : Session) : s.finish.2.calls = [] := by
  unfold finish
  split <;> rfl

/-- **Every step goes along the stages**, the calls of the step showing the way. -/
theorem act_path (hLoader : s.loader = .atStage engine stage) (action : Action) :
    ∃ stage', (s.act action).1.loader = .atStage engine stage' ∧
      stage.Path engine (s.act action).2.calls stage' := by
  cases action with
  | pick files =>
    obtain ⟨stage', hLoader', hStep⟩ := Loader.pick_step engine stage files
    rw [← hLoader] at hLoader' hStep
    exact ⟨stage', hLoader', .single hStep⟩
  | deliver content => exact deliver_path hLoader content
  | read =>
    simp only [act]
    split
    · exact ⟨stage, hLoader, .refl stage⟩
    · exact deliver_path (s := { s with picked := none }) hLoader _
  | start =>
    simp only [act, start]
    split
    · exact ⟨stage, hLoader, .refl stage⟩
    · next handoff _ => exact ⟨stage, hLoader, .single (.entered handoff.image)⟩
  | discard => exact ⟨stage, hLoader, .refl stage⟩
  | spawn files => exact ⟨stage, hLoader, .refl stage⟩
  | poll task => exact (poll_moves s task).path hLoader
  | cancel task =>
    refine ⟨stage, (cancel_loader s task).trans hLoader, ?_⟩
    exact cancel_calls s task ▸ .refl stage
  | draw fill =>
    refine ⟨stage, ?_, .refl stage⟩
    simp only [act]
    split <;> exact hLoader
  | finish =>
    refine ⟨stage, (finish_loader s).trans hLoader, ?_⟩
    exact finish_calls s ▸ .refl stage

theorem run_path (hLoader : s.loader = .atStage engine stage) (actions : List Action) :
    ∃ stage', (s.after actions).loader = .atStage engine stage' ∧
      stage.Path engine (s.calls actions) stage' := by
  induction actions generalizing s stage with
  | nil => exact ⟨stage, hLoader, .refl stage⟩
  | cons action actions ih =>
    obtain ⟨stage₁, hLoader₁, hPath₁⟩ := act_path hLoader action
    obtain ⟨stage₂, hLoader₂, hPath₂⟩ := ih hLoader₁
    exact ⟨stage₂, hLoader₂, by rw [calls_cons]; exact hPath₁.append hPath₂⟩

/-- **The loader of a session is always at exactly one of its three stages**, whatever is done by
hand, by tasks and by the engine, and so no delivery ever finds the engine gone. -/
theorem loader_always_at_one_stage (engine : Engine) (screen : Framebuffer)
    (actions : List Action) :
    (∃! stage, ((arm engine screen).after actions).loader = .atStage engine stage) ∧
      ∀ call ∈ (arm engine screen).calls actions, call.use ≠ .delivered .engineless := by
  have hArmed : (arm engine screen).loader = .atStage engine .waiting := rfl
  obtain ⟨stage, hLoader, hPath⟩ := run_path hArmed actions
  refine ⟨⟨stage, hLoader, ?_⟩, hPath.ne_engineless⟩
  intro stage' hLoader'
  exact Loader.atStage_injective engine (hLoader'.symm.trans hLoader)

/-- An engine that was started by hand uses its own loader while it has control. -/
theorem loader_always_at_one_stage_reentrant :
    let engine : Engine := ⟨some "stack overflow"⟩
    let file : File := ⟨"pong.ch8", .ok [0x6a, 0x02], 0⟩
    let actions : List Action :=
      [.pick [file], .spawn [file], .poll 0, .read, .start, .pick [file], .deliver (.ok []),
        .finish]
    let call : Call := ⟨none, .delivered .unexpected⟩
    (∃! stage, ((arm engine .standard).after actions).loader = .atStage engine stage) ∧
      call ∈ (arm engine .standard).calls actions ∧ call.use ≠ .delivered .engineless := by
  intro engine file actions call
  have hCall : call ∈ (arm engine .standard).calls actions :=
    List.mem_of_getElem? (i := 5) rfl
  obtain ⟨hStage, hCalls⟩ := loader_always_at_one_stage engine .standard actions
  exact ⟨hStage, hCall, hCalls call hCall⟩

end Session

end Chip8Launcher
