import Chip8Launcher.Proofs.Session.Stages

/-!
# The balance of reads

A read begins when a selection picks a file, and it is completed when a delivery is accepted.
Nobody has to complete his own read: a delivery made by hand may complete the read of a task, and a
task one that was begun by hand.  All the same the two kinds of call take turns, and the loader's
flag is what is left between them.

`Stage.Path.balance` counts along the stages of a loader, one arrow at a time.
-/

namespace Chip8Launcher

/-- The call picked a file, and with that a read has begun. -/
def Call.begins (call : Call) : Bool :=
  match call.use with
  | .picked (.picked _) => true
  | _ => false

/-- The call delivered, and was not told that no read is in flight. -/
def Call.completes (call : Call) : Bool :=
  match call.use with
  | .delivered delivery =>
    match delivery.result with
    | .error .noReadInFlight => false
    | _ => true
  | _ => false

namespace Stage

/-- How many reads are in flight at a stage. -/
def pending : Stage → Nat
  | .reading => 1
  | _ => 0

theorem pending_eq (engine : Engine) (stage : Stage) :
    stage.pending = if (Loader.atStage engine stage).reading then 1 else 0 := by
  cases stage <;> rfl

variable {engine : Engine} {a b : Stage}

theorem Step.balance {call : Call} (h : Step engine a call.use b) :
    [call].countP Call.begins + a.pending = [call].countP Call.completes + b.pending := by
  obtain ⟨task, use⟩ := call
  cases h <;> rfl

/-- **What begins is completed or in flight**: the two counts differ by the flags at the ends of
the path. -/
theorem Path.balance {calls : List Call} (h : Path engine a calls b) :
    calls.countP Call.begins + a.pending = calls.countP Call.completes + b.pending := by
  induction h with
  | refl => rfl
  | @cons a b c call calls hStep _ ih =>
    have hBalance := hStep.balance
    rw [← List.singleton_append, List.countP_append, List.countP_append]
    omega

/-- A read begins only at a stage at which none is in flight. -/
theorem Step.pending_of_begins {call : Call} (h : Step engine a call.use b)
    (hBegins : call.begins = true) : a.pending = 0 := by
  obtain ⟨task, use⟩ := call
  cases h with
  | picked => rfl
  | _ => cases hBegins

end Stage

namespace Session

/-- **The reads that have begun are those that were completed and the one in flight**, whoever has
begun and completed them, by hand or through tasks, with cancellations and failures in between.  So
completions never outnumber the reads begun, and each read begins when all before it are
completed. -/
theorem begun_eq_completed_add_pending (engine : Engine) (screen : Framebuffer)
    (actions : List Action) :
    let s := (arm engine screen).after actions
    let calls := (arm engine screen).calls actions
    calls.countP Call.begins =
        calls.countP Call.completes + (if s.loader.reading then 1 else 0) ∧
      (∀ before later, calls = before ++ later →
        before.countP Call.completes ≤ before.countP Call.begins) ∧
      ∀ before call later, calls = before ++ call :: later → call.begins = true →
        before.countP Call.begins = before.countP Call.completes := by
  intro s calls
  obtain ⟨stage, hLoader, hPath⟩ : ∃ stage, s.loader = .atStage engine stage ∧
      Stage.Path engine .waiting calls stage := run_path rfl actions
  refine ⟨?_, ?_, ?_⟩
  · rw [hLoader, ← Stage.pending_eq]
    exact hPath.balance
  · intro before later hSplit
    obtain ⟨between, hBefore, -⟩ := (hSplit ▸ hPath).split
    have hBalance := hBefore.balance
    simp only [Stage.pending] at hBalance
    omega
  · intro before call later hSplit hBegins
    obtain ⟨between, hBefore, hLater⟩ := (hSplit ▸ hPath).split
    cases hLater with
    | cons hStep _ =>
      have hBalance := hBefore.balance
      rwa [hStep.pending_of_begins hBegins] at hBalance

end Session

end Chip8Launcher
