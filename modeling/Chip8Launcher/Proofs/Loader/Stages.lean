import Chip8Launcher.Loader

/-!
# The stages of a loader

A loader that was armed with an engine only ever has one of three values, its stages:

* `waiting`: armed, with no read in flight, the engine in place and the selector shown;
* `reading`: the same with a read in flight;
* `spent`: hidden once, with no read in flight and the engine gone.

`atStage` gives the value of a stage, and the lemmas below say what `pick` and `deliver` do at
each.  They are complete: no later proof opens `pick` or `deliver` at a stage again.
-/

namespace Chip8Launcher

/-- How far a loader has come in its life. -/
inductive Stage where
  | waiting
  | reading
  | spent
  deriving DecidableEq, Repr

/-- How many images a loader has released by a stage. -/
def Stage.shots : Stage → Nat
  | .spent => 1
  | _ => 0

theorem Stage.shots_le_one (stage : Stage) : stage.shots ≤ 1 := by
  cases stage <;> decide

namespace Loader

variable {ε φ : Type}

def atStage (engine : ε) : Stage → Loader ε
  | .waiting => { state := .armed, reading := false, engine := some engine, hides := 0 }
  | .reading => { state := .armed, reading := true, engine := some engine, hides := 0 }
  | .spent => { state := .hidden, reading := false, engine := none, hides := 1 }

@[simp] theorem arm_eq_atStage (engine : ε) : arm engine = atStage engine .waiting := rfl

theorem atStage_injective (engine : ε) : Function.Injective (atStage engine) := by
  intro a b h
  cases a <;> cases b <;> simp [atStage] at h ⊢

@[simp] theorem atStage_reading (engine : ε) (stage : Stage) :
    (atStage engine stage).reading = true ↔ stage = .reading := by
  cases stage <;> simp [atStage]

/-! ### Picking -/

@[simp] theorem pick_waiting (engine : ε) (file : φ) (files : List φ) :
    (atStage engine .waiting).pick (file :: files) = (atStage engine .reading, .picked file) :=
  rfl

@[simp] theorem pick_nothing (engine : ε) :
    (atStage engine .waiting).pick ([] : List φ) = (atStage engine .waiting, .empty) := rfl

@[simp] theorem pick_reading (engine : ε) (files : List φ) :
    (atStage engine .reading).pick files = (atStage engine .reading, .busy) := rfl

@[simp] theorem pick_spent (engine : ε) (files : List φ) :
    (atStage engine .spent).pick files = (atStage engine .spent, .alreadyUsed) := rfl

theorem pick_of_file?_eq_none {loader : Loader ε} {files : List φ}
    (h : (loader.pick files).2.file? = none) : (loader.pick files).1 = loader := by
  unfold pick at *
  split at h
  · simp [Selection.file?] at h
  · rfl

/-- Only the first file of a selection is ever picked. -/
theorem eq_cons_of_pick {loader next : Loader ε} {files : List φ} {file : φ}
    (h : loader.pick files = (next, .picked file)) : ∃ rest, files = file :: rest := by
  unfold pick consider at h
  split at h
  next picked hPicked =>
    obtain rfl := Selection.picked.inj (Prod.mk.inj h).2
    split at hPicked
    · cases hPicked
    · split at hPicked
      · cases hPicked
      · cases files with
        | nil => cases hPicked
        | cons first rest => exact ⟨rest, by rw [Selection.picked.inj hPicked]⟩
  next selection hNot => exact absurd (Prod.mk.inj h).2 (hNot file)

/-! ### Delivering -/

@[simp] theorem deliver_waiting (engine : ε) (content : Except ReadError (List UInt8)) :
    (atStage engine .waiting).deliver content = (atStage engine .waiting, .unexpected) := rfl

@[simp] theorem deliver_reading_error (engine : ε) (e : ReadError) :
    (atStage engine .reading).deliver (.error e) = (atStage engine .waiting, .failed e) := rfl

@[simp] theorem deliver_reading_ok (engine : ε) (bytes : List UInt8) :
    (atStage engine .reading).deliver (.ok bytes) =
      (atStage engine .spent, .released ⟨⟨bytes⟩, engine⟩) := rfl

@[simp] theorem deliver_spent (engine : ε) (content : Except ReadError (List UInt8)) :
    (atStage engine .spent).deliver content = (atStage engine .spent, .unexpected) := rfl

end Loader

theorem Selection.eq_picked_of_file? {φ : Type} {selection : Selection φ} {file : φ}
    (h : selection.file? = some file) : selection = .picked file := by
  cases selection <;> simp_all [Selection.file?]

theorem Delivery.eq_released_of_result {ε : Type} {delivery : Delivery ε} {handoff : Handoff ε}
    (h : delivery.result = .ok handoff) : delivery = .released handoff := by
  cases delivery <;> simp_all [Delivery.result]

end Chip8Launcher
