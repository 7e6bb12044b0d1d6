import Chip8Launcher.Proofs.Loader.Stages
import Chip8Launcher.Session.Basic

/-!
# Runs and moves

`after` and `calls` are the two halves of a run that the theorems speak of: the session it ends
in, and the uses it made of the loader and of engines, in order.

A poll does up to two things to its task, and a `Move` is one of them.  `poll_moves` says that
every poll is made of moves, with the calls and the session it gives; all that is known of polls
further on comes from the cases of `Move`.
-/

namespace Chip8Launcher.Session

/-! ### Runs -/

/-- The session that a sequence of steps leads to. -/
def after (s : Session) (actions : List Action) : Session := (s.run actions).1

/-- The calls made in a sequence of steps. -/
def calls (s : Session) (actions : List Action) : List Call :=
  (s.run actions).2.flatMap (·.calls)

@[simp] theorem after_nil (s : Session) : s.after [] = s := rfl

@[simp] theorem after_cons (s : Session) (action : Action) (actions : List Action) :
    s.after (action :: actions) = (s.act action).1.after actions := rfl

@[simp] theorem calls_nil (s : Session) : s.calls [] = [] := rfl

@[simp] theorem calls_cons (s : Session) (action : Action) (actions : List Action) :
    s.calls (action :: actions) =
      (s.act action).2.calls ++ (s.act action).1.calls actions := by
  rw [calls, run, List.flatMap_cons]
  rfl

theorem after_append (s : Session) (before later : List Action) :
    s.after (before ++ later) = (s.after before).after later := by
  induction before generalizing s with
  | nil => rfl
  | cons action before ih => exact ih (s.act action).1

theorem calls_append (s : Session) (before later : List Action) :
    s.calls (before ++ later) = s.calls before ++ (s.after before).calls later := by
  induction before generalizing s with
  | nil => rfl
  | cons action before ih => simp [ih]

/-! ### What touches what -/

@[simp] theorem setTask_loader (s : Session) (task : Nat) (phase : Phase) :
    (s.setTask task phase).loader = s.loader := rfl

@[simp] theorem setTask_running (s : Session) (task : Nat) (phase : Phase) :
    (s.setTask task phase).running = s.running := rfl

@[simp] theorem setTask_received (s : Session) (task : Nat) (phase : Phase) :
    (s.setTask task phase).received = s.received := rfl

@[simp] theorem setTask_handoff (s : Session) (task : Nat) (phase : Phase) :
    (s.setTask task phase).handoff = s.handoff := rfl

@[simp] theorem setTask_length (s : Session) (task : Nat) (phase : Phase) :
    (s.setTask task phase).tasks.length = s.tasks.length := List.length_set

theorem setTask_setTask (s : Session) (task : Nat) (phase phase' : Phase) :
    (s.setTask task phase).setTask task phase' = s.setTask task phase' := by
  simp only [setTask, List.set_set]

theorem getElem?_setTask_self {s : Session} {task : Nat} {old : Phase}
    (h : s.tasks[task]? = some old) (phase : Phase) :
    (s.setTask task phase).tasks[task]? = some phase :=
  List.getElem?_set_self (List.getElem?_eq_some_iff.1 h).1

theorem getElem?_setTask_ne {s : Session} {task other : Nat} (h : other ≠ task)
    (phase : Phase) : (s.setTask task phase).tasks[other]? = s.tasks[other]? :=
  List.getElem?_set_ne h.symm

/-- What is there already keeps its place when a list grows. -/
theorem getElem?_append_of_eq_some {α : Type} {l : List α} {i : Nat} {a : α} (h : l[i]? = some a)
    (new : List α) : (l ++ new)[i]? = some a := by
  rw [List.getElem?_append_left (List.getElem?_eq_some_iff.1 h).1, h]

/-- After a task was created every phase is an old one or that of the new task. -/
theorem getElem?_spawn {s : Session} {files : List File} {task : Nat} {phase : Phase}
    (h : (s.tasks ++ [.fresh files])[task]? = some phase) :
    s.tasks[task]? = some phase ∨ task = s.tasks.length ∧ phase = .fresh files := by
  rcases Nat.lt_trichotomy task s.tasks.length with hLt | rfl | hGt
  · exact .inl ((List.getElem?_append_left hLt).symm.trans h)
  · rw [List.getElem?_concat_length] at h
    exact .inr ⟨rfl, (Option.some.inj h).symm⟩
  · have hLt := (List.getElem?_eq_some_iff.1 h).1
    simp only [List.length_append, List.length_singleton] at hLt
    omega

@[simp] theorem enter_loader (s : Session) (task : Option Nat) (handoff : Handoff Engine) :
    (s.enter task handoff).loader = s.loader := rfl

@[simp] theorem enter_tasks (s : Session) (task : Option Nat) (handoff : Handoff Engine) :
    (s.enter task handoff).tasks = s.tasks := rfl

@[simp] theorem enter_handoff (s : Session) (task : Option Nat) (handoff : Handoff Engine) :
    (s.enter task handoff).handoff = s.handoff := rfl

@[simp] theorem enter_received (s : Session) (task : Option Nat) (handoff : Handoff Engine) :
    (s.enter task handoff).received = s.received := rfl

@[simp] theorem enter_running (s : Session) (task : Option Nat) (handoff : Handoff Engine) :
    (s.enter task handoff).running = ⟨task, handoff⟩ :: s.running := rfl

/-! ### Moves -/

/-- One thing that a poll does to its task, with the calls it makes. -/
inductive Move (task : Nat) : Session → List Call → Session → Prop where
  /-- Nothing is picked, and with that the task has ended. -/
  | ignore {s : Session} {files : List File} {selection : Selection File}
      (hFresh : s.tasks[task]? = some (.fresh files))
      (hPick : s.loader.pick files = (s.loader, selection)) (hNone : selection.file? = none) :
      Move task s [⟨some task, .picked selection⟩] (s.setTask task (.ended (.ok ())))
  | begin {s : Session} {files : List File} {file : File} {loader : Loader Engine}
      (hFresh : s.tasks[task]? = some (.fresh files))
      (hPick : s.loader.pick files = (loader, .picked file)) :
      Move task s [⟨some task, .picked (.picked file)⟩]
        ({ s with loader := loader }.setTask task (.reading file file.delay))
  | wait {s : Session} {file : File} {left : Nat}
      (hReading : s.tasks[task]? = some (.reading file (left + 1))) :
      Move task s [] (s.setTask task (.reading file left))
  | fail {s : Session} {file : File} {loader : Loader Engine} {delivery : Delivery Engine}
      {e : LoadError} (hReading : s.tasks[task]? = some (.reading file 0))
      (hDeliver : s.loader.deliver file.read = (loader, delivery))
      (hError : delivery.result = .error e) :
      Move task s [⟨some task, .delivered delivery⟩]
        ({ s with loader := loader }.setTask task (.ended (.error e)))
  | launch {s : Session} {file : File} {loader : Loader Engine} {handoff : Handoff Engine}
      (hReading : s.tasks[task]? = some (.reading file 0))
      (hDeliver : s.loader.deliver file.read = (loader, .released handoff)) :
      Move task s
        [⟨some task, .delivered (.released handoff)⟩, ⟨some task, .entered handoff.image⟩]
        (({ s with loader := loader }.setTask task .launching).enter (some task) handoff)

/-- Moves of one task, one after the other. -/
inductive Moves (task : Nat) : Session → List Call → Session → Prop where
  | refl (s : Session) : Moves task s [] s
  | head {s t u : Session} {calls calls' : List Call} (hMove : Move task s calls t)
      (hMoves : Moves task t calls' u) : Moves task s (calls ++ calls') u

theorem Move.moves {task : Nat} {s t : Session} {calls : List Call} (h : Move task s calls t) :
    Moves task s calls t := by
  have hMoves := Moves.head h (.refl t)
  rwa [List.append_nil] at hMoves

theorem complete_moves {s : Session} {task : Nat} {file : File}
    (h : s.tasks[task]? = some (.reading file 0)) :
    Moves task s (s.complete task file).2.calls (s.complete task file).1 := by
  rcases hDeliver : s.loader.deliver file.read with ⟨loader, delivery⟩
  cases hResult : delivery.result with
  | error e =>
    simp only [complete, hDeliver, hResult]
    exact (Move.fail h hDeliver hResult).moves
  | ok handoff =>
    obtain rfl := Delivery.eq_released_of_result hResult
    simp only [complete, hDeliver, hResult]
    exact (Move.launch h hDeliver).moves

theorem advance_moves {s : Session} {task : Nat} {file : File} {left : Nat}
    (h : s.tasks[task]? = some (.reading file left)) :
    Moves task s (s.advance task file left).2.calls (s.advance task file left).1 := by
  cases left with
  | zero => exact complete_moves h
  | succ left => exact (Move.wait h).moves

/-- What a poll of a pending read does to its task does not hang on the old phase. -/
theorem advance_setTask (s : Session) (task : Nat) (phase : Phase) (file : File) (left : Nat) :
    (s.setTask task phase).advance task file left = s.advance task file left := by
  cases left with
  | succ left => simp only [advance, setTask_setTask]
  | zero =>
    rcases hDeliver : s.loader.deliver file.read with ⟨loader, delivery⟩
    have hSet : ∀ phase', { s.setTask task phase with loader := loader }.setTask task phase' =
        { s with loader := loader }.setTask task phase' := fun phase' =>
      setTask_setTask { s with loader := loader } task phase phase'
    cases hResult : delivery.result <;>
      simp only [advance, complete, setTask_loader, hDeliver, hResult, hSet]

/-- The first poll begins the read and goes on as any later poll would. -/
theorem begin_moves {s : Session} {task : Nat} {files : List File}
    (h : s.tasks[task]? = some (.fresh files)) :
    Moves task s (s.begin task files).2.calls (s.begin task files).1 := by
  rcases hPick : s.loader.pick files with ⟨loader, selection⟩
  cases hFile : selection.file? with
  | none =>
    have hLoader : loader = s.loader := by
      have hNone : (s.loader.pick files).2.file? = none := by rw [hPick]; exact hFile
      have hKept := Loader.pick_of_file?_eq_none hNone
      rwa [hPick] at hKept
    subst hLoader
    simp only [begin, hPick, hFile]
    exact (Move.ignore h hPick hFile).moves
  | some file =>
    obtain rfl := Selection.eq_picked_of_file? hFile
    simp only [begin, hPick, hFile]
    have hMoves := advance_moves (s := { s with loader := loader }.setTask task
      (.reading file file.delay)) (getElem?_setTask_self (s := { s with loader := loader }) h _)
    rw [advance_setTask] at hMoves
    exact .head (.begin h hPick) hMoves

theorem poll_moves (s : Session) (task : Nat) :
    Moves task s (s.poll task).2.calls (s.poll task).1 := by
  rw [poll]
  split
  next files h => exact begin_moves h
  next file left h => exact advance_moves h
  next => exact .refl s

end Chip8Launcher.Session
