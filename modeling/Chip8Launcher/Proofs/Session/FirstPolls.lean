import Chip8Launcher.Proofs.Session.History

/-!
# First polls

The first poll of a task is the one that asks the loader for a file, so the calls of a session
show in which order its tasks were polled for the first time (`polled`).  What comes of the tasks
hangs on that order alone: the first selection that is not empty is the first one to be read
(`Polls.first`), and if its file can be read, it is the last one too.  Delays and the order of all
later polls play no part in it.
-/

namespace Chip8Launcher

/-- The task whose first poll the call belongs to. -/
def Call.firstPoll? (call : Call) : Option Nat :=
  match call.task, call.use with
  | some task, .picked _ => some task
  | _, _ => none

/-- The tasks in the order of their first polls. -/
def polled (calls : List Call) : List Nat := calls.filterMap Call.firstPoll?

@[simp] theorem polled_nil : polled [] = [] := rfl

@[simp] theorem polled_append (calls new : List Call) :
    polled (calls ++ new) = polled calls ++ polled new := List.filterMap_append

/-- A task of this phase has been polled. -/
def Phase.WasPolled : Phase → Prop
  | .fresh _ | .cancelled false => False
  | _ => True

/-- A read without its delay. -/
def File.instant (file : File) : File := { file with delay := 0 }

/-- The selection of a task; there is none for a task that was never created. -/
def selectionOf (selections : List (List File)) (task : Nat) : List File :=
  selections[task]?.getD []

theorem selectionOf_append {sel new : List (List File)} {task : Nat} (h : task < sel.length) :
    selectionOf (sel ++ new) task = selectionOf sel task := by
  rw [selectionOf, selectionOf, List.getElem?_append_left h]

theorem selectionOf_of_getElem? {sel : List (List File)} {task : Nat} {files : List File}
    (h : sel[task]? = some files) : selectionOf sel task = files := by
  rw [selectionOf, h, Option.getD_some]

/-- The first of the tasks that has anything selected. -/
def firstWithFiles (selections : List (List File)) (tasks : List Nat) : Option Nat :=
  tasks.find? fun task => !(selectionOf selections task).isEmpty

theorem firstWithFiles_append (sel : List (List File)) (tasks later : List Nat) :
    firstWithFiles sel (tasks ++ later) =
      (firstWithFiles sel tasks).or (firstWithFiles sel later) := List.find?_append

theorem firstWithFiles_congr {sel sel' : List (List File)} {tasks : List Nat}
    (h : ∀ task ∈ tasks, selectionOf sel task = selectionOf sel' task) :
    firstWithFiles sel tasks = firstWithFiles sel' tasks := by
  induction tasks with
  | nil => rfl
  | cons task tasks ih =>
    obtain ⟨hTask, hTasks⟩ := List.forall_mem_cons.1 h
    have hLater := ih hTasks
    unfold firstWithFiles at hLater ⊢
    simp only [List.find?_cons, hTask, hLater]

namespace Session

/-- The task has been polled. -/
def Past (s : Session) (task : Nat) : Prop :=
  ∃ phase, s.tasks[task]? = some phase ∧ phase.WasPolled

theorem past_iff {s : Session} {task : Nat} {phase : Phase} (h : s.tasks[task]? = some phase) :
    s.Past task ↔ phase.WasPolled := by
  constructor
  · rintro ⟨phase', hPhase', hPolled⟩
    cases h.symm.trans hPhase'
    exact hPolled
  · intro hPolled
    exact ⟨phase, h, hPolled⟩

theorem past_congr {s t : Session} {task : Nat} (h : t.tasks[task]? = s.tasks[task]?) :
    t.Past task ↔ s.Past task := by
  rw [Past, Past, h]

/-- What the calls of a session through tasks tell about first polls. -/
structure Polls (selections : List (List File)) (calls : List Call) (s : Session) : Prop where
  past : ∀ task, task ∈ polled calls ↔ s.Past task
  first : (begun calls).head?.map Prod.fst = firstWithFiles selections (polled calls)
  /-- A task that has not begun to read has only been turned away. -/
  quiet : ∀ call ∈ calls, (∃ task file, call.task = some task ∧ (task, file) ∈ begun calls) ∨
    ∃ task selection, call = ⟨some task, .picked selection⟩ ∧ selection.file? = none

namespace Polls

variable {engine : Engine} {calls new : List Call} {sel : List (List File)} {s t : Session}
  {task : Nat}

theorem past_setTask (h : s.Polls sel calls) {old phase : Phase}
    (hOld : s.tasks[task]? = some old) (hTasks : t.tasks = (s.setTask task phase).tasks)
    (hPhase : phase.WasPolled ↔ old.WasPolled ∨ task ∈ polled new)
    (hNew : ∀ other ∈ polled new, other = task) (other : Nat) :
    other ∈ polled (calls ++ new) ↔ t.Past other := by
  rw [polled_append, List.mem_append, h.past]
  by_cases hEq : other = task
  · subst hEq
    have hSelf : t.tasks[other]? = some phase := by
      rw [hTasks]
      exact getElem?_setTask_self hOld phase
    rw [past_iff hOld, past_iff hSelf, hPhase]
  · have hOther : t.tasks[other]? = s.tasks[other]? := by
      rw [hTasks]
      exact getElem?_setTask_ne hEq phase
    rw [past_congr hOther]
    exact or_iff_left fun hMem => hEq (hNew other hMem)

theorem quiet_append (h : s.Polls sel calls)
    (hNew : ∀ call ∈ new,
      (∃ task file, call.task = some task ∧ (task, file) ∈ begun (calls ++ new)) ∨
        ∃ task selection, call = ⟨some task, .picked selection⟩ ∧ selection.file? = none) :
    ∀ call ∈ calls ++ new,
      (∃ task file, call.task = some task ∧ (task, file) ∈ begun (calls ++ new)) ∨
        ∃ task selection, call = ⟨some task, .picked selection⟩ ∧ selection.file? = none := by
  intro call hCall
  rcases List.mem_append.1 hCall with hCall | hCall
  · rcases h.quiet call hCall with ⟨other, file, hTask, hMem⟩ | hIgnored
    · exact .inl ⟨other, file, hTask, begun_append calls new ▸ List.mem_append_left _ hMem⟩
    · exact .inr hIgnored
  · exact hNew call hCall

/-- A step that neither polls a task for the first time nor begins a read. -/
theorem of_setTask (h : s.Polls sel calls) {old phase : Phase}
    (hOld : s.tasks[task]? = some old) (hTasks : t.tasks = (s.setTask task phase).tasks)
    (hPhase : phase.WasPolled ↔ old.WasPolled) (hPolled : polled new = [])
    (hBegun : begun new = [])
    (hNew : ∀ call ∈ new, ∃ task file, call.task = some task ∧ (task, file) ∈ begun calls) :
    t.Polls sel (calls ++ new) := by
  refine ⟨h.past_setTask hOld hTasks (by simp [hPolled, hPhase]) (by simp [hPolled]), ?_,
    h.quiet_append ?_⟩
  · rw [begun_append, polled_append, hBegun, hPolled, List.append_nil, List.append_nil, h.first]
  · intro call hCall
    obtain ⟨other, file, hTask, hMem⟩ := hNew call hCall
    exact .inl ⟨other, file, hTask, begun_append calls new ▸ List.mem_append_left _ hMem⟩

/-! ### Moves -/

/-- Unless a read has begun before, a task is turned away only if it has nothing selected. -/
theorem ignore (h : s.Polls sel calls) (hAccount : s.Account engine sel calls)
    {files : List File} {selection : Selection File}
    (hFresh : s.tasks[task]? = some (.fresh files))
    (hPick : s.loader.pick files = (s.loader, selection)) (hNone : selection.file? = none) :
    (s.setTask task (.ended (.ok ()))).Polls sel (calls ++ [⟨some task, .picked selection⟩]) := by
  have hBegun : begun [(⟨some task, .picked selection⟩ : Call)] = [] :=
    begun_of_quiet (List.forall_mem_singleton.2 (Call.isQuiet_of_file?_eq_none hNone))
  have hPolled : polled [(⟨some task, .picked selection⟩ : Call)] = [task] := rfl
  refine ⟨h.past_setTask hFresh rfl (by simp [hPolled, Phase.WasPolled]) (by simp [hPolled]), ?_,
    h.quiet_append (List.forall_mem_singleton.2 (.inr ⟨task, selection, rfl, hNone⟩))⟩
  rw [begun_append, polled_append, hBegun, hPolled, List.append_nil, h.first,
    firstWithFiles_append]
  cases hFirst : firstWithFiles sel (polled calls) with
  | some first => rfl
  | none =>
    obtain ⟨failures, last, hReads, -, hStanding⟩ := hAccount.reads
    have hNil : begun calls = [] := by
      have hHead := h.first
      rw [hFirst, Option.map_eq_none_iff, List.head?_eq_none_iff] at hHead
      exact hHead
    rw [hNil] at hReads
    obtain ⟨rfl, rfl⟩ := List.append_eq_nil_iff.1 hReads.symm
    cases hStanding with
    | idle hLoader =>
      cases files with
      | cons file files =>
        rw [hLoader, Loader.pick_waiting] at hPick
        cases (Prod.mk.inj hPick).2
        cases hNone
      | nil => simp [firstWithFiles, selectionOf_of_getElem? (hAccount.fresh task [] hFresh)]

theorem begin (h : s.Polls sel calls) (hAccount : s.Account engine sel calls)
    {files : List File} {file : File} {loader : Loader Engine}
    (hFresh : s.tasks[task]? = some (.fresh files))
    (hPick : s.loader.pick files = (loader, .picked file)) :
    Polls sel (calls ++ [⟨some task, .picked (.picked file)⟩])
      ({ s with loader := loader }.setTask task (.reading file file.delay)) := by
  have hBegun : begun [(⟨some task, .picked (.picked file)⟩ : Call)] = [(task, file)] := rfl
  have hPolled : polled [(⟨some task, .picked (.picked file)⟩ : Call)] = [task] := rfl
  refine ⟨h.past_setTask hFresh rfl (by simp [hPolled, Phase.WasPolled]) (by simp [hPolled]), ?_,
    h.quiet_append (List.forall_mem_singleton.2 (.inl ⟨task, file, rfl, by simp [hBegun]⟩))⟩
  have hFiles : (selectionOf sel task).isEmpty = false := by
    obtain ⟨rest, rfl⟩ := Loader.eq_cons_of_pick hPick
    rw [selectionOf_of_getElem? (hAccount.fresh task _ hFresh)]
    rfl
  rw [begun_append, polled_append, hBegun, hPolled, firstWithFiles_append, ← h.first,
    List.head?_append]
  cases (begun calls).head? with
  | some read => rfl
  | none => simp [firstWithFiles, hFiles]

/-- A task with a pending read has begun it. -/
theorem mem_begun_of_reading (hAccount : s.Account engine sel calls) {file : File} {left : Nat}
    (hReading : s.tasks[task]? = some (.reading file left)) : (task, file) ∈ begun calls := by
  obtain ⟨-, -, -, -, failures, hReads, -⟩ := hAccount.reading hReading
  rw [hReads]
  exact List.mem_concat_self

theorem move (h : s.Polls sel calls) (hAccount : s.Account engine sel calls)
    (hMove : Move task s new t) : t.Polls sel (calls ++ new) := by
  cases hMove with
  | ignore hFresh hPick hNone => exact h.ignore hAccount hFresh hPick hNone
  | begin hFresh hPick => exact h.begin hAccount hFresh hPick
  | wait hReading => exact h.of_setTask hReading rfl Iff.rfl rfl rfl (by simp)
  | fail hReading _ _ =>
    have hMem := mem_begun_of_reading hAccount hReading
    refine h.of_setTask hReading rfl Iff.rfl rfl rfl ?_
    exact List.forall_mem_singleton.2 ⟨task, _, rfl, hMem⟩
  | launch hReading _ =>
    have hMem := mem_begun_of_reading hAccount hReading
    refine h.of_setTask hReading rfl Iff.rfl rfl rfl ?_
    intro call hCall
    rcases List.mem_cons.1 hCall with rfl | hCall
    · exact ⟨task, _, rfl, hMem⟩
    · obtain rfl := List.mem_singleton.1 hCall
      exact ⟨task, _, rfl, hMem⟩

theorem moves (h : s.Polls sel calls) (hAccount : s.Account engine sel calls)
    (hMoves : Moves task s new t) : t.Polls sel (calls ++ new) := by
  induction hMoves generalizing calls with
  | refl s => rwa [List.append_nil]
  | head hMove _ ih =>
    rw [← List.append_assoc]
    exact ih (h.move hAccount hMove) (hAccount.move hMove)

/-! ### Steps -/

/-- A step that calls nothing and leaves it open to no task whether it was polled. -/
theorem of_past (h : s.Polls sel calls) (hPast : ∀ task, t.Past task ↔ s.Past task) :
    t.Polls sel calls :=
  ⟨fun task => (h.past task).trans (hPast task).symm, h.first, h.quiet⟩

theorem spawn (h : s.Polls sel calls) (hAccount : s.Account engine sel calls)
    (files : List File) :
    Polls (sel ++ [files]) calls { s with tasks := s.tasks ++ [.fresh files] } := by
  refine ⟨?_, ?_, h.quiet⟩
  · intro task
    rw [h.past]
    constructor
    · rintro ⟨phase, hTask, hPolled⟩
      exact ⟨phase, getElem?_append_of_eq_some hTask _, hPolled⟩
    · rintro ⟨phase, hTask, hPolled⟩
      rcases getElem?_spawn hTask with hTask | ⟨-, rfl⟩
      · exact ⟨phase, hTask, hPolled⟩
      · cases hPolled
  · rw [h.first]
    refine firstWithFiles_congr fun task hTask => ?_
    obtain ⟨phase, hPhase, -⟩ := (h.past task).1 hTask
    have hLt := (List.getElem?_eq_some_iff.1 hPhase).1
    rw [hAccount.length] at hLt
    exact (selectionOf_append hLt).symm

theorem cancel (h : s.Polls sel calls) (task : Nat) : (s.cancel task).1.Polls sel calls := by
  rw [Session.cancel]
  split
  next hFresh =>
    have hKept : Polls sel (calls ++ []) (s.setTask task (.cancelled false)) :=
      h.of_setTask hFresh rfl Iff.rfl rfl rfl (by simp)
    rwa [List.append_nil] at hKept
  next hReading =>
    have hKept : Polls sel (calls ++ []) (s.setTask task (.cancelled true)) :=
      h.of_setTask hReading rfl Iff.rfl rfl rfl (by simp)
    rwa [List.append_nil] at hKept
  next => exact h

theorem finish (h : s.Polls sel calls) (hAccount : s.Account engine sel calls) :
    s.finish.1.Polls sel calls := by
  obtain ⟨failures, last, -, -, hStanding⟩ := hAccount.reads
  cases hStanding with
  | idle _ hRunning | reading _ hRunning | abandoned _ hRunning | loaded _ _ hRunning =>
    rw [finish_of_idle hRunning]
    exact h
  | @launching task file bytes _ _ hRunning _ hTask =>
    have hTasks : s.finish.1.tasks = (s.setTask task (.ended engine.outcome)).tasks := by
      rw [finish_of_running hRunning]
      rfl
    have hKept : Polls sel (calls ++ []) s.finish.1 :=
      h.of_setTask hTask hTasks Iff.rfl rfl rfl (by simp)
    rwa [List.append_nil] at hKept

theorem act (h : s.Polls sel calls) (hAccount : s.Account engine sel calls) {action : Action}
    (hAction : action.ThroughTasks) :
    Polls (sel ++ action.selection?.toList) (calls ++ (s.act action).2.calls)
      (s.act action).1 := by
  cases action with
  | spawn files =>
    rw [Session.act, List.append_nil]
    exact h.spawn hAccount files
  | poll task =>
    show Polls (sel ++ []) (calls ++ (s.poll task).2.calls) (s.poll task).1
    rw [List.append_nil]
    exact h.moves hAccount (poll_moves s task)
  | cancel task =>
    show Polls (sel ++ []) (calls ++ (s.cancel task).2.calls) (s.cancel task).1
    rw [cancel_calls, List.append_nil, List.append_nil]
    exact h.cancel task
  | draw fill =>
    show Polls (sel ++ []) (calls ++ [])
      (if s.running.isEmpty then s else { s with screen := s.screen.fill fill })
    rw [List.append_nil, List.append_nil]
    split
    · exact h
    · exact h.of_past fun _ => Iff.rfl
  | finish =>
    show Polls (sel ++ []) (calls ++ s.finish.2.calls) s.finish.1
    rw [finish_calls, List.append_nil, List.append_nil]
    exact h.finish hAccount
  | _ => cases hAction

theorem run (h : s.Polls sel calls) (hAccount : s.Account engine sel calls)
    {actions : List Action} (hActions : ∀ action ∈ actions, action.ThroughTasks) :
    (s.after actions).Polls (sel ++ selections actions) (calls ++ s.calls actions) := by
  induction actions generalizing sel calls s with
  | nil =>
    rw [selections, List.filterMap_nil, calls_nil, List.append_nil, List.append_nil]
    exact h
  | cons action actions ih =>
    obtain ⟨hAction, hActions⟩ := List.forall_mem_cons.1 hActions
    rw [selections_cons, calls_cons, ← List.append_assoc, ← List.append_assoc]
    exact ih (h.act hAccount hAction) (hAccount.act hAction) hActions

theorem arm (engine : Engine) (screen : Framebuffer) : (arm engine screen).Polls [] [] where
  past task := by simp [Past, Session.arm]
  first := rfl
  quiet := by simp

theorem after_arm (engine : Engine) (screen : Framebuffer) {actions : List Action}
    (hActions : ∀ action ∈ actions, action.ThroughTasks) :
    ((Session.arm engine screen).after actions).Polls (selections actions)
      ((Session.arm engine screen).calls actions) :=
  (arm engine screen).run (Account.arm engine screen) hActions

end Polls

end Session

end Chip8Launcher
