import Chip8Launcher.Proofs.Session.Reads
import Chip8Launcher.Proofs.Session.Stages

/-!
# The account of a session

A session in which the loader is used only through tasks can be told from its reads alone.
They were begun one after the other; all but the last have failed; and how the last one stands
says how the loader, the engine and the record stand (`Standing`).  `Account` is this, together
with what is known of all other tasks, which have not done anything.

* `Account.move`: every move of a task keeps the account.
* `Account.act` and `Account.run`: so does every step through tasks, and every run of them.
-/

namespace Chip8Launcher

/-- The step is one of a task, or of an engine. -/
def Action.ThroughTasks : Action → Prop
  | .spawn _ | .poll _ | .cancel _ | .draw _ | .finish => True
  | _ => False

/-- The files that the step creates a task for. -/
def Action.selection? : Action → Option (List File)
  | .spawn files => some files
  | _ => none

/-- What tasks are created for, in the order of their numbers. -/
def selections (actions : List Action) : List (List File) := actions.filterMap Action.selection?

theorem selections_cons (action : Action) (actions : List Action) :
    selections (action :: actions) = action.selection?.toList ++ selections actions := by
  rw [selections, selections]
  cases hSelection : action.selection? <;> simp [hSelection]

theorem selections_append (before later : List Action) :
    selections (before ++ later) = selections before ++ selections later := List.filterMap_append

/-- What a task ends with when its engine returns. -/
def Engine.outcome (engine : Engine) : Except LoadError Unit :=
  match engine.failure with
  | none => .ok ()
  | some text => .error (.engine ⟨text⟩)

theorem Engine.outcome_ne_noReadInFlight (engine : Engine) :
    engine.outcome ≠ .error .noReadInFlight := by
  rw [outcome]
  split <;> simp

/-- A task of this phase has not begun to read, and if it has ended then well. -/
def Phase.IsIdle : Phase → Prop
  | .fresh _ | .ended (.ok ()) | .cancelled false => True
  | _ => False

namespace Session

/-- The task has ended because its file could not be read. -/
def Failed (s : Session) (task : Nat) (file : File) : Prop :=
  ∃ reason, file.content = .error reason ∧
    s.tasks[task]? = some (.ended (.error (.read ⟨file.name, reason⟩)))

/-- How a session stands whose reads before the last have failed.  The list is the last read,
if it has not failed as well. -/
inductive Standing (engine : Engine) (calls : List Call) (s : Session) :
    List (Nat × File) → Prop where
  | idle (hLoader : s.loader = .atStage engine .waiting) (hRunning : s.running = [])
      (hReceived : s.received = []) : Standing engine calls s []
  | reading {task : Nat} {file : File} {left : Nat} (hLoader : s.loader = .atStage engine .reading)
      (hRunning : s.running = []) (hReceived : s.received = [])
      (hFlight : InFlight calls task file) (hTask : s.tasks[task]? = some (.reading file left)) :
      Standing engine calls s [(task, file)]
  /-- Its task was cancelled, and so the read stays in flight. -/
  | abandoned {task : Nat} {file : File} (hLoader : s.loader = .atStage engine .reading)
      (hRunning : s.running = []) (hReceived : s.received = [])
      (hFlight : InFlight calls task file) (hTask : s.tasks[task]? = some (.cancelled true)) :
      Standing engine calls s [(task, file)]
  /-- The engine has control. -/
  | launching {task : Nat} {file : File} {bytes : List UInt8} (hContent : file.content = .ok bytes)
      (hLoader : s.loader = .atStage engine .spent)
      (hRunning : s.running = [⟨some task, ⟨⟨bytes⟩, engine⟩⟩]) (hReceived : s.received = [])
      (hTask : s.tasks[task]? = some .launching) : Standing engine calls s [(task, file)]
  /-- The engine has returned. -/
  | loaded {task : Nat} {file : File} {bytes : List UInt8} (hContent : file.content = .ok bytes)
      (hLoader : s.loader = .atStage engine .spent) (hRunning : s.running = [])
      (hReceived : s.received = [⟨bytes⟩])
      (hTask : s.tasks[task]? = some (.ended engine.outcome)) :
      Standing engine calls s [(task, file)]

structure Account (engine : Engine) (selections : List (List File)) (calls : List Call)
    (s : Session) : Prop where
  reads : ∃ failures last, begun calls = failures ++ last ∧
    (∀ read ∈ failures, s.Failed read.1 read.2) ∧ s.Standing engine calls last
  matched : Matched calls
  /-- A read is one of the first file that its task was created for. -/
  selected : ∀ read ∈ begun calls, ∃ rest, selections[read.1]? = some (read.2 :: rest)
  others : ∀ (task : Nat) (phase : Phase), s.tasks[task]? = some phase →
    (∀ file, (task, file) ∉ begun calls) → phase.IsIdle
  fresh : ∀ (task : Nat) (files : List File), s.tasks[task]? = some (.fresh files) →
    selections[task]? = some files
  length : s.tasks.length = selections.length

variable {engine : Engine} {calls new : List Call} {sel : List (List File)} {s t : Session}
  {task : Nat} {file : File} {last : List (Nat × File)}

/-! ### The end of a visit -/

theorem finish_of_idle (hRunning : s.running = []) : s.finish = (s, ⟨.none, [], []⟩) := by
  rw [finish, hRunning]

theorem finish_of_running {handoff : Handoff Engine}
    (hRunning : s.running = [⟨some task, handoff⟩]) :
    s.finish.1 = { s with running := [], received := s.received ++ [handoff.image] }.setTask task
      (.ended handoff.engine.outcome) := by
  obtain ⟨image, ⟨failure⟩⟩ := handoff
  rw [finish, hRunning]
  cases failure <;> rfl

/-! ### Frames -/

theorem Failed.congr (h : s.Failed task file) (hTask : t.tasks[task]? = s.tasks[task]?) :
    t.Failed task file := by
  obtain ⟨reason, hContent, hEnded⟩ := h
  exact ⟨reason, hContent, hTask.trans hEnded⟩

/-- A failed task is none that can still be told from one that has ended. -/
theorem Failed.setTask (h : s.Failed task file) {other : Nat} {old : Phase}
    (hOld : s.tasks[other]? = some old) (hLive : ∀ result, old ≠ .ended result) (phase : Phase) :
    (s.setTask other phase).Failed task file := by
  have hNe : task ≠ other := by
    rintro rfl
    obtain ⟨reason, -, hEnded⟩ := h
    exact hLive _ (Option.some.inj (hOld.symm.trans hEnded))
  exact h.congr (getElem?_setTask_ne hNe phase)

theorem Standing.congr {calls' : List Call} (h : s.Standing engine calls last)
    (hLoader : t.loader = s.loader) (hRunning : t.running = s.running)
    (hReceived : t.received = s.received)
    (hTasks : ∀ read ∈ last, t.tasks[read.1]? = s.tasks[read.1]?)
    (hFlight : ∀ task file, InFlight calls task file → InFlight calls' task file) :
    t.Standing engine calls' last := by
  cases h with
  | idle h₁ h₂ h₃ => exact .idle (hLoader.trans h₁) (hRunning.trans h₂) (hReceived.trans h₃)
  | reading h₁ h₂ h₃ h₄ h₅ =>
    exact .reading (hLoader.trans h₁) (hRunning.trans h₂) (hReceived.trans h₃) (hFlight _ _ h₄)
      ((hTasks _ List.mem_cons_self).trans h₅)
  | abandoned h₁ h₂ h₃ h₄ h₅ =>
    exact .abandoned (hLoader.trans h₁) (hRunning.trans h₂) (hReceived.trans h₃) (hFlight _ _ h₄)
      ((hTasks _ List.mem_cons_self).trans h₅)
  | launching h₀ h₁ h₂ h₃ h₄ =>
    exact .launching h₀ (hLoader.trans h₁) (hRunning.trans h₂) (hReceived.trans h₃)
      ((hTasks _ List.mem_cons_self).trans h₄)
  | loaded h₀ h₁ h₂ h₃ h₄ =>
    exact .loaded h₀ (hLoader.trans h₁) (hRunning.trans h₂) (hReceived.trans h₃)
      ((hTasks _ List.mem_cons_self).trans h₄)

theorem Standing.eq_singleton (h : s.Standing engine calls last) {read : Nat × File}
    (hRead : read ∈ last) : last = [read] := by
  cases h with
  | idle => cases hRead
  | _ => rw [List.mem_singleton.1 hRead]

/-- The task of the last read is past its first poll. -/
theorem Standing.phase (h : s.Standing engine calls [(task, file)]) :
    ∃ phase, s.tasks[task]? = some phase ∧ ∀ files, phase ≠ .fresh files := by
  cases h with
  | reading _ _ _ _ hTask | abandoned _ _ _ _ hTask | launching _ _ _ _ hTask
  | loaded _ _ _ _ hTask => exact ⟨_, hTask, by simp⟩

namespace Account

/-- A task is idle, or its read has failed, or its read is the last. -/
theorem phase_cases (h : s.Account engine sel calls) {phase : Phase}
    (hTask : s.tasks[task]? = some phase) :
    phase.IsIdle ∨ (∃ e, phase = .ended (.error (.read e))) ∨
      ∃ failures file, begun calls = failures ++ [(task, file)] ∧
        (∀ read ∈ failures, s.Failed read.1 read.2) ∧
        s.Standing engine calls [(task, file)] := by
  obtain ⟨failures, last, hReads, hFailed, hStanding⟩ := h.reads
  by_cases hBegun : ∃ file, (task, file) ∈ begun calls
  · obtain ⟨file, hMem⟩ := hBegun
    rcases List.mem_append.1 (hReads ▸ hMem) with hMem | hMem
    · obtain ⟨reason, -, hEnded⟩ := hFailed _ hMem
      exact .inr (.inl ⟨_, Option.some.inj (hTask.symm.trans hEnded)⟩)
    · obtain rfl := hStanding.eq_singleton hMem
      exact .inr (.inr ⟨failures, file, hReads, hFailed, hStanding⟩)
  · exact .inl (h.others task phase hTask (not_exists.1 hBegun))

/-- A task that has not been polled has begun no read. -/
theorem not_begun (h : s.Account engine sel calls) {files : List File}
    (hFresh : s.tasks[task]? = some (.fresh files)) : ∀ file, (task, file) ∉ begun calls := by
  intro file hMem
  obtain ⟨failures, last, hReads, hFailed, hStanding⟩ := h.reads
  rcases List.mem_append.1 (hReads ▸ hMem) with hMem | hMem
  · obtain ⟨reason, -, hEnded⟩ := hFailed _ hMem
    cases hEnded.symm.trans hFresh
  · obtain rfl := hStanding.eq_singleton hMem
    obtain ⟨phase, hPhase, hNotFresh⟩ := hStanding.phase
    exact hNotFresh files (Option.some.inj (hPhase.symm.trans hFresh))

/-- A pending read is the last of all. -/
theorem reading (h : s.Account engine sel calls) {left : Nat}
    (hReading : s.tasks[task]? = some (.reading file left)) :
    s.loader = .atStage engine .reading ∧ s.running = [] ∧ s.received = [] ∧
      InFlight calls task file ∧ ∃ failures, begun calls = failures ++ [(task, file)] ∧
        ∀ read ∈ failures, s.Failed read.1 read.2 := by
  rcases h.phase_cases hReading with hIdle | ⟨e, hEnded⟩ | ⟨failures, file, hReads, hFailed, hLast⟩
  · cases hIdle
  · cases hEnded
  · cases hLast with
    | reading hLoader hRunning hReceived hFlight hTask =>
      cases hTask.symm.trans hReading
      exact ⟨hLoader, hRunning, hReceived, hFlight, failures, hReads, hFailed⟩
    | abandoned _ _ _ _ hTask | launching _ _ _ _ hTask | loaded _ _ _ _ hTask =>
      cases hTask.symm.trans hReading

/-! ### Moves -/

/-- An account is kept when one task gets another phase, if the reads are accounted for. -/
theorem of_setTask (h : s.Account engine sel calls) {old phase : Phase}
    (hOld : s.tasks[task]? = some old) (hTasks : t.tasks = (s.setTask task phase).tasks)
    (hNotFresh : ∀ files, phase ≠ .fresh files)
    (hPhase : phase.IsIdle ∨ ∃ file, (task, file) ∈ begun (calls ++ new))
    (hMatched : Matched (calls ++ new))
    (hSelected : ∀ read ∈ begun new, ∃ rest, sel[read.1]? = some (read.2 :: rest))
    (hReads : ∃ failures last, begun (calls ++ new) = failures ++ last ∧
      (∀ read ∈ failures, t.Failed read.1 read.2) ∧ t.Standing engine (calls ++ new) last) :
    t.Account engine sel (calls ++ new) := by
  refine ⟨hReads, hMatched, ?_, ?_, ?_, ?_⟩
  · intro read hRead
    rcases List.mem_append.1 (begun_append calls new ▸ hRead) with hRead | hRead
    · exact h.selected read hRead
    · exact hSelected read hRead
  · intro other phase' hOther hNot
    rw [hTasks] at hOther
    by_cases hEq : other = task
    · subst hEq
      rw [getElem?_setTask_self hOld] at hOther
      cases hOther
      rcases hPhase with hIdle | ⟨file, hMem⟩
      · exact hIdle
      · exact absurd hMem (hNot file)
    · rw [getElem?_setTask_ne hEq] at hOther
      refine h.others other phase' hOther fun file hMem => hNot file ?_
      rw [begun_append]
      exact List.mem_append_left _ hMem
  · intro other files hOther
    rw [hTasks] at hOther
    by_cases hEq : other = task
    · subst hEq
      rw [getElem?_setTask_self hOld] at hOther
      exact absurd (Option.some.inj hOther) (hNotFresh files)
    · rw [getElem?_setTask_ne hEq] at hOther
      exact h.fresh other files hOther
  · rw [hTasks, setTask_length, h.length]

/-- The same for a step that calls nothing, on a task that has begun its read before. -/
theorem of_setTask_begun (h : s.Account engine sel calls) {old phase : Phase}
    (hOld : s.tasks[task]? = some old) (hTasks : t.tasks = (s.setTask task phase).tasks)
    (hNotFresh : ∀ files, phase ≠ .fresh files) (hMem : (task, file) ∈ begun calls)
    (hReads : ∃ failures last, begun calls = failures ++ last ∧
      (∀ read ∈ failures, t.Failed read.1 read.2) ∧ t.Standing engine calls last) :
    t.Account engine sel calls := by
  have hKept : t.Account engine sel (calls ++ []) := by
    refine h.of_setTask hOld hTasks hNotFresh (.inr ⟨file, ?_⟩) ?_ (by simp) ?_
    · rwa [List.append_nil]
    · rw [List.append_nil]
      exact h.matched
    · rwa [List.append_nil]
  rwa [List.append_nil] at hKept

/-- A task that ends before it has begun to read does not show in the account. -/
theorem setTask_fresh (h : s.Account engine sel calls) {files : List File}
    (hFresh : s.tasks[task]? = some (.fresh files)) {phase : Phase} (hIdle : phase.IsIdle)
    (hNotFresh : ∀ files, phase ≠ .fresh files) (hNew : ∀ call ∈ new, call.IsQuiet)
    (hMatched : Matched (calls ++ new)) :
    (s.setTask task phase).Account engine sel (calls ++ new) := by
  have hBegun := begun_of_quiet hNew
  refine h.of_setTask hFresh rfl hNotFresh (.inl hIdle) hMatched ?_ ?_
  · rw [hBegun]
    intro read hRead
    cases hRead
  · obtain ⟨failures, last, hReads, hFailed, hStanding⟩ := h.reads
    refine ⟨failures, last, ?_, ?_,
      hStanding.congr rfl rfl rfl ?_ fun task file hFlight => hFlight.append hNew⟩
    · rw [begun_append, hBegun, List.append_nil, hReads]
    · intro read hRead
      exact (hFailed read hRead).setTask hFresh (by simp) phase
    · intro read hRead
      refine getElem?_setTask_ne ?_ phase
      rintro rfl
      exact h.not_begun hFresh read.2 (hReads ▸ List.mem_append_right failures hRead)

theorem ignore (h : s.Account engine sel calls) {files : List File} {selection : Selection File}
    (hFresh : s.tasks[task]? = some (.fresh files)) (hNone : selection.file? = none) :
    (s.setTask task (.ended (.ok ()))).Account engine sel
      (calls ++ [⟨some task, .picked selection⟩]) := by
  refine h.setTask_fresh hFresh trivial (by simp) ?_ h.matched.concat_picked
  exact List.forall_mem_singleton.2 (Call.isQuiet_of_file?_eq_none hNone)

/-- A read can begin only when all before it have failed. -/
theorem begin (h : s.Account engine sel calls) {files : List File} {loader : Loader Engine}
    (hFresh : s.tasks[task]? = some (.fresh files))
    (hPick : s.loader.pick files = (loader, .picked file)) :
    Account engine sel (calls ++ [⟨some task, .picked (.picked file)⟩])
      ({ s with loader := loader }.setTask task (.reading file file.delay)) := by
  obtain ⟨failures, last, hReads, hFailed, hStanding⟩ := h.reads
  have hBegun : begun (calls ++ [⟨some task, .picked (.picked file)⟩]) =
      begun calls ++ [(task, file)] := begun_append calls _
  cases hStanding with
  | reading hLoader | abandoned hLoader | launching _ hLoader | loaded _ hLoader =>
    -- at these stages every selection is ignored
    simp [hLoader] at hPick
  | idle hLoader hRunning hReceived =>
    cases files with
    | nil => simp [hLoader] at hPick
    | cons first rest =>
      rw [hLoader, Loader.pick_waiting] at hPick
      obtain ⟨rfl, hPicked⟩ := Prod.mk.inj hPick
      obtain rfl := Selection.picked.inj hPicked
      refine h.of_setTask hFresh rfl (by simp) (.inr ⟨first, by simp [hBegun]⟩)
        h.matched.concat_picked ?_ ⟨failures, [(task, first)], ?_, ?_, ?_⟩
      · exact List.forall_mem_singleton.2 ⟨rest, h.fresh task _ hFresh⟩
      · rw [hBegun, hReads, List.append_nil]
      · intro read hRead
        exact ((hFailed read hRead).setTask hFresh (by simp) _).congr rfl
      · exact .reading rfl hRunning hReceived (.begin calls task first)
          (getElem?_setTask_self hFresh _)

/-- A task with a pending read goes on to a phase in which the read stays the last. -/
theorem setTask_reading (h : s.Account engine sel calls) {left : Nat} {phase : Phase}
    (hReading : s.tasks[task]? = some (.reading file left))
    (hNotFresh : ∀ files, phase ≠ .fresh files)
    (hStanding : (s.setTask task phase).Standing engine calls [(task, file)]) :
    (s.setTask task phase).Account engine sel calls := by
  obtain ⟨-, -, -, -, failures, hReads, hFailed⟩ := h.reading hReading
  have hMem : (task, file) ∈ begun calls := by simp [hReads]
  refine h.of_setTask_begun hReading rfl hNotFresh hMem
    ⟨failures, [(task, file)], hReads, ?_, hStanding⟩
  intro read hRead
  exact (hFailed read hRead).setTask hReading (by simp) phase

theorem wait (h : s.Account engine sel calls) {left : Nat}
    (hReading : s.tasks[task]? = some (.reading file (left + 1))) :
    (s.setTask task (.reading file left)).Account engine sel calls := by
  obtain ⟨hLoader, hRunning, hReceived, hFlight, -⟩ := h.reading hReading
  exact h.setTask_reading hReading (by simp)
    (.reading hLoader hRunning hReceived hFlight (getElem?_setTask_self hReading _))

/-- The delivery of a task is always accepted, as the read in flight is its own. -/
theorem matched_delivered (h : s.Account engine sel calls)
    (hFlight : InFlight calls task file) {delivery : Delivery Engine}
    (hAccepted : delivery.result ≠ .error .noReadInFlight) :
    Matched (calls ++ [⟨some task, .delivered delivery⟩]) := by
  refine h.matched.concat ?_
  intro delivery' hUse
  obtain rfl := Use.delivered.inj hUse
  exact ⟨hAccepted, task, file, rfl, hFlight⟩

theorem begun_delivered (calls : List Call) (task : Nat) (delivery : Delivery Engine) :
    begun (calls ++ [⟨some task, .delivered delivery⟩]) = begun calls :=
  (begun_append calls _).trans (List.append_nil _)

theorem fail (h : s.Account engine sel calls) {loader : Loader Engine}
    {delivery : Delivery Engine} {e : LoadError}
    (hReading : s.tasks[task]? = some (.reading file 0))
    (hDeliver : s.loader.deliver file.read = (loader, delivery))
    (hError : delivery.result = .error e) :
    Account engine sel (calls ++ [⟨some task, .delivered delivery⟩])
      ({ s with loader := loader }.setTask task (.ended (.error e))) := by
  obtain ⟨hLoader, hRunning, hReceived, hFlight, failures, hReads, hFailed⟩ := h.reading hReading
  cases hContent : file.content with
  | ok bytes =>
    rw [hLoader, File.read, hContent, Loader.deliver_reading_ok] at hDeliver
    obtain ⟨rfl, rfl⟩ := Prod.mk.inj hDeliver
    cases hError
  | error reason =>
    rw [hLoader, File.read, hContent, Loader.deliver_reading_error] at hDeliver
    obtain ⟨rfl, rfl⟩ := Prod.mk.inj hDeliver
    obtain rfl := Except.error.inj hError
    have hBegun := begun_delivered calls task (.failed ⟨file.name, reason⟩)
    have hMatched : Matched (calls ++ [⟨some task, .delivered (.failed ⟨file.name, reason⟩)⟩]) :=
      h.matched_delivered hFlight (by simp [Delivery.result])
    refine h.of_setTask hReading rfl (by simp) (.inr ⟨file, by simp [hBegun, hReads]⟩) hMatched
      (by simp [begun, Call.begun?])
      ⟨failures ++ [(task, file)], [], ?_, ?_, .idle rfl hRunning hReceived⟩
    · rw [hBegun, hReads, List.append_nil]
    · intro read hRead
      rcases List.mem_append.1 hRead with hRead | hRead
      · exact ((hFailed read hRead).setTask hReading (by simp) _).congr rfl
      · obtain rfl := List.mem_singleton.1 hRead
        exact ⟨reason, hContent, getElem?_setTask_self (s := { s with loader := _ }) hReading _⟩

theorem launch (h : s.Account engine sel calls) {loader : Loader Engine}
    {handoff : Handoff Engine} (hReading : s.tasks[task]? = some (.reading file 0))
    (hDeliver : s.loader.deliver file.read = (loader, .released handoff)) :
    Account engine sel
      (calls ++
        [⟨some task, .delivered (.released handoff)⟩, ⟨some task, .entered handoff.image⟩])
      (({ s with loader := loader }.setTask task .launching).enter (some task) handoff) := by
  obtain ⟨hLoader, hRunning, hReceived, hFlight, failures, hReads, hFailed⟩ := h.reading hReading
  cases hContent : file.content with
  | error reason =>
    rw [hLoader, File.read, hContent, Loader.deliver_reading_error] at hDeliver
    cases (Prod.mk.inj hDeliver).2
  | ok bytes =>
    rw [hLoader, File.read, hContent, Loader.deliver_reading_ok] at hDeliver
    obtain ⟨rfl, hReleased⟩ := Prod.mk.inj hDeliver
    obtain rfl := Delivery.released.inj hReleased
    have hDelivered : Matched
        (calls ++ [⟨some task, .delivered (.released ⟨⟨bytes⟩, engine⟩)⟩]) :=
      h.matched_delivered hFlight (by simp [Delivery.result])
    have hMatched : Matched (calls ++ [⟨some task, .delivered (.released ⟨⟨bytes⟩, engine⟩)⟩] ++
        [⟨some task, .entered ⟨bytes⟩⟩]) := hDelivered.concat_quiet trivial
    rw [List.append_assoc] at hMatched
    refine h.of_setTask hReading rfl (by simp) (.inr ⟨file, by simp [hReads]⟩) hMatched
      (by simp [begun, Call.begun?]) ⟨failures, [(task, file)], ?_, ?_, ?_⟩
    · exact (begun_append calls _).trans ((List.append_nil _).trans hReads)
    · intro read hRead
      exact ((hFailed read hRead).setTask hReading (by simp) _).congr rfl
    · refine .launching hContent rfl ?_ hReceived ?_
      · rw [enter_running, setTask_running, hRunning]
      · exact getElem?_setTask_self (s := { s with loader := _ }) hReading _

theorem move (h : s.Account engine sel calls) (hMove : Move task s new t) :
    t.Account engine sel (calls ++ new) := by
  cases hMove with
  | ignore hFresh _ hNone => exact h.ignore hFresh hNone
  | begin hFresh hPick => exact h.begin hFresh hPick
  | wait hReading => rw [List.append_nil]; exact h.wait hReading
  | fail hReading hDeliver hError => exact h.fail hReading hDeliver hError
  | launch hReading hDeliver => exact h.launch hReading hDeliver

theorem moves (h : s.Account engine sel calls) (hMoves : Moves task s new t) :
    t.Account engine sel (calls ++ new) := by
  induction hMoves generalizing calls with
  | refl s => rwa [List.append_nil]
  | head hMove _ ih =>
    rw [← List.append_assoc]
    exact ih (h.move hMove)

/-! ### Steps -/

theorem spawn (h : s.Account engine sel calls) (files : List File) :
    Account engine (sel ++ [files]) calls { s with tasks := s.tasks ++ [.fresh files] } := by
  refine ⟨?_, h.matched, ?_, ?_, ?_, ?_⟩
  · obtain ⟨failures, last, hReads, hFailed, hStanding⟩ := h.reads
    refine ⟨failures, last, hReads, ?_, hStanding.congr rfl rfl rfl ?_ fun _ _ => id⟩
    · intro read hRead
      obtain ⟨reason, hContent, hEnded⟩ := hFailed read hRead
      exact ⟨reason, hContent, getElem?_append_of_eq_some hEnded _⟩
    · intro read hRead
      obtain rfl := hStanding.eq_singleton hRead
      obtain ⟨phase, hPhase, -⟩ := hStanding.phase
      rw [hPhase]
      exact getElem?_append_of_eq_some hPhase _
  · intro read hRead
    obtain ⟨rest, hRest⟩ := h.selected read hRead
    exact ⟨rest, getElem?_append_of_eq_some hRest _⟩
  · intro task phase hTask hNot
    rcases getElem?_spawn hTask with hTask | ⟨-, rfl⟩
    · exact h.others task phase hTask hNot
    · trivial
  · intro task files' hTask
    rcases getElem?_spawn hTask with hTask | ⟨rfl, hFiles⟩
    · exact getElem?_append_of_eq_some (h.fresh task files' hTask) _
    · cases hFiles
      rw [h.length, List.getElem?_concat_length]
  · simp [h.length]

theorem cancel (h : s.Account engine sel calls) (task : Nat) :
    (s.cancel task).1.Account engine sel calls := by
  rw [Session.cancel]
  split
  next files hFresh =>
    have hKept : (s.setTask task (.cancelled false)).Account engine sel (calls ++ []) :=
      h.setTask_fresh hFresh trivial (by simp) (by simp) (by simpa using h.matched)
    rwa [List.append_nil] at hKept
  next file left hReading =>
    obtain ⟨hLoader, hRunning, hReceived, hFlight, -⟩ := h.reading hReading
    exact h.setTask_reading hReading (by simp)
      (.abandoned hLoader hRunning hReceived hFlight (getElem?_setTask_self hReading _))
  next => exact h

theorem draw (h : s.Account engine sel calls) (screen : Framebuffer) :
    Account engine sel calls { s with screen := screen } := by
  refine ⟨?_, h.matched, h.selected, h.others, h.fresh, h.length⟩
  obtain ⟨failures, last, hReads, hFailed, hStanding⟩ := h.reads
  exact ⟨failures, last, hReads, fun read hRead => (hFailed read hRead).congr rfl,
    hStanding.congr rfl rfl rfl (fun _ _ => rfl) fun _ _ => id⟩

/-- An engine that returns ends its task, and with that the image is on record. -/
theorem finish (h : s.Account engine sel calls) : s.finish.1.Account engine sel calls := by
  obtain ⟨failures, last, hReads, hFailed, hStanding⟩ := h.reads
  cases hStanding with
  | idle _ hRunning | reading _ hRunning | abandoned _ hRunning | loaded _ _ hRunning =>
    -- no engine has control
    rw [finish_of_idle hRunning]
    exact h
  | @launching task file bytes hContent hLoader hRunning hReceived hTask =>
    rw [finish_of_running hRunning]
    have hMem : (task, file) ∈ begun calls := by simp [hReads]
    refine h.of_setTask_begun hTask rfl (by simp) hMem
      ⟨failures, [(task, file)], hReads, ?_, .loaded hContent hLoader rfl ?_ ?_⟩
    · intro read hRead
      exact ((hFailed read hRead).setTask hTask (by simp) _).congr rfl
    · rw [setTask_received, hReceived, List.nil_append]
    · exact List.getElem?_set_self (List.getElem?_eq_some_iff.1 hTask).1

/-- **Every step through tasks keeps the account.** -/
theorem act (h : s.Account engine sel calls) {action : Action} (hAction : action.ThroughTasks) :
    Account engine (sel ++ action.selection?.toList) (calls ++ (s.act action).2.calls)
      (s.act action).1 := by
  cases action with
  | spawn files =>
    rw [Session.act, List.append_nil]
    exact h.spawn files
  | poll task =>
    show Account engine (sel ++ []) (calls ++ (s.poll task).2.calls) (s.poll task).1
    rw [List.append_nil]
    exact h.moves (poll_moves s task)
  | cancel task =>
    show Account engine (sel ++ []) (calls ++ (s.cancel task).2.calls) (s.cancel task).1
    rw [cancel_calls, List.append_nil, List.append_nil]
    exact h.cancel task
  | draw fill =>
    show Account engine (sel ++ []) (calls ++ [])
      (if s.running.isEmpty then s else { s with screen := s.screen.fill fill })
    rw [List.append_nil, List.append_nil]
    split
    · exact h
    · exact h.draw _
  | finish =>
    show Account engine (sel ++ []) (calls ++ s.finish.2.calls) s.finish.1
    rw [finish_calls, List.append_nil, List.append_nil]
    exact h.finish
  | _ => cases hAction

theorem run (h : s.Account engine sel calls) {actions : List Action}
    (hActions : ∀ action ∈ actions, action.ThroughTasks) :
    (s.after actions).Account engine (sel ++ selections actions)
      (calls ++ s.calls actions) := by
  induction actions generalizing sel calls s with
  | nil =>
    rw [selections, List.filterMap_nil, calls_nil, List.append_nil, List.append_nil]
    exact h
  | cons action actions ih =>
    obtain ⟨hAction, hActions⟩ := List.forall_mem_cons.1 hActions
    rw [selections_cons, calls_cons, ← List.append_assoc, ← List.append_assoc]
    exact ih (h.act hAction) hActions

theorem arm (engine : Engine) (screen : Framebuffer) :
    (arm engine screen).Account engine [] [] where
  reads := ⟨[], [], rfl, by simp, .idle rfl rfl rfl⟩
  matched := .nil
  selected := by simp
  others := by simp [Session.arm]
  fresh := by simp [Session.arm]
  length := rfl

theorem after_arm (engine : Engine) (screen : Framebuffer) {actions : List Action}
    (hActions : ∀ action ∈ actions, action.ThroughTasks) :
    ((Session.arm engine screen).after actions).Account engine (selections actions)
      ((Session.arm engine screen).calls actions) :=
  (arm engine screen).run hActions

end Account

end Session

end Chip8Launcher
