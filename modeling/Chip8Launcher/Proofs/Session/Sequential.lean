import Chip8Launcher.Proofs.Session.FirstPolls

/-!
# Sequential sessions

A session through tasks comes to the same as one in which only the selections that were read are
handled, one after the other and each without interruption.  `sequential` is the schedule of that
second session, made from what the first one has read: all other tasks are left out, every task
goes on to its end, and a last one that had not ended goes as far as it got.

* `after_polls` tells what a task comes to that is polled alone.
* `after_sequential_failures` follows the reads that have failed, one by one.
* `Account.sameOutcome` joins them with the account of the first session.
-/

namespace Chip8Launcher

/-- The steps of a task that is alone and reads the file, up to the phase. -/
def Phase.steps (task : Nat) (file : File) : Phase → List Action
  | .reading _ left => .replicate (file.delay - left) (.poll task)
  | .launching => .replicate (file.delay + 1) (.poll task)
  | .ended _ => .replicate (file.delay + 1) (.poll task) ++ [.finish]
  | _ => []

namespace Session

/-- The steps of a read in a session of its own number, as far as it got in the session `s`. -/
def readSteps (s : Session) (selections : List (List File)) (task : Nat) (read : Nat × File) :
    List Action :=
  .spawn (selectionOf selections read.1) ::
    (s.tasks[read.1]?).elim [] (Phase.steps task read.2)

/-- The reads one after the other.  Tasks are numbered as they come, from `first` on. -/
def sequential (s : Session) (selections : List (List File)) (first : Nat) :
    List (Nat × File) → List Action
  | [] => []
  | read :: reads => s.readSteps selections first read ++ s.sequential selections (first + 1) reads

/-- The reads of a sequential session, whose tasks are numbered as they come. -/
def renumbered (first : Nat) : List (Nat × File) → List (Nat × File)
  | [] => []
  | read :: reads => (first, read.2) :: renumbered (first + 1) reads

variable {engine : Engine} {calls : List Call} {sel : List (List File)} {s t : Session}
  {task : Nat} {file : File}

theorem sequential_append (s : Session) (sel : List (List File)) (first : Nat)
    (reads later : List (Nat × File)) :
    s.sequential sel first (reads ++ later) =
      s.sequential sel first reads ++ s.sequential sel (first + reads.length) later := by
  induction reads generalizing first with
  | nil => rfl
  | cons read reads ih =>
    rw [List.cons_append, sequential, sequential, ih, List.append_assoc, List.length_cons,
      Nat.add_right_comm, Nat.add_assoc]

theorem renumbered_append (first : Nat) (reads later : List (Nat × File)) :
    renumbered first (reads ++ later) =
      renumbered first reads ++ renumbered (first + reads.length) later := by
  induction reads generalizing first with
  | nil => rfl
  | cons read reads ih =>
    rw [List.cons_append, renumbered, renumbered, ih, List.cons_append, List.length_cons,
      Nat.add_right_comm, Nat.add_assoc]

/-! ### A task alone -/

/-- A last task is added, whose read is in flight. -/
def withRead (s : Session) (engine : Engine) (file : File) (left : Nat) : Session :=
  { s with loader := .atStage engine .reading, tasks := s.tasks ++ [.reading file left] }

theorem withRead_task (s : Session) (engine : Engine) (file : File) (left : Nat) :
    (s.withRead engine file left).tasks[s.tasks.length]? = some (.reading file left) :=
  List.getElem?_concat_length

theorem set_concat (tasks : List Phase) (old phase : Phase) :
    (tasks ++ [old]).set tasks.length phase = tasks ++ [phase] := by
  rw [List.set_append_right _ _ (Nat.le_refl _), Nat.sub_self, List.set_cons_zero]

/-- A first poll does what a poll does whose read has just begun. -/
theorem poll_spawned (hLoader : s.loader = .atStage engine .waiting) (file : File)
    (rest : List File) :
    let spawned := { s with tasks := s.tasks ++ [Phase.fresh (file :: rest)] }
    let begun := s.withRead engine file file.delay
    (spawned.poll s.tasks.length).1 = (begun.poll s.tasks.length).1 ∧
      (spawned.poll s.tasks.length).2.calls =
        ⟨some s.tasks.length, .picked (.picked file)⟩ :: (begun.poll s.tasks.length).2.calls := by
  intro spawned begun
  have hFresh : spawned.tasks[s.tasks.length]? = some (.fresh (file :: rest)) :=
    List.getElem?_concat_length
  have hBegun : begun = { spawned with loader := .atStage engine .reading }.setTask s.tasks.length
      (.reading file file.delay) := by
    rw [setTask, set_concat]
    rfl
  rw [poll, hFresh, poll, s.withRead_task, hBegun]
  simp only [begin, hLoader, spawned, Loader.pick_waiting, Selection.file?, advance_setTask,
    and_self]

theorem poll_withRead_succ (s : Session) (engine : Engine) (file : File) (left : Nat) :
    ((s.withRead engine file (left + 1)).poll s.tasks.length).1 = s.withRead engine file left := by
  rw [poll, withRead_task]
  simp only [advance, setTask, withRead, set_concat]

theorem poll_withRead_error {reason : String} (hContent : file.content = .error reason) :
    ((s.withRead engine file 0).poll s.tasks.length).1 =
      { s with
        loader := .atStage engine .waiting,
        tasks := s.tasks ++ [.ended (.error (.read ⟨file.name, reason⟩))] } := by
  have hRead : file.read = .error ⟨file.name, reason⟩ := by rw [File.read, hContent]
  rw [poll, withRead_task]
  simp only [advance, complete, withRead, hRead, Loader.deliver_reading_error, Delivery.result,
    setTask, set_concat]

theorem poll_withRead_ok {bytes : List UInt8} (hContent : file.content = .ok bytes) :
    ((s.withRead engine file 0).poll s.tasks.length).1 =
      { s with
        loader := .atStage engine .spent, tasks := s.tasks ++ [.launching],
        running := ⟨some s.tasks.length, ⟨⟨bytes⟩, engine⟩⟩ :: s.running } := by
  have hRead : file.read = .ok bytes := by rw [File.read, hContent]
  rw [poll, withRead_task]
  simp only [advance, complete, withRead, hRead, Loader.deliver_reading_ok, Delivery.result,
    enter, setTask, set_concat]

theorem after_polls_withRead {n : Nat} (s : Session) (engine : Engine) (hn : n ≤ file.delay) :
    (s.withRead engine file file.delay).after (.replicate n (.poll s.tasks.length)) =
      s.withRead engine file (file.delay - n) := by
  induction n with
  | zero => rfl
  | succ n ih =>
    have hLeft : file.delay - n = file.delay - (n + 1) + 1 := by omega
    rw [List.replicate_succ', after_append, ih (by omega), hLeft, after_cons, after_nil]
    exact poll_withRead_succ s engine file (file.delay - (n + 1))

theorem begun_polls {n : Nat} (hNotFresh : ∀ files, s.tasks[task]? ≠ some (.fresh files)) :
    begun (s.calls (.replicate n (.poll task))) = [] := by
  induction n generalizing s with
  | zero => rfl
  | succ n ih =>
    have hMoves := poll_moves s task
    have hHere : begun (s.act (.poll task)).2.calls = [] := hMoves.begun_eq_nil hNotFresh
    rw [List.replicate_succ, calls_cons, begun_append, hHere, List.nil_append]
    exact ih (hMoves.not_fresh hNotFresh)

/-- A task alone, from its creation through its first polls. -/
theorem after_polls {n : Nat} (hLoader : s.loader = .atStage engine .waiting) (file : File)
    (rest : List File) :
    s.after (.spawn (file :: rest) :: .replicate (n + 1) (.poll s.tasks.length)) =
      (s.withRead engine file file.delay).after (.replicate (n + 1) (.poll s.tasks.length)) ∧
    begun (s.calls (.spawn (file :: rest) :: .replicate (n + 1) (.poll s.tasks.length))) =
      [(s.tasks.length, file)] := by
  obtain ⟨hPoll, hCalls⟩ := poll_spawned hLoader file rest
  have hNotFresh : ∀ files, (s.withRead engine file file.delay).tasks[s.tasks.length]? ≠
      some (.fresh files) := by
    intro files
    rw [withRead_task]
    simp
  have hBegun := begun_polls (n := n + 1) hNotFresh
  rw [List.replicate_succ, calls_cons, begun_append] at hBegun
  rw [List.replicate_succ]
  constructor
  · rw [after_cons, after_cons, after_cons]
    exact congrArg (Session.after · _) hPoll
  · have hSpawned : s.act (.spawn (file :: rest)) =
        ({ s with tasks := s.tasks ++ [.fresh (file :: rest)] },
          ⟨.pending s.tasks.length, [], []⟩) := rfl
    rw [calls_cons, calls_cons, begun_append, begun_append, hSpawned, act, hPoll, hCalls]
    exact congrArg ((s.tasks.length, file) :: ·) hBegun

/-- The poll that finds nothing left of the delay. -/
theorem after_last_poll (s : Session) (engine : Engine) (file : File) :
    (s.withRead engine file file.delay).after
        (.replicate (file.delay + 1) (.poll s.tasks.length)) =
      ((s.withRead engine file 0).poll s.tasks.length).1 := by
  rw [List.replicate_succ', after_append, after_polls_withRead s engine (Nat.le_refl _),
    Nat.sub_self]
  rfl

theorem after_finish_idle (hRunning : s.running = []) : s.after [.finish] = s :=
  congrArg Prod.fst (finish_of_idle hRunning)

theorem calls_finish (s : Session) : s.calls [.finish] = [] := by
  rw [calls_cons, act, finish_calls]
  rfl

theorem after_launching (hLoader : s.loader = .atStage engine .waiting) (rest : List File)
    {bytes : List UInt8} (hContent : file.content = .ok bytes) :
    s.after (.spawn (file :: rest) :: .replicate (file.delay + 1) (.poll s.tasks.length)) =
      { s with
        loader := .atStage engine .spent, tasks := s.tasks ++ [.launching],
        running := ⟨some s.tasks.length, ⟨⟨bytes⟩, engine⟩⟩ :: s.running } := by
  rw [(after_polls hLoader file rest).1, after_last_poll, poll_withRead_ok hContent]

theorem after_loaded (hLoader : s.loader = .atStage engine .waiting) (hRunning : s.running = [])
    (rest : List File) {bytes : List UInt8} (hContent : file.content = .ok bytes) :
    s.after (.spawn (file :: rest) :: .replicate (file.delay + 1) (.poll s.tasks.length) ++
        [.finish]) =
      { s with
        loader := .atStage engine .spent, tasks := s.tasks ++ [.ended engine.outcome],
        running := [], received := s.received ++ [⟨bytes⟩] } := by
  rw [after_append, after_launching hLoader rest hContent, after_cons, after_nil, act,
    finish_of_running (congrArg (_ :: ·) hRunning), setTask, set_concat]

/-! ### Reads that have failed -/

/-- The read is of the first file of its task's selection. -/
def FirstSelected (selections : List (List File)) (read : Nat × File) : Prop :=
  ∃ rest, selections[read.1]? = some (read.2 :: rest)

theorem after_readSteps_failed {base : Session} (hLoader : base.loader = .atStage engine .waiting)
    (hRunning : base.running = []) {read : Nat × File} (hFailed : s.Failed read.1 read.2)
    (hSelected : FirstSelected sel read) :
    let steps := s.readSteps sel base.tasks.length read
    ∃ phase, s.tasks[read.1]? = some phase ∧
      base.after steps = { base with tasks := base.tasks ++ [phase] } ∧
      begun (base.calls steps) = [(base.tasks.length, read.2)] := by
  intro steps
  obtain ⟨reason, hContent, hEnded⟩ := hFailed
  obtain ⟨rest, hRest⟩ := hSelected
  have hSteps : steps = .spawn (read.2 :: rest) ::
      .replicate (read.2.delay + 1) (.poll base.tasks.length) ++ [.finish] := by
    simp only [steps, readSteps, hEnded, selectionOf_of_getElem? hRest, Option.elim_some,
      Phase.steps, List.cons_append]
  obtain ⟨hAfter, hBegun⟩ := after_polls (n := read.2.delay) hLoader read.2 rest
  rw [after_last_poll, poll_withRead_error hContent, ← hLoader] at hAfter
  refine ⟨_, hEnded, ?_, ?_⟩
  · rw [hSteps, after_append, hAfter]
    exact after_finish_idle hRunning
  · rw [hSteps, calls_append, begun_append, hBegun, calls_finish]
    rfl

theorem after_sequential_failures {failures : List (Nat × File)}
    (hFailed : ∀ read ∈ failures, s.Failed read.1 read.2)
    (hSelected : ∀ read ∈ failures, FirstSelected sel read) {base : Session}
    (hLoader : base.loader = .atStage engine .waiting) (hRunning : base.running = []) :
    let steps := s.sequential sel base.tasks.length failures
    ∃ phases, phases.map some = failures.map (s.tasks[·.1]?) ∧
      base.after steps = { base with tasks := base.tasks ++ phases } ∧
      begun (base.calls steps) = renumbered base.tasks.length failures := by
  induction failures generalizing base with
  | nil => exact ⟨[], rfl, by simp [sequential], rfl⟩
  | cons read failures ih =>
    obtain ⟨hRead, hFailed⟩ := List.forall_mem_cons.1 hFailed
    obtain ⟨hFirst, hSelected⟩ := List.forall_mem_cons.1 hSelected
    obtain ⟨phase, hPhase, hAfter, hBegun⟩ :=
      after_readSteps_failed hLoader hRunning hRead hFirst
    let next : Session := { base with tasks := base.tasks ++ [phase] }
    have hNextLoader : next.loader = .atStage engine .waiting := hLoader
    have hNextRunning : next.running = [] := hRunning
    have hNext := ih hFailed hSelected hNextLoader hNextRunning
    rw [show next.tasks.length = base.tasks.length + 1 from List.length_append] at hNext
    obtain ⟨phases, hPhases, hRest, hBegunRest⟩ := hNext
    refine ⟨phase :: phases, ?_, ?_, ?_⟩
    · rw [List.map_cons, List.map_cons, hPhases, hPhase]
    · rw [sequential, after_append, hAfter, hRest, List.append_assoc, List.singleton_append]
    · rw [sequential, calls_append, begun_append, hBegun, hAfter, hBegunRest]
      rfl

/-! ### The last read -/

/-- A pending read has been polled at least once. -/
def Waits (s : Session) : Prop :=
  ∀ (task : Nat) (file : File) (left : Nat),
    s.tasks[task]? = some (.reading file left) → left < file.delay

theorem Waits.of_setTask (h : s.Waits) {phase : Phase}
    (hTasks : t.tasks = (s.setTask task phase).tasks)
    (hPhase : ∀ file left, phase = .reading file left → left < file.delay) : t.Waits := by
  intro other file left hOther
  rw [hTasks, setTask, List.getElem?_set] at hOther
  split at hOther
  · split at hOther
    · exact hPhase file left (Option.some.inj hOther)
    · cases hOther
  · exact h other file left hOther

/-- A poll of a read that is pending for no more than the delay of its file. -/
theorem Waits.advance (h : s.Waits) {left : Nat} (hLeft : left ≤ file.delay) :
    (s.advance task file left).1.Waits := by
  cases left with
  | zero =>
    rcases hDeliver : s.loader.deliver file.read with ⟨loader, delivery⟩
    cases hResult : delivery.result <;>
      simp only [Session.advance, complete, hDeliver, hResult] <;>
      exact h.of_setTask rfl (by simp)
  | succ left =>
    refine h.of_setTask rfl ?_
    rintro _ _ ⟨⟩
    exact hLeft

theorem Waits.poll (h : s.Waits) (task : Nat) : (s.poll task).1.Waits := by
  rw [Session.poll]
  split
  next files hFresh =>
    rcases hPick : s.loader.pick files with ⟨loader, selection⟩
    cases hFile : selection.file? with
    | none =>
      simp only [begin, hPick, hFile]
      exact h.of_setTask rfl (by simp)
    | some file =>
      simp only [begin, hPick, hFile]
      exact Waits.advance (s := { s with loader := loader }) h (Nat.le_refl _)
  next file left hReading => exact h.advance (Nat.le_of_lt (h task file left hReading))
  next => exact h

theorem Waits.act (h : s.Waits) {action : Action} (hAction : action.ThroughTasks) :
    (s.act action).1.Waits := by
  cases action with
  | spawn files =>
    intro task file left hTask
    rcases getElem?_spawn hTask with hTask | ⟨-, hPhase⟩
    · exact h task file left hTask
    · cases hPhase
  | poll task => exact h.poll task
  | cancel task =>
    rw [Session.act, cancel]
    split
    · exact h.of_setTask rfl (by simp)
    · exact h.of_setTask rfl (by simp)
    · exact h
  | draw fill =>
    simp only [Session.act]
    split <;> exact h
  | finish =>
    rw [Session.act, Session.finish]
    split
    · exact h
    next activation running _ =>
      cases activation.task with
      | none => exact h
      | some task => exact h.of_setTask rfl (by simp)
  | _ => cases hAction

theorem Waits.after (h : s.Waits) {actions : List Action}
    (hActions : ∀ action ∈ actions, action.ThroughTasks) : (s.after actions).Waits := by
  induction actions generalizing s with
  | nil => exact h
  | cons action actions ih =>
    obtain ⟨hAction, hActions⟩ := List.forall_mem_cons.1 hActions
    exact ih (h.act hAction) hActions

/-- The session `t` has come to the same as `s`, in which the reads were begun: its loader, its
record and its engine stand the same, and its tasks are those of the reads. -/
structure SameOutcome (reads : List (Nat × File)) (s t : Session) : Prop where
  loader : t.loader = s.loader
  received : t.received = s.received
  running : t.running.map (·.handoff) = s.running.map (·.handoff)
  tasks : t.tasks.map some = reads.map (s.tasks[·.1]?)

/-- The last read goes as far as it has come. -/
theorem Standing.after_readSteps (h : s.Standing engine calls [(task, file)]) (hWaits : s.Waits)
    (hUncancelled : s.Uncancelled) (hSelected : FirstSelected sel (task, file)) {base : Session}
    (hLoader : base.loader = .atStage engine .waiting) (hRunning : base.running = [])
    (hReceived : base.received = []) :
    let steps := s.readSteps sel base.tasks.length (task, file)
    let t := base.after steps
    t.loader = s.loader ∧ t.received = s.received ∧
      t.running.map (·.handoff) = s.running.map (·.handoff) ∧
      (∃ phase, s.tasks[task]? = some phase ∧ t.tasks = base.tasks ++ [phase]) ∧
      begun (base.calls steps) = [(base.tasks.length, file)] := by
  intro steps t
  obtain ⟨rest, hRest⟩ := hSelected
  have hSteps : ∀ phase, s.tasks[task]? = some phase →
      steps = .spawn (file :: rest) :: phase.steps base.tasks.length file := by
    intro phase hPhase
    simp only [steps, readSteps, hPhase, selectionOf_of_getElem? hRest, Option.elim_some]
  cases h with
  | abandoned _ _ _ _ hTask => exact absurd hTask (hUncancelled task true)
  | @reading _ _ left hLoader' hRunning' hReceived' _ hTask =>
    have hLt := hWaits task file left hTask
    obtain ⟨n, hn⟩ : ∃ n, file.delay - left = n + 1 := ⟨file.delay - left - 1, by omega⟩
    obtain ⟨hAfter, hBegun⟩ := after_polls (n := n) hLoader file rest
    have hLeft : file.delay - (n + 1) = left := by omega
    rw [after_polls_withRead base engine (by omega), hLeft, ← hn] at hAfter
    rw [← hn] at hBegun
    have ht : t = base.withRead engine file left :=
      (congrArg base.after (hSteps _ hTask)).trans hAfter
    rw [ht, hSteps _ hTask, hLoader', hReceived', hRunning']
    exact ⟨rfl, hReceived, congrArg _ hRunning, ⟨_, hTask, rfl⟩, hBegun⟩
  | @launching _ _ bytes hContent hLoader' hRunning' hReceived' hTask =>
    have ht := (congrArg base.after (hSteps _ hTask)).trans (after_launching hLoader rest hContent)
    rw [show t = _ from ht, hSteps _ hTask, hLoader', hReceived', hRunning']
    refine ⟨rfl, hReceived, ?_, ⟨_, hTask, rfl⟩, (after_polls hLoader file rest).2⟩
    rw [hRunning]
    rfl
  | @loaded _ _ bytes hContent hLoader' hRunning' hReceived' hTask =>
    have ht := (congrArg base.after (hSteps _ hTask)).trans
      (after_loaded hLoader hRunning rest hContent)
    rw [show t = _ from ht, hSteps _ hTask, hLoader', hReceived', hRunning', hReceived]
    refine ⟨rfl, rfl, rfl, ⟨_, hTask, rfl⟩, ?_⟩
    show begun (base.calls (.spawn (file :: rest) :: .replicate _ _ ++ [.finish])) = _
    rw [calls_append, begun_append, (after_polls hLoader file rest).2, calls_finish]
    rfl

/-- The sequential session of the reads that an account tells of. -/
theorem Account.sameOutcome (h : s.Account engine sel calls) (hWaits : s.Waits)
    (hUncancelled : s.Uncancelled) {base : Session}
    (hLoader : base.loader = .atStage engine .waiting) (hRunning : base.running = [])
    (hReceived : base.received = []) (hTasks : base.tasks = []) :
    let steps := s.sequential sel base.tasks.length (begun calls)
    SameOutcome (begun calls) s (base.after steps) ∧
      begun (base.calls steps) = renumbered base.tasks.length (begun calls) := by
  intro steps
  obtain ⟨failures, last, hReads, hFailed, hStanding⟩ := h.reads
  have hSelected : ∀ read ∈ failures ++ last, FirstSelected sel read :=
    fun read hRead => h.selected read (hReads ▸ hRead)
  obtain ⟨phases, hPhases, hAfter, hBegun⟩ := after_sequential_failures hFailed
    (fun read hRead => hSelected read (List.mem_append_left _ hRead)) hLoader hRunning
  have hLength : phases.length = failures.length := by
    rw [← List.length_map (f := some), hPhases, List.length_map]
  have hSteps : steps = s.sequential sel base.tasks.length failures ++
      s.sequential sel (base.tasks.length + failures.length) last := by
    rw [← sequential_append, ← hReads]
  rw [hSteps, after_append, calls_append, begun_append, hReads, renumbered_append, hAfter, hBegun]
  cases last with
  | nil =>
    cases hStanding with
    | idle hLoader' hRunning' hReceived' =>
      refine ⟨⟨hLoader.trans hLoader'.symm, hReceived.trans hReceived'.symm, ?_, ?_⟩, rfl⟩
      · rw [hRunning']
        exact congrArg _ hRunning
      · rw [List.append_nil]
        simp only [sequential, after_nil, hTasks, List.nil_append]
        exact hPhases
  | cons read later =>
    obtain rfl : later = [] := (List.cons.inj (hStanding.eq_singleton List.mem_cons_self)).2
    let next : Session := { base with tasks := base.tasks ++ phases }
    have hNextLoader : next.loader = .atStage engine .waiting := hLoader
    have hNextReceived : next.received = [] := hReceived
    have hLast := hStanding.after_readSteps hWaits hUncancelled (hSelected read (by simp))
      hNextLoader hRunning hNextReceived
    rw [show next.tasks.length = base.tasks.length + failures.length from
      hLength ▸ List.length_append] at hLast
    obtain ⟨hLoader', hReceived', hRunning', ⟨phase, hPhase, hTasks'⟩, hBegun'⟩ := hLast
    rw [sequential, sequential, List.append_nil]
    refine ⟨⟨hLoader', hReceived', hRunning', ?_⟩, congrArg _ hBegun'⟩
    rw [hTasks', show next.tasks = base.tasks ++ phases from rfl, hTasks, List.nil_append,
      List.map_append, List.map_append, hPhases, List.map_singleton, List.map_singleton, hPhase]

/-- **Selections that are ignored leave no trace.**  Take a session through tasks, none of which
is cancelled, and the sequential one of its reads: all tasks that were turned away are left out,
and the others come one after the other, in the order in which they began to read, each without
interruption from its first poll to its end, or as far as it got.  The second session begins the
same reads, and it comes to the same loader, the same record and the same result of every task. -/
theorem ignored_selections_leave_no_trace (engine : Engine) (screen : Framebuffer)
    {actions : List Action} (hActions : ∀ action ∈ actions, action.ThroughTasks)
    (hKept : ∀ task, .cancel task ∉ actions) :
    let start := arm engine screen
    let s := start.after actions
    let reads := begun (start.calls actions)
    let steps := s.sequential (selections actions) 0 reads
    SameOutcome reads s (start.after steps) ∧ begun (start.calls steps) = renumbered 0 reads := by
  intro start s reads steps
  have h : s.Account engine (selections actions) (start.calls actions) :=
    .after_arm engine screen hActions
  have hUncancelled : s.Uncancelled :=
    Uncancelled.after (by simp [Uncancelled, start, arm]) hActions hKept
  have hWaits : s.Waits := Waits.after (by simp [Waits, start, arm]) hActions
  have hLoader : start.loader = .atStage engine .waiting := rfl
  exact h.sameOutcome hWaits hUncancelled hLoader rfl rfl rfl

/-- A file that cannot be read, a slow one, and two impatient tasks in between: one is turned away
because of the read in flight, the other has nothing selected. -/
theorem ignored_selections_leave_no_trace_overlapping :
    let engine : Engine := ⟨some "stack overflow"⟩
    let locked : File := ⟨"locked.ch8", .error "NotReadableError", 1⟩
    let pong : File := ⟨"pong.ch8", .ok [0x6a, 0x02], 2⟩
    let actions : List Action :=
      [.spawn [locked], .spawn [], .poll 0, .spawn [pong], .poll 2, .poll 0, .spawn [pong, locked],
        .poll 1, .poll 3, .poll 3]
    let start := arm engine .standard
    let s := start.after actions
    let steps : List Action :=
      [.spawn [locked], .poll 0, .poll 0, .finish, .spawn [pong, locked], .poll 1, .poll 1]
    (∀ action ∈ actions, action.ThroughTasks) ∧ (∀ task, .cancel task ∉ actions) ∧
      s.sequential (selections actions) 0 (begun (start.calls actions)) = steps ∧
      SameOutcome [(0, locked), (3, pong)] s (start.after steps) := by
  intro engine locked pong actions start s steps
  have hActions : ∀ action ∈ actions, action.ThroughTasks := by
    simp [actions, Action.ThroughTasks]
  have hKept : ∀ task, .cancel task ∉ actions := by simp [actions]
  have hTasks : s.tasks =
      [.ended (.error (.read ⟨"locked.ch8", "NotReadableError"⟩)), .ended (.ok ()),
        .ended (.ok ()), .reading pong 0] := rfl
  have hBegun : begun (start.calls actions) = [(0, locked), (3, pong)] := rfl
  have hSteps : s.sequential (selections actions) 0 (begun (start.calls actions)) = steps := by
    rw [hBegun, sequential, sequential, readSteps, readSteps, hTasks]
    rfl
  obtain ⟨hSame, -⟩ := ignored_selections_leave_no_trace engine .standard hActions hKept
  rw [hSteps, hBegun] at hSame
  exact ⟨hActions, hKept, hSteps, hSame⟩

end Session

end Chip8Launcher
