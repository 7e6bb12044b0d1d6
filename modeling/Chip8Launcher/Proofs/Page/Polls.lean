import Chip8Launcher.Proofs.Loader.Stages
import Chip8Launcher.Proofs.Page.Calm

/-!
# Polls of a page with one loader

A page on which one loader was armed has one listener.  A poll of any of its tasks is calm, or it
is the one that hides the input and gives control to the engine (`poll_cases`).

A task carries with it what it handles: the files of its selection until its first poll, and the
read of the first of them from then on (`Phase.Handles`).
-/

namespace Chip8Launcher.Page

/-! ### What tasks handle -/

/-- A task of this phase handles a selection of `files`. -/
def Phase.Handles (reads : List Read) (files : List File) : Phase → Prop
  | .fresh selected => selected = files
  | .reading read => ∃ file rest settled, files = file :: rest ∧ reads[read]? = some ⟨file, settled⟩
  | .ended => True

/-- A read keeps its file. -/
def SameFiles (reads reads' : List Read) : Prop :=
  ∀ (read : Nat) (file : File) (settled : Bool), reads[read]? = some ⟨file, settled⟩ →
    ∃ settled', reads'[read]? = some ⟨file, settled'⟩

theorem Phase.Handles.mono {reads reads' : List Read} (hReads : SameFiles reads reads')
    {files : List File} {phase : Phase} (h : phase.Handles reads files) :
    phase.Handles reads' files := by
  cases phase with
  | fresh selected => exact h
  | reading read =>
    obtain ⟨file, rest, settled, hFiles, hRead⟩ := h
    obtain ⟨settled', hRead'⟩ := hReads read file settled hRead
    exact ⟨file, rest, settled', hFiles, hRead'⟩
  | ended => trivial

theorem sameFiles_append (reads new : List Read) : SameFiles reads (reads ++ new) := by
  intro read file settled hRead
  exact ⟨settled, by rw [List.getElem?_append_left (List.getElem?_eq_some_iff.1 hRead).1, hRead]⟩

theorem sameFiles_settle (page : Page) (read : Nat) :
    SameFiles page.reads (page.settle read).1.reads := by
  intro other file settled hOther
  unfold settle
  split
  next r hRead =>
    split
    · exact ⟨settled, hOther⟩
    · by_cases hEq : other = read
      · subst hEq
        cases hRead.symm.trans hOther
        exact ⟨true, List.getElem?_set_self (List.getElem?_eq_some_iff.1 hRead).1⟩
      · exact ⟨settled, (List.getElem?_set_ne (Ne.symm hEq)).trans hOther⟩
  next => exact ⟨settled, hOther⟩

/-- There are no new tasks, and every task still handles what it handled. -/
def Keeps (page next : Page) : Prop :=
  ∀ (k : Nat) (task : Task), next.tasks[k]? = some task →
    ∃ old, page.tasks[k]? = some old ∧
      ∀ files, old.phase.Handles page.reads files → task.phase.Handles next.reads files

namespace Keeps

variable {page next last : Page}

theorem of_reads (hTasks : next.tasks = page.tasks) (hReads : SameFiles page.reads next.reads) :
    Keeps page next := by
  intro k task hTask
  exact ⟨task, hTasks ▸ hTask, fun files hFiles => hFiles.mono hReads⟩

theorem of_eq (hTasks : next.tasks = page.tasks) (hReads : next.reads = page.reads) :
    Keeps page next :=
  .of_reads hTasks fun _ _ settled hRead => ⟨settled, hReads ▸ hRead⟩

theorem refl (page : Page) : Keeps page page := .of_eq rfl rfl

theorem trans (h : Keeps page next) (h' : Keeps next last) : Keeps page last := by
  intro k task hTask
  obtain ⟨middle, hMiddle, hTo⟩ := h' k task hTask
  obtain ⟨old, hOld, hFrom⟩ := h k middle hMiddle
  exact ⟨old, hOld, fun files hFiles => hTo files (hFrom files hFiles)⟩

/-- One task goes on to another phase. -/
theorem of_set {k : Nat} {old new : Task} (hOld : page.tasks[k]? = some old)
    (hTasks : next.tasks = page.tasks.set k new) (hReads : next.reads = page.reads)
    (hHandles : ∀ files, old.phase.Handles page.reads files → new.phase.Handles page.reads files) :
    Keeps page next := by
  intro other task hTask
  rw [hTasks] at hTask
  rw [hReads]
  by_cases hEq : other = k
  · subst hEq
    rw [List.getElem?_set_self (List.getElem?_eq_some_iff.1 hOld).1] at hTask
    cases hTask
    exact ⟨old, hOld, hHandles⟩
  · rw [List.getElem?_set_ne (Ne.symm hEq)] at hTask
    exact ⟨task, hTask, fun _ => id⟩

end Keeps

theorem endTask_listeners (page : Page) (k place : Nat) (result : Except LoadError Unit) :
    (page.endTask k place result).listeners = page.listeners := by
  unfold endTask
  cases result <;> rfl

theorem endTask_reads (page : Page) (k place : Nat) (result : Except LoadError Unit) :
    (page.endTask k place result).reads = page.reads := by
  unfold endTask
  cases result <;> rfl

theorem note_reads (page : Page) (entry : Log.Entry) : (page.note entry).reads = page.reads := by
  obtain ⟨log, hLog⟩ := page.note_eq entry
  rw [hLog]

theorem hideInput_reads (page : Page) (place : Nat) :
    (page.hideInput place).reads = page.reads := by
  unfold hideInput
  split <;> rfl

/-- A task that has ended handles nothing any more. -/
theorem Keeps.endTask {page : Page} {k : Nat} {old : Task} (hOld : page.tasks[k]? = some old)
    (place : Nat) (result : Except LoadError Unit) : Keeps page (page.endTask k place result) :=
  .of_set hOld (endTask_tasks page k place result) (endTask_reads page k place result)
    fun _ _ => trivial

/-! ### The page that an engine finds -/

/-- Between two moments the input at the place, of that id, was hidden and disabled, and all else
was calm. -/
structure Hidden (place : Nat) (id : String) (page found : Page) : Prop where
  canvas : ∀ q, found.canvas? q = page.canvas? q
  shown : found.face? place = some (id, true, true)
  others : ∀ q, q ≠ place → found.face? q = page.face? q
  effects : ∃ early, found.effects = page.effects ++ early ++ [.hidden id, .disabled id] ∧
    ∀ effect ∈ early, effect.IsQuiet

theorem Hidden.of_hideInput {page before : Page} {place : Nat} {id : String}
    {hidden disabled : Bool} (hFace : page.face? place = some (id, hidden, disabled))
    (hCalm : Calm page before) (entry : Log.Entry) :
    Hidden place id page ((before.hideInput place).note entry) := by
  obtain ⟨hShown, hOthers, hCanvas, hEffects⟩ := hideInput_eq ((hCalm.face place).trans hFace)
  obtain ⟨early, hEarly, hQuiet⟩ := hCalm.effects
  obtain ⟨log, hLog⟩ := (before.hideInput place).note_eq entry
  rw [hLog]
  refine ⟨fun q => (hCanvas q).trans (hCalm.canvas q), hShown,
    fun q hNe => (hOthers q hNe).trans (hCalm.face q), early, ?_, hQuiet⟩
  rw [← hEarly]
  exact hEffects

theorem Hidden.of_calm {page before found : Page} {place : Nat} {id : String}
    (hCalm : Calm page before) (h : Hidden place id before found) : Hidden place id page found := by
  obtain ⟨early, hEarly, hQuiet⟩ := hCalm.effects
  obtain ⟨late, hLate, hQuiet'⟩ := h.effects
  refine ⟨fun q => (h.canvas q).trans (hCalm.canvas q), h.shown,
    fun q hNe => (h.others q hNe).trans (hCalm.face q), early ++ late, ?_,
    List.forall_mem_append.2 ⟨hQuiet, hQuiet'⟩⟩
  rw [hLate, hEarly, List.append_assoc page.effects]

/-! ### Deliveries and polls -/

/-- The page has one listener, whose loader is at the stage. -/
def Serves (engine : Function) (place : Nat) (stage : Stage) (page : Page) : Prop :=
  page.listeners = [⟨.atStage engine stage, place⟩]

variable {engine : Function} {place k : Nat} {stage : Stage} {page : Page} {id : String}
  {hidden disabled : Bool}

theorem Serves.eq_of_getElem? (h : page.Serves engine place stage) {heard : Nat}
    {listener : Listener} (hListener : page.listeners[heard]? = some listener) :
    heard = 0 ∧ ⟨.atStage engine stage, place⟩ = listener := by
  rw [Serves] at h
  rw [h, List.getElem?_singleton] at hListener
  split at hListener
  next hZero => exact ⟨hZero, Option.some.inj hListener⟩
  next => cases hListener

/-- The loader goes to another stage and something is logged. -/
theorem Serves.setLoader (h : page.Serves engine place stage) (stage' : Stage)
    (entries : List Log.Entry) :
    let next := (page.setLoader 0 ⟨.atStage engine stage, place⟩ (.atStage engine stage')).noteAll
      entries
    next.Serves engine place stage' ∧ Calm page next ∧ next.tasks = page.tasks ∧
      next.reads = page.reads := by
  intro next
  obtain ⟨log, hLog⟩ := noteAll_eq
    (page.setLoader 0 ⟨.atStage engine stage, place⟩ (.atStage engine stage')) entries
  simp only [next, hLog]
  refine ⟨?_, .of_eq rfl rfl, rfl, rfl⟩
  rw [Serves] at h ⊢
  rw [Page.setLoader, h]
  rfl

/-- A step that calls no engine: the loader is spent after it only if it was spent before. -/
def Passes (engine : Function) (place : Nat) (stage : Stage) (page next : Page) : Prop :=
  ∃ stage', (stage' = .spent ↔ stage = .spent) ∧ next.Serves engine place stage' ∧
    Calm page next ∧ Keeps page next

/-- Task `k`, which handles a selection that `file` is the first of, gives control to the engine
with the bytes of the file, whose read has come to its end.  The engine finds the page as `found`,
and the task ends with it. -/
structure Launches (engine : Function) (place : Nat) (id : String) (k : Nat) (page next : Page)
    (file : File) (bytes : List UInt8) (found : Page) : Prop where
  handles : ∃ task, page.tasks[k]? = some task ∧
    ∀ files, task.phase.Handles page.reads files → ∃ rest, files = file :: rest
  content : file.content = .ok bytes
  settled : ∃ read, found.settled? read = some file
  hidden : Hidden place id page found
  serves : found.Serves engine place .spent
  next : next = (engine.call bytes found).1.endTask k 0
    ((engine.call bytes found).2.mapError .engine)

/-- What comes of the delivery of a file. -/
theorem deliver_cases (h : page.Serves engine place stage)
    (hFace : page.face? place = some (id, hidden, disabled)) (file : File) :
    let delivered := page.deliver 0 ⟨.atStage engine stage, place⟩ file
    (∃ e, delivered.2 = .error e ∧ ∃ stage', (stage' = .spent ↔ stage = .spent) ∧
        delivered.1.Serves engine place stage' ∧ Calm page delivered.1 ∧
        delivered.1.tasks = page.tasks ∧ delivered.1.reads = page.reads) ∨
      ∃ bytes found, file.content = .ok bytes ∧ stage ≠ .spent ∧ Hidden place id page found ∧
        found.Serves engine place .spent ∧ found.reads = page.reads ∧
        delivered =
          ((engine.call bytes found).1, (engine.call bytes found).2.mapError .engine) := by
  intro delivered
  cases stage with
  | waiting =>
    exact .inl ⟨.noReadInFlight, rfl, .waiting, Iff.rfl, h.setLoader .waiting []⟩
  | spent =>
    exact .inl ⟨.noReadInFlight, rfl, .spent, Iff.rfl, h.setLoader .spent []⟩
  | reading =>
    cases hContent : file.content with
    | error value =>
      have hRead : file.read = .error ⟨file.name, value.describe⟩ := by rw [File.read, hContent]
      have hDelivered : delivered =
          ((page.setLoader 0 ⟨.atStage engine .reading, place⟩ (.atStage engine .waiting)).noteAll
            [.error (ReadError.message ⟨file.name, value.describe⟩)],
            .error (.read ⟨file.name, value.describe⟩)) := by
        simp only [delivered, deliver, hRead, Loader.deliver_reading_error, Delivery.result,
          Delivery.entries]
      rw [hDelivered]
      exact .inl ⟨_, rfl, .waiting, by decide, h.setLoader .waiting _⟩
    | ok bytes =>
      have hRead : file.read = .ok bytes := by rw [File.read, hContent]
      obtain ⟨hServes, hCalm, -, hReads⟩ := h.setLoader .spent
        (Delivery.entries (.released (⟨⟨bytes⟩, engine⟩ : Handoff Function)))
      refine .inr ⟨bytes, _, rfl, by decide, .of_hideInput hFace hCalm
        (Handoff.entry ⟨⟨bytes⟩, engine⟩), ?_, ?_, ?_⟩
      · rw [Serves, (SameQueue.note _ _).listeners, hideInput_listeners]
        exact hServes
      · rw [note_reads, hideInput_reads]
        exact hReads
      · simp only [delivered, deliver, hRead, Loader.deliver_reading_ok, Delivery.result, launch]

/-- A poll of a task whose read has begun; its task may still be marked as before. -/
theorem advance_cases (h : page.Serves engine place stage)
    (hFace : page.face? place = some (id, hidden, disabled)) {old : Task} {read : Nat}
    (hOld : page.tasks[k]? = some old)
    (hRead : ∀ files, old.phase.Handles page.reads files →
      Phase.Handles page.reads files (.reading read)) :
    let next := (page.advance k 0 ⟨.atStage engine stage, place⟩ read).1
    page.Passes engine place stage next ∨
      stage ≠ .spent ∧
        ∃ file bytes found, Launches engine place id k page next file bytes found := by
  intro next
  cases hSettled : page.settled? read with
  | none =>
    have hNext : next = page.setTask k ⟨0, .reading read⟩ := by
      simp only [next, advance, hSettled]
    rw [hNext]
    exact .inl ⟨stage, Iff.rfl, h, .setTask page k _, .of_set hOld rfl rfl hRead⟩
  | some file =>
    have hNext : next = (page.deliver 0 ⟨.atStage engine stage, place⟩ file).1.endTask k 0
        (page.deliver 0 ⟨.atStage engine stage, place⟩ file).2 := by
      simp only [next, advance, hSettled]
    rw [hNext]
    rcases deliver_cases h hFace file with ⟨e, -, stage', hStage, hServes, hCalm, hTasks, hReads⟩ |
      ⟨bytes, found, hContent, hStage, hHidden, hServes, hReads, hDelivered⟩
    · refine .inl ⟨stage', hStage, ?_, hCalm.trans (.endTask _ k 0 _), ?_⟩
      · rw [Serves, endTask_listeners]
        exact hServes
      · exact (Keeps.of_eq hTasks hReads).trans (.endTask (hTasks ▸ hOld) 0 _)
    · refine .inr ⟨hStage, file, bytes, found, ⟨old, hOld, ?_⟩, hContent, ⟨read, ?_⟩, hHidden,
        hServes, ?_⟩
      · intro files hFiles
        obtain ⟨other, rest, settled, rfl, hOther⟩ := hRead files hFiles
        unfold settled? at hSettled
        rw [hOther] at hSettled
        split at hSettled
        next r hr =>
          obtain rfl := Option.some.inj hr
          split at hSettled
          · obtain rfl := Option.some.inj hSettled
            exact ⟨rest, rfl⟩
          · cases hSettled
        next => cases hSettled
      · rw [settled?, hReads]
        exact hSettled
      · rw [hDelivered]

theorem Passes.refl (h : page.Serves engine place stage) :
    page.Passes engine place stage page :=
  ⟨stage, Iff.rfl, h, .refl page, .refl page⟩

/-- A selection that is ignored: nothing is picked. -/
theorem begin_of_ignored (h : page.Serves engine place stage) {old : Task} {files : List File}
    (hOld : page.tasks[k]? = some old)
    (hPick : ((Loader.atStage engine stage).pick files).2.file? = none) :
    page.Passes engine place stage (page.begin k 0 ⟨.atStage engine stage, place⟩ files).1 := by
  obtain ⟨hServes, hCalm, hTasks, hReads⟩ :=
    h.setLoader stage [((Loader.atStage engine stage).pick files).2.entry]
  simp only [begin, hPick, Loader.pick_of_file?_eq_none hPick]
  refine ⟨stage, Iff.rfl, ?_, hCalm.trans (.endTask _ k 0 _), ?_⟩
  · rw [Serves, endTask_listeners]
    exact hServes
  · exact (Keeps.of_eq hTasks hReads).trans (.endTask (hTasks ▸ hOld) 0 _)

/-- A selection whose first file a waiting loader picks. -/
theorem begin_cases (h : page.Serves engine place .waiting)
    (hFace : page.face? place = some (id, hidden, disabled)) {old : Task} {file : File}
    {rest : List File} (hOld : page.tasks[k]? = some old)
    (hFresh : old.phase = .fresh (file :: rest)) :
    let next := (page.begin k 0 ⟨.atStage engine .waiting, place⟩ (file :: rest)).1
    page.Passes engine place .waiting next ∨
      ∃ first bytes found, Launches engine place id k page next first bytes found := by
  intro next
  obtain ⟨hServes, hCalm, hTasks, hReads⟩ :=
    h.setLoader .reading [(Selection.picked file).entry]
  -- the page on which the read has begun, and the task is still marked as fresh
  let begun := ((page.setLoader 0 ⟨.atStage engine .waiting, place⟩
    (.atStage engine .reading)).noteAll [(Selection.picked file).entry]).beginRead file
  have hNext : next = (begun.1.advance k 0 ⟨.atStage engine .reading, place⟩ begun.2).1 := rfl
  have hCalm : Calm page begun.1 := hCalm.trans (.beginRead _ file)
  have hBegunReads : begun.1.reads = page.reads ++ [⟨file, !file.slow⟩] :=
    congrArg (· ++ [_]) hReads
  have hSame : SameFiles page.reads begun.1.reads := hBegunReads ▸ sameFiles_append page.reads _
  have hRead : begun.1.reads[begun.2]? = some ⟨file, !file.slow⟩ := by
    rw [hBegunReads, show begun.2 = page.reads.length from congrArg _ hReads]
    exact List.getElem?_concat_length
  have hKeeps : Keeps page begun.1 := .of_reads hTasks hSame
  have hHandles : ∀ files, old.phase.Handles begun.1.reads files →
      Phase.Handles begun.1.reads files (.reading begun.2) := by
    rw [hFresh]
    rintro files rfl
    exact ⟨file, rest, _, rfl, hRead⟩
  rw [hNext]
  have hBegunServes : begun.1.Serves engine place .reading := hServes
  rcases advance_cases hBegunServes ((hCalm.face place).trans hFace) (hTasks.symm ▸ hOld)
      hHandles with
    ⟨stage', hStage, hServes', hCalm', hKeeps'⟩ | ⟨-, first, bytes, found, hLaunch⟩
  · exact .inl ⟨stage', hStage.trans (by decide), hServes', hCalm.trans hCalm',
      hKeeps.trans hKeeps'⟩
  · obtain ⟨task, hTask, hFirst⟩ := hLaunch.handles
    refine .inr ⟨first, bytes, found, ⟨task, hTasks ▸ hTask, ?_⟩, hLaunch.content,
      hLaunch.settled, hLaunch.hidden.of_calm hCalm, hLaunch.serves, hLaunch.next⟩
    exact fun files hFiles => hFirst files (hFiles.mono hSame)

/-- A poll is calm, or it launches. -/
theorem poll_cases (h : page.Serves engine place stage)
    (hFace : page.face? place = some (id, hidden, disabled)) (k : Nat) :
    page.Passes engine place stage (page.poll k).1 ∨
      stage ≠ .spent ∧
        ∃ file bytes found, Launches engine place id k page (page.poll k).1 file bytes found := by
  cases hTask : page.tasks[k]? with
  | none =>
    rw [poll, hTask]
    exact .inl (.refl h)
  | some task =>
    obtain ⟨heard, phase⟩ := task
    simp only [poll, hTask]
    split
    next _ _ _ files hListener =>
      obtain ⟨rfl, rfl⟩ := h.eq_of_getElem? hListener
      cases stage with
      | waiting =>
        cases files with
        | nil => exact .inl (begin_of_ignored h hTask rfl)
        | cons file rest =>
          rcases begin_cases h hFace hTask rfl with hPasses | hLaunch
          · exact .inl hPasses
          · exact .inr ⟨by decide, hLaunch⟩
      | reading => exact .inl (begin_of_ignored h hTask rfl)
      | spent => exact .inl (begin_of_ignored h hTask rfl)
    next _ _ _ read hListener =>
      obtain ⟨rfl, rfl⟩ := h.eq_of_getElem? hListener
      exact advance_cases h hFace hTask fun _ hFiles => hFiles
    next => exact .inl (.refl h)

/-- The loader is spent once the engine has control, and what the engine does is calm. -/
theorem Launches.calm {name : String} {throws : Option Value} {steps : List Step} {next : Page}
    {file : File} {bytes : List UInt8} {found : Page} (hSteps : ∀ step ∈ steps, step.IsHost)
    (h : Launches (.mk name throws steps) place id k page next file bytes found) :
    Calm (found.emit (.called name bytes)) next ∧
      next.Serves (.mk name throws steps) place .spent := by
  obtain ⟨hCalm, hListeners⟩ := Calm.performInside (found.emit (.called name bytes)) hSteps
  rw [h.next, Function.call]
  refine ⟨hCalm.trans (.endTask _ k 0 _), ?_⟩
  rw [Serves, endTask_listeners, hListeners]
  exact h.serves

end Chip8Launcher.Page
