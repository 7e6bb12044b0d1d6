import Chip8Launcher.Proofs.Page.Polls
import Chip8Launcher.Proofs.Page.Start

/-!
# What a poll comes to

Many loaders may listen on one page.  A poll of a task asks for one of them, and `handle` is the
poll as that loader has it: from the loader, the phase of the task and the reads, to the loader and
the phase afterwards, the read that has begun and the call of the engine.  `poll_handled` says that
a poll is no more than this as long as engines take no steps of their own.

Of the elements it is enough to know their natures, which nothing changes.  `Brings` is about what
is left: the reads that were begun and the calls that were made between two moments.
-/

namespace Chip8Launcher

/-- What stays of an element whatever is drawn, selected or hidden. -/
def Element.nature : Element → Element
  | .canvas c => .canvas { c with width := 0, height := 0, fillStyle := "" }
  | .input i => .input { i with hidden := false, disabled := false, files := [] }
  | .other id => .other id

namespace Page

def Function.name : Function → String
  | .mk name _ _ => name

/-- The engine takes no steps on the page. -/
def Function.IsStill : Function → Prop
  | .mk _ _ steps => steps = []

def Effect.call? : Effect → Option (String × List UInt8)
  | .called name bytes => some (name, bytes)
  | _ => none

/-- The calls of engines so far, each with the bytes that were given. -/
def called (page : Page) : List (String × List UInt8) := page.effects.filterMap Effect.call?

def natures (page : Page) : List Element := page.elements.map Element.nature

/-- Nothing differs that a start could look for. -/
structure SameScene (page next : Page) : Prop where
  hasWindow : next.hasWindow = page.hasWindow
  hasDocument : next.hasDocument = page.hasDocument
  natures : next.natures = page.natures

theorem SameScene.refl (page : Page) : SameScene page page := ⟨rfl, rfl, rfl⟩

theorem SameScene.trans {page next last : Page} (h : SameScene page next)
    (h' : SameScene next last) : SameScene page last where
  hasWindow := h'.hasWindow.trans h.hasWindow
  hasDocument := h'.hasDocument.trans h.hasDocument
  natures := h'.natures.trans h.natures

/-- Between two moments these reads were begun and these calls made. -/
structure Brings (page next : Page) (begun : List Read) (calls : List (String × List UInt8)) :
    Prop where
  scene : SameScene page next
  reads : next.reads = page.reads ++ begun
  called : next.called = page.called ++ calls

namespace Brings

variable {page next last : Page} {begun begun' : List Read}
  {calls calls' : List (String × List UInt8)}

theorem of_eq (hWindow : next.hasWindow = page.hasWindow)
    (hDocument : next.hasDocument = page.hasDocument) (hElements : next.elements = page.elements)
    (hReads : next.reads = page.reads) (hEffects : next.effects = page.effects) :
    Brings page next [] [] where
  scene := ⟨hWindow, hDocument, congrArg (List.map Element.nature) hElements⟩
  reads := hReads.trans (List.append_nil _).symm
  called := (congrArg (List.filterMap Effect.call?) hEffects).trans (List.append_nil _).symm

theorem refl (page : Page) : Brings page page [] [] := of_eq rfl rfl rfl rfl rfl

theorem trans (h : Brings page next begun calls) (h' : Brings next last begun' calls') :
    Brings page last (begun ++ begun') (calls ++ calls') where
  scene := h.scene.trans h'.scene
  reads := by rw [h'.reads, h.reads, List.append_assoc]
  called := by rw [h'.called, h.called, List.append_assoc]

/-- Nothing that counts comes after. -/
theorem before (h : Brings page next begun calls) (h' : Brings next last [] []) :
    Brings page last begun calls := by
  have hBoth := h.trans h'
  rwa [List.append_nil, List.append_nil] at hBoth

theorem emit (page : Page) {effect : Effect} (hEffect : effect.call? = none) :
    Brings page (page.emit effect) [] [] := by
  refine ⟨⟨rfl, rfl, rfl⟩, (List.append_nil _).symm, ?_⟩
  simp [Page.called, Page.emit, hEffect]

theorem call (page : Page) (name : String) (bytes : List UInt8) :
    Brings page (page.emit (.called name bytes)) [] [(name, bytes)] := by
  refine ⟨⟨rfl, rfl, rfl⟩, (List.append_nil _).symm, ?_⟩
  simp [Page.called, Page.emit, Effect.call?]

theorem note (page : Page) (entry : Log.Entry) : Brings page (page.note entry) [] [] := by
  obtain ⟨log, hLog⟩ := page.note_eq entry
  rw [hLog]
  exact of_eq rfl rfl rfl rfl rfl

theorem noteAll (page : Page) (entries : List Log.Entry) :
    Brings page (page.noteAll entries) [] [] := by
  obtain ⟨log, hLog⟩ := page.noteAll_eq entries
  rw [hLog]
  exact of_eq rfl rfl rfl rfl rfl

/-- An element goes on by its nature. -/
theorem setElement {place : Nat} {old new : Element} (hOld : page.elements[place]? = some old)
    (hNature : new.nature = old.nature) : Brings page (page.setElement place new) [] [] := by
  refine ⟨⟨rfl, rfl, ?_⟩, (List.append_nil _).symm, (List.append_nil _).symm⟩
  have hNatures : page.natures[place]? = some old.nature := by
    rw [Page.natures, List.getElem?_map, hOld]
    rfl
  obtain ⟨hPlace, hSame⟩ := List.getElem?_eq_some_iff.1 hNatures
  rw [Page.natures, Page.setElement, List.map_set, hNature, ← hSame]
  exact List.set_getElem_self hPlace

theorem hideInput (page : Page) (place : Nat) : Brings page (page.hideInput place) [] [] := by
  unfold Page.hideInput
  split
  next => exact refl page
  next input hInput =>
    have hSet : Brings page (page.setElement place
        (.input { input with hidden := true, disabled := true })) [] [] :=
      setElement (getElem?_of_input? hInput) rfl
    exact (hSet.trans (emit _ rfl)).trans (emit _ rfl)

theorem paint (page : Page) (surface : Surface) (fill : Fill) :
    Brings page (page.paint surface fill) [] [] := by
  unfold Page.paint
  split
  next => exact refl page
  next canvas hCanvas =>
    have hSet : Brings page (page.setElement surface.canvas
        (.canvas { canvas with fillStyle := surface.palette.colour fill.shade })) [] [] :=
      setElement (getElem?_of_canvas? hCanvas) rfl
    exact (hSet.trans (emit _ rfl)).trans (emit _ rfl)

theorem blankSurface (page : Page) (surface : Surface) :
    Brings page (page.blankSurface surface) [] [] :=
  (note page _).trans (paint _ _ _)

theorem locateCanvas (page : Page) (id : String) (width height : UInt32) (palette : Palette) :
    Brings page (page.locateCanvas id width height palette).1 [] [] := by
  unfold Page.locateCanvas
  split
  next => exact refl page
  next place _ =>
    split
    next => exact refl page
    next canvas hCanvas =>
      have hSet : Brings page (page.setElement place
          (.canvas { canvas with width := width, height := height })) [] [] :=
        setElement (getElem?_of_canvas? hCanvas) rfl
      dsimp only
      split <;> exact (hSet.trans (emit _ rfl)).trans (emit _ rfl)

theorem setLoader (page : Page) (place : Nat) (listener : Listener) (loader : Loader Function) :
    Brings page (page.setLoader place listener loader) [] [] := of_eq rfl rfl rfl rfl rfl

theorem setTask (page : Page) (k : Nat) (task : Task) : Brings page (page.setTask k task) [] [] :=
  of_eq rfl rfl rfl rfl rfl

theorem endTask (page : Page) (k place : Nat) (result : Except LoadError Unit) :
    Brings page (page.endTask k place result) [] [] := by
  cases result with
  | ok => exact setTask page k _
  | error e => exact (setTask page k _).trans (emit _ rfl)

theorem beginRead (page : Page) (file : File) :
    Brings page (page.beginRead file).1 [⟨file, !file.slow⟩] [] := by
  refine ⟨⟨rfl, rfl, rfl⟩, rfl, ?_⟩
  simp [Page.called, Page.beginRead, Page.emit, Effect.call?]

theorem select (page : Page) (id : String) (files : List File) (event : String) :
    Brings page (page.select id files event) [] [] := by
  unfold Page.select
  split
  next => exact refl page
  next place _ =>
    split
    next => exact refl page
    next input hInput =>
      have hSet :
          Brings page (page.setElement place (.input { input with files := files })) [] [] :=
        setElement (getElem?_of_input? hInput) rfl
      refine hSet.trans ?_
      unfold fire
      split
      · exact of_eq rfl rfl rfl rfl rfl
      · exact refl _

theorem listen (page : Page) (engine : Function) (place : Nat) (id : String) :
    Brings page (page.listen engine place id) [] [] := by
  have hArmed : Brings page
      { page with listeners := page.listeners ++ [(⟨.arm engine, place⟩ : Listener)] } [] [] :=
    of_eq rfl rfl rfl rfl rfl
  exact hArmed.trans (emit _ rfl)

/-- A start, however it ends, begins no read and calls no engine. -/
theorem start (page : Page) (engine : Function) (value : Value) :
    Brings page (page.start engine value).1 [] [] := by
  unfold Page.start
  split
  next => exact refl page
  next config _ =>
    split
    next => exact refl page
    next level _ =>
      have hThreshold : Brings page (page.setThreshold level) [] [] :=
        of_eq rfl rfl rfl rfl rfl
      have hLocate := hThreshold.trans (locateCanvas (page.setThreshold level) config.surfaceId
        config.width config.height config.palette)
      dsimp only
      split
      · exact hThreshold
      split
      · exact hThreshold
      split
      next located e hLocated =>
        rw [hLocated] at hLocate
        exact hLocate
      next located surface hLocated =>
        rw [hLocated] at hLocate
        split
        next => exact hLocate
        next place _ =>
          have hBlank := (hLocate.trans (blankSurface located surface)).trans
            (note _ Loader.armedEntry)
          exact (hBlank.trans (listen _ engine place config.selectorId)).trans (note _ _)

end Brings

/-! ### Polls -/

/-- What a poll makes of a loader and a task, with the read it begins and the call it makes. -/
structure Handled where
  loader : Loader Function
  phase : Phase
  begun : List Read
  calls : List (String × List UInt8)

/-- The calls that come of a delivery. -/
def callsOf : Delivery Function → List (String × List UInt8)
  | .released handoff => [(handoff.engine.name, handoff.image.bytes)]
  | _ => []

/-- The file has been read. -/
def handleFile (loader : Loader Function) (file : File) : Handled :=
  ⟨(loader.deliver file.read).1, .ended, [], callsOf (loader.deliver file.read).2⟩

/-- A poll of a task of this phase.  Reads that have come to their end are told by `settled?`, and
the next read gets the number `next`. -/
def handle (loader : Loader Function) (settled? : Nat → Option File) (next : Nat) :
    Phase → Handled
  | .fresh files =>
    match loader.pick files with
    | (loader, .picked file) =>
      if file.slow then ⟨loader, .reading next, [⟨file, false⟩], []⟩
      else { handleFile loader file with begun := [⟨file, true⟩] }
    | (loader, _) => ⟨loader, .ended, [], []⟩
  | .reading read =>
    match settled? read with
    | none => ⟨loader, .reading read, [], []⟩
    | some file => handleFile loader file
  | .ended => ⟨loader, .ended, [], []⟩

/-- Between two moments a poll of task `k` was handled for the listener at the place. -/
structure Turned (place : Nat) (listener : Listener) (k : Nat) (page next : Page)
    (handled : Handled) : Prop where
  listeners : next.listeners = page.listeners.set place { listener with loader := handled.loader }
  tasks : next.tasks = page.tasks.set k ⟨place, handled.phase⟩
  brings : Brings page next handled.begun handled.calls

variable {page : Page} {place k : Nat} {listener : Listener}

/-- A delivery as the loader has it. -/
theorem deliver_handled (page : Page) (place : Nat)
    (hStill : ∀ engine, listener.loader.engine = some engine → engine.IsStill) (file : File) :
    let handled := handleFile listener.loader file
    let delivered := page.deliver place listener file
    delivered.1.listeners = page.listeners.set place { listener with loader := handled.loader } ∧
      delivered.1.tasks = page.tasks ∧ Brings page delivered.1 [] handled.calls := by
  intro handled delivered
  rcases hDeliver : listener.loader.deliver file.read with ⟨loader, delivery⟩
  have hQueue := SameQueue.noteAll (page.setLoader place listener loader) delivery.entries
  have hNoted := (Brings.setLoader page place listener loader).trans
    (.noteAll _ delivery.entries)
  cases hResult : delivery.result with
  | error e =>
    have hCalls : callsOf delivery = [] := by
      cases delivery with
      | released => cases hResult
      | _ => rfl
    simp only [delivered, handled, deliver, handleFile, hDeliver, hResult, hCalls]
    exact ⟨hQueue.listeners, hQueue.tasks, hNoted⟩
  | ok handoff =>
    have hOk : (listener.loader.deliver file.read).2.result = .ok handoff := by
      rw [hDeliver, hResult]
    have hEngine : listener.loader.engine = some handoff.engine :=
      (Loader.deliver_engine_of_ok hOk).1
    obtain rfl := Delivery.eq_released_of_result hResult
    obtain ⟨image, ⟨name, throws, steps⟩⟩ := handoff
    obtain rfl : steps = [] := hStill _ hEngine
    simp only [delivered, handled, deliver, handleFile, hDeliver, hResult, launch, Function.call,
      performInside]
    let handoff : Handoff Function := ⟨image, .mk name throws []⟩
    have hHidden := hQueue.trans ((SameQueue.hideInput _ listener.input).trans
      (.note _ handoff.entry))
    refine ⟨hHidden.listeners, hHidden.tasks, ?_⟩
    exact ((hNoted.trans (.hideInput _ _)).trans (.note _ _)).trans (.call _ name image.bytes)

theorem advance_handled
    (hStill : ∀ engine, listener.loader.engine = some engine → engine.IsStill)
    (hListener : page.listeners[place]? = some listener) (read next : Nat) :
    Turned place listener k page (page.advance k place listener read).1
      (handle listener.loader page.settled? next (.reading read)) := by
  cases hSettled : page.settled? read with
  | none =>
    simp only [advance, handle, hSettled]
    refine ⟨?_, rfl, .setTask page k _⟩
    obtain ⟨hPlace, rfl⟩ := List.getElem?_eq_some_iff.1 hListener
    exact (List.set_getElem_self hPlace).symm
  | some file =>
    obtain ⟨hListeners, hTasks, hBrings⟩ := deliver_handled page place hStill file
    simp only [advance, handle, hSettled]
    refine ⟨?_, ?_, hBrings.before (.endTask _ k place _)⟩
    · rw [endTask_listeners]
      exact hListeners
    · rw [endTask_tasks, hTasks]
      rfl

/-- A read that has just begun has come to its end if its file is not slow. -/
theorem settled?_beginRead (page : Page) (file : File) :
    (page.beginRead file).1.settled? (page.beginRead file).2 =
      if file.slow then none else some file := by
  have hRead : (page.beginRead file).1.reads[(page.beginRead file).2]? =
      some ⟨file, !file.slow⟩ := List.getElem?_concat_length
  rw [settled?, hRead]
  cases file.slow <;> rfl

theorem handle_reading_begun (loader : Loader Function) (settled? : Nat → Option File)
    (next read : Nat) : (handle loader settled? next (.reading read)).begun = [] := by
  simp only [handle]
  split <;> rfl

theorem begin_handled
    (hStill : ∀ engine, listener.loader.engine = some engine → engine.IsStill)
    (hListener : page.listeners[place]? = some listener) (files : List File) :
    Turned place listener k page (page.begin k place listener files).1
      (handle listener.loader page.settled? page.reads.length (.fresh files)) := by
  rcases hPick : listener.loader.pick files with ⟨loader, selection⟩
  have hQueue := SameQueue.note (page.setLoader place listener loader) selection.entry
  have hNoted := (Brings.setLoader page place listener loader).trans (.note _ selection.entry)
  cases hFile : selection.file? with
  | none =>
    have hHandled : handle listener.loader page.settled? page.reads.length (.fresh files) =
        ⟨loader, .ended, [], []⟩ := by
      rw [handle, hPick]
      cases selection with
      | picked => cases hFile
      | _ => rfl
    rw [hHandled]
    simp only [begin, hPick, hFile]
    refine ⟨hQueue.listeners, ?_, hNoted.before (.endTask _ k place (.ok ()))⟩
    rw [endTask_tasks, hQueue.tasks]
    rfl
  | some file =>
    obtain rfl := Selection.eq_picked_of_file? hFile
    -- the page on which the read has begun, and the listener that is there
    let reader : Listener := { listener with loader := loader }
    let begun := ((page.setLoader place listener loader).note
      (Selection.picked file).entry).beginRead file
    have hReader : begun.1.listeners[place]? = some reader := by
      rw [show begun.1.listeners = page.listeners.set place reader from hQueue.listeners]
      exact List.getElem?_set_self (List.getElem?_eq_some_iff.1 hListener).1
    have hReaderStill : ∀ engine, reader.loader.engine = some engine → engine.IsStill := by
      intro engine hEngine
      have hKept := listener.loader.pick_engine files
      rw [hPick] at hKept
      exact hStill engine (hKept.symm.trans hEngine)
    have hNext : (page.begin k place listener files).1 =
        (begun.1.advance k place reader begun.2).1 := by
      simp only [begin, hPick, hFile]
      rfl
    have hTurned : Turned place reader k begun.1 (begun.1.advance k place reader begun.2).1
        (handle loader begun.1.settled? page.reads.length (.reading begun.2)) :=
      advance_handled hReaderStill hReader begun.2 page.reads.length
    have hHandled : handle listener.loader page.settled? page.reads.length (.fresh files) =
        { handle loader begun.1.settled? page.reads.length (.reading begun.2) with
          begun := [⟨file, !file.slow⟩] } := by
      have hRead : begun.2 = page.reads.length := congrArg List.length (note_reads _ _)
      simp only [handle, hPick, begun, settled?_beginRead]
      cases file.slow with
      | true => simp [begun, hRead]
      | false => rfl
    have hBegun : Brings page begun.1 [⟨file, !file.slow⟩] [] := hNoted.trans (.beginRead _ file)
    rw [hNext, hHandled]
    refine ⟨?_, ?_, ?_⟩
    · rw [hTurned.listeners, show begun.1.listeners = page.listeners.set place reader from
        hQueue.listeners]
      exact List.set_set ..
    · rw [hTurned.tasks, show begun.1.tasks = page.tasks from hQueue.tasks]
    · have hBrings := hBegun.trans hTurned.brings
      rwa [handle_reading_begun] at hBrings

/-- **A poll is what its listener makes of it**, and nothing else, if engines take no steps. -/
theorem poll_handled {phase : Phase} (hTask : page.tasks[k]? = some ⟨place, phase⟩)
    (hListener : page.listeners[place]? = some listener)
    (hStill : ∀ engine, listener.loader.engine = some engine → engine.IsStill) :
    Turned place listener k page (page.poll k).1
      (handle listener.loader page.settled? page.reads.length phase) := by
  simp only [poll, hTask, hListener]
  cases phase with
  | fresh files => exact begin_handled hStill hListener files
  | reading read => exact advance_handled hStill hListener read _
  | ended =>
    obtain ⟨hPlace, hSame⟩ := List.getElem?_eq_some_iff.1 hListener
    obtain ⟨hk, hEnded⟩ := List.getElem?_eq_some_iff.1 hTask
    refine ⟨?_, ?_, .refl page⟩
    · exact hSame ▸ (List.set_getElem_self hPlace).symm
    · exact hEnded ▸ (List.set_getElem_self hk).symm

/-- The loader, which was at this stage, is at one of its stages, and its engine has been called if
the loader was spent by that. -/
def Handled.Fires (engine : Function) (stage : Stage) (handled : Handled) : Prop :=
  ∃ stage', handled.loader = .atStage engine stage' ∧
    handled.calls.length + stage.shots = stage'.shots ∧
    ∀ call ∈ handled.calls, call.1 = engine.name

theorem handleFile_fires (engine : Function) (stage : Stage) (file : File) :
    (handleFile (.atStage engine stage) file).Fires engine stage := by
  cases stage with
  | waiting => exact ⟨.waiting, rfl, rfl, List.forall_mem_nil _⟩
  | spent => exact ⟨.spent, rfl, rfl, List.forall_mem_nil _⟩
  | reading =>
    rw [handleFile]
    cases file.read with
    | error e => exact ⟨.waiting, rfl, rfl, List.forall_mem_nil _⟩
    | ok bytes => exact ⟨.spent, rfl, rfl, List.forall_mem_singleton.2 rfl⟩

theorem handle_fires (engine : Function) (stage : Stage) (settled? : Nat → Option File)
    (next : Nat) (phase : Phase) :
    (handle (.atStage engine stage) settled? next phase).Fires engine stage := by
  have hStill : Handled.Fires engine stage ⟨.atStage engine stage, phase, [], []⟩ :=
    ⟨stage, rfl, Nat.zero_add _, List.forall_mem_nil _⟩
  cases phase with
  | ended => exact hStill
  | reading read =>
    rw [handle]
    split
    · exact hStill
    next file _ => exact handleFile_fires engine stage file
  | fresh files =>
    cases stage with
    | reading => exact ⟨.reading, rfl, rfl, List.forall_mem_nil _⟩
    | spent => exact ⟨.spent, rfl, rfl, List.forall_mem_nil _⟩
    | waiting =>
      cases files with
      | nil => exact ⟨.waiting, rfl, rfl, List.forall_mem_nil _⟩
      | cons file rest =>
        simp only [handle, Loader.pick_waiting]
        split
        · exact ⟨.reading, rfl, rfl, List.forall_mem_nil _⟩
        · exact handleFile_fires engine .reading file

end Page

end Chip8Launcher
