import Chip8Launcher.Proofs.Page.Checks
import Chip8Launcher.Proofs.Page.EndToEnd
import Chip8Launcher.Proofs.Page.Handling

/-!
# The threshold of the log

A start sets the threshold between two of its checks, when the configuration has been found in order
and nothing is known yet of window, document and elements.  So starts that fail set it as well, and
which of them do is seen from the value they are given (`Config.levelOf?`).

Starts are made by the page, by the engines that it runs and by the engine that a poll gives control
to, which may run further engines.  `startsIn` lists them in the order in which they are made.  All
else that is done to a page leaves the threshold alone (`note_threshold` and those that follow), so
the first start with a level in this list has set it for good (`through_threshold`).
-/

namespace Chip8Launcher

/-- The level of a start that is given this value, if its configuration is in order. -/
def Config.levelOf? (value : Value) : Option Log.Level :=
  match Config.ofValue value with
  | .ok config => config.level.toOption
  | .error _ => none

theorem Config.levelOf?_eq_some_iff {value : Value} {level : Log.Level} :
    levelOf? value = some level ↔
      ∃ config, Config.ofValue value = .ok config ∧ config.level = .ok level := by
  unfold levelOf?
  cases Config.ofValue value with
  | error fault => simp
  | ok config => cases hLevel : config.level <;> simp [Except.toOption, hLevel]

theorem Config.levelOf?_of_error {value : Value} {fault : Fault}
    (h : Config.ofValue value = .error fault) : levelOf? value = none := by
  rw [levelOf?, h]

theorem Config.levelOf?_of_ok {value : Value} {config : Config}
    (h : Config.ofValue value = .ok config) : levelOf? value = config.level.toOption := by
  rw [levelOf?, h]

namespace Page

variable {page : Page} {k place : Nat} {listener : Listener}

/-! ### The starts that are made -/

mutual

/-- What the starts are given that an engine makes when it is called. -/
def Function.starts : Function → List Value
  | .mk _ _ steps => startsOf steps

def startsOf : List Step → List Value
  | [] => []
  | step :: steps => step.starts ++ startsOf steps

def Step.starts : Step → List Value
  | .start _ value => [value]
  | .run engine _ => engine.starts
  | _ => []

end

/-- The engine that a delivery releases. -/
def engineOf? : Delivery Function → Option Function
  | .released handoff => some handoff.engine
  | _ => none

/-- The loader as a poll of a task of this phase finds it at the delivery, and the file if there is
one whose read has come to its end. -/
def finished (page : Page) (loader : Loader Function) : Phase → Loader Function × Option File
  | .fresh files =>
    ((loader.pick files).1, (loader.pick files).2.file?.filter fun file => !file.slow)
  | .reading read => (loader, page.settled? read)
  | .ended => (loader, none)

/-- The engine to which a poll gives control. -/
def launched? (page : Page) (k : Nat) : Option Function := do
  let task ← page.tasks[k]?
  let listener ← page.listeners[task.listener]?
  let (loader, file?) := page.finished listener.loader task.phase
  let file ← file?
  engineOf? (loader.deliver file.read).2

/-- What comes to pass on a page that may change under the loaders' feet. -/
inductive Occurrence where
  | happening (happening : Happening)
  /-- Window, document and elements are not what they were. -/
  | scene (hasWindow hasDocument : Bool) (elements : List Element)

def occur (page : Page) : Occurrence → Page
  | .happening happening => page.happen happening
  | .scene hasWindow hasDocument elements =>
    { page with hasWindow := hasWindow, hasDocument := hasDocument, elements := elements }

def through (page : Page) (occurrences : List Occurrence) : Page := occurrences.foldl occur page

def startsAt (page : Page) : Occurrence → List Value
  | .happening (.step step) => step.starts
  | .happening (.poll k) => (page.launched? k).elim [] Function.starts
  | .scene _ _ _ => []

/-- What the starts are given that are made in all this, one after the other. -/
def startsIn (page : Page) : List Occurrence → List Value
  | [] => []
  | occurrence :: later => page.startsAt occurrence ++ startsIn (page.occur occurrence) later

/-! ### What leaves the threshold alone -/

@[simp] theorem note_threshold (page : Page) (entry : Log.Entry) :
    (page.note entry).threshold = page.threshold := by
  obtain ⟨log, hLog⟩ := page.note_eq entry
  rw [hLog]

@[simp] theorem noteAll_threshold (page : Page) (entries : List Log.Entry) :
    (page.noteAll entries).threshold = page.threshold := by
  obtain ⟨log, hLog⟩ := page.noteAll_eq entries
  rw [hLog]

@[simp] theorem select_threshold (page : Page) (id : String) (files : List File)
    (event : String) : (page.select id files event).threshold = page.threshold := by
  obtain ⟨elements, tasks, hSelect⟩ := page.select_eq id files event
  rw [hSelect]

@[simp] theorem settle_threshold (page : Page) (read : Nat) :
    (page.settle read).1.threshold = page.threshold := by
  obtain ⟨reads, hReads⟩ := page.settle_eq read
  rw [hReads]

@[simp] theorem setKind_threshold (page : Page) (id kind : String) :
    (page.setKind id kind).threshold = page.threshold := by
  unfold setKind
  split
  · rfl
  · split <;> rfl

@[simp] theorem hideInput_threshold (page : Page) (place : Nat) :
    (page.hideInput place).threshold = page.threshold := by
  unfold hideInput
  split <;> rfl

@[simp] theorem paint_threshold (page : Page) (surface : Surface) (fill : Fill) :
    (page.paint surface fill).threshold = page.threshold := by
  unfold paint
  split <;> rfl

@[simp] theorem blankSurface_threshold (page : Page) (surface : Surface) :
    (page.blankSurface surface).threshold = page.threshold :=
  (paint_threshold _ _ _).trans (note_threshold _ _)

@[simp] theorem locateCanvas_threshold (page : Page) (id : String) (width height : UInt32)
    (palette : Palette) :
    (page.locateCanvas id width height palette).1.threshold = page.threshold := by
  unfold locateCanvas
  split
  · rfl
  · split
    · rfl
    · dsimp only
      split <;> rfl

@[simp] theorem listen_threshold (page : Page) (engine : Function) (place : Nat) (id : String) :
    (page.listen engine place id).threshold = page.threshold := rfl

@[simp] theorem beginRead_threshold (page : Page) (file : File) :
    (page.beginRead file).1.threshold = page.threshold := rfl

@[simp] theorem setLoader_threshold (page : Page) (place : Nat) (listener : Listener)
    (loader : Loader Function) :
    (page.setLoader place listener loader).threshold = page.threshold := rfl

@[simp] theorem setTask_threshold (page : Page) (k : Nat) (task : Task) :
    (page.setTask k task).threshold = page.threshold := rfl

@[simp] theorem endTask_threshold (page : Page) (k place : Nat) (result : Except LoadError Unit) :
    (page.endTask k place result).threshold = page.threshold := by
  unfold endTask
  cases result <;> rfl

@[simp] theorem keepCanvas_threshold (page : Page) (id : String) (width height : UInt32)
    (palette : Palette) :
    (page.keepCanvas id width height palette).1.threshold = page.threshold := by
  have hLocate := page.locateCanvas_threshold id width height palette
  unfold keepCanvas
  split <;> simp_all

@[simp] theorem keepInput_threshold (page : Page) (id : String) :
    (page.keepInput id).1.threshold = page.threshold := by
  unfold keepInput
  split <;> rfl

theorem onSurface_threshold {use : Surface → Page × Result}
    (hUse : ∀ surface, (use surface).1.threshold = page.threshold) :
    (page.onSurface use).1.threshold = page.threshold := by
  unfold onSurface
  split
  · rfl
  · exact hUse _

/-! ### Starts and steps -/

/-- Whatever becomes of it, a start with a level sets the threshold to it if there is none. -/
theorem start_threshold (page : Page) (engine : Function) (value : Value) :
    (page.start engine value).1.threshold = page.threshold.or (Config.levelOf? value) := by
  cases hValue : Config.ofValue value with
  | error fault =>
    rw [Config.levelOf?_of_error hValue, Option.or_none]
    simp only [start, hValue]
  | ok config =>
    rw [Config.levelOf?_of_ok hValue]
    cases hLevel : config.level with
    | error e =>
      rw [Except.toOption, Option.or_none]
      simp only [start, hValue, hLevel]
    | ok level =>
      have hSet : (page.setThreshold level).threshold = page.threshold.or (some level) := rfl
      have hLocate := (page.setThreshold level).locateCanvas_threshold config.surfaceId config.width
        config.height config.palette
      rw [Except.toOption, ← hSet]
      simp only [start, hValue, hLevel]
      split
      · rfl
      split
      · rfl
      split
      next located e hLocated =>
        rw [hLocated] at hLocate
        exact hLocate
      next located surface hLocated =>
        rw [hLocated] at hLocate
        split
        next => exact hLocate
        next place _ => simpa using hLocate

/-- A start is rejected for its configuration exactly if it has no level. -/
theorem levelOf?_eq_none_iff (page : Page) (engine : Function) (value : Value) :
    Config.levelOf? value = none ↔
      ∃ text, (page.start engine value).2 = .error (.config text) := by
  cases hValue : Config.ofValue value with
  | error fault =>
    rw [Config.levelOf?_of_error hValue]
    simp [start, hValue]
  | ok config =>
    rw [Config.levelOf?_of_ok hValue]
    cases hLevel : config.level with
    | error e =>
      obtain ⟨text, rfl⟩ := exists_of_level_error hLevel
      simp [start, hValue, hLevel, Except.toOption]
    | ok level =>
      refine iff_of_false (Option.some_ne_none level) ?_
      rintro ⟨text, hText⟩
      have hEnds : Ends page engine config (page.start engine value) := ends_start hValue
      unfold Ends at hEnds
      split at hEnds
      next check hFirst =>
        -- of the errors of all checks only that of the first is about the configuration
        have hError : check.error config = .config text :=
          Except.error.inj (hEnds.1.symm.trans hText)
        cases check with
        | level => cases hLevel.symm.trans (level_of_fails (passes_of_first hFirst).1)
        | _ => cases hError
      next => cases hEnds.1.symm.trans hText

/-- The level of the first start that has one. -/
def firstLevel? (values : List Value) : Option Log.Level := values.findSome? Config.levelOf?

theorem firstLevel?_append (values later : List Value) :
    firstLevel? (values ++ later) = (firstLevel? values).or (firstLevel? later) :=
  List.findSome?_append

/-- A step that runs no engine. -/
theorem performPlain_threshold (page : Page) {step : Step}
    (hPlain : ∀ engine bytes, step ≠ .run engine bytes) :
    (page.performPlain step).1.threshold = page.threshold.or (firstLevel? step.starts) := by
  cases step with
  | start engine value =>
    have hStart := page.start_threshold engine value
    simp only [performPlain]
    split <;> simp_all [Step.starts, firstLevel?]
  | run engine bytes => exact absurd rfl (hPlain engine bytes)
  | blank =>
    simp only [performPlain, Step.starts, firstLevel?, List.findSome?_nil, Option.or_none]
    exact onSurface_threshold fun surface => page.blankSurface_threshold surface
  | fill fill =>
    simp only [performPlain, Step.starts, firstLevel?, List.findSome?_nil, Option.or_none]
    exact onSurface_threshold fun surface => page.paint_threshold surface fill
  | dimensions =>
    simp only [performPlain, Step.starts, firstLevel?, List.findSome?_nil, Option.or_none]
    exact onSurface_threshold fun _ => rfl
  | hide =>
    simp only [performPlain, Step.starts, firstLevel?, List.findSome?_nil, Option.or_none]
    split
    · rfl
    · exact page.hideInput_threshold _
  | _ => simp [performPlain, Step.starts, firstLevel?, readFile]

mutual

theorem Function.call_threshold (bytes : List UInt8) (page : Page) (engine : Function) :
    (engine.call bytes page).1.threshold = page.threshold.or (firstLevel? engine.starts) := by
  cases engine with
  | mk name throws steps =>
    rw [Function.call, Function.starts]
    exact performInside_threshold (page.emit (.called name bytes)) steps

theorem performInside_threshold (page : Page) (steps : List Step) :
    (performInside page steps).threshold = page.threshold.or (firstLevel? (startsOf steps)) := by
  cases steps with
  | nil => exact Option.or_none.symm
  | cons step steps =>
    have hStep := Step.perform_threshold page step
    have hSteps := performInside_threshold
      ((step.perform page).1.emit (.inside (step.perform page).2)) steps
    rw [performInside, startsOf, firstLevel?_append, ← Option.or_assoc, ← hStep]
    exact hSteps

theorem Step.perform_threshold (page : Page) (step : Step) :
    (step.perform page).1.threshold = page.threshold.or (firstLevel? step.starts) := by
  cases step with
  | run engine bytes =>
    rw [Step.perform, Step.starts]
    exact Function.call_threshold bytes page engine
  | _ =>
    rw [Step.perform]
    · exact performPlain_threshold page (by simp)
    · simp

end

/-! ### Polls -/

/-- What the starts are given that are made when a file is delivered to the loader. -/
def startsOn (loader : Loader Function) (file? : Option File) : List Value :=
  (file?.bind fun file => engineOf? (loader.deliver file.read).2).elim [] Function.starts

theorem deliver_threshold (page : Page) (place : Nat) (listener : Listener) (file : File) :
    (page.deliver place listener file).1.threshold =
      page.threshold.or (firstLevel? (startsOn listener.loader (some file))) := by
  rcases hDeliver : listener.loader.deliver file.read with ⟨loader, delivery⟩
  simp only [deliver, startsOn, Option.bind_some, hDeliver]
  cases delivery with
  | released handoff =>
    simp only [Delivery.result, launch, engineOf?, Option.elim_some]
    rw [Function.call_threshold]
    simp
  | _ => simp [Delivery.result, engineOf?, firstLevel?]

theorem advance_threshold (page : Page) (k place : Nat) (listener : Listener) (read : Nat) :
    (page.advance k place listener read).1.threshold =
      page.threshold.or (firstLevel? (startsOn listener.loader (page.settled? read))) := by
  cases hSettled : page.settled? read with
  | none => simp [advance, hSettled, startsOn, firstLevel?]
  | some file =>
    simp only [advance, hSettled, endTask_threshold]
    exact page.deliver_threshold place listener file

theorem begin_threshold (page : Page) (k place : Nat) (listener : Listener) (files : List File) :
    (page.begin k place listener files).1.threshold =
      page.threshold.or (firstLevel? (startsOn (page.finished listener.loader (.fresh files)).1
        (page.finished listener.loader (.fresh files)).2)) := by
  rcases hPick : listener.loader.pick files with ⟨loader, selection⟩
  simp only [begin, finished, hPick]
  cases hFile : selection.file? with
  | none => simp [startsOn, firstLevel?]
  | some file =>
    simp only [advance_threshold, settled?_beginRead, beginRead_threshold, note_threshold,
      setLoader_threshold]
    cases hSlow : file.slow <;> simp [Option.filter, hSlow]

theorem poll_threshold (page : Page) (k : Nat) :
    (page.poll k).1.threshold =
      page.threshold.or (firstLevel? ((page.launched? k).elim [] Function.starts)) := by
  cases hTask : page.tasks[k]? with
  | none => simp [poll, launched?, hTask, firstLevel?]
  | some task =>
    cases hListener : page.listeners[task.listener]? with
    | none => simp [poll, launched?, hTask, hListener, firstLevel?]
    | some listener =>
      have hLaunched : (page.launched? k).elim [] Function.starts =
          startsOn (page.finished listener.loader task.phase).1
            (page.finished listener.loader task.phase).2 := by
        simp [launched?, hTask, hListener, startsOn]
      rw [hLaunched]
      simp only [poll, hTask, hListener]
      cases task.phase with
      | fresh files => exact page.begin_threshold k task.listener listener files
      | reading read => exact page.advance_threshold k task.listener listener read
      | ended => exact Option.or_none.symm

/-! ### Runs -/

theorem occur_threshold (page : Page) (occurrence : Occurrence) :
    (page.occur occurrence).threshold =
      page.threshold.or (firstLevel? (page.startsAt occurrence)) := by
  cases occurrence with
  | happening happening =>
    cases happening with
    | step step => exact Step.perform_threshold page step
    | poll k => exact page.poll_threshold k
  | scene => exact Option.or_none.symm

/-- A threshold that is set stays, and one that is not is set by the first start with a level. -/
theorem through_threshold (page : Page) (occurrences : List Occurrence) :
    (page.through occurrences).threshold =
      page.threshold.or (firstLevel? (page.startsIn occurrences)) := by
  induction occurrences generalizing page with
  | nil => exact Option.or_none.symm
  | cons occurrence later ih =>
    have hLater := ih (page.occur occurrence)
    rw [startsIn, firstLevel?_append, ← Option.or_assoc, ← occur_threshold]
    exact hLater

theorem firstLevel?_eq_some_iff {values : List Value} {level : Log.Level} :
    firstLevel? values = some level ↔ ∃ before value later, values = before ++ value :: later ∧
      Config.levelOf? value = some level ∧ ∀ other ∈ before, Config.levelOf? other = none :=
  List.findSome?_eq_some_iff

/-- **The first start whose configuration is in order sets the threshold for good.**  Starts are
made with any values, by the page and by engines, while the page may change in any way, files are
selected and read and tasks are polled.  At every moment the threshold is the level of the first
start that had one, and nothing that comes later changes it.  For this it is all the same what the
start ended with, but those that are rejected for their configuration have no level and leave the
threshold as it was.  The same holds inside an engine, between one of its steps and the next. -/
theorem first_usable_start_sets_threshold (hasWindow hasDocument : Bool) (elements : List Element)
    (occurrences : List Occurrence) :
    let origin := Page.fresh hasWindow hasDocument elements
    let page := origin.through occurrences
    (∀ level, page.threshold = some level ↔ ∃ before value later,
      origin.startsIn occurrences = before ++ value :: later ∧
        (∃ config, Config.ofValue value = .ok config ∧ config.level = .ok level) ∧
        ∀ other ∈ before, Config.levelOf? other = none) ∧
      (∀ level, page.threshold = some level →
        ∀ later, (page.through later).threshold = some level) ∧
      (∀ (found : Page) (engine : Function) (value : Value),
        (found.start engine value).1.threshold = found.threshold.or (Config.levelOf? value) ∧
          (Config.levelOf? value = none ↔
            ∃ text, (found.start engine value).2 = .error (.config text))) ∧
      ∀ (found : Page) (steps : List Step), (performInside found steps).threshold =
        found.threshold.or ((startsOf steps).findSome? Config.levelOf?) := by
  intro origin page
  have hPage : page.threshold = firstLevel? (origin.startsIn occurrences) :=
    (origin.through_threshold occurrences).trans Option.none_or
  refine ⟨fun level => ?_, fun level hLevel later => ?_, fun found engine value => ?_,
    performInside_threshold⟩
  · rw [hPage, firstLevel?_eq_some_iff]
    simp only [Config.levelOf?_eq_some_iff]
  · rw [through_threshold, hLevel, Option.some_or]
  · exact ⟨found.start_threshold engine value, found.levelOf?_eq_none_iff engine value⟩

/-- The first start names no level and the second finds no window, and yet it is the second that
counts: neither the third, which succeeds, nor the one that its engine makes changes anything. -/
theorem first_usable_start_sets_threshold_failing :
    let pong : File := ⟨"pong.ch8", 2, .ok [0x6a, 0x02], false⟩
    let loud : Value := .object [("logLevel", .string "loud")]
    let debug : Value := .object [("logLevel", .string "Debug")]
    let trace : Value := .object [("logLevel", .string "trace")]
    let engine : Function := .mk "run_emu" none [.start (.mk "again" none []) trace]
    let origin : Page := .fresh false true []
    let elements : List Element :=
      [.canvas (.fresh "display" .drawing), .input (.fresh "rom_selector" "file")]
    let failing : List Occurrence :=
      [.happening (.step (.start engine loud)), .happening (.step (.start engine debug))]
    let later : List Occurrence :=
      [.scene true true elements, .happening (.step (.start engine .undefined)),
        .happening (.step (.select "rom_selector" [pong] "change")), .happening (.poll 0)]
    origin.startsIn (failing ++ later) = [loud, debug, .undefined, trace] ∧
      (∃ text, (origin.start engine loud).2 = .error (.config text)) ∧
      (origin.start engine debug).2 = .error .noWindow ∧
      (origin.through failing).threshold = some .debug ∧
      ((origin.through failing).through later).threshold = some .debug := by
  intro pong loud debug trace engine origin elements failing later
  obtain ⟨hFirst, hKept, hStarts, -⟩ := first_usable_start_sets_threshold false true [] failing
  have hLoud : Config.levelOf? loud = none := rfl
  have hDebug : ∃ config, Config.ofValue debug = .ok config ∧ config.level = .ok .debug :=
    ⟨.withLogLevel .standard "Debug", rfl, rfl⟩
  have hSet : (origin.through failing).threshold = some .debug := by
    refine (hFirst .debug).2 ⟨[loud], debug, [], ?_, hDebug, List.forall_mem_singleton.2 hLoud⟩
    dsimp +zetaDelta only
    rfl
  refine ⟨?_, (hStarts origin engine loud).2.1 hLoud, by rfl, hSet, hKept .debug hSet later⟩
  dsimp +zetaDelta only
  rfl

end Page

end Chip8Launcher
