import Mathlib.Data.List.Find
import Chip8Launcher.Proofs.Page.Start

/-!
# The checks of a start

A start that has read its configuration makes eight checks (`Check`), always in the same order, and
ends with the first that fails (`firstFailure?`).  What a check looks at is said of the page as it
was before the start: nothing that is done between two checks changes what a later one finds.

* `start_of_ready`, `start_of_canvas`: a start from its canvas on, and from its input on.
* `Ends`: the result of a start, and what there is on the page afterwards.
* `start_in_order`: so ends every start, on every page and with every value.
-/

namespace Chip8Launcher

/-! ### Names of levels -/

namespace Log.Level

/-- The two texts differ at most in the case of their letters. -/
def Alike (a b : String) : Prop := a.toList.map Char.toUpper = b.toList.map Char.toUpper

instance (a b : String) : Decidable (Alike a b) := inferInstanceAs (Decidable (_ = _))

/-- The levels as they are written in a configuration. -/
def written : List String := ["error", "warn", "info", "debug", "trace"]

theorem ofName?_isSome (text : String) :
    (ofName? text).isSome = true ↔ ∃ name ∈ written, Alike text name := by
  have hWritten : written.map (fun name => name.toList.map Char.toUpper) =
      all.map fun level => level.name.toList := by decide
  have hNames : (∃ name ∈ written, Alike text name) ↔
      text.toList.map Char.toUpper ∈ all.map fun level => level.name.toList := by
    rw [← hWritten, List.mem_map]
    exact exists_congr fun name => and_congr_right fun _ => eq_comm
  rw [hNames, ofName?, List.find?_isSome, List.mem_map]
  refine exists_congr fun level => and_congr_right fun _ => ?_
  rw [beq_iff_eq, eq_comm]

end Log.Level

/-! ### Checks -/

def Element.isCanvas : Element → Bool
  | .canvas _ => true
  | _ => false

/-- A canvas that can be drawn on. -/
def Element.draws : Element → Bool
  | .canvas c => c.context == .drawing
  | _ => false

def Element.isFileInput : Element → Bool
  | .input i => i.kind == "file"
  | _ => false

/-- The first element of that id. -/
def Page.element? (page : Page) (id : String) : Option Element :=
  page.elements.find? (·.id == id)

inductive Check where
  | level
  | window
  | document
  | surface
  | canvas
  | context
  | selector
  | fileInput
  deriving DecidableEq, Repr

namespace Check

/-- The checks in the order in which they are made. -/
def all : List Check := [level, window, document, surface, canvas, context, selector, fileInput]

/-- The checks that are made before this one. -/
def earlier (check : Check) : List Check := all.takeWhile (· != check)

def passes (page : Page) (config : Config) : Check → Bool
  | level => decide (∃ name ∈ Log.Level.written, Log.Level.Alike config.logLevel name)
  | window => page.hasWindow
  | document => page.hasDocument
  | surface => (page.element? config.surfaceId).isSome
  | canvas => (page.element? config.surfaceId).any Element.isCanvas
  | context => (page.element? config.surfaceId).any Element.draws
  | selector => (page.element? config.selectorId).isSome
  | fileInput => (page.element? config.selectorId).any Element.isFileInput

def error (config : Config) : Check → BootError
  | level => .config ("unknown log level `" ++ config.logLevel ++ "`")
  | window => .noWindow
  | document => .noDocument
  | surface => .elementNotFound config.surfaceId
  | canvas => .wrongElement config.surfaceId "canvas"
  | context => .contextUnavailable config.surfaceId
  | selector => .elementNotFound config.selectorId
  | fileInput => .wrongElement config.selectorId "file input"

end Check

namespace Page

def firstFailure? (page : Page) (config : Config) : Option Check :=
  Check.all.find? fun check => !check.passes page config

variable {page next : Page} {config : Config} {engine : Function} {check : Check}

/-- Before the first failure all checks pass. -/
theorem passes_of_first (h : page.firstFailure? config = some check) :
    check.passes page config = false ∧
      ∀ other ∈ check.earlier, other.passes page config = true := by
  rw [firstFailure?, List.find?_eq_some_iff_append] at h
  obtain ⟨hFails, before, later, hAll, hBefore⟩ := h
  rw [Bool.not_eq_true'] at hFails
  have hPasses : ∀ other ∈ before, other.passes page config = true := by
    intro other hOther
    simpa using hBefore other hOther
  have hNe : ∀ other ∈ before, (other != check) = true := by
    intro other hOther
    rw [bne_iff_ne]
    rintro rfl
    exact absurd (hPasses other hOther) (by simp [hFails])
  have hEarlier : check.earlier = before := by
    rw [Check.earlier, hAll, List.takeWhile_append_of_pos hNe,
      List.takeWhile_cons_of_neg (by simp), List.append_nil]
  exact ⟨hFails, hEarlier ▸ hPasses⟩

theorem passes_of_none (h : page.firstFailure? config = none) (check : Check) :
    check.passes page config = true := by
  have hAll : check ∈ Check.all := by cases check <;> decide
  simpa using List.find?_eq_none.1 h check hAll

/-! ### What is done to a canvas -/

/-- A canvas with the size that the configuration asks for. -/
def sized (config : Config) (canvas : Canvas) : Canvas :=
  { canvas with width := config.width, height := config.height }

/-- The page when a canvas has been given its size. -/
def resize (page : Page) (config : Config) (place : Nat) (canvas : Canvas) : Page :=
  ((page.setElement place (.canvas (sized config canvas))).emit
    (.width canvas.id config.width)).emit (.height canvas.id config.height)

theorem resize_effects (page : Page) (config : Config) (place : Nat) (canvas : Canvas) :
    (page.resize config place canvas).effects =
      page.effects ++ [.width canvas.id config.width, .height canvas.id config.height] :=
  List.append_assoc ..

theorem SameInputs.resize {place : Nat} {canvas : Canvas}
    (hCanvas : page.canvas? place = some canvas) (config : Config) :
    SameInputs page (page.resize config place canvas) := by
  have hSized : SameInputs page (page.setElement place (.canvas (sized config canvas))) :=
    .setCanvas hCanvas rfl
  exact (hSized.trans (.emit _ _)).trans (.emit _ _)

theorem canvas?_resize {place : Nat} {canvas : Canvas} (h : page.canvas? place = some canvas)
    (config : Config) :
    (page.resize config place canvas).canvas? place = some (sized config canvas) := by
  have hElement : (page.setElement place (.canvas (sized config canvas))).elements[place]? =
      some (.canvas (sized config canvas)) := by
    rw [getElem?_setElement (getElem?_of_canvas? h), if_pos rfl]
  simp only [canvas?, resize, emit, hElement]

/-- A page counts without loss what a canvas can measure. -/
theorem counted_full (width height : UInt32) :
    (Rect.full width.toUInt64 height.toUInt64).counted =
      Rect.full width.toUInt64 height.toUInt64 := by
  have hCount : ∀ n : UInt32, (count n.toUInt64.toNat).toUInt64 = n.toUInt64 := by
    intro n
    have hn := n.toNat_lt
    rw [count_of_lt (by rw [UInt32.toNat_toUInt64]; omega)]
    exact UInt64.ofNat_toNat
  simp only [Rect.counted, Rect.full, hCount]
  rfl

/-- The canvas as it is when it is blanked gives the rectangle its size. -/
theorem blankSurface_of_canvas {place : Nat} {canvas : Canvas}
    (h : page.canvas? place = some canvas) (palette : Palette) :
    ∃ log, page.blankSurface ⟨place, palette⟩ =
      { page with
        log := log
        elements := page.elements.set place
          (.canvas { canvas with fillStyle := palette.foreground })
        effects := page.effects ++ [.fillStyle canvas.id palette.foreground] ++
          [.fillRect canvas.id (.full canvas.width.toUInt64 canvas.height.toUInt64)] } := by
  obtain ⟨log, hLog⟩ :=
    page.note_eq (Fill.blankingEntry canvas.width.toUInt64 canvas.height.toUInt64)
  have hNoted : ({ page with log := log } : Page).canvas? place = some canvas := h
  refine ⟨log, ?_⟩
  simp only [blankSurface, surfaceSize, h, hLog, paint, hNoted, Fill.blanking, counted_full]
  rfl

/-! ### What is found -/

theorem find?_of_missing {id : String} (h : (page.element? id).isSome = false) :
    page.find? id = none := by
  rw [element?, Option.isSome_eq_false_iff, Option.isNone_iff_eq_none, List.find?_eq_none] at h
  exact List.findIdx?_eq_none_iff.2 fun element hElement => by simpa using h element hElement

theorem find?_of_element? {id : String} {element : Element} (h : page.element? id = some element) :
    ∃ place, page.find? id = some place ∧ page.elements[place]? = some element ∧
      element.id = id := by
  rw [element?, List.find?_eq_some_iff_getElem] at h
  obtain ⟨hId, place, hPlace, rfl, hBefore⟩ := h
  refine ⟨place, ?_, List.getElem?_eq_getElem hPlace, beq_iff_eq.1 hId⟩
  exact List.findIdx?_eq_some_iff_getElem.2
    ⟨hPlace, hId, fun j hj => by simpa using hBefore j hj⟩

theorem locateCanvas_of_missing (h : Check.surface.passes page config = false) :
    page.locateCanvas config.surfaceId config.width config.height config.palette =
      (page, .error (Check.surface.error config)) := by
  simp only [locateCanvas, find?_of_missing h]
  rfl

theorem locateCanvas_of_other (h : Check.surface.passes page config = true)
    (hOther : Check.canvas.passes page config = false) :
    page.locateCanvas config.surfaceId config.width config.height config.palette =
      (page, .error (Check.canvas.error config)) := by
  obtain ⟨element, hElement⟩ := Option.isSome_iff_exists.1 h
  obtain ⟨place, hFind, hAt, -⟩ := find?_of_element? hElement
  rw [Check.passes, hElement] at hOther
  simp only [locateCanvas, hFind, canvas?, hAt]
  cases element with
  | canvas c => cases hOther
  | _ => rfl

theorem locateCanvas_of_canvas (h : Check.canvas.passes page config = true) :
    ∃ place canvas, page.find? config.surfaceId = some place ∧
      page.canvas? place = some canvas ∧ canvas.id = config.surfaceId ∧
      page.locateCanvas config.surfaceId config.width config.height config.palette =
        (page.resize config place canvas, if Check.context.passes page config then
          .ok ⟨place, config.palette⟩ else .error (Check.context.error config)) := by
  obtain ⟨element, hElement, hCanvas⟩ := (Option.any_eq_true _ _).1 h
  obtain ⟨place, hFind, hAt, hId⟩ := find?_of_element? hElement
  cases element with
  | canvas c =>
    refine ⟨place, c, hFind, by rw [canvas?, hAt], hId, ?_⟩
    simp only [Check.passes, hElement, Option.any_some, Element.draws, beq_iff_eq, locateCanvas,
      hFind, canvas?, hAt]
    split
    next hDrawing => rw [if_pos hDrawing]; rfl
    next hNot => rw [if_neg hNot]; rfl
  | _ => cases hCanvas

theorem locateInput_of_missing (h : Check.selector.passes page config = false) :
    page.locateInput config.selectorId = .error (Check.selector.error config) := by
  simp only [locateInput, find?_of_missing h]
  rfl

theorem locateInput_of_other (h : Check.selector.passes page config = true)
    (hOther : Check.fileInput.passes page config = false) :
    page.locateInput config.selectorId = .error (Check.fileInput.error config) := by
  obtain ⟨element, hElement⟩ := Option.isSome_iff_exists.1 h
  obtain ⟨place, hFind, hAt, -⟩ := find?_of_element? hElement
  rw [Check.passes, hElement] at hOther
  simp only [locateInput, hFind, input?, hAt]
  cases element with
  | input i => exact if_neg (by simpa [Element.isFileInput] using hOther)
  | _ => rfl

theorem locateInput_of_file (h : Check.fileInput.passes page config = true) :
    ∃ place, page.locateInput config.selectorId = .ok place := by
  obtain ⟨element, hElement, hFile⟩ := (Option.any_eq_true _ _).1 h
  obtain ⟨place, hFind, hAt, -⟩ := find?_of_element? hElement
  refine ⟨place, ?_⟩
  simp only [locateInput, hFind, input?, hAt]
  cases element with
  | input i => exact if_pos (by simpa [Element.isFileInput] using hFile)
  | _ => cases hFile

theorem SameInputs.locateInput (h : SameInputs page next) (id : String) :
    next.locateInput id = page.locateInput id := by
  simp only [Page.locateInput, h.find, h.input]

/-! ### What is left of a start -/

/-- Nothing was armed, queued or logged, and nothing but a canvas can have changed. -/
structure Unarmed (page next : Page) : Prop where
  listeners : next.listeners = page.listeners
  tasks : next.tasks = page.tasks
  log : next.log = page.log
  inputs : SameInputs page next
  others : ∀ q, page.canvas? q = none → next.elements[q]? = page.elements[q]?

/-- Nothing was changed or done. -/
structure Untouched (page next : Page) : Prop where
  elements : next.elements = page.elements
  effects : next.effects = page.effects

/-- One canvas was given its size, and that is all. -/
def Resized (page next : Page) (config : Config) : Prop :=
  ∃ place canvas, page.find? config.surfaceId = some place ∧ page.canvas? place = some canvas ∧
    next.elements = page.elements.set place (.canvas (sized config canvas)) ∧
    next.effects = page.effects ++
      [.width config.surfaceId config.width, .height config.surfaceId config.height]

/-- One canvas was given its size and then filled, whole as it now is, and after that one loader
was put on one input. -/
structure Armed (page next : Page) (engine : Function) (config : Config) : Prop where
  listeners : ∃ place, page.find? config.selectorId = some place ∧
    next.listeners = page.listeners ++ [⟨.arm engine, place⟩]
  tasks : next.tasks = page.tasks
  inputs : SameInputs page next
  canvas : ∃ place old new, page.find? config.surfaceId = some place ∧
    page.canvas? place = some old ∧
    new = { sized config old with fillStyle := config.palette.foreground } ∧
    next.elements = page.elements.set place (.canvas new) ∧
    next.effects = page.effects ++
      [.width config.surfaceId config.width, .height config.surfaceId config.height,
        .fillStyle config.surfaceId config.palette.foreground,
        .fillRect config.surfaceId ⟨0, 0, new.width.toUInt64, new.height.toUInt64⟩,
        .listen config.selectorId]

/-- How a start ends that has read its configuration.  The canvas has its new size if it was
found to be one before a check failed. -/
def Ends (page : Page) (engine : Function) (config : Config)
    (outcome : Page × Except BootError Unit) : Prop :=
  match page.firstFailure? config with
  | some check =>
    outcome.2 = .error (check.error config) ∧ Unarmed page outcome.1 ∧
      if .canvas ∈ check.earlier then Resized page outcome.1 config else Untouched page outcome.1
  | none => outcome.2 = .ok () ∧ Armed page outcome.1 engine config

/-! ### A start and its checks -/

theorem level_of_passes (h : Check.level.passes page config = true) :
    ∃ level, config.level = .ok level := by
  have hSome := (Log.Level.ofName?_isSome config.logLevel).2 (of_decide_eq_true h)
  obtain ⟨level, hLevel⟩ := Option.isSome_iff_exists.1 hSome
  exact ⟨level, by rw [Config.level, hLevel]⟩

theorem level_of_fails (h : Check.level.passes page config = false) :
    config.level = .error (Check.level.error config) := by
  have hNone := mt (Log.Level.ofName?_isSome config.logLevel).1 (of_decide_eq_false h)
  rw [Config.level, Option.not_isSome_iff_eq_none.1 hNone]
  rfl

theorem exists_of_level_error {e : BootError} (h : config.level = .error e) :
    ∃ text, e = .config text := by
  unfold Config.level at h
  split at h
  · cases h
  · exact ⟨_, (Except.error.inj h).symm⟩

/-- The last that a start does. -/
def arm (page : Page) (engine : Function) (config : Config) (surface : Surface) (slot : Nat) :
    Page :=
  (((page.blankSurface surface).note Loader.armedEntry).listen engine slot config.selectorId).note
    (waitingEntry config.selectorId)

/-- What a start does when it has looked for its canvas. -/
def proceed (engine : Function) (config : Config) :
    Page × Except BootError Surface → Page × Except BootError Unit
  | (page, .error e) => (page, .error e)
  | (page, .ok surface) =>
    match page.locateInput config.selectorId with
    | .error e => (page, .error e)
    | .ok slot => (page.arm engine config surface slot, .ok ())

/-- A start that passes the first three checks goes on with the canvas. -/
theorem start_of_ready (engine : Function) {value : Value}
    (hValue : Config.ofValue value = .ok config)
    (hReady : ∀ other ∈ Check.surface.earlier, other.passes page config = true) :
    ∃ level, page.start engine value = proceed engine config
      ((page.setThreshold level).locateCanvas config.surfaceId config.width config.height
        config.palette) := by
  obtain ⟨level, hLevel⟩ := level_of_passes (hReady .level (by decide))
  have hWindow : (page.setThreshold level).hasWindow = true := hReady .window (by decide)
  have hDocument : (page.setThreshold level).hasDocument = true := hReady .document (by decide)
  refine ⟨level, ?_⟩
  simp only [start, hValue, hLevel, hWindow, hDocument, Bool.not_true, Bool.false_eq_true,
    if_false]
  rfl

theorem unarmed_setThreshold (page : Page) (level : Log.Level) :
    Unarmed page (page.setThreshold level) :=
  ⟨rfl, rfl, rfl, .of_elements rfl, fun _ _ => rfl⟩

theorem untouched_setThreshold (page : Page) (level : Log.Level) :
    Untouched page (page.setThreshold level) := ⟨rfl, rfl⟩

section Resize

variable {place : Nat} {canvas : Canvas} (hFind : page.find? config.surfaceId = some place)
  (hCanvas : page.canvas? place = some canvas) (hId : canvas.id = config.surfaceId)
  (level : Log.Level)

include hCanvas

theorem unarmed_resize : Unarmed page ((page.setThreshold level).resize config place canvas) := by
  have hThreshold : SameInputs page (page.setThreshold level) := .of_elements rfl
  have hCanvas' : (page.setThreshold level).canvas? place = some canvas := hCanvas
  refine ⟨rfl, rfl, rfl, hThreshold.trans (.resize hCanvas' config), fun q hNone => ?_⟩
  refine (getElem?_setElement (getElem?_of_canvas? hCanvas') q).trans (if_neg ?_)
  rintro rfl
  cases hNone.symm.trans hCanvas

include hFind hId

theorem resized_resize :
    Resized page ((page.setThreshold level).resize config place canvas) config := by
  refine ⟨place, canvas, hFind, hCanvas, rfl, ?_⟩
  rw [resize_effects, hId]
  rfl

end Resize

/-- A start that has found its canvas gives it its size, and finds the same input as before. -/
theorem start_of_canvas (engine : Function) {value : Value}
    (hValue : Config.ofValue value = .ok config)
    (hReady : ∀ other ∈ Check.context.earlier, other.passes page config = true) :
    ∃ level place canvas, page.find? config.surfaceId = some place ∧
      page.canvas? place = some canvas ∧ canvas.id = config.surfaceId ∧
      ((page.setThreshold level).resize config place canvas).locateInput config.selectorId =
        page.locateInput config.selectorId ∧
      page.start engine value = proceed engine config
        ((page.setThreshold level).resize config place canvas,
          if Check.context.passes page config then .ok ⟨place, config.palette⟩
          else .error (Check.context.error config)) := by
  obtain ⟨level, hStart⟩ := start_of_ready engine hValue fun other hOther =>
    hReady other ((by decide : Check.surface.earlier ⊆ Check.context.earlier) hOther)
  have hIsCanvas : Check.canvas.passes (page.setThreshold level) config = true :=
    hReady .canvas (by decide)
  obtain ⟨place, canvas, hFind, hCanvas, hId, hLocate⟩ := locateCanvas_of_canvas hIsCanvas
  have hCanvas' : page.canvas? place = some canvas := hCanvas
  have hUnarmed : Unarmed page ((page.setThreshold level).resize config place canvas) :=
    unarmed_resize hCanvas' level
  refine ⟨level, place, canvas, hFind, hCanvas, hId, hUnarmed.inputs.locateInput _, ?_⟩
  rw [hStart, hLocate]
  rfl

theorem note_elements (page : Page) (entry : Log.Entry) :
    (page.note entry).elements = page.elements := by
  obtain ⟨log, hLog⟩ := page.note_eq entry
  rw [hLog]

theorem note_effects (page : Page) (entry : Log.Entry) :
    (page.note entry).effects = page.effects := by
  obtain ⟨log, hLog⟩ := page.note_eq entry
  rw [hLog]

/-- A start that comes to its end has filled the canvas before it listens. -/
theorem armed_of_start {value : Value} {level : Log.Level} {place slot : Nat} {canvas : Canvas}
    (hValue : Config.ofValue value = .ok config) (hFind : page.find? config.surfaceId = some place)
    (hCanvas : page.canvas? place = some canvas) (hId : canvas.id = config.surfaceId)
    (hStart : page.start engine value =
      (((page.setThreshold level).resize config place canvas).arm engine config
        ⟨place, config.palette⟩ slot, .ok ())) :
    Armed page (page.start engine value).1 engine config := by
  obtain ⟨config', slot', input, hConfig, hSlot, -, hListeners, hTasks, hInputs⟩ := start_ok hStart
  obtain rfl := Except.ok.inj (hValue.symm.trans hConfig)
  have hCanvas' : (page.setThreshold level).canvas? place = some canvas := hCanvas
  obtain ⟨log, hBlank⟩ :=
    blankSurface_of_canvas (canvas?_resize hCanvas' config) config.palette
  rw [hStart]
  refine ⟨⟨slot', hSlot, hListeners⟩, hTasks, hInputs, place, canvas, _, hFind, hCanvas, rfl, ?_,
    ?_⟩
  · rw [arm, note_elements, listen, emit, note_elements, hBlank]
    exact List.set_set ..
  · rw [arm, note_effects, listen, emit, note_effects, hBlank, ← hId]
    simp only [resize_effects, List.append_assoc]
    rfl

/-- Check by check: where the first failure is says how far the start has come. -/
theorem ends_start {value : Value} (hValue : Config.ofValue value = .ok config) :
    Ends page engine config (page.start engine value) := by
  unfold Ends
  cases hFirst : page.firstFailure? config with
  | some check =>
    obtain ⟨hFails, hEarlier⟩ := passes_of_first hFirst
    dsimp only
    cases check with
    | level =>
      have hStart : page.start engine value = (page, .error (Check.level.error config)) := by
        simp only [start, hValue, level_of_fails hFails]
      rw [hStart]
      exact ⟨rfl, ⟨rfl, rfl, rfl, .refl page, fun _ _ => rfl⟩, ⟨rfl, rfl⟩⟩
    | window =>
      obtain ⟨level, hLevel⟩ := level_of_passes (hEarlier .level (by decide))
      have hWindow : (page.setThreshold level).hasWindow = false := hFails
      have hStart : page.start engine value =
          (page.setThreshold level, .error (Check.window.error config)) := by
        simp only [start, hValue, hLevel, hWindow, Bool.not_false, if_true]
        rfl
      rw [hStart]
      exact ⟨rfl, unarmed_setThreshold page level, untouched_setThreshold page level⟩
    | document =>
      obtain ⟨level, hLevel⟩ := level_of_passes (hEarlier .level (by decide))
      have hWindow : (page.setThreshold level).hasWindow = true := hEarlier .window (by decide)
      have hDocument : (page.setThreshold level).hasDocument = false := hFails
      have hStart : page.start engine value =
          (page.setThreshold level, .error (Check.document.error config)) := by
        simp only [start, hValue, hLevel, hWindow, hDocument, Bool.not_true, Bool.not_false,
          Bool.false_eq_true, if_false, if_true]
        rfl
      rw [hStart]
      exact ⟨rfl, unarmed_setThreshold page level, untouched_setThreshold page level⟩
    | surface =>
      obtain ⟨level, hStart⟩ := start_of_ready engine hValue hEarlier
      have hMissing : Check.surface.passes (page.setThreshold level) config = false := hFails
      rw [hStart, locateCanvas_of_missing hMissing]
      exact ⟨rfl, unarmed_setThreshold page level, untouched_setThreshold page level⟩
    | canvas =>
      obtain ⟨level, hStart⟩ := start_of_ready engine hValue fun other hOther =>
        hEarlier other ((by decide : Check.surface.earlier ⊆ Check.canvas.earlier) hOther)
      have hSurface : Check.surface.passes (page.setThreshold level) config = true :=
        hEarlier .surface (by decide)
      have hOther : Check.canvas.passes (page.setThreshold level) config = false := hFails
      rw [hStart, locateCanvas_of_other hSurface hOther]
      exact ⟨rfl, unarmed_setThreshold page level, untouched_setThreshold page level⟩
    | context =>
      obtain ⟨level, place, canvas, hFind, hCanvas, hId, -, hStart⟩ :=
        start_of_canvas engine hValue hEarlier
      rw [hStart, if_neg (by simp [hFails]), proceed]
      exact ⟨rfl, unarmed_resize hCanvas level, resized_resize hFind hCanvas hId level⟩
    | selector =>
      obtain ⟨level, place, canvas, hFind, hCanvas, hId, hInput, hStart⟩ :=
        start_of_canvas engine hValue fun other hOther =>
          hEarlier other ((by decide : Check.context.earlier ⊆ Check.selector.earlier) hOther)
      rw [hStart, if_pos (hEarlier .context (by decide)), proceed, hInput,
        locateInput_of_missing hFails]
      exact ⟨rfl, unarmed_resize hCanvas level, resized_resize hFind hCanvas hId level⟩
    | fileInput =>
      obtain ⟨level, place, canvas, hFind, hCanvas, hId, hInput, hStart⟩ :=
        start_of_canvas engine hValue fun other hOther =>
          hEarlier other ((by decide : Check.context.earlier ⊆ Check.fileInput.earlier) hOther)
      rw [hStart, if_pos (hEarlier .context (by decide)), proceed, hInput,
        locateInput_of_other (hEarlier .selector (by decide)) hFails]
      exact ⟨rfl, unarmed_resize hCanvas level, resized_resize hFind hCanvas hId level⟩
  | none =>
    have hPasses := passes_of_none hFirst
    obtain ⟨level, place, canvas, hFind, hCanvas, hId, hInput, hStart⟩ :=
      start_of_canvas engine hValue fun other _ => hPasses other
    obtain ⟨slot, hSlot⟩ := locateInput_of_file (hPasses .fileInput)
    rw [if_pos (hPasses .context), proceed, hInput, hSlot] at hStart
    exact ⟨by rw [hStart], armed_of_start hValue hFind hCanvas hId hStart⟩

/-- **A start makes its checks in order and arms nothing before all have passed.**  No value, or
`null`, stands for the standard configuration, and one that cannot be read leaves the page as it
was.  With a configuration the first check that fails is the error, after which nothing listens and
nothing has been painted, called or logged, and if none fails the canvas has been filled once and
one loader listens. -/
theorem start_in_order (page : Page) (engine : Function) (value : Value) :
    (Config.ofValue .undefined = .ok .standard ∧ Config.ofValue .null = .ok .standard) ∧
      match Config.ofValue value with
      | .error fault =>
        page.start engine value = (page, .error (.config ("Error: " ++ fault.message)))
      | .ok config => Ends page engine config (page.start engine value) := by
  refine ⟨⟨rfl, rfl⟩, ?_⟩
  cases hValue : Config.ofValue value with
  | error fault => simp only [start, hValue]
  | ok config => exact ends_start hValue

/-- There is no document, nor an input, and the element of that id is no canvas. -/
example :
    let page : Page := .fresh true false [.other "display"]
    (page.start (.mk "run_emu" none []) (.object [("logLevel", .string "Debug")])).2 =
      .error .noDocument := by
  cbv

end Page

end Chip8Launcher
