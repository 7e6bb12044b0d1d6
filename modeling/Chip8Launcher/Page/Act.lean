import Chip8Launcher.Config.OfValue
import Chip8Launcher.Page.Basic

/-!
# What can be done to a page

`start` launches: it reads the configuration, sets the log threshold, finds window, document,
canvas and input in this order, blanks the canvas and arms a loader on the input.  The first
thing that is missing ends it, and what was done before stays done.

`Step.perform` is one step and `Function.call` gives an image to an engine, which may take
steps of its own before it returns.
-/

namespace Chip8Launcher.Page

/-- Gives a canvas its size and takes its context. -/
def locateCanvas (page : Page) (id : String) (width height : UInt32) (palette : Palette) :
    Page × Except BootError Surface :=
  match page.find? id with
  | none => (page, .error (.elementNotFound id))
  | some place =>
    match page.canvas? place with
    | none => (page, .error (.wrongElement id "canvas"))
    | some canvas =>
      let page := page.setElement place (.canvas { canvas with width := width, height := height })
      let page := (page.emit (.width canvas.id width)).emit (.height canvas.id height)
      match canvas.context with
      | .drawing => (page, .ok ⟨place, palette⟩)
      | _ => (page, .error (.contextUnavailable id))

def locateInput (page : Page) (id : String) : Except BootError Nat :=
  match page.find? id with
  | none => .error (.elementNotFound id)
  | some place =>
    match page.input? place with
    | none => .error (.wrongElement id "file input")
    | some input =>
      if input.kind = "file" then .ok place else .error (.wrongElement id "file input")

/-- The size its canvas has now. -/
def surfaceSize (page : Page) (surface : Surface) : UInt32 × UInt32 :=
  match page.canvas? surface.canvas with
  | some canvas => (canvas.width, canvas.height)
  | none => (0, 0)

def surfaceStyle (page : Page) (surface : Surface) : String :=
  match page.canvas? surface.canvas with
  | some canvas => canvas.fillStyle
  | none => ""

/-- The canvas itself clips what lies outside. -/
def paint (page : Page) (surface : Surface) (fill : Fill) : Page :=
  match page.canvas? surface.canvas with
  | none => page
  | some canvas =>
    let colour := surface.palette.colour fill.shade
    let page := page.setElement surface.canvas (.canvas { canvas with fillStyle := colour })
    (page.emit (.fillStyle canvas.id colour)).emit (.fillRect canvas.id fill.rect.counted)

def blankSurface (page : Page) (surface : Surface) : Page :=
  let (width, height) := page.surfaceSize surface
  let columns := width.toUInt64
  let rows := height.toUInt64
  (page.note (Fill.blankingEntry columns rows)).paint surface (.blanking columns rows)

def hideInput (page : Page) (place : Nat) : Page :=
  match page.input? place with
  | none => page
  | some input =>
    let page := page.setElement place (.input { input with hidden := true, disabled := true })
    (page.emit (.hidden input.id)).emit (.disabled input.id)

/-- Only the first threshold counts. -/
def setThreshold (page : Page) (level : Log.Level) : Page :=
  { page with threshold := page.threshold.or (some level) }

def listen (page : Page) (engine : Function) (place : Nat) (id : String) : Page :=
  let page := { page with listeners := page.listeners ++ [(⟨.arm engine, place⟩ : Listener)] }
  page.emit (.listen id)

def waitingEntry (id : String) : Log.Entry := .info ("waiting for a rom on `#" ++ id ++ "`")

def start (page : Page) (engine : Function) (value : Value) : Page × Except BootError Unit :=
  match Config.ofValue value with
  | .error fault => (page, .error (.config ("Error: " ++ fault.message)))
  | .ok config =>
    match config.level with
    | .error e => (page, .error e)
    | .ok level =>
      let page := page.setThreshold level
      if !page.hasWindow then (page, .error .noWindow)
      else if !page.hasDocument then (page, .error .noDocument)
      else
        match page.locateCanvas config.surfaceId config.width config.height config.palette with
        | (page, .error e) => (page, .error e)
        | (page, .ok surface) =>
          match page.locateInput config.selectorId with
          | .error e => (page, .error e)
          | .ok place =>
            let page := (page.blankSurface surface).note Loader.armedEntry
            let page := page.listen engine place config.selectorId
            (page.note (waitingEntry config.selectorId), .ok ())

/-- A change is heard by every listener, in the order in which they were armed, and each takes
the files that are selected now. -/
def fire (page : Page) (place : Nat) (files : List File) (event : String) : Page :=
  if event = "change" then
    let heard := page.listeners.zipIdx.filterMap fun (listener, k) =>
      if listener.input == place then some (⟨k, .fresh files⟩ : Task) else none
    { page with tasks := page.tasks ++ heard }
  else page

def select (page : Page) (id : String) (files : List File) (event : String) : Page :=
  match page.find? id with
  | none => page
  | some place =>
    match page.input? place with
    | none => page
    | some input =>
      (page.setElement place (.input { input with files := files })).fire place files event

def setKind (page : Page) (id kind : String) : Page :=
  match page.find? id with
  | none => page
  | some place =>
    match page.input? place with
    | none => page
    | some input => page.setElement place (.input { input with kind := kind })

/-- A read that is not slow has come to its end as soon as it begins. -/
def beginRead (page : Page) (file : File) : Page × Nat :=
  let read := page.reads.length
  let page := { page with reads := page.reads ++ [(⟨file, !file.slow⟩ : Read)] }
  (page.emit (.readBegun file.name), read)

/-- The file of a read that has come to its end. -/
def settled? (page : Page) (read : Nat) : Option File :=
  match page.reads[read]? with
  | some r => if r.settled then some r.file else none
  | none => none

def settle (page : Page) (read : Nat) : Page × Bool :=
  match page.reads[read]? with
  | some r =>
    if r.settled then (page, false)
    else ({ page with reads := page.reads.set read { r with settled := true } }, true)
  | none => (page, false)

def keepCanvas (page : Page) (id : String) (width height : UInt32) (palette : Palette) :
    Page × Result :=
  match page.locateCanvas id width height palette with
  | (page, .error e) => (page, .notLocated e)
  | (page, .ok surface) =>
    ({ page with surface := some surface }, .located (page.surfaceStyle surface))

def keepInput (page : Page) (id : String) : Page × Result :=
  match page.locateInput id with
  | .error e => (page, .notLocated e)
  | .ok place => ({ page with selector := some place }, .located id)

/-- What is done with the kept surface. -/
def onSurface (page : Page) (use : Surface → Page × Result) : Page × Result :=
  match page.surface with
  | none => (page, .noSurface)
  | some surface => use surface

def readFile (page : Page) (file : File) : Page × Result :=
  let (page, read) := page.beginRead file
  (page, .file file.name file.size ((page.settled? read).map File.read))

/-- A step that gives no engine control. -/
def performPlain (page : Page) : Step → Page × Result
  | .start engine value =>
    match page.start engine value with
    | (page, .ok ()) => (page, .started)
    | (page, .error e) => (page, .startFailed e)
  | .select id files event => (page.select id files event, .none)
  | .settle read =>
    let (page, was) := page.settle read
    (page, .settled was)
  | .setKind id kind => (page.setKind id kind, .none)
  | .canvas id width height palette => page.keepCanvas id width height palette
  | .blank => page.onSurface fun surface =>
    let page := page.blankSurface surface
    (page, .filled (page.surfaceStyle surface))
  | .fill fill => page.onSurface fun surface =>
    let page := page.paint surface fill
    (page, .filled (page.surfaceStyle surface))
  | .dimensions => page.onSurface fun surface =>
    let (width, height) := page.surfaceSize surface
    (page, .size width height)
  | .input id => page.keepInput id
  | .hide =>
    match page.selector with
    | none => (page, .noSelector)
    | some place => (page.hideInput place, .none)
  | .read file => page.readFile file
  | .run _ _ => (page, .none)

/-- What an engine ends with. -/
def outcome : Option Value → Except EngineError Unit
  | none => .ok ()
  | some value => .error ⟨value.describe⟩

mutual

/-- Gives an image to an engine.  Tasks that are queued meanwhile wait until it has returned. -/
def Function.call (bytes : List UInt8) (page : Page) : Function → Page × Except EngineError Unit
  | .mk name throws steps =>
    (performInside (page.emit (.called name bytes)) steps, outcome throws)

/-- The steps that an engine takes. -/
def performInside (page : Page) : List Step → Page
  | [] => page
  | step :: steps =>
    let (page, result) := step.perform page
    performInside (page.emit (.inside result)) steps

def Step.perform (page : Page) : Step → Page × Result
  | .run engine bytes =>
    let (page, result) := engine.call bytes page
    (page, .ran result)
  | step => page.performPlain step

end

end Chip8Launcher.Page
