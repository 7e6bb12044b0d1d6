import Chip8Launcher.Config.Basic
import Chip8Launcher.Loader
import Chip8Launcher.Page.Count
import Chip8Launcher.Page.Value

/-!
# Pages

A page has canvases, inputs and other elements.  Loaders are armed on its inputs and listen
to their changes: each change queues a task for each loader, which handles the selection when
its turn comes.  A page keeps the whole story of what was done to it and what was logged.
-/

namespace Chip8Launcher

namespace Page

/-- A file of the page, read as its content or rejected with a value.  A slow one is read only
when the page lets it. -/
structure File where
  name : String
  length : Nat
  content : Except Value (List UInt8)
  slow : Bool

def File.read (file : File) : Except ReadError (List UInt8) :=
  match file.content with
  | .ok bytes => .ok bytes
  | .error value => .error ⟨file.name, value.describe⟩

/-- What the page says about the length of the file. -/
def File.size (file : File) : Nat := count file.length

instance : Selectable File := ⟨File.name, File.size⟩

end Page

/-- What a canvas gives when it is asked for its drawing context. -/
inductive Context where
  | drawing
  | none
  | throws
  /-- A context of another class. -/
  | other
  deriving DecidableEq, Repr

structure Canvas where
  id : String
  context : Context
  width : UInt32
  height : UInt32
  fillStyle : String
  deriving DecidableEq, Repr

/-- A canvas as it comes with the page. -/
def Canvas.fresh (id : String) (context : Context) : Canvas := ⟨id, context, 300, 150, "#000000"⟩

structure Input where
  id : String
  kind : String
  hidden : Bool
  disabled : Bool
  /-- What is selected now. -/
  files : List Page.File

def Input.fresh (id kind : String) : Input := ⟨id, kind, false, false, []⟩

inductive Element where
  | canvas (canvas : Canvas)
  | input (input : Input)
  | other (id : String)

def Element.id : Element → String
  | canvas c => c.id
  | input i => i.id
  | other id => id

/-- A canvas with the colours it is painted in.  The canvas is given by its place. -/
structure Surface where
  canvas : Nat
  palette : Palette
  deriving DecidableEq, Repr

namespace Page

mutual

/-- An engine is a function of the page: it takes steps of its own, and throws or returns. -/
inductive Function where
  | mk (name : String) (throws : Option Value) (steps : List Step)

/-- What can be done to a page. -/
inductive Step where
  /-- Launch with a configuration. -/
  | start (engine : Function) (config : Value)
  /-- Set the files of an input and fire an event at it. -/
  | select (id : String) (files : List File) (event : String)
  /-- Let a read come to its end. -/
  | settle (read : Nat)
  | setKind (id kind : String)
  /-- Locate a canvas and keep it as the surface. -/
  | canvas (id : String) (width height : UInt32) (palette : Palette)
  /-- Blank the surface. -/
  | blank
  | fill (fill : Fill)
  | dimensions
  /-- Locate a file input and keep it as the selector. -/
  | input (id : String)
  /-- Hide the selector. -/
  | hide
  /-- Give an image to an engine. -/
  | run (engine : Function) (bytes : List UInt8)
  | read (file : File)

end

/-- What a step gives. -/
inductive Result where
  | none
  | started
  | startFailed (e : BootError)
  | located (text : String)
  | notLocated (e : BootError)
  | noSurface
  | noSelector
  | filled (style : String)
  | size (width height : UInt32)
  | settled (was : Bool)
  | ran (result : Except EngineError Unit)
  /-- Without content the read is still pending. -/
  | file (name : String) (size : Nat) (content : Option (Except ReadError (List UInt8)))

/-- What is done to the page, as the page sees it. -/
inductive Effect where
  | width (id : String) (n : UInt32)
  | height (id : String) (n : UInt32)
  | fillStyle (id colour : String)
  | fillRect (id : String) (rect : Rect)
  | hidden (id : String)
  | disabled (id : String)
  | listen (id : String)
  | readBegun (file : String)
  | called (function : String) (bytes : List UInt8)
  /-- A step that an engine has taken is over. -/
  | inside (result : Result)
  | rejected (message : String)

/-- A loader that listens to the changes of an input, which is given by its place. -/
structure Listener where
  loader : Loader Function
  input : Nat

inductive Phase where
  | fresh (files : List File)
  | reading (read : Nat)
  | ended

/-- The handling of one selection by one listener. -/
structure Task where
  listener : Nat
  phase : Phase

structure Read where
  file : File
  settled : Bool

end Page

structure Page where
  hasWindow : Bool
  hasDocument : Bool
  elements : List Element
  /-- Nothing is logged before a threshold is set. -/
  threshold : Option Log.Level
  listeners : List Page.Listener
  tasks : List Page.Task
  reads : List Page.Read
  surface : Option Surface
  selector : Option Nat
  effects : List Page.Effect
  log : List Log.Entry

namespace Page

def fresh (hasWindow hasDocument : Bool) (elements : List Element) : Page where
  hasWindow := hasWindow
  hasDocument := hasDocument
  elements := elements
  threshold := none
  listeners := []
  tasks := []
  reads := []
  surface := none
  selector := none
  effects := []
  log := []

def emit (page : Page) (effect : Effect) : Page :=
  { page with effects := page.effects ++ [effect] }

def note (page : Page) (entry : Log.Entry) : Page :=
  match page.threshold with
  | some threshold =>
    if entry.passes threshold then { page with log := page.log ++ [entry] } else page
  | none => page

def noteAll (page : Page) (entries : List Log.Entry) : Page := entries.foldl note page

/-- The place of the first element of that id. -/
def find? (page : Page) (id : String) : Option Nat :=
  page.elements.findIdx? (·.id == id)

def canvas? (page : Page) (place : Nat) : Option Canvas :=
  match page.elements[place]? with
  | some (.canvas canvas) => some canvas
  | _ => none

def input? (page : Page) (place : Nat) : Option Input :=
  match page.elements[place]? with
  | some (.input input) => some input
  | _ => none

def setElement (page : Page) (place : Nat) (element : Element) : Page :=
  { page with elements := page.elements.set place element }

/-- How many loaders listen to the input at a place. -/
def listenerCount (page : Page) (place : Nat) : Nat :=
  page.listeners.countP (·.input == place)

end Page

end Chip8Launcher
