import Chip8Launcher.Page.Act

/-!
# Tasks

A task handles one selection for one listener.  Its first poll picks a file and begins to read
it.  As soon as a poll finds the read at its end, the content is delivered, the input hidden
and the image given to the engine, and with that the task has ended.  A task that fails shows as
a rejection.

An engine is released once and may arm further loaders only from the steps it is made of, so
`weight`, the size of all engines not yet released, never grows when a task is polled.
-/

namespace Chip8Launcher.Page

def setLoader (page : Page) (place : Nat) (listener : Listener) (loader : Loader Function) :
    Page :=
  { page with listeners := page.listeners.set place { listener with loader := loader } }

/-- Gives the image to its engine, with the input hidden before. -/
def launch (page : Page) (input : Nat) (handoff : Handoff Function) :
    Page × Except LoadError Unit :=
  let page := (page.hideInput input).note handoff.entry
  let called := handoff.engine.call handoff.image.bytes page
  (called.1, called.2.mapError .engine)

def deliver (page : Page) (place : Nat) (listener : Listener) (file : File) :
    Page × Except LoadError Unit :=
  let delivered := listener.loader.deliver file.read
  let page := (page.setLoader place listener delivered.1).noteAll delivered.2.entries
  match delivered.2.result with
  | .error e => (page, .error e)
  | .ok handoff => page.launch listener.input handoff

def setTask (page : Page) (k : Nat) (task : Task) : Page :=
  { page with tasks := page.tasks.set k task }

def endTask (page : Page) (k : Nat) (place : Nat) (result : Except LoadError Unit) : Page :=
  let page := page.setTask k ⟨place, .ended⟩
  match result with
  | .ok () => page
  | .error e => page.emit (.rejected e.message)

/-- A poll of a task whose read has begun.  The result says whether the task has ended. -/
def advance (page : Page) (k place : Nat) (listener : Listener) (read : Nat) : Page × Bool :=
  match page.settled? read with
  | none => (page.setTask k ⟨place, .reading read⟩, false)
  | some file =>
    let delivered := page.deliver place listener file
    (delivered.1.endTask k place delivered.2, true)

/-- The first poll of a task. -/
def begin (page : Page) (k place : Nat) (listener : Listener) (files : List File) : Page × Bool :=
  let picked := listener.loader.pick files
  let page := (page.setLoader place listener picked.1).note picked.2.entry
  match picked.2.file? with
  | none => (page.endTask k place (.ok ()), true)
  | some file =>
    let begun := page.beginRead file
    begun.1.advance k place { listener with loader := picked.1 } begun.2

/-- Polls a task; one that has ended is left alone. -/
def poll (page : Page) (k : Nat) : Page × Bool :=
  match page.tasks[k]? with
  | none => (page, false)
  | some task =>
    match page.listeners[task.listener]?, task.phase with
    | some listener, .fresh files => page.begin k task.listener listener files
    | some listener, .reading read => page.advance k task.listener listener read
    | _, _ => (page, false)

def Task.isLive (task : Task) : Bool :=
  match task.phase with
  | .ended => false
  | _ => true

def live (page : Page) : Nat := page.tasks.countP Task.isLive

noncomputable def engineWeight (listener : Listener) : Nat :=
  match listener.loader.engine with
  | some engine => sizeOf engine
  | none => 0

noncomputable def totalWeight : List Listener → Nat
  | [] => 0
  | listener :: rest => engineWeight listener + totalWeight rest

noncomputable def weight (page : Page) : Nat := totalWeight page.listeners

/-! ## What the steps leave alone -/

/-- Neither listeners nor tasks differ. -/
structure SameQueue (page next : Page) : Prop where
  listeners : next.listeners = page.listeners
  tasks : next.tasks = page.tasks

namespace SameQueue

theorem refl (page : Page) : SameQueue page page := ⟨rfl, rfl⟩

theorem trans {a b c : Page} (h : SameQueue a b) (g : SameQueue b c) : SameQueue a c :=
  ⟨g.listeners.trans h.listeners, g.tasks.trans h.tasks⟩

theorem weight {page next : Page} (h : SameQueue page next) : next.weight = page.weight := by
  simp [Page.weight, h.listeners]

theorem emit (page : Page) (effect : Effect) : SameQueue page (page.emit effect) := ⟨rfl, rfl⟩

theorem note (page : Page) (entry : Log.Entry) : SameQueue page (page.note entry) := by
  unfold Page.note
  split
  · split <;> exact ⟨rfl, rfl⟩
  · exact .refl page

theorem noteAll (page : Page) (entries : List Log.Entry) :
    SameQueue page (page.noteAll entries) := by
  induction entries generalizing page with
  | nil => exact .refl page
  | cons entry entries ih => exact (note page entry).trans (ih (page.note entry))

theorem hideInput (page : Page) (place : Nat) : SameQueue page (page.hideInput place) := by
  unfold Page.hideInput
  split <;> exact ⟨rfl, rfl⟩

theorem paint (page : Page) (surface : Surface) (fill : Fill) :
    SameQueue page (page.paint surface fill) := by
  unfold Page.paint
  split <;> exact ⟨rfl, rfl⟩

theorem blankSurface (page : Page) (surface : Surface) :
    SameQueue page (page.blankSurface surface) :=
  (note page _).trans (paint _ _ _)

theorem locateCanvas (page : Page) (id : String) (width height : UInt32) (palette : Palette) :
    SameQueue page (page.locateCanvas id width height palette).1 := by
  unfold Page.locateCanvas
  split
  · exact .refl page
  · split
    · exact .refl page
    · dsimp only
      split <;> exact ⟨rfl, rfl⟩

theorem beginRead (page : Page) (file : File) : SameQueue page (page.beginRead file).1 :=
  ⟨rfl, rfl⟩

end SameQueue

end Chip8Launcher.Page
