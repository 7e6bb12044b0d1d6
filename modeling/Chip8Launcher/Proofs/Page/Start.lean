import Chip8Launcher.Proofs.Page.Calm

/-!
# What a start leaves

A start that succeeds has found the input that the configuration names and put one loader on it.
It touches no input, and the listeners and tasks that were there are still there.
-/

namespace Chip8Launcher.Page

/-- No input differs, and no element is found in another place. -/
structure SameInputs (page next : Page) : Prop where
  input : ∀ q, next.input? q = page.input? q
  find : ∀ id, next.find? id = page.find? id

namespace SameInputs

variable {page next last : Page}

theorem of_elements (h : next.elements = page.elements) : SameInputs page next :=
  ⟨fun q => by rw [input?, input?, h], fun id => by rw [find?, find?, h]⟩

theorem refl (page : Page) : SameInputs page page := of_elements rfl

theorem trans (h : SameInputs page next) (h' : SameInputs next last) : SameInputs page last :=
  ⟨fun q => (h'.input q).trans (h.input q), fun id => (h'.find id).trans (h.find id)⟩

theorem emit (page : Page) (effect : Effect) : SameInputs page (page.emit effect) :=
  of_elements rfl

theorem note (page : Page) (entry : Log.Entry) : SameInputs page (page.note entry) := by
  obtain ⟨log, hLog⟩ := page.note_eq entry
  rw [hLog]
  exact of_elements rfl

/-- A canvas goes on under the same id. -/
theorem setCanvas {place : Nat} {old new : Canvas} (hOld : page.canvas? place = some old)
    (hId : new.id = old.id) : SameInputs page (page.setElement place (.canvas new)) := by
  refine ⟨input?_setElement_canvas hOld new, fun id => ?_⟩
  obtain ⟨hPlace, hElement⟩ := List.getElem?_eq_some_iff.1 (getElem?_of_canvas? hOld)
  have hIds : (page.elements.set place (.canvas new)).map Element.id =
      page.elements.map Element.id := by
    rw [List.map_set, show Element.id (.canvas new) = Element.id (.canvas old) from hId, ← hElement,
      ← List.getElem_map Element.id (h := by simpa using hPlace), List.set_getElem_self]
  have hFind : ∀ elements : List Element,
      elements.findIdx? (·.id == id) = (elements.map Element.id).findIdx? (· == id) := by
    intro elements
    rw [List.findIdx?_map]
    rfl
  rw [find?, find?, hFind, hFind, ← hIds]
  rfl

theorem paint (page : Page) (surface : Surface) (fill : Fill) :
    SameInputs page (page.paint surface fill) := by
  unfold Page.paint
  split
  next => exact refl page
  next canvas hCanvas =>
    let filled := { canvas with fillStyle := surface.palette.colour fill.shade }
    have hFilled := setCanvas hCanvas (show filled.id = canvas.id from rfl)
    exact (hFilled.trans (emit _ _)).trans (emit _ _)

theorem blankSurface (page : Page) (surface : Surface) :
    SameInputs page (page.blankSurface surface) :=
  (note page _).trans (paint _ _ _)

theorem locateCanvas (page : Page) (id : String) (width height : UInt32) (palette : Palette) :
    SameInputs page (page.locateCanvas id width height palette).1 := by
  unfold Page.locateCanvas
  split
  next => exact refl page
  next place _ =>
    split
    next => exact refl page
    next canvas hCanvas =>
      let sized := { canvas with width := width, height := height }
      have hSized := ((setCanvas hCanvas (show sized.id = canvas.id from rfl)).trans
        (emit _ (.width canvas.id width))).trans (emit _ (.height canvas.id height))
      dsimp only
      split <;> exact hSized

end SameInputs

theorem locateInput_ok {page : Page} {id : String} {place : Nat}
    (h : page.locateInput id = .ok place) :
    page.find? id = some place ∧ ∃ input, page.input? place = some input := by
  unfold locateInput at h
  split at h
  next => cases h
  next found hFound =>
    split at h
    next => cases h
    next input hInput =>
      split at h
      · obtain rfl := Except.ok.inj h
        exact ⟨hFound, input, hInput⟩
      · cases h

theorem start_ok {origin armed : Page} {engine : Function} {value : Value}
    (h : origin.start engine value = (armed, .ok ())) :
    ∃ config place input, Config.ofValue value = .ok config ∧
      origin.find? config.selectorId = some place ∧ origin.input? place = some input ∧
      armed.listeners = origin.listeners ++ [⟨.arm engine, place⟩] ∧ armed.tasks = origin.tasks ∧
      SameInputs origin armed := by
  unfold start at h
  split at h
  next => cases h
  next config hConfig =>
    split at h
    next => cases h
    next level _ =>
      dsimp only at h
      split at h
      · cases h
      split at h
      · cases h
      have hSame := SameInputs.locateCanvas (origin.setThreshold level) config.surfaceId
        config.width config.height config.palette
      have hQueue := SameQueue.locateCanvas (origin.setThreshold level) config.surfaceId
        config.width config.height config.palette
      split at h
      next => cases h
      next located surface hLocated =>
        rw [hLocated] at hSame hQueue
        split at h
        next => cases h
        next place hPlace =>
          obtain ⟨hFind, input, hInput⟩ := locateInput_ok hPlace
          have hBlank := (SameInputs.blankSurface located surface).trans (.note _ Loader.armedEntry)
          have hBlankQueue :=
            (SameQueue.blankSurface located surface).trans (.note _ Loader.armedEntry)
          obtain ⟨log, hLog⟩ := note_eq
            (((located.blankSurface surface).note Loader.armedEntry).listen engine place
              config.selectorId) (waitingEntry config.selectorId)
          obtain rfl := (Prod.mk.inj h).1
          have hThreshold : SameInputs origin (origin.setThreshold level) := .of_elements rfl
          have hOrigin : SameInputs origin located := hThreshold.trans hSame
          refine ⟨config, place, input, hConfig, (hOrigin.find _).symm.trans hFind,
            (hOrigin.input place).symm.trans hInput, ?_, ?_, ?_⟩
          · rw [hLog]
            exact congrArg (· ++ [_]) (hBlankQueue.listeners.trans hQueue.listeners)
          · rw [hLog]
            exact hBlankQueue.tasks.trans hQueue.tasks
          · rw [hLog]
            exact (hOrigin.trans hBlank).trans (.of_elements rfl)

end Chip8Launcher.Page
