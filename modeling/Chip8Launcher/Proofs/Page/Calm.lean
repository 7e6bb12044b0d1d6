import Chip8Launcher.Page.Drain

/-!
# Calm stretches of a page

Most of what happens to a page leaves its canvases alone, hides and disables nothing and calls no
engine.  `Calm page next` says so of all that was done between two moments of a page.  The lemmas
go through the operations one by one, up to the steps that an engine may take of its own
(`Calm.performInside`), and `hideInput_eq` is about the one operation that is not calm.
-/

namespace Chip8Launcher.Page

/-! ### Elements -/

/-- What can be seen of an input: its id, and whether it is hidden and disabled. -/
def face? (page : Page) (place : Nat) : Option (String × Bool × Bool) :=
  (page.input? place).map fun input => (input.id, input.hidden, input.disabled)

theorem getElem?_of_input? {page : Page} {place : Nat} {input : Input}
    (h : page.input? place = some input) : page.elements[place]? = some (.input input) := by
  unfold input? at h
  split at h
  next found hFound => rw [hFound, Option.some.inj h]
  next => cases h

theorem getElem?_of_canvas? {page : Page} {place : Nat} {canvas : Canvas}
    (h : page.canvas? place = some canvas) : page.elements[place]? = some (.canvas canvas) := by
  unfold canvas? at h
  split at h
  next found hFound => rw [hFound, Option.some.inj h]
  next => cases h

theorem getElem?_setElement {page : Page} {place : Nat} {old new : Element}
    (hOld : page.elements[place]? = some old) (q : Nat) :
    (page.setElement place new).elements[q]? =
      if q = place then some new else page.elements[q]? := by
  by_cases hEq : q = place
  · subst hEq
    rw [if_pos rfl]
    exact List.getElem?_set_self (List.getElem?_eq_some_iff.1 hOld).1
  · rw [if_neg hEq]
    exact List.getElem?_set_ne (Ne.symm hEq)

theorem input?_setElement_self {page : Page} {place : Nat} {input : Input}
    (h : page.input? place = some input) (new : Input) :
    (page.setElement place (.input new)).input? place = some new := by
  rw [input?, getElem?_setElement (getElem?_of_input? h), if_pos rfl]

theorem input?_setElement_ne {page : Page} {place q : Nat} {input : Input}
    (h : page.input? place = some input) (hNe : q ≠ place) (new : Element) :
    (page.setElement place new).input? q = page.input? q := by
  rw [input?, getElem?_setElement (getElem?_of_input? h), if_neg hNe, input?]

/-- An input has no canvas to lose. -/
theorem canvas?_setElement_input {page : Page} {place : Nat} {input : Input}
    (h : page.input? place = some input) (new : Input) (q : Nat) :
    (page.setElement place (.input new)).canvas? q = page.canvas? q := by
  rw [canvas?, getElem?_setElement (getElem?_of_input? h), canvas?]
  by_cases hEq : q = place
  · subst hEq
    rw [if_pos rfl, getElem?_of_input? h]
  · rw [if_neg hEq]

theorem input?_setElement_canvas {page : Page} {place : Nat} {canvas : Canvas}
    (h : page.canvas? place = some canvas) (new : Canvas) (q : Nat) :
    (page.setElement place (.canvas new)).input? q = page.input? q := by
  rw [input?, getElem?_setElement (getElem?_of_canvas? h), input?]
  by_cases hEq : q = place
  · subst hEq
    rw [if_pos rfl, getElem?_of_canvas? h]
  · rw [if_neg hEq]

/-! ### Notes -/

/-- Logging shows nowhere else on the page. -/
theorem note_eq (page : Page) (entry : Log.Entry) :
    ∃ log, page.note entry = { page with log := log } := by
  unfold note
  split
  · split
    · exact ⟨_, rfl⟩
    · exact ⟨page.log, rfl⟩
  · exact ⟨page.log, rfl⟩

theorem noteAll_eq (page : Page) (entries : List Log.Entry) :
    ∃ log, page.noteAll entries = { page with log := log } := by
  induction entries generalizing page with
  | nil => exact ⟨page.log, rfl⟩
  | cons entry entries ih =>
    obtain ⟨log, hLog⟩ := page.note_eq entry
    obtain ⟨log', hLog'⟩ := ih (page.note entry)
    rw [hLog] at hLog'
    exact ⟨log', (congrArg (noteAll · entries) hLog).trans hLog'⟩

/-! ### Selections and settlements -/

/-- A selection changes files and may queue tasks. -/
theorem select_eq (page : Page) (id : String) (files : List File) (event : String) :
    ∃ elements tasks,
      page.select id files event = { page with elements := elements, tasks := tasks } := by
  unfold select
  split
  next => exact ⟨page.elements, page.tasks, rfl⟩
  next =>
    split
    next => exact ⟨page.elements, page.tasks, rfl⟩
    next =>
      unfold fire
      split
      · exact ⟨_, _, rfl⟩
      · exact ⟨_, page.tasks, rfl⟩

theorem settle_eq (page : Page) (read : Nat) :
    ∃ reads, (page.settle read).1 = { page with reads := reads } := by
  unfold settle
  split
  · split
    · exact ⟨page.reads, rfl⟩
    · exact ⟨_, rfl⟩
  · exact ⟨page.reads, rfl⟩

/-! ### Calm -/

/-- Neither a canvas nor the flags of an input are touched, nothing is armed and nothing called. -/
def Effect.IsQuiet : Effect → Prop
  | .readBegun _ | .inside _ | .rejected _ => True
  | _ => False

structure Calm (page next : Page) : Prop where
  canvas : ∀ q, next.canvas? q = page.canvas? q
  face : ∀ q, next.face? q = page.face? q
  effects : ∃ new, next.effects = page.effects ++ new ∧ ∀ effect ∈ new, effect.IsQuiet

namespace Calm

variable {page next last : Page}

theorem of_elements (hElements : next.elements = page.elements) {new : List Effect}
    (hEffects : next.effects = page.effects ++ new) (hQuiet : ∀ effect ∈ new, effect.IsQuiet) :
    Calm page next where
  canvas q := by rw [canvas?, canvas?, hElements]
  face q := by rw [face?, face?, input?, input?, hElements]
  effects := ⟨new, hEffects, hQuiet⟩

theorem of_eq (hElements : next.elements = page.elements) (hEffects : next.effects = page.effects) :
    Calm page next :=
  .of_elements hElements (hEffects.trans (List.append_nil _).symm) (by simp)

theorem refl (page : Page) : Calm page page := .of_eq rfl rfl

theorem trans (h : Calm page next) (h' : Calm next last) : Calm page last where
  canvas q := (h'.canvas q).trans (h.canvas q)
  face q := (h'.face q).trans (h.face q)
  effects := by
    obtain ⟨new, hNew, hQuiet⟩ := h.effects
    obtain ⟨new', hNew', hQuiet'⟩ := h'.effects
    exact ⟨new ++ new', by rw [hNew', hNew, List.append_assoc],
      List.forall_mem_append.2 ⟨hQuiet, hQuiet'⟩⟩

theorem emit (page : Page) {effect : Effect} (hQuiet : effect.IsQuiet) :
    Calm page (page.emit effect) :=
  .of_elements rfl rfl (List.forall_mem_singleton.2 hQuiet)

theorem setTask (page : Page) (k : Nat) (task : Task) : Calm page (page.setTask k task) :=
  .of_eq rfl rfl

theorem endTask (page : Page) (k place : Nat) (result : Except LoadError Unit) :
    Calm page (page.endTask k place result) := by
  cases result with
  | ok => exact setTask page k _
  | error e => exact (setTask page k _).trans (emit _ trivial)

theorem beginRead (page : Page) (file : File) : Calm page (page.beginRead file).1 :=
  .of_elements rfl rfl (List.forall_mem_singleton.2 trivial)

theorem settle (page : Page) (read : Nat) : Calm page (page.settle read).1 := by
  obtain ⟨reads, hReads⟩ := page.settle_eq read
  rw [hReads]
  exact .of_eq rfl rfl

theorem select (page : Page) (id : String) (files : List File) (event : String) :
    Calm page (page.select id files event) := by
  unfold Page.select
  split
  next => exact refl page
  next place _ =>
    split
    next => exact refl page
    next input hInput =>
      have hSet : Calm page (page.setElement place (.input { input with files := files })) := by
        refine ⟨canvas?_setElement_input hInput _, ?_, [], (List.append_nil _).symm, by simp⟩
        intro q
        by_cases hEq : q = place
        · subst hEq
          rw [face?, face?, input?_setElement_self hInput, hInput]
          rfl
        · rw [face?, face?, input?_setElement_ne hInput hEq]
      refine hSet.trans ?_
      unfold fire
      split
      · exact .of_eq rfl rfl
      · exact refl _

end Calm

/-! ### What the page's host and engines may do -/

/-- Files are selected, with an event or without, or a read comes to its end. -/
def Step.IsHost : Step → Prop
  | .select _ _ _ | .settle _ => True
  | _ => False

theorem select_listeners (page : Page) (id : String) (files : List File) (event : String) :
    (page.select id files event).listeners = page.listeners := by
  obtain ⟨elements, tasks, hSelect⟩ := page.select_eq id files event
  rw [hSelect]

theorem settle_listeners (page : Page) (read : Nat) :
    (page.settle read).1.listeners = page.listeners := by
  obtain ⟨reads, hReads⟩ := page.settle_eq read
  rw [hReads]

theorem Calm.perform (page : Page) {step : Step} (hHost : step.IsHost) :
    Calm page (step.perform page).1 ∧ (step.perform page).1.listeners = page.listeners := by
  cases step with
  | select id files event =>
    exact ⟨select page id files event, select_listeners page id files event⟩
  | settle read => exact ⟨settle page read, settle_listeners page read⟩
  | _ => cases hHost

theorem Calm.performInside (page : Page) {steps : List Step}
    (hSteps : ∀ step ∈ steps, step.IsHost) :
    Calm page (performInside page steps) ∧
      (performInside page steps).listeners = page.listeners := by
  induction steps generalizing page with
  | nil => exact ⟨refl page, rfl⟩
  | cons step steps ih =>
    obtain ⟨hStep, hSteps⟩ := List.forall_mem_cons.1 hSteps
    obtain ⟨hCalm, hListeners⟩ := Calm.perform page hStep
    obtain ⟨hCalm', hListeners'⟩ :=
      ih ((step.perform page).1.emit (.inside (step.perform page).2)) hSteps
    rw [Page.performInside]
    have hInside : (Effect.inside (step.perform page).2).IsQuiet := trivial
    exact ⟨(hCalm.trans (emit _ hInside)).trans hCalm', hListeners'.trans hListeners⟩

/-! ### Hiding -/

theorem hideInput_listeners (page : Page) (place : Nat) :
    (page.hideInput place).listeners = page.listeners := (SameQueue.hideInput page place).listeners

/-- An input that is hidden is disabled as well, and nothing else is done. -/
theorem hideInput_eq {page : Page} {place : Nat} {id : String} {hidden disabled : Bool}
    (h : page.face? place = some (id, hidden, disabled)) :
    (page.hideInput place).face? place = some (id, true, true) ∧
      (∀ q, q ≠ place → (page.hideInput place).face? q = page.face? q) ∧
      (∀ q, (page.hideInput place).canvas? q = page.canvas? q) ∧
      (page.hideInput place).effects = page.effects ++ [.hidden id, .disabled id] := by
  obtain ⟨input, hInput, hFace⟩ := Option.map_eq_some_iff.1 h
  obtain ⟨rfl, -⟩ := Prod.mk.inj hFace
  unfold hideInput
  rw [hInput]
  refine ⟨?_, ?_, ?_, ?_⟩
  · show ((page.setElement place _).input? place).map _ = _
    rw [input?_setElement_self hInput]
    rfl
  · intro q hNe
    show ((page.setElement place _).input? q).map _ = _
    rw [input?_setElement_ne hInput hNe]
    rfl
  · intro q
    exact canvas?_setElement_input hInput _ q
  · show page.effects ++ [_] ++ [_] = _
    rw [List.append_assoc]
    rfl

end Chip8Launcher.Page
