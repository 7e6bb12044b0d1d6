import Chip8Launcher.Proofs.Page.Checks
import Chip8Launcher.Proofs.Page.EndToEnd
import Chip8Launcher.Proofs.Page.Handling

/-!
# Pages that loaders share

On a page that loaders share starts may come at any time, files are selected, reads come to their
end and tasks are polled in any order (`Happening.IsShared`).  Two things hold throughout.  What a
start looks for is never touched, so whether it succeeds does not hang on what happened before
(`SameScene.start`).  And every loader goes through its stages for itself: a change queues one task
for each listener of its input (`heard_filter`), and the poll of a task leaves the listeners of
other tasks alone (`Orderly.poll_other`).
-/

namespace Chip8Launcher

/-! ### Natures -/

@[simp] theorem Element.nature_id (element : Element) : element.nature.id = element.id := by
  cases element <;> rfl

@[simp] theorem Element.nature_isCanvas (element : Element) :
    element.nature.isCanvas = element.isCanvas := by
  cases element <;> rfl

@[simp] theorem Element.nature_draws (element : Element) :
    element.nature.draws = element.draws := by
  cases element <;> rfl

@[simp] theorem Element.nature_isFileInput (element : Element) :
    element.nature.isFileInput = element.isFileInput := by
  cases element <;> rfl

namespace Page

variable {page next : Page} {n k : Nat} {engine : Function} {value : Value}

theorem find?_eq_natures (page : Page) (id : String) :
    page.find? id = page.natures.findIdx? (·.id == id) := by
  rw [natures, List.findIdx?_map]
  simp [find?, Function.comp_def]

theorem element?_natures (page : Page) (id : String) :
    (page.element? id).map Element.nature = page.natures.find? (·.id == id) := by
  rw [natures, List.find?_map]
  simp [element?]

theorem isSome_element?_natures (page : Page) (id : String) :
    (page.element? id).isSome = (page.natures.find? (·.id == id)).isSome := by
  rw [← element?_natures, Option.isSome_map]

theorem isSome_input?_natures (page : Page) (place : Nat) :
    (page.input? place).isSome =
      match page.natures[place]? with
      | some (.input _) => true
      | _ => false := by
  rw [natures, List.getElem?_map, input?]
  cases page.elements[place]? with
  | none => rfl
  | some element => cases element <;> rfl

theorem find?_congr (h : next.natures = page.natures) (id : String) :
    next.find? id = page.find? id := by
  rw [find?_eq_natures, find?_eq_natures, h]

theorem isSome_input?_congr (h : next.natures = page.natures) (place : Nat) :
    (next.input? place).isSome = (page.input? place).isSome := by
  rw [isSome_input?_natures, isSome_input?_natures, h]

/-- A check that looks at an element looks at its nature. -/
theorem any_element?_natures (page : Page) (id : String) {test : Element → Bool}
    (hTest : ∀ element, test element.nature = test element) :
    (page.element? id).any test = (page.natures.find? (·.id == id)).any test := by
  rw [← element?_natures]
  cases page.element? id <;> simp [hTest]

theorem SameScene.passes (h : SameScene page next) (config : Config) (check : Check) :
    check.passes next config = check.passes page config := by
  have hSome : ∀ id, (next.element? id).isSome = (page.element? id).isSome := by
    intro id
    rw [isSome_element?_natures, isSome_element?_natures, h.natures]
  have hAny : ∀ (id : String) (test : Element → Bool),
      (∀ element, test element.nature = test element) →
        (next.element? id).any test = (page.element? id).any test := by
    intro id test hTest
    rw [any_element?_natures _ _ hTest, any_element?_natures _ _ hTest, h.natures]
  cases check with
  | level => rfl
  | window => exact h.hasWindow
  | document => exact h.hasDocument
  | surface | selector => exact hSome _
  | canvas | context | fileInput => exact hAny _ _ (by simp)

theorem SameScene.firstFailure? (h : SameScene page next) (config : Config) :
    next.firstFailure? config = page.firstFailure? config := by
  simp only [Page.firstFailure?, h.passes]

/-! ### Starts -/

/-- A start may add a listener, and queues no task. -/
theorem start_listeners (page : Page) (engine : Function) (value : Value) :
    ((page.start engine value).1.listeners = page.listeners ∨
        ∃ place, (page.start engine value).1.listeners =
          page.listeners ++ [⟨.arm engine, place⟩]) ∧
      (page.start engine value).1.tasks = page.tasks := by
  cases hValue : Config.ofValue value with
  | error fault =>
    have hStart : (page.start engine value).1 = page := by simp only [start, hValue]
    rw [hStart]
    exact ⟨.inl rfl, rfl⟩
  | ok config =>
    have hEnds : Ends page engine config (page.start engine value) := ends_start hValue
    unfold Ends at hEnds
    split at hEnds
    next => exact ⟨.inl hEnds.2.1.listeners, hEnds.2.1.tasks⟩
    next =>
      obtain ⟨place, -, hListeners⟩ := hEnds.2.listeners
      exact ⟨.inr ⟨place, hListeners⟩, hEnds.2.tasks⟩

/-- Whether a start succeeds, and on which input, hangs on the scene alone. -/
theorem SameScene.start {armed : Page} (h : SameScene page next)
    (hStart : next.start engine value = (armed, .ok ())) :
    (page.start engine value).2 = .ok () ∧
      ∃ place, armed.listeners = next.listeners ++ [⟨.arm engine, place⟩] ∧
        (page.start engine value).1.listeners = page.listeners ++ [⟨.arm engine, place⟩] := by
  obtain ⟨config, place, input, hConfig, hPlace, -, hListeners, -⟩ := start_ok hStart
  have hNext : Ends next engine config (next.start engine value) := ends_start hConfig
  have hPage : Ends page engine config (page.start engine value) := ends_start hConfig
  unfold Ends at hNext hPage
  rw [h.firstFailure?, hStart] at hNext
  split at hPage
  next check hFirst =>
    rw [hFirst] at hNext
    cases hNext.1
  next =>
    obtain ⟨place', hPlace', hArmed⟩ := hPage.2.listeners
    rw [find?_congr h.natures] at hPlace
    obtain rfl := Option.some.inj (hPlace'.symm.trans hPlace)
    exact ⟨hPage.1, place', hListeners, hArmed⟩

/-! ### Changes -/

/-- The place of the input that a change is fired at. -/
def target? (page : Page) (id event : String) : Option Nat :=
  if event = "change" then (page.find? id).filter fun place => (page.input? place).isSome else none

/-- The tasks that a change queues. -/
def heard (listeners : List Listener) (files : List File) (place : Nat) : List Task :=
  listeners.zipIdx.filterMap fun (listener, k) =>
    if listener.input == place then some ⟨k, .fresh files⟩ else none

theorem target?_congr (h : next.natures = page.natures) (id event : String) :
    next.target? id event = page.target? id event := by
  simp only [target?, find?_congr h, isSome_input?_congr h]

theorem select_tasks (page : Page) (id : String) (files : List File) (event : String) :
    (page.select id files event).tasks =
      page.tasks ++ (page.target? id event).elim [] (heard page.listeners files) := by
  unfold select target?
  by_cases hChange : event = "change"
  · rw [if_pos hChange]
    cases hFind : page.find? id with
    | none => simp
    | some place =>
      cases hInput : page.input? place with
      | none => simp [hInput, Option.filter]
      | some input => simp [hInput, Option.filter, fire, hChange, setElement, heard]
  · rw [if_neg hChange]
    cases page.find? id with
    | none => simp
    | some place =>
      cases hInput : page.input? place with
      | none => simp [hInput]
      | some input => simp [hInput, fire, hChange, setElement]

theorem filter_zipIdx {α : Type} (l : List α) (start n : Nat) :
    (l.zipIdx start).filter (·.2 == start + n) = (l[n]?).toList.map (·, start + n) := by
  induction l generalizing start n with
  | nil => simp
  | cons a l ih =>
    rw [List.zipIdx_cons]
    cases n with
    | zero =>
      have hLater : (l.zipIdx (start + 1)).filter (·.2 == start + 0) = [] := by
        refine List.filter_eq_nil_iff.2 fun entry hEntry => ?_
        have hLe := List.le_snd_of_mem_zipIdx hEntry
        simp only [Nat.add_zero, beq_iff_eq]
        omega
      rw [List.filter_cons_of_pos (by simp), hLater]
      rfl
    | succ n =>
      have hShift : start + (n + 1) = start + 1 + n := by omega
      rw [List.filter_cons_of_neg (by simp), hShift, ih]
      rfl

/-- A listener hears a change of its own input once. -/
theorem heard_filter {listener : Listener} {listeners : List Listener}
    (hListener : listeners[n]? = some listener) (files : List File) (place : Nat) :
    (heard listeners files place).filter (·.listener == n) =
      if listener.input == place then [⟨n, .fresh files⟩] else [] := by
  have hOwn := filter_zipIdx listeners 0 n
  rw [hListener, Nat.zero_add] at hOwn
  have hSwap : (heard listeners files place).filter (·.listener == n) =
      (listeners.zipIdx.filter (·.2 == n)).filterMap fun (listener, k) =>
        if listener.input == place then some (⟨k, .fresh files⟩ : Task) else none := by
    rw [heard, List.filter_filterMap, List.filterMap_filter]
    congr 1
    funext ⟨listener, k⟩
    by_cases hInput : listener.input == place <;> by_cases hOwner : k == n <;>
      simp [hInput, hOwner, Option.filter]
  rw [hSwap, hOwn]
  cases hInput : listener.input == place <;>
    simp only [Option.toList_some, List.map_cons, List.map_nil, List.filterMap_cons,
      List.filterMap_nil, hInput] <;> rfl

/-! ### Places among the tasks of a listener -/

section Places

variable {α : Type} {p : α → Bool} {l : List α} {a b : α}

/-- What is kept of a list is found at the place that counts what is kept before it. -/
theorem getElem?_filter_countP (h : l[k]? = some a) (hKept : p a = true) :
    (l.filter p)[(l.take k).countP p]? = some a := by
  induction l generalizing k with
  | nil => cases h
  | cons x l ih =>
    cases k with
    | zero =>
      obtain rfl := Option.some.inj h
      rw [List.filter_cons_of_pos hKept]
      rfl
    | succ k =>
      rw [List.take_succ_cons, List.countP_cons]
      by_cases hHead : p x = true
      · rw [List.filter_cons_of_pos hHead, if_pos hHead]
        exact ih h
      · rw [List.filter_cons_of_neg hHead, if_neg hHead]
        exact ih h

theorem filter_set_countP (h : l[k]? = some a) (hKept : p a = true) (hNew : p b = true) :
    (l.set k b).filter p = (l.filter p).set ((l.take k).countP p) b := by
  induction l generalizing k with
  | nil => cases h
  | cons x l ih =>
    cases k with
    | zero =>
      obtain rfl := Option.some.inj h
      rw [List.set_cons_zero, List.filter_cons_of_pos hKept, List.filter_cons_of_pos hNew]
      rfl
    | succ k =>
      rw [List.set_cons_succ, List.take_succ_cons, List.countP_cons]
      by_cases hHead : p x = true
      · rw [List.filter_cons_of_pos hHead, List.filter_cons_of_pos hHead, if_pos hHead, ih h]
        rfl
      · rw [List.filter_cons_of_neg hHead, List.filter_cons_of_neg hHead, if_neg hHead]
        exact ih h

/-- What is not kept can be replaced by what is not kept. -/
theorem filter_set_of_neg (h : l[k]? = some a) (hNot : ¬p a = true) (hNew : ¬p b = true) :
    (l.set k b).filter p = l.filter p := by
  induction l generalizing k with
  | nil => rfl
  | cons x l ih =>
    cases k with
    | zero =>
      obtain rfl := Option.some.inj h
      rw [List.set_cons_zero, List.filter_cons_of_neg hNot, List.filter_cons_of_neg hNew]
    | succ k =>
      rw [List.set_cons_succ, List.filter_cons, List.filter_cons, ih h]

end Places

/-! ### What always holds -/

/-- What happens on a page on which only loaders are armed whose engines take no steps. -/
def Happening.IsShared : Happening → Prop
  | .step (.start engine _) => engine.IsStill
  | .step taken => taken.IsHost
  | .poll _ => True

/-- Loaders are at their stages, engines take no steps, and every task has its listener. -/
structure Orderly (page : Page) : Prop where
  stages : ∀ listener ∈ page.listeners, ∃ engine stage, engine.IsStill ∧
    listener.loader = .atStage engine stage
  tasks : ∀ task ∈ page.tasks, task.listener < page.listeners.length

/-- The tasks of a listener, in the order of the queue. -/
def tasksOf (page : Page) (n : Nat) : List Task := page.tasks.filter (·.listener == n)

theorem isStill_of_atStage {stage : Stage} (hStill : engine.IsStill) (other : Function)
    (hOther : (Loader.atStage engine stage).engine = some other) : other.IsStill := by
  cases stage with
  | spent => cases hOther
  | _ => exact Option.some.inj hOther ▸ hStill

theorem poll_of_missing (hTask : page.tasks[k]? = none) : (page.poll k).1 = page := by
  rw [poll, hTask]

theorem listener_lt_of_heard {listeners : List Listener} {files : List File} {place : Nat}
    {task : Task} (h : task ∈ heard listeners files place) : task.listener < listeners.length := by
  obtain ⟨⟨listener, k⟩, hEntry, hTask⟩ := List.mem_filterMap.1 h
  dsimp only at hTask
  split at hTask
  · obtain rfl := Option.some.inj hTask
    exact (List.mem_zipIdx' hEntry).1
  · cases hTask

namespace Orderly

theorem fresh (hasWindow hasDocument : Bool) (elements : List Element) :
    Orderly (.fresh hasWindow hasDocument elements) :=
  ⟨List.forall_mem_nil _, List.forall_mem_nil _⟩

/-- A poll is handled for the listener of its task. -/
theorem turned (h : Orderly page) {task : Task} (hTask : page.tasks[k]? = some task) :
    ∃ engine stage input, engine.IsStill ∧
      page.listeners[task.listener]? = some ⟨.atStage engine stage, input⟩ ∧
      Turned task.listener ⟨.atStage engine stage, input⟩ k page (page.poll k).1
        (handle (.atStage engine stage) page.settled? page.reads.length task.phase) := by
  have hLt := h.tasks task (List.mem_of_getElem? hTask)
  obtain ⟨engine, stage, hStill, hLoader⟩ := h.stages _ (List.getElem_mem hLt)
  have hListener : page.listeners[task.listener]? =
      some ⟨.atStage engine stage, page.listeners[task.listener].input⟩ := by
    rw [List.getElem?_eq_getElem hLt, ← hLoader]
  exact ⟨engine, stage, _, hStill, hListener,
    poll_handled hTask hListener (isStill_of_atStage hStill)⟩

theorem poll (h : Orderly page) (k : Nat) : Orderly (page.poll k).1 := by
  cases hTask : page.tasks[k]? with
  | none =>
    rw [poll_of_missing hTask]
    exact h
  | some task =>
    obtain ⟨engine, stage, input, hStill, hListener, hTurned⟩ := h.turned hTask
    obtain ⟨stage', hLoader, -⟩ :=
      handle_fires engine stage page.settled? page.reads.length task.phase
    constructor
    · intro listener hMem
      rw [hTurned.listeners] at hMem
      rcases List.mem_or_eq_of_mem_set hMem with hMem | rfl
      · exact h.stages listener hMem
      · exact ⟨engine, stage', hStill, hLoader⟩
    · intro other hMem
      rw [hTurned.tasks] at hMem
      rw [hTurned.listeners, List.length_set]
      rcases List.mem_or_eq_of_mem_set hMem with hMem | rfl
      · exact h.tasks other hMem
      · exact h.tasks task (List.mem_of_getElem? hTask)

/-- **A poll of a task leaves all other listeners alone**, with their tasks and the reads there
are, whether or not it hides an input that they listen to. -/
theorem poll_other (h : Orderly page)
    (hOther : ∀ task, page.tasks[k]? = some task → task.listener ≠ n) :
    let next := (page.poll k).1
    next.listeners[n]? = page.listeners[n]? ∧ next.tasksOf n = page.tasksOf n ∧
      (∀ read < page.reads.length, next.reads[read]? = page.reads[read]?) ∧
      next.natures = page.natures := by
  intro next
  cases hTask : page.tasks[k]? with
  | none =>
    rw [show next = page from poll_of_missing hTask]
    exact ⟨rfl, rfl, fun _ _ => rfl, rfl⟩
  | some task =>
    obtain ⟨engine, stage, input, hStill, hListener, hTurned⟩ := h.turned hTask
    have hNe := hOther task hTask
    have hNot : ¬(task.listener == n) = true := by simpa using hNe
    refine ⟨?_, ?_, fun read hLt => ?_, hTurned.brings.scene.natures⟩
    · rw [hTurned.listeners, List.getElem?_set_ne hNe]
    · rw [tasksOf, hTurned.tasks]
      exact filter_set_of_neg hTask hNot hNot
    · rw [hTurned.brings.reads, List.getElem?_append_left hLt]

theorem start (h : Orderly page) {engine : Function} (hStill : engine.IsStill) (value : Value) :
    Orderly (page.start engine value).1 := by
  obtain ⟨hListeners, hTasks⟩ := start_listeners page engine value
  rcases hListeners with hSame | ⟨place, hArmed⟩
  · exact ⟨hSame ▸ h.stages, by rw [hTasks, hSame]; exact h.tasks⟩
  · constructor
    · rw [hArmed]
      exact List.forall_mem_append.2
        ⟨h.stages, List.forall_mem_singleton.2 ⟨engine, .waiting, hStill, rfl⟩⟩
    · rw [hTasks, hArmed, List.length_append]
      exact fun task hMem => Nat.lt_add_right _ (h.tasks task hMem)

theorem select (h : Orderly page) (id : String) (files : List File) (event : String) :
    Orderly (page.select id files event) := by
  constructor
  · rw [select_listeners]
    exact h.stages
  · rw [select_tasks, select_listeners]
    refine List.forall_mem_append.2 ⟨h.tasks, ?_⟩
    cases page.target? id event with
    | none => exact List.forall_mem_nil _
    | some place => exact fun task hMem => listener_lt_of_heard hMem

theorem settle (h : Orderly page) (read : Nat) : Orderly (page.settle read).1 := by
  obtain ⟨reads, hSettle⟩ := page.settle_eq read
  rw [hSettle]
  exact ⟨h.stages, h.tasks⟩

end Orderly

theorem happen_start (page : Page) (engine : Function) (value : Value) :
    page.happen (.step (.start engine value)) = (page.start engine value).1 := by
  rcases hStart : page.start engine value with ⟨armed, result⟩
  cases result <;> simp [happen, Step.perform, performPlain, hStart]

theorem Orderly.happen (h : Orderly page) {happening : Happening} (hShared : happening.IsShared) :
    Orderly (page.happen happening) := by
  cases happening with
  | poll k => exact h.poll k
  | step step =>
    cases step with
    | start engine value =>
      rw [happen_start]
      exact h.start hShared value
    | select id files event => exact h.select id files event
    | settle read => exact h.settle read
    | _ => cases hShared

/-- What a start could look for is there for good. -/
theorem Orderly.scene (h : Orderly page) {happening : Happening} (hShared : happening.IsShared) :
    SameScene page (page.happen happening) := by
  cases happening with
  | poll k =>
    cases hTask : page.tasks[k]? with
    | none =>
      rw [Page.happen, poll_of_missing hTask]
      exact .refl page
    | some task =>
      obtain ⟨_, _, _, -, -, hTurned⟩ := h.turned hTask
      exact hTurned.brings.scene
  | step step =>
    cases step with
    | start engine value =>
      rw [happen_start]
      exact (Brings.start page engine value).scene
    | select id files event => exact (Brings.select page id files event).scene
    | settle read =>
      obtain ⟨reads, hSettle⟩ := page.settle_eq read
      rw [show page.happen (.step (.settle read)) = _ from hSettle]
      exact ⟨rfl, rfl, rfl⟩
    | _ => cases hShared

theorem Orderly.after (h : Orderly page) {happenings : List Happening}
    (hShared : ∀ happening ∈ happenings, happening.IsShared) :
    Orderly (page.after happenings) ∧ SameScene page (page.after happenings) := by
  induction happenings generalizing page with
  | nil => exact ⟨h, .refl page⟩
  | cons happening happenings ih =>
    obtain ⟨hFirst, hLater⟩ := List.forall_mem_cons.1 hShared
    obtain ⟨hOrderly, hScene⟩ := ih (h.happen hFirst) hLater
    exact ⟨hOrderly, (h.scene hFirst).trans hScene⟩

end Page

end Chip8Launcher
