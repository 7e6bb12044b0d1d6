import Chip8Launcher.Page.Task

/-!
# Draining the queue

After a step the queued tasks are polled in the order in which they were queued, round after
round, until a round ends no task.  Tasks that are queued meanwhile join the end.

This comes to an end because a poll that ends a task either releases an engine, which makes
the page lighter (`weight`), or leaves one live task less (`poll_progress`).
-/

namespace Chip8Launcher.Page

theorem totalWeight_append (xs ys : List Listener) :
    totalWeight (xs ++ ys) = totalWeight xs + totalWeight ys := by
  induction xs with
  | nil => simp [totalWeight]
  | cons x xs ih => simp [totalWeight, ih, Nat.add_assoc]

theorem start_weight (page : Page) (engine : Function) (value : Value) :
    (page.start engine value).1.weight ≤ page.weight + sizeOf engine := by
  unfold start
  split
  · simp
  · split
    · simp
    · rename_i level _
      have hThreshold : (page.setThreshold level).weight = page.weight := rfl
      dsimp only
      split
      · simp [hThreshold]
      · split
        · simp [hThreshold]
        · rename_i config _ _ _ _ _
          have hLocate := (SameQueue.locateCanvas (page.setThreshold level) config.surfaceId
            config.width config.height config.palette).weight
          split
          · rename_i hResult
            simp only [hResult] at hLocate
            simp [hLocate, hThreshold]
          · rename_i located surface hResult
            simp only [hResult] at hLocate
            split
            · simp [hLocate, hThreshold]
            · rename_i place _
              have hBlank := ((SameQueue.blankSurface located surface).trans
                (SameQueue.note _ Loader.armedEntry)).weight
              simp only [(SameQueue.note _ _).weight]
              simp only [weight, listen, emit] at *
              simp [totalWeight_append, totalWeight, hBlank, hLocate, hThreshold, engineWeight,
                Loader.arm]

theorem select_weight (page : Page) (id : String) (files : List File) (event : String) :
    (page.select id files event).weight = page.weight := by
  unfold select
  split
  · rfl
  · split
    · rfl
    · unfold fire
      split <;> rfl

theorem setKind_weight (page : Page) (id kind : String) :
    (page.setKind id kind).weight = page.weight := by
  unfold setKind
  split
  · rfl
  · split <;> rfl

theorem settle_weight (page : Page) (read : Nat) : (page.settle read).1.weight = page.weight := by
  unfold settle
  split
  · split <;> rfl
  · rfl

theorem keepCanvas_weight (page : Page) (id : String) (width height : UInt32)
    (palette : Palette) : (page.keepCanvas id width height palette).1.weight = page.weight := by
  have hLocate := (SameQueue.locateCanvas page id width height palette).weight
  unfold keepCanvas
  split <;> simp_all [weight]

theorem keepInput_weight (page : Page) (id : String) :
    (page.keepInput id).1.weight = page.weight := by
  unfold keepInput
  split <;> rfl

theorem onSurface_weight (page : Page) {use : Surface → Page × Result}
    (h : ∀ surface, (use surface).1.weight = page.weight) :
    (page.onSurface use).1.weight = page.weight := by
  unfold onSurface
  split
  · rfl
  · exact h _

theorem performPlain_weight (page : Page) (step : Step) :
    (page.performPlain step).1.weight ≤ page.weight + sizeOf step := by
  cases step with
  | start engine value =>
    have := start_weight page engine value
    simp only [performPlain, Step.start.sizeOf_spec]
    split <;> simp_all <;> omega
  | select id files event => simp [performPlain, select_weight]
  | settle read => simp [performPlain, settle_weight]
  | setKind id kind => simp [performPlain, setKind_weight]
  | canvas id width height palette => simp [performPlain, keepCanvas_weight]
  | blank =>
    rw [performPlain, onSurface_weight]
    · omega
    · exact fun surface => (SameQueue.blankSurface page surface).weight
  | fill fill =>
    rw [performPlain, onSurface_weight]
    · omega
    · exact fun surface => (SameQueue.paint page surface fill).weight
  | dimensions =>
    rw [performPlain, onSurface_weight]
    · omega
    · exact fun surface => rfl
  | input id => simp [performPlain, keepInput_weight]
  | hide =>
    simp only [performPlain]
    split
    · simp
    · rw [(SameQueue.hideInput page _).weight]
      omega
  | run engine bytes => simp [performPlain]
  | read file =>
    simp only [performPlain, readFile]
    rw [(SameQueue.beginRead page file).weight]
    omega

mutual

theorem Function.call_weight (bytes : List UInt8) (page : Page) (engine : Function) :
    (engine.call bytes page).1.weight < page.weight + sizeOf engine := by
  cases engine with
  | mk name throws steps =>
    rw [Function.call]
    have := performInside_weight (page.emit (.called name bytes)) steps
    have := (SameQueue.emit page (.called name bytes)).weight
    simp only [Function.mk.sizeOf_spec]
    omega

theorem performInside_weight (page : Page) (steps : List Step) :
    (performInside page steps).weight ≤ page.weight + sizeOf steps := by
  cases steps with
  | nil => simp [performInside]
  | cons step steps =>
    rw [performInside]
    have := Step.perform_weight page step
    have := performInside_weight ((step.perform page).1.emit (.inside (step.perform page).2)) steps
    have := (SameQueue.emit (step.perform page).1 (.inside (step.perform page).2)).weight
    simp only [List.cons.sizeOf_spec]
    omega

theorem Step.perform_weight (page : Page) (step : Step) :
    (step.perform page).1.weight ≤ page.weight + sizeOf step := by
  cases step with
  | run engine bytes =>
    rw [Step.perform]
    have := Function.call_weight bytes page engine
    simp only [Step.run.sizeOf_spec]
    omega
  | _ =>
    rw [Step.perform]
    · exact performPlain_weight page _
    · simp

end

/-- Replacing a listener changes the weight by the difference of the two. -/
theorem setLoader_weight {page : Page} {place : Nat} {listener : Listener}
    (loader : Loader Function) (h : page.listeners[place]? = some listener) :
    (page.setLoader place listener loader).weight + engineWeight listener
      = page.weight + engineWeight { listener with loader := loader } := by
  unfold weight setLoader
  generalize page.listeners = listeners at h
  induction listeners generalizing place with
  | nil => simp at h
  | cons first rest ih =>
    cases place with
    | zero =>
      simp only [List.getElem?_cons_zero, Option.some.injEq] at h
      simp only [h, List.set_cons_zero, totalWeight]
      omega
    | succ place =>
      simp only [List.getElem?_cons_succ] at h
      have := ih h
      simp only [List.set_cons_succ, totalWeight] at *
      omega

theorem launch_weight (page : Page) (input : Nat) (handoff : Handoff Function) :
    (page.launch input handoff).1.weight < page.weight + sizeOf handoff.engine := by
  have := Function.call_weight handoff.image.bytes ((page.hideInput input).note handoff.entry)
    handoff.engine
  have := ((SameQueue.hideInput page input).trans (.note _ handoff.entry)).weight
  unfold launch
  dsimp only
  omega

/-- A delivery releases an engine or leaves weight and tasks as they are. -/
theorem deliver_progress {page : Page} {place : Nat} {listener : Listener} (file : File)
    (h : page.listeners[place]? = some listener) :
    (page.deliver place listener file).1.weight < page.weight ∨
    (page.deliver place listener file).1.weight = page.weight ∧
      (page.deliver place listener file).1.tasks = page.tasks := by
  have hSet := setLoader_weight (listener.loader.deliver file.read).1 h
  have hNote := SameQueue.noteAll
    (page.setLoader place listener (listener.loader.deliver file.read).1)
    (listener.loader.deliver file.read).2.entries
  unfold deliver
  dsimp only
  split
  · rename_i hResult
    have hEngine := Loader.deliver_engine_of_error hResult
    right
    refine ⟨?_, hNote.tasks⟩
    rw [hNote.weight]
    simp only [engineWeight, hEngine] at hSet
    omega
  · rename_i handoff hResult
    obtain ⟨hEngine, hNone⟩ := Loader.deliver_engine_of_ok hResult
    have := launch_weight ((page.setLoader place listener
      (listener.loader.deliver file.read).1).noteAll
      (listener.loader.deliver file.read).2.entries) listener.input handoff
    rw [hNote.weight] at this
    simp only [engineWeight, hEngine, hNone] at hSet
    left
    omega

theorem live_setTask {page : Page} {k : Nat} {old : Task} (new : Task)
    (h : page.tasks[k]? = some old) (hOld : old.isLive = true) :
    (page.setTask k new).live + 1 = page.live + if new.isLive then 1 else 0 := by
  unfold live setTask
  obtain ⟨hk, hGet⟩ := List.getElem?_eq_some_iff.1 h
  have : 0 < page.tasks.countP Task.isLive :=
    List.countP_pos_iff.2 ⟨old, hGet ▸ List.getElem_mem hk, hOld⟩
  rw [List.countP_set hk, hGet, hOld]
  simp only [if_true]
  omega

/-- What a poll brings about: a task that ends makes the page lighter or leaves one live task
less, and a task that does not end changes nothing that counts. -/
def Progress (page : Page) (polled : Page × Bool) : Prop :=
  if polled.2 then
    polled.1.weight < page.weight ∨ polled.1.weight = page.weight ∧ polled.1.live < page.live
  else
    polled.1.weight = page.weight ∧ polled.1.live = page.live ∧
      polled.1.tasks.length = page.tasks.length

theorem endTask_weight (page : Page) (k place : Nat) (result : Except LoadError Unit) :
    (page.endTask k place result).weight = page.weight := by
  unfold endTask
  cases result <;> rfl

theorem endTask_tasks (page : Page) (k place : Nat) (result : Except LoadError Unit) :
    (page.endTask k place result).tasks = page.tasks.set k ⟨place, .ended⟩ := by
  unfold endTask
  cases result <;> rfl

theorem advance_progress {page : Page} {k place : Nat} {listener : Listener} {read : Nat}
    {task : Task} (hListener : page.listeners[place]? = some listener)
    (hTask : page.tasks[k]? = some task) (hLive : task.isLive = true) :
    page.Progress (page.advance k place listener read) := by
  unfold advance Progress
  split
  · have := live_setTask ⟨place, .reading read⟩ hTask hLive
    simp only [Task.isLive, if_true] at this
    refine ⟨rfl, ?_, ?_⟩
    · simp only
      omega
    · simp [setTask]
  · rename_i file _
    simp only [if_true, endTask_weight]
    rcases deliver_progress file hListener with hWeight | ⟨hWeight, hTasks⟩
    · exact .inl hWeight
    · right
      refine ⟨hWeight, ?_⟩
      have := live_setTask ⟨place, .ended⟩ hTask hLive
      simp only [live, setTask, endTask_tasks, hTasks] at *
      simp only [Task.isLive, Bool.false_eq_true, if_false] at this
      omega

/-- Progress carries over from a page of the same weight and tasks. -/
theorem Progress.of_same {page next : Page} {polled : Page × Bool}
    (hWeight : next.weight = page.weight) (hTasks : next.tasks = page.tasks)
    (h : next.Progress polled) : page.Progress polled := by
  have hLive : next.live = page.live := by simp [live, hTasks]
  unfold Progress at *
  rwa [hWeight, hLive, hTasks] at h

theorem begin_progress {page : Page} {k place : Nat} {listener : Listener} {files : List File}
    {task : Task} (hListener : page.listeners[place]? = some listener)
    (hTask : page.tasks[k]? = some task) (hLive : task.isLive = true) :
    page.Progress (page.begin k place listener files) := by
  have hSet := setLoader_weight (listener.loader.pick files).1 hListener
  simp only [engineWeight, Loader.pick_engine] at hSet
  have hNote := SameQueue.note (page.setLoader place listener (listener.loader.pick files).1)
    (listener.loader.pick files).2.entry
  unfold begin
  dsimp only
  split
  · have := live_setTask ⟨place, .ended⟩ hTask hLive
    simp only [Progress, if_true, endTask_weight]
    right
    refine ⟨by rw [hNote.weight]; omega, ?_⟩
    have hTasks := hNote.tasks
    simp only [live, setTask, endTask_tasks, Task.isLive, Bool.false_eq_true, if_false] at *
    rw [hTasks]
    simp only [setLoader]
    omega
  · rename_i file _
    have hBegin := hNote.trans (.beginRead _ file)
    refine Progress.of_same (by rw [hBegin.weight]; omega) hBegin.tasks ?_
    refine advance_progress ?_ (by rw [hBegin.tasks]; exact hTask) hLive
    obtain ⟨hPlace, _⟩ := List.getElem?_eq_some_iff.1 hListener
    rw [hBegin.listeners]
    simp [setLoader, hPlace]

theorem poll_progress (page : Page) (k : Nat) : page.Progress (page.poll k) := by
  unfold poll
  split
  · simp [Progress]
  · rename_i task hTask
    split
    · rename_i hListener hPhase
      exact begin_progress hListener hTask (by simp [Task.isLive, hPhase])
    · rename_i hListener hPhase
      exact advance_progress hListener hTask (by simp [Task.isLive, hPhase])
    · simp [Progress]

/-- Polls the tasks from place `k` on; `ended` says whether the round has ended one so far. -/
def drainFrom (page : Page) (k : Nat) (ended : Bool) : Page :=
  if k < page.tasks.length then
    let polled := page.poll k
    drainFrom polled.1 (k + 1) (ended || polled.2)
  else if ended then drainFrom page 0 false
  else page
termination_by (page.weight, page.live, ended.toNat, page.tasks.length - k)
decreasing_by
  · have hProgress := poll_progress page k
    unfold Progress at hProgress
    simp only [Prod.lex_def]
    split at hProgress
    · omega
    · simp_all
      omega
  · simp_all [Prod.lex_def]

def drain (page : Page) : Page := page.drainFrom 0 false

end Chip8Launcher.Page
