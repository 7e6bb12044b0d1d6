import Mathlib.Data.List.Basic
import Chip8Launcher.Proofs.Page.Sharing

/-!
# Loaders on one page

Loaders that were armed on one page share its elements, its queue and its reads, and one of them
hides the input that others listen to.  None of this gets in the way of the others.  What comes to
pass for one listener is what comes to pass on a page of its own, which `Mirrors` keeps beside the
page that is shared: the same loader, the tasks and reads of that listener and no others, and
elements of the same natures.

* `alone` is the run of the page of its own, read off that of the shared one.
* `Mirrors.happen` is one step of both pages, `Mirrors.after` a run of both.
-/

namespace Chip8Launcher.Page

variable {page next solo : Page} {n k : Nat} {own : List Nat} {engine : Function} {value : Value}

/-! ### The page of its own -/

/-- The phase when the reads `own` are all there are. -/
def Phase.alone (own : List Nat) : Phase → Phase
  | .reading read => .reading (own.idxOf read)
  | phase => phase

/-- The task when its listener is the only one. -/
def Task.alone (own : List Nat) (task : Task) : Task := ⟨0, task.phase.alone own⟩

/-- Listener `n` of the page, whose engine this is and whose reads are `own`, is the one listener of
the other page. -/
structure Mirrors (engine : Function) (n : Nat) (own : List Nat) (page solo : Page) : Prop where
  still : engine.IsStill
  listener : ∃ stage place, page.listeners[n]? = some ⟨.atStage engine stage, place⟩ ∧
    solo.listeners = [⟨.atStage engine stage, place⟩] ∧ solo.called.length = stage.shots
  called : ∀ call ∈ solo.called, call.1 = engine.name
  tasks : solo.tasks = (page.tasksOf n).map (Task.alone own)
  reads : solo.reads.map some = own.map (page.reads[·]?)
  nodup : own.Nodup
  /-- A read that is waited for is one of its own. -/
  waited : ∀ task ∈ page.tasksOf n, ∀ read, task.phase = .reading read → read ∈ own
  natures : solo.natures = page.natures

/-- Reads that begin later change no number. -/
theorem Phase.alone_append {phase : Phase} (hWaited : ∀ read, phase = .reading read → read ∈ own)
    (new : List Nat) : phase.alone (own ++ new) = phase.alone own := by
  cases phase with
  | reading read => rw [alone, alone, List.idxOf_append_of_mem (hWaited read rfl)]
  | _ => rfl

/-- A value is replaced at the one place where it is found. -/
theorem map_set_idxOf {α : Type} {l : List α} {read : Nat} (hNodup : own.Nodup) (hOwn : read ∈ own)
    (hLt : read < l.length) (r : α) :
    (own.map (l[·]?)).set (own.idxOf read) (some r) = own.map ((l.set read r)[·]?) := by
  induction own with
  | nil => cases hOwn
  | cons first own ih =>
    obtain ⟨hNot, hNodup⟩ := List.nodup_cons.1 hNodup
    by_cases hFirst : first = read
    · subst hFirst
      have hLater : own.map (l[·]?) = own.map ((l.set first r)[·]?) := by
        refine List.map_congr_left fun other hOther => (List.getElem?_set_ne ?_).symm
        rintro rfl
        exact hNot hOther
      rw [List.idxOf_cons_self, List.map_cons, List.set_cons_zero, List.map_cons, hLater,
        List.getElem?_set_self hLt]
    · have hLater := ih hNodup ((List.mem_cons.1 hOwn).resolve_left (Ne.symm hFirst))
      rw [List.idxOf_cons_ne _ hFirst, List.map_cons, List.set_cons_succ, List.map_cons, hLater,
        List.getElem?_set_ne (Ne.symm hFirst)]

namespace Mirrors

theorem length_reads (h : Mirrors engine n own page solo) : solo.reads.length = own.length := by
  have hLength := congrArg List.length h.reads
  simpa using hLength

theorem read_lt (h : Mirrors engine n own page solo) {read : Nat} (hOwn : read ∈ own) :
    read < page.reads.length := by
  have hMem : page.reads[read]? ∈ solo.reads.map some := by
    rw [h.reads]
    exact List.mem_map_of_mem hOwn
  obtain ⟨r, -, hRead⟩ := List.mem_map.1 hMem
  exact (List.getElem?_eq_some_iff.1 hRead.symm).1

/-- A read of its own goes by its place among them. -/
theorem getElem?_idxOf (h : Mirrors engine n own page solo) {read : Nat} (hOwn : read ∈ own) :
    solo.reads[own.idxOf read]? = page.reads[read]? := by
  have hBoth := congrArg (·[own.idxOf read]?) h.reads
  simp only [List.getElem?_map, List.getElem?_idxOf hOwn, Option.map_some] at hBoth
  cases hRead : solo.reads[own.idxOf read]? with
  | none =>
    rw [hRead] at hBoth
    cases hBoth
  | some r =>
    rw [hRead] at hBoth
    exact Option.some.inj hBoth

theorem settled? (h : Mirrors engine n own page solo) {read : Nat} (hOwn : read ∈ own) :
    solo.settled? (own.idxOf read) = page.settled? read := by
  rw [Page.settled?, Page.settled?, h.getElem?_idxOf hOwn]

/-- Whatever leaves the listener, its tasks and its reads alone leaves it mirrored. -/
theorem frame (h : Mirrors engine n own page solo)
    (hListener : next.listeners[n]? = page.listeners[n]?) (hTasks : next.tasksOf n = page.tasksOf n)
    (hReads : ∀ read ∈ own, next.reads[read]? = page.reads[read]?)
    (hNatures : next.natures = page.natures) : Mirrors engine n own next solo where
  still := h.still
  called := h.called
  listener := by
    rw [hListener]
    exact h.listener
  tasks := by
    rw [hTasks]
    exact h.tasks
  reads := h.reads.trans (List.map_congr_left fun read hOwn => (hReads read hOwn).symm)
  nodup := h.nodup
  waited := by
    rw [hTasks]
    exact h.waited
  natures := h.natures.trans hNatures.symm

/-! ### Polls of its own -/

/-- The poll on the page of its own is the poll on the page that is shared. -/
theorem handle_alone (h : Mirrors engine n own page solo) (loader : Loader Function) {phase : Phase}
    (hWaited : ∀ read, phase = .reading read → read ∈ own) :
    let handled := handle loader page.settled? page.reads.length phase
    let own' := own ++ List.range' page.reads.length handled.begun.length
    handle loader solo.settled? solo.reads.length (phase.alone own) =
        { handled with phase := handled.phase.alone own' } ∧
      ∀ read, handled.phase = .reading read → read ∈ own' := by
  intro handled own'
  cases phase with
  | ended => exact ⟨rfl, fun _ hReading => by cases hReading⟩
  | reading read =>
    have hOwn : read ∈ own := hWaited read rfl
    have hSettled := h.settled? hOwn
    simp only [handled, own', handle, Phase.alone, hSettled]
    cases page.settled? read with
    | none => simp [hOwn]
    | some file => exact ⟨rfl, fun _ hReading => by cases hReading⟩
  | fresh files =>
    have hNew : page.reads.length ∉ own := fun hOwn => Nat.lt_irrefl _ (h.read_lt hOwn)
    rcases hPick : loader.pick files with ⟨loader, selection⟩
    cases selection with
    | picked file =>
      simp only [handled, own', handle, Phase.alone, hPick]
      cases file.slow with
      | true => simp [h.length_reads, List.idxOf_append_of_notMem hNew]
      | false => exact ⟨rfl, fun _ hReading => by cases hReading⟩
    | _ =>
      simp only [handled, handle, Phase.alone, hPick]
      exact ⟨trivial, fun _ hReading => by cases hReading⟩

/-- A task goes on to another phase, on both pages. -/
theorem tasks_set (h : Mirrors engine n own page solo) {phase : Phase}
    (hTask : page.tasks[k]? = some ⟨n, phase⟩) (new : List Nat) (phase' : Phase) :
    (solo.tasks.set ((page.tasks.take k).countP (·.listener == n)) ⟨0, phase'.alone (own ++ new)⟩) =
      ((page.tasks.set k ⟨n, phase'⟩).filter (·.listener == n)).map (Task.alone (own ++ new)) := by
  have hSame : (page.tasksOf n).map (Task.alone (own ++ new)) = solo.tasks := by
    rw [h.tasks]
    refine List.map_congr_left fun task hMem => ?_
    rw [Task.alone, Task.alone, Phase.alone_append (h.waited task hMem)]
  rw [filter_set_countP hTask (beq_self_eq_true n) (beq_self_eq_true n), List.map_set, ← tasksOf,
    hSame]
  rfl

/-- A read begins, on both pages. -/
theorem reads_append (h : Mirrors engine n own page solo) (begun : List Read) :
    (solo.reads ++ begun).map some =
      (own ++ List.range' page.reads.length begun.length).map ((page.reads ++ begun)[·]?) := by
  have hOld : own.map (page.reads[·]?) = own.map ((page.reads ++ begun)[·]?) :=
    List.map_congr_left fun read hOwn => (List.getElem?_append_left (h.read_lt hOwn)).symm
  have hNew : begun.map some =
      (List.range' page.reads.length begun.length).map ((page.reads ++ begun)[·]?) := by
    refine List.ext_getElem (by simp) fun i hi _ => ?_
    simp at hi
    simp [hi]
  rw [List.map_append, List.map_append, h.reads, hOld, hNew]

theorem nodup_append (h : Mirrors engine n own page solo) (count : Nat) :
    (own ++ List.range' page.reads.length count).Nodup := by
  refine List.nodup_append.2 ⟨h.nodup, List.nodup_range', fun read hOwn other hOther => ?_⟩
  have hOld := h.read_lt hOwn
  have hNew := (List.mem_range'_1.1 hOther).1
  omega

/-- A poll of a task of the listener, on both pages. -/
theorem poll_own (h : Mirrors engine n own page solo) {phase : Phase}
    (hTask : page.tasks[k]? = some ⟨n, phase⟩) :
    let place := (page.tasks.take k).countP (·.listener == n)
    let polled := (page.poll k).1
    let own' := own ++ List.range' page.reads.length (polled.reads.length - page.reads.length)
    Mirrors engine n own' polled (solo.poll place).1 ∧
      (solo.poll place).1.called = solo.called ++ polled.called.drop page.called.length := by
  intro place polled own'
  obtain ⟨stage, input, hListener, hSolo, hShots⟩ := h.listener
  have hKept : (⟨n, phase⟩ : Task).listener == n := beq_self_eq_true n
  have hSoloTask : solo.tasks[place]? = some ⟨0, phase.alone own⟩ := by
    rw [h.tasks, List.getElem?_map, tasksOf, getElem?_filter_countP hTask hKept]
    rfl
  have hSoloListener : solo.listeners[0]? = some ⟨.atStage engine stage, input⟩ := by
    rw [hSolo]
    rfl
  have hWaited : ∀ read, phase = .reading read → read ∈ own := by
    refine h.waited ⟨n, phase⟩ (List.mem_filter.2 ⟨List.mem_of_getElem? hTask, hKept⟩)
  let handled := handle (.atStage engine stage) page.settled? page.reads.length phase
  have hTurned : Turned n ⟨.atStage engine stage, input⟩ k page polled handled :=
    poll_handled hTask hListener (isStill_of_atStage h.still)
  have hTurned' := poll_handled hSoloTask hSoloListener (isStill_of_atStage h.still)
  obtain ⟨hAlone, hWaited'⟩ := h.handle_alone (.atStage engine stage) hWaited
  rw [hAlone] at hTurned'
  have hBegun : polled.reads.length - page.reads.length = handled.begun.length := by
    rw [hTurned.brings.reads, List.length_append, Nat.add_sub_cancel_left]
  have hCalls : polled.called.drop page.called.length = handled.calls := by
    rw [hTurned.brings.called, List.drop_left]
  have hOwn : own' = own ++ List.range' page.reads.length handled.begun.length := by
    rw [← hBegun]
  obtain ⟨stage', hStage', hShots', hNames⟩ :=
    handle_fires engine stage page.settled? page.reads.length phase
  have hLt : n < page.listeners.length := (List.getElem?_eq_some_iff.1 hListener).1
  refine ⟨⟨h.still, ⟨stage', input, ?_, ?_, ?_⟩, ?_, ?_, ?_, ?_, ?_, ?_⟩, ?_⟩
  · rw [hTurned.listeners, List.getElem?_set_self hLt, ← hStage']
  · rw [hTurned'.listeners, hSolo, ← hStage']
    rfl
  · rw [hTurned'.brings.called, List.length_append, hShots, ← hShots', Nat.add_comm]
  · rw [hTurned'.brings.called]
    exact List.forall_mem_append.2 ⟨h.called, hNames⟩
  · rw [hTurned'.tasks, tasksOf, hTurned.tasks, hOwn]
    exact h.tasks_set hTask _ handled.phase
  · rw [hTurned'.brings.reads, hTurned.brings.reads, hOwn]
    exact h.reads_append handled.begun
  · exact h.nodup_append _
  · intro task hMem read hRead
    rw [tasksOf, hTurned.tasks, filter_set_countP hTask hKept (beq_self_eq_true n)] at hMem
    rw [hOwn]
    rcases List.mem_or_eq_of_mem_set hMem with hMem | rfl
    · exact List.mem_append_left _ (h.waited task hMem read hRead)
    · exact hWaited' read hRead
  · rw [hTurned'.brings.scene.natures, hTurned.brings.scene.natures, h.natures]
  · rw [hTurned'.brings.called, hCalls]

/-! ### What the two pages have in common -/

theorem lt_length (h : Mirrors engine n own page solo) : n < page.listeners.length := by
  obtain ⟨stage, input, hListener, -⟩ := h.listener
  exact (List.getElem?_eq_some_iff.1 hListener).1

theorem select (h : Mirrors engine n own page solo) (id : String) (files : List File)
    (event : String) :
    Mirrors engine n own (page.select id files event) (solo.select id files event) ∧
      (solo.select id files event).called = solo.called := by
  have hPage := Brings.select page id files event
  have hSolo := Brings.select solo id files event
  obtain ⟨stage, input, hListener, hSoloListener, hShots⟩ := h.listener
  have hCalled : (solo.select id files event).called = solo.called :=
    hSolo.called.trans (List.append_nil _)
  have hTasks : (page.select id files event).tasksOf n = page.tasksOf n ++
      (page.target? id event).elim [] fun place =>
        if input == place then [⟨n, .fresh files⟩] else [] := by
    rw [tasksOf, select_tasks, List.filter_append, ← tasksOf]
    cases page.target? id event with
    | none => rfl
    | some place => exact congrArg (page.tasksOf n ++ ·) (heard_filter hListener files place)
  have hSoloTasks : (solo.select id files event).tasks = solo.tasks ++
      (page.target? id event).elim [] fun place =>
        if input == place then [⟨0, .fresh files⟩] else [] := by
    rw [select_tasks, target?_congr h.natures, hSoloListener]
    cases page.target? id event with
    | none => rfl
    | some place =>
      by_cases hInput : input = place <;> simp [heard, hInput]
  refine ⟨⟨h.still, ⟨stage, input, ?_, ?_, ?_⟩, ?_, ?_, ?_, h.nodup, ?_, ?_⟩, hCalled⟩
  · rw [select_listeners, hListener]
  · rw [select_listeners, hSoloListener]
  · rw [hCalled, hShots]
  · rw [hCalled]
    exact h.called
  · rw [hTasks, hSoloTasks, h.tasks, List.map_append]
    cases page.target? id event with
    | none => rfl
    | some place =>
      simp only [Option.elim_some]
      split <;> rfl
  · rw [hSolo.reads, hPage.reads, List.append_nil, List.append_nil]
    exact h.reads
  · rw [hTasks]
    refine List.forall_mem_append.2 ⟨h.waited, ?_⟩
    cases page.target? id event with
    | none => exact List.forall_mem_nil _
    | some place =>
      simp only [Option.elim_some]
      split
      · exact List.forall_mem_singleton.2 (by simp)
      · exact List.forall_mem_nil _
  · rw [hSolo.scene.natures, hPage.scene.natures, h.natures]

/-- A read of its own comes to its end, on both pages. -/
theorem settle_own (h : Mirrors engine n own page solo) {read : Nat} (hOwn : read ∈ own) :
    Mirrors engine n own (page.settle read).1 (solo.settle (own.idxOf read)).1 ∧
      (solo.settle (own.idxOf read)).1.called = solo.called := by
  have hRead := h.getElem?_idxOf hOwn
  simp only [Page.settle, hRead]
  cases hSettled : page.reads[read]? with
  | none => exact ⟨h, rfl⟩
  | some r =>
    dsimp only
    split
    · exact ⟨h, rfl⟩
    · refine ⟨⟨h.still, h.listener, h.called, h.tasks, ?_, h.nodup, h.waited, h.natures⟩, rfl⟩
      rw [List.map_set, h.reads]
      exact map_set_idxOf h.nodup hOwn (h.read_lt hOwn) _

theorem settle_other (h : Mirrors engine n own page solo) {read : Nat} (hOther : read ∉ own) :
    Mirrors engine n own (page.settle read).1 solo := by
  have hReads : ∀ other ∈ own, (page.settle read).1.reads[other]? = page.reads[other]? := by
    intro other hOwn
    have hNe : read ≠ other := by
      rintro rfl
      exact hOther hOwn
    unfold Page.settle
    split
    · split
      · rfl
      · exact List.getElem?_set_ne hNe
    · rfl
  obtain ⟨reads, hSettle⟩ := page.settle_eq read
  refine h.frame ?_ ?_ hReads ?_ <;> rw [hSettle] <;> rfl

/-- A start arms another loader. -/
theorem start_other (h : Mirrors engine n own page solo) (other : Function) (value : Value) :
    Mirrors engine n own (page.start other value).1 solo := by
  obtain ⟨hListeners, hTasks⟩ := start_listeners page other value
  have hBrings := Brings.start page other value
  refine h.frame ?_ (congrArg (List.filter _) hTasks) (fun read _ => ?_) hBrings.scene.natures
  · rcases hListeners with hSame | ⟨place, hArmed⟩
    · rw [hSame]
    · rw [hArmed, List.getElem?_append_left h.lt_length]
  · rw [hBrings.reads, List.append_nil]

theorem poll_other (h : Mirrors engine n own page solo) (hOrderly : Orderly page)
    (hOther : ∀ task, page.tasks[k]? = some task → task.listener ≠ n) :
    Mirrors engine n own (page.poll k).1 solo := by
  obtain ⟨hListener, hTasks, hReads, hNatures⟩ := hOrderly.poll_other hOther
  exact h.frame hListener hTasks (fun read hOwn => hReads read (h.read_lt hOwn)) hNatures

end Mirrors

/-! ### The run of its own -/

/-- Task `k` is one of listener `n`. -/
def asks (page : Page) (n k : Nat) : Bool := (page.tasks[k]?).any (·.listener == n)

/-- What a happening is on a page on which only listener `n`, whose reads are `own`, was armed.  All
selections are the same, tasks and reads go by their places among its own, and what is not its own
does not happen. -/
def echo? (n : Nat) (own : List Nat) (page : Page) : Happening → Option Happening
  | .step (.select id files event) => some (.step (.select id files event))
  | .step (.settle read) =>
    if read ∈ own then some (.step (.settle (own.idxOf read))) else none
  | .poll k =>
    if page.asks n k then some (.poll ((page.tasks.take k).countP (·.listener == n))) else none
  | _ => none

/-- The reads of listener `n` after a happening, first to last. -/
def ownReads (n : Nat) (own : List Nat) (page : Page) : Happening → List Nat
  | .poll k =>
    if page.asks n k then
      own ++ List.range' page.reads.length ((page.poll k).1.reads.length - page.reads.length)
    else own
  | _ => own

/-- What happens on a page of its own to listener `n`, whose reads are `own`. -/
def alone (n : Nat) (own : List Nat) (page : Page) : List Happening → List Happening
  | [] => []
  | happening :: later =>
    (page.echo? n own happening).toList ++
      alone n (page.ownReads n own happening) (page.happen happening) later

/-- The calls that come of a happening through the tasks of listener `n`. -/
def callsIn (n : Nat) (page : Page) : Happening → List (String × List UInt8)
  | .poll k => if page.asks n k then (page.poll k).1.called.drop page.called.length else []
  | .step _ => []

/-- The calls that the tasks of listener `n` make. -/
def callsTo (n : Nat) (page : Page) : List Happening → List (String × List UInt8)
  | [] => []
  | happening :: later => page.callsIn n happening ++ callsTo n (page.happen happening) later

theorem Mirrors.poll (h : Mirrors engine n own page solo) (hOrderly : Orderly page) (k : Nat) :
    let solo' := solo.after (page.echo? n own (.poll k)).toList
    Mirrors engine n (page.ownReads n own (.poll k)) (page.poll k).1 solo' ∧
      solo'.called = solo.called ++ page.callsIn n (.poll k) := by
  intro solo'
  cases hAsks : page.asks n k with
  | true =>
    obtain ⟨⟨_, phase⟩, hTask, hOwner⟩ := (Option.any_eq_true _ _).1 hAsks
    obtain rfl := beq_iff_eq.1 hOwner
    simp only [solo', echo?, ownReads, callsIn, hAsks, if_true]
    exact h.poll_own hTask
  | false =>
    have hOther : ∀ task, page.tasks[k]? = some task → task.listener ≠ n := by
      intro task hTask
      simpa [asks, hTask] using hAsks
    simp only [solo', echo?, ownReads, callsIn, hAsks, Bool.false_eq_true, if_false,
      List.append_nil]
    exact ⟨h.poll_other hOrderly hOther, rfl⟩

/-- **What happens on the shared page happens on the other, or the listener is not concerned.** -/
theorem Mirrors.happen (h : Mirrors engine n own page solo) (hOrderly : Orderly page)
    {happening : Happening} (hShared : happening.IsShared) :
    let solo' := solo.after (page.echo? n own happening).toList
    Mirrors engine n (page.ownReads n own happening) (page.happen happening) solo' ∧
      solo'.called = solo.called ++ page.callsIn n happening := by
  have hNone : solo.called = solo.called ++ [] := (List.append_nil _).symm
  cases happening with
  | poll k => exact h.poll hOrderly k
  | step step =>
    cases step with
    | start other value =>
      rw [happen_start]
      exact ⟨h.start_other other value, hNone⟩
    | select id files event =>
      obtain ⟨hMirrors, hCalled⟩ := h.select id files event
      exact ⟨hMirrors, hCalled.trans hNone⟩
    | settle read =>
      by_cases hOwn : read ∈ own
      · obtain ⟨hMirrors, hCalled⟩ := h.settle_own hOwn
        simp only [echo?, if_pos hOwn]
        exact ⟨hMirrors, hCalled.trans hNone⟩
      · simp only [echo?, if_neg hOwn]
        exact ⟨h.settle_other hOwn, hNone⟩
    | _ => cases hShared

theorem Mirrors.after (h : Mirrors engine n own page solo) (hOrderly : Orderly page)
    {happenings : List Happening} (hShared : ∀ happening ∈ happenings, happening.IsShared) :
    let solo' := solo.after (page.alone n own happenings)
    (∃ own', Mirrors engine n own' (page.after happenings) solo') ∧
      solo'.called = solo.called ++ page.callsTo n happenings := by
  induction happenings generalizing page solo own with
  | nil => exact ⟨⟨own, h⟩, (List.append_nil _).symm⟩
  | cons happening happenings ih =>
    intro solo'
    obtain ⟨hFirst, hLater⟩ := List.forall_mem_cons.1 hShared
    obtain ⟨hMirrors, hCalled⟩ := h.happen hOrderly hFirst
    obtain ⟨hMirrors', hCalled'⟩ := ih hMirrors (hOrderly.happen hFirst) hLater
    have hSolo : solo' = (solo.after (page.echo? n own happening).toList).after
        ((page.happen happening).alone n (page.ownReads n own happening) happenings) :=
      after_append solo _ _
    rw [hSolo]
    refine ⟨hMirrors', ?_⟩
    rw [hCalled', hCalled, List.append_assoc, callsTo]

/-- The page after a start, and that on which nothing was done before. -/
theorem Mirrors.armed {hasWindow hasDocument : Bool} {elements : List Element} {place : Nat}
    (hOrderly : Orderly page) (hScene : SameScene (.fresh hasWindow hasDocument elements) page)
    (hStill : engine.IsStill)
    (hListeners : (page.start engine value).1.listeners =
      page.listeners ++ [⟨.arm engine, place⟩])
    (hSolo : ((fresh hasWindow hasDocument elements).start engine value).1.listeners =
      [⟨.arm engine, place⟩]) :
    Mirrors engine page.listeners.length [] (page.start engine value).1
      ((fresh hasWindow hasDocument elements).start engine value).1 := by
  have hBrings := Brings.start page engine value
  have hBringsSolo := Brings.start (.fresh hasWindow hasDocument elements) engine value
  have hNone : (page.start engine value).1.tasksOf page.listeners.length = [] := by
    rw [tasksOf, (start_listeners page engine value).2]
    refine List.filter_eq_nil_iff.2 fun task hTask => ?_
    have hLt := hOrderly.tasks task hTask
    simp only [beq_iff_eq]
    omega
  refine ⟨hStill, ⟨.waiting, place, ?_, hSolo, ?_⟩, ?_, ?_, ?_, List.nodup_nil, ?_, ?_⟩
  · rw [hListeners]
    exact List.getElem?_concat_length
  · rw [hBringsSolo.called]
    rfl
  · rw [hBringsSolo.called]
    exact List.forall_mem_nil _
  · rw [hNone, (start_listeners _ engine value).2]
    rfl
  · rw [hBringsSolo.reads]
    rfl
  · rw [hNone]
    exact List.forall_mem_nil _
  · rw [hBringsSolo.scene.natures, hBrings.scene.natures, hScene.natures]

/-- **Loaders that share a page do not interfere.**  On a page loaders are armed at any time, files
are selected, reads come to their end and tasks are polled in any order, and engines take no steps
of their own.  Take any start that succeeds.  It succeeds as well on the page as it was at first,
and if then the same selections are made there and what is the loader's own happens in the same
order, in the end the loader is the same and so are the calls of its engine, of which there is at
most one.  Whoever's task is polled, hiding an input or not, the loaders of others, their tasks and
their reads stay as they are. -/
theorem loaders_do_not_interfere (hasWindow hasDocument : Bool) (elements : List Element)
    {before later : List Happening} {name : String} {throws : Option Value} {value : Value}
    {armed : Page} (hShared : ∀ happening ∈ before ++ later, happening.IsShared)
    (hStart : ((Page.fresh hasWindow hasDocument elements).after before).start
      (.mk name throws []) value = (armed, .ok ())) :
    let origin := Page.fresh hasWindow hasDocument elements
    let n := (origin.after before).listeners.length
    let solo := (origin.start (.mk name throws []) value).1
    let page := armed.after later
    let page' := solo.after (armed.alone n [] later)
    (origin.start (.mk name throws []) value).2 = .ok () ∧
      (∃ listener, page.listeners[n]? = some listener ∧ page'.listeners = [listener]) ∧
      armed.callsTo n later = page'.called ∧ page'.called.length ≤ 1 ∧
      (∀ call ∈ page'.called, call.1 = name) ∧
      ∀ k task, page.tasks[k]? = some task → task.listener ≠ n →
        let next := (page.poll k).1
        next.listeners[n]? = page.listeners[n]? ∧ next.tasksOf n = page.tasksOf n ∧
          ∀ read < page.reads.length, next.reads[read]? = page.reads[read]? := by
  intro origin n solo page page'
  obtain ⟨hBefore, hLater⟩ := List.forall_mem_append.1 hShared
  obtain ⟨hOrderly, hScene⟩ := (Orderly.fresh hasWindow hasDocument elements).after hBefore
  obtain ⟨hOk, place, hListeners, hSolo⟩ := hScene.start hStart
  obtain rfl : _ = armed := congrArg Prod.fst hStart
  have hStill : (Function.mk name throws []).IsStill := rfl
  have hArmed := hOrderly.start hStill value
  have hMirrors : Mirrors (.mk name throws []) n []
      ((origin.after before).start (.mk name throws []) value).1 solo :=
    .armed hOrderly hScene hStill hListeners hSolo
  obtain ⟨⟨own, hLast⟩, hCalled⟩ := hMirrors.after hArmed hLater
  have hNone : solo.called = [] := (Brings.start origin _ value).called
  rw [hNone, List.nil_append] at hCalled
  obtain ⟨stage, input, hListener, hSolo', hShots⟩ := hLast.listener
  refine ⟨hOk, ⟨_, hListener, hSolo'⟩, hCalled.symm, hShots.trans_le stage.shots_le_one,
    hLast.called, ?_⟩
  intro k task hTask hNe
  have hOther : ∀ other, page.tasks[k]? = some other → other.listener ≠ n := by
    intro other hOther
    rwa [← Option.some.inj (hTask.symm.trans hOther)]
  obtain ⟨hKept, hTasks, hReads, -⟩ := (hArmed.after hLater).1.poll_other hOther
  exact ⟨hKept, hTasks, hReads⟩

/-- Two loaders listen to one input.  The first is given its image and hides the input while the
second has not begun, whose task then reads a slow file to its end. -/
theorem loaders_do_not_interfere_after_hiding :
    let pong : File := ⟨"pong.ch8", 2, .ok [0x6a, 0x02], false⟩
    let maze : File := ⟨"maze.ch8", 2, .ok [0xa2, 0x1e], true⟩
    let elements : List Element :=
      [.canvas (.fresh "display" .drawing), .input (.fresh "rom_selector" "file")]
    let before : List Happening := [.step (.start (.mk "first" none []) .undefined)]
    let select (file : File) : Happening := .step (.select "rom_selector" [file] "change")
    let later : List Happening :=
      [select maze, select pong, .poll 2, .poll 0, .poll 1, .poll 3, .step (.settle 1), .poll 1]
    let origin := Page.fresh true true elements
    let armed := ((origin.after before).start (.mk "second" none []) .undefined).1
    let solo := (origin.start (.mk "second" none []) .undefined).1
    let alone : List Happening :=
      [select maze, select pong, .poll 0, .poll 1, .step (.settle 0), .poll 0]
    (∀ happening ∈ before ++ later, happening.IsShared) ∧
      (origin.after before).start (.mk "second" none []) .undefined = (armed, .ok ()) ∧
      armed.alone 1 [] later = alone ∧
      (∃ listener, (armed.after later).listeners[1]? = some listener ∧
        (solo.after alone).listeners = [listener]) ∧
      armed.callsTo 1 later = (solo.after alone).called ∧
      (solo.after alone).called = [("second", [0xa2, 0x1e])] := by
  intro pong maze elements before select later origin armed solo alone
  have hShared : ∀ happening ∈ before ++ later, happening.IsShared := by
    simp [before, later, select, Happening.IsShared, Step.IsHost, Function.IsStill]
  have hStart : (origin.after before).start (.mk "second" none []) .undefined =
      (armed, .ok ()) := rfl
  have hAlone : armed.alone 1 [] later = alone := by
    dsimp +zetaDelta only
    rfl
  obtain ⟨-, hListener, hCalls, -⟩ := loaders_do_not_interfere true true elements hShared hStart
  have hCalled : (solo.after alone).called = [("second", [0xa2, 0x1e])] := by
    dsimp +zetaDelta only
    rfl
  rw [show (origin.after before).listeners.length = 1 from rfl, hAlone] at hListener hCalls
  exact ⟨hShared, hStart, hAlone, hListener, hCalls, hCalled⟩

end Chip8Launcher.Page
