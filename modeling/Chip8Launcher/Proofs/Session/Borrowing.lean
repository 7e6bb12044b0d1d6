import Chip8Launcher.Proofs.Session.Sound
import Chip8Launcher.Session.Cell

/-!
# No borrow conflicts

`code.Holds guard?` says that a call that has the guard, or none, drops it before it gives control
away, and that it takes no other meanwhile.  Every call of the program holds nothing at its
beginning (`holds_codeOf`), so that of all calls in progress only the one on top has a guard.  The
cell shows that guard and nothing else, which is the invariant `Machine.Sound`.

The runs of a session are runs of the machine in which nobody uses the control that he has while
a read is polled (`leads_after`).
-/

namespace Chip8Launcher

/-! ### Calls -/

namespace Code

/-- The guard that is in the hands of the call is dropped before others get control. -/
inductive Holds : Option Guard → Code → Prop where
  | done : Holds none done
  | borrow {guard : Guard} {next : Code} (h : Holds (some guard) next) :
      Holds none (borrow guard next)
  | drop {guard : Guard} {next : Code} (h : Holds none next) : Holds (some guard) (drop guard next)
  | pick {files : List File} {next : Selection File → Code}
      (h : ∀ selection, Holds (some .writer) (next selection)) :
      Holds (some .writer) (pick files next)
  | deliver {content : Except ReadError (List UInt8)} {next : Delivery Engine → Code}
      (h : ∀ delivery, Holds (some .writer) (next delivery)) :
      Holds (some .writer) (deliver content next)
  | capture {guard : Guard} {next : List File → Code}
      (h : ∀ files, Holds (some guard) (next files)) : Holds (some guard) (capture next)
  | keep {guard? : Option Guard} {change : Session → Session} {next : Code}
      (h : Holds guard? next) : Holds guard? (keep change next)
  | install {guard? : Option Guard} {next : Code} (h : Holds guard? next) :
      Holds guard? (install next)
  | read {file : File} {left : Nat} {next : Code} (h : Holds none next) :
      Holds none (read file left next)
  | engine {next : Code} (h : Holds none next) : Holds none (engine next)

theorem holds_picking {files : List File} {next : Selection File → Code}
    (h : ∀ selection, Holds none (next selection)) : Holds none (picking files next) :=
  .borrow (.pick fun selection => .drop (h selection))

theorem holds_delivering {content : Except ReadError (List UInt8)} {next : Delivery Engine → Code}
    (h : ∀ delivery, Holds none (next delivery)) : Holds none (delivering content next) :=
  .borrow (.deliver fun delivery => .drop (h delivery))

theorem holds_capturing {next : List File → Code} (h : ∀ files, Holds none (next files)) :
    Holds none (capturing next) :=
  .borrow (.capture fun files => .drop (h files))

theorem holds_completing (task : Nat) (file : File) : Holds none (completing task file) := by
  refine holds_delivering fun delivery => ?_
  cases delivery.result with
  | error e => exact .keep .done
  | ok handoff => exact .keep (.engine .done)

theorem holds_handling (task : Nat) (files : List File) : Holds none (handling task files) := by
  refine holds_picking fun selection => ?_
  cases selection.file? with
  | none => exact .keep .done
  | some file => exact .keep (.read (holds_completing task file))

theorem holds_polling (task : Nat) (phase : Option Phase) : Holds none (polling task phase) := by
  unfold polling
  split
  · exact holds_handling task _
  · exact .read (holds_completing task _)
  · exact .done

theorem holds_listening : Holds none listening := holds_capturing fun _ => .keep .done

theorem holds_arming : Holds none arming := .borrow (.drop (.install .done))

theorem holds_deliveringByHand (content : Except ReadError (List UInt8)) :
    Holds none (deliveringByHand content) :=
  holds_delivering fun _ => .keep .done

/-- Who gives control away has no guard. -/
theorem Holds.eq_none {guard? : Option Guard} {code : Code} (h : Holds guard? code)
    (hForeign : code.isForeign = true) : guard? = none := by
  cases h with
  | read => rfl
  | engine => rfl
  | _ => cases hForeign

end Code

/-- The cell with one guard outstanding, or none. -/
def Borrow.of : Option Guard → Borrow
  | none => .free
  | some .reader => .readers 1
  | some .writer => .writer

theorem Borrow.take?_free (guard : Guard) : free.take? guard = some (.of (some guard)) := by
  cases guard <;> rfl

theorem Borrow.drop_of (guard : Guard) : (of (some guard)).drop guard = free := by
  cases guard <;> rfl

/-- While the cell is borrowed nobody can write. -/
theorem Borrow.take?_writer {borrow : Borrow} (h : borrow ≠ free) :
    borrow.take? .writer = none := by
  match borrow with
  | .readers 0 => exact absurd rfl h
  | .readers (_ + 1) => rfl
  | .writer => rfl

namespace Machine

/-- Of the calls in progress the latest one has the guard, if there is one. -/
inductive Holding : Option Guard → List Frame → Prop where
  | nil : Holding none []
  | cons {guard? : Option Guard} {frame : Frame} {stack : List Frame}
      (hTop : frame.code.Holds guard?) (hBelow : ∀ below ∈ stack, below.code.Holds none) :
      Holding guard? (frame :: stack)

theorem Holding.of_forall {stack : List Frame} (h : ∀ frame ∈ stack, frame.code.Holds none) :
    Holding none stack := by
  cases stack with
  | nil => exact .nil
  | cons frame stack =>
    exact .cons (h frame List.mem_cons_self) fun below hBelow => h below (.tail _ hBelow)

/-- With nothing in hand no call has anything in hand. -/
theorem Holding.forall {stack : List Frame} (h : Holding none stack) :
    ∀ frame ∈ stack, frame.code.Holds none := by
  cases h with
  | nil => exact fun _ hFrame => absurd hFrame List.not_mem_nil
  | cons hTop hBelow => exact List.forall_mem_cons.2 ⟨hTop, hBelow⟩

/-- No borrow has conflicted with another, and one that is outstanding is that of the call on
top. -/
structure Sound (m : Machine) : Prop where
  calm : m.panicked = false
  borrowed : ∃ guard?, m.cell = .of guard? ∧ Holding guard? m.stack

theorem holds_codeOf (m : Machine) (action : Action) : (m.codeOf action).Holds none := by
  cases action with
  | pick files => exact Code.holds_picking fun _ => .keep .done
  | deliver content => exact Code.holds_deliveringByHand content
  | read =>
    rw [codeOf]
    split
    · exact .done
    · exact .keep (Code.holds_deliveringByHand _)
  | start =>
    rw [codeOf]
    split
    · exact .done
    · exact .keep (.engine .done)
  | poll task =>
    rw [codeOf]
    split
    · exact .done
    · exact Code.holds_polling task _
  | cancel task =>
    rw [codeOf]
    split
    · exact .done
    · exact .keep .done
  | finish => exact .done
  | discard | spawn | draw => exact .keep .done

namespace Sound

variable {m : Machine}

/-- Where others have control, the cell is free. -/
theorem foreign (h : m.Sound) (hForeign : m.isForeign = true) :
    m.cell = .free ∧ ∀ frame ∈ m.stack, frame.code.Holds none := by
  obtain ⟨guard?, hCell, hHolding⟩ := h.borrowed
  suffices hNone : guard? = none by
    subst hNone
    exact ⟨hCell, hHolding.forall⟩
  rw [isForeign] at hForeign
  generalize m.stack = stack at hForeign hHolding
  cases hHolding with
  | nil => rfl
  | cons hTop hBelow => exact hTop.eq_none hForeign

/-- A call that waits for a read or for an engine has nothing in hand. -/
theorem holds_of_isForeign (h : m.Sound) :
    ∀ frame ∈ m.stack, frame.code.isForeign = true → frame.code.Holds none := by
  obtain ⟨guard?, -, hHolding⟩ := h.borrowed
  generalize m.stack = stack at hHolding ⊢
  cases hHolding with
  | nil => exact fun _ hFrame => absurd hFrame List.not_mem_nil
  | cons hTop hBelow =>
    refine List.forall_mem_cons.2 ⟨fun hForeign => ?_, fun below hMem _ => hBelow below hMem⟩
    obtain rfl := hTop.eq_none hForeign
    exact hTop

theorem of_foreign (hCalm : m.panicked = false) (hCell : m.cell = .free)
    (hStack : ∀ frame ∈ m.stack, frame.code.Holds none) : m.Sound :=
  ⟨hCalm, none, hCell, .of_forall hStack⟩

theorem arm (engine : Engine) (screen : Framebuffer) : (Machine.arm engine screen).Sound :=
  of_foreign rfl rfl fun _ hFrame => absurd hFrame List.not_mem_nil

/-- A borrow that is asked for does not conflict. -/
theorem take? (h : m.Sound) {task : Option Nat} {guard : Guard} {next : Code} {stack : List Frame}
    (hStack : m.stack = ⟨task, .borrow guard next⟩ :: stack) :
    m.cell.take? guard = some (.of (some guard)) := by
  obtain ⟨guard?, hCell, hHolding⟩ := h.borrowed
  rw [hStack] at hHolding
  cases hHolding with
  | cons hTop hBelow =>
    cases hTop with
    | borrow hNext =>
      rw [hCell]
      exact Borrow.take?_free guard

/-- The call on top keeps to what it holds. -/
theorem advance (h : m.Sound) : m.advance.Sound := by
  obtain ⟨session, selected, listeners, cell, stack, panicked⟩ := m
  obtain ⟨hCalm, guard?, hCell, hHolding⟩ := h
  dsimp only at hCalm hCell hHolding
  subst hCalm hCell
  cases hHolding with
  | nil => exact ⟨rfl, none, rfl, .nil⟩
  | @cons _ frame stack hTop hBelow =>
    obtain ⟨task, code⟩ := frame
    cases hTop with
    | done => exact ⟨rfl, none, rfl, .of_forall hBelow⟩
    | @borrow guard next hNext =>
      simp only [Machine.advance, Borrow.of, Borrow.take?_free]
      exact ⟨rfl, some guard, rfl, .cons hNext hBelow⟩
    | @drop guard next hNext => exact ⟨rfl, none, Borrow.drop_of guard, .cons hNext hBelow⟩
    | pick hNext => exact ⟨rfl, _, rfl, .cons (hNext _) hBelow⟩
    | deliver hNext => exact ⟨rfl, _, rfl, .cons (hNext _) hBelow⟩
    | capture hNext => exact ⟨rfl, _, rfl, .cons (hNext _) hBelow⟩
    | keep hNext => exact ⟨rfl, _, rfl, .cons hNext hBelow⟩
    | install hNext => exact ⟨rfl, _, rfl, .cons hNext hBelow⟩
    | read hNext => exact ⟨rfl, none, rfl, .cons (.read hNext) hBelow⟩
    | engine hNext => exact ⟨rfl, none, rfl, .cons (.engine hNext) hBelow⟩

theorem giveBack (h : m.Sound) (hForeign : m.isForeign = true) : m.giveBack.Sound := by
  obtain ⟨hCell, hStack⟩ := h.foreign hForeign
  rw [Machine.giveBack]
  split
  next hEq =>
    rw [hEq, List.forall_mem_cons] at hStack
    cases hStack.1 with
    | read hNext => exact of_foreign h.calm hCell (List.forall_mem_cons.2 ⟨hNext, hStack.2⟩)
  next hEq =>
    rw [hEq, List.forall_mem_cons] at hStack
    exact of_foreign h.calm hCell hStack.2
  next hEq =>
    rw [hEq, List.forall_mem_cons] at hStack
    cases hStack.1 with
    | engine hNext => exact of_foreign h.calm hCell (List.forall_mem_cons.2 ⟨hNext, hStack.2⟩)
  next => exact h

/-- A call that holds nothing can be made where others have control. -/
theorem call (h : m.Sound) (hForeign : m.isForeign = true) (task : Option Nat) {code : Code}
    (hCode : code.Holds none) : (m.call task code).Sound := by
  obtain ⟨hCell, hStack⟩ := h.foreign hForeign
  exact of_foreign h.calm hCell (List.forall_mem_cons.2 ⟨hCode, hStack⟩)

theorem act (h : m.Sound) (hForeign : m.isForeign = true) (choice : Choice) :
    (m.act choice).Sound := by
  cases choice with
  | take action => exact h.call hForeign _ (m.holds_codeOf action)
  | change =>
    rw [Machine.act]
    split
    · exact h
    · exact h.call hForeign _ Code.holds_listening
  | select files => exact ⟨h.calm, h.borrowed⟩
  | arm => exact h.call hForeign _ Code.holds_arming
  | giveBack => exact h.giveBack hForeign
  | advance => exact h

theorem next (h : m.Sound) (choice : Choice) : (m.next choice).Sound := by
  unfold Machine.next
  split
  · exact h
  · split
    next hForeign => exact h.act hForeign choice
    next =>
      split
      · exact h.advance
      · exact h

theorem after (h : m.Sound) (choices : List Choice) : (m.after choices).Sound := by
  induction choices generalizing m with
  | nil => exact h
  | cons choice choices ih => exact ih (h.next choice)

end Sound

theorem next_of_foreign {m : Machine} (hCalm : m.panicked = false) (hForeign : m.isForeign = true)
    (choice : Choice) : m.next choice = m.act choice := by
  unfold next
  rw [if_neg (by simp [hCalm]), if_pos hForeign]

/-- Where others have control no use of the loader panics if the cell is free, and only then. -/
theorem calm_iff_free {m : Machine} (hCalm : m.panicked = false) (hForeign : m.isForeign = true)
    (hStack : ∀ frame ∈ m.stack, frame.code.Holds none) :
    (∀ choices, (m.after choices).panicked = false) ↔ m.cell = .free := by
  constructor
  · -- a selection of nothing, picked by hand, is enough to panic
    intro hSafe
    refine Decidable.byContradiction fun hCell => ?_
    have hPanicked : ((m.next (.take (.pick []))).next .advance).panicked = true := by
      rw [next_of_foreign hCalm hForeign]
      simp [next, act, call, hCalm, codeOf, isForeign, Code.picking, Code.isForeign, advance,
        Borrow.take?_writer hCell]
    exact Bool.false_ne_true ((hSafe [.take (.pick []), .advance]).symm.trans hPanicked)
  · intro hCell choices
    exact ((Sound.of_foreign hCalm hCell hStack).after choices).calm

/-- A guard that is kept while the read is polled. -/
example (engine : Engine) (screen : Framebuffer) (file : File) :
    let kept := Code.borrow .writer (.pick [file] fun _ => .read file 0 (.drop .writer .done))
    (((arm engine screen).call none kept).after
      [.advance, .advance, .take (.pick []), .advance]).panicked = true := by
  cbv

/-! ### Runs of a session -/

/-- The machine of a session in which only the engines that have control are in progress. -/
def ofSession (selected : List File) (listeners : Nat) (s : Session) : Machine where
  session := s
  selected := selected
  listeners := listeners
  cell := .free
  stack := s.running.map fun activation => ⟨activation.task, .engine .done⟩
  panicked := false

/-- The one machine becomes the other. -/
def Leads (m m' : Machine) : Prop := ∃ choices, m.after choices = m'

namespace Leads

theorem refl (m : Machine) : Leads m m := ⟨[], rfl⟩

theorem head {m m' : Machine} (choice : Choice) (h : Leads (m.next choice) m') : Leads m m' := by
  obtain ⟨choices, rfl⟩ := h
  exact ⟨choice :: choices, rfl⟩

theorem trans {m m' m'' : Machine} (h : Leads m m') (h' : Leads m' m'') : Leads m m'' := by
  obtain ⟨choices, rfl⟩ := h
  obtain ⟨choices', rfl⟩ := h'
  exact ⟨choices ++ choices', List.foldl_append⟩

variable {s : Session} {selected : List File} {listeners : Nat} {task : Option Nat}
  {stack : List Frame} {m : Machine}

theorem picking {files : List File} {next : Selection File → Code}
    (h : Leads ⟨{ s with loader := (s.loader.pick files).1 }, selected, listeners, .free,
      ⟨task, next (s.loader.pick files).2⟩ :: stack, false⟩ m) :
    Leads ⟨s, selected, listeners, .free, ⟨task, .picking files next⟩ :: stack, false⟩ m :=
  trans ⟨[.advance, .advance, .advance], rfl⟩ h

theorem delivering {content : Except ReadError (List UInt8)} {next : Delivery Engine → Code}
    (h : Leads ⟨{ s with loader := (s.loader.deliver content).1 }, selected, listeners, .free,
      ⟨task, next (s.loader.deliver content).2⟩ :: stack, false⟩ m) :
    Leads ⟨s, selected, listeners, .free, ⟨task, .delivering content next⟩ :: stack, false⟩ m :=
  trans ⟨[.advance, .advance, .advance], rfl⟩ h

theorem keep {change : Session → Session} {next : Code}
    (h : Leads ⟨{ change s with loader := s.loader }, selected, listeners, .free,
      ⟨task, next⟩ :: stack, false⟩ m) :
    Leads ⟨s, selected, listeners, .free, ⟨task, .keep change next⟩ :: stack, false⟩ m :=
  trans ⟨[.advance], rfl⟩ h

theorem done :
    Leads ⟨s, selected, listeners, .free, ⟨task, .done⟩ :: stack, false⟩
      ⟨s, selected, listeners, .free, stack, false⟩ :=
  ⟨[.advance], rfl⟩

end Leads

section Runs

variable {selected : List File} {listeners : Nat} {s : Session}

theorem isForeign_ofSession : (ofSession selected listeners s).isForeign = true := by
  cases hRunning : s.running <;> simp [isForeign, ofSession, hRunning, Code.isForeign]

/-- Who has control takes a step, which is a call on top of the engines. -/
theorem Leads.take (action : Action) {m : Machine}
    (h : Leads ⟨s, selected, listeners, .free,
      ⟨polled action, (ofSession selected listeners s).codeOf action⟩ ::
        (ofSession selected listeners s).stack, false⟩ m) :
    Leads (ofSession selected listeners s) m := by
  refine .head (.take action) ?_
  rw [next_of_foreign rfl isForeign_ofSession]
  exact h

/-- A poll from the moment at which the read is over. -/
theorem leads_completing (task : Nat) (file : File) :
    Leads ⟨s, selected, listeners, .free, ⟨some task, .completing task file⟩ ::
        (ofSession selected listeners s).stack, false⟩
      (ofSession selected listeners (s.complete task file).1) := by
  refine .delivering ?_
  rcases hDeliver : s.loader.deliver file.read with ⟨loader, delivery⟩
  cases hResult : delivery.result with
  | error e =>
    simp only [Session.complete, hDeliver, hResult]
    exact .keep .done
  | ok handoff =>
    simp only [Session.complete, hDeliver, hResult]
    exact .keep (.refl _)

theorem leads_reading (task : Nat) (file : File) (left : Nat) :
    Leads ⟨s, selected, listeners, .free, ⟨some task, .read file left (.completing task file)⟩ ::
        (ofSession selected listeners s).stack, false⟩
      (ofSession selected listeners (s.advance task file left).1) := by
  cases left with
  | zero => exact .trans ⟨[.giveBack], rfl⟩ (leads_completing task file)
  | succ left => exact ⟨[.giveBack], rfl⟩

theorem leads_handling (task : Nat) (files : List File) :
    Leads ⟨s, selected, listeners, .free, ⟨some task, .handling task files⟩ ::
        (ofSession selected listeners s).stack, false⟩
      (ofSession selected listeners (s.begin task files).1) := by
  refine .picking ?_
  rcases hPick : s.loader.pick files with ⟨loader, selection⟩
  cases hFile : selection.file? with
  | none =>
    simp only [Session.begin, hPick, hFile]
    exact .keep .done
  | some file =>
    simp only [Session.begin, hPick, hFile]
    refine .keep ?_
    have hReading := @leads_reading selected listeners
      ({ s with loader := loader }.setTask task (.reading file file.delay)) task file file.delay
    rw [Session.advance_setTask] at hReading
    exact hReading

/-- The tasks that are being polled are those that wait for their engines. -/
theorem isPolled_ofSession {engine : Engine} {calls : List Call} (h : Session.Sound engine calls s)
    {task : Nat} {phase : Phase} (hPhase : s.tasks[task]? = some phase) (hNe : phase ≠ .launching) :
    (ofSession selected listeners s).isPolled task = false := by
  refine Bool.eq_false_iff.2 fun hPolled => hNe ?_
  simp only [isPolled, ofSession, List.any_map, List.any_eq_true, Function.comp_apply,
    beq_iff_eq] at hPolled
  obtain ⟨activation, hActivation, hTask⟩ := hPolled
  exact Option.some.inj (hPhase.symm.trans (h.launching activation hActivation task hTask))

theorem leads_poll {engine : Engine} {calls : List Call} (h : Session.Sound engine calls s)
    (task : Nat) :
    Leads (ofSession selected listeners s) (ofSession selected listeners (s.poll task).1) := by
  have hCode {phase : Phase} (hPhase : s.tasks[task]? = some phase) (hNe : phase ≠ .launching) :
      (ofSession selected listeners s).codeOf (.poll task) = .polling task (some phase) := by
    rw [codeOf, isPolled_ofSession h hPhase hNe, ← hPhase]
    rfl
  rw [Session.poll]
  split
  next files hPhase =>
    refine .take (.poll task) ?_
    rw [hCode hPhase (by simp)]
    exact leads_handling task files
  next file left hPhase =>
    refine .take (.poll task) ?_
    rw [hCode hPhase (by simp)]
    exact leads_reading task file left
  next => exact .refl _

theorem leads_cancel {engine : Engine} {calls : List Call} (h : Session.Sound engine calls s)
    (task : Nat) :
    Leads (ofSession selected listeners s) (ofSession selected listeners (s.cancel task).1) := by
  have hTake {phase phase' : Phase} (hPhase : s.tasks[task]? = some phase)
      (hNe : phase ≠ .launching) (hCancel : (s.cancel task).1 = s.setTask task phase') :
      Leads (ofSession selected listeners s)
        (ofSession selected listeners (s.setTask task phase')) := by
    refine .take (.cancel task) ?_
    rw [codeOf, isPolled_ofSession h hPhase hNe]
    refine .keep ?_
    simp only [Session.act, hCancel]
    exact .done
  rw [Session.cancel]
  split
  next hPhase => exact hTake hPhase (by simp) (by rw [Session.cancel, hPhase])
  next hPhase => exact hTake hPhase (by simp) (by rw [Session.cancel, hPhase])
  next => exact .refl _

theorem leads_finish :
    Leads (ofSession selected listeners s) (ofSession selected listeners s.finish.1) := by
  obtain ⟨loader, tasks, picked, handoff, running, received, screen⟩ := s
  cases running with
  | nil => exact .refl _
  | cons activation running =>
    obtain ⟨task?, handoff⟩ := activation
    cases task? with
    | none => exact ⟨[.giveBack, .advance], rfl⟩
    | some task => exact ⟨[.giveBack, .advance], rfl⟩

theorem leads_act {engine : Engine} {calls : List Call} (h : Session.Sound engine calls s)
    (action : Action) :
    Leads (ofSession selected listeners s) (ofSession selected listeners (s.act action).1) := by
  cases action with
  | pick files => exact .take (.pick files) (.picking (.keep .done))
  | deliver content => exact .take (.deliver content) (.delivering (.keep .done))
  | read =>
    cases hPicked : s.picked with
    | none =>
      simp only [Session.act, hPicked]
      exact .refl _
    | some file =>
      have hCode : (ofSession selected listeners s).codeOf .read =
          .keep (fun s => { s with picked := none }) (.deliveringByHand file.read) := by
        simp only [codeOf, ofSession, hPicked]
      simp only [Session.act, hPicked]
      refine .take .read ?_
      rw [hCode]
      exact .keep (.delivering (.keep .done))
  | start =>
    cases hHandoff : s.handoff with
    | none =>
      simp only [Session.act, Session.start, hHandoff]
      exact .refl _
    | some handoff =>
      have hCode : (ofSession selected listeners s).codeOf .start =
          .keep (fun s => { s with handoff := none }.enter none handoff) (.engine .done) := by
        simp only [codeOf, ofSession, hHandoff]
      simp only [Session.act, Session.start, hHandoff]
      refine .take .start ?_
      rw [hCode]
      exact .keep (.refl _)
  | discard => exact .take .discard (.keep .done)
  | spawn files => exact .take (.spawn files) (.keep .done)
  | draw fill =>
    refine .take (.draw fill) (.keep ?_)
    simp only [Session.act]
    split
    · exact .done
    · exact .done
  | poll task => exact leads_poll h task
  | cancel task => exact leads_cancel h task
  | finish => exact leads_finish

/-- A run of a session is one of the machine. -/
theorem leads_after {engine : Engine} {calls : List Call} (h : Session.Sound engine calls s)
    (actions : List Action) :
    Leads (ofSession selected listeners s) (ofSession selected listeners (s.after actions)) := by
  induction actions generalizing s calls with
  | nil => exact .refl _
  | cons action actions ih => exact (leads_act h action).trans (ih (h.act action))

end Runs

/-- **No borrow conflicts.**  Whatever others do where they have control, no borrow of the loader
conflicts with one that is outstanding.  For none is outstanding when they have control, and a call
that waits for a read or for an engine has none in hand.  One that was would let the next use of
the loader panic.  The runs of a session are among these runs. -/
theorem no_borrow_conflicts (engine : Engine) (screen : Framebuffer) :
    (∀ choices,
      let m := (arm engine screen).after choices
      m.panicked = false ∧
        (∀ task guard next stack, m.stack = ⟨task, .borrow guard next⟩ :: stack →
          (m.cell.take? guard).isSome) ∧
        (∀ frame ∈ m.stack, frame.code.isForeign = true → frame.code.Holds none) ∧
        (m.isForeign = true → m.cell = .free)) ∧
      (∀ m : Machine, m.panicked = false → m.isForeign = true →
        (∀ frame ∈ m.stack, frame.code.Holds none) →
        ((∀ choices, (m.after choices).panicked = false) ↔ m.cell = .free)) ∧
      ∀ actions, ∃ choices, (arm engine screen).after choices =
        ofSession [] 0 ((Session.arm engine screen).after actions) := by
  refine ⟨?_, ?_, ?_⟩
  · intro choices m
    have hSound : m.Sound := (Sound.arm engine screen).after choices
    refine ⟨hSound.calm, ?_, ?_, ?_⟩
    · intro task guard next stack hStack
      rw [hSound.take? hStack]
      rfl
    · exact hSound.holds_of_isForeign
    · exact fun hForeign => (hSound.foreign hForeign).1
  · exact fun m => calm_iff_free
  · exact leads_after (.after_arm engine screen [])

/-- A change that comes while a read is polled, and then a selection by hand while the engine
runs. -/
example (engine : Engine) (screen : Framebuffer) (bytes : List UInt8) :
    let file : File := ⟨"game.ch8", .ok bytes, 0⟩
    let changed := [.select [file], .change] ++ .replicate 5 .advance
    let m := (arm engine screen).after ([.arm] ++ .replicate 4 .advance ++ changed
      ++ [.take (.poll 0)] ++ .replicate 4 .advance ++ changed ++ [.take (.poll 1)]
      ++ .replicate 5 .advance ++ [.giveBack] ++ .replicate 4 .advance
      ++ [.take (.pick [file]), .advance])
    (m.stack.length, m.cell, m.session.running.length, m.panicked) = (2, .writer, 1, false) := by
  cbv

end Machine

end Chip8Launcher
