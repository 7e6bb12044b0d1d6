import Chip8Launcher.Proofs.Session.Moves

/-!
# Reads told by calls

The calls of a session tell which reads its tasks have begun (`begun`), which of them is in
flight (`InFlight`), and whether every delivery was one of the read in flight, made by the task
that began it (`Matched`).
-/

namespace Chip8Launcher

namespace Call

/-- The task and the file of a read, if the call begins one for a task. -/
def begun? (call : Call) : Option (Nat × File) :=
  match call.task, call.use with
  | some task, .picked (.picked file) => some (task, file)
  | _, _ => none

/-- The call neither begins a read nor ends one. -/
def IsQuiet (call : Call) : Prop :=
  match call.use with
  | .picked (.picked _) => False
  | .delivered _ => False
  | _ => True

theorem isQuiet_of_file?_eq_none {task : Option Nat} {selection : Selection File}
    (h : selection.file? = none) : IsQuiet ⟨task, .picked selection⟩ := by
  cases selection with
  | picked file => simp [Selection.file?] at h
  | _ => trivial

theorem IsQuiet.begun? {call : Call} (h : call.IsQuiet) : call.begun? = none := by
  obtain ⟨task, use⟩ := call
  cases use with
  | picked selection => cases selection <;> cases task <;> simp_all [Call.begun?, IsQuiet]
  | _ => cases task <;> rfl

end Call

/-- The reads that tasks have begun, first to last. -/
def begun (calls : List Call) : List (Nat × File) := calls.filterMap Call.begun?

@[simp] theorem begun_nil : begun [] = [] := rfl

@[simp] theorem begun_append (calls new : List Call) :
    begun (calls ++ new) = begun calls ++ begun new := List.filterMap_append

theorem begun_of_quiet {calls : List Call} (h : ∀ call ∈ calls, call.IsQuiet) :
    begun calls = [] := by
  induction calls with
  | nil => rfl
  | cons call calls ih =>
    obtain ⟨hCall, hCalls⟩ := List.forall_mem_cons.1 h
    rw [begun, List.filterMap_cons_none hCall.begun?]
    exact ih hCalls

/-- The last read begun is the task's, of the file, and has not been delivered. -/
def InFlight (calls : List Call) (task : Nat) (file : File) : Prop :=
  ∃ earlier since, calls = earlier ++ ⟨some task, .picked (.picked file)⟩ :: since ∧
    ∀ call ∈ since, call.IsQuiet

namespace InFlight

variable {calls new : List Call} {task : Nat} {file : File}

theorem begin (calls : List Call) (task : Nat) (file : File) :
    InFlight (calls ++ [⟨some task, .picked (.picked file)⟩]) task file :=
  ⟨calls, [], rfl, by simp⟩

theorem append (h : InFlight calls task file) (hNew : ∀ call ∈ new, call.IsQuiet) :
    InFlight (calls ++ new) task file := by
  obtain ⟨earlier, since, rfl, hSince⟩ := h
  refine ⟨earlier, since ++ new, by simp, ?_⟩
  intro call hCall
  rcases List.mem_append.1 hCall with hCall | hCall
  · exact hSince call hCall
  · exact hNew call hCall

end InFlight

/-- Every delivery was accepted, and made by the task whose read was in flight. -/
def Matched (calls : List Call) : Prop :=
  ∀ before call later delivery, calls = before ++ call :: later →
    call.use = .delivered delivery →
    delivery.result ≠ .error .noReadInFlight ∧
      ∃ task file, call.task = some task ∧ InFlight before task file

namespace Matched

variable {calls : List Call} {call : Call}

theorem nil : Matched [] := by
  intro before call later delivery h
  simp at h

/-- Only the last of the calls has to be looked at. -/
theorem concat (h : Matched calls)
    (hCall : ∀ delivery, call.use = .delivered delivery →
      delivery.result ≠ .error .noReadInFlight ∧
        ∃ task file, call.task = some task ∧ InFlight calls task file) :
    Matched (calls ++ [call]) := by
  intro before call' later delivery hSplit hUse
  rcases List.eq_nil_or_concat later with rfl | ⟨later, last, rfl⟩
  · obtain ⟨rfl, hLast⟩ := List.append_inj' hSplit rfl
    obtain rfl := List.singleton_inj.1 hLast
    exact hCall delivery hUse
  · rw [List.concat_eq_append, ← List.cons_append, ← List.append_assoc] at hSplit
    obtain ⟨hCalls, -⟩ := List.append_inj' hSplit rfl
    exact h before call' later delivery hCalls hUse

theorem concat_quiet (h : Matched calls) (hQuiet : call.IsQuiet) : Matched (calls ++ [call]) := by
  refine h.concat ?_
  intro delivery hUse
  simp [Call.IsQuiet, hUse] at hQuiet

theorem concat_picked (h : Matched calls) {task : Option Nat} {selection : Selection File} :
    Matched (calls ++ [⟨task, .picked selection⟩]) := by
  refine h.concat ?_
  intro delivery hUse
  cases hUse

end Matched

end Chip8Launcher
