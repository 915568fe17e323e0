import FormWatch.Supervisor
import Mathlib.Data.List.Nodup

/-!
What the operations of a supervisor make of its jobs, its table and its units: one equation for each
operation and each view. The views are `job?`, the job of a sequence number, and `current?`, the
current job of a URI.
-/

namespace FormWatch

/-- A folder in which there are some unfinished units and no others. -/
def UnitFolder.withUnfinished (left : List (Text × Bytes)) (folder : UnitFolder) : UnitFolder :=
  { folder with unfinished := left }

namespace Supervisor

/-! ### Jobs by their sequence numbers -/

theorem sequence_of_job? (supervisor : Supervisor) (sequence : Nat) (job : Job)
    (found : supervisor.job? sequence = some job) : job.sequence = sequence := by
  simpa using List.find?_some found

theorem mem_of_job? (supervisor : Supervisor) (sequence : Nat) (job : Job)
    (found : supervisor.job? sequence = some job) : job ∈ supervisor.jobs :=
  List.mem_of_find?_eq_some found

theorem job?_of_mem (supervisor : Supervisor)
    (distinct : (supervisor.jobs.map Job.sequence).Nodup) (job : Job)
    (member : job ∈ supervisor.jobs) : supervisor.job? job.sequence = some job := by
  cases found : supervisor.job? job.sequence with
  | none =>
    have absent := List.find?_eq_none.mp found job member
    simp at absent
  | some other =>
    have same := sequence_of_job? supervisor job.sequence other found
    rw [List.inj_on_of_nodup_map distinct (mem_of_job? _ _ _ found) member same]

theorem job?_update (supervisor : Supervisor) (job : Job) (sequence : Nat) :
    (supervisor.update job).job? sequence =
      if sequence = job.sequence then (supervisor.job? sequence).map fun _ => job
      else supervisor.job? sequence := by
  let replace := fun old : Job => if old.sequence = job.sequence then job else old
  have kept : ∀ old, (replace old).sequence = old.sequence := by
    intro old
    by_cases same : old.sequence = job.sequence <;> simp [replace, same]
  have looked : (supervisor.update job).job? sequence = (supervisor.job? sequence).map replace := by
    simp only [job?, update, List.find?_map]
    congr 2
    funext old
    exact congrArg (fun n => decide (n = sequence)) (kept old)
  rw [looked]
  cases found : supervisor.job? sequence with
  | none => simp
  | some old =>
    have named := sequence_of_job? supervisor sequence old found
    by_cases same : sequence = job.sequence <;> simp [replace, named, same]

theorem mem_update (supervisor : Supervisor) (job other : Job)
    (member : other ∈ (supervisor.update job).jobs) :
    other = job ∨ other ∈ supervisor.jobs ∧ other.sequence ≠ job.sequence := by
  obtain ⟨old, present, rfl⟩ := List.mem_map.mp member
  by_cases same : old.sequence = job.sequence
  · exact Or.inl (if_pos same)
  · right
    rw [if_neg same]
    exact ⟨present, same⟩

/-- A job put in the place of one that agrees with it in some respect changes nothing in it. -/
theorem map_update {α : Type} (supervisor : Supervisor) (old job : Job) (view : Job → α)
    (distinct : (supervisor.jobs.map Job.sequence).Nodup) (member : old ∈ supervisor.jobs)
    (named : job.sequence = old.sequence) (agree : view job = view old) :
    (supervisor.update job).jobs.map view = supervisor.jobs.map view := by
  rw [update, List.map_map]
  apply List.map_congr_left
  intro other present
  by_cases same : other.sequence = job.sequence
  · have equal := List.inj_on_of_nodup_map distinct present member (same.trans named)
    simp [equal, named, agree]
  · simp [same]

/-- Of two jobs put in the same place the later one is there. -/
theorem update_update (supervisor : Supervisor) (early late : Job)
    (same : late.sequence = early.sequence) :
    (supervisor.update early).update late = supervisor.update late := by
  have replaced : ∀ old : Job,
      (if (if old.sequence = early.sequence then early else old).sequence = late.sequence then late
        else if old.sequence = early.sequence then early else old) =
        if old.sequence = late.sequence then late else old := by
    intro old
    by_cases here : old.sequence = early.sequence <;> simp [here, same]
  simp only [update, List.map_map, Function.comp_def, replaced]

@[simp] theorem update_units (supervisor : Supervisor) (job : Job) :
    (supervisor.update job).units = supervisor.units := rfl

@[simp] theorem length_update_jobs (supervisor : Supervisor) (job : Job) :
    (supervisor.update job).jobs.length = supervisor.jobs.length := by
  simp [update]

@[simp] theorem current?_update (supervisor : Supervisor) (job : Job) (uri : Text) :
    (supervisor.update job).current? uri = supervisor.current? uri := rfl

/-! ### The table -/

theorem isCurrent_iff (supervisor : Supervisor) (job : Job) :
    supervisor.isCurrent job = true ↔ supervisor.current? job.uri = some job.sequence := by
  simp [isCurrent]

theorem current?_eq_some_iff (supervisor : Supervisor)
    (unique : (supervisor.table.map Prod.fst).Nodup) (uri : Text) (sequence : Nat) :
    supervisor.current? uri = some sequence ↔ (uri, sequence) ∈ supervisor.table := by
  constructor
  · intro current
    obtain ⟨⟨key, value⟩, found, same⟩ := Option.map_eq_some_iff.mp current
    have named : key = uri := by simpa using List.find?_some found
    cases same
    exact named ▸ List.mem_of_find?_eq_some found
  · intro member
    cases found : supervisor.table.find? (·.1 = uri) with
    | none =>
      have absent := List.find?_eq_none.mp found _ member
      simp at absent
    | some entry =>
      have named : entry.1 = uri := by simpa using List.find?_some found
      have equal := List.inj_on_of_nodup_map unique (List.mem_of_find?_eq_some found) member named
      simp [current?, found, equal]

theorem find?_enter (uri other : Text) (sequence : Nat) (table : List (Text × Nat)) :
    ((enter uri sequence table).find? (·.1 = other)).map Prod.snd =
      if other = uri then some sequence else (table.find? (·.1 = other)).map Prod.snd := by
  induction table with
  | nil => by_cases same : uri = other <;> simp [enter, same, eq_comm]
  | cons entry rest ih =>
    obtain ⟨key, value⟩ := entry
    by_cases place : key = uri
    · by_cases same : uri = other <;> simp [enter, place, same, eq_comm]
    · rw [enter, if_neg place]
      by_cases here : key = other
      · have elsewhere : other ≠ uri := fun same => place (here.trans same)
        simp [here, elsewhere]
      · simpa [List.find?_cons, here] using ih

theorem mem_keys_enter (uri : Text) (sequence : Nat) (table : List (Text × Nat)) (key : Text)
    (member : key ∈ (enter uri sequence table).map Prod.fst) :
    key = uri ∨ key ∈ table.map Prod.fst := by
  induction table with
  | nil => simpa [enter] using member
  | cons entry rest ih =>
    rw [enter] at member
    split at member
    · exact Or.inr member
    · rcases List.mem_cons.mp member with here | later
      · exact Or.inr (List.mem_cons.mpr (Or.inl here))
      · exact (ih later).imp_right (List.mem_cons_of_mem _)

theorem nodup_enter (uri : Text) (sequence : Nat) (table : List (Text × Nat))
    (unique : (table.map Prod.fst).Nodup) : ((enter uri sequence table).map Prod.fst).Nodup := by
  induction table with
  | nil => simp [enter]
  | cons entry rest ih =>
    have parts := List.nodup_cons.mp unique
    rw [enter]
    split
    · exact unique
    next elsewhere =>
      refine List.nodup_cons.mpr ⟨?_, ih parts.2⟩
      intro member
      exact (mem_keys_enter uri sequence rest entry.1 member).elim elsewhere parts.1

@[simp] theorem current?_forget (supervisor : Supervisor) (uri other : Text) :
    (supervisor.forget uri).current? other =
      if other = uri then none else supervisor.current? other := by
  simp only [current?, forget, List.find?_filter]
  by_cases same : other = uri
  · have never : supervisor.table.find? (fun entry => decide (entry.1 ≠ uri) &&
        decide (entry.1 = other)) = none := by simp [same]
    simp [same]
  · rw [if_neg same]
    congr 2
    funext entry
    by_cases here : entry.1 = other <;> simp [here, same]

/-! ### Retiring and registering -/

@[simp] theorem retire_jobs (supervisor : Supervisor) (job : Job) (kept : Option SystemFault) :
    (supervisor.retire job kept).jobs = supervisor.jobs := rfl

@[simp] theorem retire_units (supervisor : Supervisor) (job : Job) (kept : Option SystemFault) :
    (supervisor.retire job kept).units =
      if kept.isSome then supervisor.units else supervisor.units.discard job.unit := rfl

@[simp] theorem job?_retire (supervisor : Supervisor) (job : Job) (kept : Option SystemFault)
    (sequence : Nat) :
    (supervisor.retire job kept).job? sequence = supervisor.job? sequence := rfl

theorem current?_retire (supervisor : Supervisor) (job : Job) (kept : Option SystemFault)
    (uri : Text) :
    (supervisor.retire job kept).current? uri =
      if uri = job.uri ∧ supervisor.current? job.uri = some job.sequence then none
      else supervisor.current? uri := by
  by_cases mine : supervisor.isCurrent job = true
  · have left : (supervisor.retire job kept).current? uri =
        (supervisor.forget job.uri).current? uri := by
      simp [retire, release, untable, current?, mine]
    simp [left, (isCurrent_iff supervisor job).mp mine]
  · have left : (supervisor.retire job kept).current? uri = supervisor.current? uri := by
      simp [retire, release, untable, current?, mine]
    rw [isCurrent_iff] at mine
    simp [left, mine]

theorem sublist_retire (supervisor : Supervisor) (job : Job) (kept : Option SystemFault) :
    (supervisor.retire job kept).table.Sublist supervisor.table := by
  simp only [retire, release, untable]
  split
  · exact List.filter_sublist
  · exact List.Sublist.refl _

theorem current?_register (supervisor : Supervisor) (document : Nat) (found : Document)
    (uri : Text) :
    (supervisor.register document found).current? uri =
      if uri = found.uri then some (supervisor.jobs.length + 1) else supervisor.current? uri :=
  find?_enter _ _ _ _

/-! ### Snapshots that fail -/

/-- A supervisor in whose folder there are some unfinished units and no others. -/
def withUnfinished (left : List (Text × Bytes)) (supervisor : Supervisor) : Supervisor :=
  { supervisor with units := supervisor.units.withUnfinished left }

/-- The unit that stays of a snapshot that could not be taken, if one was made and is kept. -/
def leftOf : Option Remnant → List (Text × Bytes)
  | some ⟨own, content, some _⟩ => [(own, content)]
  | _ => []

/-- What is logged of the unit of a snapshot that could not be taken. -/
def logLeft (supervisor : Supervisor) : Option Remnant → List Effect
  | some remnant => supervisor.logRefused remnant.own remnant.kept
  | none => []

theorem failWrite_eq (supervisor : Supervisor) (uri : Text) (failure : Failure)
    (remnant : Option Remnant) :
    supervisor.failWrite uri failure remnant =
      (supervisor.withUnfinished (leftOf remnant ++ supervisor.units.unfinished),
        supervisor.logLeft remnant ++ abort uri failure) := by
  rcases remnant with _ | ⟨own, content, _ | fault⟩
  · rfl
  · simp [failWrite, logLeft, leftOf, UnitFolder.begin, UnitFolder.abandon, withUnfinished,
      UnitFolder.withUnfinished]
  · rfl

/-! ### Completing -/

/-- Moves made after others begin where those end. -/
theorem play_append (early late : List Move) (supervisor : Supervisor) :
    play (early ++ late) supervisor =
      ((play late (play early supervisor).1).1,
        (play early supervisor).2 ++ (play late (play early supervisor).1).2) := by
  induction early generalizing supervisor with
  | nil => rfl
  | cons move rest ih =>
    cases move with
    | change apply => exact ih (apply supervisor)
    | emit effect => simp only [List.cons_append, play, ih supervisor]

@[simp] theorem play_change (apply : Supervisor → Supervisor) (supervisor : Supervisor) :
    play [.change apply] supervisor = (apply supervisor, []) := rfl

/-- Effects that nothing interrupts are all caused in one state. -/
@[simp] theorem play_emit (effects : List Effect) (supervisor : Supervisor) :
    play (effects.map .emit) supervisor = (supervisor, effects.map (supervisor, ·)) := by
  induction effects with
  | nil => rfl
  | cons effect rest ih => simp only [List.map_cons, play, ih]

@[simp] theorem play_log (entries : List LogEntry) (supervisor : Supervisor) :
    play (entries.map fun entry => .emit (.log entry)) supervisor =
      (supervisor, entries.map fun entry => (supervisor, .log entry)) := by
  have moves : (entries.map fun entry => Move.emit (.log entry)) =
      (entries.map Effect.log).map .emit := by simp
  rw [moves, play_emit, List.map_map]
  rfl

/-- A completion, move by move: the verdict is logged when the output is kept, a unit that stays is
logged when the job has its last state, and the outcome is handed over when the job is retired. -/
theorem play_completion (supervisor : Supervisor) (job : Job) (handle : ProcessHandle)
    (result : Except Failure ProcessResult) (refusals : Refusals) (kept : Option SystemFault) :
    let verdict := supervisor.verdict job handle.pid result
    let settled := supervisor.settled job handle result
    let concluded := supervisor.update settled
    play (supervisor.completion job handle result refusals kept) supervisor =
      (concluded.retire job kept,
        verdict.logs.map (fun entry =>
            (supervisor.update { settled with state := job.state }, .log entry)) ++
          (supervisor.logKept job kept).map (concluded.release job kept, ·) ++
          ((verdict.outcome.map (deliver job.sequence refusals)).getD []).map
            (concluded.retire job kept, ·)) := by
  intro verdict settled concluded
  have again : (supervisor.update { settled with state := job.state }).update settled = concluded :=
    update_update supervisor _ settled rfl
  have left : (concluded.release job kept).untable job = concluded.retire job kept := rfl
  simp only [completion, play_append, play_change, play_emit, play_log, List.append_nil,
    List.nil_append]
  rw [again, left]

theorem complete_eq (supervisor : Supervisor) (job : Job) (handle : ProcessHandle)
    (result : Except Failure ProcessResult) (refusals : Refusals) (kept : Option SystemFault) :
    supervisor.complete job handle result refusals kept =
      ((supervisor.update (supervisor.settled job handle result)).retire job kept,
        (supervisor.verdict job handle.pid result).logs.map .log ++ supervisor.logKept job kept ++
          ((supervisor.verdict job handle.pid result).outcome.map
            (deliver job.sequence refusals)).getD []) := by
  simp only [complete, moments, play_completion, List.map_append, List.map_map, Function.comp_def,
    List.map_id']

end Supervisor

end FormWatch
