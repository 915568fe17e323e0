import FormWatch.Proofs.Supervisor.Run
import FormWatch.Server

/-!
Sessions of a server as runs of its supervisor. A notification tells the supervisor some events, and
what the world does tells it one; the server's state is the one to which all of them lead, and what
the server does is what the supervisor does, relayed.
-/

namespace FormWatch.Server

/-- One event after the other, each in its surroundings, and all effects in order. -/
def run (supervisor : Supervisor) :
    List (Surroundings × Event) → Supervisor × List Effect
  | [] => (supervisor, [])
  | (around, event) :: rest =>
    let (next, effects) := step around supervisor event
    let (last, more) := run next rest
    (last, effects ++ more)

/-- What an event tells the supervisor. -/
def told (around : Surroundings) (supervisor : Supervisor) : Event → List Supervisor.Event
  | .world event => [event]
  | .notified notification =>
    match rejection? supervisor notification with
    | some _ => []
    | none => eventsOf around supervisor notification

/-- What a session tells the supervisor, in order. -/
def history (supervisor : Supervisor) : List (Surroundings × Event) → List Supervisor.Event
  | [] => []
  | (around, event) :: rest =>
    told around supervisor event ++ history (step around supervisor event).1 rest

/-! ### One event -/

theorem step_state (around : Surroundings) (supervisor : Supervisor) (event : Event) :
    (step around supervisor event).1 = (supervisor.run (told around supervisor event)).1 := by
  cases event with
  | world event => rfl
  | notified notification =>
    cases rejected : rejection? supervisor notification <;>
      simp [step, told, rejected, Supervisor.run]

/-- The effects of the supervisor are relayed; a failure, or the clearing of the diagnostics of a
closed document, may follow. -/
theorem step_effects (around : Surroundings) (supervisor : Supervisor) (event : Event) :
    ∃ rest, (step around supervisor event).2 =
        (supervisor.run (told around supervisor event)).2.flatMap
          (relay (step around supervisor event).1) ++ rest ∧
      ∀ effect ∈ rest, (∃ failure, effect = .raised failure) ∨
        ∃ uri, event = .notified (.closed uri) ∧ effect = .send (.publish uri none []) := by
  cases event with
  | world event => exact ⟨[], by simp [step, told, Supervisor.run], by simp⟩
  | notified notification =>
    cases rejected : rejection? supervisor notification with
    | some failure =>
      exact ⟨[.raised failure], by simp [step, told, rejected, Supervisor.run], by simp⟩
    | none =>
      refine ⟨epilogue around notification, by simp [step, told, rejected], ?_⟩
      intro effect member
      cases notification with
      | closed uri =>
        rw [epilogue, List.mem_singleton] at member
        unfold send at member
        split at member
        · exact Or.inr ⟨uri, rfl, member⟩
        · exact Or.inl ⟨_, member⟩
      | opened | changed | saved | shutdown => cases member

/-- The supervisor's effects reach the world as they are, reports excepted. -/
theorem act_mem_relay_iff (supervisor : Supervisor) (sequence pid : Nat) (unit : Bytes)
    (effect : Supervisor.Effect) :
    .act (.launch sequence pid unit) ∈ relay supervisor effect ↔
      effect = .launch sequence pid unit := by
  cases effect with
  | report other outcome refusal =>
    cases refusal with
    | some failure => simp [relay]
    | none =>
      simp only [relay]
      split
      next document _ => cases outcome <;> simp [present]
      · simp
  | start | launch | launchFailed | kill | log | answer => simp [relay, eq_comm]

theorem act_mem_step_iff (around : Surroundings) (supervisor : Supervisor) (event : Event)
    (sequence pid : Nat) (unit : Bytes) :
    .act (.launch sequence pid unit) ∈ (step around supervisor event).2 ↔
      .launch sequence pid unit ∈ (supervisor.run (told around supervisor event)).2 := by
  obtain ⟨rest, effects, tail⟩ := step_effects around supervisor event
  have other : .act (.launch sequence pid unit) ∉ rest := by
    intro member
    rcases tail _ member with ⟨_, same⟩ | ⟨_, _, same⟩ <;> cases same
  -- Of what is relayed, only a launch becomes a launch.
  rw [effects, List.mem_append, List.mem_flatMap]
  simp only [other, or_false, act_mem_relay_iff, exists_eq_right]

/-! ### Sessions -/

theorem run_append (supervisor : Supervisor) (early late : List (Surroundings × Event)) :
    run supervisor (early ++ late) =
      ((run (run supervisor early).1 late).1,
        (run supervisor early).2 ++ (run (run supervisor early).1 late).2) := by
  induction early generalizing supervisor with
  | nil => rfl
  | cons entry rest ih => simp [run, ih, List.append_assoc]

theorem history_append (supervisor : Supervisor) (early late : List (Surroundings × Event)) :
    history supervisor (early ++ late) =
      history supervisor early ++ history (run supervisor early).1 late := by
  induction early generalizing supervisor with
  | nil => rfl
  | cons entry rest ih => simp [run, history, ih, List.append_assoc]

/-- A session leads where what it tells the supervisor leads. -/
theorem run_state (supervisor : Supervisor) (session : List (Surroundings × Event)) :
    (run supervisor session).1 = (supervisor.run (history supervisor session)).1 := by
  induction session generalizing supervisor with
  | nil => rfl
  | cons entry rest ih =>
    obtain ⟨around, event⟩ := entry
    rw [history, Supervisor.run_append, ← step_state around supervisor event, ← ih]
    rfl

theorem act_mem_run_iff (supervisor : Supervisor) (session : List (Surroundings × Event))
    (sequence pid : Nat) (unit : Bytes) :
    .act (.launch sequence pid unit) ∈ (run supervisor session).2 ↔
      .launch sequence pid unit ∈ (supervisor.run (history supervisor session)).2 := by
  induction session generalizing supervisor with
  | nil => simp [run, history, Supervisor.run]
  | cons entry rest ih =>
    obtain ⟨around, event⟩ := entry
    rw [history, Supervisor.run_append, ← step_state around supervisor event]
    simp only [run, List.mem_append, act_mem_step_iff, ih]

end FormWatch.Server
