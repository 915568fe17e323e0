import FormWatch.Proofs.Supervisor.Thinning
import FormWatch.Proofs.Supervisor.Kill
import FormWatch.Proofs.Supervisor.Unfinished

/-!
What happens to one URI does not depend on the others. A run is cut down to the events that concern
a URI, under the numbers that its jobs and documents have among themselves; the run that is left
does with the URI what the whole run does with it.
-/

namespace FormWatch.Supervisor

variable {names : Renumbering} {uri : Text} {full part : Supervisor}

/-! ### What is done for a URI -/

/-- The job that an effect is about. -/
def Effect.job? : Effect → Option Nat
  | .start sequence | .launch sequence _ _ | .launchFailed sequence _ | .kill sequence _ _
  | .report sequence _ _ => some sequence
  | .log _ | .answer _ => none

/-- Whether an effect of an event is about a URI: about a job of it, or the answer to a request for
it. -/
def Effect.concerns (supervisor : Supervisor) (event : Event) (uri : Text) (effect : Effect) :
    Bool :=
  match effect.job? with
  | some sequence => ((supervisor.step event).1.job? sequence).any (·.uri = uri)
  | none => !effect.isLog && event.concerns supervisor uri

/-- What an event does for a URI. -/
def done (supervisor : Supervisor) (uri : Text) (event : Event) : List Effect :=
  (supervisor.step event).2.filter (·.concerns supervisor event uri)

/-- The kill of the current job of a URI, if it has one. -/
def killCurrent (supervisor : Supervisor) (uri : Text) : List Effect :=
  (((supervisor.current? uri).bind supervisor.job?).map killOf).getD []

@[simp] theorem deeds_killCurrent (supervisor : Supervisor) (uri : Text) :
    deeds (supervisor.killCurrent uri) = supervisor.killCurrent uri := by
  cases current : (supervisor.current? uri).bind supervisor.job? <;> simp [killCurrent, current]

theorem job?_of_killOf (job : Job) (effect : Effect) (member : effect ∈ killOf job) :
    effect.job? = some job.sequence := by
  cases started : job.handle with
  | none => simp [killOf, started] at member
  | some handle =>
    rw [killOf, started, List.mem_singleton] at member
    rw [member]
    rfl

theorem isLog_of_job? {effect : Effect} {sequence : Nat} (target : effect.job? = some sequence) :
    effect.isLog = false := by
  cases effect <;> first | rfl | cases target

theorem job?_of_isNote {effect : Effect} (note : effect.isNote = true) : effect.job? = none := by
  cases effect <;> simp [Effect.isNote] at note <;> rfl

/-- An event about a job does nothing to another job. -/
theorem job?_of_effect (supervisor : Supervisor) (sound : supervisor.WellFormed) (event : Event)
    (key : Nat) (about : event.job? = some key) (effect : Effect)
    (member : effect ∈ (supervisor.step event).2) (sequence : Nat)
    (target : effect.job? = some sequence) :
    sequence = key ∧ (supervisor.job? key).isSome = true := by
  have moved := transition supervisor sound event
  generalize (supervisor.step event).1 = next at moved
  generalize (supervisor.step event).2 = did at moved member
  cases moved with
  | idle _ _ _ _ _ quiet =>
    rw [job?_of_isNote (quiet effect member)] at target
    cases target
  | registered | stopped => cases about
  | informed | forgotten => cases member
  | launched other pid job found pending =>
    cases about
    have named := sequence_of_job? supervisor key job found
    refine ⟨?_, by simp [found]⟩
    simp only [List.mem_append, List.mem_singleton] at member
    rcases member with (rfl | killed) | rfl
    · exact (Option.some.inj target).symm
    · split at killed
      · cases killed
      · rw [job?_of_killOf _ effect killed] at target
        exact (Option.some.inj target).symm.trans named
    · cases target
  | refused other failure kept job found pending expected =>
    cases about
    refine ⟨?_, by simp [found]⟩
    simp only [List.mem_append, List.mem_cons, List.not_mem_nil, or_false] at member
    rcases member with ((rfl | rfl) | logged) | rfl
    · exact (Option.some.inj target).symm
    · cases target
    · rw [job?_of_isNote (isNote_logRefused supervisor _ kept effect logged)] at target
      cases target
    · cases target
  | broken other failure kept job found pending =>
    cases about
    refine ⟨?_, by simp [found]⟩
    simp only [List.mem_cons, List.not_mem_nil, or_false] at member
    rcases member with rfl | rfl
    · exact (Option.some.inj target).symm
    · cases target
  | settled other ending refusals kept job handle result found =>
    cases about
    have named := sequence_of_job? supervisor key job found
    refine ⟨?_, by simp [found]⟩
    rcases mem_complete supervisor job _ result refusals kept effect member with
      note | ⟨outcome, refusal, rfl, _⟩
    · rw [job?_of_isNote note] at target
      cases target
    · exact (Option.some.inj target).symm.trans named

/-- The kill of the current job of a URI is about a job of the URI. -/
theorem uri_of_killCurrent (supervisor : Supervisor) (sound : supervisor.WellFormed) (uri : Text)
    (effect : Effect) (member : effect ∈ supervisor.killCurrent uri) :
    ∃ sequence job, effect.job? = some sequence ∧ supervisor.job? sequence = some job ∧
      job.uri = uri := by
  cases current : supervisor.current? uri with
  | none => simp [killCurrent, current] at member
  | some sequence =>
    obtain ⟨job, found, own, _⟩ := sound.tracked uri sequence current
    have killed : effect ∈ killOf job := by simpa [killCurrent, current, found] using member
    refine ⟨sequence, job, ?_, found, own⟩
    rw [job?_of_killOf job effect killed, sequence_of_job? supervisor sequence job found]

/-- What is done about a job concerns the URI that the event concerns. -/
theorem uri_of_effect (supervisor : Supervisor) (sound : supervisor.WellFormed) (event : Event)
    (alive : event ≠ .shutdown) (effect : Effect) (member : effect ∈ (supervisor.step event).2)
    (sequence : Nat) (target : effect.job? = some sequence) (uri : Text) :
    ((supervisor.step event).1.job? sequence).any (·.uri = uri) = event.concerns supervisor uri := by
  have stays (job : Job) (found : supervisor.job? sequence = some job) :
      ((supervisor.step event).1.job? sequence).any (·.uri = uri) = decide (job.uri = uri) := by
    obtain ⟨next, later, turns⟩ := becomes_step supervisor sound event sequence job found
    rw [later, Option.any_some, turns.uri]
  cases about : event.job? with
  | some key =>
    obtain ⟨rfl, present⟩ := job?_of_effect supervisor sound event key about effect member
      sequence target
    obtain ⟨job, found⟩ := Option.isSome_iff_exists.mp present
    rw [stays job found, concerns_of_job supervisor uri event sequence about, found,
      Option.any_some]
  | none =>
    cases event with
    | requested index =>
      simp only [step, request] at member
      cases present : supervisor.workspace.document? index with
      | none => simp [present] at member
      | some asked =>
        simp only [present, List.mem_append, List.mem_singleton] at member
        rw [concerns_of_snapshot supervisor uri (.requested index) asked present]
        rcases member with killed | rfl
        · obtain ⟨key, job, same, found, own⟩ :=
            uri_of_killCurrent supervisor sound asked.uri effect killed
          cases target.symm.trans same
          rw [stays job found, own]
        · cases target
          simp [step, request, present, sound.job?_register]
    | unwritten other failure remnant =>
      have note := isNote_failWrite supervisor other failure remnant effect member
      rw [job?_of_isNote note] at target
      cases target
    | shutdown => exact absurd rfl alive
    | opened | loaded | edited | closed | forgotten => cases member
    | launched | launchFailed | exited | vanished | ended => cases about

/-- All that an event does is for the URI that it concerns. -/
theorem done_of_alive (supervisor : Supervisor) (sound : supervisor.WellFormed) (uri : Text)
    (event : Event) (alive : event ≠ .shutdown) :
    supervisor.done uri event =
      if event.concerns supervisor uri then deeds (supervisor.step event).2 else [] := by
  have split (effect : Effect) (member : effect ∈ (supervisor.step event).2) :
      effect.concerns supervisor event uri =
        (!effect.isLog && event.concerns supervisor uri) := by
    cases target : effect.job? with
    | none => simp [Effect.concerns, target]
    | some sequence =>
      simp only [Effect.concerns, target, isLog_of_job? target]
      exact uri_of_effect supervisor sound event alive effect member sequence target uri
  rw [done, List.filter_congr split, deeds]
  cases event.concerns supervisor uri <;> simp

theorem deeds_requested (supervisor : Supervisor) (index : Nat) (asked : Document)
    (present : supervisor.workspace.document? index = some asked) :
    deeds (supervisor.step (.requested index)).2 =
      supervisor.killCurrent asked.uri ++ [.start (supervisor.jobs.length + 1)] := by
  simp only [step, request, present]
  rw [deeds_append, ← killCurrent, deeds_killCurrent]
  simp [Effect.isLog]

/-! ### The end of the supervisor -/

/-- What is made of the entries of a table with one key is made of the entry it has. -/
theorem flatMap_of_key (table : List (Text × Nat)) (unique : (table.map Prod.fst).Nodup)
    (key : Text) (make : Nat → List Effect) :
    (table.flatMap fun entry => if entry.1 = key then make entry.2 else []) =
      (((table.find? (·.1 = key)).map Prod.snd).map make).getD [] := by
  induction table with
  | nil => rfl
  | cons entry rest ih =>
    obtain ⟨absent, unique'⟩ := List.nodup_cons.mp unique
    rw [List.flatMap_cons, ih unique']
    by_cases here : entry.1 = key
    · have missing : rest.find? (·.1 = key) = none := by
        rw [List.find?_eq_none]
        intro other member same
        exact absent (List.mem_map.mpr ⟨other, member, by simpa [here] using same⟩)
      simp [here, missing]
    · simp [here]

/-- The end of the supervisor kills, of the jobs of a URI, the current one. -/
theorem done_shutdown (supervisor : Supervisor) (sound : supervisor.WellFormed) (uri : Text) :
    supervisor.done uri .shutdown = supervisor.killCurrent uri := by
  let kill (sequence : Nat) : List Effect := ((supervisor.job? sequence).map killOf).getD []
  have entries : supervisor.done uri .shutdown =
      supervisor.table.flatMap fun entry => if entry.1 = uri then kill entry.2 else [] := by
    simp only [done, step, stop, List.filter_flatMap]
    refine List.flatMap_congr fun entry member => ?_
    obtain ⟨job, found, own, _⟩ := sound.tracked entry.1 entry.2
      ((current?_eq_some_iff supervisor sound.unique _ _).mpr member)
    have concerned (effect : Effect) (killed : effect ∈ kill entry.2) :
        effect.concerns supervisor .shutdown uri = decide (entry.1 = uri) := by
      have target := job?_of_killOf job effect (by simpa [kill, found] using killed)
      rw [sequence_of_job? supervisor _ job found] at target
      have still : (supervisor.step .shutdown).1.job? entry.2 = some job := found
      simp [Effect.concerns, target, still, own]
    rw [List.filter_congr concerned]
    by_cases mine : entry.1 = uri <;> simp [mine, kill]
  rw [entries, flatMap_of_key supervisor.table sound.unique uri kill, killCurrent]
  change ((supervisor.current? uri).map kill).getD [] = _
  cases supervisor.current? uri <;> rfl

namespace Thinned

theorem killCurrent (thin : Thinned names uri full part) (numbers : Numbers names uri full)
    (reached : full.Reached) (reached' : part.Reached) :
    part.killCurrent uri = (full.killCurrent uri).map names.ofEffect := by
  rw [Supervisor.killCurrent, Supervisor.killCurrent,
    thin.current numbers reached reached']
  cases current : full.current? uri with
  | none => rfl
  | some sequence =>
    obtain ⟨job, found, own, _⟩ := reached.sound.tracked uri sequence current
    simp [found, (thin.job sequence job found own).twin]

/-- Of the end of the smaller supervisor everything counts, as all its jobs are of the URI. -/
theorem deeds_shutdown (thin : Thinned names uri full part) (numbers : Numbers names uri full)
    (reached : full.Reached) (reached' : part.Reached) :
    Supervisor.deeds (part.step .shutdown).2 = part.done uri .shutdown := by
  refine List.filter_congr fun effect member => ?_
  simp only [Supervisor.step, stop, List.mem_flatMap] at member
  obtain ⟨entry, _, killed⟩ := member
  cases found : part.job? entry.2 with
  | none => simp [found] at killed
  | some job =>
    obtain ⟨_, twin, _, own, _, rfl⟩ := thin.of_part numbers reached reached' entry.2 job found
    rw [found] at killed
    have target := job?_of_killOf (names.ofJob twin) effect killed
    rw [sequence_of_job? part entry.2 _ found] at target
    have still : (part.step .shutdown).1.job? entry.2 = some (names.ofJob twin) := found
    simp [Effect.concerns, target, still, isLog_of_job? target, Renumbering.ofJob, own]

/-- What an event that concerns the URI does is done on both sides. -/
theorem deeds (thin : Thinned names uri full part) (numbers : Numbers names uri full)
    (reached : full.Reached) (reached' : part.Reached) (event : Event)
    (mine : event.concerns full uri = true) :
    Supervisor.deeds (part.step (names.ofEvent event)).2 =
      (full.done uri event).map names.ofEffect := by
  by_cases stopped : event = .shutdown
  · subst stopped
    rw [show names.ofEvent .shutdown = .shutdown from rfl,
      thin.deeds_shutdown numbers reached reached', done_shutdown part reached'.sound,
      done_shutdown full reached.sound, thin.killCurrent numbers reached reached']
  · rw [done_of_alive full reached.sound uri event stopped, if_pos mine]
    cases about : event.job? with
    | some sequence =>
      have own := mine
      rw [concerns_of_job full uri event sequence about, Option.any_eq_true] at own
      obtain ⟨job, found, own⟩ := own
      obtain ⟨_, _, same⟩ := (thin.job sequence job found (by simpa using own)).step event about
      exact same
    | none =>
      cases event with
      | requested index =>
        obtain ⟨asked, found, rfl⟩ :
            ∃ asked, full.workspace.document? index = some asked ∧ asked.uri = uri := by
          simpa [Event.concerns, Option.any_eq_true] using mine
        rw [deeds_requested full index asked found, Renumbering.ofEvent,
          deeds_requested part _ asked (thin.workspace.document index asked found rfl),
          thin.killCurrent numbers reached reached', ← thin.numbered numbers, List.map_append]
        rfl
      | unwritten other failure remnant =>
        simp only [Renumbering.ofEvent, Supervisor.step, failWrite_eq, deeds_append, deeds_logLeft]
        unfold abort
        split <;> simp [Effect.isLog, Renumbering.ofEffect, Renumbering.ofAnswer]
      | shutdown => exact absurd rfl stopped
      | opened | loaded | edited | closed | forgotten => rfl
      | launched | launchFailed | exited | vanished | ended => cases about

end Thinned

/-! ### Runs cut down to a URI -/

/-- The events of a run that concern a URI, under other numbers. -/
def restricted (names : Renumbering) (uri : Text) (supervisor : Supervisor) :
    List Event → List Event
  | [] => []
  | event :: rest =>
    (if event.concerns supervisor uri then [names.ofEvent event] else []) ++
      restricted names uri (supervisor.step event).1 rest

/-- What a run does for a URI. -/
def doneFor (uri : Text) (supervisor : Supervisor) : List Event → List Effect
  | [] => []
  | event :: rest => supervisor.done uri event ++ doneFor uri (supervisor.step event).1 rest

theorem restricted_concat (names : Renumbering) (uri : Text) (supervisor : Supervisor)
    (events : List Event) (event : Event) :
    restricted names uri supervisor (events ++ [event]) =
      restricted names uri supervisor events ++
        if event.concerns (supervisor.run events).1 uri then [names.ofEvent event] else [] := by
  induction events generalizing supervisor with
  | nil => exact List.append_nil _
  | cons first rest ih =>
    rw [List.cons_append, restricted, restricted, ih, List.append_assoc]
    rfl

theorem doneFor_concat (uri : Text) (supervisor : Supervisor) (events : List Event)
    (event : Event) :
    doneFor uri supervisor (events ++ [event]) =
      doneFor uri supervisor events ++ (supervisor.run events).1.done uri event := by
  induction events generalizing supervisor with
  | nil => simp [doneFor, run]
  | cons first rest ih => simp [doneFor, run, ih]

theorem thinned_start (names : Renumbering) (uri : Text) (folder : UnitFolder) :
    Thinned names uri (start folder) (start folder) where
  workspace := ⟨rfl, fun index document present => by simp [start, Workspace.empty,
    Workspace.document?] at present, fun index document present => by simp [start,
    Workspace.empty, Workspace.document?] at present⟩
  counted := rfl
  job sequence job found := by cases found

/-- A run cut down to a URI leads to the jobs of the URI, and does what is done for it. -/
theorem thinned_restricted (folder : UnitFolder) (uri : Text) (names : Renumbering)
    (events : List Event) (numbers : Numbers names uri (after folder events)) :
    let part := restricted names uri (start folder) events
    Thinned names uri (after folder events) (after folder part) ∧
      deeds (effects folder part) = (doneFor uri (start folder) events).map names.ofEffect := by
  induction events using List.reverseRecOn with
  | nil => exact ⟨thinned_start names uri folder, rfl⟩
  | append_singleton events event ih =>
    have reached := reached_after folder events
    have earlier : Numbers names uri (after folder events) := by
      rw [after_concat] at numbers
      exact numbers.before reached.sound
    obtain ⟨thin, same⟩ := ih earlier
    have reached' := reached_after folder (restricted names uri (start folder) events)
    dsimp only
    rw [restricted_concat, doneFor_concat, after_concat, List.map_append,
      show ((start folder).run events).1 = after folder events from rfl]
    cases mine : event.concerns (after folder events) uri with
    | true =>
      rw [if_pos rfl, after_concat, effects_concat, deeds_append, same]
      exact ⟨thin.step earlier reached reached' event mine,
        congrArg _ (thin.deeds earlier reached reached' event mine)⟩
    | false =>
      have stays : event ≠ .shutdown := by
        rintro rfl
        cases mine
      have idle : (after folder events).done uri event = [] := by
        rw [done_of_alive _ reached.sound uri event stays, if_neg (by simp [mine])]
      rw [if_neg (by decide), idle, List.append_nil, List.map_nil, List.append_nil]
      exact ⟨thin.skip reached event mine, same⟩

/-! ### Unfinished units of a URI -/

/-- The unit that an event leaves unfinished, if it is a request for a URI that leaves one. -/
def Event.leftFor (uri : Text) : Event → List (Text × Bytes)
  | .unwritten other _ remnant => if other = uri then leftOf remnant else []
  | _ => []

/-- The units that the requests for a URI leave unfinished, latest first. -/
def leftFor (uri : Text) (events : List Event) : List (Text × Bytes) :=
  events.reverse.flatMap (Event.leftFor uri)

theorem sublist_leftFor (uri : Text) (events : List Event) :
    (leftFor uri events).Sublist (leftBy events) := by
  unfold leftFor leftBy
  induction events.reverse with
  | nil => exact List.Sublist.refl _
  | cons event rest ih =>
    refine List.Sublist.append ?_ ih
    cases event with
    | unwritten other failure remnant =>
      by_cases mine : other = uri <;> simp [Event.leftFor, Event.left, mine]
    | _ => exact List.Sublist.refl _

theorem leftBy_restricted (names : Renumbering) (uri : Text) (supervisor : Supervisor)
    (events : List Event) :
    leftBy (restricted names uri supervisor events) = leftFor uri events := by
  induction events generalizing supervisor with
  | nil => rfl
  | cons event rest ih =>
    have kept : leftBy (if event.concerns supervisor uri then [names.ofEvent event] else []) =
        event.leftFor uri := by
      cases event with
      | unwritten other failure remnant =>
        by_cases mine : other = uri <;>
          simp [Event.concerns, Event.leftFor, Renumbering.ofEvent, Event.left, mine]
      | _ => split <;> rfl
    have split : leftFor uri (event :: rest) = leftFor uri rest ++ event.leftFor uri := by
      simp [leftFor]
    rw [restricted, split, ← ih (supervisor.step event).1, ← kept, leftBy_append]

/-! ### The jobs of a URI in order -/

/-- The jobs of a URI have, in order, the numbers from one on among themselves. -/
theorem ranks_of_jobs (uri : Text) (jobs : List Job)
    (numbered : jobs.map Job.sequence = List.range' 1 jobs.length) :
    (jobs.filter (·.uri = uri)).map
        (fun job => rank uri (jobs.map Job.uri) (job.sequence - 1) + 1) =
      List.range' 1 ((jobs.map Job.uri).count uri) := by
  induction jobs using List.reverseRecOn with
  | nil => rfl
  | append_singleton jobs last ih =>
    simp only [List.map_append, List.map_cons, List.map_nil, List.length_append,
      List.length_singleton, List.range'_1_concat] at numbered
    obtain ⟨earlier, final⟩ := List.append_inj' numbered rfl
    simp only [List.cons.injEq, and_true] at final
    have grown : jobs.map Job.uri <+: (jobs ++ [last]).map Job.uri := by
      rw [List.map_append]
      exact List.prefix_append _ _
    have early : (jobs.filter (·.uri = uri)).map
        (fun job => rank uri ((jobs ++ [last]).map Job.uri) (job.sequence - 1) + 1) =
        List.range' 1 ((jobs.map Job.uri).count uri) := by
      rw [← ih earlier]
      refine List.map_congr_left fun job member => ?_
      have listed : job.sequence ∈ jobs.map Job.sequence :=
        List.mem_map.mpr ⟨job, List.mem_of_mem_filter member, rfl⟩
      rw [earlier, List.mem_range'_1] at listed
      rw [rank_of_grown uri grown _ (by rw [List.length_map]; omega)]
    rw [List.filter_append, List.map_append, early]
    by_cases mine : last.uri = uri
    · have place : rank uri ((jobs ++ [last]).map Job.uri) (last.sequence - 1) =
          (jobs.map Job.uri).count uri := by
        rw [final, Nat.add_sub_cancel_left, rank_of_grown uri grown _ (by simp), ← rank_length,
          List.length_map]
      have last_one : [last].filter (·.uri = uri) = [last] := by simp [mine]
      rw [last_one, List.map_singleton, place, List.map_append, List.count_append,
        List.map_singleton, mine, List.count_singleton_self, List.range'_1_concat, Nat.add_comm 1]
    · simp [mine]

theorem Thinned.jobs (thin : Thinned names uri full part) (numbers : Numbers names uri full)
    (sound : full.WellFormed) (sound' : part.WellFormed) :
    part.jobs = (full.jobs.filter (·.uri = uri)).map names.ofJob := by
  have listed (supervisor : Supervisor) (jobs : List Job)
      (found : ∀ job ∈ jobs, supervisor.job? job.sequence = some job) :
      (jobs.map Job.sequence).filterMap supervisor.job? = jobs := by
    rw [List.filterMap_map]
    exact (List.filterMap_congr found).trans List.filterMap_some
  have twins (job : Job) (member : job ∈ (full.jobs.filter (·.uri = uri)).map names.ofJob) :
      part.job? job.sequence = some job := by
    obtain ⟨origin, chosen, rfl⟩ := List.mem_map.mp member
    obtain ⟨present, own⟩ := List.mem_filter.mp chosen
    exact (thin.job _ origin (sound.job?_of_mem present) (by simpa using own)).twin
  have sequences : ((full.jobs.filter (·.uri = uri)).map names.ofJob).map Job.sequence =
      List.range' 1 part.jobs.length := by
    rw [thin.counted, ← ranks_of_jobs uri full.jobs sound.numbered, List.map_map]
    refine List.map_congr_left fun job member => ?_
    exact numbers.of_job sound (sound.job?_of_mem (List.mem_of_mem_filter member))
  rw [← listed part part.jobs fun job member => sound'.job?_of_mem member, sound'.numbered,
    ← sequences, listed part _ twins]

/-! ### URIs do not interfere -/

/-- A URI fares alone as it fares among others. A run that is cut down to the events that concern
the URI, under the numbers that its jobs and documents have among themselves and whatever the
numbers of its processes, does what is done for the URI in the whole run, in order; it leads to the
jobs that the URI has in the whole run, of which the same one is current; and the same units are
there, with the same content, those that requests for the URI left unfinished among them. -/
theorem uri_isolated (folder : UnitFolder) (events : List Event) (uri : Text)
    (pid : Nat → Nat) :
    let full := after folder events
    let names := numbering uri pid full
    let part := restricted names uri (start folder) events
    let alone := after folder part
    deeds (effects folder part) = (doneFor uri (start folder) events).map names.ofEffect ∧
      alone.jobs = (full.jobs.filter (·.uri = uri)).map names.ofJob ∧
      alone.current? uri = (full.current? uri).map names.job ∧
      (∀ job ∈ full.jobs, job.uri = uri →
        alone.units.content? (names.ofJob job).unit = full.units.content? job.unit) ∧
      alone.units.unfinished = leftFor uri events ∧
      (leftFor uri events).Sublist full.units.unfinished := by
  intro full names part alone
  have numbers : Numbers names uri full := numbers_numbering uri pid full
  obtain ⟨thin, same⟩ := thinned_restricted folder uri names events numbers
  have reached := reached_after folder events
  have reached' := reached_after folder part
  refine ⟨same, thin.jobs numbers reached.sound reached'.sound,
    thin.current numbers reached reached', ?_, ?_, ?_⟩
  · intro job member own
    exact (thin.job job.sequence job (reached.sound.job?_of_mem member) own).unit
  · exact (unfinished_after folder part).trans (leftBy_restricted names uri _ events)
  · rw [unfinished_after folder events]
    exact sublist_leftFor uri events

/-- Of two documents the second one is asked for twice and stopped, and fares as if it were the only
one: its first process is killed by the second request, and of the unfinished units that there are
it has its own. -/
theorem second_document_isolated :
    let folder : UnitFolder := { path := ['t'] }
    let broken (uri own : Text) : Event :=
      .unwritten uri (.refused .noSuchFile ['u']) (some ⟨own, [], some .permissionDenied⟩)
    let events : List Event :=
      [.opened ⟨['b'], some 1, ['x']⟩, .opened ⟨['a'], some 1, ['y']⟩, broken ['b'] ['v'],
        broken ['a'] ['w'], .requested 0, .requested 1, .launched 1 7, .launched 2 8, .requested 1,
        .requested 0, .shutdown]
    let alone : List Event :=
      [.opened ⟨['a'], some 1, ['y']⟩, broken ['a'] ['w'], .requested 0, .launched 1 5,
        .requested 0, .shutdown]
    let names := numbering ['a'] (fun _ => 5) (after folder events)
    deeds (effects folder alone) =
        (doneFor ['a'] (start folder) events).map names.ofEffect ∧
      killed (doneFor ['a'] (start folder) events) = [2] ∧ killed (effects folder alone) = [1] ∧
      (after folder alone).jobs =
        ((after folder events).jobs.filter (·.uri = ['a'])).map names.ofJob ∧
      (after folder alone).units.content? 2 = (after folder events).units.content? 3 ∧
      (after folder alone).units.unfinished = [(['w'], [])] := by
  intro folder broken events alone names
  obtain ⟨job, present, own, unit⟩ :
      ∃ job ∈ (after folder events).jobs, job.uri = ['a'] ∧ job.unit = 3 := by decide
  have isolated (part : List Event) (cut : restricted names ['a'] (start folder) events = part) :
      deeds (effects folder part) = (doneFor ['a'] (start folder) events).map names.ofEffect ∧
        (after folder part).jobs =
          ((after folder events).jobs.filter (·.uri = ['a'])).map names.ofJob ∧
        (after folder part).units.content? (names.job 3) =
          (after folder events).units.content? 3 ∧
        (after folder part).units.unfinished = [(['w'], [])] := by
    obtain ⟨done, jobs, _, units, unfinished, _⟩ := uri_isolated folder events ['a'] fun _ => 5
    have same := units job present own
    rw [Renumbering.ofJob, unit] at same
    have left : leftFor ['a'] events = [(['w'], [])] := by decide +kernel
    rw [left] at unfinished
    subst cut
    exact ⟨done, jobs, same, by rw [unfinished]⟩
  obtain ⟨done, jobs, units, unfinished⟩ := isolated alone (by with_unfolding_all rfl)
  exact ⟨done, by decide +kernel, by decide +kernel, jobs, units, unfinished⟩

end FormWatch.Supervisor
