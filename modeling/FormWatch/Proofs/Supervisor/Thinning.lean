import FormWatch.Proofs.Supervisor.Numbering

/-!
A supervisor with the documents and jobs of one URI, out of those that another has. They stand for
each other under the numbers that they have among themselves, as long as the events that concern
the URI happen on both sides, whatever else happens on the larger one.
-/

namespace FormWatch

namespace Supervisor

/-- Whether an event concerns a URI: its documents, its jobs, or all jobs at once. -/
def Event.concerns (supervisor : Supervisor) (uri : Text) : Event → Bool
  | .opened document | .loaded document => document.uri = uri
  | .edited index _ _ | .requested index =>
    (supervisor.workspace.document? index).any (·.uri = uri)
  | .closed other | .unwritten other _ _ | .forgotten other => other = uri
  | .launched sequence _ | .launchFailed sequence _ _ | .exited sequence _ | .vanished sequence
  | .ended sequence _ _ _ => (supervisor.job? sequence).any (·.uri = uri)
  | .shutdown => true

end Supervisor

/-! ### Documents of a URI -/

namespace Workspace

/-- Whether a workspace has, under other numbers, the documents of a URI that another has. -/
structure Thinned (names : Renumbering) (uri : Text) (full part : Workspace) : Prop where
  counted : part.documents.length = (full.documents.map Document.uri).count uri
  document : ∀ index document, full.document? index = some document → document.uri = uri →
    part.document? (names.document index) = some document
  held : ∀ index document, full.document? index = some document → document.uri = uri →
    (part.held? uri = some (names.document index) ↔ full.held? uri = some index)

theorem document?_add (workspace : Workspace) (document : Document) (index : Nat) :
    (workspace.add document).document? index =
      if index = workspace.documents.length then some document else workspace.document? index := by
  simp only [document?, add, List.getElem?_append]
  rcases Nat.lt_trichotomy index workspace.documents.length with before | rfl | after
  · rw [if_pos before, if_neg (Nat.ne_of_lt before)]
  · simp
  · rw [if_neg (Nat.lt_asymm after), if_neg (Nat.ne_of_gt after),
      List.getElem?_eq_none (Nat.le_of_lt after), List.getElem?_eq_none]
    simp only [List.length_singleton]
    omega

theorem document?_edit (workspace : Workspace) (place : Nat) (version : Option Int) (text : Text)
    (index : Nat) :
    (workspace.edit place version text).document? index =
      (workspace.document? index).map fun old =>
        if place = index then ⟨old.uri, version, text⟩ else old := by
  simp only [document?, edit, List.getElem?_modify]
  cases workspace.documents[index]? with
  | none => rfl
  | some old => by_cases here : place = index <;> simp [here]

namespace Thinned

variable {names : Renumbering} {uri : Text} {full part : Workspace}

theorem lt (thin : Thinned names uri full part) (index : Nat) (document : Document)
    (present : full.document? index = some document) (mine : document.uri = uri) :
    names.document index < part.documents.length :=
  (List.getElem?_eq_some_iff.mp (thin.document index document present mine)).1

theorem live (thin : Thinned names uri full part) (index : Nat) (document : Document)
    (present : full.document? index = some document) (mine : document.uri = uri) :
    part.isLive (names.document index) = full.isLive index := by
  rw [Bool.eq_iff_iff, isLive_iff full index document present,
    isLive_iff part _ document (thin.document index document present mine), mine]
  exact thin.held index document present mine

/-- A new document of the URI comes to both. -/
theorem add (thin : Thinned names uri full part)
    (numbered : names.document full.documents.length = part.documents.length)
    (known : ∀ index, full.held? uri = some index → index < full.documents.length)
    (known' : ∀ index, part.held? uri = some index → index < part.documents.length)
    (new : Document) (mine : new.uri = uri) :
    Thinned names uri (full.add new) (part.add new) where
  counted := by simp [Workspace.add, thin.counted, mine]
  document index document present own := by
    rw [document?_add] at present ⊢
    split at present
    next last =>
      rw [last, numbered, if_pos rfl]
      exact present
    · rw [if_neg (Nat.ne_of_lt (thin.lt index document present own))]
      exact thin.document index document present own
  held index document present own := by
    rw [document?_add] at present
    split at present
    next last =>
      -- The new one is held by nobody.
      rw [last, numbered]
      exact iff_of_false (fun held => Nat.lt_irrefl _ (known' _ held))
        (fun held => Nat.lt_irrefl _ (known _ held))
    · exact thin.held index document present own

/-- A new document of the URI is opened on both sides. -/
theorem put (thin : Thinned names uri full part)
    (numbered : names.document full.documents.length = part.documents.length)
    (known : ∀ index, full.held? uri = some index → index < full.documents.length)
    (known' : ∀ index, part.held? uri = some index → index < part.documents.length)
    (new : Document) (mine : new.uri = uri) :
    Thinned names uri (full.put new) (part.put new) where
  counted := (thin.add numbered known known' new mine).counted
  document := (thin.add numbered known known' new mine).document
  held index document present own := by
    rw [held?_put, held?_put, if_pos mine.symm, if_pos mine.symm]
    have added : (full.add new).document? index = some document := present
    rw [document?_add] at added
    split at added
    next last => simp [last, numbered]
    next early =>
      have before := thin.lt index document added own
      simp only [Option.some.injEq]
      exact iff_of_false (Nat.ne_of_gt before) (Ne.symm early)

/-- A document of the URI is edited on both sides. -/
theorem edit (thin : Thinned names uri full part) (place : Nat)
    (distinct : ∀ index document, full.document? index = some document → document.uri = uri →
      place ≠ index → names.document place ≠ names.document index)
    (version : Option Int) (text : Text) :
    Thinned names uri (full.edit place version text)
      (part.edit (names.document place) version text) := by
  have known (index : Nat) (document : Document)
      (present : (full.edit place version text).document? index = some document)
      (own : document.uri = uri) :
      ∃ before, full.document? index = some before ∧ before.uri = uri ∧
        document = if place = index then ⟨before.uri, version, text⟩ else before := by
    rw [document?_edit, Option.map_eq_some_iff] at present
    obtain ⟨before, there, rfl⟩ := present
    refine ⟨before, there, ?_, rfl⟩
    by_cases here : place = index <;> simpa [here] using own
  refine ⟨?_, ?_, ?_⟩
  · rw [uris_edit, ← thin.counted, Workspace.edit, List.length_modify]
  · intro index document present own
    obtain ⟨before, there, own', rfl⟩ := known index document present own
    rw [document?_edit, thin.document index before there own', Option.map_some]
    by_cases here : place = index
    · simp [here]
    · rw [if_neg here, if_neg (distinct index before there own' here)]
  · intro index document present own
    obtain ⟨before, there, own', _⟩ := known index document present own
    exact thin.held index before there own'

/-- The URI is closed on both sides. -/
theorem close (thin : Thinned names uri full part) :
    Thinned names uri (full.close uri) (part.close uri) where
  counted := thin.counted
  document := thin.document
  held index document present own := by simp

/-- What happens to other documents only, and to other URIs, happens on one side. -/
theorem elsewhere (thin : Thinned names uri full part) {next : Workspace}
    (counted : (next.documents.map Document.uri).count uri =
      (full.documents.map Document.uri).count uri)
    (same : ∀ index document, document.uri = uri → next.document? index = some document →
      full.document? index = some document)
    (held : next.held? uri = full.held? uri) : Thinned names uri next part where
  counted := thin.counted.trans counted.symm
  document index document present own :=
    thin.document index document (same index document own present) own
  held index document present own := by
    rw [held]
    exact thin.held index document (same index document own present) own

end Thinned

end Workspace

namespace Supervisor

variable {names : Renumbering} {uri : Text} {full part : Supervisor}

/-- A document that a URI holds is there. -/
theorem held?_lt (folder : UnitFolder) (events : List Event) (uri : Text) (index : Nat)
    (held : (after folder events).workspace.held? uri = some index) :
    index < (after folder events).workspace.documents.length := by
  induction events using List.reverseRecOn with
  | nil => cases held
  | append_singleton events event ih =>
    rw [after_concat] at held ⊢
    have grown := (uris_reshape (after folder events).workspace event).length_le
    simp only [List.length_map, ← workspace_step] at grown
    rcases held?_before _ event uri index held with before | ⟨opened, rfl⟩
    · exact Nat.lt_of_lt_of_le (ih before) grown
    · cases event <;> simp [Event.opens] at opened
      simp [step, Workspace.put, Workspace.add]

/-- The documents of a URI after an event that concerns it. -/
theorem thinned_reshape (numbers : Numbers names uri full)
    (thin : full.workspace.Thinned names uri part.workspace)
    (known : ∀ index, full.workspace.held? uri = some index →
      index < full.workspace.documents.length)
    (known' : ∀ index, part.workspace.held? uri = some index →
      index < part.workspace.documents.length)
    (event : Event) (mine : event.concerns full uri = true) :
    (event.reshape full.workspace).Thinned names uri
      ((names.ofEvent event).reshape part.workspace) := by
  have numbered : names.document full.workspace.documents.length =
      part.workspace.documents.length := by
    rw [numbers.document _ (Nat.le_refl _), thin.counted, ← rank_length, List.length_map]
  cases event with
  | opened document =>
    exact thin.put numbered known known' document (by simpa [Event.concerns] using mine)
  | loaded document =>
    exact thin.add numbered known known' document (by simpa [Event.concerns] using mine)
  | edited place version text =>
    obtain ⟨old, found, own⟩ : ∃ old, full.workspace.document? place = some old ∧ old.uri = uri := by
      simpa [Event.concerns, Option.any_eq_true] using mine
    refine thin.edit place ?_ version text
    intro index document present own' apart
    exact numbers.document_ne found present own own' apart
  | closed other =>
    have same : other = uri := by simpa [Event.concerns] using mine
    subst same
    exact thin.close
  | _ => exact thin

/-- The documents of a URI after an event that does not concern it. -/
theorem thinned_elsewhere (thin : full.workspace.Thinned names uri part.workspace) (event : Event)
    (foreign : event.concerns full uri = false) :
    (event.reshape full.workspace).Thinned names uri part.workspace := by
  have added (new : Document) (other : new.uri ≠ uri) :
      ((full.workspace.add new).documents.map Document.uri).count uri =
          (full.workspace.documents.map Document.uri).count uri ∧
        ∀ index document, document.uri = uri →
          (full.workspace.add new).document? index = some document →
          full.workspace.document? index = some document := by
    refine ⟨by simp [Workspace.add, other], ?_⟩
    intro index document own present
    rw [Workspace.document?_add] at present
    split at present
    · cases present
      exact absurd own other
    · exact present
  cases event with
  | opened new =>
    have other : new.uri ≠ uri := by simpa [Event.concerns] using foreign
    exact thin.elsewhere (added new other).1 (added new other).2
      (by simp [Event.reshape, Ne.symm other])
  | loaded new =>
    have other : new.uri ≠ uri := by simpa [Event.concerns] using foreign
    exact thin.elsewhere (added new other).1 (added new other).2 rfl
  | edited place version text =>
    refine thin.elsewhere ?_ ?_ rfl
    · congr 1
      exact Workspace.uris_edit full.workspace place version text
    · intro index document own present
      rw [Event.reshape, Workspace.document?_edit, Option.map_eq_some_iff] at present
      obtain ⟨before, there, rfl⟩ := present
      by_cases here : place = index
      · simp [here] at own
        subst here
        simp [Event.concerns, there, own] at foreign
      · rw [if_neg here, there]
  | closed other =>
    have apart : other ≠ uri := by simpa [Event.concerns] using foreign
    exact thin.elsewhere rfl (fun _ _ _ present => present)
      (by simp [Event.reshape, Ne.symm apart])
  | _ => exact thin

/-! ### What events concern -/

theorem concerns_of_job (supervisor : Supervisor) (uri : Text) (event : Event) (sequence : Nat)
    (about : event.job? = some sequence) :
    event.concerns supervisor uri = (supervisor.job? sequence).any (·.uri = uri) := by
  cases event <;> simp [Event.job?] at about <;> simp [Event.concerns, about]

theorem concerns_of_snapshot (supervisor : Supervisor) (uri : Text) (event : Event)
    (asked : Document) (taken : supervisor.snapshot? event = some asked) :
    event.concerns supervisor uri = decide (asked.uri = uri) := by
  cases event <;> simp [snapshot?] at taken
  simp [Event.concerns, taken]

theorem concerns_of_displaces (supervisor : Supervisor) (uri : Text) (event : Event)
    (displaces : supervisor.Displaces event uri) : event.concerns supervisor uri = true := by
  rcases displaces with ⟨asked, taken, mine⟩ | drops
  · rw [concerns_of_snapshot supervisor uri event asked taken, mine, decide_eq_true rfl]
  · cases event <;> simp_all [Event.drops, Event.concerns]

/-- The snapshot for a URI is the same on both sides. -/
theorem snapshot?_ofEvent (thin : full.workspace.Thinned names uri part.workspace) (event : Event)
    (mine : event.concerns full uri = true) :
    part.snapshot? (names.ofEvent event) = full.snapshot? event := by
  cases event <;> try rfl
  case requested index =>
    obtain ⟨asked, found, own⟩ :
        ∃ asked, full.workspace.document? index = some asked ∧ asked.uri = uri := by
      simpa [Event.concerns, Option.any_eq_true] using mine
    simp [snapshot?, Renumbering.ofEvent, found, thin.document index asked found own]

/-! ### Jobs of a URI -/

/-- Whether a supervisor has, under other numbers, the documents and jobs of a URI that another
has. -/
structure Thinned (names : Renumbering) (uri : Text) (full part : Supervisor) : Prop where
  workspace : full.workspace.Thinned names uri part.workspace
  counted : part.jobs.length = (full.jobs.map Job.uri).count uri
  job : ∀ sequence job, full.job? sequence = some job → job.uri = uri →
    Matches names full part sequence job

/-- What is known of a state of a run besides that it is well formed. -/
structure Reached (supervisor : Supervisor) : Prop where
  sound : supervisor.WellFormed
  titled : supervisor.Titled
  kept : ∀ unit ∈ supervisor.units.units.map Prod.fst, unit ≤ supervisor.units.made
  known : ∀ uri index, supervisor.workspace.held? uri = some index →
    index < supervisor.workspace.documents.length

theorem reached_after (folder : UnitFolder) (events : List Event) :
    (after folder events).Reached :=
  ⟨wellFormed_after folder events, titled_after folder events,
    (filled_after folder events).numbered, held?_lt folder events⟩

namespace Thinned

/-- The job that is registered next has the next number among those of the URI. -/
theorem numbered (thin : Thinned names uri full part) (numbers : Numbers names uri full) :
    names.job (full.jobs.length + 1) = part.jobs.length + 1 := by
  rw [numbers.job _ (Nat.le_refl _), thin.counted, ← rank_length, List.length_map]

/-- A job of the URI that an event is not about, where the event happens on both sides. -/
theorem beside (thin : Thinned names uri full part) (numbers : Numbers names uri full)
    (reached : full.Reached) (reached' : part.Reached) (event : Event)
    (mine : event.concerns full uri = true) (sequence : Nat) (job : Job)
    (found : full.job? sequence = some job) (own : job.uri = uri)
    (elsewhere : event.job? ≠ some sequence) :
    Matches names (full.step event).1 (part.step (names.ofEvent event)).1 sequence job := by
  have same := thin.job sequence job found own
  have next := thinned_reshape numbers thin.workspace (reached.known uri) (reached'.known uri)
    event mine
  rw [← workspace_step, ← workspace_step] at next
  have elsewhere' : (names.ofEvent event).job? ≠ some (names.job sequence) := by
    rw [job?_ofEvent]
    cases about : event.job? with
    | none => simp
    | some key =>
      rw [concerns_of_job full uri event key about, Option.any_eq_true] at mine
      obtain ⟨other, found', own'⟩ := mine
      have apart : key ≠ sequence := fun equal => elsewhere (equal ▸ about)
      simpa using
        numbers.job_ne reached.sound found' found (by simpa using own') own apart
  have one := beside_step full reached.sound event sequence job found elsewhere
  have other := beside_step part reached'.sound _ _ _ same.twin elsewhere'
  have displaced : part.Displaces (names.ofEvent event) job.uri = full.Displaces event job.uri := by
    apply displaces_ofEvent
    rintro index rfl
    exact snapshot?_ofEvent thin.workspace _ mine
  rw [show (names.ofJob job).uri = job.uri from rfl, displaced] at other
  obtain ⟨document, present, titles⟩ := (reached.titled.step reached.sound event) sequence job
    one.found
  have of_uri := titles.trans own
  exact same.beside one other ((next.document _ document present of_uri).trans present.symm)
    (next.live _ document present of_uri)

/-- An event that concerns the URI happens on both sides. -/
theorem step (thin : Thinned names uri full part) (numbers : Numbers names uri full)
    (reached : full.Reached) (reached' : part.Reached) (event : Event)
    (mine : event.concerns full uri = true) :
    Thinned names uri (full.step event).1 (part.step (names.ofEvent event)).1 where
  workspace := by
    rw [workspace_step, workspace_step]
    exact thinned_reshape numbers thin.workspace (reached.known uri) (reached'.known uri) event mine
  counted := by
    rw [(transition part reached'.sound _).length_jobs, uris_step full reached.sound,
      snapshot?_ofEvent thin.workspace event mine, List.count_append, thin.counted]
    cases taken : full.snapshot? event with
    | none => rfl
    | some asked =>
      rw [concerns_of_snapshot full uri event asked taken, decide_eq_true_eq] at mine
      simp [mine]
  job sequence job found own := by
    rcases (transition full reached.sound event).origin reached.sound sequence job found with
      ⟨old, before, turns⟩ | ⟨index, asked, rfl, taken, registered, rfl⟩
    · have own' : old.uri = uri := turns.uri.symm.trans own
      by_cases about : event.job? = some sequence
      · obtain ⟨last, still, _⟩ := (thin.job sequence old before own').step event about
        cases found.symm.trans still.found
        exact still
      · have still := thin.beside numbers reached reached' event mine sequence old before own' about
        cases found.symm.trans still.found
        exact still
    · have taken' : part.workspace.document? (names.document index) = some asked :=
        (snapshot?_ofEvent thin.workspace (.requested index) mine).trans taken
      have of_uri : asked.uri = uri := by simpa [Event.concerns, taken] using mine
      have registered' : (part.step (names.ofEvent (.requested index))).1 =
          part.register (names.document index) asked := by
        simp [Renumbering.ofEvent, Supervisor.step, request, taken']
      rw [registered] at found
      rw [registered, registered']
      exact .registered reached.sound reached'.sound reached.kept reached'.kept
        (thin.numbered numbers) index asked (taken'.trans taken.symm)
        (thin.workspace.live index asked taken of_uri) job found

/-- An event that does not concern the URI happens on one side only. -/
theorem skip (thin : Thinned names uri full part) (reached : full.Reached) (event : Event)
    (foreign : event.concerns full uri = false) :
    Thinned names uri (full.step event).1 part where
  workspace := by
    rw [workspace_step]
    exact thinned_elsewhere thin.workspace event foreign
  counted := by
    rw [uris_step full reached.sound, List.count_append, ← thin.counted]
    cases taken : full.snapshot? event with
    | none => rfl
    | some asked =>
      rw [concerns_of_snapshot full uri event asked taken, decide_eq_false_iff_not] at foreign
      simp [foreign]
  job sequence job found own := by
    have next := thinned_elsewhere thin.workspace event foreign
    rw [← workspace_step] at next
    obtain ⟨document, present, titles⟩ :=
      (reached.titled.step reached.sound event) sequence job found
    have of_uri := titles.trans own
    rcases (transition full reached.sound event).origin reached.sound sequence job found with
      ⟨old, before, turns⟩ | ⟨index, asked, rfl, taken, registered, rfl⟩
    · have elsewhere : event.job? ≠ some sequence := by
        intro about
        rw [concerns_of_job full uri event sequence about, before] at foreign
        simp [← turns.uri, own] at foreign
      have one := beside_step full reached.sound event sequence old before elsewhere
      cases found.symm.trans one.found
      have undisplaced : full.Displaces event job.uri = False := by
        refine eq_false fun displaces => ?_
        rw [own] at displaces
        simp [concerns_of_displaces full uri event displaces] at foreign
      rw [undisplaced] at one
      have same := thin.job sequence job before own
      exact same.beside one (.refl same.twin)
        ((next.document _ document present of_uri).trans present.symm)
        (next.live _ document present of_uri)
    · rw [registered, reached.sound.job?_register, if_pos rfl] at found
      cases found
      have mine : asked.uri = uri := own
      simp [Event.concerns, taken, mine] at foreign

/-- The jobs of the smaller one are those of the URI. -/
theorem of_part (thin : Thinned names uri full part) (numbers : Numbers names uri full)
    (reached : full.Reached) (reached' : part.Reached) (sequence : Nat) (job : Job)
    (found : part.job? sequence = some job) :
    ∃ origin twin, full.job? origin = some twin ∧ twin.uri = uri ∧ names.job origin = sequence ∧
      names.ofJob twin = job := by
  obtain ⟨positive, _⟩ := uri_of_job? part reached'.sound sequence job found
  have within := reached'.sound.job?_le found
  rw [thin.counted] at within
  obtain ⟨place, here, same⟩ :=
    exists_rank uri (full.jobs.map Job.uri) (sequence - 1) (by omega)
  rw [List.getElem?_map, Option.map_eq_some_iff] at here
  obtain ⟨twin, listed, own⟩ := here
  obtain ⟨bound, rfl⟩ := List.getElem?_eq_some_iff.mp listed
  have there := reached.sound.job?_of_mem (List.getElem_mem bound)
  have numbered : names.job full.jobs[place].sequence = sequence := by
    rw [sequence_of_place full reached.sound place bound, numbers.job place (Nat.le_of_lt bound),
      same, Nat.sub_add_cancel positive]
  have twins := (thin.job _ _ there own).twin
  rw [numbered, found] at twins
  exact ⟨_, _, there, own, numbered, (Option.some.inj twins).symm⟩

/-- The current job of the URI is the same on both sides. -/
theorem current (thin : Thinned names uri full part) (numbers : Numbers names uri full)
    (reached : full.Reached) (reached' : part.Reached) :
    part.current? uri = (full.current? uri).map names.job := by
  cases here : full.current? uri with
  | some sequence =>
    obtain ⟨job, found, rfl, _⟩ := reached.sound.tracked uri sequence here
    exact (thin.job sequence job found rfl).current.mpr here
  | none =>
    cases there : part.current? uri with
    | none => rfl
    | some sequence =>
      obtain ⟨job, found, _⟩ := reached'.sound.tracked uri sequence there
      obtain ⟨origin, twin, present, rfl, rfl, _⟩ :=
        thin.of_part numbers reached reached' sequence job found
      have still := (thin.job origin twin present rfl).current.mp there
      simp [here] at still

end Thinned

end Supervisor

end FormWatch
