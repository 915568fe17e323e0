import FormWatch.Proofs.Supervisor.Correspondence

/-!
The jobs and the documents of one URI, counted for themselves. Each has a place among all jobs or
documents, and a place among those of its URI, which is the number of those before it. Where jobs
and documents are only ever added at the end, both places stay as they are.
-/

namespace FormWatch

/-! ### Places among the like -/

/-- The number of times that a URI comes before a place. -/
def rank (uri : Text) (uris : List Text) (place : Nat) : Nat :=
  (uris.take place).count uri

@[simp] theorem rank_length (uri : Text) (uris : List Text) :
    rank uri uris uris.length = uris.count uri := by
  rw [rank, List.take_length]

theorem rank_of_grown (uri : Text) {uris more : List Text} (grown : uris <+: more) (place : Nat)
    (within : place ≤ uris.length) : rank uri more place = rank uri uris place := by
  obtain ⟨rest, rfl⟩ := grown
  rw [rank, rank, List.take_append_of_le_length within]

theorem rank_lt (uri : Text) (uris : List Text) (place later : Nat)
    (here : uris[place]? = some uri) (before : place < later) :
    rank uri uris place < rank uri uris later := by
  obtain ⟨bound, same⟩ := List.getElem?_eq_some_iff.mp here
  have next : rank uri uris (place + 1) = rank uri uris place + 1 := by
    rw [rank, List.take_succ_eq_append_getElem bound, same]
    simp [rank]
  have grown : rank uri uris (place + 1) ≤ rank uri uris later :=
    (List.take_sublist_take_left before).count_le uri
  omega

/-- Different places of a URI have different places among its own. -/
theorem rank_ne (uri : Text) (uris : List Text) (place other : Nat)
    (here : uris[place]? = some uri) (there : uris[other]? = some uri) (apart : place ≠ other) :
    rank uri uris place ≠ rank uri uris other := by
  rcases Nat.lt_or_gt_of_ne apart with before | after
  · exact Nat.ne_of_lt (rank_lt uri uris place other here before)
  · exact Nat.ne_of_gt (rank_lt uri uris other place there after)

/-- Every place among the URI's own is the place of one of them. -/
theorem exists_rank (uri : Text) (uris : List Text) (own : Nat) (within : own < uris.count uri) :
    ∃ place, uris[place]? = some uri ∧ rank uri uris place = own := by
  induction uris using List.reverseRecOn with
  | nil => simp at within
  | append_singleton uris last ih =>
    by_cases early : own < uris.count uri
    · obtain ⟨place, here, same⟩ := ih early
      obtain ⟨bound, _⟩ := List.getElem?_eq_some_iff.mp here
      exact ⟨place, by rw [List.getElem?_append_left bound, here],
        (rank_of_grown uri (List.prefix_append uris _) place (Nat.le_of_lt bound)).trans same⟩
    · -- The last one is of the URI, and all others come before it.
      have mine : last = uri := by
        by_contra other
        simp [other] at within
        exact early within
      subst mine
      simp only [List.count_append, List.count_singleton_self] at within
      refine ⟨uris.length, by simp, ?_⟩
      rw [rank_of_grown last (List.prefix_append uris _) uris.length (Nat.le_refl _), rank_length]
      omega

/-- A document that is edited keeps its URI. -/
theorem Workspace.uris_edit (workspace : Workspace) (place : Nat) (version : Option Int)
    (text : Text) :
    (workspace.edit place version text).documents.map Document.uri =
      workspace.documents.map Document.uri := by
  apply List.ext_getElem?
  intro index
  simp only [edit, List.getElem?_map, List.getElem?_modify]
  cases workspace.documents[index]? with
  | none => rfl
  | some document => by_cases here : place = index <;> simp [here]

namespace Supervisor

/-! ### The numbers of the jobs and documents of a URI -/

/-- The numbers that the jobs and documents of a URI have among themselves, with processes that go
by other numbers. -/
def numbering (uri : Text) (pid : Nat → Nat) (supervisor : Supervisor) : Renumbering where
  job sequence := rank uri (supervisor.jobs.map Job.uri) (sequence - 1) + 1
  document index := rank uri (supervisor.workspace.documents.map Document.uri) index
  pid := pid

/-- Whether numbers are those of the jobs and documents of a URI, as far as there are any yet. -/
structure Numbers (names : Renumbering) (uri : Text) (supervisor : Supervisor) : Prop where
  job : ∀ place ≤ supervisor.jobs.length,
    names.job (place + 1) = rank uri (supervisor.jobs.map Job.uri) place + 1
  document : ∀ place ≤ supervisor.workspace.documents.length,
    names.document place = rank uri (supervisor.workspace.documents.map Document.uri) place

theorem numbers_numbering (uri : Text) (pid : Nat → Nat) (supervisor : Supervisor) :
    Numbers (numbering uri pid supervisor) uri supervisor :=
  ⟨fun _ _ => rfl, fun _ _ => rfl⟩

theorem sequence_of_place (supervisor : Supervisor) (sound : supervisor.WellFormed) (place : Nat)
    (bound : place < supervisor.jobs.length) :
    supervisor.jobs[place].sequence = place + 1 := by
  have listed := List.getElem_map Job.sequence (l := supervisor.jobs) (i := place)
    (h := by simpa using bound)
  simp only [sound.numbered, List.getElem_range', Nat.one_mul] at listed
  rw [← listed, Nat.add_comm]

theorem uri_of_job? (supervisor : Supervisor) (sound : supervisor.WellFormed) (sequence : Nat)
    (job : Job) (found : supervisor.job? sequence = some job) :
    1 ≤ sequence ∧ (supervisor.jobs.map Job.uri)[sequence - 1]? = some job.uri := by
  obtain ⟨place, bound, same⟩ :=
    List.getElem_of_mem (mem_of_job? supervisor sequence job found)
  have numbered := sequence_of_place supervisor sound place bound
  rw [same, sequence_of_job? supervisor sequence job found] at numbered
  subst numbered
  simp [bound, same]

theorem uri_of_document? (workspace : Workspace) (index : Nat) (document : Document)
    (present : workspace.document? index = some document) :
    (workspace.documents.map Document.uri)[index]? = some document.uri := by
  rw [List.getElem?_map, show workspace.documents[index]? = some document from present]
  rfl

/-- Jobs keep their URIs, and new ones come after them. -/
theorem uris_grow (supervisor : Supervisor) (sound : supervisor.WellFormed) (event : Event) :
    supervisor.jobs.map Job.uri <+: (supervisor.step event).1.jobs.map Job.uri := by
  rcases (transition supervisor sound event).jobs with same | ⟨_, _, _, _, registered⟩ |
    ⟨key, old, new, present, turns, jobs⟩
  · exact ⟨[], by rw [same, List.append_nil]⟩
  · rw [registered, register, List.map_append]
    exact List.prefix_append _ _
  · have kept := map_update supervisor old new Job.uri sound.distinct
      (mem_of_job? supervisor key old present) turns.sequence turns.uri
    exact ⟨[], by rw [jobs, kept, List.append_nil]⟩

/-- One job comes for each snapshot that is taken, under its URI. -/
theorem uris_step (supervisor : Supervisor) (sound : supervisor.WellFormed) (event : Event) :
    (supervisor.step event).1.jobs.map Job.uri =
      supervisor.jobs.map Job.uri ++ (supervisor.snapshot? event).toList.map Document.uri := by
  cases asked : supervisor.snapshot? event with
  | none =>
    have length := (transition supervisor sound event).length_jobs
    have grown := uris_grow supervisor sound event
    rw [← grown.eq_of_length (by simp [length, asked])]
    exact (List.append_nil _).symm
  | some document =>
    cases event <;> simp [snapshot?] at asked
    simp [step, request, asked, register]

/-- Documents keep their URIs, and new ones come after them. -/
theorem uris_reshape (workspace : Workspace) (event : Event) :
    workspace.documents.map Document.uri <+:
      (event.reshape workspace).documents.map Document.uri := by
  cases event with
  | opened document | loaded document =>
    simp only [Event.reshape, Workspace.put, Workspace.add, List.map_append]
    exact List.prefix_append _ _
  | edited index version text =>
    exact ⟨[], by rw [Event.reshape, Workspace.uris_edit, List.append_nil]⟩
  | _ => exact List.prefix_refl _

namespace Numbers

variable {names : Renumbering} {uri : Text} {supervisor : Supervisor}

/-- Numbers that fit after an event fit before it. -/
theorem before (numbers : Numbers names uri (supervisor.step event).1)
    (sound : supervisor.WellFormed) : Numbers names uri supervisor where
  job place within := by
    have grown := uris_grow supervisor sound event
    have longer := grown.length_le
    simp only [List.length_map] at longer
    rw [numbers.job place (Nat.le_trans within longer),
      rank_of_grown uri grown place (by simpa using within)]
  document place within := by
    have grown := uris_reshape supervisor.workspace event
    have longer := grown.length_le
    simp only [List.length_map] at longer
    have after := numbers.document place
    rw [workspace_step] at after
    rw [after (Nat.le_trans within longer), rank_of_grown uri grown place (by simpa using within)]

/-- The job of a number among those of the URI. -/
theorem of_job (numbers : Numbers names uri supervisor) (sound : supervisor.WellFormed)
    {sequence : Nat} {job : Job} (found : supervisor.job? sequence = some job) :
    names.job sequence = rank uri (supervisor.jobs.map Job.uri) (sequence - 1) + 1 := by
  obtain ⟨positive, _⟩ := uri_of_job? supervisor sound sequence job found
  have within := sound.job?_le found
  have here := numbers.job (sequence - 1) (by omega)
  rwa [Nat.sub_add_cancel positive] at here

theorem job_ne (numbers : Numbers names uri supervisor) (sound : supervisor.WellFormed)
    {sequence other : Nat} {job job' : Job} (found : supervisor.job? sequence = some job)
    (found' : supervisor.job? other = some job') (mine : job.uri = uri) (mine' : job'.uri = uri)
    (apart : sequence ≠ other) : names.job sequence ≠ names.job other := by
  obtain ⟨positive, here⟩ := uri_of_job? supervisor sound sequence job found
  obtain ⟨positive', there⟩ := uri_of_job? supervisor sound other job' found'
  rw [mine] at here
  rw [mine'] at there
  rw [numbers.of_job sound found, numbers.of_job sound found', ne_eq, Nat.add_right_cancel_iff]
  exact rank_ne uri _ _ _ here there (by omega)

theorem document_ne (numbers : Numbers names uri supervisor) {index other : Nat}
    {document document' : Document} (present : supervisor.workspace.document? index = some document)
    (present' : supervisor.workspace.document? other = some document') (mine : document.uri = uri)
    (mine' : document'.uri = uri) (apart : index ≠ other) :
    names.document index ≠ names.document other := by
  have here := uri_of_document? _ index document present
  have there := uri_of_document? _ other document' present'
  rw [mine] at here
  rw [mine'] at there
  obtain ⟨bound, _⟩ := List.getElem?_eq_some_iff.mp present
  obtain ⟨bound', _⟩ := List.getElem?_eq_some_iff.mp present'
  rw [numbers.document index (Nat.le_of_lt bound), numbers.document other (Nat.le_of_lt bound')]
  exact rank_ne uri _ _ _ here there apart

end Numbers

end Supervisor

end FormWatch
