import FormWatch.Proofs.Supervisor.Run

/-!
What the processes of jobs compile. Each job has a unit of its own, which holds the text that its
document had at the request, and nothing touches the unit until the launch of the job is over; so
the process runs on that text, whatever became of the document since.
-/

namespace FormWatch

/-! ### The contents of units -/

namespace UnitFolder

theorem content?_write (text : Text) (folder : UnitFolder)
    (fresh : ∀ unit ∈ folder.units.map Prod.fst, unit ≤ folder.made) :
    (folder.write text).content? (folder.made + 1) = some (Utf8.encode text) := by
  have absent : folder.units.find? (·.1 = folder.made + 1) = none := by
    rw [List.find?_eq_none]
    intro entry member taken
    have bound := fresh entry.1 (List.mem_map_of_mem member)
    have same : entry.1 = folder.made + 1 := by simpa using taken
    omega
  simp [content?, write, List.find?_append, absent]

theorem content?_write_of_le (text : Text) (folder : UnitFolder) (unit : Nat)
    (old : unit ≤ folder.made) : (folder.write text).content? unit = folder.content? unit := by
  have other : ¬ folder.made + 1 = unit := by omega
  simp [content?, write, List.find?_append, other]

theorem content?_discard_of_ne (unit other : Nat) (folder : UnitFolder) (different : other ≠ unit) :
    (folder.discard unit).content? other = folder.content? other := by
  simp only [content?, discard, List.find?_filter]
  congr 2
  funext entry
  by_cases same : entry.1 = other <;> simp [same, different]

end UnitFolder

namespace Supervisor

/-- The document of which a job was made, as it was when its snapshot was taken: jobs are numbered
in the order of snapshots. -/
def asked? (folder : UnitFolder) (events : List Event) (sequence : Nat) : Option Document :=
  ((start folder).snapshots events)[sequence - 1]?

theorem asked?_append (folder : UnitFolder) (early late : List Event) (sequence : Nat)
    (asked : Document) (known : asked? folder early sequence = some asked) :
    asked? folder (early ++ late) sequence = some asked := by
  obtain ⟨bound, _⟩ := List.getElem?_eq_some_iff.mp known
  rw [asked?, snapshots_append, List.getElem?_append_left bound]
  exact known

/-- The next job to be made is made of the document whose snapshot is taken next. -/
theorem asked?_concat (folder : UnitFolder) (events : List Event) (event : Event)
    (asked : Document) (taken : (after folder events).snapshot? event = some asked) :
    asked? folder (events ++ [event]) ((after folder events).jobs.length + 1) = some asked := by
  have same : ((start folder).run events).1.snapshot? event = some asked := taken
  simp [asked?, snapshots_concat, same, length_jobs_after]

/-! ### Units over one event -/

variable {before next : Supervisor} {event : Event} {done : List Effect}

/-- What a step makes of the units: those that could be written stay, or one is made, or that of a
job is discarded whose launch is over. -/
theorem Transition.units (moved : Transition before event next done) (sound : before.WellFormed) :
    next.units = before.units.withUnfinished (event.left ++ before.units.unfinished) ∨
      (∃ asked, before.snapshot? event = some asked ∧
        next.units = before.units.write asked.text) ∨
      ∃ key last, next.job? key = some last ∧ last.launching = false ∧
        next.units = before.units.discard key := by
  have retired (key : Nat) (old new : Job) (kept : Option SystemFault)
      (present : before.job? key = some old) (turns : old.Becomes new)
      (past : new.launching = false) :
      ((before.update new).retire old kept).units = before.units ∨
        ∃ key last, ((before.update new).retire old kept).job? key = some last ∧
          last.launching = false ∧
          ((before.update new).retire old kept).units = before.units.discard key := by
    cases kept with
    | some fault => exact Or.inl rfl
    | none =>
      have owned := sound.owned old (mem_of_job? before key old present)
      have named := sequence_of_job? before key old present
      refine Or.inr ⟨key, new, ?_, past, by rw [← named, ← owned]; rfl⟩
      rw [job?_retire, job?_update_of_found before key old new present turns, if_pos rfl]
  cases moved with
  | idle | launched | broken | forgotten | stopped => exact Or.inl rfl
  | registered document asked present => exact Or.inr (Or.inl ⟨asked, present, rfl⟩)
  | informed _ _ _ _ _ about =>
    left
    rcases about with ⟨status, rfl⟩ | rfl <;> rfl
  | refused key failure kept old present pending =>
    exact (retired key old _ kept present (becomes_unlaunched old .idle pending) rfl).imp_right
      Or.inr
  | settled key ending refusals kept old handle result present started running gave =>
    have past := (sound.stage present).past_of_started handle started
    exact (retired key old _ kept present
      (becomes_settled before old handle _ result started running) past).imp_right Or.inr

/-! ### What units hold -/

/-- Units have the numbers that were given out, and a job whose launch is under way has its unit,
with the text that its document had at the request. -/
structure Filled (folder : UnitFolder) (events : List Event) : Prop where
  numbered : ∀ unit ∈ (after folder events).units.units.map Prod.fst,
    unit ≤ (after folder events).units.made
  made : ∀ sequence job, (after folder events).job? sequence = some job →
    ∃ asked, asked? folder events sequence = some asked ∧ job.uri = asked.uri ∧
      (job.launching = true →
        (after folder events).units.content? job.unit = some (Utf8.encode asked.text))

theorem filled_after (folder : UnitFolder) (events : List Event) : Filled folder events := by
  induction events using List.reverseRecOn with
  | nil =>
    refine ⟨fun unit member => ?_, fun sequence job found => ?_⟩
    · cases member
    · cases found
  | append_singleton events event ih =>
    have sound := wellFormed_after folder events
    have moved := transition _ sound event
    constructor
    · rw [after_concat]
      rcases moved.units sound with same | ⟨asked, _, more⟩ | ⟨key, _, _, _, less⟩
      · rw [same]
        exact ih.numbered
      · intro unit member
        rw [more] at member ⊢
        simp only [UnitFolder.write, List.map_append, List.mem_append, List.map_cons, List.map_nil,
          List.mem_singleton] at member ⊢
        rcases member with old | rfl
        · exact Nat.le_succ_of_le (ih.numbered unit old)
        · exact Nat.le_refl _
      · intro unit member
        rw [less] at member ⊢
        obtain ⟨entry, kept, rfl⟩ := List.mem_map.mp member
        exact ih.numbered entry.1 (List.mem_map_of_mem (List.mem_of_mem_filter kept))
    · intro sequence job found
      rw [after_concat] at found ⊢
      rcases moved.origin sound sequence job found with
        ⟨old, present, turns⟩ | ⟨document, asked, rfl, taken, registered, rfl⟩
      · obtain ⟨asked, known, uri, filled⟩ := ih.made sequence old present
        refine ⟨asked, asked?_append folder events [event] sequence asked known,
          turns.uri.trans uri, ?_⟩
        intro pending
        have bound := sound.job?_le present
        have owned := sound.owned old (mem_of_job? _ _ _ present)
        have named := sequence_of_job? _ _ old present
        have before : old.launching = true := by
          by_contra past
          simp [turns.launching (by simpa using past)] at pending
        rw [turns.unit, ← filled before]
        -- The step leaves the job's unit alone.
        rcases moved.units sound with same | ⟨_, _, more⟩ | ⟨key, last, there, past, less⟩
        · rw [same]
          rfl
        · rw [more, UnitFolder.content?_write_of_le]
          rw [owned, named, sound.counted]
          exact bound
        · rw [less, UnitFolder.content?_discard_of_ne]
          -- The unit that goes is that of a job whose launch is over, so it is another one.
          rintro rfl
          rw [owned, named, found] at there
          cases there
          simp [past] at pending
      · refine ⟨asked, asked?_concat folder events _ asked taken, ?_⟩
        rw [registered, sound.job?_register, if_pos rfl] at found
        cases found
        refine ⟨rfl, fun _ => ?_⟩
        rw [registered]
        exact UnitFolder.content?_write asked.text _ ih.numbered

/-- The request for a job, and the document as it was then. -/
theorem requested_of_asked (folder : UnitFolder) (events : List Event) (sequence : Nat) (job : Job)
    (asked : Document) (found : (after folder events).job? sequence = some job)
    (known : asked? folder events sequence = some asked) :
    ∃ early late, events = early ++ .requested job.document :: late ∧
      sequence = (after folder early).jobs.length + 1 ∧
      (after folder early).workspace.document? job.document = some asked := by
  induction events using List.reverseRecOn generalizing job with
  | nil => cases found
  | append_singleton events event ih =>
    have sound := wellFormed_after folder events
    rw [after_concat] at found
    rcases (transition _ sound event).origin sound sequence job found with
      ⟨old, present, turns⟩ | ⟨index, document, rfl, present, registered, first⟩
    · obtain ⟨earlier, known', _⟩ := (filled_after folder events).made sequence old present
      have same : earlier = asked := by
        have still := asked?_append folder events [event] sequence earlier known'
        exact Option.some.inj (still.symm.trans known)
      obtain ⟨early, late, split, counted, was⟩ := ih old present (same ▸ known')
      exact ⟨early, late ++ [event], by simp [split, turns.document], counted,
        by rw [turns.document]; exact was⟩
    -- The request has just been made.
    · have newest := asked?_concat folder events (.requested index) document present
      rw [← first, known] at newest
      cases newest
      rw [registered, sound.job?_register, if_pos first] at found
      cases found
      exact ⟨events, [], rfl, first, present⟩

/-! ### What processes compile -/

/-- A process is launched by one event only, on its job's unit as it is then. -/
theorem Transition.launches (moved : Transition before event next done) (sequence pid : Nat)
    (unit : Bytes) (member : .launch sequence pid unit ∈ done) :
    event = .launched sequence pid ∧ ∃ job, before.job? sequence = some job ∧
      job.launching = true ∧ unit = (before.units.content? job.unit).getD [] := by
  have kills (job : Job) : .launch sequence pid unit ∉ killOf job := by
    cases started : job.handle <;> simp [killOf, started]
  have logs (job : Job) (kept : Option SystemFault) :
      .launch sequence pid unit ∉ before.logKept job kept := by
    cases kept <;> simp [logKept, logRefused]
  cases moved with
  | idle _ _ _ _ _ quiet =>
    have note := quiet _ member
    simp [Effect.isNote] at note
  | registered document asked present =>
    cases previous : (before.current? asked.uri).bind before.job? <;> simp_all
  | launched key other job found pending =>
    simp only [List.mem_append, List.mem_singleton] at member
    rcases member with (same | kill) | answer
    · cases same
      exact ⟨rfl, job, found, pending, rfl⟩
    · split at kill
      · cases kill
      · exact absurd kill (kills _)
    · cases answer
  | refused | broken => simp [logs] at member
  | informed | forgotten => cases member
  | settled key ending refusals kept job handle result =>
    rcases mem_complete _ _ _ _ _ _ _ member with note | ⟨outcome, refusal, same, _⟩
    · simp [Effect.isNote] at note
    · cases same
  | stopped =>
    obtain ⟨entry, _, kill⟩ := List.mem_flatMap.mp member
    cases found : before.job? entry.2 with
    | none => simp [found] at kill
    | some job => exact absurd (by simpa [found] using kill) (kills job)

/-- What a process is launched on is the text of its job's document at the request. -/
theorem launched_on_asked (folder : UnitFolder) (events : List Event) (sequence pid : Nat)
    (unit : Bytes) (ran : .launch sequence pid unit ∈ effects folder events) :
    ∃ asked, asked? folder events sequence = some asked ∧ unit = Utf8.encode asked.text := by
  induction events using List.reverseRecOn with
  | nil => cases ran
  | append_singleton events event ih =>
    rw [effects_concat, List.mem_append] at ran
    rcases ran with early | now
    · obtain ⟨asked, known, same⟩ := ih early
      exact ⟨asked, asked?_append folder events [event] sequence asked known, same⟩
    · have moved := transition _ (wellFormed_after folder events) event
      obtain ⟨rfl, job, found, pending, rfl⟩ := moved.launches sequence pid unit now
      obtain ⟨asked, known, _, filled⟩ := (filled_after folder events).made sequence job found
      refine ⟨asked, asked?_append folder events _ sequence asked known, ?_⟩
      rw [filled pending, Option.getD_some]

/-- A process that runs was launched. -/
theorem launched_of_supervised (folder : UnitFolder) (events : List Event) (sequence : Nat)
    (job : Job) (found : (after folder events).job? sequence = some job)
    (supervised : job.isSupervised = true) :
    ∃ pid unit, .launch sequence pid unit ∈ effects folder events := by
  induction events using List.reverseRecOn generalizing job with
  | nil => cases found
  | append_singleton events event ih =>
    have sound := wellFormed_after folder events
    rw [after_concat] at found
    rw [effects_concat]
    obtain ⟨old, present, _, ran | ⟨pending, pid, rfl⟩⟩ :=
      (transition _ sound event).supervised_before sound sequence job found supervised
    · obtain ⟨pid, unit, early⟩ := ih old present ran
      exact ⟨pid, unit, List.mem_append_left _ early⟩
    · refine ⟨pid, ((after folder events).units.content? old.unit).getD [],
        List.mem_append_right _ ?_⟩
      simp only [step, launch, present, pending, if_true]
      exact List.mem_append_left _ (List.mem_append_left _ (List.mem_singleton.mpr rfl))

end Supervisor

end FormWatch
