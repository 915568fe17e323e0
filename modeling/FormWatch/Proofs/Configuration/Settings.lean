import FormWatch.Configuration

/-!
What settings come to. Each part of an invocation is what the last setting made it that had
something to say of it and was not refused (`configure_eq`), so settings that say nothing of the same
parts can change places (`accept_comm`). Changing the one invocation that the server and its launcher
hold, part by part, comes to the same as making a new one of it (`call_eq`): no setting is refused
after its first change.
-/

namespace FormWatch

namespace Invocation

/-! ### Parts -/

namespace Setting

/-- Why a setting is refused, if it is: it gives a command that cannot be split. -/
def fault? : Setting → Option ShellWords.Fault
  | .sites _ => none
  | .compiler command _ =>
    if command = [] then none
    else match ShellWords.split command with
      | .ok _ => none
      | .error fault => some fault

def sites? : Setting → Option (List Text)
  | .sites paths => some paths
  | .compiler _ _ => none

def executable? : Setting → Option (List Text)
  | .sites _ => none
  | .compiler command _ => if command = [] then none else (ShellWords.split command).toOption

/-- A setting that is refused for its command has no entry point either. -/
def entryPoint? (setting : Setting) : Option Text :=
  match setting with
  | .sites _ => none
  | .compiler _ entryPoint =>
    if entryPoint = [] ∨ setting.fault?.isSome then none else some entryPoint

/-- No part is set by both of two settings. -/
def Apart (first second : Setting) : Prop :=
  (first.sites? = none ∨ second.sites? = none) ∧
    (first.executable? = none ∨ second.executable? = none) ∧
    (first.entryPoint? = none ∨ second.entryPoint? = none)

instance (first second : Setting) : Decidable (first.Apart second) :=
  inferInstanceAs (Decidable (_ ∧ _ ∧ _))

theorem fault?_eq_some_iff (setting : Setting) (fault : ShellWords.Fault) :
    setting.fault? = some fault ↔ ∃ command entryPoint, setting = .compiler command entryPoint ∧
      command ≠ [] ∧ ShellWords.split command = .error fault := by
  cases setting with
  | sites paths => simp [fault?]
  | compiler command entryPoint =>
    cases words : ShellWords.split command <;> simp [fault?, words, and_assoc]

end Setting

/-- A setting changes the parts that it sets, and no others. -/
theorem accept_eq (invocation : Invocation) (setting : Setting) :
    invocation.accept setting =
      { invocation with
        searchPaths := setting.sites?.getD invocation.searchPaths
        executable := setting.executable?.getD invocation.executable
        entryPoint := setting.entryPoint?.getD invocation.entryPoint } := by
  cases setting with
  | sites paths => rfl
  | compiler command entryPoint =>
    unfold accept apply setCompiler Setting.entryPoint? Setting.fault? Setting.executable?
      Setting.sites?
    by_cases bare : command = []
    · by_cases nameless : entryPoint = [] <;>
        simp [bare, nameless, pure, Except.pure, bind, Except.bind]
    · cases words : ShellWords.split command <;>
        by_cases nameless : entryPoint = [] <;>
        simp [bare, nameless, words, pure, Except.pure, bind, Except.bind, Except.toOption]

/-- What is left of a part after one setting and then others. -/
theorem getLast?_filterMap_cons {α : Type} (part? : Setting → Option α) (first : Setting)
    (rest : List Setting) (old : α) :
    ((first :: rest).filterMap part?).getLast?.getD old =
      (rest.filterMap part?).getLast?.getD ((part? first).getD old) := by
  cases set : part? first with
  | none => rw [List.filterMap_cons_none set, Option.getD_none]
  | some new => rw [List.filterMap_cons_some set, List.getLast?_cons, Option.getD_some,
      Option.getD_some]

/-- The last setting of each part counts. -/
theorem configure_eq (invocation : Invocation) (settings : List Setting) :
    invocation.configure settings =
      { invocation with
        searchPaths := (settings.filterMap Setting.sites?).getLast?.getD invocation.searchPaths
        executable := (settings.filterMap Setting.executable?).getLast?.getD invocation.executable
        entryPoint :=
          (settings.filterMap Setting.entryPoint?).getLast?.getD invocation.entryPoint } := by
  induction settings generalizing invocation with
  | nil => rfl
  | cons first rest ih =>
    have later : invocation.configure (first :: rest) = (invocation.accept first).configure rest :=
      rfl
    rw [later, ih, accept_eq, getLast?_filterMap_cons, getLast?_filterMap_cons,
      getLast?_filterMap_cons]

theorem getD_comm {α : Type} {first second : Option α} (apart : first = none ∨ second = none)
    (old : α) : second.getD (first.getD old) = first.getD (second.getD old) := by
  rcases apart with rfl | rfl <;> rfl

theorem accept_comm {first second : Setting} (apart : first.Apart second)
    (invocation : Invocation) :
    (invocation.accept first).accept second = (invocation.accept second).accept first := by
  obtain ⟨sites, executable, entryPoint⟩ := apart
  simp only [accept_eq]
  rw [getD_comm sites, getD_comm executable, getD_comm entryPoint]

end Invocation

namespace Configuration

/-! ### Changes in place -/

/-- The invocation that the server holds changed where it is, and nothing else. -/
def changed (part : Invocation → Invocation) (configuration : Configuration) : Configuration :=
  { configuration with
    invocations := configuration.invocations.modify configuration.server part }

theorem changed_changed (first second : Invocation → Invocation) (configuration : Configuration) :
    (configuration.changed first).changed second = configuration.changed (second ∘ first) := by
  simp only [changed, List.modify_modify_eq]

theorem changed_id (configuration : Configuration) : configuration.changed id = configuration := by
  simp only [changed, List.modify_id]

/-- A setting is refused or not whatever the configuration is, and does in place what it does to an
invocation. -/
theorem call_eq (setting : Invocation.Setting) (configuration : Configuration) :
    configuration.call setting =
      (match setting.fault? with
        | none => .ok ()
        | some fault => .error fault,
        configuration.changed (Invocation.accept · setting)) := by
  cases setting with
  | sites paths => rfl
  | compiler command entryPoint =>
    cases command with
    | nil =>
      -- There is nothing to split, so nothing to refuse: at most the entry point is set.
      cases entryPoint with
      | nil => exact congrArg (Except.ok (), ·) configuration.changed_id.symm
      | cons d name => rfl
    | cons c line =>
      simp only [call, apply, setCompiler, Invocation.accept, Invocation.apply,
        Invocation.setCompiler, Invocation.Setting.fault?]
      -- The command is split before the first change; what comes behind cannot be refused.
      cases split : ShellWords.split (c :: line) with
      | error fault => exact congrArg (Except.error fault, ·) configuration.changed_id.symm
      | ok words =>
        cases entryPoint with
        | nil => rfl
        | cons d name => exact congrArg (Except.ok (), ·) (configuration.changed_changed _ _)

/-- The same for settings one after the other. -/
theorem configure_eq_changed (settings : List Invocation.Setting) (configuration : Configuration) :
    configuration.configure settings = configuration.changed (Invocation.configure · settings) := by
  induction settings generalizing configuration with
  | nil => exact configuration.changed_id.symm
  | cons first rest ih =>
    have later : configuration.configure (first :: rest) =
        (configuration.call first).2.configure rest := rfl
    rw [later, ih, call_eq, changed_changed]
    rfl

/-- A setting is refused for a command that cannot be split, and for nothing else. -/
theorem refused_iff (setting : Invocation.Setting) (configuration : Configuration)
    (fault : ShellWords.Fault) :
    (configuration.call setting).1 = .error fault ↔ ∃ command entryPoint,
      setting = .compiler command entryPoint ∧ command ≠ [] ∧
        ShellWords.split command = .error fault := by
  rw [call_eq, ← setting.fault?_eq_some_iff]
  cases setting.fault? <;> simp

/-- What a refused setting leaves behind is what was there, its entry point included. -/
theorem call_of_refused {setting : Invocation.Setting} {fault : ShellWords.Fault}
    (configuration : Configuration) (refused : (configuration.call setting).1 = .error fault) :
    (configuration.call setting).2 = configuration := by
  obtain ⟨command, entryPoint, rfl, given, unsplit⟩ :=
    (refused_iff setting configuration fault).mp refused
  have same : (fun invocation => Invocation.accept invocation (.compiler command entryPoint)) =
      id := by
    funext invocation
    simp [Invocation.accept_eq, Invocation.Setting.sites?, Invocation.Setting.executable?,
      Invocation.Setting.entryPoint?, Invocation.Setting.fault?, given, unsplit, Except.toOption]
  rw [call_eq, same, changed_id]

/-- After any settings the launcher of a server starts the compiler with what the last setting of
each part made it, or with what the server began with. A setting is refused for its command only, and
then leaves everything as it was; settings of different parts can change places, and neither makes
the other refused. -/
theorem argv_of_settings (interpreter backend : Text) (settings : List Invocation.Setting) :
    let initial := Invocation.bundled interpreter backend
    let reached := (start interpreter backend).configure settings
    (∀ target, reached.argv target = some (Invocation.argv
      { initial with
        searchPaths :=
          (settings.filterMap Invocation.Setting.sites?).getLast?.getD initial.searchPaths
        executable :=
          (settings.filterMap Invocation.Setting.executable?).getLast?.getD initial.executable
        entryPoint :=
          (settings.filterMap Invocation.Setting.entryPoint?).getLast?.getD initial.entryPoint }
      target)) ∧
    (∀ setting fault,
      ((reached.call setting).1 = .error fault ↔ ∃ command entryPoint,
        setting = .compiler command entryPoint ∧ command ≠ [] ∧
          ShellWords.split command = .error fault) ∧
      ((reached.call setting).1 = .error fault → (reached.call setting).2 = reached)) ∧
    ∀ first second, first.Apart second →
      ((reached.call first).2.call second).2 = ((reached.call second).2.call first).2 ∧
      ((reached.call first).2.call second).1 = (reached.call second).1 := by
  intro initial reached
  refine ⟨fun target => ?_, fun setting fault => ⟨refused_iff setting reached fault,
    call_of_refused reached⟩, fun first second apart => ⟨?_, ?_⟩⟩
  · -- The launcher holds what the server holds, so it sees what was changed in place.
    have held : reached = (start interpreter backend).changed (Invocation.configure · settings) :=
      configure_eq_changed settings _
    rw [held, ← Invocation.configure_eq]
    rfl
  · simp only [call_eq, changed_changed]
    exact congrArg (changed · reached) (funext fun invocation =>
      Invocation.accept_comm apart invocation)
  · rw [call_eq, call_eq second reached]

/-- A command that is refused takes its entry point with it, and a command of blanks has no words. -/
theorem argv_of_refused_setting :
    let settings : List Invocation.Setting := [
      .sites ["/a".toList], .compiler "x 'y z'".toList "f".toList,
      .compiler "\"".toList "g".toList, .sites ["/b".toList, "/c".toList],
      .compiler [] "h".toList, .compiler "\\".toList "i".toList]
    let reached := (start "python".toList "/checker.py".toList).configure settings
    reached.argv "u".toList = some (["x", "y z", "--batch", "-L", "/b", "-L", "/c", "-l",
      "/checker.py", "-f", "h", "u"].map String.toList) ∧
    (reached.call (.compiler "'".toList "j".toList)).2 = reached ∧
    ((reached.call (.compiler " ".toList [])).2.call (.compiler [] "k".toList)).2 =
      ((reached.call (.compiler [] "k".toList)).2.call (.compiler " ".toList [])).2 := by
  intro settings reached
  obtain ⟨started, refused, places⟩ :=
    argv_of_settings "python".toList "/checker.py".toList settings
  refine ⟨(started _).trans (by decide +kernel), (refused _ .openQuote).2 rfl, ?_⟩
  exact (places _ _ (by decide)).1

end Configuration

end FormWatch
