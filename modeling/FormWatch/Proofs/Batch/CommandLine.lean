import FormWatch.Batch
import FormWatch.Invocation
import FormWatch.Proofs.Command.Spelling

/-!
The command line of an invocation. What an invocation asks for is what the batch runner takes from
its arguments, as long as none of them could be a switch.
-/

namespace FormWatch.Batch

/-- A switch of the batch runner by its name, with values. -/
def flag (name : Text) (values : List Text) : Command.Flag :=
  ⟨name, (grammar.switch? name).getD Command.helpSwitch, values⟩

/-- The switches of a command line that names all there is. -/
def flags (searchPaths : List Text) (backend entryPoint : Text) : List Command.Flag :=
  flag "--batch".toList [] :: (searchPaths.map (fun path => flag "-L".toList [path]) ++
    [flag "-l".toList [backend], flag "-f".toList [entryPoint]])

theorem fits_text {name value : Text} (listed : name ∈ ["-L".toList, "-l".toList, "-f".toList])
    (plain : value.head? ≠ some '-') : (flag name [value]).Fits grammar := by
  have whole : ∀ name ∈ ["-L".toList, "-l".toList, "-f".toList], name ≠ "--".toList := by decide
  refine ⟨?_, whole name listed, ?_, .inr ⟨?_, value, rfl, plain⟩⟩ <;>
    · simp only [List.mem_cons, List.not_mem_nil, or_false] at listed
      rcases listed with rfl | rfl | rfl <;> rfl

theorem required_switches : ∀ switch ∈ grammar.switches, switch.required = true →
    grammar.switch? "-l".toList = some switch ∨ grammar.switch? "-f".toList = some switch := by
  decide

theorem fits_flags (searchPaths : List Text) (backend entryPoint : Text)
    (plain : ∀ argument ∈ backend :: entryPoint :: searchPaths, argument.head? ≠ some '-') :
    ∀ flag ∈ flags searchPaths backend entryPoint, flag.Fits grammar := by
  intro flag member
  simp only [flags, List.mem_cons, List.mem_append, List.mem_map, List.not_mem_nil, or_false]
    at member
  obtain rfl | ⟨path, listed, rfl⟩ | rfl | rfl := member
  · exact ⟨rfl, by decide, rfl, .inl ⟨rfl, rfl⟩⟩
  · exact fits_text (by decide) (plain path (by simp [listed]))
  · exact fits_text (by decide) (plain backend (by simp))
  · exact fits_text (by decide) (plain entryPoint (by simp))

/-- The search paths are values of one key. -/
theorem all_flags (searchPaths : List Text) (backend entryPoint : Text)
    (operands : List (Command.Operand × Text)) (key : String) :
    Command.Arguments.all
        ⟨(flags searchPaths backend entryPoint).map Command.Flag.use, operands⟩ key =
      Command.Arguments.all ⟨[(flag "--batch".toList []).use], operands⟩ key ++
        ((if "search_paths".toList = key.toList then searchPaths.map ([·]) else []) ++
          Command.Arguments.all
            ⟨[(flag "-l".toList [backend]).use, (flag "-f".toList [entryPoint]).use], operands⟩
              key) := by
  have paths : ((searchPaths.map fun path => (flag "-L".toList [path]).use).filter
      (·.switch.key = key.toList)).map Command.Use.values =
      if "search_paths".toList = key.toList then searchPaths.map ([·]) else [] := by
    split
    next same =>
      rw [List.filter_eq_self.mpr, List.map_map]
      · rfl
      · intro use member
        obtain ⟨path, _, rfl⟩ := List.mem_map.mp member
        exact decide_eq_true same
    next other =>
      rw [List.filter_eq_nil_iff.mpr, List.map_nil]
      intro use member
      obtain ⟨path, _, rfl⟩ := List.mem_map.mp member
      exact fun same => other (of_decide_eq_true same)
  have cut : (flags searchPaths backend entryPoint).map Command.Flag.use =
      [(flag "--batch".toList []).use] ++
        ((searchPaths.map fun path => (flag "-L".toList [path]).use) ++
          [(flag "-l".toList [backend]).use, (flag "-f".toList [entryPoint]).use]) := by
    rw [flags, List.map_cons, List.map_append, List.map_map]
    rfl
  unfold Command.Arguments.all
  rw [cut, List.filter_append, List.filter_append, List.map_append, List.map_append, paths]

theorem ofArguments_flags (searchPaths : List Text) (backend entryPoint target : Text) :
    Request.ofArguments ⟨(flags searchPaths backend entryPoint).map Command.Flag.use,
      grammar.operands.zip [target]⟩ =
      ⟨searchPaths.map some, some backend, some entryPoint, target⟩ := by
  unfold Request.ofArguments Command.Arguments.valueOr Command.Arguments.last?
  rw [all_flags, all_flags, all_flags, if_pos rfl, if_neg (by decide), if_neg (by decide)]
  -- The other two keys have one value each, whatever it is; only the search paths are left.
  congr 1
  · have paths : Command.Arguments.all ⟨[(flag "--batch".toList []).use],
        grammar.operands.zip [target]⟩ "search_paths" = [] := rfl
    have others : Command.Arguments.all ⟨[(flag "-l".toList [backend]).use,
        (flag "-f".toList [entryPoint]).use], grammar.operands.zip [target]⟩ "search_paths" = [] :=
      rfl
    rw [paths, others, List.nil_append, List.append_nil, List.map_map]
    rfl

/-- What an invocation asks for is taken from its arguments. -/
theorem parse_arguments (invocation : Invocation) (target : Text)
    (names : invocation.batchFlag = "--batch".toList ∧ invocation.searchPathFlag = "-L".toList ∧
      invocation.loadFlag = "-l".toList ∧ invocation.entryPointFlag = "-f".toList)
    (plain : ∀ argument ∈ target :: invocation.backend :: invocation.entryPoint ::
      invocation.searchPaths, argument.head? ≠ some '-') :
    Request.parse (invocation.arguments target) =
      .ok ⟨invocation.searchPaths.map some, some invocation.backend, some invocation.entryPoint,
        target⟩ := by
  obtain ⟨batch, path, load, entry⟩ := names
  have line : invocation.arguments target =
      (flags invocation.searchPaths invocation.backend invocation.entryPoint).flatMap
        Command.Flag.words ++ [target] := by
    rw [Invocation.arguments, batch, path, load, entry]
    simp [flags, flag, Command.Flag.words, List.flatMap_map]
  have read := Command.parse_of_flags
    (flags invocation.searchPaths invocation.backend invocation.entryPoint)
    (fits_flags _ _ _ fun argument member => plain argument (List.mem_cons_of_mem target member))
    (by
      intro switch member required
      rcases required_switches switch member required with load | entry
      · exact ⟨flag "-l".toList [invocation.backend], by simp [flags],
          congrArg (fun found => found.getD Command.helpSwitch) load⟩
      · exact ⟨flag "-f".toList [invocation.entryPoint], by simp [flags],
          congrArg (fun found => found.getD Command.helpSwitch) entry⟩)
    [target] (by simpa using plain target List.mem_cons_self) rfl
  rw [Request.parse, line, read]
  exact congrArg Except.ok (ofArguments_flags _ _ _ _)

/-! ### Runs -/

/-- A request that names an entry point is carried out, with the search paths that it gives. Only a
request without one can fail. -/
theorem exists_outcome (checker : Text) (disk : Disk) {request : Request} {name : Text}
    (named : request.entryPoint = some name) :
    ∃ outcome, request.run checker disk = .ok outcome ∧
      outcome.searchPaths = request.searchPaths := by
  unfold Request.run
  cases request.loaded checker disk with
  | error fault => exact ⟨_, rfl, rfl⟩
  | ok file =>
    simp only [named]
    cases entryPoint? file (stem (shown request.load)) name request.target with
    | none => exact ⟨_, rfl, rfl⟩
    | some entryPoint =>
      simp only
      cases entryPoint.call disk request.target with
      | ok stdout => exact ⟨_, rfl, rfl⟩
      | error failure => exact ⟨_, rfl, rfl⟩

/-- The batch runner takes from the arguments that it is started with what the invocation was made
of, if none of it begins with a dash, and puts the search paths in front in their order. -/
theorem request_of_argv (executable searchPaths : List Text) (backend entryPoint target : Text)
    (plain : ∀ argument ∈ target :: backend :: entryPoint :: searchPaths,
      argument.head? ≠ some '-') :
    let invocation : Invocation := { executable, searchPaths, backend, entryPoint }
    let arguments := (invocation.argv target).drop executable.length
    Request.parse arguments =
      .ok ⟨searchPaths.map some, some backend, some entryPoint, target⟩ ∧
    ∀ checker disk, ∃ outcome, run checker disk arguments = .ok outcome ∧
      outcome.searchPaths = searchPaths.map some := by
  intro invocation arguments
  have taken : Request.parse arguments =
      .ok ⟨searchPaths.map some, some backend, some entryPoint, target⟩ := by
    have own : arguments = invocation.arguments target := List.drop_left
    rw [own]
    exact parse_arguments invocation target ⟨rfl, rfl, rfl, rfl⟩ plain
  refine ⟨taken, fun checker disk => ?_⟩
  rw [run, taken]
  exact exists_outcome checker disk rfl

theorem request_of_argv_of_lookalikes :
    let paths := ["".toList, "x -L y".toList, "a=-l".toList, "a=-l".toList]
    let executable := ["p".toList, "--batch".toList]
    let invocation : Invocation :=
      { executable, searchPaths := paths, backend := "".toList, entryPoint := "=".toList }
    let arguments := (invocation.argv "\n-".toList).drop executable.length
    Request.parse arguments =
      .ok ⟨paths.map some, some "".toList, some "=".toList, "\n-".toList⟩ ∧
    ∀ checker disk, ∃ outcome, run checker disk arguments = .ok outcome ∧
      outcome.searchPaths = paths.map some :=
  request_of_argv _ _ _ _ _ (by decide)

end FormWatch.Batch
