import FormWatch.Batch.Loading
import FormWatch.Check

/-!
Entry points of a loaded checker. `compile-and-report` prints the report of a file; the others
print nothing, or refuse the path of a file.
-/

namespace FormWatch.Batch

def compileAndReport (disk : Disk) (path : Text) : Except Failure Text := do
  let text ← disk.readText (normalPath path)
  return Report.print path (check text)

inductive EntryPoint where
  | compileAndReport
  -- It takes any path, and prints nothing.
  | quiet
  | refusing (failure : Failure)
  deriving DecidableEq, Repr

def EntryPoint.call (disk : Disk) (target : Text) : EntryPoint → Except Failure Text
  | .compileAndReport => Batch.compileAndReport disk target
  | .quiet => .ok []
  | .refusing failure => .error failure

namespace EntryPoint

def badKind (reason : String) : EntryPoint :=
  .refusing (.badKind reason.toList)

/-- The refusal of an entry point that takes no path. -/
def tooMany (name : String) : EntryPoint :=
  badKind (name ++ "() takes no arguments (1 given)")

/-- The refusal of an entry point that takes the path for the name of something it has. -/
def lacking (owner target : Text) : EntryPoint :=
  .refusing (.noAttribute (owner ++ " has no attribute '".toList ++ target ++ ['\'']))

def ofChecker? : String → Option EntryPoint
  | "compile_and_report" => some .compileAndReport
  | "check" | "read" | "walk" | "Path" => some .quiet
  | "check_bindings" | "defined_name" =>
    some (.refusing (.noAttribute "'str' object has no attribute 'items'".toList))
  | "Any" => some (badKind "Any cannot be instantiated")
  | "Atom" =>
    some (badKind "Atom.__init__() missing 2 required positional arguments: 'start' and 'end'")
  | "Form" => some (badKind "Form.__init__() missing 1 required positional argument: 'start'")
  | _ => none

/-- What the bundled checker has that is no entry point. -/
def dataOfChecker : List String :=
  ["json", "sys", "SENTINEL", "LET_FORMS", "DEFINE_FORMS"]

/-- What every loaded file has of its own and that is no entry point. -/
def dataOfFile : List String :=
  ["__name__", "__doc__", "__package__", "__loader__", "__spec__", "__file__", "__cached__",
    "__builtins__"]

/-- Whether a loaded file has something of its own by a name. -/
def isOwn (loaded : Loaded) (name : String) : Bool :=
  dataOfFile.contains name ||
    (loaded = .checker && (dataOfChecker.contains name || (ofChecker? name).isSome))

def removal (isOwn : Bool) (name : Text) : EntryPoint :=
  if isOwn then .quiet
  else
    match String.ofList name with
    | "__class__" => badKind "can't delete __class__ attribute"
    | "__annotations__" => .refusing (.noAttribute name)
    | "__dict__" => .refusing (.noAttribute "readonly attribute".toList)
    | _ => lacking "'module' object".toList name

/-- The entry points that every loaded file has and that take any path. -/
def quietNames : List String :=
  ["__class__", "__eq__", "__ne__", "__lt__", "__le__", "__gt__", "__ge__", "__init__",
    "__subclasshook__"]

/-- What every loaded file offers by a name, whatever it has of its own. -/
def ofAnyFile? (target : Text) (name : String) : Option EntryPoint :=
  if quietNames.contains name then some .quiet
  else
    match name with
    | "__dir__" | "__getstate__" | "__reduce__" | "__sizeof__" => some (tooMany name)
    | "__init_subclass__" => some (tooMany ("module." ++ name))
    | "__hash__" | "__repr__" | "__str__" => some (badKind "expected 0 arguments, got 1")
    | "__setattr__" => some (badKind " expected 2 arguments, got 1")
    | "__new__" => some (badKind "module.__new__(X): X is not a type object (str)")
    | "__reduce_ex__" => some (badKind "'str' object cannot be interpreted as an integer")
    | "__format__" =>
      if target.isEmpty then some .quiet
      else some (badKind "unsupported format string passed to module.__format__")
    | _ => none

/-- What a loaded file, known by its stem, offers by a name. Two entry points take the path for the
name of something that the file has: one looks it up, the other takes it away. -/
def ofFile? (loaded : Loaded) (stem target : Text) (name : String) : Option EntryPoint :=
  let wanted := String.ofList target
  let lookUps := ["__getattribute__", "__delattr__", "__annotations__", "__dict__"]
  match name with
  | "__getattribute__" =>
    if isOwn loaded wanted || lookUps.contains wanted || (ofAnyFile? [] wanted).isSome then
      some .quiet
    else some (lacking ("module '".toList ++ stem ++ ['\'']) target)
  | "__delattr__" => some (removal (isOwn loaded wanted) target)
  | _ => ofAnyFile? target name

end EntryPoint

/-- The entry point of a loaded file by its name, to be called with a target. Dashes and underscores
in the name are the same. -/
def entryPoint? (loaded : Loaded) (stem name target : Text) : Option EntryPoint :=
  let name := String.ofList (name.replace '-' '_')
  let own :=
    match loaded with
    | .checker => EntryPoint.ofChecker? name
    | .blank => none
  own.or (EntryPoint.ofFile? loaded stem target name)

end FormWatch.Batch
