import FormWatch.Disk

/-!
Loading a checker from a file. The ending of a file's name tells how it is loaded: as a shared
library, as source or as compiled code. One file of source is the bundled checker. Of the others
only source without any text can be loaded, and it offers nothing of its own.
-/

namespace FormWatch.Batch

/-- The ways of loading a file. -/
inductive FileKind where
  | library
  | source
  | compiled
  deriving DecidableEq, Repr

inductive LoadFault where
  -- No path is given.
  | noPath
  -- The name does not tell how to load it.
  | unknownKind (path : Text)
  | unread (failure : Failure)
  | noLibrary (location : Text) (reason : Text)
  -- Compiled code begins with other bytes than it must.
  | badStart (stem : Text) (bytes : Bytes)
  | shortHeader (stem : Text)
  | badFlags (stem : Text) (flags : Nat)
  | badCode (reason : Text)
  deriving Repr

def LoadFault.message : LoadFault → Text
  | noPath => "expected str, bytes or os.PathLike object, not list".toList
  | unknownKind path => "Cannot load ".toList ++ path
  | unread failure => failure.message
  | noLibrary location reason => location ++ ": ".toList ++ reason
  | badStart stem bytes =>
    "bad magic number in ".toList ++ stem.quoted ++ ": ".toList ++ Text.quotedBytes bytes
  | shortHeader stem => "reached EOF while reading pyc header of ".toList ++ stem.quoted
  | badFlags stem flags =>
    "invalid flags ".toList ++ Text.ofNat flags ++ " in ".toList ++ stem.quoted
  | badCode reason => reason

def endsWith (text ending : Text) : Bool :=
  ending.reverse.isPrefixOf text.reverse

def fileKind? (path : Text) : Option FileKind :=
  if endsWith path ".so".toList then some .library
  else if endsWith path ".py".toList then some .source
  else if endsWith path ".pyc".toList then some .compiled
  else none

/-- The path of a file to load, from the top: a path that starts elsewhere is put after the start,
and loses the slashes at its end. -/
def location (disk : Disk) (path : Text) : Text :=
  if path.startsWith ['/'] then path
  else
    let trim (part : Text) : Text := (part.reverse.dropWhile (· = '/')).reverse
    if path.isEmpty then trim disk.start else trim disk.start ++ '/' :: trim path

/-- The name of a file without its ending, unless it is all ending. -/
def stem (path : Text) : Text :=
  let name := (pathParts path).getLast?.getD []
  let ending := (name.reverse.takeWhile (· ≠ '.')).length + 1
  if ending < name.length then name.take (name.length - ending) else name

inductive Loaded where
  -- the bundled checker
  | checker
  -- a file of source without any text
  | blank
  deriving DecidableEq, Repr

def libraryHeaderBytes : Nat := 64

/-- Why a library cannot be loaded. A NUL ends the path of a library. -/
def libraryFault (disk : Disk) (location : Text) : LoadFault :=
  let location := location.takeWhile (· ≠ '\x00')
  match disk.fileAt location with
  | .error .isDirectory => .noLibrary location "cannot read file data: Is a directory".toList
  | .error fault =>
    .noLibrary location ("cannot open shared object file: ".toList ++ fault.reason)
  | .ok (_, content) =>
    if content.length < libraryHeaderBytes then .noLibrary location "file too short".toList
    else .noLibrary location "invalid ELF header".toList

def compiledStart : Bytes := [0xa7, 0x0d, 0x0d, 0x0a]

/-- The bytes of the header of compiled code. -/
def compiledHeaderBytes : Nat := 16

/-- The number that four bytes stand for, the lowest first. -/
def wordOf (bytes : Bytes) : Nat :=
  (bytes.take 4).foldr (fun byte rest => byte.toNat + 256 * rest) 0

def compiledFault (location stem : Text) (content : Bytes) : LoadFault :=
  let flags := wordOf (content.drop 4)
  if content.take 4 ≠ compiledStart then .badStart stem (content.take 4)
  else if content.length < compiledHeaderBytes then .shortHeader stem
  else if 4 ≤ flags then .badFlags stem flags
  else
    match content.drop compiledHeaderBytes with
    | [] => .badCode "EOF read where object expected".toList
    | 0x4e :: _ => .badCode ("Non-code object in ".toList ++ location.quoted)
    | _ => .badCode "bad marshal data (unknown type code)".toList

/-- The file at a path loaded, where `checker` is the path of the bundled checker. -/
def loadFile (checker : Text) (disk : Disk) (path : Text) : Except LoadFault Loaded :=
  let location := location disk path
  match fileKind? location with
  | none => .error (.unknownKind path)
  | some .library => .error (libraryFault disk location)
  | some .compiled =>
    match disk.read location with
    | .error failure => .error (.unread failure)
    | .ok content => .error (compiledFault location (stem path) content)
  | some .source =>
    match disk.read location, disk.locate location with
    | .error failure, _ => .error (.unread failure)
    | .ok content, found =>
      if (found.toOption.map Prod.fst) = some (pathParts checker) then .ok .checker
      else if content.all (· ∈ [0x09, 0x0a, 0x0d, 0x20]) then .ok .blank
      else .error (.unknownKind path)

end FormWatch.Batch
