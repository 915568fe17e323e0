import FormWatch.Report
import FormWatch.Text.Utf8

/-!
Failures of the world around: files, processes, and values that cannot be used. Each has the name
and the message under which it is shown.
-/

namespace FormWatch

inductive SystemFault where
  | noSuchFile
  | permissionDenied
  | notDirectory
  | isDirectory
  | nameTooLong
  deriving DecidableEq, Repr

namespace SystemFault

def number : SystemFault → Nat
  | noSuchFile => 2
  | permissionDenied => 13
  | notDirectory => 20
  | isDirectory => 21
  | nameTooLong => 36

def reason : SystemFault → Text
  | noSuchFile => "No such file or directory".toList
  | permissionDenied => "Permission denied".toList
  | notDirectory => "Not a directory".toList
  | isDirectory => "Is a directory".toList
  | nameTooLong => "File name too long".toList

/-- The name of the failure that a fault is; one without a name of its own has the general one. -/
def name : SystemFault → Text
  | noSuchFile => "FileNotFoundError".toList
  | permissionDenied => "PermissionError".toList
  | notDirectory => "NotADirectoryError".toList
  | isDirectory => "IsADirectoryError".toList
  | nameTooLong => "OSError".toList

end SystemFault

inductive Failure where
  -- The system refuses the file or the process of a name.
  | refused (fault : SystemFault) (name : Text)
  -- A value that cannot be used, for the reason given.
  | badValue (reason : Text)
  -- Bytes that are no UTF-8.
  | undecodable (fault : Utf8.Fault)
  | badState (reason : Text)
  | missingKey (key : Text)
  -- A value of the wrong kind, for the reason given.
  | badKind (reason : Text)
  | noAttribute (reason : Text)
  -- A failure of another class: whether the class is one of the system's or of values, its name,
  -- and the message.
  | other (system value : Bool) (name message : Text)
  deriving DecidableEq, Repr

namespace Failure

/-- What an embedded NUL makes of a path. -/
def embeddedNul : Failure := .badValue "embedded null byte".toList

def isSystem : Failure → Bool
  | refused _ _ => true
  | other system _ _ _ => system
  | _ => false

def isValue : Failure → Bool
  | badValue _ | undecodable _ => true
  | other _ value _ _ => value
  | _ => false

def name : Failure → Text
  | refused fault _ => fault.name
  | badValue _ => "ValueError".toList
  | undecodable _ => "UnicodeDecodeError".toList
  | badState _ => "RuntimeError".toList
  | missingKey _ => "KeyError".toList
  | badKind _ => "TypeError".toList
  | noAttribute _ => "AttributeError".toList
  | other _ _ name _ => name

def message : Failure → Text
  | refused fault name =>
    "[Errno ".toList ++ Text.ofNat fault.number ++ "] ".toList ++ fault.reason ++
      ": ".toList ++ Text.quoted name
  | badValue reason | badState reason | badKind reason | noAttribute reason => reason
  | undecodable fault => fault.message
  | missingKey key => Text.quoted key
  | other _ _ _ message => message

end Failure

end FormWatch
