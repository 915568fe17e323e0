import FormWatch.Text.Utf8

/-!
Compilation units: files that hold a text as it was at one moment. Each has a name of its own, made
of a serial number between two fixed parts. A unit whose text cannot be written is made under some
other name, and holds a part of it.
-/

namespace FormWatch

/-- A folder of units: its path, the fixed parts of the names, the number of units written so far,
the units that are there by their serial numbers, and those that are there though their texts could
not be written, latest first, by the own parts of their names. -/
structure UnitFolder where
  path : Text
  beginning : Text := "lisp-unit-".toList
  ending : Text := ".lisp".toList
  made : Nat := 0
  units : List (Nat × Bytes) := []
  unfinished : List (Text × Bytes) := []

namespace UnitFolder

def fileName (folder : UnitFolder) (own : Text) : Text :=
  folder.beginning ++ own ++ folder.ending

def unitPath (folder : UnitFolder) (own : Text) : Text :=
  folder.path ++ '/' :: folder.fileName own

/-- The own part of the name of a unit. -/
def ownPart (unit : Nat) : Text :=
  let digits := Text.ofNat unit
  List.replicate (8 - digits.length) '0' ++ digits

/-- The folder with a new unit that holds a text; its serial number counts the units written. -/
def write (text : Text) (folder : UnitFolder) : UnitFolder :=
  { folder with
    made := folder.made + 1
    units := folder.units ++ [(folder.made + 1, Utf8.encode text)] }

/-- The folder with a new unit of which no more than some content could be written. -/
def begin (own : Text) (content : Bytes) (folder : UnitFolder) : UnitFolder :=
  { folder with unfinished := (own, content) :: folder.unfinished }

/-- The latest unfinished unit of a name removed. -/
def abandon (own : Text) (folder : UnitFolder) : UnitFolder :=
  { folder with unfinished := folder.unfinished.eraseP (·.1 = own) }

def discard (unit : Nat) (folder : UnitFolder) : UnitFolder :=
  { folder with units := folder.units.filter (·.1 ≠ unit) }

def content? (folder : UnitFolder) (unit : Nat) : Option Bytes :=
  (folder.units.find? (·.1 = unit)).map Prod.snd

end UnitFolder

end FormWatch
