import FormWatch.Text.Utf8
import FormWatch.Workspace.Host

/-!
The file path that a URI names. It is the percent-decoded path of the URI; a share is named by its
host too, and a drive letter is written small and without the slash before it.
-/

namespace FormWatch.Uri

/-- The bytes of a text in which `%` and two hexadecimal digits stand for one byte. -/
def percentBytes : Text → Bytes
  | [] => []
  | ['%', a] => Utf8.encode ['%', a]
  | '%' :: a :: b :: rest =>
    match hexValue? a, hexValue? b with
    | some high, some low => UInt8.ofNat (16 * high + low) :: percentBytes rest
    | _, _ => 0x25 :: percentBytes (a :: b :: rest)
  | c :: rest => String.utf8EncodeChar c ++ percentBytes rest

def unescape (text : Text) : Text :=
  Utf8.decodeLenient (percentBytes text)

/-- A text up to the first of some characters, and from there on. -/
def cut (marks : List Char) (text : Text) : Text × Text :=
  text.span fun c => !marks.contains c

/-- The scheme of a URI in small letters, and what follows it. -/
def scheme (uri : Text) : Text × Text :=
  match uri with
  | [] => ([], [])
  | first :: _ =>
    match cut [':'] uri with
    | (front, _ :: rest) =>
      if first.isAlpha && front.all fun c => c.isAlphanum || c ∈ ['+', '-', '.'] then
        (front.map Char.toLower, rest)
      else ([], uri)
    | (_, []) => ([], uri)

/-- The schemes whose last path part may carry parameters after a semicolon. -/
def schemesWithParameters : List Text :=
  ["", "ftp", "hdl", "prospero", "http", "imap", "https", "shttp", "rtsp", "rtspu", "sip", "sips",
    "mms", "sftp", "tel"].map String.toList

def withoutParameters (path : Text) : Text :=
  let last := (path.reverse.takeWhile (· ≠ '/')).reverse
  path.take (path.length - last.length) ++ (cut [';'] last).1

/-- The parts of a URI that name a file, still escaped. -/
structure Parts where
  scheme : Text
  host : Text
  path : Text

/-- The parts of a URI. Control characters and spaces in front, tabs and line ends do not count. -/
def parts (uri : Text) : Parts :=
  let cleaned := (uri.dropWhile (·.toNat ≤ 0x20)).filter fun c => c ∉ ['\t', '\r', '\n']
  let (scheme, rest) := scheme cleaned
  let (host, rest) :=
    match rest with
    | '/' :: '/' :: rest => cut ['/', '?', '#'] rest
    | rest => ([], rest)
  let path := (cut ['?'] (cut ['#'] rest).1).1
  ⟨scheme, host, if schemesWithParameters.contains scheme then withoutParameters path else path⟩

def fault? (uri : Text) : Option Host.Fault :=
  Host.fault? (parts uri).host

def filePath (uri : Text) : Text :=
  let parts := parts uri
  let host := unescape parts.host
  let path := unescape parts.path
  if !host.isEmpty && !path.isEmpty && parts.scheme = "file".toList then
    '/' :: '/' :: (host ++ path)
  else
    match path with
    | '/' :: drive :: ':' :: rest =>
      if drive.isAlpha then drive.toLower :: ':' :: rest else path
    | _ => path

def fileName (uri : Text) : Text :=
  ((filePath uri).reverse.takeWhile (· ≠ '/')).reverse

end FormWatch.Uri
