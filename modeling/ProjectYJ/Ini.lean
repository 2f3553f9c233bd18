import ProjectYJ.Lib.CString
import Mathlib.Logic.Function.Basic

/-!
# The configuration files

`ServerConfig.ini` and `ClientConfig.ini` are read by `INIReader`, over `ini_parse_stream` with the options of `ini.h`: values of several
lines, a byte order mark, comments after whitespace, no realloc, and no stop at an error. The text is what `fgets` reads of the file.
-/

namespace ProjectYJ

open CString

/-- `INI_START_COMMENT_PREFIXES`. -/
def iniStartCommentPrefixes : List Char := [';', '#']

/-- `INI_INLINE_COMMENT_PREFIXES`. -/
def iniInlineCommentPrefixes : List Char := [';']

/-- `INI_MAX_LINE`. -/
def iniMaxLine : Nat := 200

/-- `MAX_SECTION` and `MAX_NAME`. -/
def iniMaxName : Nat := 50

/-- The bytes of a byte order mark. -/
def byteOrderMark : List Char := [Char.ofNat 0xEF, Char.ofNat 0xBB, Char.ofNat 0xBF]

/-- `ini_rstrip`. -/
def iniRstrip (s : List Char) : List Char := s.rdropWhile isspace

/-- `ini_lskip`. -/
def iniLskip (s : List Char) : List Char := s.dropWhile isspace

/-- `ini_find_chars_or_comment`: what comes before the first of `chars` or an inline comment, and what comes from there on. -/
def iniFindCharsOrComment (chars : List Char) : Bool → List Char → List Char × List Char
  | _, [] => ([], [])
  | wasSpace, c :: s =>
    if c ∈ chars ∨ (wasSpace = true ∧ c ∈ iniInlineCommentPrefixes) then ([], c :: s)
    else
      let found := iniFindCharsOrComment chars (isspace c) s
      (c :: found.1, found.2)

/-- `ini_strncpy0` into an array of so many bytes. -/
def iniStrncpy0 (s : List Char) (size : Nat) : List Char := s.take (size - 1)

/-- `INIReader::MakeKey`. -/
def makeKey (sectionName name : List Char) : List Char := (sectionName ++ '=' :: name).map Char.toLower

/-- The locals of `ini_parse_stream`, and `_values` of its user. -/
structure IniParse where
  sectionName : List Char
  prevName : List Char
  lineno : Nat
  error : Nat
  values : List Char → Option (List Char)

/-- `INIReader::ValueHandler`, for `_values`. -/
def valueHandler (values : List Char → Option (List Char)) (sectionName name value : List Char) : List Char → Option (List Char) :=
  let key := makeKey sectionName name
  let old := (values key).getD []
  Function.update values key (some ((if 0 < old.length then old ++ ['\n'] else old) ++ value))

namespace IniParse

/-- The handler is called. It always returns 1. -/
def handler (s : IniParse) (name value : List Char) : IniParse :=
  { s with values := valueHandler s.values s.sectionName name value }

/-- A line is wrong. Only the number of the first is kept. -/
def fail (s : IniParse) : IniParse := { s with error := if s.error = 0 then s.lineno else s.error }

/-- The `while` of `ini_parse_stream`, for what `reader` has put into `line`. -/
def parseLine (s : IniParse) (line : List Char) : IniParse :=
  let s := { s with lineno := s.lineno + 1 }
  let bom := decide (s.lineno = 1) && byteOrderMark.isPrefixOf line
  let start := if bom then line.drop 3 else line
  -- whether `start > line`
  let skipped := bom || start.head?.any isspace
  match iniRstrip (iniLskip start) with
  -- `strchr` finds the NUL
  | [] => s
  | c :: rest =>
    if c ∈ iniStartCommentPrefixes then s
    else if s.prevName ≠ [] ∧ skipped = true then s.handler s.prevName (iniRstrip (iniFindCharsOrComment [] false (c :: rest)).1)
    else if c = '[' then
      match iniFindCharsOrComment [']'] false rest with
      | (sectionName, ']' :: _) => { s with sectionName := iniStrncpy0 sectionName iniMaxName, prevName := [] }
      | _ => s.fail
    else
      match iniFindCharsOrComment ['=', ':'] false (c :: rest) with
      | (name, sep :: value) =>
        if sep = '=' ∨ sep = ':' then
          let name := iniRstrip name
          { s with prevName := iniStrncpy0 name iniMaxName }.handler name
            (iniRstrip (iniLskip (iniFindCharsOrComment [] false value).1))
        else s.fail
      | _ => s.fail

end IniParse

/-- What the calls of `fgets` put into `line`: each goes to the end of a line, or fills the array. -/
def fgetsLines (line : List Char) : List Char → List (List Char)
  | [] => if line = [] then [] else [line]
  | c :: text =>
    if c = '\n' ∨ line.length + 1 = iniMaxLine - 1 then (line ++ [c]) :: fgetsLines [] text else fgetsLines (line ++ [c]) text

/-- `ini_parse_stream`. A line goes to its first NUL. -/
def iniParseStream (text : List Char) : IniParse :=
  ((fgetsLines [] text).map ofBytes).foldl IniParse.parseLine
    { sectionName := [], prevName := [], lineno := 0, error := 0, values := fun _ => none }

/-- `INIReader`. -/
structure IniReader where
  error : Int
  values : List Char → Option (List Char)

namespace IniReader

/-- `INIReader::INIReader(filename)`, with the text of the file, if it can be opened. -/
def new : Option (List Char) → IniReader
  | none => { error := -1, values := fun _ => none }
  | some text => { error := (iniParseStream text).error, values := (iniParseStream text).values }

/-- `INIReader::ParseError`. -/
def parseError (r : IniReader) : Int := r.error

/-- `INIReader::Get`. -/
def get (r : IniReader) (sectionName name default : List Char) : List Char := (r.values (makeKey sectionName name)).getD default

/-- `INIReader::GetInteger`. -/
def getInteger (r : IniReader) (sectionName name : List Char) (default : Int) : Int :=
  (strtol (r.get sectionName name [])).getD default

end IniReader

/-! ## The settings -/

/-- What `main` of the server takes from `ServerConfig.ini`. -/
structure ServerSettings where
  serverPort : List Char
  serverIP : List Char
  threadCnt : Int
  packetPoolSize : Int
  sessionPoolSize : Int
  isConsoleLog : Int
  deriving DecidableEq, Repr

/-- `main` of the server. A `ParseError` is logged, and no more. -/
def serverSettings (reader : IniReader) : ServerSettings where
  serverPort := reader.get "server".toList "Port".toList "7777".toList
  serverIP := reader.get "server".toList "Address".toList "127.0.0.1".toList
  threadCnt := reader.getInteger "server".toList "ThreadCnt".toList 4
  packetPoolSize := reader.getInteger "server".toList "PacketPoolSize".toList 10000
  sessionPoolSize := reader.getInteger "server".toList "SessionPoolSize".toList 10000
  isConsoleLog := reader.getInteger "server".toList "IsConsoleLog".toList 1

/-- What `WinMain` of the client takes from `ClientConfig.ini`. -/
structure ClientSettings where
  serverPort : List Char
  serverIP : List Char
  threadCnt : Int
  maxSessionCnt : Int
  packetPoolSize : Int
  isStressTest : Int
  deriving DecidableEq, Repr

/-- `WinMain` of the client. -/
def clientSettings (reader : IniReader) : ClientSettings where
  serverPort := reader.get "client".toList "Port".toList "7777".toList
  serverIP := reader.get "client".toList "Address".toList "127.0.0.1".toList
  threadCnt := reader.getInteger "client".toList "threadCnt".toList 10
  maxSessionCnt := reader.getInteger "client".toList "maxSessionCnt".toList 10
  packetPoolSize := reader.getInteger "client".toList "PacketPoolSize".toList 10000
  isStressTest := reader.getInteger "client".toList "IsStressTest".toList 0

end ProjectYJ
