import ProjectYJ.Ini

/-!
# What a configuration file says

The lines of a file as a grammar, each with what it says: it opens a section, gives a value to a name, goes on with the value before it,
or says nothing. What the file gives to a name is the values of its lines, in their order and one to a line.
-/

namespace ProjectYJ

open CString

/-- A search for `chars` stops at one of them, and at a comment, which has whitespace before it. `before` is what was passed. -/
def StopsAt (chars before : List Char) (c : Char) : Prop :=
  c ∈ chars ∨ (c ∈ iniInlineCommentPrefixes ∧ ∃ b ∈ before.getLast?, isspace b = true)

/-- What a text has before the first place where a search stops, and from there on. -/
structure FirstStop (chars text before rest : List Char) : Prop where
  split : text = before ++ rest
  passed : ∀ a c b, before = a ++ c :: b → ¬StopsAt chars a c
  stops : ∀ c b, rest = c :: b → StopsAt chars before c

/-- A line is some text between whitespace. -/
def Between (line before text : List Char) : Prop :=
  ∃ after, line = before ++ (text ++ after) ∧ (∀ c ∈ before, isspace c = true) ∧ (∀ c ∈ after, isspace c = true) ∧ Trimmed isspace text

/-- What a line says. -/
inductive IniItem where
  | nothing
  | header (sectionName : List Char)
  | pair (name value : List Char)
  | more (value : List Char)
  deriving DecidableEq, Repr

/-- The forms of a line. `named` says that there is a name whose value may go on, on a line that begins with whitespace. -/
inductive LineIs (named : Bool) (line : List Char) : IniItem → Prop
  | blank {before : List Char} : Between line before [] → LineIs named line .nothing
  | comment {before text : List Char} {c : Char} :
    Between line before (c :: text) → c ∈ iniStartCommentPrefixes → LineIs named line .nothing
  | more {before text value rest : List Char} {c : Char} :
    Between line before (c :: text) → c ∉ iniStartCommentPrefixes → named = true ∧ before ≠ [] →
      FirstStop [] (c :: text) value rest → LineIs named line (.more (iniRstrip value))
  | header {before text name rest : List Char} :
    Between line before ('[' :: text) → ¬(named = true ∧ before ≠ []) → FirstStop [']'] text name (']' :: rest) →
      LineIs named line (.header name)
  | pair {before text name after value rest : List Char} {c sep : Char} :
    Between line before (c :: text) → c ∉ iniStartCommentPrefixes → ¬(named = true ∧ before ≠ []) → c ≠ '[' →
      FirstStop ['=', ':'] (c :: text) name (sep :: after) → sep = '=' ∨ sep = ':' → FirstStop [] after value rest →
        LineIs named line (.pair (iniRstrip name) (iniRstrip (iniLskip value)))

/-- Whether the value of a name may go on after a line. -/
def IniItem.named (before : Bool) : IniItem → Bool
  | nothing => before
  | header _ => false
  | pair name _ => name ≠ []
  | more _ => before

/-- What the lines of a file say; `none` is for a line that has none of the forms. -/
inductive Reads : Bool → List (List Char) → List (Option IniItem) → Prop
  | nil {named : Bool} : Reads named [] []
  | item {named : Bool} {line : List Char} {lines : List (List Char)} {x : IniItem} {xs : List (Option IniItem)} :
    LineIs named line x → Reads (x.named named) lines xs → Reads named (line :: lines) (some x :: xs)
  | malformed {named : Bool} {line : List Char} {lines : List (List Char)} {xs : List (Option IniItem)} :
    (∀ x, ¬LineIs named line x) → Reads named lines xs → Reads named (line :: lines) (none :: xs)

/-- The number of the first line that has none of the forms, or 0. -/
def firstMalformed (items : List (Option IniItem)) : Nat :=
  match items.findIdx? Option.isNone with
  | some i => i + 1
  | none => 0

/-- The values that items give, with section and name. Names of sections, and names whose values go on, are cut. -/
def iniEntries (sectionName prevName : List Char) : List (Option IniItem) → List (List Char × List Char × List Char)
  | [] => []
  | none :: xs => iniEntries sectionName prevName xs
  | some .nothing :: xs => iniEntries sectionName prevName xs
  | some (.header name) :: xs => iniEntries (name.take (iniMaxName - 1)) [] xs
  | some (.pair name value) :: xs => (sectionName, name, value) :: iniEntries sectionName (name.take (iniMaxName - 1)) xs
  | some (.more value) :: xs => (sectionName, prevName, value) :: iniEntries sectionName prevName xs

/-- The values given to a name in a section, in any case of letters. -/
def valuesOf (sectionName name : List Char) (entries : List (List Char × List Char × List Char)) : List (List Char) :=
  (entries.filter fun e => e.1.map Char.toLower = sectionName.map Char.toLower ∧ e.2.1.map Char.toLower = name.map Char.toLower).map
    fun e => e.2.2

/-- The text of the values of a name, if there are any: each on its line, without empty lines in front. -/
def joinValues (values : List (List Char)) : Option (List Char) :=
  if values = [] then none else some (List.intercalate ['\n'] (values.dropWhile fun v => v = []))

/-- The lines of a text, as far as `fgets` keeps them together, without a byte order mark in front. -/
def iniLines (text : List Char) : List (List Char) :=
  match (fgetsLines [] text).map ofBytes with
  | [] => []
  | line :: lines => (if byteOrderMark.isPrefixOf line then line.drop 3 else line) :: lines

/-! ## Writing a file -/

/-- The sections of a configuration, each with its names and their values. -/
abbrev IniConfig : Type := List (List Char × List (List Char × List Char))

namespace IniConfig

/-- The lines of a section: its own, and one for each name. -/
def sectionLines (s : List Char × List (List Char × List Char)) : List (List Char) :=
  ('[' :: s.1 ++ [']']) :: s.2.map fun e => e.1 ++ '=' :: e.2

/-- The text of a configuration. -/
def text (cfg : IniConfig) : List Char := (cfg.flatMap sectionLines).flatMap fun line => line ++ ['\n']

/-- What a configuration gives to a name in a section. -/
def given (cfg : IniConfig) (sectionName name : List Char) : List (List Char) :=
  valuesOf sectionName name (cfg.flatMap fun s => s.2.map fun e => (s.1, e.1, e.2))

end IniConfig

/-- Text that may stand on a line, where nothing ends a search for `chars`. -/
structure OnOneLine (chars text : List Char) : Prop where
  line : '\n' ∉ text
  bytes : Char.ofNat 0 ∉ text
  passed : FirstStop chars text text []

/-- The name of a section that can be read back. -/
structure WritableSection (name : List Char) : Prop where
  onOneLine : OnOneLine [']'] name
  length : name.length < iniMaxName

/-- A name and a value that can be read back. -/
structure WritableEntry (e : List Char × List Char) : Prop where
  name : OnOneLine ['=', ':'] e.1
  value : OnOneLine [] e.2
  nameTrimmed : Trimmed isspace e.1
  valueTrimmed : Trimmed isspace e.2
  first : ∀ c ∈ e.1.head?, c ∉ iniStartCommentPrefixes ∧ c ≠ '['
  length : e.1.length + e.2.length + 2 < iniMaxLine

/-- A configuration that can be read back. -/
def IniConfig.Writable (cfg : IniConfig) : Prop := ∀ s ∈ cfg, WritableSection s.1 ∧ ∀ e ∈ s.2, WritableEntry e

/-- The value of a setting: the one that is given to its name, or the default. -/
def IsSetting (values : List (List Char)) (default value : List Char) : Prop := values = [value] ∨ values = [] ∧ value = default

/-- The value of a setting that is a number. -/
def IsNumber (values : List (List Char)) (default n : Int) : Prop :=
  (values = [decimal n] ∧ -2147483648 ≤ n ∧ n ≤ 2147483647) ∨ values = [] ∧ n = default

/-- The settings of the server are what a configuration gives, and the defaults for the rest. -/
structure ServerSettings.GivenBy (s : ServerSettings) (cfg : IniConfig) : Prop where
  serverPort : IsSetting (cfg.given "server".toList "Port".toList) "7777".toList s.serverPort
  serverIP : IsSetting (cfg.given "server".toList "Address".toList) "127.0.0.1".toList s.serverIP
  threadCnt : IsNumber (cfg.given "server".toList "ThreadCnt".toList) 4 s.threadCnt
  packetPoolSize : IsNumber (cfg.given "server".toList "PacketPoolSize".toList) 10000 s.packetPoolSize
  sessionPoolSize : IsNumber (cfg.given "server".toList "SessionPoolSize".toList) 10000 s.sessionPoolSize
  isConsoleLog : IsNumber (cfg.given "server".toList "IsConsoleLog".toList) 1 s.isConsoleLog

/-- The same for the settings of the client. -/
structure ClientSettings.GivenBy (s : ClientSettings) (cfg : IniConfig) : Prop where
  serverPort : IsSetting (cfg.given "client".toList "Port".toList) "7777".toList s.serverPort
  serverIP : IsSetting (cfg.given "client".toList "Address".toList) "127.0.0.1".toList s.serverIP
  threadCnt : IsNumber (cfg.given "client".toList "threadCnt".toList) 10 s.threadCnt
  maxSessionCnt : IsNumber (cfg.given "client".toList "maxSessionCnt".toList) 10 s.maxSessionCnt
  packetPoolSize : IsNumber (cfg.given "client".toList "PacketPoolSize".toList) 10000 s.packetPoolSize
  isStressTest : IsNumber (cfg.given "client".toList "IsStressTest".toList) 0 s.isStressTest

end ProjectYJ
