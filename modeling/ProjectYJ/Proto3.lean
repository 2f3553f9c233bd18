import ProjectYJ.Lib.Ebnf

/-!
# Proto3 files

The files the generator is run on: the tokens of `io/tokenizer.cc`, the statements of `compiler/parser.cc`, and a file as its
tokens with the white space and the comments between them. Of what the parser reads, a proto3 file has no `required`, no
`group`, no `extensions` and no `default`. Numbers may be of any size here, and a name may be declared twice.
-/

namespace ProjectYJ

namespace Proto3

open Ebnf

/-! ## Characters -/

/-- `Whitespace`. -/
def isWhitespace (c : Char) : Bool := c == ' ' || c == '\n' || c == '\t' || c == '\r' || c.val == 11 || c.val == 12

/-- `Unprintable`, and the null character. -/
def isUnprintable (c : Char) : Bool := c.val < 32

/-- `Digit`. -/
def isDigit (c : Char) : Bool := 48 ≤ c.val && c.val ≤ 57

/-- `OctalDigit`. -/
def isOctalDigit (c : Char) : Bool := 48 ≤ c.val && c.val ≤ 55

/-- `HexDigit`. -/
def isHexDigit (c : Char) : Bool := isDigit c || (97 ≤ c.val && c.val ≤ 102) || (65 ≤ c.val && c.val ≤ 70)

/-- `Letter`. -/
def isLetter (c : Char) : Bool := (97 ≤ c.val && c.val ≤ 122) || (65 ≤ c.val && c.val ≤ 90) || c == '_'

/-- `Alphanumeric`. -/
def isAlphanumeric (c : Char) : Bool := isLetter c || isDigit c

/-- The letters of a one-letter `Escape`. -/
def isEscape (c : Char) : Bool := "abfnrtv\\?'\"".toList.contains c

/-- A character that is a symbol by itself. -/
def isSymbol (c : Char) : Bool :=
  !isWhitespace c && !isUnprintable c && !isAlphanumeric c && c != '"' && c != '\'' && c.val < 128

/-! ## Tokens -/

/-- `Tokenizer::TokenType`, without the two that are not in the text. -/
inductive TokenType where
  | identifier
  | integer
  | float
  | string
  | symbol
  deriving DecidableEq, Repr

/-- `Tokenizer::Token`: its type and its text. -/
structure Token where
  type : TokenType
  text : List Char
  deriving DecidableEq, Repr

/-- One character. -/
def char (c : Char) : Ebnf Empty Char := .token (· == c)

/-- A digit and more digits. -/
def digits : Ebnf Empty Char := many1 (.token isDigit)

/-- The integer part of a decimal number. -/
def decimal : Ebnf Empty Char := .alt (char '0') (.seq (.token fun c => isDigit c && c != '0') (.many (.token isDigit)))

/-- The exponent of a number. -/
def exponent : Ebnf Empty Char :=
  seqs [.token fun c => c == 'e' || c == 'E', opt (.token fun c => c == '-' || c == '+'), digits]

/-- What follows a backslash in `ConsumeString`, as far as it is checked. -/
def escapeSequence : Ebnf Empty Char :=
  oneOf [.token isEscape, .token isOctalDigit, seqs [char 'x', .token isHexDigit],
    seqs (char 'u' :: List.replicate 4 (.token isHexDigit)),
    seqs ([char 'U', char '0', char '0', .token fun c => c == '0' || c == '1'] ++ List.replicate 5 (.token isHexDigit))]

/-- `ConsumeString`: up to the delimiter, on one line. -/
def stringLiteral (delimiter : Char) : Ebnf Empty Char :=
  seqs [char delimiter,
    .many (.alt (.token fun c => c != delimiter && c != '\\' && c != '\n' && c.val != 0) (.seq (char '\\') escapeSequence)),
    char delimiter]

/-- The texts of each type of token, as `Next` and `ConsumeNumber` read them. -/
def lexical : TokenType → Ebnf Empty Char
  | .identifier => .seq (.token isLetter) (.many (.token isAlphanumeric))
  | .integer =>
    oneOf [seqs [char '0', .token fun c => c == 'x' || c == 'X', many1 (.token isHexDigit)],
      .seq (char '0') (many1 (.token isOctalDigit)), decimal]
  | .float =>
    oneOf [seqs [decimal, char '.', .many (.token isDigit), opt exponent], .seq decimal exponent,
      seqs [char '.', digits, opt exponent]]
  | .string => .alt (stringLiteral '"') (stringLiteral '\'')
  | .symbol => .token isSymbol

/-- The text is one of its type. -/
def Token.Lexical (t : Token) : Prop := Derives Empty.elim (lexical t.type) t.text

/-- The token ends where it does, with this text after it: it goes no further, and it is not too close to the next one. -/
def Token.endsBefore (t : Token) (rest : List Char) : Bool :=
  match t.type, rest with
  | _, [] => true
  | .identifier, c :: l => !isAlphanumeric c && !(c == '.' && l.head?.any isDigit)
  | .integer, c :: _ => !isAlphanumeric c && c != '.'
  | .float, c :: _ => !isAlphanumeric c && c != '.'
  | .string, _ :: _ => true
  | .symbol, c :: _ => !(t.text == ['.'] && isDigit c) && !(t.text == ['/'] && (c == '/' || c == '*'))

/-! ## The value of a string -/

/-- `DigitValue`, of a hexadecimal digit. -/
def digitValue (c : Char) : Nat :=
  if isDigit c then c.toNat - 48 else if 97 ≤ c.val then c.toNat - 97 + 10 else c.toNat - 65 + 10

/-- The number these digits stand for. -/
def digitsValue (base : Nat) (ds : List Char) : Nat := ds.foldl (fun code c => code * base + digitValue c) 0

/-- `TranslateEscape`. -/
def translateEscape (c : Char) : UInt8 :=
  match c with
  | 'a' => 7
  | 'b' => 8
  | 'f' => 12
  | 'n' => 10
  | 'r' => 13
  | 't' => 9
  | 'v' => 11
  | '\\' => 92
  | '\'' => 39
  | '"' => 34
  | _ => 63

/-- `AppendUTF8`. Above `0x10FFFF` the number is written out, in eight digits. -/
def appendUTF8 (codePoint : Nat) : List UInt8 :=
  if codePoint ≤ 0x7f then [.ofNat codePoint]
  else if codePoint ≤ 0x7ff then [.ofNat (0xc0 + codePoint / 0x40), .ofNat (0x80 + codePoint % 0x40)]
  else if codePoint ≤ 0xffff then
    [.ofNat (0xe0 + codePoint / 0x1000), .ofNat (0x80 + codePoint / 0x40 % 0x40), .ofNat (0x80 + codePoint % 0x40)]
  else if codePoint ≤ 0x10ffff then
    [.ofNat (0xf0 + codePoint / 0x40000), .ofNat (0x80 + codePoint / 0x1000 % 0x40),
      .ofNat (0x80 + codePoint / 0x40 % 0x40), .ofNat (0x80 + codePoint % 0x40)]
  else
    let ds := Nat.toDigits 16 codePoint
    ('\\' :: 'U' :: (List.replicate (8 - ds.length) '0' ++ ds)).map fun c => .ofNat c.toNat

/-- `ReadHexDigits`: the number of the next `len` characters, unless the text ends before. -/
def readHexDigits (len : Nat) (l : List Char) : Option Nat :=
  if len ≤ l.length then some (digitsValue 16 (l.take len)) else none

/-- `FetchUnicodePoint`, behind the `u` or `U`: the code point, and the text after it. Two escapes may be a surrogate pair. -/
def fetchUnicodePoint (key : Char) (l : List Char) : Option (Nat × List Char) :=
  let len := if key = 'u' then 4 else 8
  (readHexDigits len l).map fun codePoint =>
    match l.drop len with
    | '\\' :: 'u' :: rest =>
      match readHexDigits 4 rest with
      | some trail =>
        if 0xd800 ≤ codePoint ∧ codePoint < 0xdc00 ∧ 0xdc00 ≤ trail ∧ trail < 0xe000 then
          (0x10000 + (codePoint - 0xd800) * 0x400 + (trail - 0xdc00), rest.drop 4)
        else (codePoint, '\\' :: 'u' :: rest)
      | none => (codePoint, '\\' :: 'u' :: rest)
    | rest => (codePoint, rest)

/-- The loop of `ParseStringAppend`, of which each turn takes a character or more from the text. -/
def unescape (quote : Char) : Nat → List Char → List UInt8
  | 0, _ => []
  | _ + 1, [] => []
  | fuel + 1, c :: l =>
    match c, l with
    | '\\', d :: rest =>
      if isOctalDigit d then
        let ds := ((d :: rest).take 3).takeWhile isOctalDigit
        .ofNat (digitsValue 8 ds) :: unescape quote fuel ((d :: rest).drop ds.length)
      else if d = 'x' then
        let ds := (rest.take 2).takeWhile isHexDigit
        .ofNat (digitsValue 16 ds) :: unescape quote fuel (rest.drop ds.length)
      else if d = 'u' ∨ d = 'U' then
        match fetchUnicodePoint d rest with
        | some (codePoint, rest') => appendUTF8 codePoint ++ unescape quote fuel rest'
        | none => .ofNat d.toNat :: unescape quote fuel rest
      else translateEscape d :: unescape quote fuel rest
    | c, l => if c = quote ∧ l = [] then [] else appendUTF8 c.toNat ++ unescape quote fuel l

/-- `ParseStringAppend`: the bytes a string literal stands for. -/
def parseString : List Char → List UInt8
  | [] => []
  | quote :: l => unescape quote l.length l

/-- What `ConsumeString` makes of the string tokens among these: adjacent strings are one. -/
def stringValue (tokens : List Token) : List UInt8 :=
  tokens.flatMap fun t => if t.type = .string then parseString t.text else []

/-! ## White space and comments -/

/-- What may stand between two tokens. -/
inductive Trivia where
  | whitespace (c : Char)
  | lineComment (content : List Char)
  | blockComment (content : List Char)
  deriving DecidableEq, Repr

namespace Trivia

/-- The text. -/
def text : Trivia → List Char
  | whitespace c => [c]
  | lineComment content => '/' :: '/' :: content
  | blockComment content => '/' :: '*' :: content ++ ['*', '/']

/-- Two characters stand next to each other in a text. -/
def adjacent (a b : Char) (l : List Char) : Bool := (l.zip l.tail).contains (a, b)

/-- What `Next` skips without an error: block comments are not nested. -/
def lexical : Trivia → Bool
  | whitespace c => isWhitespace c
  | lineComment content => content.all fun c => c != '\n' && c.val != 0
  | blockComment content =>
    content.all (fun c => c.val != 0) && !adjacent '*' '/' (content ++ ['*']) && !adjacent '/' '*' (content ++ ['*'])

/-- A line comment goes to the end of its line. -/
def endsBefore : Trivia → List Char → Bool
  | lineComment _, c :: _ => c == '\n'
  | _, _ => true

end Trivia

/-- A token with what stands before it. -/
structure Lexeme where
  trivia : List Trivia
  token : Token
  deriving DecidableEq, Repr

namespace Lexeme

/-- The text. -/
def text (x : Lexeme) : List Char := x.trivia.flatMap Trivia.text ++ x.token.text

end Lexeme

/-- The text of a run of tokens. -/
def textOf (l : List Lexeme) : List Char := l.flatMap Lexeme.text

/-- Each of the white space and comments is one, and ends before what follows. -/
def triviaSpaced : List Trivia → List Char → Bool
  | [], _ => true
  | t :: l, rest => t.lexical && t.endsBefore (l.flatMap Trivia.text ++ rest) && triviaSpaced l rest

/-- Each token ends before what follows, and so does what stands before it. -/
def spaced : List Lexeme → List Char → Bool
  | [], _ => true
  | x :: l, rest =>
    triviaSpaced x.trivia (x.token.text ++ (textOf l ++ rest)) && x.token.endsBefore (textOf l ++ rest) && spaced l rest

/-! ## Statements -/

/-- The statements of `compiler/parser.cc` that contain others of their kind, and those a file is made of. -/
inductive Rule where
  | syntaxIdentifier
  | topLevelStatement
  | messageDefinition
  | uninterpretedBlock
  deriving DecidableEq, Repr

/-- `LookingAt`: the token has this text. -/
def Token.lookingAt (t : Token) (s : String) : Bool := t.text == s.toList

/-- `Consume` with a text. -/
def consume (s : String) : Ebnf Rule Token := .token (·.lookingAt s)

/-- `LookingAtType`. -/
def ofType (type : TokenType) : Ebnf Rule Token := .token (·.type == type)

/-- `ConsumeIdentifier`. -/
def identifier : Ebnf Rule Token := ofType .identifier

/-- An identifier at a place where the parser looks for these words first. -/
def identifierExcept (words : List String) : Ebnf Rule Token :=
  .token fun t => t.type == .identifier && !words.any t.lookingAt

/-- `ConsumeString`: adjacent strings are one. -/
def strings : Ebnf Rule Token := many1 (ofType .string)

/-- `ConsumeSignedInteger`. -/
def signedInteger : Ebnf Rule Token := .seq (opt (consume "-")) (ofType .integer)

/-- The names of `kTypeNames`. -/
def typeNames : List String :=
  ["double", "float", "uint64", "fixed64", "fixed32", "bool", "string", "group", "bytes", "uint32", "sfixed32", "sfixed64",
    "int32", "int64", "sint32", "sint64"]

/-- The parts of a name after the first. -/
def nameParts : Ebnf Rule Token := .many (.seq (consume ".") identifier)

/-- `ParseUserDefinedType`, where the parser has looked for these words first. -/
def userDefinedType (words : List String) : Ebnf Rule Token :=
  .alt (.seq (identifierExcept (typeNames ++ words)) nameParts) (seqs [consume ".", identifier, nameParts])

/-- One of `kTypeNames` that proto3 has. -/
def scalarType : Ebnf Rule Token := oneOf ((typeNames.filter (· != "group")).map consume)

/-- `ParseType`. -/
def type : Ebnf Rule Token := .alt scalarType (userDefinedType [])

/-- `ParseUninterpretedBlock`: braces are balanced. -/
def uninterpretedBlock : Ebnf Rule Token :=
  seqs [consume "\x7b",
    .many (.alt (.token fun t => !t.lookingAt "\x7b" && !t.lookingAt "\x7d") (.ref .uninterpretedBlock)),
    consume "\x7d"]

/-- `ParseOptionNamePart`, where the parser has looked for these words first. -/
def optionNamePart (words : List String) : Ebnf Rule Token :=
  .alt (identifierExcept words) (seqs [consume "(", opt identifier, nameParts, consume ")"])

/-- `ParseOption` from the name to the value. -/
def optionAssignment (words : List String) : Ebnf Rule Token :=
  seqs [optionNamePart words, .many (.seq (consume ".") (optionNamePart [])), consume "=",
    oneOf [identifier, signedInteger, .seq (opt (consume "-")) (ofType .float), strings, .ref .uninterpretedBlock]]

/-- `ParseOption` of a statement. -/
def optionStatement : Ebnf Rule Token := seqs [consume "option", optionAssignment [], consume ";"]

/-- `ParseFieldOptions`. -/
def fieldOptions : Ebnf Rule Token :=
  opt (seqs [consume "[",
    sepBy (.alt (optionAssignment ["default", "json_name"]) (seqs [consume "json_name", consume "=", strings])) (consume ","),
    consume "]"])

/-- The end of `ParseMessageFieldNoLabel`, from the field's name. -/
def fieldNameAndNumber : Ebnf Rule Token := seqs [identifier, consume "=", ofType .integer, fieldOptions, consume ";"]

/-- `ParseMessageFieldNoLabel` of a field that is not a map, where the parser has looked for these words first. -/
def fieldNoLabel (words : List String) : Ebnf Rule Token :=
  .seq (oneOf [scalarType, consume "map", userDefinedType ("map" :: words)]) fieldNameAndNumber

/-- `ParseMessageFieldNoLabel` of a map. -/
def mapField : Ebnf Rule Token :=
  seqs [consume "map", consume "<", type, consume ",", type, consume ">", fieldNameAndNumber]

/-- The labels of `ParseLabel`. -/
def labels : List String := ["optional", "repeated", "required"]

/-- A field after a label proto3 has. -/
def labelledField : Ebnf Rule Token := .seq (.alt (consume "optional") (consume "repeated")) (fieldNoLabel [])

/-- `ParseReserved`, with the bounds of its ranges. -/
def reserved (bound : Ebnf Rule Token) : Ebnf Rule Token :=
  seqs [consume "reserved",
    .alt (sepBy strings (consume ","))
      (sepBy (.seq bound (opt (.seq (consume "to") (.alt (consume "max") bound)))) (consume ",")),
    consume ";"]

/-- `ParseExtend`. -/
def extend : Ebnf Rule Token :=
  seqs [consume "extend", userDefinedType [], consume "\x7b", many1 (.alt labelledField (fieldNoLabel labels)), consume "\x7d"]

/-- `ParseOneof`. -/
def oneof : Ebnf Rule Token :=
  seqs [consume "oneof", identifier, consume "\x7b", many1 (.alt optionStatement (fieldNoLabel ("option" :: labels))),
    consume "\x7d"]

/-- `ParseEnumDefinition`. -/
def enumDefinition : Ebnf Rule Token :=
  seqs [consume "enum", identifier, consume "\x7b",
    .many (oneOf [consume ";", optionStatement, reserved signedInteger,
      seqs [identifierExcept ["option", "reserved"], consume "=", signedInteger,
        opt (seqs [consume "[", sepBy (optionAssignment []) (consume ","), consume "]"]), consume ";"]]),
    consume "\x7d"]

/-- The words `ParseMessageStatement` looks for before a field. -/
def statementWords : List String := ["message", "enum", "extensions", "reserved", "extend", "option", "oneof"]

/-- `ParseMessageStatement`. -/
def messageStatement : Ebnf Rule Token :=
  oneOf [consume ";", .ref .messageDefinition, enumDefinition, reserved (ofType .integer), extend, optionStatement, oneof,
    mapField, labelledField, fieldNoLabel (statementWords ++ labels)]

/-- `ParseMessageDefinition`, with `ParseMessageBlock`. -/
def messageDefinition : Ebnf Rule Token :=
  seqs [consume "message", identifier, consume "\x7b", .many messageStatement, consume "\x7d"]

/-- A type of a method in its parentheses. -/
def methodType : Ebnf Rule Token :=
  seqs [consume "(", .alt (.seq (consume "stream") (userDefinedType [])) (userDefinedType ["stream"]), consume ")"]

/-- `ParseServiceMethod`. -/
def serviceMethod : Ebnf Rule Token :=
  seqs [consume "rpc", identifier, methodType, consume "returns", methodType,
    .alt (consume ";") (seqs [consume "\x7b", .many (.alt (consume ";") optionStatement), consume "\x7d"])]

/-- `ParseServiceDefinition`. -/
def serviceDefinition : Ebnf Rule Token :=
  seqs [consume "service", identifier, consume "\x7b", .many (oneOf [consume ";", optionStatement, serviceMethod]),
    consume "\x7d"]

/-- `ParseImport`. -/
def importStatement : Ebnf Rule Token :=
  seqs [consume "import", opt (.alt (consume "public") (consume "weak")), strings, consume ";"]

/-- `ParsePackage`. -/
def package : Ebnf Rule Token := seqs [consume "package", identifier, nameParts, consume ";"]

/-- The rules of the grammar. -/
def rules : Rule → Ebnf Rule Token
  | .syntaxIdentifier =>
    seqs [consume "syntax", consume "=", strings, consume ";"]
  | .topLevelStatement =>
    oneOf [consume ";", .ref .messageDefinition, enumDefinition, serviceDefinition, extend, importStatement, package,
      optionStatement]
  | .messageDefinition => messageDefinition
  | .uninterpretedBlock => uninterpretedBlock

end Proto3

open Proto3 Ebnf

/-- The value of `syntax` in a proto3 file. -/
def Proto3.syntaxName : List UInt8 := "proto3".toList.map fun c => .ofNat c.toNat

/-- A syntactically valid proto3 file: the statement that says so and the top-level statements, each with what stands before
its tokens, and what stands after the last. -/
structure ProtoFile where
  syntaxIdentifier : List Lexeme
  statements : List (List Lexeme)
  trailing : List Trivia
  syntax_derives : Derives rules (.ref .syntaxIdentifier) (syntaxIdentifier.map (·.token))
  syntax_name : stringValue (syntaxIdentifier.map (·.token)) = syntaxName
  statement_derives : ∀ s ∈ statements, Derives rules (.ref .topLevelStatement) (s.map (·.token))
  lexical : ∀ x ∈ syntaxIdentifier ++ statements.flatten, x.token.Lexical
  spaced : Proto3.spaced (syntaxIdentifier ++ statements.flatten) (trailing.flatMap Trivia.text) = true
  trailing_spaced : triviaSpaced trailing [] = true

namespace ProtoFile

/-- The tokens of the file, each with what stands before it. -/
def lexemes (f : ProtoFile) : List Lexeme := f.syntaxIdentifier ++ f.statements.flatten

/-- What stands after the last token. -/
def ending (f : ProtoFile) : List Char := f.trailing.flatMap Trivia.text

/-- The text of the file. -/
def text (f : ProtoFile) : List Char := textOf f.lexemes ++ f.ending

end ProtoFile

/-- A name declared in a text, with the text from its declaration on. -/
structure Declaration where
  source : List Char
  name : List Char
  deriving DecidableEq, Repr

/-- The message a top-level statement declares, with this text after the statement: as `ParseTopLevelStatement` and
`ParseMessageDefinition` find it, the word `message` and then the name. -/
def messageDeclared (statement : List Lexeme) (after : List Char) : Option Declaration :=
  match statement with
  | keyword :: name :: block =>
    if keyword.token.lookingAt "message" then
      some ⟨keyword.token.text ++ (textOf (name :: block) ++ after), name.token.text⟩
    else none
  | _ => none

/-- The messages these statements declare, in order. -/
def messagesDeclared : List (List Lexeme) → List Char → List Declaration
  | [], _ => []
  | statement :: l, ending =>
    (messageDeclared statement (textOf l.flatten ++ ending)).toList ++ messagesDeclared l ending

namespace ProtoFile

/-- The top-level messages of the file, in declaration order. -/
def messages (f : ProtoFile) : List Declaration := messagesDeclared f.statements f.ending

/-- The recognizer finds these to be a file. -/
def recognized (syntaxIdentifier : List Lexeme) (statements : List (List Lexeme)) (trailing : List Trivia) : Bool :=
  accepts rules 64 (.ref .syntaxIdentifier) (syntaxIdentifier.map (·.token)) &&
    stringValue (syntaxIdentifier.map (·.token)) == syntaxName &&
    statements.all (fun s => accepts rules 64 (.ref .topLevelStatement) (s.map (·.token))) &&
    (syntaxIdentifier ++ statements.flatten).all
      (fun x => accepts Empty.elim 64 (Proto3.lexical x.token.type) x.token.text) &&
    Proto3.spaced (syntaxIdentifier ++ statements.flatten) (trailing.flatMap Trivia.text) && triviaSpaced trailing []

/-- A file the recognizer finds to be one. -/
def ofRecognized (syntaxIdentifier : List Lexeme) (statements : List (List Lexeme)) (trailing : List Trivia)
    (h : recognized syntaxIdentifier statements trailing = true) : ProtoFile where
  syntaxIdentifier := syntaxIdentifier
  statements := statements
  trailing := trailing
  syntax_derives := by
    simp only [recognized, Bool.and_eq_true] at h
    exact derives_of_accepts h.1.1.1.1.1
  syntax_name := by
    simp only [recognized, Bool.and_eq_true] at h
    exact beq_iff_eq.1 h.1.1.1.1.2
  statement_derives := by
    simp only [recognized, Bool.and_eq_true, List.all_eq_true] at h
    exact fun s hs => derives_of_accepts (h.1.1.1.2 s hs)
  lexical := by
    simp only [recognized, Bool.and_eq_true, List.all_eq_true] at h
    exact fun x hx => derives_of_accepts (h.1.1.2 x hx)
  spaced := by
    simp only [recognized, Bool.and_eq_true] at h
    exact h.1.2
  trailing_spaced := by
    simp only [recognized, Bool.and_eq_true] at h
    exact h.2

end ProtoFile

end ProjectYJ
