import Mathlib.Data.List.Basic
import Mathlib.Data.List.Infix

/-!
# The packet generator

`ProtoParser.py` and the template `PacketHandler.h`: the generator reads a `.proto` text line by line, numbers the messages
whose names end in one of two suffixes, and writes a header from the three lists it has collected. A text is the characters a
file opened with mode `'r'` yields, before newline translation. A packet number is a Python integer.
-/

namespace ProjectYJ

/-- What `parse_proto` raises: `line.split()[1]` of a line with one word. -/
inductive ParseError where
  | indexError
  deriving DecidableEq, Repr

namespace Python

/-- The characters `str.split` separates words at. -/
def isSpace (c : Char) : Bool :=
  (9 ≤ c.val && c.val ≤ 13) || (28 ≤ c.val && c.val ≤ 32) || c.val == 0x85 || c.val == 0xA0 || c.val == 0x1680 ||
    (0x2000 ≤ c.val && c.val ≤ 0x200A) || c.val == 0x2028 || c.val == 0x2029 || c.val == 0x202F || c.val == 0x205F ||
    c.val == 0x3000

/-- Text mode reads every line ending as a line feed. -/
def universalNewlines : List Char → List Char
  | '\r' :: '\n' :: l => '\n' :: universalNewlines l
  | '\r' :: l => '\n' :: universalNewlines l
  | c :: l => c :: universalNewlines l
  | [] => []

/-- `readlines`: the lines, each with the line feed that ends it. -/
def readlines : List Char → List (List Char)
  | [] => []
  | c :: l =>
    if c = '\n' then [c] :: readlines l
    else
      match readlines l with
      | [] => [[c]]
      | line :: lines => (c :: line) :: lines

/-- `str.split()`: the words between runs of white space. -/
def split (line : List Char) : List (List Char) :=
  (line.splitOnP isSpace).filter fun word => !word.isEmpty

/-- `str.startswith`. -/
def startswith (line pre : List Char) : Bool := pre.isPrefixOf line

/-- `str.endswith`. -/
def endswith (word suf : List Char) : Bool := suf.isSuffixOf word

end Python

open Python

/-- `Packet` of the generator: a message name and its number. -/
structure NumberedPacket where
  name : List Char
  type : Int
  deriving DecidableEq, Repr

/-- `ProtoParser`. -/
structure ProtoParser where
  requestPacket : List NumberedPacket
  ackPacket : List NumberedPacket
  totalPacket : List NumberedPacket
  type : Int
  requestSuffix : List Char
  ackSuffix : List Char
  deriving DecidableEq, Repr

namespace ProtoParser

/-- `__init__`. -/
def create (startType : Int) (requestSuffix ackSuffix : List Char) : ProtoParser where
  requestPacket := []
  ackPacket := []
  totalPacket := []
  type := startType
  requestSuffix := requestSuffix
  ackSuffix := ackSuffix

/-- The end of the loop body of `parse_proto`: the packet joins `total_packet` and the number is used up. -/
def count (p : ProtoParser) (packetName : List Char) : ProtoParser :=
  { p with totalPacket := p.totalPacket ++ [⟨packetName, p.type⟩], type := p.type + 1 }

/-- The loop body of `parse_proto`. -/
def parseLine (p : ProtoParser) (line : List Char) : Except ParseError ProtoParser :=
  if !startswith line "message".toList then .ok p
  else
    match (split line)[1]? with
    | none => .error .indexError
    | some packetName =>
      if endswith packetName p.requestSuffix then
        .ok (count { p with requestPacket := p.requestPacket ++ [⟨packetName, p.type⟩] } packetName)
      else if endswith packetName p.ackSuffix then
        .ok (count { p with ackPacket := p.ackPacket ++ [⟨packetName, p.type⟩] } packetName)
      else .ok p

/-- The loop of `parse_proto`. -/
def parseLines (p : ProtoParser) : List (List Char) → Except ParseError ProtoParser
  | [] => .ok p
  | line :: lines =>
    match p.parseLine line with
    | .error e => .error e
    | .ok p' => p'.parseLines lines

/-- `parse_proto`, on the text of the file at `path`. -/
def parseProto (p : ProtoParser) (text : List Char) : Except ParseError ProtoParser :=
  p.parseLines (readlines (universalNewlines text))

/-! ## The template -/

/-- The value of an enumerator of the generated header. -/
def enumerator (p : ProtoParser) (name : List Char) : Option Int :=
  (p.totalPacket.find? (·.name == name)).map (·.type)

/-- What the generated `Init` puts into `GPacketHadler`: for each message of `ack_packet` the index and the name. -/
def registered (p : ProtoParser) : List (List Char × Option Int) :=
  p.ackPacket.map fun k => (k.name, p.enumerator k.name)

/-- The generated `MakePacket` overloads: the message, and the packet type it is sent under. -/
def makes (p : ProtoParser) : List (List Char × Option Int) :=
  p.requestPacket.map fun k => (k.name, p.enumerator k.name)

/-! ## What a line changes -/

/-- The parser with the two kinds of packet exchanged. -/
def exchanged (p : ProtoParser) : ProtoParser where
  requestPacket := p.ackPacket
  ackPacket := p.requestPacket
  totalPacket := p.totalPacket
  type := p.type
  requestSuffix := p.ackSuffix
  ackSuffix := p.requestSuffix

/-- The packets of `total_packet` are numbered one by one from `start`, and the next number follows. -/
structure Numbered (start : Int) (p : ProtoParser) : Prop where
  total : p.totalPacket.map (·.type) = (List.range p.totalPacket.length).map fun k : Nat => start + (k : Int)
  next : p.type = start + p.totalPacket.length

/-- What a line does: nothing, or its second word joins one of the two lists, with the next number. -/
theorem parseLine_cases {p p' : ProtoParser} {line : List Char} (h : p.parseLine line = .ok p') :
    p' = p ∨ ∃ name, p' = count { p with requestPacket := p.requestPacket ++ [⟨name, p.type⟩] } name ∨
      p' = count { p with ackPacket := p.ackPacket ++ [⟨name, p.type⟩] } name := by
  unfold parseLine at h
  split at h
  · exact Or.inl (Except.ok.inj h).symm
  · split at h
    · cases h
    · rename_i name _
      split at h
      · exact Or.inr ⟨name, Or.inl (Except.ok.inj h).symm⟩
      · split at h
        · exact Or.inr ⟨name, Or.inr (Except.ok.inj h).symm⟩
        · exact Or.inl (Except.ok.inj h).symm

/-- The loop keeps what every line keeps. -/
theorem parseLines_invariant {Inv : ProtoParser → Prop}
    (step : ∀ {p p' : ProtoParser} {line}, Inv p → p.parseLine line = .ok p' → Inv p') {lines : List (List Char)}
    {p p' : ProtoParser} (hp : Inv p) (h : p.parseLines lines = .ok p') : Inv p' := by
  induction lines generalizing p with
  | nil => exact Except.ok.inj h ▸ hp
  | cons line lines ih =>
    rw [parseLines] at h
    split at h
    · cases h
    · rename_i p₁ hline
      exact ih (step hp hline) h

/-- Counting a packet keeps the numbering. -/
theorem Numbered.count {start : Int} {p : ProtoParser} (h : Numbered start p) (name : List Char) :
    Numbered start (p.count name) := by
  constructor
  · simp only [ProtoParser.count, List.map_append, List.map_cons, List.map_nil, List.length_append, List.length_singleton,
      List.range_succ, h.total, h.next]
  · simp only [ProtoParser.count, List.length_append, List.length_singleton, h.next]
    omega

/-- A line keeps the numbering. -/
theorem Numbered.parseLine {start : Int} {p p' : ProtoParser} {line : List Char} (h : Numbered start p)
    (hl : p.parseLine line = .ok p') : Numbered start p' := by
  obtain rfl | ⟨name, rfl | rfl⟩ := parseLine_cases hl
  · exact h
  · exact Numbered.count (p := { p with requestPacket := p.requestPacket ++ [⟨name, p.type⟩] }) ⟨h.total, h.next⟩ name
  · exact Numbered.count (p := { p with ackPacket := p.ackPacket ++ [⟨name, p.type⟩] }) ⟨h.total, h.next⟩ name

/-- A line keeps the suffixes. -/
theorem parseLine_suffixes {p p' : ProtoParser} {line : List Char} (h : p.parseLine line = .ok p') :
    p'.requestSuffix = p.requestSuffix ∧ p'.ackSuffix = p.ackSuffix := by
  obtain rfl | ⟨name, rfl | rfl⟩ := parseLine_cases h
  · exact ⟨rfl, rfl⟩
  · exact ⟨rfl, rfl⟩
  · exact ⟨rfl, rfl⟩

end ProtoParser

end ProjectYJ
