import ProjectYJ.Lemmas.Proto3
import ProjectYJ.Lemmas.ProtoParser
import ProjectYJ.Lib.Pairing
import Mathlib.Data.List.Sort

/-!
# Which messages the generator numbers

`parse_proto` looks at lines, a proto3 file is made of tokens. The two agree on the top-level messages with a suffix exactly
when every such message is laid out the way the generator reads one and no other line looks like one
(`parseProto_complete_iff`), apart from files in which a line that only looks like a message stands in for one that is missed.
-/

namespace ProjectYJ

open Python ProtoParser Proto3

/-- This declaration comes later in the text. -/
def Declaration.Before (a b : Declaration) : Prop := b.source.length < a.source.length

instance : Std.Irrefl Declaration.Before := ⟨fun _ => Nat.lt_irrefl _⟩

instance : Std.Antisymm Declaration.Before := ⟨fun _ _ h h' => absurd h' (Nat.lt_asymm h)⟩

/-- One list of places in a text within another, as long as it: the two are the same. -/
theorem eq_of_subset_of_length {l m : List Declaration} (hl : l.Pairwise Declaration.Before)
    (hm : m.Pairwise Declaration.Before) (hsub : l ⊆ m) (hlen : l.length = m.length) : l = m := by
  have hperm := (List.subperm_of_subset hl.nodup hsub).perm_of_length_le hlen.ge
  exact hperm.eq_of_pairwise' hl hm

/-! ## The messages of a file -/

/-- The source of a declared message: the text from its `message` on, with the text after the statement at its end. -/
theorem messageDeclared_source {statement : List Lexeme} {after : List Char} {d : Declaration}
    (h : messageDeclared statement after = some d) :
    d.source <:+ textOf statement ++ after ∧ ∃ rest, d.source = "message".toList ++ rest ∧ after <:+ rest := by
  unfold messageDeclared at h
  split at h
  · rename_i keyword name block
    obtain ⟨hkeyword, ⟨⟩⟩ := Option.ite_none_right_eq_some.1 h
    constructor
    · refine ⟨keyword.trivia.flatMap Trivia.text, ?_⟩
      simp only [textOf, List.flatMap_cons, Lexeme.text, List.append_assoc]
    · refine ⟨textOf (name :: block) ++ after, ?_, List.suffix_append _ _⟩
      rw [show keyword.token.text = "message".toList from beq_iff_eq.1 hkeyword]
  · cases h

/-- The declared messages begin where the text does or later. -/
theorem messagesDeclared_suffix {statements : List (List Lexeme)} {ending : List Char} {d : Declaration}
    (h : d ∈ messagesDeclared statements ending) : d.source <:+ textOf statements.flatten ++ ending := by
  induction statements with
  | nil => cases h
  | cons statement l ih =>
    have htext : textOf (statement :: l).flatten ++ ending = textOf statement ++ (textOf l.flatten ++ ending) := by
      simp only [textOf, List.flatten_cons, List.flatMap_append, List.append_assoc]
    rw [htext]
    rcases List.mem_append.1 h with h | h
    · exact (messageDeclared_source (Option.mem_toList.1 h)).1
    · exact (ih h).trans (List.suffix_append _ _)

/-- Every declared message begins with `message`. -/
theorem messagesDeclared_keyword {statements : List (List Lexeme)} {ending : List Char} {d : Declaration}
    (h : d ∈ messagesDeclared statements ending) : ∃ rest, d.source = "message".toList ++ rest := by
  induction statements with
  | nil => cases h
  | cons statement l ih =>
    rcases List.mem_append.1 h with h | h
    · obtain ⟨rest, hrest, -⟩ := (messageDeclared_source (Option.mem_toList.1 h)).2
      exact ⟨rest, hrest⟩
    · exact ih h

/-- The declared messages come one after the other. -/
theorem messagesDeclared_pairwise (statements : List (List Lexeme)) (ending : List Char) :
    (messagesDeclared statements ending).Pairwise Declaration.Before := by
  induction statements with
  | nil => exact List.Pairwise.nil
  | cons statement l ih =>
    rw [messagesDeclared]
    cases hd : messageDeclared statement (textOf l.flatten ++ ending) with
    | none => exact ih
    | some d =>
      refine List.pairwise_cons.2 ⟨fun b hb => ?_, ih⟩
      obtain ⟨rest, hsource, hafter⟩ := (messageDeclared_source hd).2
      have hle := (messagesDeclared_suffix hb).length_le
      have hrest := hafter.length_le
      have hlen : d.source.length = 7 + rest.length := by
        rw [hsource, List.length_append]
        rfl
      show b.source.length < d.source.length
      omega

/-! ## What the lines read as -/

/-- The lines that begin with `message`, each with the text from there on and its second word. -/
def declarationsRead (text : List Char) : List Declaration :=
  (lineTails text).filterMap fun source => (wordRead (lineAt source)).map fun word => ⟨source, word⟩

theorem mem_declarationsRead {text : List Char} {d : Declaration} :
    d ∈ declarationsRead text ↔ d.source ∈ lineTails text ∧ wordRead (lineAt d.source) = some d.name := by
  simp only [declarationsRead, List.mem_filterMap, Option.map_eq_some_iff]
  constructor
  · rintro ⟨source, hsource, word, hword, rfl⟩
    exact ⟨hsource, hword⟩
  · rintro ⟨hsource, hword⟩
    exact ⟨d.source, hsource, d.name, hword, rfl⟩

/-- The words read are the second words of the lines. -/
theorem declarationsRead_names (text : List Char) :
    (declarationsRead text).map (·.name) = (readlines (universalNewlines text)).filterMap wordRead := by
  rw [readlines_universalNewlines, List.filterMap_map, declarationsRead, List.map_filterMap]
  simp only [Option.map_map, Function.comp_def, Option.map_id']

/-- The lines read come one after the other. -/
theorem declarationsRead_pairwise (text : List Char) : (declarationsRead text).Pairwise Declaration.Before := by
  refine List.Pairwise.filterMap _ ?_ (lineTails_pairwise text)
  intro a b hab d hd e he
  obtain ⟨-, -, rfl⟩ := Option.map_eq_some_iff.1 hd
  obtain ⟨-, -, rfl⟩ := Option.map_eq_some_iff.1 he
  exact hab

/-! ## When the two agree -/

section

variable (requestSuffix ackSuffix : List Char) (f : ProtoFile)

/-- The top-level messages whose name ends in a suffix. -/
def packetMessages : List Declaration := f.messages.filter fun d => hasSuffix requestSuffix ackSuffix d.name

/-- The lines that read as such a message. -/
def packetLines : List Declaration := (declarationsRead f.text).filter fun d => hasSuffix requestSuffix ackSuffix d.name

/-- `parse_proto` succeeds, and `total_packet` has exactly the top-level messages whose name ends in a suffix, in declaration
order. -/
def NumbersMessages (startType : Int) : Prop :=
  ∃ q, (create startType requestSuffix ackSuffix).parseProto f.text = .ok q ∧
    q.totalPacket.map (·.name) = (packetMessages requestSuffix ackSuffix f).map (·.name)

/-- The keyword of each such message begins a line, and its name is the second word of that line. -/
def LaidOut : Prop :=
  ∀ d ∈ packetMessages requestSuffix ackSuffix f,
    d.source ∈ lineTails f.text ∧ (split (lineAt d.source))[1]? = some d.name

/-- Each line that begins with `message` has a second word, and where that ends in a suffix, it is the name of a top-level
message whose keyword begins the line. -/
def NoStrayLine : Prop :=
  ∀ source ∈ lineTails f.text, startswith (lineAt source) "message".toList = true →
    ∃ word, (split (lineAt source))[1]? = some word ∧
      (hasSuffix requestSuffix ackSuffix word = true → ⟨source, word⟩ ∈ f.messages)

/-- The messages with a suffix and the lines that read as one, as they come in the text. -/
def occurrences : List (Declaration ⊕ Declaration) :=
  ((packetMessages requestSuffix ackSuffix f).map Sum.inl).merge ((packetLines requestSuffix ackSuffix f).map Sum.inr)
    fun a b => (Sum.elim Declaration.source Declaration.source b).length ≤ (Sum.elim Declaration.source Declaration.source a).length

/-- A message is missed and a line is stray, and the lines stand in for the messages: as they come in the text, a message
waits for a line of its name, or such a line for its message, and the one that has waited longest goes first. Where none waits,
a message and its own line pass at once; where one waits, the line that comes next must have its name. -/
structure Compensated : Prop where
  missed : ¬LaidOut requestSuffix ackSuffix f
  stray : ¬NoStrayLine requestSuffix ackSuffix f
  worded : ∀ source ∈ lineTails f.text, Worded (lineAt source)
  standIn : PairsOff (fun message line => message.name = line.name) [] [] (occurrences requestSuffix ackSuffix f)

variable {requestSuffix ackSuffix f}

theorem packetMessages_pairwise : (packetMessages requestSuffix ackSuffix f).Pairwise Declaration.Before :=
  (messagesDeclared_pairwise _ _).filter _

theorem packetLines_pairwise : (packetLines requestSuffix ackSuffix f).Pairwise Declaration.Before :=
  (declarationsRead_pairwise _).filter _

/-- The lines stand in for the messages if and only if they have the same names, one by one. -/
theorem pairsOff_occurrences_iff :
    PairsOff (fun message line => message.name = line.name) [] [] (occurrences requestSuffix ackSuffix f) ↔
      (packetMessages requestSuffix ackSuffix f).map (·.name) = (packetLines requestSuffix ackSuffix f).map (·.name) := by
  calc PairsOff (fun message line => message.name = line.name) [] [] (occurrences requestSuffix ackSuffix f)
      ↔ List.Forall₂ (fun message line => message.name = line.name) (packetMessages requestSuffix ackSuffix f)
          (packetLines requestSuffix ackSuffix f) := pairsOff_merge_iff
    _ ↔ List.Forall₂ (· = ·) ((packetMessages requestSuffix ackSuffix f).map (·.name))
          ((packetLines requestSuffix ackSuffix f).map (·.name)) := by
        rw [List.forall₂_map_left_iff, List.forall₂_map_right_iff]
    _ ↔ _ := by rw [List.forall₂_eq_eq_eq]

/-- What the run gives: the second words of the lines that begin with `message`, as far as they end in a suffix. -/
theorem numbersMessages_iff {startType : Int} :
    NumbersMessages requestSuffix ackSuffix f startType ↔
      (∀ source ∈ lineTails f.text, Worded (lineAt source)) ∧
        (packetMessages requestSuffix ackSuffix f).map (·.name) = (packetLines requestSuffix ackSuffix f).map (·.name) := by
  have hlines : ((readlines (universalNewlines f.text)).filterMap wordRead).filter (hasSuffix requestSuffix ackSuffix) =
      (packetLines requestSuffix ackSuffix f).map (·.name) := by
    rw [← declarationsRead_names, List.filter_map]
    rfl
  rw [NumbersMessages, ProtoParser.parseProto, parseLines_names_iff]
  simp only [create, List.map_nil, List.nil_append]
  rw [hlines, readlines_universalNewlines, List.forall_mem_map]

/-- The messages are laid out if and only if each is read from its place. -/
theorem laidOut_iff :
    LaidOut requestSuffix ackSuffix f ↔ packetMessages requestSuffix ackSuffix f ⊆ packetLines requestSuffix ackSuffix f := by
  have hword : ∀ d ∈ packetMessages requestSuffix ackSuffix f,
      wordRead (lineAt d.source) = (split (lineAt d.source))[1]? := by
    intro d hd
    obtain ⟨rest, hrest⟩ := messagesDeclared_keyword (List.mem_filter.1 hd).1
    rw [wordRead, hrest, if_pos (startswith_lineAt rest)]
  constructor
  · intro h d hd
    obtain ⟨htail, hsecond⟩ := h d hd
    exact List.mem_filter.2 ⟨mem_declarationsRead.2 ⟨htail, by rw [hword d hd, hsecond]⟩, (List.mem_filter.1 hd).2⟩
  · intro h d hd
    obtain ⟨htail, hsecond⟩ := mem_declarationsRead.1 (List.mem_filter.1 (h hd)).1
    exact ⟨htail, by rw [← hword d hd, hsecond]⟩

/-- No line is stray if and only if all have their word and each with a suffix is read from the place of a message. -/
theorem noStrayLine_iff :
    NoStrayLine requestSuffix ackSuffix f ↔
      (∀ source ∈ lineTails f.text, Worded (lineAt source)) ∧
        packetLines requestSuffix ackSuffix f ⊆ packetMessages requestSuffix ackSuffix f := by
  constructor
  · intro h
    constructor
    · intro source hsource hline
      obtain ⟨word, hword, -⟩ := h source hsource hline
      rw [hword]
      exact Option.some_ne_none word
    · intro d hd
      obtain ⟨hread, hsuffix⟩ := List.mem_filter.1 hd
      obtain ⟨htail, hword⟩ := mem_declarationsRead.1 hread
      obtain ⟨hline, hsecond⟩ := Option.ite_none_right_eq_some.1 hword
      obtain ⟨word, hword', hmem⟩ := h d.source htail hline
      obtain rfl := Option.some.inj (hword'.symm.trans hsecond)
      exact List.mem_filter.2 ⟨hmem hsuffix, hsuffix⟩
  · rintro ⟨hworded, hsub⟩ source hsource hline
    obtain ⟨word, hword⟩ := Option.ne_none_iff_exists'.1 (hworded source hsource hline)
    refine ⟨word, hword, fun hsuffix => (List.mem_filter.1 (hsub (List.mem_filter.2 ⟨?_, hsuffix⟩))).1⟩
    exact mem_declarationsRead.2 ⟨hsource, by rw [wordRead, if_pos hline, hword]⟩

/-- Where the messages are laid out, the run is right if and only if no line is stray: as many lines are read as there are
messages. -/
theorem numbersMessages_iff_noStrayLine {startType : Int} (hlaid : LaidOut requestSuffix ackSuffix f) :
    NumbersMessages requestSuffix ackSuffix f startType ↔ NoStrayLine requestSuffix ackSuffix f := by
  rw [numbersMessages_iff, noStrayLine_iff]
  have hsub := laidOut_iff.1 hlaid
  constructor
  · rintro ⟨hworded, hnames⟩
    have hlen := congrArg List.length hnames
    rw [List.length_map, List.length_map] at hlen
    have heq := eq_of_subset_of_length packetMessages_pairwise packetLines_pairwise hsub hlen
    exact ⟨hworded, fun d hd => heq ▸ hd⟩
  · rintro ⟨hworded, hsub'⟩
    have heq := List.Subset.antisymm_of_pairwise packetMessages_pairwise packetLines_pairwise hsub hsub'
    exact ⟨hworded, congrArg (List.map (·.name)) heq⟩

/-- Where no line is stray, the run is right if and only if the messages are laid out. -/
theorem numbersMessages_iff_laidOut {startType : Int} (hstray : NoStrayLine requestSuffix ackSuffix f) :
    NumbersMessages requestSuffix ackSuffix f startType ↔ LaidOut requestSuffix ackSuffix f := by
  constructor
  · intro h
    have hlen := congrArg List.length (numbersMessages_iff.1 h).2
    rw [List.length_map, List.length_map] at hlen
    have heq := eq_of_subset_of_length packetLines_pairwise packetMessages_pairwise (noStrayLine_iff.1 hstray).2 hlen.symm
    exact laidOut_iff.2 fun d hd => heq ▸ hd
  · intro hlaid
    exact (numbersMessages_iff_noStrayLine hlaid).2 hstray

end

/-- For every start and every two suffixes, and every syntactically valid file: `parse_proto` succeeds with exactly the
top-level messages with a suffix, in order, if and only if the messages are laid out as it reads them and no line is stray, or
the stray lines stand in for the messages that are missed. -/
theorem parseProto_complete_iff (startType : Int) (requestSuffix ackSuffix : List Char) (f : ProtoFile) :
    NumbersMessages requestSuffix ackSuffix f startType ↔
      (LaidOut requestSuffix ackSuffix f ∧ NoStrayLine requestSuffix ackSuffix f) ∨ Compensated requestSuffix ackSuffix f := by
  constructor
  · intro h
    by_cases hlaid : LaidOut requestSuffix ackSuffix f
    · exact Or.inl ⟨hlaid, (numbersMessages_iff_noStrayLine hlaid).1 h⟩
    · obtain ⟨hworded, hnames⟩ := numbersMessages_iff.1 h
      exact Or.inr ⟨hlaid, fun hstray => hlaid ((numbersMessages_iff_laidOut hstray).1 h), hworded,
        pairsOff_occurrences_iff.2 hnames⟩
  · rintro (⟨hlaid, hstray⟩ | hcompensated)
    · exact (numbersMessages_iff_noStrayLine hlaid).2 hstray
    · exact numbersMessages_iff.2 ⟨hcompensated.worded, pairsOff_occurrences_iff.1 hcompensated.standIn⟩

/-! ## A message with its brace on its line -/

/-- A token after white space. -/
def lexeme (blanks : String) (type : TokenType) (text : String) : Lexeme :=
  { trivia := blanks.toList.map .whitespace, token := { type := type, text := text.toList } }

/-- `syntax = "proto3";` -/
def syntaxProto3 : List Lexeme :=
  [lexeme "" .identifier "syntax", lexeme " " .symbol "=", lexeme " " .string "\"proto3\"", lexeme "" .symbol ";"]

/-- A message without fields, with this white space before its keyword, its name and its braces. -/
def emptyMessage (name beforeKeyword beforeName beforeBrace beforeEnd : String) : List Lexeme :=
  [lexeme beforeKeyword .identifier "message", lexeme beforeName .identifier name, lexeme beforeBrace .symbol "\x7b",
    lexeme beforeEnd .symbol "\x7d"]

/-- The file `syntax = "proto3";` and, on the next line, the message `LoginReq` with its brace right after its name. -/
def loginProto : ProtoFile :=
  .ofRecognized syntaxProto3 [emptyMessage "LoginReq" "\n" " " "" ""] [] (by decide)

/-- It is not so for every file: `parse_proto` misses the message of `loginProto`. -/
theorem not_every_file_numbersMessages :
    ¬∀ (startType : Int) (requestSuffix ackSuffix : List Char) (f : ProtoFile),
      NumbersMessages requestSuffix ackSuffix f startType := by
  intro h
  obtain ⟨q, hq, hnames⟩ := h 1000 "Req".toList "Ack".toList loginProto
  have hnone : (create 1000 "Req".toList "Ack".toList).parseProto loginProto.text =
      .ok (create 1000 "Req".toList "Ack".toList) := by decide
  obtain rfl := Except.ok.inj (hq.symm.trans hnone)
  exact absurd hnames (by decide)

/-- The file `loginProto` with a comment behind the message, of which a line reads `message LoginReq`. -/
def commentedProto : ProtoFile :=
  .ofRecognized syntaxProto3 [emptyMessage "LoginReq" "\n" " " "" ""]
    [.whitespace '\n', .blockComment "\nmessage LoginReq\n".toList] (by decide)

/-- The line of the comment stands in for the message, which is missed. -/
example : Compensated "Req".toList "Ack".toList commentedProto where
  missed := by unfold LaidOut; decide
  stray := by unfold NoStrayLine; decide
  worded := by unfold Worded; decide
  standIn := pairsOff_occurrences_iff.2 (by decide)

/-! ## A message on a line of its own -/

/-- The message is written as in `Protocol.proto`: its keyword begins a line, white space within the line and the name follow,
and white space or the end of the text. -/
structure OwnLine (text : List Char) (d : Declaration) : Prop where
  begins : d.source ∈ lineTails text
  header : ∃ blanks rest, d.source = "message".toList ++ (blanks ++ (d.name ++ rest)) ∧ blanks ≠ [] ∧
    (∀ c ∈ blanks, isSpace c = true ∧ c ≠ '\n' ∧ c ≠ '\r') ∧ SpaceNext rest

/-- A declared message is declared by a statement. -/
theorem exists_of_mem_messagesDeclared {statements : List (List Lexeme)} {ending : List Char} {d : Declaration}
    (h : d ∈ messagesDeclared statements ending) : ∃ s ∈ statements, ∃ after, messageDeclared s after = some d := by
  induction statements with
  | nil => cases h
  | cons statement l ih =>
    rcases List.mem_append.1 h with h | h
    · exact ⟨statement, List.mem_cons_self, _, Option.mem_toList.1 h⟩
    · obtain ⟨s, hs, hd⟩ := ih h
      exact ⟨s, List.mem_cons_of_mem statement hs, hd⟩

/-- The name of a message is a word: the grammar has an identifier there. -/
theorem messages_name_word {f : ProtoFile} {d : Declaration} (h : d ∈ f.messages) :
    d.name ≠ [] ∧ ∀ c ∈ d.name, isSpace c = false := by
  obtain ⟨s, hs, after, hd⟩ := exists_of_mem_messagesDeclared h
  have hderives := f.statement_derives s hs
  unfold messageDeclared at hd
  split at hd
  · rename_i keyword name block
    obtain ⟨hkeyword, ⟨⟩⟩ := Option.ite_none_right_eq_some.1 hd
    obtain ⟨token, tokens, ⟨⟩, htype⟩ := topLevelStatement_message hderives hkeyword
    have hmem : name ∈ f.syntaxIdentifier ++ f.statements.flatten :=
      List.mem_append_right _ (List.mem_flatten.2 ⟨_, hs, List.mem_cons_of_mem _ List.mem_cons_self⟩)
    exact identifier_word htype (f.lexical name hmem)
  · cases hd

/-- Where each message with a suffix is on a line of its own, `parse_proto` succeeds with exactly these messages, in order, if
and only if no other line looks like one. -/
theorem numbersMessages_iff_of_ownLine {startType : Int} {requestSuffix ackSuffix : List Char} {f : ProtoFile}
    (h : ∀ d ∈ packetMessages requestSuffix ackSuffix f, OwnLine f.text d) :
    NumbersMessages requestSuffix ackSuffix f startType ↔ NoStrayLine requestSuffix ackSuffix f := by
  refine numbersMessages_iff_noStrayLine fun d hd => ⟨(h d hd).begins, ?_⟩
  obtain ⟨blanks, rest, hsource, hblanks, hspace, hrest⟩ := (h d hd).header
  obtain ⟨hne, hname⟩ := messages_name_word (List.mem_filter.1 hd).1
  rw [hsource]
  exact secondWord_lineAt hblanks hspace hne hname hrest

/-- Two messages with their braces on the next lines, as in `Protocol.proto`: both are numbered. -/
example :
    NumbersMessages "Req".toList "Ack".toList
      (.ofRecognized syntaxProto3
        [emptyMessage "LoginReq" "\n" " " "\n" "\n", emptyMessage "LoginAck" "\n\n" " " "\n" "\n"] [] (by decide)) 1000 :=
  ⟨_, rfl, by decide⟩

end ProjectYJ
