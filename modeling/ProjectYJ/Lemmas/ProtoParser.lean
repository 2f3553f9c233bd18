import ProjectYJ.ProtoParser

/-!
# What the loop of `parse_proto` reads

The lines of a text as the places where they begin (`readlines_universalNewlines`), the word a line declares to the parser
(`wordRead`), and what the loop makes of a list of lines: it ends if and only if each line that begins with `message` has a
second word, and `total_packet` then has these words, as far as they end in one of the suffixes (`parseLines_names_iff`).
-/

namespace ProjectYJ

namespace Python

/-! ## Lines -/

/-- A line ends with this character, with this text after it. -/
def endsLine (c : Char) (l : List Char) : Bool := c == '\n' || (c == '\r' && l.head? != some '\n')

/-- The line that a text begins with, as it is read. -/
def lineAt : List Char → List Char
  | [] => []
  | c :: l => if endsLine c l then ['\n'] else if c = '\r' then lineAt l else c :: lineAt l

/-- The text from each place on where a line begins. -/
def lineTails : List Char → List (List Char)
  | [] => []
  | c :: l => (c :: l) :: if endsLine c l then lineTails l else (lineTails l).tail

/-- Newline translation, character by character. -/
theorem universalNewlines_cons (c : Char) (l : List Char) :
    universalNewlines (c :: l) =
      if endsLine c l then '\n' :: universalNewlines l
      else if c = '\r' then universalNewlines l else c :: universalNewlines l := by
  by_cases hr : c = '\r'
  · subst hr
    cases l with
    | nil => rfl
    | cons d l =>
      by_cases hn : d = '\n'
      · subst hn
        rfl
      · have hends : endsLine '\r' (d :: l) = true := by simp [endsLine, hn]
        rw [if_pos hends, universalNewlines]
        simp [hn]
  · rw [universalNewlines]
    · by_cases hn : c = '\n'
      · subst hn
        rfl
      · have hends : endsLine c l = false := by simp [endsLine, hr, hn]
        rw [hends, if_neg Bool.false_ne_true, if_neg hr]
    · rintro l' rfl
      exact fun _ => hr rfl
    · exact hr

/-- Within a line: the rest of the text begins the same line. -/
theorem lineTails_of_not_endsLine {c : Char} {l : List Char} (h : endsLine c l = false) :
    lineTails (c :: l) = (c :: l) :: (lineTails l).tail := by
  rw [lineTails, h, if_neg Bool.false_ne_true]

/-- The lines of a text are the lines at the places where one begins. -/
theorem readlines_universalNewlines (text : List Char) : readlines (universalNewlines text) = (lineTails text).map lineAt := by
  induction text with
  | nil => rfl
  | cons c l ih =>
    cases hends : endsLine c l with
    | true => rw [universalNewlines_cons, lineTails, List.map_cons, lineAt, if_pos hends, if_pos hends, if_pos hends, readlines,
        if_pos rfl, ih]
    | false =>
      rw [universalNewlines_cons, lineTails_of_not_endsLine hends, List.map_cons, lineAt, hends,
        if_neg Bool.false_ne_true, if_neg Bool.false_ne_true]
      by_cases hr : c = '\r'
      · -- the line feed that follows ends the line
        rw [if_pos hr, if_pos hr, ih]
        cases l with
        | nil => simp [endsLine, hr] at hends
        | cons d l => rfl
      · have hn : c ≠ '\n' := by
          rintro rfl
          simp [endsLine] at hends
        rw [if_neg hr, if_neg hr, readlines, if_neg hn, ih]
        cases l with
        | nil => rfl
        | cons d l => rfl

/-- Where a line begins, the text goes on to its end. -/
theorem suffix_of_mem_lineTails {source text : List Char} (h : source ∈ lineTails text) : source <:+ text := by
  induction text with
  | nil => cases h
  | cons c l ih =>
    rw [lineTails, List.mem_cons] at h
    rcases h with rfl | h
    · exact List.suffix_refl _
    · refine (ih ?_).trans (List.suffix_cons c l)
      split at h
      · exact h
      · exact List.mem_of_mem_tail h

/-- A line that begins later has less of the text before it. -/
theorem lineTails_pairwise (text : List Char) : (lineTails text).Pairwise fun a b => b.length < a.length := by
  induction text with
  | nil => exact List.Pairwise.nil
  | cons c l ih =>
    have hrest : (if endsLine c l then lineTails l else (lineTails l).tail).Sublist (lineTails l) := by
      split
      · exact List.Sublist.refl _
      · exact List.tail_sublist _
    refine List.pairwise_cons.2 ⟨fun source hsource => ?_, ih.sublist hrest⟩
    exact Nat.lt_succ_of_le (suffix_of_mem_lineTails (hrest.subset hsource)).length_le

/-- Where the text goes on with `message`, so does the line. -/
theorem lineAt_message (rest : List Char) : lineAt ("message".toList ++ rest) = "message".toList ++ lineAt rest := rfl

theorem startswith_lineAt (rest : List Char) : startswith (lineAt ("message".toList ++ rest)) "message".toList = true := rfl

/-- Up to where a line ends, it is the text. -/
theorem lineAt_append {u : List Char} (hu : ∀ c ∈ u, c ≠ '\n' ∧ c ≠ '\r') (v : List Char) :
    lineAt (u ++ v) = u ++ lineAt v := by
  induction u with
  | nil => rfl
  | cons c u ih =>
    obtain ⟨⟨hn, hr⟩, hrest⟩ := List.forall_mem_cons.1 hu
    have hends : endsLine c (u ++ v) = false := by simp [endsLine, hn, hr]
    rw [List.cons_append, lineAt, hends, if_neg Bool.false_ne_true, if_neg hr, ih hrest, List.cons_append]

/-- A text goes on with white space, or is at its end. -/
def SpaceNext (l : List Char) : Prop := ∀ c ∈ l.head?, isSpace c = true

/-- What ends a line is white space. -/
theorem SpaceNext.lineAt {l : List Char} (h : SpaceNext l) : SpaceNext (lineAt l) := by
  cases l with
  | nil => exact h
  | cons c l =>
    rw [Python.lineAt]
    cases hends : endsLine c l with
    | true => exact fun d hd => Option.some.inj hd ▸ rfl
    | false =>
      by_cases hr : c = '\r'
      · -- the line feed that follows ends the line
        rw [if_neg Bool.false_ne_true, if_pos hr]
        cases l with
        | nil => simp [endsLine, hr] at hends
        | cons d l =>
          have hd : d = '\n' := by simpa [endsLine, hr] using hends
          subst hd
          exact fun d hd => Option.some.inj hd ▸ rfl
      · rw [if_neg Bool.false_ne_true, if_neg hr]
        exact fun d hd => h d hd

/-! ## Words -/

/-- Words split at white space. -/
theorem split_append_space {c : Char} (hc : isSpace c = true) (u v : List Char) : split (u ++ c :: v) = split u ++ split v := by
  rw [split, List.splitOnP_append_cons u v hc, List.filter_append]
  rfl

/-- White space before the words. -/
theorem split_spaces_append {u : List Char} (hu : ∀ c ∈ u, isSpace c = true) (v : List Char) : split (u ++ v) = split v := by
  induction u with
  | nil => rfl
  | cons c u ih =>
    obtain ⟨hc, hrest⟩ := List.forall_mem_cons.1 hu
    rw [List.cons_append, ← List.nil_append (c :: (u ++ v)), split_append_space hc, ih hrest]
    rfl

/-- One word, where white space or the end follows. -/
theorem split_word_append {w v : List Char} (hne : w ≠ []) (hw : ∀ c ∈ w, isSpace c = false) (hv : SpaceNext v) :
    ∃ words, split (w ++ v) = w :: words := by
  have hword : split w = [w] := by
    rw [split, List.splitOnP_eq_singleton hw]
    simp [hne]
  cases v with
  | nil => exact ⟨[], by rw [List.append_nil, hword]⟩
  | cons c v => exact ⟨split v, by rw [split_append_space (hv c rfl), hword, List.singleton_append]⟩

/-- The second word of a line: `message`, white space within the line, and the word. -/
theorem secondWord_lineAt {blanks word rest : List Char} (hblanks : blanks ≠ [])
    (hspace : ∀ c ∈ blanks, isSpace c = true ∧ c ≠ '\n' ∧ c ≠ '\r') (hne : word ≠ [])
    (hword : ∀ c ∈ word, isSpace c = false) (hrest : SpaceNext rest) :
    (split (lineAt ("message".toList ++ (blanks ++ (word ++ rest)))))[1]? = some word := by
  have hline : lineAt (word ++ rest) = word ++ lineAt rest := by
    refine lineAt_append (fun c hc => ?_) rest
    constructor
    · rintro rfl
      cases hword _ hc
    · rintro rfl
      cases hword _ hc
  obtain ⟨words, hwords⟩ := split_word_append hne hword hrest.lineAt
  rw [lineAt_message, lineAt_append (fun c hc => (hspace c hc).2), hline]
  cases blanks with
  | nil => exact absurd rfl hblanks
  | cons b blanks =>
    have hall : ∀ c ∈ blanks, isSpace c = true := fun c hc => (hspace c (List.mem_cons_of_mem b hc)).1
    rw [List.cons_append, split_append_space (hspace b List.mem_cons_self).1, split_spaces_append hall, hwords]
    rfl

end Python

namespace ProtoParser

open Python

/-! ## The loop -/

/-- The name ends in one of the two suffixes. -/
def hasSuffix (requestSuffix ackSuffix name : List Char) : Bool := endswith name requestSuffix || endswith name ackSuffix

/-- The word a line declares to the parser, if it begins with `message`. -/
def wordRead (line : List Char) : Option (List Char) :=
  if startswith line "message".toList then (split line)[1]? else none

/-- A line that begins with `message` has a second word. -/
def Worded (line : List Char) : Prop := startswith line "message".toList = true → (split line)[1]? ≠ none

/-- What a line with a second word does. -/
theorem parseLine_word (p : ProtoParser) {line name : List Char} (hline : startswith line "message".toList = true)
    (hword : (split line)[1]? = some name) :
    p.parseLine line =
      if endswith name p.requestSuffix then
        .ok (count { p with requestPacket := p.requestPacket ++ [⟨name, p.type⟩] } name)
      else if endswith name p.ackSuffix then .ok (count { p with ackPacket := p.ackPacket ++ [⟨name, p.type⟩] } name)
      else .ok p := by
  rw [parseLine, hline, hword, Bool.not_true, if_neg Bool.false_ne_true]

/-- A line with its second word adds it to `total_packet`, if it ends in a suffix. -/
theorem parseLine_worded (p : ProtoParser) {line : List Char} (h : Worded line) :
    ∃ p', p.parseLine line = .ok p' ∧ p'.totalPacket.map (·.name) =
      p.totalPacket.map (·.name) ++ (wordRead line).toList.filter (hasSuffix p.requestSuffix p.ackSuffix) := by
  by_cases hline : startswith line "message".toList = true
  · cases hword : (split line)[1]? with
    | none => exact absurd hword (h hline)
    | some name =>
      rw [parseLine_word p hline hword, wordRead, if_pos hline, hword]
      by_cases hr : endswith name p.requestSuffix = true
      · exact ⟨_, if_pos hr, by simp [hr, hasSuffix, count]⟩
      · by_cases ha : endswith name p.ackSuffix = true
        · exact ⟨_, by rw [if_neg hr, if_pos ha], by simp [ha, hasSuffix, count]⟩
        · exact ⟨p, by rw [if_neg hr, if_neg ha], by simp [hr, ha, hasSuffix]⟩
  · rw [Bool.not_eq_true] at hline
    refine ⟨p, by rw [parseLine, hline, Bool.not_false, if_pos rfl], ?_⟩
    rw [wordRead, hline, if_neg Bool.false_ne_true, Option.toList_none, List.filter_nil, List.append_nil]

/-- A line without its second word ends the run. -/
theorem parseLine_not_worded (p : ProtoParser) {line : List Char} (h : ¬Worded line) :
    p.parseLine line = .error .indexError := by
  obtain ⟨hline, hword⟩ := Classical.not_imp.1 h
  rw [parseLine, hline, not_not.1 hword, Bool.not_true, if_neg Bool.false_ne_true]

/-- The loop ends if and only if each line that begins with `message` has a second word, and `total_packet` then has these
words, as far as they end in a suffix. -/
theorem parseLines_names_iff {p : ProtoParser} {lines : List (List Char)} {names : List (List Char)} :
    (∃ q, p.parseLines lines = .ok q ∧ q.totalPacket.map (·.name) = names) ↔
      (∀ line ∈ lines, Worded line) ∧
        names = p.totalPacket.map (·.name) ++ (lines.filterMap wordRead).filter (hasSuffix p.requestSuffix p.ackSuffix) := by
  induction lines generalizing p with
  | nil => simp [parseLines, eq_comm]
  | cons line lines ih =>
    by_cases hw : Worded line
    · obtain ⟨p', hp', hnames⟩ := parseLine_worded p hw
      obtain ⟨hr, ha⟩ := parseLine_suffixes hp'
      have hstep : p.parseLines (line :: lines) = p'.parseLines lines := by rw [parseLines, hp']
      rw [hstep, ih, hr, ha, hnames, List.append_assoc, ← List.filter_append, List.forall_mem_cons]
      cases hword : wordRead line <;> simp [hword, hw]
    · have hstep : p.parseLines (line :: lines) = .error .indexError := by rw [parseLines, parseLine_not_worded p hw]
      constructor
      · rintro ⟨q, hq, -⟩
        rw [hstep] at hq
        cases hq
      · rintro ⟨h, -⟩
        exact absurd (h line List.mem_cons_self) hw

end ProtoParser

end ProjectYJ
