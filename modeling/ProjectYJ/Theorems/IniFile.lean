import ProjectYJ.IniFile

/-!
# Reading the configuration files

`INIReader` reads a file as its grammar says: `ParseError` is the number of the first line that has no form, which the readers of the
settings do not ask for, and `Get` has what all the other lines give, also those after an error (`iniReader_reads`).
-/

namespace ProjectYJ

open CString

/-! ## Searches -/

/-- The search finds the first place to stop at, after what was passed already. -/
theorem iniFindCharsOrComment_spec (chars : List Char) (text passed : List Char) :
    let found := iniFindCharsOrComment chars (passed.getLast?.any isspace) text
    text = found.1 ++ found.2 ∧ (∀ a c b, found.1 = a ++ c :: b → ¬StopsAt chars (passed ++ a) c) ∧
      ∀ c b, found.2 = c :: b → StopsAt chars (passed ++ found.1) c := by
  induction text generalizing passed with
  | nil => simp [iniFindCharsOrComment]
  | cons c text ih =>
    have hstop : (c ∈ chars ∨ (passed.getLast?.any isspace = true ∧ c ∈ iniInlineCommentPrefixes)) ↔ StopsAt chars passed c := by
      rw [StopsAt, Option.any_eq_true, and_comm]
      simp
    by_cases hc : StopsAt chars passed c
    · rw [iniFindCharsOrComment, if_pos (hstop.2 hc)]
      refine ⟨rfl, by simp, ?_⟩
      rintro d b ⟨⟩
      rwa [List.append_nil]
    · rw [iniFindCharsOrComment, if_neg (mt hstop.1 hc)]
      obtain ⟨hsplit, hpassed, hstops⟩ := ih (passed ++ [c])
      rw [List.getLast?_concat, Option.any_some] at hsplit hpassed hstops
      refine ⟨congrArg (c :: ·) hsplit, ?_, ?_⟩
      · intro a d b hab
        cases a with
        | nil =>
          obtain ⟨rfl, -⟩ := List.cons.inj hab
          rwa [List.append_nil]
        | cons e a =>
          obtain ⟨rfl, hrest⟩ : c = e ∧ (iniFindCharsOrComment chars (isspace c) text).1 = a ++ d :: b := List.cons.inj hab
          have hnot := hpassed a d b hrest
          rwa [List.append_assoc] at hnot
      · intro d b hd
        have hstop' := hstops d b hd
        rwa [List.append_assoc] at hstop'

theorem firstStop_find (chars text : List Char) :
    FirstStop chars text (iniFindCharsOrComment chars false text).1 (iniFindCharsOrComment chars false text).2 := by
  obtain ⟨hsplit, hpassed, hstops⟩ := iniFindCharsOrComment_spec chars text []
  exact ⟨hsplit, hpassed, hstops⟩

/-- There is one first place to stop at. -/
theorem FirstStop.before_le {chars text before rest before' rest' : List Char} (h : FirstStop chars text before rest)
    (h' : FirstStop chars text before' rest') : ¬∃ c b, before' = before ++ c :: b := by
  rintro ⟨c, b, rfl⟩
  refine h'.passed before c b rfl (h.stops c (b ++ rest') ?_)
  have hsplit := h.split.symm.trans h'.split
  rw [List.append_assoc] at hsplit
  exact List.append_cancel_left hsplit

theorem FirstStop.unique {chars text before rest before' rest' : List Char} (h : FirstStop chars text before rest)
    (h' : FirstStop chars text before' rest') : before = before' ∧ rest = rest' := by
  have hsplit := h.split.symm.trans h'.split
  rcases List.append_eq_append_iff.1 hsplit with ⟨l, hbefore, hrest⟩ | ⟨l, hbefore, hrest⟩
  · cases l with
    | nil => exact ⟨by simpa using hbefore.symm, by simpa using hrest⟩
    | cons c l => exact absurd ⟨c, l, hbefore⟩ (h.before_le h')
  · cases l with
    | nil => exact ⟨by simpa using hbefore, by simpa using hrest.symm⟩
    | cons c l => exact absurd ⟨c, l, hbefore⟩ (h'.before_le h)

/-- The search and the first place to stop at. -/
theorem FirstStop.find_eq {chars text before rest : List Char} (h : FirstStop chars text before rest) :
    iniFindCharsOrComment chars false text = (before, rest) := by
  obtain ⟨hbefore, hrest⟩ := (firstStop_find chars text).unique h
  exact Prod.ext hbefore hrest

/-! ## The forms of a line -/

section

variable {named : Bool} {line before text : List Char}

/-- What a line has between its whitespace is what `ini_lskip` and `ini_rstrip` leave of it. -/
theorem Between.strip_eq (h : Between line before text) : iniRstrip (iniLskip line) = text := by
  obtain ⟨after, rfl, hbefore, hafter, htrim⟩ := h
  cases text with
  | nil =>
    rw [iniLskip, List.nil_append, List.dropWhile_eq_nil_iff.2 ?_]
    · rfl
    · intro c hc
      exact (List.mem_append.1 hc).elim (hbefore c) (hafter c)
  | cons c text =>
    rw [iniLskip, dropWhile_append_trimmed (s := c :: text ++ after) hbefore fun d hd => htrim.head d hd]
    exact rdropWhile_trimmed_append hafter htrim.last

/-- Whether there is whitespace in front of the text. -/
theorem Between.skips {c : Char} (h : Between line before (c :: text)) : line.head?.any isspace = true ↔ before ≠ [] := by
  obtain ⟨after, rfl, hbefore, -, htrim⟩ := h
  cases before with
  | nil => simp [htrim.head c rfl]
  | cons d before => simp [hbefore d List.mem_cons_self]

theorem between_strip (line : List Char) : Between line (line.takeWhile isspace) (iniRstrip (iniLskip line)) := by
  obtain ⟨after, hline, hafter⟩ := exists_append_trim isspace line
  rw [List.append_assoc] at hline
  exact ⟨after, hline, fun c hc => List.mem_takeWhile_imp hc, hafter, trimmed_trim isspace line⟩

/-- What a line says, if it has a form: the `if`s of `ini_parse_stream`. -/
def lineItem (named : Bool) (line : List Char) : Option IniItem :=
  match iniRstrip (iniLskip line) with
  | [] => some .nothing
  | c :: rest =>
    if c ∈ iniStartCommentPrefixes then some .nothing
    else if named = true ∧ line.head?.any isspace = true then some (.more (iniRstrip (iniFindCharsOrComment [] false (c :: rest)).1))
    else if c = '[' then
      let found := iniFindCharsOrComment [']'] false rest
      if found.2.head? = some ']' then some (.header found.1) else none
    else
      let found := iniFindCharsOrComment ['=', ':'] false (c :: rest)
      if found.2.head? = some '=' ∨ found.2.head? = some ':' then
        some (.pair (iniRstrip found.1) (iniRstrip (iniLskip (iniFindCharsOrComment [] false found.2.tail).1)))
      else none

theorem lineItem_of_lineIs {x : IniItem} (h : LineIs named line x) : lineItem named line = some x := by
  cases h with
  | blank hline => rw [lineItem, hline.strip_eq]
  | comment hline hc =>
    rw [lineItem, hline.strip_eq]
    simp only [if_pos hc]
  | more hline hc hmore hvalue =>
    rw [← hline.skips] at hmore
    rw [lineItem, hline.strip_eq]
    simp only [if_neg hc, if_pos hmore, hvalue.find_eq]
  | header hline hmore hname =>
    rw [← hline.skips] at hmore
    rw [lineItem, hline.strip_eq]
    simp only [if_neg (show '[' ∉ iniStartCommentPrefixes by decide), if_neg hmore, if_pos, hname.find_eq, List.head?_cons]
  | pair hline hc hmore hbracket hname hsep hvalue =>
    rw [← hline.skips] at hmore
    rw [lineItem, hline.strip_eq]
    simp only [if_neg hc, if_neg hmore, if_neg hbracket, hname.find_eq, List.head?_cons, Option.some.injEq, if_pos hsep, List.tail_cons,
      hvalue.find_eq]

theorem lineIs_of_lineItem {x : IniItem} (h : lineItem named line = some x) : LineIs named line x := by
  have hline := between_strip line
  rw [lineItem] at h
  revert h hline
  cases iniRstrip (iniLskip line) with
  | nil =>
    rintro ⟨⟩ hline
    exact .blank hline
  | cons c rest =>
    intro h hline
    dsimp only at h
    split at h
    · rename_i hc
      cases h
      exact .comment hline hc
    · rename_i hc
      split at h
      · rename_i hmore
        rw [hline.skips] at hmore
        cases h
        exact .more hline hc hmore (firstStop_find [] (c :: rest))
      · rename_i hmore
        rw [hline.skips] at hmore
        split at h
        · rename_i hbracket
          subst hbracket
          obtain ⟨hhead, ⟨⟩⟩ := Option.ite_none_right_eq_some.1 h
          obtain ⟨after, hafter⟩ := List.head?_eq_some_iff.1 hhead
          have hname := firstStop_find [']'] rest
          rw [hafter] at hname
          exact .header hline hmore hname
        · rename_i hbracket
          obtain ⟨hhead, ⟨⟩⟩ := Option.ite_none_right_eq_some.1 h
          obtain ⟨sep, after, hafter, hsep⟩ : ∃ sep after, (iniFindCharsOrComment ['=', ':'] false (c :: rest)).2 = sep :: after ∧
              (sep = '=' ∨ sep = ':') := by
            rcases hhead with hhead | hhead
            · obtain ⟨after, hafter⟩ := List.head?_eq_some_iff.1 hhead
              exact ⟨'=', after, hafter, Or.inl rfl⟩
            · obtain ⟨after, hafter⟩ := List.head?_eq_some_iff.1 hhead
              exact ⟨':', after, hafter, Or.inr rfl⟩
          have hname := firstStop_find ['=', ':'] (c :: rest)
          rw [hafter] at hname ⊢
          exact .pair hline hc hmore hbracket hname hsep (firstStop_find [] after)

/-- The parser finds the form of a line that has one. -/
theorem lineItem_eq_some_iff {x : IniItem} : lineItem named line = some x ↔ LineIs named line x :=
  ⟨lineIs_of_lineItem, lineItem_of_lineIs⟩

theorem lineItem_eq_none_iff : lineItem named line = none ↔ ∀ x, ¬LineIs named line x := by
  rw [Option.eq_none_iff_forall_ne_some]
  exact forall_congr' fun x => not_congr lineItem_eq_some_iff

end

/-! ## The lines of a file -/

/-- Whether the value of a name may go on after a line, also one without a form. -/
def namedAfter (named : Bool) : Option IniItem → Bool
  | none => named
  | some x => x.named named

/-- What the lines say. -/
def readItems : Bool → List (List Char) → List (Option IniItem)
  | _, [] => []
  | named, line :: lines => lineItem named line :: readItems (namedAfter named (lineItem named line)) lines

theorem reads_readItems (named : Bool) (lines : List (List Char)) : Reads named lines (readItems named lines) := by
  induction lines generalizing named with
  | nil => exact .nil
  | cons line lines ih =>
    rw [readItems]
    cases hitem : lineItem named line with
    | none => exact .malformed (lineItem_eq_none_iff.1 hitem) (ih named)
    | some x => exact .item (lineIs_of_lineItem hitem) (ih (x.named named))

/-- There is one reading of some lines. -/
theorem reads_iff {named : Bool} {lines : List (List Char)} {xs : List (Option IniItem)} :
    Reads named lines xs ↔ xs = readItems named lines := by
  constructor
  · intro h
    induction h with
    | nil => rfl
    | item hx _ ih =>
      rw [readItems, lineItem_of_lineIs hx, ih]
      rfl
    | malformed hx _ ih =>
      rw [readItems, lineItem_eq_none_iff.2 hx, ih]
      rfl
  · rintro rfl
    exact reads_readItems named lines

/-- What `ini_parse_stream` does with what a line says. -/
def IniParse.accept (s : IniParse) : Option IniItem → IniParse
  | none => s.fail
  | some .nothing => s
  | some (.header name) => { s with sectionName := iniStrncpy0 name iniMaxName, prevName := [] }
  | some (.pair name value) => { s with prevName := iniStrncpy0 name iniMaxName }.handler name value
  | some (.more value) => s.handler s.prevName value

/-- What it does with the next line. -/
def IniParse.next (s : IniParse) (x : Option IniItem) : IniParse := { s with lineno := s.lineno + 1 }.accept x

/-- Whether the value of a name may go on. -/
def IniParse.named (s : IniParse) : Bool := decide (s.prevName ≠ [])

theorem IniParse.parseLine_of_mark {s : IniParse} {line : List Char} {mark : Bool}
    (hmark : (decide (s.lineno + 1 = 1) && byteOrderMark.isPrefixOf line) = mark) (hfirst : mark = true → s.prevName = []) :
    s.parseLine line = s.next (lineItem s.named (if mark then line.drop 3 else line)) := by
  have hmore : (s.prevName ≠ [] ∧ (mark || (if mark then line.drop 3 else line).head?.any isspace) = true) ↔
      (s.named = true ∧ (if mark then line.drop 3 else line).head?.any isspace = true) := by
    cases mark with
    | false => simp [IniParse.named]
    | true => simp [IniParse.named, hfirst rfl]
  unfold IniParse.parseLine lineItem
  simp only [hmark]
  cases iniRstrip (iniLskip (if mark then line.drop 3 else line)) with
  | nil => rfl
  | cons c rest =>
    dsimp only
    by_cases hc : c ∈ iniStartCommentPrefixes
    · rw [if_pos hc, if_pos hc]
      rfl
    · rw [if_neg hc, if_neg hc]
      by_cases hnamed : s.named = true ∧ (if mark then line.drop 3 else line).head?.any isspace = true
      · rw [if_pos (hmore.2 hnamed), if_pos hnamed]
        rfl
      · rw [if_neg (mt hmore.1 hnamed), if_neg hnamed]
        by_cases hbracket : c = '['
        · rw [if_pos hbracket, if_pos hbracket]
          obtain ⟨name, after⟩ := iniFindCharsOrComment [']'] false rest
          cases after with
          | nil => rfl
          | cons d after =>
            by_cases hd : d = ']'
            · subst hd
              rfl
            · simp [IniParse.next, IniParse.accept, hd]
        · rw [if_neg hbracket, if_neg hbracket]
          obtain ⟨name, after⟩ := iniFindCharsOrComment ['=', ':'] false (c :: rest)
          cases after with
          | nil => rfl
          | cons sep value => by_cases hsep : sep = '=' ∨ sep = ':' <;> simp [IniParse.next, IniParse.accept, hsep]

/-- A line after the first. -/
theorem IniParse.parseLine_eq {s : IniParse} (hlate : s.lineno ≠ 0) (line : List Char) :
    s.parseLine line = s.next (lineItem s.named line) := by
  have hmark : (decide (s.lineno + 1 = 1) && byteOrderMark.isPrefixOf line) = false := by simp [hlate]
  exact parseLine_of_mark hmark (by simp)

theorem IniParse.named_next (s : IniParse) (x : Option IniItem) : (s.next x).named = namedAfter s.named x := by
  cases x with
  | none => rfl
  | some x =>
    cases x with
    | nothing => rfl
    | header name => simp [next, accept, named, namedAfter, IniItem.named]
    | pair name value => simp [next, accept, named, namedAfter, IniItem.named, handler, iniStrncpy0, iniMaxName]
    | more value => rfl

theorem IniParse.lineno_next (s : IniParse) (x : Option IniItem) : (s.next x).lineno = s.lineno + 1 := by
  cases x with
  | none => rfl
  | some x => cases x <;> rfl

theorem foldl_parseLine {s : IniParse} (hlate : s.lineno ≠ 0) (lines : List (List Char)) :
    lines.foldl IniParse.parseLine s = (readItems s.named lines).foldl IniParse.next s := by
  induction lines generalizing s with
  | nil => rfl
  | cons line lines ih =>
    rw [List.foldl_cons, IniParse.parseLine_eq hlate, readItems, List.foldl_cons, ih, IniParse.named_next]
    rw [IniParse.lineno_next]
    exact Nat.succ_ne_zero _

/-- Before the first line. -/
def IniParse.start : IniParse := { sectionName := [], prevName := [], lineno := 0, error := 0, values := fun _ => none }

/-- The parser does with the lines of a text what they say. -/
theorem iniParseStream_eq (text : List Char) :
    iniParseStream text = (readItems false (iniLines text)).foldl IniParse.next IniParse.start := by
  rw [iniParseStream, iniLines]
  cases (fgetsLines [] text).map ofBytes with
  | nil => rfl
  | cons line lines =>
    show lines.foldl IniParse.parseLine (IniParse.start.parseLine line) = _
    rw [IniParse.parseLine_of_mark rfl fun _ => rfl, readItems, List.foldl_cons, foldl_parseLine, IniParse.named_next]
    · rfl
    · rw [IniParse.lineno_next]
      exact Nat.succ_ne_zero _

/-! ## The number of the first error -/

theorem IniParse.error_next (s : IniParse) (x : Option IniItem) :
    (s.next x).error = if x = none ∧ s.error = 0 then s.lineno + 1 else s.error := by
  cases x with
  | none => simp [next, accept, fail]
  | some x => cases x <;> simp [next, accept, handler]

theorem firstMalformed_cons (x : Option IniItem) (xs : List (Option IniItem)) :
    firstMalformed (x :: xs) = if x = none then 1 else if firstMalformed xs = 0 then 0 else firstMalformed xs + 1 := by
  rw [firstMalformed, firstMalformed, List.findIdx?_cons]
  cases x with
  | none => simp
  | some x => cases List.findIdx? Option.isNone xs <;> simp

/-- Only the first line without a form counts. -/
theorem foldl_error (s : IniParse) (xs : List (Option IniItem)) :
    (xs.foldl IniParse.next s).error =
      if s.error = 0 then if firstMalformed xs = 0 then 0 else s.lineno + firstMalformed xs else s.error := by
  induction xs generalizing s with
  | nil => simp [firstMalformed]
  | cons x xs ih =>
    rw [List.foldl_cons, ih, IniParse.error_next, IniParse.lineno_next, firstMalformed_cons]
    grind

/-! ## The values -/

theorem intercalate_concat {α : Type*} (sep l : List α) {ls : List (List α)} (h : ls ≠ []) :
    List.intercalate sep (ls ++ [l]) = List.intercalate sep ls ++ (sep ++ l) := by
  induction ls with
  | nil => exact absurd rfl h
  | cons l' ls ih =>
    cases ls with
    | nil => simp [List.intercalate_cons_cons]
    | cons l'' ls =>
      rw [List.cons_append, List.cons_append, List.intercalate_cons_cons, ← List.cons_append, ih (List.cons_ne_nil _ _),
        List.intercalate_cons_cons]
      simp only [List.append_assoc]

/-- One more value of a name, as `ValueHandler` adds it. -/
theorem joinValues_concat (values : List (List Char)) (value : List Char) :
    joinValues (values ++ [value]) =
      some ((if 0 < ((joinValues values).getD []).length then (joinValues values).getD [] ++ ['\n']
        else (joinValues values).getD []) ++ value) := by
  have hold : (joinValues values).getD [] = List.intercalate ['\n'] (values.dropWhile fun v => v = []) := by
    unfold joinValues
    split
    · rename_i hnil
      rw [hnil]
      rfl
    · rfl
  rw [hold, joinValues, if_neg (List.append_ne_nil_of_right_ne_nil values (List.cons_ne_nil value [])), List.dropWhile_append]
  cases hfirst : values.dropWhile fun v => v = [] with
  | nil => by_cases hvalue : value = [] <;> simp [hvalue, List.intercalate_nil]
  | cons v vs =>
    have hv : v ≠ [] := by
      have hhead := List.head?_dropWhile_not (fun v => decide (v = [])) values
      rw [hfirst] at hhead
      simpa using hhead
    have hpos : 0 < (List.intercalate ['\n'] (v :: vs)).length := by
      cases vs with
      | nil => simpa [List.length_pos_iff] using hv
      | cons w ws =>
        rw [List.intercalate_cons_cons]
        simp only [List.length_append, List.length_cons]
        omega
    rw [if_pos hpos, if_neg (by simp), intercalate_concat _ _ (List.cons_ne_nil v vs), List.append_assoc]

/-- The values of a key among some entries. -/
def valuesOfKey (key : List Char) (entries : List (List Char × List Char × List Char)) : List (List Char) :=
  (entries.filter fun e => makeKey e.1 e.2.1 = key).map fun e => e.2.2

theorem valueHandler_eq {values : List Char → Option (List Char)} {key : List Char} {given : List (List Char)}
    (h : values key = joinValues given) (sectionName name value : List Char) :
    valueHandler values sectionName name value key = joinValues (given ++ valuesOfKey key [(sectionName, name, value)]) := by
  by_cases hkey : makeKey sectionName name = key
  · subst hkey
    rw [valueHandler, Function.update_self, h, valuesOfKey]
    simp [joinValues_concat]
  · rw [valueHandler, Function.update_of_ne (Ne.symm hkey), h, valuesOfKey]
    simp [hkey]

theorem valuesOfKey_cons (key : List Char) (e : List Char × List Char × List Char) (entries : List (List Char × List Char × List Char)) :
    valuesOfKey key (e :: entries) = valuesOfKey key [e] ++ valuesOfKey key entries := by
  rw [valuesOfKey, valuesOfKey, valuesOfKey, ← List.map_append, ← List.filter_append, List.singleton_append]

/-- A key has the values of its entries. -/
theorem foldl_values {s : IniParse} {key : List Char} {given : List (List Char)} (h : s.values key = joinValues given)
    (xs : List (Option IniItem)) :
    (xs.foldl IniParse.next s).values key = joinValues (given ++ valuesOfKey key (iniEntries s.sectionName s.prevName xs)) := by
  induction xs generalizing s given with
  | nil => simpa [iniEntries, valuesOfKey] using h
  | cons x xs ih =>
    rw [List.foldl_cons]
    cases x with
    | none => exact ih h
    | some x =>
      cases x with
      | nothing => exact ih h
      | header name => exact ih h
      | pair name value =>
        rw [ih (valueHandler_eq h s.sectionName name value), iniEntries,
          valuesOfKey_cons key (s.sectionName, name, value) (iniEntries _ _ xs), ← List.append_assoc]
        rfl
      | more value =>
        rw [ih (valueHandler_eq h s.sectionName s.prevName value), iniEntries,
          valuesOfKey_cons key (s.sectionName, s.prevName, value) (iniEntries _ _ xs), ← List.append_assoc]
        rfl

/-! ## Keys -/

theorem toLower_eq_iff (c : Char) : c.toLower = '=' ↔ c = '=' := by
  unfold Char.toLower
  split
  · rename_i hc
    refine iff_of_false (fun h => ?_) fun h => ?_
    · have hval : c.val + ('a'.val - 'A'.val) = '='.val := congrArg Char.val h
      have hnat := congrArg UInt32.toNat hval
      have hlow : 65 ≤ c.val.toNat := hc.1
      have hhigh : c.val.toNat ≤ 90 := hc.2
      have hsum : (c.val + ('a'.val - 'A'.val)).toNat = c.val.toNat + 32 := by
        rw [UInt32.toNat_add]
        exact Nat.mod_eq_of_lt (by have : ('a'.val - 'A'.val).toNat = 32 := rfl; omega)
      have heq : '='.val.toNat = 61 := rfl
      omega
    · subst h
      exact absurd hc.1 (by decide)
  · exact Iff.rfl

/-- A name has no sign of equality in lower case, if it has none. -/
theorem equals_notMem_map {name : List Char} (h : '=' ∉ name) : '=' ∉ name.map Char.toLower := by
  rw [List.mem_map]
  rintro ⟨c, hc, hlower⟩
  exact h ((toLower_eq_iff c).1 hlower ▸ hc)

/-- A text splits in one way at its last sign of equality. -/
theorem append_equals_inj {a b a' b' : List Char} (hb : '=' ∉ b) (hb' : '=' ∉ b') :
    a ++ '=' :: b = a' ++ '=' :: b' ↔ a = a' ∧ b = b' := by
  refine ⟨fun h => ?_, fun ⟨ha, hb⟩ => by rw [ha, hb]⟩
  rcases List.append_eq_append_iff.1 h with ⟨l, rfl, hrest⟩ | ⟨l, rfl, hrest⟩
  · cases l with
    | nil => exact ⟨by simp, (List.cons.inj hrest).2⟩
    | cons c l =>
      obtain ⟨-, rfl⟩ := List.cons.inj hrest
      exact absurd (by simp) hb
  · cases l with
    | nil => exact ⟨by simp, (List.cons.inj hrest).2.symm⟩
    | cons c l =>
      obtain ⟨-, rfl⟩ := List.cons.inj hrest
      exact absurd (by simp) hb'

/-- The key of a name in a section is that of no other. -/
theorem makeKey_eq_iff {sectionName name sectionName' name' : List Char} (h : '=' ∉ name) (h' : '=' ∉ name') :
    makeKey sectionName name = makeKey sectionName' name' ↔
      sectionName.map Char.toLower = sectionName'.map Char.toLower ∧ name.map Char.toLower = name'.map Char.toLower := by
  rw [makeKey, makeKey, List.map_append, List.map_append, List.map_cons, List.map_cons, show ('=').toLower = '=' from rfl]
  exact append_equals_inj (equals_notMem_map h) (equals_notMem_map h')

theorem LineIs.equals_notMem {named : Bool} {line name value : List Char} (h : LineIs named line (.pair name value)) : '=' ∉ name := by
  cases h with
  | pair hline hc hmore hbracket hname hsep hvalue =>
    intro hmem
    obtain ⟨a, b, hab⟩ := List.append_of_mem ((List.rdropWhile_prefix isspace _).subset (show '=' ∈ List.rdropWhile isspace _ from hmem))
    exact hname.passed a '=' b hab (Or.inl List.mem_cons_self)

/-- No name of an entry has a sign of equality. -/
theorem Reads.equals_notMem {named : Bool} {lines : List (List Char)} {xs : List (Option IniItem)} (h : Reads named lines xs)
    {sectionName prevName : List Char} (hprev : '=' ∉ prevName) : ∀ e ∈ iniEntries sectionName prevName xs, '=' ∉ e.2.1 := by
  induction h generalizing sectionName prevName with
  | nil => simp [iniEntries]
  | malformed _ _ ih => exact ih hprev
  | item hline hreads ih =>
    rename_i x xs
    cases x with
    | nothing => exact ih hprev
    | header name => exact ih List.not_mem_nil
    | pair name value =>
      rw [iniEntries, List.forall_mem_cons]
      exact ⟨hline.equals_notMem, ih fun hmem => hline.equals_notMem (List.mem_of_mem_take hmem)⟩
    | more value =>
      rw [iniEntries, List.forall_mem_cons]
      exact ⟨hprev, ih hprev⟩

/-- The values of a key are those of its name in its section. -/
theorem valuesOfKey_eq {entries : List (List Char × List Char × List Char)} (h : ∀ e ∈ entries, '=' ∉ e.2.1) (sectionName : List Char)
    {name : List Char} (hname : '=' ∉ name) :
    valuesOfKey (makeKey sectionName name) entries = valuesOf sectionName name entries := by
  rw [valuesOfKey, valuesOf]
  refine congrArg _ (List.filter_congr fun e he => ?_)
  rw [decide_eq_decide]
  exact makeKey_eq_iff (h e he) hname

/-- `ParseError` and `Get`, from a reading of the lines. -/
theorem Reads.reader {text : List Char} {items : List (Option IniItem)} (h : Reads false (iniLines text) items) :
    (IniReader.new (some text)).parseError = firstMalformed items ∧
      ∀ sectionName name default : List Char, '=' ∉ name →
        (IniReader.new (some text)).get sectionName name default =
          (joinValues (valuesOf sectionName name (iniEntries [] [] items))).getD default := by
  have hitems := reads_iff.1 h
  refine ⟨?_, fun sectionName name default hname => ?_⟩
  · show ((iniParseStream text).error : Int) = _
    rw [iniParseStream_eq, ← hitems, foldl_error]
    simp only [IniParse.start, if_true, Nat.zero_add]
    split <;> simp_all
  · show ((iniParseStream text).values (makeKey sectionName name)).getD default = _
    have hentries : ∀ e ∈ iniEntries [] [] items, '=' ∉ e.2.1 := h.equals_notMem List.not_mem_nil
    rw [iniParseStream_eq, ← hitems, foldl_values (show IniParse.start.values _ = joinValues [] from rfl), List.nil_append]
    exact congrArg (fun values => (joinValues values).getD default) (valuesOfKey_eq hentries sectionName hname)

/-- For every text of a file: there is one reading of its lines, `ParseError` is the number of the first that has no form, and `Get` has,
for each name that may be in a file, the values that the others give to it. -/
theorem iniReader_reads (text : List Char) :
    ∃ items, (∀ xs, Reads false (iniLines text) xs ↔ xs = items) ∧
      (IniReader.new (some text)).parseError = firstMalformed items ∧
      ∀ sectionName name default : List Char, '=' ∉ name →
        (IniReader.new (some text)).get sectionName name default =
          (joinValues (valuesOf sectionName name (iniEntries [] [] items))).getD default :=
  ⟨readItems false (iniLines text), fun _ => reads_iff, (reads_readItems false (iniLines text)).reader⟩

end ProjectYJ
