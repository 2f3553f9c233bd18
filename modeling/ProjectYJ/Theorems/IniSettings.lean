import ProjectYJ.Theorems.IniFile

/-!
# Writing and reading settings

A configuration that is written one name to a line is read back without an error: `Get` has what it gives to a name, and the default
where it gives nothing, so that `main` of the server and `WinMain` of the client read the settings that their file gives
(`written_config_is_read`). What they do with them is another matter: `AsioAcceptor::Start` binds port 7777 whatever was read.
-/

namespace ProjectYJ

open CString

/-! ## The lines of a text -/

/-- `fgets` goes to the end of a line that fits. -/
theorem fgetsLines_line {line : List Char} (hline : '\n' ∉ line) (front rest : List Char)
    (hfits : front.length + line.length + 1 < iniMaxLine) :
    fgetsLines front (line ++ '\n' :: rest) = (front ++ (line ++ ['\n'])) :: fgetsLines [] rest := by
  induction line generalizing front with
  | nil => simp [fgetsLines]
  | cons c line ih =>
    have hc : ¬(c = '\n' ∨ front.length + 1 = iniMaxLine - 1) := by
      rintro (rfl | hlength)
      · exact hline List.mem_cons_self
      · simp only [List.length_cons] at hfits
        omega
    rw [List.cons_append, fgetsLines, if_neg hc, ih (fun hmem => hline (List.mem_cons_of_mem c hmem))]
    · simp
    · simp only [List.length_append, List.length_cons, List.length_nil] at hfits ⊢
      omega

/-- `fgets` reads a text line by line when all of them fit. -/
theorem fgetsLines_lines {lines : List (List Char)} (h : ∀ line ∈ lines, '\n' ∉ line ∧ line.length + 1 < iniMaxLine) :
    fgetsLines [] (lines.flatMap fun line => line ++ ['\n']) = lines.map fun line => line ++ ['\n'] := by
  induction lines with
  | nil => rfl
  | cons line lines ih =>
    obtain ⟨hline, hfits⟩ := h line List.mem_cons_self
    rw [List.flatMap_cons, List.append_assoc, List.singleton_append, fgetsLines_line hline [] _ (by simpa using hfits),
      ih fun l hl => h l (List.mem_cons_of_mem line hl)]
    rfl

theorem ofBytes_eq_self {s : List Char} (h : Char.ofNat 0 ∉ s) : ofBytes s = s := by
  rw [ofBytes, List.takeWhile_eq_self_iff]
  intro c hc
  rw [decide_eq_true_iff]
  rintro rfl
  exact h hc

/-! ## The lines of a configuration -/

/-- A text with nothing around it but the end of its line. -/
theorem between_line {text : List Char} (h : Trimmed isspace text) : Between (text ++ ['\n']) [] text :=
  ⟨['\n'], rfl, by simp, by simp [show isspace '\n' = true by decide], h⟩

theorem trimmed_append {c : Char} {a b : List Char} (hc : isspace c = false) (ha : ∀ d ∈ a.head?, isspace d = false)
    (hb : ∀ d ∈ b.getLast?, isspace d = false) : Trimmed isspace (a ++ c :: b) where
  head d hd := by
    cases a with
    | nil => exact Option.some.inj hd ▸ hc
    | cons e a => exact ha d hd
  last d hd := by
    cases hlast : b.getLast? with
    | none =>
      rw [List.getLast?_eq_none_iff.1 hlast, List.getLast?_concat] at hd
      exact Option.some.inj hd ▸ hc
    | some e =>
      rw [List.getLast?_append, List.getLast?_cons, hlast] at hd
      exact hb d (hlast.trans (by simpa using hd))

/-- A search stops at the next character that it is for. -/
theorem FirstStop.stop {chars name : List Char} {c : Char} (h : FirstStop chars name name []) (hc : c ∈ chars) (rest : List Char) :
    FirstStop chars (name ++ c :: rest) name (c :: rest) where
  split := rfl
  passed := h.passed
  stops _ _ hd := (List.cons.inj hd).1 ▸ Or.inl hc

theorem lineIs_header {name : List Char} (h : WritableSection name) (named : Bool) :
    LineIs named (('[' :: name ++ [']']) ++ ['\n']) (.header name) :=
  .header (between_line (trimmed_append (a := '[' :: name) (b := []) (by decide) (by simp; decide) (by simp))) (by simp)
    (h.onOneLine.passed.stop List.mem_cons_self [])

theorem lineIs_pair {e : List Char × List Char} (h : WritableEntry e) (named : Bool) :
    LineIs named ((e.1 ++ '=' :: e.2) ++ ['\n']) (.pair e.1 e.2) := by
  have hname : iniRstrip e.1 = e.1 := by
    have hstrip : (e.1 ++ []).rdropWhile isspace = e.1 := rdropWhile_trimmed_append (by simp) h.nameTrimmed.last
    rwa [List.append_nil] at hstrip
  have hvalue : iniRstrip (iniLskip e.2) = e.2 := by
    have hbetween : Between e.2 [] e.2 := ⟨[], by simp, by simp, by simp, h.valueTrimmed⟩
    exact hbetween.strip_eq
  have htrim : Trimmed isspace (e.1 ++ '=' :: e.2) := trimmed_append (by decide) h.nameTrimmed.head h.valueTrimmed.last
  -- the line begins with the name, or with the sign of equality
  obtain ⟨c, rest, hline, hstart, hbracket⟩ :
      ∃ c rest, e.1 ++ '=' :: e.2 = c :: rest ∧ c ∉ iniStartCommentPrefixes ∧ c ≠ '[' := by
    cases hfirst : e.1 with
    | nil => exact ⟨'=', e.2, rfl, by decide, by decide⟩
    | cons c name => exact ⟨c, name ++ '=' :: e.2, rfl, h.first c (by rw [hfirst]; rfl)⟩
  have hstop := h.name.passed.stop (c := '=') (by simp) e.2
  rw [hline] at htrim hstop
  have hpair : LineIs named (c :: rest ++ ['\n']) (.pair (iniRstrip e.1) (iniRstrip (iniLskip e.2))) :=
    .pair (between_line htrim) hstart (by simp) hbracket hstop (Or.inl rfl) h.value.passed
  rwa [hname, hvalue, ← hline] at hpair

/-- What the lines of a section say. -/
def sectionItems (s : List Char × List (List Char × List Char)) : List (Option IniItem) :=
  some (.header s.1) :: s.2.map fun e => some (.pair e.1 e.2)

section

variable {cfg : IniConfig}

theorem reads_section {s : List Char × List (List Char × List Char)} (hs : WritableSection s.1) (hes : ∀ e ∈ s.2, WritableEntry e)
    {lines : List (List Char)} {xs : List (Option IniItem)} (hrest : ∀ named, Reads named lines xs) (named : Bool) :
    Reads named ((IniConfig.sectionLines s).map (fun line => line ++ ['\n']) ++ lines) (sectionItems s ++ xs) := by
  obtain ⟨name, es⟩ := s
  refine .item (lineIs_header hs named) ?_
  generalize (IniItem.header name).named named = named
  induction es generalizing named with
  | nil => exact hrest named
  | cons e es ih =>
    exact .item (lineIs_pair (hes e List.mem_cons_self) named) (ih hs (fun x hx => hes x (List.mem_cons_of_mem e hx)) _)

/-- The lines of a configuration are read as what they were written for. -/
theorem reads_config (h : cfg.Writable) (named : Bool) :
    Reads named ((cfg.flatMap IniConfig.sectionLines).map fun line => line ++ ['\n']) (cfg.flatMap sectionItems) := by
  induction cfg generalizing named with
  | nil => exact .nil
  | cons s cfg ih =>
    obtain ⟨hs, hes⟩ := h s List.mem_cons_self
    rw [List.flatMap_cons, List.flatMap_cons, List.map_append]
    exact reads_section hs hes (fun named => ih (fun x hx => h x (List.mem_cons_of_mem s hx)) named) named

theorem mem_lines {line : List Char} (h : cfg.Writable) (hline : line ∈ cfg.flatMap IniConfig.sectionLines) :
    '\n' ∉ line ∧ Char.ofNat 0 ∉ line ∧ line.length + 1 < iniMaxLine := by
  obtain ⟨s, hs, hmem⟩ := List.mem_flatMap.1 hline
  obtain ⟨hsection, hentries⟩ := h s hs
  rcases List.mem_cons.1 hmem with rfl | hmem
  · have hlength := hsection.length
    have hn := hsection.onOneLine.line
    have h0 := hsection.onOneLine.bytes
    refine ⟨?_, ?_, ?_⟩
    · simp [hn]
    · simp [h0]
    · simp only [iniMaxName, iniMaxLine, List.length_append, List.length_cons, List.length_nil] at hlength ⊢
      omega
  · obtain ⟨e, he, rfl⟩ := List.mem_map.1 hmem
    have hentry := hentries e he
    have hlength := hentry.length
    refine ⟨?_, ?_, ?_⟩
    · simp [hentry.name.line, hentry.value.line]
    · simp [hentry.name.bytes, hentry.value.bytes]
    · simp only [iniMaxLine, List.length_append, List.length_cons] at hlength ⊢
      omega

/-- The lines that are read are those that were written. -/
theorem iniLines_text (h : cfg.Writable) :
    iniLines cfg.text = (cfg.flatMap IniConfig.sectionLines).map fun line => line ++ ['\n'] := by
  have hbytes : ((cfg.flatMap IniConfig.sectionLines).map fun line => line ++ ['\n']).map ofBytes =
      (cfg.flatMap IniConfig.sectionLines).map fun line => line ++ ['\n'] := by
    rw [List.map_map]
    refine List.map_congr_left fun line hline => ofBytes_eq_self ?_
    simp [(mem_lines h hline).2.1]
  rw [iniLines, IniConfig.text, fgetsLines_lines fun line hline => ⟨(mem_lines h hline).1, (mem_lines h hline).2.2⟩, hbytes]
  cases cfg with
  | nil => rfl
  | cons s cfg => rfl

theorem iniEntries_pairs (sectionName prevName : List Char) (es : List (List Char × List Char)) (xs : List (Option IniItem)) :
    ∃ prevName', iniEntries sectionName prevName (es.map (fun e => some (.pair e.1 e.2)) ++ xs) =
      es.map (fun e => (sectionName, e.1, e.2)) ++ iniEntries sectionName prevName' xs := by
  induction es generalizing prevName with
  | nil => exact ⟨prevName, rfl⟩
  | cons e es ih =>
    obtain ⟨prevName', hrest⟩ := ih (e.1.take (iniMaxName - 1))
    refine ⟨prevName', ?_⟩
    rw [List.map_cons, List.cons_append, iniEntries, hrest]
    rfl

/-- The entries of the lines are those of the configuration. -/
theorem iniEntries_config (h : cfg.Writable) (sectionName prevName : List Char) :
    iniEntries sectionName prevName (cfg.flatMap sectionItems) = cfg.flatMap fun s => s.2.map fun e => (s.1, e.1, e.2) := by
  induction cfg generalizing sectionName prevName with
  | nil => rfl
  | cons s cfg ih =>
    obtain ⟨hs, -⟩ := h s List.mem_cons_self
    have hname : s.1.take (iniMaxName - 1) = s.1 := List.take_of_length_le (Nat.le_sub_one_of_lt hs.length)
    obtain ⟨prevName', hrest⟩ := iniEntries_pairs s.1 [] s.2 (cfg.flatMap sectionItems)
    rw [List.flatMap_cons, List.flatMap_cons, sectionItems, List.cons_append, iniEntries, hname, hrest,
      ih fun x hx => h x (List.mem_cons_of_mem s hx)]

theorem firstMalformed_config (cfg : IniConfig) : firstMalformed (cfg.flatMap sectionItems) = 0 := by
  have hnone : (cfg.flatMap sectionItems).findIdx? Option.isNone = none := by
    rw [List.findIdx?_eq_none_iff]
    intro x hx
    obtain ⟨s, -, hmem⟩ := List.mem_flatMap.1 hx
    rcases List.mem_cons.1 hmem with rfl | hmem
    · rfl
    · obtain ⟨e, -, rfl⟩ := List.mem_map.1 hmem
      rfl
  rw [firstMalformed, hnone]

theorem reader_config (h : cfg.Writable) :
    (IniReader.new (some cfg.text)).parseError = 0 ∧ ∀ sectionName name default : List Char, '=' ∉ name →
      (IniReader.new (some cfg.text)).get sectionName name default = (joinValues (cfg.given sectionName name)).getD default := by
  have hreads := reads_config h false
  rw [← iniLines_text h] at hreads
  obtain ⟨herror, hget⟩ := hreads.reader
  rw [firstMalformed_config] at herror
  refine ⟨herror, fun sectionName name default hname => ?_⟩
  rw [hget sectionName name default hname, iniEntries_config h]
  rfl

/-! ## The settings -/

theorem get_setting (h : cfg.Writable) {sectionName name default value : List Char} (hname : '=' ∉ name)
    (hvalue : IsSetting (cfg.given sectionName name) default value) :
    (IniReader.new (some cfg.text)).get sectionName name default = value := by
  rw [(reader_config h).2 sectionName name default hname]
  rcases hvalue with hgiven | ⟨hgiven, rfl⟩
  · rw [hgiven]
    by_cases hvalue : value = [] <;> simp [joinValues, hvalue, List.intercalate_nil]
  · rw [hgiven]
    rfl

theorem getInteger_setting (h : cfg.Writable) {sectionName name : List Char} {default n : Int} (hname : '=' ∉ name)
    (hvalue : IsNumber (cfg.given sectionName name) default n) :
    (IniReader.new (some cfg.text)).getInteger sectionName name default = n := by
  rw [IniReader.getInteger]
  rcases hvalue with ⟨hgiven, hlow, hhigh⟩ | ⟨hgiven, rfl⟩
  · rw [get_setting h hname (Or.inl hgiven), strtol_decimal hlow hhigh]
    rfl
  · rw [get_setting h hname (Or.inr ⟨hgiven, rfl⟩)]
    rfl

end

/-- For every configuration that can be written one name to a line: reading it meets no error; `Get` has the values it gives to a name, and
the default where it gives none; and the settings that the server and the client read are those that it gives, and the defaults for
the rest. -/
theorem written_config_is_read {cfg : IniConfig} (h : cfg.Writable) :
    (IniReader.new (some cfg.text)).parseError = 0 ∧
      (∀ sectionName name default : List Char, '=' ∉ name →
        (IniReader.new (some cfg.text)).get sectionName name default = (joinValues (cfg.given sectionName name)).getD default) ∧
      (∀ s : ServerSettings, s.GivenBy cfg → serverSettings (IniReader.new (some cfg.text)) = s) ∧
      ∀ s : ClientSettings, s.GivenBy cfg → clientSettings (IniReader.new (some cfg.text)) = s := by
  refine ⟨(reader_config h).1, (reader_config h).2, fun s hs => ?_, fun s hs => ?_⟩
  · rw [serverSettings, get_setting h (by decide) hs.serverPort, get_setting h (by decide) hs.serverIP,
      getInteger_setting h (by decide) hs.threadCnt, getInteger_setting h (by decide) hs.packetPoolSize,
      getInteger_setting h (by decide) hs.sessionPoolSize, getInteger_setting h (by decide) hs.isConsoleLog]
  · rw [clientSettings, get_setting h (by decide) hs.serverPort, get_setting h (by decide) hs.serverIP,
      getInteger_setting h (by decide) hs.threadCnt, getInteger_setting h (by decide) hs.maxSessionCnt,
      getInteger_setting h (by decide) hs.packetPoolSize, getInteger_setting h (by decide) hs.isStressTest]

/-- A file for the server with another port and more threads. -/
def otherPort : IniConfig := [("Server".toList, [("port".toList, "9000".toList), ("ThreadCnt".toList, decimal 16)])]

theorem onOneLine_of_find {chars text : List Char} (hline : '\n' ∉ text) (hbytes : Char.ofNat 0 ∉ text)
    (hfind : iniFindCharsOrComment chars false text = (text, [])) : OnOneLine chars text where
  line := hline
  bytes := hbytes
  passed := by
    have hstop := firstStop_find chars text
    rwa [hfind] at hstop

theorem trimmed_of_all {s : List Char} (hhead : s.head?.all (fun c => !isspace c) = true)
    (hlast : s.getLast?.all (fun c => !isspace c) = true) : Trimmed isspace s where
  head c hc := by simpa [Option.mem_def.1 hc] using hhead
  last c hc := by simpa [Option.mem_def.1 hc] using hlast

theorem otherPort_writable : otherPort.Writable := by
  have hentry : ∀ e ∈ [("port".toList, "9000".toList), ("ThreadCnt".toList, decimal 16)], WritableEntry e := by
    intro e he
    rcases List.mem_pair.1 he with rfl | rfl
    · refine ⟨onOneLine_of_find (by decide) (by decide) (by decide), onOneLine_of_find (by decide) (by decide) (by decide),
        trimmed_of_all (by decide) (by decide), trimmed_of_all (by decide) (by decide), fun c hc => ?_, by decide⟩
      obtain rfl : 'p' = c := Option.some.inj hc
      decide
    · refine ⟨onOneLine_of_find (by decide) (by decide) (by decide), onOneLine_of_find (by decide) (by decide) (by decide),
        trimmed_of_all (by decide) (by decide), trimmed_of_all (by decide) (by decide), fun c hc => ?_, by decide⟩
      obtain rfl : 'T' = c := Option.some.inj hc
      decide
  intro s hs
  obtain rfl := List.mem_singleton.1 hs
  exact ⟨⟨onOneLine_of_find (by decide) (by decide) (by decide), by decide⟩, hentry⟩

theorem written_config_is_read_otherPort :
    (IniReader.new (some otherPort.text)).parseError = 0 ∧
      serverSettings (IniReader.new (some otherPort.text)) =
        { serverPort := "9000".toList, serverIP := "127.0.0.1".toList, threadCnt := 16, packetPoolSize := 10000,
          sessionPoolSize := 10000, isConsoleLog := 1 } := by
  obtain ⟨herror, -, hserver, -⟩ := written_config_is_read otherPort_writable
  refine ⟨herror, hserver _ ⟨Or.inl (by decide), Or.inr ⟨by decide, rfl⟩, Or.inl ⟨by decide, by decide, by decide⟩,
    Or.inr ⟨by decide, rfl⟩, Or.inr ⟨by decide, rfl⟩, Or.inr ⟨by decide, rfl⟩⟩⟩

end ProjectYJ
