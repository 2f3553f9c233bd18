import ProjectYJ.Lib.Unicode

/-!
# Converting a room's name

`StringToUTF8` of `ChatRoom.cpp`. A name is a `string` of a message, which the generated parser refuses unless it is UTF-8, so it
is a `String` here. `MultiByteToWideChar` reads its bytes in the code page `CP_ACP` of the server's system, which may be any.
-/

namespace ProjectYJ

/-- A code page: the units it makes of bytes other than 0. -/
structure CodePage where
  wide : List UInt8 → List UInt16

namespace CodePage

variable (cp : CodePage)

/-- `MultiByteToWideChar` with the length -1: up to the first byte that is 0. -/
def multiByteToWideChar (bytes : List UInt8) : List UInt16 := cp.wide (bytes.takeWhile (· ≠ 0))

/-- The text of the units up to the first that is 0, which `WideCharToMultiByte` with `CP_UTF8` and the length -1 writes as
UTF-8. -/
def wideCharToMultiByte (units : List UInt16) : List Char := utf16Chars (units.takeWhile (· ≠ 0))

/-- `StringToUTF8`. -/
def stringToUTF8 (wstr : String) : String :=
  let wideStr := cp.multiByteToWideChar (utf8Bytes wstr.toList)
  let utf8Str := wideCharToMultiByte wideStr
  String.ofList utf8Str

/-- The text that the code page reads in some bytes. -/
def text (bytes : List UInt8) : List Char := wideCharToMultiByte (cp.wide bytes)

variable {cp}

/-- A name comes out as it went in when the character 0 is not in it and the code page reads its bytes as that name. -/
theorem stringToUTF8_eq_self_iff {name : String} :
    cp.stringToUTF8 name = name ↔ '\x00' ∉ name.toList ∧ cp.text (utf8Bytes name.toList) = name.toList := by
  have hself : ∀ cs, String.ofList cs = name ↔ cs = name.toList := by
    intro cs
    rw [← String.toList_inj, String.toList_ofList]
  have hwhole : '\x00' ∉ name.toList → cp.stringToUTF8 name = String.ofList (cp.text (utf8Bytes name.toList)) := by
    intro h
    rw [stringToUTF8, multiByteToWideChar, takeWhile_of_notMem (mt zero_mem_utf8Bytes.1 h), text]
  constructor
  · intro h
    have hzero : '\x00' ∉ name.toList := by
      rw [← (hself _).1 h]
      exact zero_notMem_utf16Chars (notMem_takeWhile 0 _)
    rw [hwhole hzero, hself] at h
    exact ⟨hzero, h⟩
  · rintro ⟨hzero, h⟩
    rw [hwhole hzero, hself, h]

/-- A code page in which each byte is one unit, below `0x80` the same number. -/
structure OneByte (cp : CodePage) (unit : UInt8 → UInt16) : Prop where
  wide : ∀ bytes, cp.wide bytes = bytes.map unit
  ascii : ∀ b : UInt8, b.toNat < 0x80 → unit b = b.toUInt16
  nul : ∀ b, b ≠ 0 → unit b ≠ 0

/-- A code page that is UTF-8. -/
def IsUtf8 (cp : CodePage) : Prop := ∀ cs, '\x00' ∉ cs → cp.wide (utf8Bytes cs) = cs.flatMap utf16Units

/-- What code page 1252, of Western European systems, has for the bytes `0x80` to `0x9F`. Five of them, for which it has no
character, stay what they are. -/
def units1252 : List UInt16 :=
  [0x20AC, 0x0081, 0x201A, 0x0192, 0x201E, 0x2026, 0x2020, 0x2021, 0x02C6, 0x2030, 0x0160, 0x2039, 0x0152, 0x008D, 0x017D, 0x008F,
    0x0090, 0x2018, 0x2019, 0x201C, 0x201D, 0x2022, 0x2013, 0x2014, 0x02DC, 0x2122, 0x0161, 0x203A, 0x0153, 0x009D, 0x017E, 0x0178]

/-- Code page 1252. -/
def cp1252 : CodePage where
  wide bytes := bytes.map (fun b => if 0x80 ≤ b ∧ b < 0xA0 then units1252.getD (b.toNat - 0x80) 0xFFFD else b.toUInt16)

/-- Code page 65001, for bytes that are UTF-8, as those of a name are. -/
def cp65001 : CodePage where
  wide bytes :=
    match String.fromUTF8? bytes.toByteArray with
    | some s => s.toList.flatMap utf16Units
    | none => []

theorem cp1252_oneByte : ∃ unit, cp1252.OneByte unit := by
  refine ⟨_, fun _ => rfl, fun b hb => if_neg fun h => ?_, fun b hb => ?_⟩
  · have := UInt8.le_iff_toNat_le.1 h.1
    simp only [UInt8.toNat_ofNat] at this
    omega
  · split
    · have hunits : 0 ∉ units1252 := by decide
      rw [List.getD_eq_getElem?_getD]
      cases hu : units1252[b.toNat - 0x80]? with
      | none => exact (by decide : (0xFFFD : UInt16) ≠ 0)
      | some u => exact fun h0 => hunits (h0 ▸ List.mem_of_getElem? hu)
    · intro h0
      exact hb (UInt8.toNat_inj.1 (by simpa using congrArg UInt16.toNat h0))

theorem cp65001_isUtf8 : cp65001.IsUtf8 := by
  intro cs _
  have h : (utf8Bytes cs).toByteArray = (String.ofList cs).toByteArray := rfl
  have hs : String.fromUTF8? (utf8Bytes cs).toByteArray = some (String.ofList cs) := by
    rw [h, String.fromUTF8?, dif_pos (String.ofList cs).isValidUTF8]
    rfl
  simp only [cp65001, hs, String.toList_ofList]

/-- Where each byte is one unit, the names that come out as they went in are those below `0x80` without the character 0. -/
theorem OneByte.stringToUTF8_eq_self_iff {unit : UInt8 → UInt16} (h : cp.OneByte unit) {name : String} :
    cp.stringToUTF8 name = name ↔ ∀ c ∈ name.toList, c ≠ '\x00' ∧ c.toNat < 0x80 := by
  have htext : '\x00' ∉ name.toList → cp.text (utf8Bytes name.toList) = utf16Chars ((utf8Bytes name.toList).map unit) := by
    intro hzero
    rw [text, wideCharToMultiByte, h.wide, takeWhile_of_notMem]
    intro hmem
    obtain ⟨b, hb, hunit⟩ := List.mem_map.1 hmem
    exact h.nul b (fun h0 => hzero (zero_mem_utf8Bytes.1 (h0 ▸ hb))) hunit
  rw [CodePage.stringToUTF8_eq_self_iff]
  constructor
  · rintro ⟨hzero, heq⟩ c hc
    rw [htext hzero] at heq
    have hlength := length_utf16Chars ((utf8Bytes name.toList).map unit)
    rw [heq, List.length_map] at hlength
    exact ⟨fun h0 => hzero (h0 ▸ hc), ascii_of_length hlength c hc⟩
  · intro hname
    have hzero : '\x00' ∉ name.toList := fun hmem => (hname _ hmem).1 rfl
    refine ⟨hzero, ?_⟩
    rw [htext hzero, map_utf8Bytes_ascii h.ascii (fun c hc => (hname c hc).2), utf16Chars_flatMap]

/-- Where the code page is UTF-8, they are all the names without the character 0. -/
theorem IsUtf8.stringToUTF8_eq_self_iff (h : cp.IsUtf8) {name : String} : cp.stringToUTF8 name = name ↔ '\x00' ∉ name.toList := by
  rw [CodePage.stringToUTF8_eq_self_iff, and_iff_left_iff_imp]
  intro hzero
  have hunits : 0 ∉ name.toList.flatMap utf16Units := by
    intro hmem
    obtain ⟨c, hc, h0⟩ := List.mem_flatMap.1 hmem
    exact hzero (zero_mem_utf16Units h0 ▸ hc)
  rw [text, wideCharToMultiByte, h _ hzero, takeWhile_of_notMem hunits, utf16Chars_flatMap]

end CodePage

end ProjectYJ
