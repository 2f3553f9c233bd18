import ProjectYJ.Lemmas.Chat
import ProjectYJ.RoomName

/-!
# What a room is called

A room keeps its name as `StringToUTF8` leaves it, and that is the name in the answers to those who enter it and in the lists of
rooms; the answer to its creator has the name as it came in the request. They are the same name exactly when the conversion does
nothing to it, which depends on the code page of the server's system.
-/

namespace ProjectYJ

open ChatState

/-- The IDs of rooms and their names as an answer has them. -/
def ChatAnswer.roomNames : ChatAnswer → List (Nat × String)
  | .EnterChatRoomAck roomID roomName => [(roomID, roomName)]
  | .ChatRoomListAck _ chatroomInfo => chatroomInfo.map (fun info => (info.roomID, info.roomName))
  | .LoginAck _ _ | .ChatAck _ _ | .DummyPacketAck _ => []

/-- What the messages sent say of the rooms that have these IDs now. -/
def namesTold (s : ChatState) (sends : List (Nat × ChatAnswer)) : List (Nat × String) :=
  (sends.flatMap (fun m => m.2.roomNames)).filterMap (fun e => (s.getRoom e.1).map (fun room => (room, e.2)))

theorem mem_namesTold {s : ChatState} {sends : List (Nat × ChatAnswer)} {room : Nat} {name : String} :
    (room, name) ∈ namesTold s sends ↔ ∃ m ∈ sends, ∃ roomID, (roomID, name) ∈ m.2.roomNames ∧ s.getRoom roomID = some room := by
  simp only [namesTold, List.mem_filterMap, List.mem_flatMap, Option.map_eq_some_iff, Prod.mk.injEq]
  constructor
  · rintro ⟨⟨roomID, _⟩, ⟨m, hm, he⟩, _, hroom, rfl, rfl⟩
    exact ⟨m, hm, roomID, he, hroom⟩
  · rintro ⟨m, hm, roomID, he, hroom⟩
    exact ⟨(roomID, name), ⟨m, hm, he⟩, room, hroom, rfl, rfl⟩

/-- A run, with the `roomName` each room was created with and the names its clients were told, each with its room. -/
structure NameRun where
  run : ChatRun
  given : Nat → Option String
  told : List (Nat × String)

namespace NameRun

/-- The names rooms were created with after a request. -/
def givenAfter (r : NameRun) : ChatRequest → Nat → Option String
  | .CreateChatRoomReq roomName => Function.update r.given r.run.chat.roomsMade (some roomName)
  | _ => r.given

/-- The server as its clients drive it, and the names. -/
def system (stringToUTF8 : String → String) (uid : Nat → Int) : Lts NameRun (Nat × ChatRequest) where
  init := { run := (chatSystem stringToUTF8 uid).init, given := fun _ => none, told := [] }
  step r l :=
    match r.run.chat.handle stringToUTF8 l.1 l.2 with
    | .error _ => none
    | .ok out => some
        { run := { chat := out.state, lastRoom := r.run.lastRoomAfter l.1 l.2 }
          given := r.givenAfter l.2
          told := r.told ++ namesTold out.state out.sends }

/-- The room has one name: nobody was told another than somebody else. -/
def OneName (r : NameRun) (room : Nat) : Prop := ∀ a b, (room, a) ∈ r.told → (room, b) ∈ r.told → a = b

end NameRun

section

variable {stringToUTF8 : String → String} {s : ChatState} {session : Nat}

theorem createRoom_roomName (name : String) (maxUser x : Nat) :
    ((s.createRoom stringToUTF8 name maxUser).chatRoom x).roomName =
      if x = s.roomsMade then stringToUTF8 name else (s.chatRoom x).roomName := by
  by_cases hx : x = s.roomsMade
  · subst hx
    simp [createRoom]
  · simp [createRoom, hx]

/-- A room that is made is called what the conversion leaves of the name it is created with, and the others are called what they
were. -/
theorem handle_roomName {request : ChatRequest} {out : Handled} (h : s.handle stringToUTF8 session request = .ok out) :
    (∃ n, request = .CreateChatRoomReq n ∧ out.state.roomsMade = s.roomsMade + 1 ∧
      ∀ x, (out.state.chatRoom x).roomName = if x = s.roomsMade then stringToUTF8 n else (s.chatRoom x).roomName) ∨
    ((∀ n, request ≠ .CreateChatRoomReq n) ∧ out.state.roomsMade = s.roomsMade ∧
      ∀ x, (out.state.chatRoom x).roomName = (s.chatRoom x).roomName) := by
  cases request with
  | EnterChatRoomReq roomID =>
    obtain ⟨player, room, -, -, hstate, -⟩ := handleEnterChatRoomReq_ok h
    rw [hstate]
    exact Or.inr ⟨nofun, rfl, enter_roomName room player⟩
  | CreateChatRoomReq n =>
    obtain ⟨player, -, hstate, -⟩ := handleCreateChatRoomReq_ok h
    rw [hstate]
    refine Or.inl ⟨n, rfl, rfl, fun x => ?_⟩
    exact (enter_roomName s.roomsMade player x).trans (createRoom_roomName n 10 x)
  | ChatReq sessionUID message roomID =>
    obtain ⟨_, _, -, -, hstate, -⟩ := handleChatReq_ok h
    rw [hstate]
    exact Or.inr ⟨nofun, rfl, fun _ => rfl⟩
  | LoginReq | ChatRoomListReq | RefreshChatRoomReq | DummyPacketReq =>
    cases h
    exact Or.inr ⟨nofun, rfl, fun _ => rfl⟩

/-- The name an answer has for a room is what the room is called, or, in the answer to its creator, the name in the request. -/
theorem handle_namesTold (hs : RoomsInv s) {request : ChatRequest} {out : Handled}
    (h : s.handle stringToUTF8 session request = .ok out) {room : Nat} {name : String}
    (hname : (room, name) ∈ namesTold out.state out.sends) : room < out.state.roomsMade ∧
      ((out.state.chatRoom room).roomName = name ∨ (request = .CreateChatRoomReq name ∧ room = s.roomsMade)) := by
  have ht := hs.handle h
  obtain ⟨m, hm, roomID, hmem, hroom⟩ := mem_namesTold.1 hname
  refine ⟨ht.below roomID room hroom, ?_⟩
  cases request with
  | EnterChatRoomReq k =>
    obtain ⟨player, -, h⟩ := except_of_bind h
    obtain ⟨selectRoom, hselect, h⟩ := except_of_bind h
    cases h
    rw [List.mem_singleton.1 hm] at hmem
    obtain ⟨rfl, rfl⟩ := Prod.mk.inj (List.mem_singleton.1 hmem)
    -- the room has the ID it was looked up under, so the ID in the answer is that of no other room
    have hfound := derefRoom_eq_ok.1 hselect
    rw [ht.roomID _ selectRoom hfound] at hroom
    obtain rfl := Option.some.inj (hfound.symm.trans hroom)
    exact Or.inl rfl
  | CreateChatRoomReq n =>
    obtain ⟨player, -, h⟩ := except_of_bind h
    cases h
    rw [List.mem_singleton.1 hm] at hmem
    obtain ⟨rfl, rfl⟩ := Prod.mk.inj (List.mem_singleton.1 hmem)
    rw [createRoom_roomID] at hroom
    have hnew := (@createRoom_getRoom stringToUTF8 s name 10 s.nextRoomNumber).symm.trans hroom
    rw [if_pos rfl] at hnew
    exact Or.inr ⟨rfl, (Option.some.inj hnew).symm⟩
  | ChatRoomListReq =>
    cases h
    rw [List.mem_singleton.1 hm] at hmem
    obtain ⟨info, hinfo, heq⟩ := List.mem_map.1 hmem
    obtain ⟨⟨k, x⟩, hk, rfl⟩ := List.mem_map.1 hinfo
    obtain ⟨rfl, rfl⟩ := Prod.mk.inj heq
    have hfound : s.getRoom k = some x := Std.TreeMap.mem_toList_iff_getElem?_eq_some.1 hk
    have hid : (s.chatRoom x).getRoomInfo.roomID = k := hs.roomID k x hfound
    rw [hid] at hroom
    obtain rfl := Option.some.inj (hfound.symm.trans hroom)
    exact Or.inl rfl
  | ChatReq =>
    obtain ⟨player, selectRoom, -, -, -, hsends⟩ := handleChatReq_ok h
    rw [hsends] at hm
    obtain ⟨p, -, rfl⟩ := List.mem_map.1 hm
    cases hmem
  | LoginReq | DummyPacketReq =>
    cases h
    rw [List.mem_singleton.1 hm] at hmem
    cases hmem
  | RefreshChatRoomReq =>
    cases h
    cases hm

end

namespace NameRun

variable {r : NameRun}

theorem givenAfter_of_ne {x : Nat} (hx : x ≠ r.run.chat.roomsMade) (request : ChatRequest) :
    r.givenAfter request x = r.given x := by
  cases request with
  | CreateChatRoomReq n => exact Function.update_of_ne hx ..
  | _ => rfl

theorem givenAfter_of_not_create {request : ChatRequest} (h : ∀ n, request ≠ .CreateChatRoomReq n) :
    r.givenAfter request = r.given := by
  cases request with
  | CreateChatRoomReq n => exact absurd rfl (h n)
  | _ => rfl

end NameRun

/-- What holds of the names in every state requests lead to: a room that was made was given a name and is called what the
conversion leaves of it, and what anybody was told is the one or the other. -/
structure NamesInv (stringToUTF8 : String → String) (r : NameRun) : Prop where
  rooms : RoomsInv r.run.chat
  given : ∀ x n, r.given x = some n → x < r.run.chat.roomsMade
  called : ∀ x < r.run.chat.roomsMade, ∃ n, r.given x = some n ∧ (r.run.chat.chatRoom x).roomName = stringToUTF8 n
  told : ∀ x a, (x, a) ∈ r.told → ∃ n, r.given x = some n ∧ (a = n ∨ a = stringToUTF8 n)

section

variable {stringToUTF8 : String → String} {uid : Nat → Int}

/-- The step, but for what is told. -/
theorem NamesInv.called_step {r : NameRun} (hr : NamesInv stringToUTF8 r) {session : Nat} {request : ChatRequest} {out : Handled}
    (h : r.run.chat.handle stringToUTF8 session request = .ok out) :
    (∀ x n, r.givenAfter request x = some n → x < out.state.roomsMade) ∧
      ∀ x < out.state.roomsMade, ∃ n, r.givenAfter request x = some n ∧ (out.state.chatRoom x).roomName = stringToUTF8 n := by
  rcases handle_roomName h with ⟨n, rfl, hmade, hcalled⟩ | ⟨hreq, hmade, hcalled⟩
  · refine ⟨fun x m hx => ?_, fun x hx => ?_⟩
    · rw [hmade]
      by_cases hnew : x = r.run.chat.roomsMade
      · exact Nat.lt_succ_of_le (Nat.le_of_eq hnew)
      · rw [NameRun.givenAfter_of_ne hnew] at hx
        exact Nat.lt_succ_of_lt (hr.given x m hx)
    · rw [hmade] at hx
      rw [hcalled]
      rcases Nat.lt_succ_iff_lt_or_eq.1 hx with hlt | rfl
      · rw [NameRun.givenAfter_of_ne (Nat.ne_of_lt hlt), if_neg (Nat.ne_of_lt hlt)]
        exact hr.called x hlt
      · exact ⟨n, Function.update_self .., if_pos rfl⟩
  · rw [NameRun.givenAfter_of_not_create hreq, hmade]
    refine ⟨hr.given, fun x hx => ?_⟩
    rw [hcalled]
    exact hr.called x hx

theorem NamesInv.step {r t : NameRun} (hr : NamesInv stringToUTF8 r) {l : Nat × ChatRequest}
    (h : (NameRun.system stringToUTF8 uid).step r l = some t) : NamesInv stringToUTF8 t := by
  simp only [NameRun.system] at h
  split at h
  · cases h
  rename_i out hout
  obtain rfl := Option.some.inj h
  obtain ⟨hgiven, hcalled⟩ := hr.called_step hout
  refine ⟨hr.rooms.handle hout, hgiven, hcalled, fun x a ha => ?_⟩
  rcases List.mem_append.1 ha with hbefore | hnow
  · obtain ⟨n, hn, han⟩ := hr.told x a hbefore
    exact ⟨n, (NameRun.givenAfter_of_ne (Nat.ne_of_lt (hr.given x n hn)) l.2).trans hn, han⟩
  · obtain ⟨hlt, hname | ⟨hreq, rfl⟩⟩ := handle_namesTold hr.rooms hout hnow
    · obtain ⟨n, hn, hroom⟩ := hcalled x hlt
      exact ⟨n, hn, Or.inr (hname.symm.trans hroom)⟩
    · refine ⟨a, ?_, Or.inl rfl⟩
      simp only [hreq, NameRun.givenAfter, Function.update_self]

theorem NamesInv.run {ls : List (Nat × ChatRequest)} {r : NameRun}
    (h : (NameRun.system stringToUTF8 uid).run (NameRun.system stringToUTF8 uid).init ls = some r) : NamesInv stringToUTF8 r := by
  refine (NameRun.system stringToUTF8 uid).run_invariant (fun _ _ _ hs hstep => NamesInv.step hs hstep) ?_ h
  have hrooms : RoomsInv (NameRun.system stringToUTF8 uid).init.run.chat :=
    @RoomsInv.run stringToUTF8 uid [] _ rfl
  exact ⟨hrooms, nofun, fun x hx => absurd hx (Nat.not_lt_zero x), nofun⟩

/-- The session logs in, creates a room of this name and enters it. -/
def createAndReenter (name : String) : List (Nat × ChatRequest) :=
  [(0, .LoginReq "a" ""), (0, .CreateChatRoomReq name), (0, .EnterChatRoomReq 1)]

/-- What it is told then: the name in its request, and the name the conversion leaves. -/
theorem run_createAndReenter (name : String) : ∃ r,
    (NameRun.system stringToUTF8 uid).run (NameRun.system stringToUTF8 uid).init (createAndReenter name) = some r ∧
      r.given 0 = some name ∧ r.told = [(0, name), (0, stringToUTF8 name)] := by
  exact ⟨_, rfl, rfl, rfl⟩

/-- The rooms created with a name have one name in every run exactly when the conversion leaves it as it is. -/
theorem one_name_iff_stringToUTF8 {name : String} :
    (∀ ls r, (NameRun.system stringToUTF8 uid).run (NameRun.system stringToUTF8 uid).init ls = some r →
      ∀ room, r.given room = some name → r.OneName room) ↔ stringToUTF8 name = name := by
  constructor
  · intro h
    obtain ⟨r, hr, hgiven, htold⟩ := @run_createAndReenter stringToUTF8 uid name
    refine h _ r hr 0 hgiven _ _ ?_ ?_ <;> simp [htold]
  · intro h ls r hr room hgiven a b ha hb
    have hone : ∀ a, (room, a) ∈ r.told → a = name := by
      intro a ha
      obtain ⟨n, hn, han⟩ := (NamesInv.run hr).told room a ha
      obtain rfl := Option.some.inj (hgiven.symm.trans hn)
      rcases han with rfl | rfl
      · rfl
      · exact h
    rw [hone a ha, hone b hb]

end

/-- Whatever the code page: the rooms created with a name have one name in every run exactly when the character 0 is not in it and
the code page reads its UTF-8 form as that name. -/
theorem one_name_iff (cp : CodePage) (uid : Nat → Int) (name : String) :
    (∀ ls r, (NameRun.system cp.stringToUTF8 uid).run (NameRun.system cp.stringToUTF8 uid).init ls = some r →
      ∀ room, r.given room = some name → r.OneName room) ↔
        '\x00' ∉ name.toList ∧ cp.text (utf8Bytes name.toList) = name.toList :=
  one_name_iff_stringToUTF8.trans CodePage.stringToUTF8_eq_self_iff

/-- Where each byte is one unit, that is when the name is below `0x80` and the character 0 is not in it. -/
theorem one_name_iff_ascii {cp : CodePage} {unit : UInt8 → UInt16} (hcp : cp.OneByte unit) (uid : Nat → Int) (name : String) :
    (∀ ls r, (NameRun.system cp.stringToUTF8 uid).run (NameRun.system cp.stringToUTF8 uid).init ls = some r →
      ∀ room, r.given room = some name → r.OneName room) ↔ ∀ c ∈ name.toList, c ≠ '\x00' ∧ c.toNat < 0x80 :=
  one_name_iff_stringToUTF8.trans hcp.stringToUTF8_eq_self_iff

/-- Where the code page is UTF-8, that is when the character 0 is not in it. -/
theorem one_name_iff_notMem {cp : CodePage} (hcp : cp.IsUtf8) (uid : Nat → Int) (name : String) :
    (∀ ls r, (NameRun.system cp.stringToUTF8 uid).run (NameRun.system cp.stringToUTF8 uid).init ls = some r →
      ∀ room, r.given room = some name → r.OneName room) ↔ '\x00' ∉ name.toList :=
  one_name_iff_stringToUTF8.trans hcp.stringToUTF8_eq_self_iff

/-- With code page 1252, whoever creates the room "é" is told so, and whoever enters it is told that it is called "Ã©". -/
theorem two_names : ∃ r,
    (NameRun.system CodePage.cp1252.stringToUTF8 (fun a => a)).run (NameRun.system CodePage.cp1252.stringToUTF8 (fun a => a)).init
      (createAndReenter "é") = some r ∧
      r.given 0 = some "é" ∧ (0, "é") ∈ r.told ∧ (0, "Ã©") ∈ r.told ∧ ¬r.OneName 0 := by
  obtain ⟨r, hr, hgiven, htold⟩ := @run_createAndReenter CodePage.cp1252.stringToUTF8 (fun a => a) "é"
  have hentered : CodePage.cp1252.stringToUTF8 "é" = "Ã©" := by decide
  rw [hentered] at htold
  have hcreated : (0, "é") ∈ r.told := by simp [htold]
  have hother : (0, "Ã©") ∈ r.told := by simp [htold]
  exact ⟨r, hr, hgiven, hcreated, hother, fun hone => absurd (hone _ _ hcreated hother) (by decide)⟩

end ProjectYJ
