import ProjectYJ.Lemmas.Chat

/-!
# Which room a request enters

The `roomID` of an `EnterChatRoomReq` is an `int32`; the handler makes a `uint16` of it, writes that to the player and looks the
room up. It does what it should for the number of a room there is, and only for that: another number of 32 bits may be the number
of a room once it is cut to 16, and for any other the null pointer that `GetRoom` returns is used.
-/

namespace ProjectYJ

open ChatState

variable {stringToUTF8 : String → String}

/-- The manager has this room, and its ID is `roomID` as an integer. -/
def HasRoom (s : ChatState) (roomID : Int) (room : Nat) : Prop :=
  (∃ k, s.getRoom k = some room) ∧ ((s.chatRoom room).roomID : Int) = roomID

/-- The player is once more in the one room, and its `m_ChatRoomID` is `roomID` as an integer. -/
structure EnteredIn (s t : ChatState) (player room : Nat) (roomID : Int) : Prop where
  chatRoomID : ((t.player player).chatRoomID : Int) = roomID
  members : ∀ x q, (t.members x).count q = (s.members x).count q + if x = room ∧ q = player then 1 else 0

/-- `HandleEnterChatRoomReq` comes to its end, and brings the player to the room with this ID, or, if there is none, leaves its
`m_ChatRoomID` and every room as they were. -/
def SelectsExactly (s : ChatState) (session player : Nat) (roomID : Int) : Prop :=
  ∃ out, s.handleEnterChatRoomReq session roomID = .ok out ∧
    ((∃ room, HasRoom s roomID room ∧ EnteredIn s out.state player room roomID) ∨
      (¬(∃ room, HasRoom s roomID room) ∧ (out.state.player player).chatRoomID = (s.player player).chatRoomID ∧
        out.state.chatRoom = s.chatRoom))

/-- A room of the manager has a 16-bit number, and is found under it. -/
theorem HasRoom.getRoom {r : ChatRun} (hs : ChatInv r) (hrooms : RoomsInv r.chat) {roomID : Int} {room : Nat}
    (h : HasRoom r.chat roomID room) : r.chat.getRoom (toUInt16 roomID) = some room ∧ (toUInt16 roomID : Int) = roomID := by
  obtain ⟨⟨k, hk⟩, hid⟩ := h
  rw [hrooms.roomID k room hk] at hid
  subst hid
  rw [toUInt16_of_lt (hs.rooms k room hk).1]
  exact ⟨hk, rfl⟩

/-- Whenever the handler comes to its end it has brought the player to some room. -/
theorem hasRoom_of_selectsExactly {s : ChatState} {session player : Nat} {roomID : Int} (hplayer : s.player0 session = some player)
    (h : SelectsExactly s session player roomID) : ∃ room, HasRoom s roomID room := by
  obtain ⟨out, hout, ⟨room, hroom, -⟩ | ⟨-, -, hsame⟩⟩ := h
  · exact ⟨room, hroom⟩
  · obtain ⟨player', room, hplayer', -, hstate, -⟩ := handleEnterChatRoomReq_ok hout
    obtain rfl := Option.some.inj (hplayer.symm.trans hplayer')
    have hcount := enter_count (s := s.setChatRoomID player (toUInt16 roomID)) room player room player
    rw [← hstate, if_pos ⟨rfl, rfl⟩, setChatRoomID_members, members, members, hsame] at hcount
    omega

/-- In every state requests lead to, for every session with a player: a request to enter is carried out exactly when there is a room
whose ID is the requested number as an integer. -/
theorem selectsExactly_iff {uid : Nat → Int} {ls : List (Nat × ChatRequest)} {r : ChatRun}
    (hr : (chatSystem stringToUTF8 uid).run (chatSystem stringToUTF8 uid).init ls = some r) {session player : Nat}
    (hplayer : r.chat.player0 session = some player) (roomID : Int) :
    SelectsExactly r.chat session player roomID ↔ ∃ room, HasRoom r.chat roomID room := by
  refine ⟨hasRoom_of_selectsExactly hplayer, ?_⟩
  rintro ⟨room, hroom⟩
  obtain ⟨hget, hid⟩ := hroom.getRoom (ChatInv.run hr) (RoomsInv.run hr)
  obtain ⟨out, hout⟩ := handleEnterChatRoomReq_of hplayer hget
  obtain ⟨player', room', hplayer', hget', hstate, -⟩ := handleEnterChatRoomReq_ok hout
  obtain rfl := Option.some.inj (hplayer.symm.trans hplayer')
  obtain rfl := Option.some.inj (hget.symm.trans hget')
  refine ⟨out, hout, Or.inl ⟨room, hroom, ?_, fun x q => ?_⟩⟩
  · rw [hstate]
    show ((((r.chat.setChatRoomID player (toUInt16 roomID)).player player).chatRoomID : Nat) : Int) = roomID
    rw [setChatRoomID_chatRoomID, if_pos rfl, hid]
  · rw [hstate, enter_count, setChatRoomID_members]

/-- Two sessions log in, and the first creates a room. -/
def loginAndCreate : List (Nat × ChatRequest) := [(0, .LoginReq "a" ""), (1, .LoginReq "b" ""), (0, .CreateChatRoomReq "r")]

/-- The rule there, for a request of the second session to enter room 1. -/
theorem selectsExactly_iff_loginAndCreate :
    ∃ r, (chatSystem id (fun a => a)).run (chatSystem id (fun a => a)).init loginAndCreate = some r ∧
      (SelectsExactly r.chat 1 1 1 ↔ ∃ room, HasRoom r.chat 1 room) := by
  have h : ((chatSystem id (fun a => a)).run (chatSystem id (fun a => a)).init loginAndCreate).map (fun r => r.chat.player0 1) =
      some (some 1) := by decide
  obtain ⟨r, hr, hplayer⟩ := Option.map_eq_some_iff.1 h
  exact ⟨r, hr, selectsExactly_iff hr hplayer 1⟩

/-- There, a request to enter room 65537 brings the second player to room 1, and a request to enter room 7 uses a null pointer. -/
theorem selects_another_room :
    ∃ r, (chatSystem id (fun a => a)).run (chatSystem id (fun a => a)).init loginAndCreate = some r ∧
      (∃ out, r.chat.handleEnterChatRoomReq 1 65537 = .ok out ∧ (out.state.player 1).chatRoomID = 1 ∧
        out.state.members 0 = [0, 1]) ∧ ¬SelectsExactly r.chat 1 1 65537 ∧
      (∀ out, r.chat.handleEnterChatRoomReq 1 7 ≠ .ok out) ∧ ¬SelectsExactly r.chat 1 1 7 := by
  have h : ((chatSystem id (fun a => a)).run (chatSystem id (fun a => a)).init loginAndCreate).map (fun r =>
      (r.chat.player0 1, r.chat.getRoom 1, r.chat.getRoom 7, (r.chat.chatRoom 0).members.entries)) =
        some (some 1, some 0, none, [(0, 0)]) := by decide
  obtain ⟨r, hr, hfields⟩ := Option.map_eq_some_iff.1 h
  simp only [Prod.mk.injEq] at hfields
  obtain ⟨hplayer, h1, h7, hentries⟩ := hfields
  have hnull : ∀ out, r.chat.handleEnterChatRoomReq 1 7 ≠ .ok out := by
    intro out hout
    obtain ⟨_, room, -, hroom, -⟩ := handleEnterChatRoomReq_ok hout
    cases h7.symm.trans hroom
  refine ⟨r, hr, ?_, ?_, hnull, fun ⟨out, hout, _⟩ => hnull out hout⟩
  · have hok : ∃ out, r.chat.handleEnterChatRoomReq 1 65537 = .ok out := handleEnterChatRoomReq_of hplayer h1
    obtain ⟨out, hout⟩ := hok
    obtain ⟨player, room, hplayer', hroom, hstate, -⟩ := handleEnterChatRoomReq_ok hout
    obtain rfl := Option.some.inj (hplayer.symm.trans hplayer')
    obtain rfl := Option.some.inj (h1.symm.trans hroom)
    refine ⟨out, hout, ?_, ?_⟩
    · rw [hstate]
      show (((r.chat.setChatRoomID 1 (toUInt16 65537)).player 1).chatRoomID) = 1
      rw [setChatRoomID_chatRoomID, if_pos rfl]
      rfl
    · rw [hstate, members, enter_chatRoom_self, setChatRoomID_chatRoomID, if_pos rfl, ChatRoom.enter, Multimap.values]
      show List.map Prod.snd (Multimap.insertEntry _ _ (r.chat.chatRoom 0).members.entries) = _
      rw [hentries]
      decide
  · intro hsel
    obtain ⟨room, hroom⟩ := hasRoom_of_selectsExactly hplayer hsel
    have hid := (hroom.getRoom (ChatInv.run hr) (RoomsInv.run hr)).2
    exact absurd hid (by decide)

end ProjectYJ
