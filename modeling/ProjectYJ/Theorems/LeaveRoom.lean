import ProjectYJ.Lemmas.Chat

/-!
# Leaving a room

`ChatRoom::Leave` erases by the player's `m_ChatRoomID`, the key it entered with if it entered by `EnterChatRoomReq`. All players
that entered so stand under that one key, the number of the room; the creator stands under the number it had before
(`ChatRoom.EnteredBy`). So `Leave` takes out everybody but the creator, whoever leaves.
-/

namespace ProjectYJ

open ChatState

variable {stringToUTF8 : String → String}

theorem leave_members (s : ChatState) (room player : Nat) :
    (s.leave room player).members room = ((s.chatRoom room).members.erase (s.player player).chatRoomID).values := by
  simp [members, ChatState.leave, ChatRoom.leave]

/-- `Leave` takes the player out of the room and leaves the others in it. -/
def LeavesAlone (s : ChatState) (room player : Nat) : Prop :=
  player ∉ (s.leave room player).members room ∧
    ∀ q, q ≠ player → ((s.leave room player).members room).count q = (s.members room).count q

/-- `Leave` is right exactly when the player's own entries are those under its number. -/
theorem leavesAlone_iff (s : ChatState) (room player : Nat) :
    LeavesAlone s room player ↔
      ∀ e ∈ (s.chatRoom room).members.entries, e.1 = (s.player player).chatRoomID ↔ e.2 = player := by
  unfold LeavesAlone
  rw [leave_members]
  exact (s.chatRoom room).members.erase_removes_iff (s.player player).chatRoomID player

/-- `Enter` and then `Leave` leave what is not under the player's number. -/
theorem enter_leave_perm (s : ChatState) (room player : Nat) :
    (((s.enter room player).leave room player).members room).Perm (s.members room) ↔
      ∀ e ∈ (s.chatRoom room).members.entries, e.1 ≠ (s.player player).chatRoomID := by
  rw [leave_members, ← Multimap.erase_perm_iff]
  have h := ((s.chatRoom room).members.erase_emplace_perm (s.player player).chatRoomID player).map Prod.snd
  rw [enter_chatRoom_self]
  exact ⟨h.symm.trans, h.trans⟩

/-- In every state requests lead to, for every room with its creator, entered under the number the creator had before, and the others,
entered under the room's: `Leave` of a player takes out that player and no other exactly when the player's number is the creator's
key if and only if the player is the creator, and the room's if and only if it is all the others; and `Enter` followed by `Leave`
restores the room exactly when the player's number is neither the creator's key nor, unless there are no others, the room's. -/
theorem leave_iff {uid : Nat → Int} {ls : List (Nat × ChatRequest)} {r : ChatRun}
    (hr : (chatSystem stringToUTF8 uid).run (chatSystem stringToUTF8 uid).init ls = some r) {room : Nat}
    (hroom : room < r.chat.roomsMade) :
    ∃ creatorID creator others, (r.chat.chatRoom room).EnteredBy creatorID creator others ∧ ∀ player,
      (LeavesAlone r.chat room player ↔
        (creatorID = (r.chat.player player).chatRoomID ↔ creator = player) ∧
          ∀ q ∈ others, (r.chat.chatRoom room).roomID = (r.chat.player player).chatRoomID ↔ q = player) ∧
      ((((r.chat.enter room player).leave room player).members room).Perm (r.chat.members room) ↔
        creatorID ≠ (r.chat.player player).chatRoomID ∧
          (others ≠ [] → (r.chat.chatRoom room).roomID ≠ (r.chat.player player).chatRoomID)) := by
  obtain ⟨creatorID, creator, others, h⟩ := (RoomsInv.run hr).entered room hroom
  have hall : ∀ {C : Nat × Nat → Prop}, (∀ e ∈ (r.chat.chatRoom room).members.entries, C e) ↔
      C (creatorID, creator) ∧ ∀ q ∈ others, C ((r.chat.chatRoom room).roomID, q) := by
    intro C
    simp only [h.mem_iff, List.forall_mem_cons, List.forall_mem_map]
  refine ⟨creatorID, creator, others, h, fun player => ⟨?_, ?_⟩⟩
  · rw [leavesAlone_iff, hall]
  · rw [enter_leave_perm, hall]
    refine and_congr_right fun _ => ⟨fun hq hne => ?_, fun hq q hmem => hq (List.ne_nil_of_mem hmem)⟩
    obtain ⟨q, hmem⟩ := List.exists_mem_of_ne_nil others hne
    exact hq q hmem

/-- Two players of a room whose number is the room's both leave with either of them, and the creator never does unless its number
from before was the room's. -/
theorem leave_takes_all {s : ChatState} {room creatorID creator : Nat} {others : List Nat}
    (h : (s.chatRoom room).EnteredBy creatorID creator others) {player : Nat}
    (hplayer : (s.player player).chatRoomID = (s.chatRoom room).roomID) (hcreator : creatorID ≠ (s.chatRoom room).roomID) :
    (s.leave room player).members room = [creator] := by
  have hothers : (others.map (fun q => ((s.chatRoom room).roomID, q))).filter (fun e => e.1 ≠ (s.chatRoom room).roomID) = [] := by
    simp [List.filter_eq_nil_iff]
  have hkeep := h.filter (fun e => e.1 ≠ (s.chatRoom room).roomID)
  rw [List.filter_cons_of_pos (by simpa using hcreator), hothers] at hkeep
  have hvalues := hkeep.map Prod.snd
  rw [List.map_singleton] at hvalues
  rw [leave_members, hplayer]
  exact List.perm_singleton.1 hvalues

/-- Two sessions log in; the first creates a room, the second enters it. -/
def createAndEnter : List (Nat × ChatRequest) :=
  [(0, .LoginReq "a" ""), (1, .LoginReq "b" ""), (0, .CreateChatRoomReq "r"), (1, .EnterChatRoomReq 1)]

/-- The numbers of the two players and the entries of their room after that. -/
theorem run_createAndEnter : ∃ r, (chatSystem id (fun a => a)).run (chatSystem id (fun a => a)).init createAndEnter = some r ∧
    0 < r.chat.roomsMade ∧ (r.chat.player 0).chatRoomID = 1 ∧ (r.chat.player 1).chatRoomID = 1 ∧
    (r.chat.chatRoom 0).members.entries = [(0, 0), (1, 1)] := by
  have h : ((chatSystem id (fun a => a)).run (chatSystem id (fun a => a)).init createAndEnter).map (fun r =>
      (r.chat.roomsMade, (r.chat.player 0).chatRoomID, (r.chat.player 1).chatRoomID, (r.chat.chatRoom 0).members.entries)) =
        some (1, 1, 1, [(0, 0), (1, 1)]) := by decide
  obtain ⟨r, hr, hfields⟩ := Option.map_eq_some_iff.1 h
  simp only [Prod.mk.injEq] at hfields
  exact ⟨r, hr, by omega, hfields.2.1, hfields.2.2.1, hfields.2.2.2⟩

/-- The rule there: the creator stands under its number from before, the other player under the room's. -/
theorem leave_iff_createAndEnter : ∃ r, (chatSystem id (fun a => a)).run (chatSystem id (fun a => a)).init createAndEnter = some r ∧
    ∃ creatorID creator others, (r.chat.chatRoom 0).EnteredBy creatorID creator others ∧ ∀ player,
      (LeavesAlone r.chat 0 player ↔
        (creatorID = (r.chat.player player).chatRoomID ↔ creator = player) ∧
          ∀ q ∈ others, (r.chat.chatRoom 0).roomID = (r.chat.player player).chatRoomID ↔ q = player) ∧
      ((((r.chat.enter 0 player).leave 0 player).members 0).Perm (r.chat.members 0) ↔
        creatorID ≠ (r.chat.player player).chatRoomID ∧
          (others ≠ [] → (r.chat.chatRoom 0).roomID ≠ (r.chat.player player).chatRoomID)) := by
  obtain ⟨r, hr, hmade, -⟩ := run_createAndEnter
  exact ⟨r, hr, leave_iff hr hmade⟩

/-- There the creator is a member of the room; its `Leave` takes out the other player and leaves the creator in the room; and the
other player's `Enter` and `Leave` leave the room without it. -/
theorem leave_takes_another : ∃ r, (chatSystem id (fun a => a)).run (chatSystem id (fun a => a)).init createAndEnter = some r ∧
    0 ∈ r.chat.members 0 ∧ (r.chat.leave 0 0).members 0 = [0] ∧ ¬LeavesAlone r.chat 0 0 ∧
    ¬(((r.chat.enter 0 1).leave 0 1).members 0).Perm (r.chat.members 0) := by
  obtain ⟨r, hr, -, h0, h1, hentries⟩ := run_createAndEnter
  refine ⟨r, hr, ?_, ?_, ?_, ?_⟩
  · rw [members, Multimap.values, hentries]
    decide
  · rw [leave_members, h0, Multimap.values, Multimap.entries_erase, hentries]
    decide
  · rw [leavesAlone_iff, hentries, h0]
    decide
  · rw [enter_leave_perm, hentries, h1]
    decide

end ProjectYJ
