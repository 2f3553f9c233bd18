import ProjectYJ.Lemmas.ChatHistory
import ProjectYJ.Lemmas.ClientView
import ProjectYJ.Theorems.ChatRequests

/-!
# What clients ask for

A client does not keep track of what the server knows: what its windows let the user do is all there is. `Known` is what the server
and the requests sent so far establish for good, and a request, an answer, some mail or a window may take it for granted. Every step
adds to it only; `Keeps` says that everything that is anywhere in the net is established. It is an invariant of the runs in which no
client gets another first session after it has sent something (`Settled`).
-/

namespace ProjectYJ

open ChatState

/-! ## What is established -/

/-- What holds for good: the connections that are logged in, those in a room, and the numbers of the rooms. -/
structure Known where
  loggedIn : Nat → Prop
  inRoom : Nat → Prop
  room : Nat → Prop

namespace Known

/-- More is known. -/
structure Le (K L : Known) : Prop where
  loggedIn : ∀ a, K.loggedIn a → L.loggedIn a
  inRoom : ∀ a, K.inRoom a → L.inRoom a
  room : ∀ k, K.room k → L.room k

/-- What a request takes for granted. -/
def request (K : Known) (a : Nat) : ChatRequest → Prop
  | .EnterChatRoomReq roomID => K.loggedIn a ∧ 0 ≤ roomID ∧ K.room roomID.toNat
  | .CreateChatRoomReq _ => K.loggedIn a
  | .ChatReq _ _ _ => K.inRoom a
  | _ => True

/-- What an answer tells. -/
def answer (K : Known) (a : Nat) : ChatAnswer → Prop
  | .LoginAck _ _ => K.loggedIn a
  | .EnterChatRoomAck _ _ => K.inRoom a
  | .ChatRoomListAck _ chatroomInfo => ∀ room ∈ chatroomInfo, K.room room.roomID
  | _ => True

/-- What mail tells, to windows that send on this session. -/
def mail (K : Known) (firstSession : Option Nat) : Mail → Prop
  | .loginAck _ => ∃ a ∈ firstSession, K.loggedIn a
  | .entered _ | .enterRoom _ => ∃ a ∈ firstSession, K.inRoom a
  | .roomList rooms => ∀ room ∈ rooms, K.room room.roomID
  | _ => True

/-- What windows show: the lobby window and its box to a user that is logged in, rooms that there are, and the chat window to a user
in a room. -/
structure windows (K : Known) (u : ClientUi) : Prop where
  visible : u.lobby.visible = true → ∃ a ∈ u.firstSession, K.loggedIn a
  chatRooms : ∀ room ∈ u.lobby.chatRooms, K.room room.roomID
  asking : ∀ roomId ∈ u.lobby.asking, (∃ a ∈ u.firstSession, K.loggedIn a) ∧ 0 ≤ roomId ∧ K.room roomId.toNat
  isConnect : u.chat.isConnect = true → ∃ a ∈ u.firstSession, K.inRoom a

variable {K L : Known}

theorem Le.request (h : K.Le L) {a : Nat} {r : ChatRequest} (hr : K.request a r) : L.request a r := by
  cases r with
  | EnterChatRoomReq roomID => exact ⟨h.loggedIn a hr.1, hr.2.1, h.room _ hr.2.2⟩
  | CreateChatRoomReq roomName => exact h.loggedIn a hr
  | ChatReq sessionUID message roomID => exact h.inRoom a hr
  | LoginReq | ChatRoomListReq | RefreshChatRoomReq | DummyPacketReq => exact trivial

theorem Le.answer (h : K.Le L) {a : Nat} {r : ChatAnswer} (hr : K.answer a r) : L.answer a r := by
  cases r with
  | LoginAck success userID => exact h.loggedIn a hr
  | EnterChatRoomAck roomID roomName => exact h.inRoom a hr
  | ChatRoomListAck success chatroomInfo => exact fun room hroom => h.room _ (hr room hroom)
  | ChatAck | DummyPacketAck => exact trivial

theorem Le.mail (h : K.Le L) {o : Option Nat} {m : Mail} (hm : K.mail o m) : L.mail o m := by
  cases m with
  | loginAck userId =>
    obtain ⟨a, ha, hlogged⟩ := hm
    exact ⟨a, ha, h.loggedIn a hlogged⟩
  | entered | enterRoom =>
    obtain ⟨a, ha, hin⟩ := hm
    exact ⟨a, ha, h.inRoom a hin⟩
  | roomList rooms => exact fun room hroom => h.room _ (hm room hroom)
  | connected | chat => exact trivial

theorem Le.windows (h : K.Le L) {u : ClientUi} (hu : K.windows u) : L.windows u where
  visible hv := (hu.visible hv).imp fun _ ha => ⟨ha.1, h.loggedIn _ ha.2⟩
  chatRooms room hroom := h.room _ (hu.chatRooms room hroom)
  asking roomId hasking := by
    obtain ⟨⟨a, ha, hlogged⟩, hnonneg, hroom⟩ := hu.asking roomId hasking
    exact ⟨⟨a, ha, h.loggedIn a hlogged⟩, hnonneg, h.room _ hroom⟩
  isConnect hv := (hu.isConnect hv).imp fun _ ha => ⟨ha.1, h.inRoom _ ha.2⟩

/-- What mail an answer becomes tells what the answer tells. -/
theorem answer_mail {a : Nat} {r : ChatAnswer} (hr : K.answer a r) {o : Option Nat} (ho : o = some a) :
    ∀ m ∈ r.mail, K.mail o m := by
  subst ho
  cases r with
  | LoginAck | EnterChatRoomAck =>
    intro m hm
    rw [List.mem_singleton.1 hm]
    exact ⟨a, rfl, hr⟩
  | ChatRoomListAck success chatroomInfo =>
    intro m hm
    rw [List.mem_singleton.1 hm]
    exact hr
  | ChatAck sender message =>
    intro m hm
    rw [List.mem_singleton.1 hm]
    exact trivial
  | DummyPacketAck message => nofun

/-- Nobody is logged in on the session. -/
def Unused (K : Known) (firstSession : Option Nat) : Prop := ∀ a ∈ firstSession, ¬K.loggedIn a ∧ ¬K.inRoom a

/-- Mail and windows that concern nobody may be about any session. -/
theorem mail_change {o o' : Option Nat} (h : K.Unused o ∨ o' = o) {m : Mail} (hm : K.mail o m) : K.mail o' m := by
  rcases h with hunused | rfl
  · cases m with
    | loginAck userId =>
      obtain ⟨a, ha, hlogged⟩ := hm
      exact absurd hlogged (hunused a ha).1
    | entered | enterRoom =>
      obtain ⟨a, ha, hin⟩ := hm
      exact absurd hin (hunused a ha).2
    | roomList rooms => exact hm
    | connected | chat => exact trivial
  · exact hm

theorem windows_change {u u' : ClientUi} (h : K.Unused u.firstSession ∨ u'.firstSession = u.firstSession)
    (hlobby : u'.lobby = u.lobby) (hchat : u'.chat = u.chat) (hu : K.windows u) : K.windows u' := by
  have hlogged : (∃ a ∈ u.firstSession, K.loggedIn a) → ∃ a ∈ u'.firstSession, K.loggedIn a := by
    rintro ⟨a, ha, hlogged⟩
    rcases h with hunused | hsame
    · exact absurd hlogged (hunused a ha).1
    · exact ⟨a, hsame ▸ ha, hlogged⟩
  have hin : (∃ a ∈ u.firstSession, K.inRoom a) → ∃ a ∈ u'.firstSession, K.inRoom a := by
    rintro ⟨a, ha, hin⟩
    rcases h with hunused | hsame
    · exact absurd hin (hunused a ha).2
    · exact ⟨a, hsame ▸ ha, hin⟩
  constructor
  · rw [hlobby]
    exact fun hv => hlogged (hu.visible hv)
  · rw [hlobby]
    exact hu.chatRooms
  · rw [hlobby]
    exact fun roomId hroomId => (hu.asking roomId hroomId).imp_left hlogged
  · rw [hchat]
    exact fun hv => hin (hu.isConnect hv)

end Known

/-! ## What the windows send -/

section

variable {K : Known} {u u' : ClientUi} {requests : List (Nat × ChatRequest)}

/-- What is sent goes to the first session. -/
theorem mem_send {request : ChatRequest} {m : Nat × ChatRequest} (h : m ∈ u.send request) :
    u.firstSession = some m.1 ∧ m.2 = request := by
  unfold ClientUi.send at h
  split at h
  · cases h
  · rename_i session hsession
    rw [List.mem_singleton.1 h]
    exact ⟨hsession, rfl⟩

/-- What the user does leaves windows that show what is known, and sends what is known to be right. -/
theorem act_spec (hu : K.windows u) (hroom : ∀ k, K.room k → k < 65536) {action : UserAction}
    (h : u.act action = some (u', requests)) :
    K.windows u' ∧ u'.sessions = u.sessions ∧ ∀ m ∈ requests, u.firstSession = some m.1 ∧ K.request m.1 m.2 := by
  cases action with
  | login id password =>
    simp only [ClientUi.act, Option.ite_none_right_eq_some, Option.some.injEq, Prod.mk.injEq] at h
    obtain ⟨-, rfl, rfl⟩ := h
    refine ⟨hu, rfl, fun m hm => ?_⟩
    unfold ClientUi.tryLogin at hm
    split at hm
    · cases hm
    · obtain ⟨hfirst, hrequest⟩ := mem_send hm
      rw [hrequest]
      exact ⟨hfirst, trivial⟩
  | select index =>
    simp only [ClientUi.act, Option.ite_none_right_eq_some, Option.some.injEq, Prod.mk.injEq] at h
    obtain ⟨-, rfl, rfl⟩ := h
    exact ⟨⟨hu.visible, hu.chatRooms, hu.asking, hu.isConnect⟩, rfl, nofun⟩
  | enter =>
    simp only [ClientUi.act, Option.ite_none_right_eq_some, Option.some.injEq, Prod.mk.injEq] at h
    obtain ⟨hopen, rfl, rfl⟩ := h
    suffices hafter : K.windows u.clickEnter ∧ u.clickEnter.sessions = u.sessions from ⟨hafter.1, hafter.2, nofun⟩
    unfold ClientUi.clickEnter LobbyWindow.enterChatRoom
    split
    · exact ⟨hu, rfl⟩
    · split
      · exact ⟨hu, rfl⟩
      · rename_i room hget
        split
        · exact ⟨hu, rfl⟩
        · have hknown : K.room room.roomID := hu.chatRooms room (List.mem_of_getElem? hget)
          have hid : toInt32 room.roomID = room.roomID := toInt32_of_lt (Nat.lt_trans (hroom _ hknown) (by decide))
          refine ⟨⟨hu.visible, hu.chatRooms, fun roomId hroomId => ?_, hu.isConnect⟩, rfl⟩
          obtain rfl : toInt32 room.roomID = roomId := Option.some.inj hroomId
          rw [hid]
          exact ⟨hu.visible hopen.1, Int.natCast_nonneg _, hknown⟩
  | answer yes =>
    obtain ⟨roomId, hasking, hanswer⟩ := Option.map_eq_some_iff.1 h
    obtain ⟨rfl, rfl⟩ := Prod.mk.inj hanswer
    obtain ⟨hlogged, hnonneg, hknown⟩ := hu.asking roomId hasking
    refine ⟨⟨hu.visible, hu.chatRooms, nofun, hu.isConnect⟩, rfl, fun m hm => ?_⟩
    split at hm
    · obtain ⟨hfirst, hrequest⟩ := mem_send hm
      obtain ⟨a, ha, hloggedIn⟩ := hlogged
      obtain rfl : a = m.1 := Option.some.inj ((Option.mem_def.1 ha).symm.trans hfirst)
      rw [hrequest]
      exact ⟨hfirst, hloggedIn, hnonneg, hknown⟩
    · cases hm
  | create roomName =>
    simp only [ClientUi.act, Option.ite_none_right_eq_some, Option.some.injEq, Prod.mk.injEq] at h
    obtain ⟨hopen, rfl, rfl⟩ := h
    refine ⟨hu, rfl, fun m hm => ?_⟩
    unfold ClientUi.clickCreate at hm
    split at hm
    · cases hm
    · obtain ⟨hfirst, hrequest⟩ := mem_send hm
      obtain ⟨a, ha, hloggedIn⟩ := hu.visible hopen.1
      obtain rfl : a = m.1 := Option.some.inj ((Option.mem_def.1 ha).symm.trans hfirst)
      rw [hrequest]
      exact ⟨hfirst, hloggedIn⟩
  | refresh =>
    simp only [ClientUi.act, Option.ite_none_right_eq_some, Option.some.injEq, Prod.mk.injEq] at h
    obtain ⟨-, rfl, rfl⟩ := h
    refine ⟨hu, rfl, fun m hm => ?_⟩
    obtain ⟨hfirst, hrequest⟩ := mem_send hm
    rw [hrequest]
    exact ⟨hfirst, trivial⟩
  | send message =>
    simp only [ClientUi.act, Option.ite_none_right_eq_some, Option.some.injEq, Prod.mk.injEq] at h
    obtain ⟨-, rfl, rfl⟩ := h
    refine ⟨hu, rfl, fun m hm => ?_⟩
    unfold ClientUi.sendChatMessage at hm
    split at hm
    · cases hm
    · rename_i hconnect
      split at hm
      · cases hm
      · rename_i session hsession
        obtain ⟨a, ha, hin⟩ := hu.isConnect (by simpa using (not_or.1 hconnect).1)
        obtain rfl : a = session := Option.some.inj ((Option.mem_def.1 ha).symm.trans hsession)
        rw [List.mem_singleton.1 hm]
        exact ⟨hsession, hin⟩

/-- Mail that tells what is known leaves such windows and such mail, and sends what is known to be right. -/
theorem openMail_spec {W : ClientPlatform} {v v' : ClientView} {localTime : String} {mail : Mail} (hu : K.windows v.toClientUi)
    (hinbox : ∀ m ∈ v.inbox, K.mail v.firstSession m) (hmail : K.mail v.firstSession mail)
    (h : v.openMail W localTime mail = (v', requests)) :
    K.windows v'.toClientUi ∧ v'.sessions = v.sessions ∧ (∀ m ∈ v'.inbox, K.mail v.firstSession m) ∧
      ∀ m ∈ requests, v.firstSession = some m.1 ∧ K.request m.1 m.2 := by
  cases mail with
  | connected =>
    obtain ⟨rfl, rfl⟩ := Prod.mk.inj h
    exact ⟨hu, rfl, hinbox, nofun⟩
  | loginAck userId =>
    obtain ⟨rfl, rfl⟩ := Prod.mk.inj h
    refine ⟨⟨fun _ => hmail, hu.chatRooms, hu.asking, hu.isConnect⟩, rfl, hinbox, fun m hm => ?_⟩
    obtain ⟨hfirst, hrequest⟩ := mem_send hm
    rw [hrequest]
    exact ⟨hfirst, trivial⟩
  | roomList rooms =>
    obtain ⟨rfl, rfl⟩ := Prod.mk.inj h
    exact ⟨⟨hu.visible, hmail, hu.asking, hu.isConnect⟩, rfl, hinbox, nofun⟩
  | entered roomName =>
    obtain ⟨rfl, rfl⟩ := Prod.mk.inj h
    have hhide : K.windows v.toClientUi.hideLobby := ⟨nofun, hu.chatRooms, hu.asking, hu.isConnect⟩
    obtain ⟨hui, hmem⟩ := post_spec_view W { v with toClientUi := v.toClientUi.hideLobby } (.enterRoom roomName)
    refine ⟨?_, (congrArg ClientUi.sessions hui).trans rfl, fun m hm => ?_, nofun⟩
    · exact (congrArg K.windows hui).mpr hhide
    · rcases hmem m hm with hold | rfl
      · exact hinbox m hold
      · exact hmail
  | enterRoom roomName =>
    obtain ⟨rfl, rfl⟩ := Prod.mk.inj h
    exact ⟨⟨hu.visible, hu.chatRooms, hu.asking, fun _ => hmail⟩, rfl, hinbox, nofun⟩
  | chat sender message =>
    obtain ⟨rfl, rfl⟩ := Prod.mk.inj h
    exact ⟨⟨hu.visible, hu.chatRooms, hu.asking, hu.isConnect⟩, rfl, hinbox, nofun⟩

end

/-! ## What the server adds -/

section

variable {stringToUTF8 : String → String} {s : ChatRun} {session : Nat} {request : ChatRequest} {out : Handled}

/-- The server and what is known of it, after a request that was handled. -/
theorem handle_grows (hs : ChatInv s) (h : s.chat.handle stringToUTF8 session request = .ok out) {t : ChatRun}
    (ht : t = { chat := out.state, lastRoom := s.lastRoomAfter session request }) :
    (∀ k, (s.chat.getRoom k).isSome → (t.chat.getRoom k).isSome) ∧
      ∀ a, Precond s (a, .ChatReq 0 "" 0) → Precond t (a, .ChatReq 0 "" 0) := by
  have hstep : chatStep stringToUTF8 s (session, request) = some t := chatStep_eq_some.2 ⟨out, h, ht.symm⟩
  have hplayer0 : ∀ {a p}, s.chat.player0 a = some p → t.chat.player0 a = some p := fun hp => by
    rw [ht]
    exact handle_player0 h hp
  have hjoined : ∀ {player room roomID}, Joins s t player room roomID →
      (∀ k, (s.chat.getRoom k).isSome → (t.chat.getRoom k).isSome) ∧
        ∀ a, Precond s (a, .ChatReq 0 "" 0) → Precond t (a, .ChatReq 0 "" 0) := by
    intro player room roomID hjoins
    refine ⟨fun k hk => ?_, ?_⟩
    · rw [hjoins.getRoom]
      split
      · rfl
      · exact hk
    · rintro a ⟨p, hp, x, hx, hmember⟩
      exact ⟨p, hplayer0 hp, x, Nat.lt_of_lt_of_le hx hjoins.roomsMade, (hjoins.mem x p).2 (Or.inl hmember)⟩
  rcases chatStep_cases hs hstep with ⟨-, -, hstays⟩ | ⟨_, _, _, -, -, -, hjoins⟩ | ⟨_, _, -, -, hjoins⟩
  · refine ⟨fun k hk => ?_, ?_⟩
    · rw [hstays.getRoom]
      exact hk
    · rintro a ⟨p, hp, x, hx, hmember⟩
      refine ⟨p, hplayer0 hp, x, ?_, ?_⟩
      · rw [hstays.roomsMade]
        exact hx
      · rw [hstays.members]
        exact hmember
  · exact hjoined hjoins
  · exact hjoined hjoins

/-- A player that joined a room is in it. -/
theorem Joins.precond {t : ChatRun} {player room roomID : Nat} (hjoins : Joins s t player room roomID)
    (hplayer : s.chat.player0 session = some player) : Precond t (session, .ChatReq 0 "" 0) := by
  refine ⟨player, ?_, room, hjoins.room_lt, (hjoins.mem room player).2 (Or.inr ⟨rfl, rfl⟩)⟩
  rw [player0, hjoins.session]
  exact hplayer

/-- What the answers of a handler tell: a login to its session, that it has a player; an entry to its session, that the player is in a
room; and a list, of rooms that there are. -/
def Tells (t : ChatRun) (session : Nat) (m : Nat × ChatAnswer) : Prop :=
  match m.2 with
  | .LoginAck _ _ => m.1 = session ∧ (t.chat.player0 session).isSome
  | .EnterChatRoomAck _ _ => m.1 = session ∧ Precond t (session, .ChatReq 0 "" 0)
  | .ChatRoomListAck _ chatroomInfo => ∀ room ∈ chatroomInfo, (t.chat.getRoom room.roomID).isSome
  | _ => True

theorem handle_tells (hs : ChatInv s) (hrooms : RoomsInv s.chat) (h : s.chat.handle stringToUTF8 session request = .ok out)
    {t : ChatRun} (ht : t = { chat := out.state, lastRoom := s.lastRoomAfter session request }) :
    ∀ m ∈ out.sends, Tells t session m := by
  have hstep : chatStep stringToUTF8 s (session, request) = some t := chatStep_eq_some.2 ⟨out, h, ht.symm⟩
  intro m hm
  cases request with
  | EnterChatRoomReq roomID =>
    rcases chatStep_cases hs hstep with ⟨hno, -⟩ | ⟨_, player, room, -, hplayer, -, hjoins⟩ | ⟨_, _, hno, -⟩
    · exact absurd rfl (hno roomID)
    · obtain ⟨_, -, h⟩ := except_of_bind h
      obtain ⟨_, -, h⟩ := except_of_bind h
      cases h
      rw [List.mem_singleton.1 hm]
      exact ⟨rfl, hjoins.precond hplayer⟩
    · cases hno
  | CreateChatRoomReq roomName =>
    rcases chatStep_cases hs hstep with ⟨-, hno, -⟩ | ⟨_, _, _, hno, -⟩ | ⟨_, player, -, hplayer, hjoins⟩
    · exact absurd rfl (hno roomName)
    · cases hno
    · obtain ⟨_, -, h⟩ := except_of_bind h
      cases h
      rw [List.mem_singleton.1 hm]
      exact ⟨rfl, hjoins.precond hplayer⟩
  | LoginReq id password =>
    obtain ⟨⟨_, _, -⟩, hnew⟩ | ⟨hno, -⟩ := handle_owners h
    · cases h
      rw [List.mem_singleton.1 hm]
      refine ⟨rfl, ?_⟩
      rw [ht, player0, hnew.players, if_pos rfl]
      simp
    · exact absurd rfl (hno id password)
  | ChatRoomListReq success =>
    cases h
    rw [List.mem_singleton.1 hm]
    intro info hinfo
    obtain ⟨⟨k, x⟩, hentry, rfl⟩ := List.mem_map.1 hinfo
    have hroom : s.chat.getRoom k = some x := Std.TreeMap.mem_toList_iff_getElem?_eq_some.1 hentry
    rw [ht, ChatRoom.getRoomInfo, hrooms.roomID k x hroom]
    exact Option.isSome_iff_exists.2 ⟨x, hroom⟩
  | RefreshChatRoomReq =>
    cases h
    cases hm
  | ChatReq sessionUID message roomID =>
    obtain ⟨_, _, -, -, -, hsends⟩ := handleChatReq_ok h
    rw [hsends] at hm
    obtain ⟨_, -, rfl⟩ := List.mem_map.1 hm
    exact trivial
  | DummyPacketReq message =>
    cases h
    rw [List.mem_singleton.1 hm]
    exact trivial

end

/-! ## The invariant -/

namespace ChatNet

variable {κ : Type}

/-- What the server and the requests sent so far establish. -/
def known (s : ChatNet κ) : Known where
  loggedIn a := (∃ r, (a, r) ∈ s.asked) ∧ (s.server.chat.player0 a).isSome
  inRoom a := (∃ r, (a, r) ∈ s.asked) ∧ Precond s.server (a, .ChatReq 0 "" 0)
  room k := (s.server.chat.getRoom k).isSome

/-- Requests sent add to what is known. -/
theorem known_ask (s : ChatNet κ) (requests : List (Nat × ChatRequest)) : s.known.Le (s.ask requests).known where
  loggedIn _ h := ⟨h.1.imp fun _ hr => List.mem_append_left requests hr, h.2⟩
  inRoom _ h := ⟨h.1.imp fun _ hr => List.mem_append_left requests hr, h.2⟩
  room _ h := h

/-- A request that was handled adds to what is known. -/
theorem known_served {s : ChatNet κ} (hs : ChatInv s.server) {stringToUTF8 : String → String} {a : Nat} {request : ChatRequest}
    {out : Handled} (h : s.server.chat.handle stringToUTF8 a request = .ok out) (rest : List ChatRequest) :
    s.known.Le (s.served a request rest out).known := by
  obtain ⟨hroom, hin⟩ := handle_grows hs h rfl
  refine ⟨fun b hb => ⟨hb.1, ?_⟩, fun b hb => ⟨hb.1, hin b hb.2⟩, hroom⟩
  obtain ⟨p, hp⟩ := Option.isSome_iff_exists.1 hb.2
  exact Option.isSome_iff_exists.2 ⟨p, handle_player0 h hp⟩

/-- A request that the server knows to be right meets its precondition. -/
theorem precond_of_known {s : ChatNet κ} {a : Nat} {r : ChatRequest} (h : s.known.request a r) : Precond s.server (a, r) := by
  cases r with
  | EnterChatRoomReq roomID => exact ⟨h.1.2, h.2⟩
  | CreateChatRoomReq roomName => exact h.2
  | ChatReq sessionUID message roomID => exact h.2
  | LoginReq | ChatRoomListReq | RefreshChatRoomReq | DummyPacketReq => exact trivial

end ChatNet

/-- A client that has sent something does not get another first session. -/
def Settled {κ : Type} (ui : κ → ClientUi) (host : Nat → Nat) (s : ChatNet κ) : ChatNetStep → Prop
  | .onConnected a =>
    (∀ m ∈ s.asked, host m.1 ≠ host a) ∨
      ((ui (s.client (host a))).register a ((ui (s.client (host a))).stage a).uid).firstSession =
        (ui (s.client (host a))).firstSession
  | _ => True

instance Settled.decidable {κ : Type} (ui : κ → ClientUi) (host : Nat → Nat) (s : ChatNet κ) :
    (l : ChatNetStep) → Decidable (Settled ui host s l)
  | .onConnected _ => inferInstanceAs (Decidable (_ ∨ _))
  | .connect _ | .serve _ | .receive _ | .dispatch _ _ | .user _ _ => isTrue trivial

/-- Everything that is anywhere in the net is established: the sessions of a client are its own, and what it has sent, it has sent on
the first; and requests, answers, mail and windows say what is known. -/
structure Keeps (host : Nat → Nat) (s : ChatNet ClientView) : Prop where
  chat : ChatInv s.server
  rooms : RoomsInv s.server.chat
  own : ∀ i (k : Int) a, (s.client i).sessions[k]? = some a → host a = i
  home : ∀ m ∈ s.asked, (s.client (host m.1)).firstSession = some m.1
  waiting : ∀ a, ∀ r ∈ s.toServer a, (a, r) ∈ s.asked
  requests : ∀ a, ∀ r ∈ s.toServer a, s.known.request a r
  answers : ∀ a, ∀ r ∈ s.toClient a, s.known.answer a r
  mail : ∀ i, ∀ m ∈ (s.client i).inbox, s.known.mail (s.client i).firstSession m
  windows : ∀ i, s.known.windows (s.client i).toClientUi

section

variable {host : Nat → Nat} {s : ChatNet ClientView} {W : ClientPlatform} {stringToUTF8 : String → String} {uid : Nat → Int}

theorem keeps_init : Keeps host (viewNet W stringToUTF8 uid host).init where
  chat := @ChatInv.run stringToUTF8 _ uid [] rfl
  rooms := @RoomsInv.run stringToUTF8 uid [] _ rfl
  own _ _ a h := absurd (h.symm.trans Std.TreeMap.getElem?_emptyc) (Option.some_ne_none a)
  home := nofun
  waiting := nofun
  requests := nofun
  answers := nofun
  mail := nofun
  windows _ := ⟨nofun, nofun, nofun, nofun⟩

/-- The first session is one of the sessions. -/
theorem firstSession_mem {u : ClientUi} {a : Nat} (h : u.firstSession = some a) : ∃ k : Int, u.sessions[k]? = some a := by
  obtain ⟨⟨k, b⟩, hhead, rfl⟩ := Option.map_eq_some_iff.1 h
  exact ⟨k, Std.TreeMap.mem_toList_iff_getElem?_eq_some.1 (List.mem_of_mem_head? hhead)⟩

theorem Keeps.host_firstSession (hs : Keeps host s) {i a : Nat} (h : (s.client i).firstSession = some a) : host a = i := by
  obtain ⟨k, hk⟩ := firstSession_mem h
  exact hs.own i k a hk

/-- A client changes, whose first session stays what it was if it has sent something. -/
theorem Keeps.setClient (hs : Keeps host s) {i : Nat} {v : ClientView}
    (hown : ∀ (k : Int) a, v.sessions[k]? = some a → host a = i)
    (hfirst : (∀ m ∈ s.asked, host m.1 ≠ i) ∨ v.firstSession = (s.client i).firstSession)
    (hmail : ∀ m ∈ v.inbox, s.known.mail v.firstSession m) (hwindows : s.known.windows v.toClientUi) :
    Keeps host (s.setClient i v) := by
  have hclient : ∀ j, (s.setClient i v).client j = if j = i then v else s.client j := fun j => Function.update_apply ..
  refine ⟨hs.chat, hs.rooms, fun j k a hk => ?_, fun m hm => ?_, hs.waiting, hs.requests, hs.answers, fun j => ?_, fun j => ?_⟩
  · rw [hclient] at hk
    split at hk
    · rename_i hj
      exact (hown k a hk).trans hj.symm
    · exact hs.own j k a hk
  · rw [hclient]
    split
    · rename_i hj
      rcases hfirst with hnone | hsame
      · exact absurd hj (hnone m hm)
      · rw [hsame, ← hj]
        exact hs.home m hm
    · exact hs.home m hm
  · rw [hclient]
    split
    · exact hmail
    · exact hs.mail j
  · rw [hclient]
    split
    · exact hwindows
    · exact hs.windows j

/-- A client sends what is known to be right, on its first session. -/
theorem Keeps.ask (hs : Keeps host s) {i : Nat} {requests : List (Nat × ChatRequest)}
    (h : ∀ m ∈ requests, (s.client i).firstSession = some m.1 ∧ s.known.request m.1 m.2) : Keeps host (s.ask requests) := by
  have hle := s.known_ask requests
  refine ⟨hs.chat, hs.rooms, hs.own, fun m hm => ?_, fun a r hr => ?_, fun a r hr => ?_, fun a r hr => hle.answer (hs.answers a r hr),
    fun j m hm => hle.mail (hs.mail j m hm), fun j => hle.windows (hs.windows j)⟩
  · rcases List.mem_append.1 hm with hold | hnew
    · exact hs.home m hold
    · have hfirst := (h m hnew).1
      rw [hs.host_firstSession hfirst]
      exact hfirst
  · rcases List.mem_append.1 hr with hold | hnew
    · exact List.mem_append_left _ (hs.waiting a r hold)
    · exact List.mem_append_right _ (mem_ofConnection.1 hnew)
  · rcases List.mem_append.1 hr with hold | hnew
    · exact hle.request (hs.requests a r hold)
    · exact hle.request (h (a, r) (mem_ofConnection.1 hnew)).2

/-- The server handles a request that waits. -/
theorem Keeps.served (hs : Keeps host s) {a : Nat} {request : ChatRequest} {rest : List ChatRequest} {out : Handled}
    (hwaits : s.toServer a = request :: rest) (hok : s.server.chat.handle stringToUTF8 a request = .ok out) :
    Keeps host (s.served a request rest out) := by
  have hle := ChatNet.known_served hs.chat hok rest
  have hasked : (a, request) ∈ s.asked := hs.waiting a request (hwaits ▸ List.mem_cons_self)
  have hrest : ∀ b, ∀ r ∈ (s.served a request rest out).toServer b, r ∈ s.toServer b := fun b r => mem_of_mem_rest hwaits
  have hchat : ChatInv (s.served a request rest out).server :=
    ChatInv.step (l := (a, request)) hs.chat (chatStep_eq_some.2 ⟨out, hok, rfl⟩)
  refine ⟨hchat, hs.rooms.handle hok, hs.own, hs.home,
    fun b r hr => hs.waiting b r (hrest b r hr), fun b r hr => hle.request (hs.requests b r (hrest b r hr)), fun b r hr => ?_,
    fun j m hm => hle.mail (hs.mail j m hm), fun j => hle.windows (hs.windows j)⟩
  rcases List.mem_append.1 hr with hold | hnew
  · exact hle.answer (hs.answers b r hold)
  · have htells := handle_tells hs.chat hs.rooms hok rfl (b, r) (mem_ofConnection.1 hnew)
    cases r with
    | LoginAck success userID =>
      obtain ⟨rfl, hplayer⟩ := htells
      exact ⟨⟨request, hasked⟩, hplayer⟩
    | EnterChatRoomAck roomID roomName =>
      obtain ⟨rfl, hin⟩ := htells
      exact ⟨⟨request, hasked⟩, hin⟩
    | ChatRoomListAck success chatroomInfo => exact htells
    | ChatAck | DummyPacketAck => exact trivial

/-- A packet worker takes an answer out of the connection. -/
theorem Keeps.taken (hs : Keeps host s) {a : Nat} {answer : ChatAnswer} {rest : List ChatAnswer}
    (hwaits : s.toClient a = answer :: rest) : Keeps host (s.taken a answer rest) := by
  refine ⟨hs.chat, hs.rooms, hs.own, hs.home, hs.waiting, hs.requests, fun b r hr => ?_, hs.mail, hs.windows⟩
  exact hs.answers b r (mem_of_mem_rest hwaits hr)

/-- The handler of an answer; one that concerns the windows came on the first session. -/
theorem Keeps.handle (hs : Keeps host s) {a : Nat} {answer : ChatAnswer} (hanswer : s.known.answer a answer) :
    Keeps host (s.setClient (host a) ((s.client (host a)).handle W answer)) := by
  have hmail : ∀ m ∈ answer.mail, s.known.mail (s.client (host a)).firstSession m := by
    cases answer with
    | LoginAck | EnterChatRoomAck =>
      obtain ⟨⟨r, hr⟩, -⟩ := id hanswer
      exact Known.answer_mail hanswer (hs.home _ hr)
    | ChatRoomListAck | ChatAck =>
      intro m hm
      rw [List.mem_singleton.1 hm]
      exact hanswer
    | DummyPacketAck => nofun
  obtain ⟨hui, hmem⟩ := handle_spec_view W (s.client (host a)) answer
  refine hs.setClient (fun k b hk => hs.own _ k b ?_) (Or.inr (congrArg ClientUi.firstSession hui)) (fun m hm => ?_) ?_
  · rwa [hui] at hk
  · rw [hui]
    rcases hmem m hm with hold | hnew
    · exact hs.mail _ m hold
    · exact hmail m hnew
  · rw [hui]
    exact hs.windows _

/-- `OnConnected` gives a client a first session only when it has sent nothing, so that nothing it has is about a first session. -/
theorem Keeps.onConnected (hs : Keeps host s) {a : Nat} {uid : Int}
    (hfirst : (∀ m ∈ s.asked, host m.1 ≠ host a) ∨
      ((s.client (host a)).toClientUi.register a uid).firstSession = (s.client (host a)).firstSession) :
    Keeps host (s.setClient (host a) ((viewOps W).onConnected (s.client (host a)) a uid)) := by
  obtain ⟨hui, hmem⟩ := post_spec_view W
    { s.client (host a) with toClientUi := (s.client (host a)).toClientUi.register a uid } .connected
  have hchange : s.known.Unused (s.client (host a)).firstSession ∨
      ((s.client (host a)).toClientUi.register a uid).firstSession = (s.client (host a)).firstSession := by
    refine hfirst.imp_left fun hnone b hb => ?_
    have hnever : ¬∃ r, (b, r) ∈ s.asked := fun ⟨r, hr⟩ => hnone _ hr (hs.host_firstSession hb)
    exact ⟨fun h => hnever h.1, fun h => hnever h.1⟩
  refine hs.setClient (fun k b hk => ?_) (hfirst.imp_right fun h => (congrArg ClientUi.firstSession hui).trans h)
    (fun m hm => ?_) ?_
  · have hk' : ((s.client (host a)).sessions.insertIfNew uid a)[k]? = some b := by
      rw [← hk]
      exact congrArg (fun u : ClientUi => u.sessions[k]?) hui.symm
    rw [Std.TreeMap.getElem?_insertIfNew] at hk'
    split at hk'
    · rw [Option.some.inj hk']
    · exact hs.own _ k b hk'
  · refine Known.mail_change (hchange.imp_right fun h => (congrArg ClientUi.firstSession hui).trans h) ?_
    rcases hmem m hm with hold | rfl
    · exact hs.mail _ m hold
    · exact trivial
  · exact (congrArg s.known.windows hui).mpr (Known.windows_change hchange rfl rfl (hs.windows _))

/-- The windows open some mail. -/
theorem Keeps.dispatch (hs : Keeps host s) {i : Nat} {localTime : String} {v : ClientView} {requests : List (Nat × ChatRequest)}
    (hdoes : (s.client i).dispatch W localTime = some (v, requests)) : Keeps host ((s.setClient i v).ask requests) := by
  unfold ClientView.dispatch at hdoes
  split at hdoes
  · cases hdoes
  · rename_i mail rest hinbox
    have hmail : ∀ m ∈ mail :: rest, s.known.mail (s.client i).firstSession m := hinbox ▸ hs.mail i
    obtain ⟨hwindows, hsessions, hafter, hrequests⟩ := openMail_spec (v := { s.client i with inbox := rest }) (hs.windows i)
      (fun m hm => hmail m (List.mem_cons_of_mem mail hm)) (hmail mail List.mem_cons_self) (Option.some.inj hdoes)
    have hfirst : v.firstSession = (s.client i).firstSession := by rw [ClientUi.firstSession, hsessions]; rfl
    have hset : Keeps host (s.setClient i v) := by
      refine hs.setClient (fun k b hk => hs.own i k b ?_) (Or.inr hfirst) (hfirst ▸ hafter) hwindows
      rwa [hsessions] at hk
    refine hset.ask (i := i) fun m hm => ⟨?_, (hrequests m hm).2⟩
    rw [setClient_self, hfirst]
    exact (hrequests m hm).1

/-- The user does something. -/
theorem Keeps.act (hs : Keeps host s) {i : Nat} {action : UserAction} {u : ClientUi} {requests : List (Nat × ChatRequest)}
    (hdoes : (s.client i).toClientUi.act action = some (u, requests)) :
    Keeps host ((s.setClient i { s.client i with toClientUi := u }).ask requests) := by
  have hroom : ∀ k, s.known.room k → k < 65536 := by
    intro k hk
    obtain ⟨room, hroom⟩ := Option.isSome_iff_exists.1 hk
    exact (hs.chat.rooms k room hroom).1
  obtain ⟨hwindows, hsessions, hrequests⟩ := act_spec (hs.windows i) hroom hdoes
  have hfirst : u.firstSession = (s.client i).firstSession := by rw [ClientUi.firstSession, hsessions]; rfl
  have hset : Keeps host (s.setClient i { s.client i with toClientUi := u }) := by
    refine hs.setClient (fun k b hk => hs.own i k b ?_) (Or.inr hfirst) (hfirst ▸ hs.mail i) hwindows
    exact hsessions ▸ hk
  refine hset.ask (i := i) fun m hm => ⟨?_, (hrequests m hm).2⟩
  rw [setClient_self]
  exact hfirst.trans (hrequests m hm).1

/-- Every step keeps it, if no client gets another first session after it has sent something. -/
theorem Keeps.step (hs : Keeps host s) {t : ChatNet ClientView} {l : ChatNetStep}
    (hsettled : Settled ClientView.toClientUi host s l)
    (hstep : chatNetStep (viewOps W) stringToUTF8 host s l = some t) : Keeps host t := by
  cases netMoves_iff.1 hstep with
  | @connect a hstage =>
    refine hs.setClient (hs.own _) (Or.inr rfl) (hs.mail _) ?_
    exact Known.windows_change (u := (s.client (host a)).toClientUi) (Or.inr rfl) rfl rfl (hs.windows (host a))
  | @onConnected a uid hstage =>
    have huid : ((s.client (host a)).stage a).uid = uid := congrArg ClientStage.uid hstage
    exact hs.onConnected (huid ▸ hsettled)
  | serve hwaits hok => exact hs.served hwaits hok
  | @receive a uid answer rest hstage hwaits =>
    exact (hs.taken hwaits).handle (hs.answers a answer (hwaits ▸ List.mem_cons_self))
  | dispatch hdoes => exact hs.dispatch hdoes
  | @user i action v requests hdoes =>
    obtain ⟨⟨u, rs⟩, hu, hr⟩ := Option.map_eq_some_iff.1 hdoes
    obtain ⟨rfl, rfl⟩ := Prod.mk.inj hr
    exact hs.act hu

end

/-- In every run of the server and its clients in which no client gets another first session after it has sent something. -/
theorem chatNet_run_keeps {W : ClientPlatform} {stringToUTF8 : String → String} {uid : Nat → Int} {host : Nat → Nat}
    {ls : List ChatNetStep} {s : ChatNet Client}
    (h : (chatNet W stringToUTF8 uid host).run (chatNet W stringToUTF8 uid host).init ls = some s)
    (hsettled : (chatNet W stringToUTF8 uid host).Meets (Settled Client.toClientUi host)
      (chatNet W stringToUTF8 uid host).init ls) : Keeps host (s.map Client.view) := by
  have hinit : (∀ i, ((chatNet W stringToUTF8 uid host).init.client i).Tidy) ∧
      Keeps host ((chatNet W stringToUTF8 uid host).init.map Client.view) :=
    ⟨fun _ => Client.tidy_init, @keeps_init host W stringToUTF8 uid⟩
  refine ((chatNet W stringToUTF8 uid host).meets_invariant
    (I := fun s => (∀ i, (s.client i).Tidy) ∧ Keeps host (s.map Client.view)) (fun s l t hl hs hstep => ?_) hinit hsettled h).2
  obtain ⟨htidy, hview⟩ := (clientOps_mapsTo W).step hs.1 hstep
  refine ⟨htidy, hs.2.step ?_ hview⟩
  cases l with
  | onConnected a => exact hl
  | connect | serve | receive | dispatch | user => trivial

end ProjectYJ
