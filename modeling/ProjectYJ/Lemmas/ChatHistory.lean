import ProjectYJ.Lemmas.ChatSystem

/-!
# What the answers of the server go back to

The net of `ChatSystem` records what was asked and what was sent. `Recorded` is what the records say in every run, whatever the
clients are: nobody is answered who asked nothing; a chat message that is sent was asked for on a connection that logged in under the
name of the sender, and goes to a connection that asked to enter a room or to create one; and the last entry that a connection was
told of is the room its player entered last.
-/

namespace ProjectYJ

open ChatState

/-! ## What a handler does -/

/-- A request to enter a room or to create one. -/
def ChatRequest.joins : ChatRequest → Bool
  | .EnterChatRoomReq _ | .CreateChatRoomReq _ => true
  | _ => false

/-- The chat message of an answer. -/
def ChatAnswer.message? : ChatAnswer → Option (String × String)
  | .ChatAck sender message => some (sender, message)
  | _ => none

/-- The room of an answer. -/
def ChatAnswer.entered? : ChatAnswer → Option String
  | .EnterChatRoomAck _ roomName => some roomName
  | _ => none

/-- What a request does to the state, and what it sends. -/
inductive HandledAs (stringToUTF8 : String → String) (s : ChatState) (a : Nat) : ChatRequest → Handled → Prop where
  | enter {roomID player room out} (hplayer : s.player0 a = some player) (hroom : s.getRoom (toUInt16 roomID) = some room)
      (hstate : out.state = (s.setChatRoomID player (toUInt16 roomID)).enter room player)
      (hsends : out.sends = [(a, .EnterChatRoomAck (s.chatRoom room).roomID (s.chatRoom room).roomName)]) :
      HandledAs stringToUTF8 s a (.EnterChatRoomReq roomID) out
  | login {id password out} (hnew : NewOwner s out.state a) (hname : (out.state.player s.playersMade).name = id)
      (hrooms : out.state.chatRoom = s.chatRoom) (hsends : out.sends = [(a, .LoginAck true id)]) :
      HandledAs stringToUTF8 s a (.LoginReq id password) out
  | create {roomName player out} (hplayer : s.player0 a = some player)
      (hstate : out.state =
        ((s.createRoom stringToUTF8 roomName 10).enter s.roomsMade player).setChatRoomID player s.nextRoomNumber)
      (hsends : out.sends = [(a, .EnterChatRoomAck s.nextRoomNumber roomName)]) :
      HandledAs stringToUTF8 s a (.CreateChatRoomReq roomName) out
  | chat {sessionUID message roomID player room out} (hplayer : s.player0 a = some player)
      (hroom : s.getRoom (s.player player).chatRoomID = some room) (hstate : out.state = s)
      (hsends : out.sends = s.broadCast room (.ChatAck (s.player player).name message)) :
      HandledAs stringToUTF8 s a (.ChatReq sessionUID message roomID) out
  | other {request out} (hstays : ∀ r : ChatRun, r.destination request = none) (hstate : out.state = s)
      (hsends : ∀ m ∈ out.sends, m.1 = a ∧ m.2.message? = none ∧ m.2.entered? = none) : HandledAs stringToUTF8 s a request out

section

variable {stringToUTF8 : String → String} {s : ChatState} {a : Nat} {request : ChatRequest} {out : Handled}

theorem handledAs (h : s.handle stringToUTF8 a request = .ok out) : HandledAs stringToUTF8 s a request out := by
  cases request with
  | EnterChatRoomReq roomID =>
    obtain ⟨player, hplayer, h⟩ := except_of_bind h
    obtain ⟨room, hroom, h⟩ := except_of_bind h
    cases h
    refine .enter (readPlayer_eq_ok.1 hplayer) (derefRoom_eq_ok.1 hroom) rfl ?_
    rw [enter_roomID, enter_roomName]
    rfl
  | LoginReq id password =>
    rcases handle_owners h with ⟨-, hnew⟩ | ⟨hno, -⟩
    · cases h
      exact .login hnew (by simp) rfl rfl
    · exact absurd rfl (hno id password)
  | ChatRoomListReq success =>
    cases h
    exact .other (fun _ => rfl) rfl (by simp [ChatAnswer.message?, ChatAnswer.entered?])
  | CreateChatRoomReq roomName =>
    obtain ⟨player, hplayer, h⟩ := except_of_bind h
    cases h
    refine .create (readPlayer_eq_ok.1 hplayer) ?_ ?_
    · rw [createRoom_roomID]
    · rw [createRoom_roomID]
  | RefreshChatRoomReq =>
    cases h
    exact .other (fun _ => rfl) rfl nofun
  | ChatReq sessionUID message roomID =>
    obtain ⟨player, room, hplayer, hroom, hstate, hsends⟩ := handleChatReq_ok h
    exact .chat hplayer hroom hstate hsends
  | DummyPacketReq message =>
    cases h
    exact .other (fun _ => rfl) rfl (by simp [ChatAnswer.message?, ChatAnswer.entered?])

theorem setChatRoomID_keepsName (player roomID q : Nat) : ((s.setChatRoomID player roomID).player q).name = (s.player q).name := by
  by_cases hq : q = player
  · subst hq
    simp [setChatRoomID]
  · simp [setChatRoomID, hq]

/-- The first player of a session stays its first. -/
theorem handle_player0 (h : s.handle stringToUTF8 a request = .ok out) {b p : Nat} (hp : s.player0 b = some p) :
    out.state.player0 b = some p := by
  rcases handle_owners h with ⟨-, hnew⟩ | ⟨-, hsame⟩
  · rw [player0, hnew.players, List.head?_append]
    rw [player0] at hp
    rw [hp]
    rfl
  · rw [player0, hsame.session]
    exact hp

/-- No request changes the name of a player. -/
theorem handle_name (h : s.handle stringToUTF8 a request = .ok out) {p : Nat} (hp : p < s.playersMade) :
    (out.state.player p).name = (s.player p).name := by
  cases handledAs h with
  | enter hplayer hroom hstate hsends =>
    rw [hstate]
    exact setChatRoomID_keepsName _ _ p
  | login hnew hname hrooms hsends => rw [hnew.player p hp]
  | create hplayer hstate hsends =>
    rw [hstate]
    exact setChatRoomID_keepsName _ _ p
  | chat hplayer hroom hstate hsends | other hstays hstate hsends => rw [hstate]

/-- No request changes the name of a room. -/
theorem handle_keepsRoomName (h : s.handle stringToUTF8 a request = .ok out) {x : Nat} (hx : x < s.roomsMade) :
    (out.state.chatRoom x).roomName = (s.chatRoom x).roomName := by
  cases handledAs h with
  | enter hplayer hroom hstate hsends =>
    rw [hstate]
    exact enter_roomName _ _ x
  | login hnew hname hrooms hsends => rw [hrooms]
  | create hplayer hstate hsends =>
    rw [hstate]
    exact (enter_roomName _ _ x).trans (congrArg ChatRoom.roomName (Function.update_of_ne (Nat.ne_of_lt hx) ..))
  | chat hplayer hroom hstate hsends | other hstays hstate hsends => rw [hstate]

/-- Only such a request brings somebody into a room, the player of its session. -/
theorem handle_members (h : s.handle stringToUTF8 a request = .ok out) {x p : Nat} (hp : p ∈ out.state.members x) :
    p ∈ s.members x ∨ (request.joins = true ∧ s.player0 a = some p) := by
  cases handledAs h with
  | enter hplayer hroom hstate hsends =>
    rw [hstate] at hp
    rcases mem_enter hp with hold | rfl
    · exact Or.inl hold
    · exact Or.inr ⟨rfl, hplayer⟩
  | login hnew hname hrooms hsends => exact Or.inl (hnew.members x ▸ hp)
  | create hplayer hstate hsends =>
    rw [hstate, setChatRoomID_members] at hp
    rcases mem_enter hp with hold | rfl
    · exact Or.inl (mem_createRoom hold)
    · exact Or.inr ⟨rfl, hplayer⟩
  | chat hplayer hroom hstate hsends | other hstays hstate hsends => exact Or.inl (hstate ▸ hp)

end

/-! ## The records -/

section

variable {κ : Type}

/-- Somebody logged in under the name and asked for the message to be sent. -/
def Said (asked : List (Nat × ChatRequest)) (sender text : String) : Prop :=
  ∃ b password sessionUID roomID,
    (b, ChatRequest.LoginReq sender password) ∈ asked ∧ (b, ChatRequest.ChatReq sessionUID text roomID) ∈ asked

/-- The connection asked to enter a room or to create one. -/
def AskedToJoin (asked : List (Nat × ChatRequest)) (a : Nat) : Prop := ∃ r : ChatRequest, r.joins = true ∧ (a, r) ∈ asked

/-- The name of the room that the server last told a connection it had entered. -/
def ChatNet.lastEntered (s : ChatNet κ) (a : Nat) : Option String :=
  ((ofConnection a s.sent).filterMap ChatAnswer.entered?).getLast?

/-- The last entry that a connection was told of is the room its player entered last: under the name of the room, or under the one
that the user gave it. -/
def EnteredLast (stringToUTF8 : String → String) (s : ChatNet κ) (a : Nat) : Prop :=
  (s.lastEntered a = none ∧ ∀ p, s.server.chat.player0 a = some p → s.server.lastRoom p = none) ∨
    ∃ p x name, s.server.chat.player0 a = some p ∧ s.server.lastRoom p = some x ∧ s.lastEntered a = some name ∧
      ((s.server.chat.chatRoom x).roomName = name ∨ (s.server.chat.chatRoom x).roomName = stringToUTF8 name)

/-- What the records say. -/
structure Recorded (stringToUTF8 : String → String) (s : ChatNet κ) : Prop where
  chat : ChatInv s.server
  owners : OwnerInv s.server.chat
  waiting : ∀ a, ∀ r ∈ s.toServer a, (a, r) ∈ s.asked
  names : ∀ p < s.server.chat.playersMade, ∃ password,
    ((s.server.chat.player p).ownerSession, ChatRequest.LoginReq (s.server.chat.player p).name password) ∈ s.asked
  joined : ∀ x, ∀ p ∈ s.server.chat.members x, AskedToJoin s.asked (s.server.chat.player p).ownerSession
  answered : ∀ m ∈ s.sent, ∃ r, (m.1, r) ∈ s.asked
  messages : ∀ a sender text, (a, ChatAnswer.ChatAck sender text) ∈ s.sent → AskedToJoin s.asked a ∧ Said s.asked sender text
  entered : ∀ a, EnteredLast stringToUTF8 s a
  members : ∀ x, ∀ p ∈ s.server.chat.members x, ∃ y, s.server.lastRoom p = some y

variable {stringToUTF8 : String → String} {s t : ChatNet κ}

theorem Said.mono {asked asked' : List (Nat × ChatRequest)} (hsub : ∀ m ∈ asked, m ∈ asked') {sender text : String}
    (h : Said asked sender text) : Said asked' sender text := by
  obtain ⟨b, password, sessionUID, roomID, hlogin, hchat⟩ := h
  exact ⟨b, password, sessionUID, roomID, hsub _ hlogin, hsub _ hchat⟩

theorem AskedToJoin.mono {asked asked' : List (Nat × ChatRequest)} (hsub : ∀ m ∈ asked, m ∈ asked') {a : Nat}
    (h : AskedToJoin asked a) : AskedToJoin asked' a := by
  obtain ⟨r, hr, hmem⟩ := h
  exact ⟨r, hr, hsub _ hmem⟩

/-- Clients may change. -/
theorem Recorded.setClient (hs : Recorded stringToUTF8 s) (i : Nat) (c : κ) : Recorded stringToUTF8 (s.setClient i c) :=
  ⟨hs.chat, hs.owners, hs.waiting, hs.names, hs.joined, hs.answered, hs.messages, hs.entered, hs.members⟩

/-- An answer is taken. -/
theorem Recorded.taken (hs : Recorded stringToUTF8 s) (a : Nat) (answer : ChatAnswer) (rest : List ChatAnswer) :
    Recorded stringToUTF8 (s.taken a answer rest) :=
  ⟨hs.chat, hs.owners, hs.waiting, hs.names, hs.joined, hs.answered, hs.messages, hs.entered, hs.members⟩

/-- Something is asked. -/
theorem Recorded.ask (hs : Recorded stringToUTF8 s) (requests : List (Nat × ChatRequest)) :
    Recorded stringToUTF8 (s.ask requests) := by
  have hsub : ∀ m ∈ s.asked, m ∈ (s.ask requests).asked := fun m hm => List.mem_append_left requests hm
  refine ⟨hs.chat, hs.owners, fun a r hr => ?_, fun p hp => (hs.names p hp).imp fun _ h => hsub _ h,
    fun x p hp => (hs.joined x p hp).mono hsub, fun m hm => (hs.answered m hm).imp fun _ h => hsub _ h,
    fun a sender text hm => (hs.messages a sender text hm).imp (AskedToJoin.mono hsub) (Said.mono hsub), hs.entered,
    hs.members⟩
  rcases List.mem_append.1 hr with hold | hnew
  · exact hsub _ (hs.waiting a r hold)
  · exact List.mem_append_right _ (mem_ofConnection.1 hnew)

/-- A connection whose player enters nothing is told of no entry. -/
theorem EnteredLast.keep {a : Nat} (h : EnteredLast stringToUTF8 s a) (hlast : t.lastEntered a = s.lastEntered a)
    (hplayer : ∀ p, s.server.chat.player0 a = some p → t.server.chat.player0 a = some p ∧ t.server.lastRoom p = s.server.lastRoom p)
    (hnew : s.server.chat.player0 a = none → ∀ p, t.server.chat.player0 a = some p → t.server.lastRoom p = none)
    (hname : ∀ p x, s.server.lastRoom p = some x →
      (t.server.chat.chatRoom x).roomName = (s.server.chat.chatRoom x).roomName) : EnteredLast stringToUTF8 t a := by
  rcases h with ⟨hnone, hroom⟩ | ⟨p, x, name, hp, hx, hentered, hnamed⟩
  · refine Or.inl ⟨hlast.trans hnone, fun q hq => ?_⟩
    rcases hp : s.server.chat.player0 a with _ | p
    · exact hnew hp q hq
    · obtain ⟨hq', hroom'⟩ := hplayer p hp
      obtain rfl : p = q := Option.some.inj (hq'.symm.trans hq)
      exact hroom'.trans (hroom p hp)
  · obtain ⟨hp', hx'⟩ := hplayer p hp
    refine Or.inr ⟨p, x, name, hp', hx'.trans hx, hlast.trans hentered, ?_⟩
    rw [hname p x hx]
    exact hnamed

/-- What a room is that somebody entered was made. -/
theorem Recorded.lastRoom_lt (hs : Recorded stringToUTF8 s) {p x : Nat} (h : s.server.lastRoom p = some x) :
    x < s.server.chat.roomsMade := by
  by_contra hx
  have hmem := hs.chat.last p x h
  rw [hs.chat.unmade x (Nat.le_of_not_lt hx)] at hmem
  cases hmem

/-- The player of another session is another player. -/
theorem Recorded.player0_ne (hs : Recorded stringToUTF8 s) {a b p q : Nat} (hp : s.server.chat.player0 a = some p)
    (hq : s.server.chat.player0 b = some q) (hab : b ≠ a) : q ≠ p := by
  rintro rfl
  refine hab ?_
  rw [← (hs.owners.owned a q (List.mem_of_mem_head? hp)).2]
  exact (hs.owners.owned b q (List.mem_of_mem_head? hq)).2.symm

/-- After the answers of a request, those to a connection. -/
theorem lastEntered_served {a : Nat} {request : ChatRequest} {rest : List ChatRequest} {out : Handled} (b : Nat) :
    (s.served a request rest out).lastEntered b =
      (((ofConnection b s.sent).filterMap ChatAnswer.entered?) ++ (ofConnection b out.sends).filterMap ChatAnswer.entered?).getLast? := by
  simp only [ChatNet.lastEntered, ChatNet.served, ofConnection_append, List.filterMap_append]

/-- Nobody new has entered anything. -/
theorem Recorded.lastRoom_new (hs : Recorded stringToUTF8 s) {p : Nat} (hp : s.server.chat.playersMade ≤ p) :
    s.server.lastRoom p = none := by
  rcases h : s.server.lastRoom p with _ | x
  · rfl
  · exact absurd (hs.chat.listed x p (hs.chat.last p x h)).1 (Nat.not_lt.2 hp)

/-- A request that brings nobody into a room. -/
theorem Recorded.entered_stays (hs : Recorded stringToUTF8 s) {a : Nat} {request : ChatRequest} {rest : List ChatRequest}
    {out : Handled} (hok : s.server.chat.handle stringToUTF8 a request = .ok out)
    (hstays : s.server.destination request = none) (hsends : ∀ m ∈ out.sends, m.2.entered? = none) (b : Nat) :
    EnteredLast stringToUTF8 (s.served a request rest out) b := by
  have hlastRoom : (s.served a request rest out).server.lastRoom = s.server.lastRoom := lastRoomAfter_of_none a hstays
  have hnone : (ofConnection b out.sends).filterMap ChatAnswer.entered? = [] :=
    List.filterMap_eq_nil_iff.2 fun m hm => hsends (b, m) (mem_ofConnection.1 hm)
  refine (hs.entered b).keep ?_ (fun p hp => ⟨handle_player0 hok hp, congrFun hlastRoom p⟩) (fun hb p hp => ?_)
    (fun p x hx => handle_keepsRoomName hok (hs.lastRoom_lt hx))
  · rw [lastEntered_served, hnone, List.append_nil]
    rfl
  · rw [hlastRoom]
    rcases handle_owners hok with ⟨-, hnew⟩ | ⟨-, hsame⟩
    · have hmem : p ∈ (out.state.session b).players := List.mem_of_mem_head? hp
      rw [hnew.players, List.head?_eq_none_iff.1 hb] at hmem
      split at hmem
      · rw [List.mem_singleton.1 hmem]
        exact hs.lastRoom_new (Nat.le_refl _)
      · cases hmem
    · have hp' : s.server.chat.player0 b = some p := by rw [player0, ← hsame.session]; exact hp
      rw [hb] at hp'
      cases hp'

/-- A request that brings the player of its session into a room, and tells the session so. -/
theorem Recorded.entered_joins (hs : Recorded stringToUTF8 s) {a player x k : Nat} {name : String} {request : ChatRequest}
    {rest : List ChatRequest} {out : Handled} (hok : s.server.chat.handle stringToUTF8 a request = .ok out)
    (hplayer : s.server.chat.player0 a = some player) (hroom : s.server.destination request = some x)
    (hsession : out.state.session = s.server.chat.session) (hsends : out.sends = [(a, .EnterChatRoomAck k name)])
    (hname : (out.state.chatRoom x).roomName = name ∨ (out.state.chatRoom x).roomName = stringToUTF8 name) (b : Nat) :
    EnteredLast stringToUTF8 (s.served a request rest out) b := by
  have hlastRoom : (s.served a request rest out).server.lastRoom = Function.update s.server.lastRoom player (some x) := by
    simp only [ChatNet.served, ChatRun.lastRoomAfter, hplayer, hroom]
  by_cases hb : b = a
  · subst hb
    refine Or.inr ⟨player, x, name, handle_player0 hok hplayer, ?_, ?_, hname⟩
    · rw [hlastRoom, Function.update_self]
    · rw [lastEntered_served, hsends, ofConnection_singleton, if_pos rfl]
      exact List.getLast?_concat
  · refine (hs.entered b).keep ?_ (fun p hp => ⟨handle_player0 hok hp, ?_⟩) (fun hnone p hp => ?_)
      (fun p y hy => handle_keepsRoomName hok (hs.lastRoom_lt hy))
    · rw [lastEntered_served, hsends, ofConnection_singleton, if_neg (Ne.symm hb), List.filterMap_nil, List.append_nil]
      rfl
    · rw [hlastRoom, Function.update_of_ne (hs.player0_ne hplayer hp hb)]
    · have hp' : s.server.chat.player0 b = some p := by rw [player0, ← hsession]; exact hp
      rw [hnone] at hp'
      cases hp'

/-- A request that is handled. -/
theorem Recorded.entered_served (hs : Recorded stringToUTF8 s) {a : Nat} {request : ChatRequest} {rest : List ChatRequest}
    {out : Handled} (hok : s.server.chat.handle stringToUTF8 a request = .ok out) (b : Nat) :
    EnteredLast stringToUTF8 (s.served a request rest out) b := by
  cases handledAs hok with
  | enter hplayer hroom hstate hsends =>
    refine hs.entered_joins hok hplayer hroom (by rw [hstate]; rfl) hsends (Or.inl ?_) b
    exact handle_keepsRoomName hok (hs.chat.rooms _ _ hroom).2
  | login hnew hname hrooms hsends =>
    refine hs.entered_stays hok rfl (fun m hm => ?_) b
    rw [hsends] at hm
    rw [List.mem_singleton.1 hm]
    rfl
  | create hplayer hstate hsends =>
    refine hs.entered_joins hok hplayer rfl (by rw [hstate]; rfl) hsends (Or.inr ?_) b
    rw [hstate]
    exact (enter_roomName _ _ _).trans (by simp [createRoom])
  | chat hplayer hroom hstate hsends =>
    refine hs.entered_stays hok rfl (fun m hm => ?_) b
    rw [hsends] at hm
    obtain ⟨_, -, rfl⟩ := List.mem_map.1 hm
    rfl
  | other hstays hstate hsends => exact hs.entered_stays hok (hstays s.server) (fun m hm => (hsends m hm).2.2) b

/-- A new player has the name and the session of its login. -/
theorem handle_newName {s : ChatState} {asked : List (Nat × ChatRequest)} {a : Nat} {request : ChatRequest} {out : Handled}
    (hok : s.handle stringToUTF8 a request = .ok out) (hasked : (a, request) ∈ asked) {p : Nat} (hp : p < out.state.playersMade)
    (hnew : s.playersMade ≤ p) :
    ∃ password, ((out.state.player p).ownerSession, ChatRequest.LoginReq (out.state.player p).name password) ∈ asked := by
  cases handledAs hok with
  | @login id password _ hnewOwner hname hrooms hsends =>
    rw [hnewOwner.playersMade] at hp
    obtain rfl : p = s.playersMade := Nat.le_antisymm (Nat.le_of_lt_succ hp) hnew
    rw [hname, hnewOwner.new]
    exact ⟨password, hasked⟩
  | enter hplayer hroom hstate hsends | create hplayer hstate hsends | chat hplayer hroom hstate hsends
  | other hstays hstate hsends =>
    rw [hstate] at hp
    exact absurd hp (Nat.not_lt.2 hnew)

/-- A chat message that is sent was asked for by the player in whose name it is, and goes to somebody in a room. -/
theorem Recorded.said (hs : Recorded stringToUTF8 s) {a : Nat} {request : ChatRequest} {out : Handled}
    (hok : s.server.chat.handle stringToUTF8 a request = .ok out) (hasked : (a, request) ∈ s.asked) {b : Nat} {sender text : String}
    (hm : (b, ChatAnswer.ChatAck sender text) ∈ out.sends) : AskedToJoin s.asked b ∧ Said s.asked sender text := by
  cases handledAs hok with
  | enter hplayer hroom hstate hsends | login hnew hname hrooms hsends | create hplayer hstate hsends =>
    rw [hsends] at hm
    cases List.mem_singleton.1 hm
  | @chat sessionUID message roomID player room _ hplayer hroom hstate hsends =>
    rw [hsends] at hm
    obtain ⟨p, hp, heq⟩ := List.mem_map.1 hm
    obtain ⟨rfl, hack⟩ := Prod.mk.inj heq
    obtain ⟨rfl, rfl⟩ := ChatAnswer.ChatAck.inj hack
    obtain ⟨hlt, hown⟩ := hs.owners.owned a player (List.mem_of_mem_head? hplayer)
    obtain ⟨password, hlogin⟩ := hs.names player hlt
    exact ⟨hs.joined room p hp, a, password, sessionUID, roomID, hown ▸ hlogin, hasked⟩
  | other hstays hstate hsends => cases (hsends _ hm).2.1

/-- Whoever has entered a room keeps a room that it entered last. -/
theorem lastRoomAfter_some {s : ChatRun} (a : Nat) (request : ChatRequest) {p y : Nat} (h : s.lastRoom p = some y) :
    ∃ z, s.lastRoomAfter a request p = some z := by
  rcases hroom : s.destination request with _ | room
  · exact ⟨y, by rw [lastRoomAfter_of_none a hroom, h]⟩
  · rcases hplayer : s.chat.player0 a with _ | player
    · exact ⟨y, by simp only [ChatRun.lastRoomAfter, hplayer, h]⟩
    · simp only [ChatRun.lastRoomAfter, hplayer, hroom]
      by_cases hp : p = player
      · exact ⟨room, by rw [hp, Function.update_self]⟩
      · exact ⟨y, by rw [Function.update_of_ne hp, h]⟩

/-- A request that brings the player of its session into a room leaves it a room that it entered last. -/
theorem handle_lastRoom {s : ChatRun} {a : Nat} {request : ChatRequest} {out : Handled}
    (hok : s.chat.handle stringToUTF8 a request = .ok out) (hjoins : request.joins = true) {p : Nat}
    (hp : s.chat.player0 a = some p) : ∃ z, s.lastRoomAfter a request p = some z := by
  have hroom : ∃ room, s.destination request = some room := by
    cases handledAs hok with
    | enter hplayer hroom hstate hsends => exact ⟨_, hroom⟩
    | create hplayer hstate hsends => exact ⟨_, rfl⟩
    | login hnew hname hrooms hsends | chat hplayer hroom hstate hsends => cases hjoins
    | other hstays hstate hsends =>
      cases request with
      | CreateChatRoomReq => exact ⟨_, rfl⟩
      | EnterChatRoomReq =>
        obtain ⟨_, room, -, hroom, -⟩ := handleEnterChatRoomReq_ok hok
        exact ⟨room, hroom⟩
      | LoginReq | ChatRoomListReq | RefreshChatRoomReq | ChatReq | DummyPacketReq => cases hjoins
  obtain ⟨room, hroom⟩ := hroom
  exact ⟨room, by simp only [ChatRun.lastRoomAfter, hp, hroom, Function.update_self]⟩

/-- The server handles a request that waits. -/
theorem Recorded.served (hs : Recorded stringToUTF8 s) {a : Nat} {request : ChatRequest} {rest : List ChatRequest}
    {out : Handled} (hwaits : s.toServer a = request :: rest) (hok : s.server.chat.handle stringToUTF8 a request = .ok out) :
    Recorded stringToUTF8 (s.served a request rest out) := by
  have hasked : (a, request) ∈ s.asked := hs.waiting a request (hwaits ▸ List.mem_cons_self)
  have hchat : ChatInv (s.served a request rest out).server :=
    ChatInv.step (l := (a, request)) hs.chat (chatStep_eq_some.2 ⟨out, hok, rfl⟩)
  have howner : ∀ p < s.server.chat.playersMade, (out.state.player p).ownerSession = (s.server.chat.player p).ownerSession := by
    intro p hp
    rcases handle_owners hok with ⟨-, hnew⟩ | ⟨-, hsame⟩
    · rw [hnew.player p hp]
    · exact hsame.owner p
  refine ⟨hchat, hs.owners.handle hok, fun b r hr => hs.waiting b r (mem_of_mem_rest hwaits hr), fun p hp => ?_,
    fun x p hp => ?_, fun m hm => ?_, fun b sender text hm => ?_, hs.entered_served hok,
    fun x p hp => ?_⟩
  · -- a player that was there has its name and its owner, and a new one has those of its login
    by_cases hold : p < s.server.chat.playersMade
    · show ∃ password, ((out.state.player p).ownerSession, ChatRequest.LoginReq (out.state.player p).name password) ∈ s.asked
      rw [howner p hold, handle_name hok hold]
      exact hs.names p hold
    · exact handle_newName hok hasked hp (Nat.le_of_not_lt hold)
  · show AskedToJoin s.asked (out.state.player p).ownerSession
    rcases handle_members hok hp with hold | ⟨hjoins, hplayer⟩
    · rw [howner p (hs.chat.listed x p hold).1]
      exact hs.joined x p hold
    · obtain ⟨hlt, hown⟩ := hs.owners.owned a p (List.mem_of_mem_head? hplayer)
      rw [howner p hlt, hown]
      exact ⟨request, hjoins, hasked⟩
  · rcases List.mem_append.1 hm with hold | hnew
    · exact hs.answered m hold
    · rcases handle_sends hok hnew with ha | ⟨x, p, hp, hown⟩
      · exact ⟨request, ha ▸ hasked⟩
      · obtain ⟨r, -, hr⟩ := hs.joined x p hp
        exact ⟨r, hown ▸ hr⟩
  · rcases List.mem_append.1 hm with hold | hnew
    · exact hs.messages b sender text hold
    · exact hs.said hok hasked hnew
  · rcases handle_members hok hp with hold | ⟨hjoins, hplayer⟩
    · obtain ⟨y, hy⟩ := hs.members x p hold
      exact lastRoomAfter_some a request hy
    · exact handle_lastRoom hok hjoins hplayer

/-- In every run, whatever the clients do. -/
theorem netOf_recorded {ops : ClientOps κ} {client : κ} {uid : Nat → Int} {host : Nat → Nat} {ls : List ChatNetStep}
    (h : (netOf ops client stringToUTF8 uid host).run (netOf ops client stringToUTF8 uid host).init ls = some s) :
    Recorded stringToUTF8 s := by
  refine (netOf ops client stringToUTF8 uid host).run_invariant (I := Recorded stringToUTF8) (fun s l t hs hstep => ?_) ?_ h
  · cases netMoves_iff.1 hstep with
    | connect hstage | onConnected hstage => exact hs.setClient _ _
    | serve hwaits hok => exact hs.served hwaits hok
    | receive hstage hwaits => exact (hs.taken _ _ _).setClient _ _
    | dispatch hdoes | user hdoes => exact (hs.setClient _ _).ask _
  · refine ⟨@ChatInv.run stringToUTF8 _ uid [] rfl, ⟨nofun, nofun, nofun⟩, nofun, nofun, nofun, nofun, nofun, fun a => ?_, nofun⟩
    exact Or.inl ⟨rfl, nofun⟩

end

end ProjectYJ
