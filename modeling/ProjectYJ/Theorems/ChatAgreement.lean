import ProjectYJ.Lemmas.ClientRequests
import ProjectYJ.Theorems.ChatWindow

/-!
# What the chat window and the server agree on

Two statements about the whole way from the keyboard of one user to the window of another. Whatever is shown in the name of a sender
was asked for on a connection that logged in under that name (`shown_messages_authentic`), in every state. And where nothing is on
its way to a client and no message was ever refused by its queue, its chat window is up to date (`window_agrees_at_rest`): it shows the
chat messages that the server sent to its player, and it is connected, with the name of the room in its title, exactly when the player
is in a room. Connections are the channels of `ChatSystem`: all that is sent arrives, in order.
-/

namespace ProjectYJ

open ChatState

section

variable {W : ClientPlatform} {stringToUTF8 : String → String} {uid : Nat → Int} {host : Nat → Nat} {ls : List ChatNetStep}
  {s : ChatNet Client}

/-- For every run and each client: there are lines that its chat window shows for the answers it has handled, and each chat message among
them was asked for by somebody who logged in under the name of the sender, and the client had asked to enter a room or to create one. -/
theorem shown_messages_authentic
    (h : (chatNet W stringToUTF8 uid host).run (chatNet W stringToUTF8 uid host).init ls = some s) (i : Nat) :
    ∃ lines : List (String × ChatLine), ShowsChat W (s.client i).view (ofClient host i s.received) lines ∧
      (s.client i).chat.listChat = lines.map (fun e => ChatWindow.stamped e.1 (e.2.text W)) ∧
        ∀ localTime sender text, (localTime, ChatLine.message sender text) ∈ lines →
          (∃ a, host a = i ∧ AskedToJoin s.asked a) ∧ Said s.asked sender text := by
  obtain ⟨lines, hshows⟩ := viewNet_showsChat (chatNet_run_view h).2 i
  have hrecorded : Recorded stringToUTF8 s := netOf_recorded h
  refine ⟨lines, hshows, hshows.listChat, fun localTime sender text hline => ?_⟩
  -- the message of the line was handled by the client, hence sent by the server
  have hshown : (sender, text) ∈ lines.filterMap fun e => e.2.message? := List.mem_filterMap.2 ⟨_, hline, rfl⟩
  have hgot := hshows.messages.1.subset (List.mem_append_left _ hshown)
  obtain ⟨answer, hanswer, hmessage⟩ := List.mem_filterMap.1 hgot
  obtain ⟨a, hhost, hreceived⟩ := mem_ofClient.1 hanswer
  have hack : answer = .ChatAck sender text := by
    cases answer with
    | ChatAck sender' text' =>
      obtain ⟨rfl, rfl⟩ := Prod.mk.inj (Option.some.inj hmessage)
      rfl
    | EnterChatRoomAck | LoginAck | ChatRoomListAck | DummyPacketAck => cases hmessage
  subst hack
  have hsent : (a, ChatAnswer.ChatAck sender text) ∈ s.sent := by
    rw [← mem_ofConnection, sent_eq_received h a]
    exact List.mem_append_left _ (mem_ofConnection.2 hreceived)
  obtain ⟨hjoin, hsaid⟩ := hrecorded.messages a sender text hsent
  exact ⟨⟨a, hhost, hjoin⟩, hsaid⟩

/-- Nothing is on its way to a client on a connection, and the client has no message waiting, and none was ever refused. -/
def AtRest (s : ChatNet Client) (i a : Nat) : Prop :=
  (s.client i).messages = [] ∧ (s.client i).refused = [] ∧ s.toClient a = []

instance (s : ChatNet Client) (i a : Nat) : Decidable (AtRest s i a) := inferInstanceAs (Decidable (_ ∧ _ ∧ _))

/-- What a client has handled came on its first session. -/
theorem received_firstSession
    (h : (chatNet W stringToUTF8 uid host).run (chatNet W stringToUTF8 uid host).init ls = some s)
    (hkeeps : Keeps host (s.map Client.view)) {i a : Nat} (hfirst : (s.client i).firstSession = some a) :
    ofClient host i s.received = ofConnection a s.received := by
  have hrecorded : Recorded stringToUTF8 s := netOf_recorded h
  refine ofClient_eq_ofConnection (hkeeps.host_firstSession hfirst) fun m hm hhost => ?_
  have hsent : m ∈ s.sent := by
    have hmem : m.2 ∈ ofConnection m.1 s.sent := by
      rw [sent_eq_received h m.1]
      exact List.mem_append_left _ (mem_ofConnection.2 hm)
    exact mem_ofConnection.1 hmem
  obtain ⟨r, hr⟩ := hrecorded.answered m hsent
  have hhome : (s.client (host m.1)).firstSession = some m.1 := hkeeps.home _ hr
  rw [hhost, hfirst] at hhome
  exact (Option.some.inj hhome).symm

/-- For every run in which no client gets another first session after it has sent something, and each client at rest: its chat window
shows the chat messages that the server sent on its session, in order; and either its player is in no room and the window is not
connected, or the window is connected and its title names the room that the player entered last, as the room is called or as its
creator called it. -/
theorem window_agrees_at_rest
    (h : (chatNet W stringToUTF8 uid host).run (chatNet W stringToUTF8 uid host).init ls = some s)
    (hsettled : (chatNet W stringToUTF8 uid host).Meets (Settled Client.toClientUi host)
      (chatNet W stringToUTF8 uid host).init ls)
    {i a : Nat} (hfirst : (s.client i).firstSession = some a) (hrest : AtRest s i a) :
    (∃ lines : List (String × ChatLine), ShowsChat W (s.client i).view (ofClient host i s.received) lines ∧
      (s.client i).chat.listChat = lines.map (fun e => ChatWindow.stamped e.1 (e.2.text W)) ∧
        lines.filterMap (fun e => e.2.message?) = (ofConnection a s.sent).filterMap ChatAnswer.message?) ∧
    (((s.client i).chat.isConnect = false ∧ ∀ p, s.server.chat.player0 a = some p → ∀ x, p ∉ s.server.chat.members x) ∨
      ((s.client i).chat.isConnect = true ∧ ∃ p x name, s.server.chat.player0 a = some p ∧ p ∈ s.server.chat.members x ∧
        s.server.lastRoom p = some x ∧ (s.client i).chat.title = W.roomTitle name ∧
          ((s.server.chat.chatRoom x).roomName = name ∨ (s.server.chat.chatRoom x).roomName = stringToUTF8 name))) := by
  obtain ⟨hmessages, hrefused, htoClient⟩ := hrest
  obtain ⟨lines, hshows⟩ := viewNet_showsChat (chatNet_run_view h).2 i
  have hrecorded : Recorded stringToUTF8 s := netOf_recorded h
  have hgot : ofClient host i s.received = ofConnection a s.sent := by
    rw [received_firstSession h (chatNet_run_keeps h hsettled) hfirst, sent_eq_received h a, htoClient, List.append_nil]
  have hinbox : (s.client i).view.inbox = [] := by rw [Client.view, hmessages]; rfl
  have hlost : (s.client i).view.lost = [] := by rw [Client.view, hrefused]; rfl
  have hshown := hshows.messages.2 hlost
  have hentered := hshows.entered.2 hlost
  have htitle : (s.client i).chat.title = _ := hshows.title
  have hisConnect : (s.client i).chat.isConnect = _ := hshows.isConnect
  simp only [ChatNet.map, hinbox, hgot, List.filterMap_nil, List.append_nil] at hshown hentered
  refine ⟨⟨lines, hshows, hshows.listChat, hshown⟩, ?_⟩
  rw [hentered] at htitle hisConnect
  rcases hrecorded.entered a with ⟨hnone, hroom⟩ | ⟨p, x, name, hp, hx, hlast, hname⟩
  · refine Or.inl ⟨?_, fun p hp x hmem => ?_⟩
    · rw [hisConnect, ← ChatNet.lastEntered, hnone]
      rfl
    · obtain ⟨y, hy⟩ := hrecorded.members x p hmem
      exact Option.some_ne_none y (hy.symm.trans (hroom p hp))
  · refine Or.inr ⟨?_, p, x, name, hp, hrecorded.chat.last p x hx, hx, ?_, hname⟩
    · rw [hisConnect, ← ChatNet.lastEntered, hlast]
      rfl
    · rw [htitle, ← ChatNet.lastEntered, hlast]
      rfl

end

/-- A user creates a room and another one enters it; both say something, and all of it has come. -/
def talking : List ChatNetStep :=
  [.connect 0, .onConnected 0, .dispatch 0 "12:00:00", .user 0 (.login "ann" "pw"), .serve 0, .receive 0, .dispatch 0 "12:00:01",
    .serve 0, .receive 0, .dispatch 0 "12:00:02", .user 0 (.create "room"), .serve 0, .receive 0, .dispatch 0 "12:00:03",
    .dispatch 0 "12:00:04", .connect 1, .onConnected 1, .dispatch 1 "12:00:05", .user 1 (.login "bob" "pw"), .serve 1, .receive 1,
    .dispatch 1 "12:00:06", .serve 1, .receive 1, .dispatch 1 "12:00:07", .user 1 (.select 0), .user 1 .enter, .user 1 (.answer true),
    .serve 1, .receive 1, .dispatch 1 "12:00:08", .dispatch 1 "12:00:09", .user 0 (.send "hello"), .user 1 (.send "hi"), .serve 1,
    .serve 0, .receive 0, .receive 0, .dispatch 0 "12:00:10", .dispatch 0 "12:00:10", .receive 1, .receive 1, .dispatch 1 "12:00:11",
    .dispatch 1 "12:00:11"]

theorem talking_run : ∃ s,
    (chatNet asciiPlatform id (fun a => a) (fun a => a)).run (chatNet asciiPlatform id (fun a => a) (fun a => a)).init talking =
      some s ∧
    (s.client 1).firstSession = some 1 ∧ AtRest s 1 1 ∧
      (s.client 1).chat.listChat = ["[12:00:09] 채팅방 'room'에 입장했습니다.", "[12:00:11] bob: hi", "[12:00:11] ann: hello"] := by
  have hruns : ((chatNet asciiPlatform id (fun a => a) (fun a => a)).run
      (chatNet asciiPlatform id (fun a => a) (fun a => a)).init talking).map
      (fun s => ((s.client 1).firstSession, decide (AtRest s 1 1), (s.client 1).chat.listChat)) =
        some (some 1, true, ["[12:00:09] 채팅방 'room'에 입장했습니다.", "[12:00:11] bob: hi", "[12:00:11] ann: hello"]) := by
    decide +kernel
  obtain ⟨s, hs, hresult⟩ := Option.map_eq_some_iff.1 hruns
  obtain ⟨hfirst, hrest⟩ := Prod.mk.inj hresult
  obtain ⟨hrest, hlines⟩ := Prod.mk.inj hrest
  exact ⟨s, hs, hfirst, of_decide_eq_true hrest, hlines⟩

theorem shown_messages_authentic_talking : ∃ s,
    (chatNet asciiPlatform id (fun a => a) (fun a => a)).run (chatNet asciiPlatform id (fun a => a) (fun a => a)).init talking =
      some s ∧
    ∃ lines : List (String × ChatLine), ShowsChat asciiPlatform (s.client 1).view (ofClient (fun a => a) 1 s.received) lines ∧
      (s.client 1).chat.listChat = lines.map (fun e => ChatWindow.stamped e.1 (e.2.text asciiPlatform)) ∧
        ∀ localTime sender text, (localTime, ChatLine.message sender text) ∈ lines →
          (∃ a, a = 1 ∧ AskedToJoin s.asked a) ∧ Said s.asked sender text := by
  obtain ⟨s, hs, -⟩ := talking_run
  exact ⟨s, hs, shown_messages_authentic hs 1⟩

theorem window_agrees_at_rest_talking : ∃ s,
    (chatNet asciiPlatform id (fun a => a) (fun a => a)).run (chatNet asciiPlatform id (fun a => a) (fun a => a)).init talking =
      some s ∧
    (∃ lines : List (String × ChatLine), ShowsChat asciiPlatform (s.client 1).view (ofClient (fun a => a) 1 s.received) lines ∧
      (s.client 1).chat.listChat = lines.map (fun e => ChatWindow.stamped e.1 (e.2.text asciiPlatform)) ∧
        lines.filterMap (fun e => e.2.message?) = (ofConnection 1 s.sent).filterMap ChatAnswer.message?) ∧
    (((s.client 1).chat.isConnect = false ∧ ∀ p, s.server.chat.player0 1 = some p → ∀ x, p ∉ s.server.chat.members x) ∨
      ((s.client 1).chat.isConnect = true ∧ ∃ p x name, s.server.chat.player0 1 = some p ∧ p ∈ s.server.chat.members x ∧
        s.server.lastRoom p = some x ∧ (s.client 1).chat.title = asciiPlatform.roomTitle name ∧
          ((s.server.chat.chatRoom x).roomName = name ∨ (s.server.chat.chatRoom x).roomName = id name))) := by
  obtain ⟨s, hs, hfirst, hrest, -⟩ := talking_run
  have hsettled : (chatNet asciiPlatform id (fun a => a) (fun a => a)).Meets (Settled Client.toClientUi (fun a => a))
      (chatNet asciiPlatform id (fun a => a) (fun a => a)).init talking := by decide +kernel
  exact ⟨s, hs, window_agrees_at_rest hs hsettled hfirst hrest⟩

end ProjectYJ
