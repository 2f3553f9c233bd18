import ProjectYJ.Lemmas.ChatHistory
import ProjectYJ.Theorems.ClientMemory
import Mathlib.Data.List.DropRight

/-!
# What the chat window shows

The lines of the chat window are the `ChatAck`s and the `EnterChatRoomAck`s that its client has handled, each kind in the order in
which the server sent it on its connection. The two kinds are not in order with one another: an entry goes through the message
queue twice, so that a chat message sent after it may be shown before it. `m_chatMessage` holds the last 100 lines. A line is
missing only where `PostMessage` refused a message.
-/

namespace ProjectYJ

/-! ## Lines -/

/-- What a line of the chat window says. -/
inductive ChatLine where
  | message (sender text : String)
  | entered (roomName : String)
  deriving DecidableEq, Repr

/-- The text of a line. -/
def ChatLine.text (W : ClientPlatform) : ChatLine → String
  | .message sender text => W.messageText sender text
  | .entered roomName => W.enteredText roomName

/-- The chat message of a line. -/
def ChatLine.message? : ChatLine → Option (String × String)
  | .message sender text => some (sender, text)
  | _ => none

/-- The room of a line. -/
def ChatLine.entered? : ChatLine → Option String
  | .entered roomName => some roomName
  | _ => none

/-- The chat message that mail brings. -/
def Mail.message? : Mail → Option (String × String)
  | .chat sender message => some (sender, message)
  | _ => none

/-- The room entered, on its way to the lobby window. -/
def Mail.entered? : Mail → Option String
  | .entered roomName => some roomName
  | _ => none

/-- The room entered, on its way to the main window. -/
def Mail.enterRoom? : Mail → Option String
  | .enterRoom roomName => some roomName
  | _ => none

/-! ## Nothing is missing unless something was lost -/

/-- The first list is the second, except for what was lost. -/
def InStep {α : Type} (lost : List Mail) (l m : List α) : Prop := l.Sublist m ∧ (lost = [] → l = m)

section

variable {α : Type} {lost : List Mail} {l m : List α}

/-- Both lists get the same. -/
theorem InStep.append (h : InStep lost l m) (k : List α) : InStep lost (l ++ k) (m ++ k) :=
  ⟨h.1.append_right k, fun hlost => congrArg (· ++ k) (h.2 hlost)⟩

/-- Something is lost. -/
theorem InStep.lose (h : InStep lost l m) {l' : List α} (hl : l'.Sublist l) (k : List α) (mail : Mail) :
    InStep (lost ++ [mail]) l' (m ++ k) :=
  ⟨(hl.trans h.1).trans (List.sublist_append_left m k), fun hlost => absurd hlost (List.append_ne_nil_of_right_ne_nil _ nofun)⟩

end

section

variable {α β : Type} {f : α → Option β} {a : α} {b : β}

theorem filterMap_concat_none (h : f a = none) (l : List α) : (l ++ [a]).filterMap f = l.filterMap f := by
  simp [h]

theorem filterMap_concat_some (h : f a = some b) (l : List α) : (l ++ [a]).filterMap f = l.filterMap f ++ [b] := by
  simp [h]

end

/-! ## The last 100 lines -/

theorem eraseOldest_eq_rtake (l : List String) : ChatWindow.eraseOldest l = l.rtake 100 := by
  induction l with
  | nil => rfl
  | cons m rest ih =>
    unfold ChatWindow.eraseOldest
    split
    · rename_i hlen
      rw [ih, List.rtake, List.rtake]
      simp only [List.length_cons] at hlen ⊢
      rw [show rest.length + 1 - 100 = (rest.length - 100) + 1 by omega, List.drop_succ_cons]
    · rename_i hlen
      rw [List.rtake, Nat.sub_eq_zero_of_le (Nat.le_of_not_lt hlen), List.drop_zero]

/-- The last 100 lines after one more line: those of the last 100 before it and that line. -/
theorem rtake_append_rtake (l : List String) (m : String) : (l.rtake 100 ++ [m]).rtake 100 = (l ++ [m]).rtake 100 := by
  have hmost : (l.rtake 100).rtake 99 = l.rtake 99 := by
    simp only [List.rtake_eq_reverse_take_reverse, List.reverse_reverse, List.take_take]
    rfl
  rw [List.rtake_concat_succ, List.rtake_concat_succ, hmost]

/-! ## The invariant -/

/-- The chat window shows these lines, each with the time it came, and its client has handled these answers: the list box has all
lines and `m_chatMessage` the last 100; the chat messages handled are those shown and those that wait, and the rooms entered too;
and the title is that of the room of the last entry, which is also what connected the window. -/
structure ShowsChat (W : ClientPlatform) (v : ClientView) (got : List ChatAnswer) (lines : List (String × ChatLine)) : Prop where
  listChat : v.chat.listChat = lines.map fun e => ChatWindow.stamped e.1 (e.2.text W)
  chatMessage : v.chat.chatMessage = (lines.map fun e => e.2.text W).rtake 100
  messages : InStep v.lost (lines.filterMap (fun e => e.2.message?) ++ v.inbox.filterMap Mail.message?)
    (got.filterMap ChatAnswer.message?)
  entered : InStep v.lost (lines.filterMap (fun e => e.2.entered?) ++ v.inbox.filterMap Mail.enterRoom? ++
    v.inbox.filterMap Mail.entered?) (got.filterMap ChatAnswer.entered?)
  title : v.chat.title = ((lines.filterMap (fun e => e.2.entered?)).getLast?.map W.roomTitle).getD "채팅"
  isConnect : v.chat.isConnect = (lines.filterMap (fun e => e.2.entered?)).getLast?.isSome

section

variable {W : ClientPlatform} {v : ClientView} {got : List ChatAnswer} {lines : List (String × ChatLine)}

theorem showsChat_init (W : ClientPlatform) : ShowsChat W ClientView.init [] [] :=
  ⟨rfl, rfl, ⟨List.Sublist.refl _, fun _ => rfl⟩, ⟨List.Sublist.refl _, fun _ => rfl⟩, rfl, rfl⟩

/-- Nothing but the windows changes, and the chat window does not. -/
theorem ShowsChat.withUi (h : ShowsChat W v got lines) {u : ClientUi} (hu : u.chat = v.chat) :
    ShowsChat W { v with toClientUi := u } got lines where
  listChat := hu ▸ h.listChat
  chatMessage := hu ▸ h.chatMessage
  messages := h.messages
  entered := h.entered
  title := hu ▸ h.title
  isConnect := hu ▸ h.isConnect

/-- Mail comes in that brings what some answers say. -/
theorem ShowsChat.post (h : ShowsChat W v got lines) {mail : Mail} {answers : List ChatAnswer}
    (hmessage : [mail].filterMap Mail.message? = answers.filterMap ChatAnswer.message?)
    (hentered : [mail].filterMap Mail.entered? = answers.filterMap ChatAnswer.entered?)
    (henterRoom : [mail].filterMap Mail.enterRoom? = []) : ShowsChat W (v.post W mail) (got ++ answers) lines := by
  rcases post_cases W v mail with hpost | hpost
  · rw [hpost]
    refine ⟨h.listChat, h.chatMessage, ?_, ?_, h.title, h.isConnect⟩
    · simp only [List.filterMap_append, hmessage, ← List.append_assoc]
      exact h.messages.append _
    · simp only [List.filterMap_append, hentered, henterRoom, List.append_nil, ← List.append_assoc]
      exact h.entered.append _
  · rw [hpost]
    refine ⟨h.listChat, h.chatMessage, ?_, ?_, h.title, h.isConnect⟩
    · rw [List.filterMap_append]
      exact h.messages.lose (List.Sublist.refl _) _ mail
    · rw [List.filterMap_append]
      exact h.entered.lose (List.Sublist.refl _) _ mail

/-- An answer comes in. -/
theorem ShowsChat.handle (h : ShowsChat W v got lines) (answer : ChatAnswer) :
    ShowsChat W (v.handle W answer) (got ++ [answer]) lines := by
  cases answer with
  | LoginAck | EnterChatRoomAck | ChatRoomListAck | ChatAck => exact h.post rfl rfl rfl
  | DummyPacketAck message =>
    refine ⟨h.listChat, h.chatMessage, ?_, ?_, h.title, h.isConnect⟩
    · rw [filterMap_concat_none rfl]
      exact h.messages
    · rw [filterMap_concat_none rfl]
      exact h.entered

/-- The lobby window passes on that a room was entered: it stays between the lines shown and what the lobby window has to pass on. -/
theorem ShowsChat.passOn {roomName : String} {rest : List Mail} (h : ShowsChat W v got lines)
    (hinbox : v.inbox = .entered roomName :: rest) :
    ShowsChat W (({ v with toClientUi := v.toClientUi.hideLobby, inbox := rest } : ClientView).post W (.enterRoom roomName)) got
      lines := by
  have hmessages := h.messages
  have hentered := h.entered
  rw [hinbox, List.filterMap_cons_none rfl] at hmessages
  rw [hinbox, List.filterMap_cons_none rfl, List.filterMap_cons_some (f := Mail.entered?) rfl] at hentered
  rcases post_cases W { v with toClientUi := v.toClientUi.hideLobby, inbox := rest } (.enterRoom roomName) with hpost | hpost
  · rw [hpost]
    refine ⟨h.listChat, h.chatMessage, ?_, ?_, h.title, h.isConnect⟩
    · rw [filterMap_concat_none rfl]
      exact hmessages
    · rw [filterMap_concat_some (f := Mail.enterRoom?) rfl, filterMap_concat_none rfl]
      simpa only [List.append_assoc, List.singleton_append] using hentered
  · rw [hpost]
    refine ⟨h.listChat, h.chatMessage, ?_, ?_, h.title, h.isConnect⟩
    · simpa only [List.append_nil] using hmessages.lose (List.Sublist.refl _) [] (.enterRoom roomName)
    · simpa only [List.append_nil] using
        hentered.lose (List.Sublist.append_left (List.sublist_cons_self _ _) _) [] (.enterRoom roomName)

/-- A line is added. -/
theorem addChatMessage_lines {w : ChatWindow} (hlistChat : w.listChat = lines.map fun e => ChatWindow.stamped e.1 (e.2.text W))
    (hchatMessage : w.chatMessage = (lines.map fun e => e.2.text W).rtake 100) (localTime : String) {line : ChatLine}
    {text : String} (htext : line.text W = text) :
    (w.addChatMessage localTime text).listChat =
        (lines ++ [(localTime, line)]).map (fun e => ChatWindow.stamped e.1 (e.2.text W)) ∧
      (w.addChatMessage localTime text).chatMessage = ((lines ++ [(localTime, line)]).map fun e => e.2.text W).rtake 100 := by
  subst htext
  constructor
  · simp [ChatWindow.addChatMessage, hlistChat]
  · rw [ChatWindow.addChatMessage, hchatMessage, eraseOldest_eq_rtake, rtake_append_rtake, List.map_append]
    rfl

/-- The windows open the mail that came first: it becomes at most one line. -/
theorem ShowsChat.openMail {mail : Mail} {rest : List Mail} (h : ShowsChat W v got lines) (hinbox : v.inbox = mail :: rest)
    (localTime : String) : ∃ lines', ShowsChat W (({ v with inbox := rest } : ClientView).openMail W localTime mail).1 got lines' := by
  have hmessages := h.messages
  have hentered := h.entered
  rw [hinbox] at hmessages hentered
  cases mail with
  | connected | loginAck | roomList => exact ⟨lines, h.listChat, h.chatMessage, hmessages, hentered, h.title, h.isConnect⟩
  | entered roomName => exact ⟨lines, h.passOn hinbox⟩
  | enterRoom roomName =>
    obtain ⟨hlist, hchat⟩ := addChatMessage_lines
      (w := { v.chat with title := W.roomTitle roomName, isConnect := true, visible := true }) h.listChat h.chatMessage localTime
      (show ChatLine.text W (.entered roomName) = W.enteredText roomName from rfl)
    have hrooms : (lines ++ [(localTime, ChatLine.entered roomName)]).filterMap (fun e => e.2.entered?) =
        lines.filterMap (fun e => e.2.entered?) ++ [roomName] :=
      filterMap_concat_some (f := fun e : String × ChatLine => e.2.entered?) rfl lines
    refine ⟨lines ++ [(localTime, ChatLine.entered roomName)], hlist, hchat, ?_, ?_, ?_, ?_⟩
    · rw [filterMap_concat_none rfl]
      exact hmessages
    · rw [hrooms]
      rw [List.filterMap_cons_some (f := Mail.enterRoom?) rfl, List.filterMap_cons_none rfl] at hentered
      simpa only [ClientView.openMail, List.append_assoc, List.cons_append, List.nil_append] using hentered
    · rw [hrooms, List.getLast?_concat]
      rfl
    · rw [hrooms, List.getLast?_concat]
      rfl
  | chat sender message =>
    obtain ⟨hlist, hchat⟩ := addChatMessage_lines (w := v.chat) h.listChat h.chatMessage localTime
      (show ChatLine.text W (.message sender message) = W.messageText sender message from rfl)
    have hrooms : (lines ++ [(localTime, ChatLine.message sender message)]).filterMap (fun e => e.2.entered?) =
        lines.filterMap (fun e => e.2.entered?) := filterMap_concat_none rfl lines
    refine ⟨lines ++ [(localTime, ChatLine.message sender message)], hlist, hchat, ?_, ?_, ?_, ?_⟩
    · rw [List.filterMap_cons_some (f := Mail.message?) rfl] at hmessages
      rw [filterMap_concat_some (f := fun e : String × ChatLine => e.2.message?) rfl]
      simpa only [ClientView.openMail, List.append_assoc, List.singleton_append] using hmessages
    · rw [hrooms]
      exact hentered
    · rw [hrooms]
      exact h.title
    · rw [hrooms]
      exact h.isConnect

/-- No action of the user changes the chat window. -/
theorem act_chat {u u' : ClientUi} {action : UserAction} {requests : List (Nat × ChatRequest)}
    (h : u.act action = some (u', requests)) : u'.chat = u.chat := by
  cases action with
  | answer yes =>
    obtain ⟨roomId, -, hu⟩ := Option.map_eq_some_iff.1 h
    rw [← (Prod.mk.inj hu).1]
  | enter =>
    simp only [ClientUi.act, Option.ite_none_right_eq_some, Option.some.injEq, Prod.mk.injEq] at h
    obtain ⟨-, rfl, -⟩ := h
    unfold ClientUi.clickEnter
    split
    · rfl
    · split <;> rfl
  | login | select | create | refresh | send =>
    simp only [ClientUi.act, Option.ite_none_right_eq_some, Option.some.injEq, Prod.mk.injEq] at h
    obtain ⟨-, rfl, -⟩ := h
    rfl

/-- Every operation of a client keeps it. -/
theorem viewNet_showsChat {stringToUTF8 : String → String} {uid : Nat → Int} {host : Nat → Nat} {ls : List ChatNetStep}
    {s : ChatNet ClientView}
    (h : (viewNet W stringToUTF8 uid host).run (viewNet W stringToUTF8 uid host).init ls = some s) (i : Nat) :
    ∃ lines, ShowsChat W (s.client i) (ofClient host i s.received) lines := by
  refine client_invariant (J := fun v got => ∃ lines, ShowsChat W v got lines) ⟨[], showsChat_init W⟩
    ?_ ?_ ?_ ?_ ?_ h i
  · rintro v got a ⟨lines, hv⟩
    exact ⟨lines, hv.withUi rfl⟩
  · rintro v got a uid ⟨lines, hv⟩
    have hregister := hv.withUi (u := v.toClientUi.register a uid) rfl
    have hpost : ShowsChat W ((viewOps W).onConnected v a uid) (got ++ []) lines := hregister.post rfl rfl rfl
    rw [List.append_nil] at hpost
    exact ⟨lines, hpost⟩
  · rintro v got answer ⟨lines, hv⟩
    exact ⟨lines, hv.handle answer⟩
  · rintro v got localTime v' requests ⟨lines, hv⟩ hdoes
    rcases hinbox : v.inbox with _ | ⟨mail, rest⟩
    · simp [viewOps, ClientView.dispatch, hinbox] at hdoes
    · obtain ⟨lines', hv'⟩ := hv.openMail hinbox localTime
      simp only [viewOps, ClientView.dispatch, hinbox, Option.some.injEq] at hdoes
      rw [hdoes] at hv'
      exact ⟨lines', hv'⟩
  · rintro v got action v' requests ⟨lines, hv⟩ hdoes
    obtain ⟨⟨u, rs⟩, hu, hr⟩ := Option.map_eq_some_iff.1 hdoes
    obtain ⟨rfl, rfl⟩ := Prod.mk.inj hr
    exact ⟨lines, hv.withUi (act_chat hu)⟩

/-- For every run and each client: there are lines that its chat window shows, for the answers it has handled; and those it has
handled of a connection are the first of those the server sent on it. -/
theorem chat_window_shows {stringToUTF8 : String → String} {uid : Nat → Int} {host : Nat → Nat} {ls : List ChatNetStep}
    {s : ChatNet Client}
    (h : (chatNet W stringToUTF8 uid host).run (chatNet W stringToUTF8 uid host).init ls = some s) (i : Nat) :
    (∃ lines, ShowsChat W (s.client i).view (ofClient host i s.received) lines) ∧
      ∀ a, ofConnection a s.sent = ofConnection a s.received ++ s.toClient a :=
  ⟨viewNet_showsChat (chatNet_run_view h).2 i, sent_eq_received h⟩

end

/-- A user logs in, creates a room and says hello in it, each time with all that comes of it. -/
def hello : List ChatNetStep :=
  [.connect 0, .onConnected 0, .dispatch 0 "12:00:00",
    .user 0 (.login "ann" "pw"), .serve 0, .receive 0, .dispatch 0 "12:00:01", .serve 0, .receive 0, .dispatch 0 "12:00:02",
    .user 0 (.create "room"), .serve 0, .receive 0, .dispatch 0 "12:00:03", .dispatch 0 "12:00:04",
    .user 0 (.send "hello"), .serve 0, .receive 0, .dispatch 0 "12:00:05"]

theorem chat_window_shows_hello : ∃ s,
    (chatNet asciiPlatform id (fun a => a) (fun a => a)).run (chatNet asciiPlatform id (fun a => a) (fun a => a)).init hello =
      some s ∧
    (∃ lines, ShowsChat asciiPlatform (s.client 0).view (ofClient (fun a => a) 0 s.received) lines) ∧
      ∀ a, ofConnection a s.sent = ofConnection a s.received ++ s.toClient a := by
  have hruns : ((chatNet asciiPlatform id (fun a => a) (fun a => a)).run
      (chatNet asciiPlatform id (fun a => a) (fun a => a)).init hello).isSome = true := by decide +kernel
  obtain ⟨s, hs⟩ := Option.isSome_iff_exists.1 hruns
  exact ⟨s, hs, chat_window_shows hs 0⟩

/-- The lines that window shows. -/
example : ((chatNet asciiPlatform id (fun a => a) (fun a => a)).run
    (chatNet asciiPlatform id (fun a => a) (fun a => a)).init hello).map (fun s => (s.client 0).chat.listChat) =
      some ["[12:00:04] 채팅방 'room'에 입장했습니다.", "[12:00:05] ann: hello"] := by decide +kernel

end ProjectYJ
