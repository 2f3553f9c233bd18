import ProjectYJ.ClientView
import ProjectYJ.Lemmas.ChatSystem
import Mathlib.Data.List.Basic

/-!
# The program's clients are views

`Client.Tidy` is the invariant of a client's heap: what is allocated is what the waiting messages and the refused ones point to,
each once, and it is of the type that the window procedure of each message reads. From there every window procedure goes through,
and what it does is what `ClientView.openMail` does with the mail the message carries: `client_simulates`. The net of clients is
mapped to the net of views step by step.
-/

namespace ProjectYJ

/-! ## Mail that comes in -/

/-- What `post` can do. -/
theorem post_cases (W : ClientPlatform) (v : ClientView) (mail : Mail) :
    v.post W mail = { v with inbox := v.inbox ++ [mail] } ∨ v.post W mail = { v with lost := v.lost ++ [mail] } := by
  unfold ClientView.post
  split
  · exact Or.inl rfl
  · exact Or.inr rfl

/-- What `post` does to the windows and to the mail that waits. -/
theorem post_spec_view (W : ClientPlatform) (v : ClientView) (mail : Mail) :
    (v.post W mail).toClientUi = v.toClientUi ∧ ∀ m ∈ (v.post W mail).inbox, m ∈ v.inbox ∨ m = mail := by
  rcases post_cases W v mail with hpost | hpost
  · rw [hpost]
    exact ⟨rfl, fun m hm => (List.mem_append.1 hm).imp_right List.mem_singleton.1⟩
  · rw [hpost]
    exact ⟨rfl, fun m hm => Or.inl hm⟩

/-- What the handler of an answer does to them. -/
theorem handle_spec_view (W : ClientPlatform) (v : ClientView) (answer : ChatAnswer) :
    (v.handle W answer).toClientUi = v.toClientUi ∧ ∀ m ∈ (v.handle W answer).inbox, m ∈ v.inbox ∨ m ∈ answer.mail := by
  unfold ClientView.handle
  induction answer.mail generalizing v with
  | nil => exact ⟨rfl, fun m hm => Or.inl hm⟩
  | cons mail rest ih =>
    obtain ⟨hui, hinbox⟩ := post_spec_view W v mail
    obtain ⟨hrest, hmem⟩ := ih (v.post W mail)
    refine ⟨hrest.trans hui, fun m hm => ?_⟩
    rcases hmem m hm with hold | hnew
    · rcases hinbox m hold with hv | rfl
      · exact Or.inl hv
      · exact Or.inr List.mem_cons_self
    · exact Or.inr (List.mem_cons_of_mem mail hnew)

/-! ## What messages carry -/

/-- The mail that a message carries. -/
inductive Carries (H : Cells Payload) : PostedMessage → Mail → Prop where
  | connected : Carries H ⟨.mainWnd, .WM_CLIENT_CONNECTED, none⟩ .connected
  | loginAck {data userId} (h : (H.cell data).bind Payload.loginResponseData? = some (.LOGIN_SUCCESS, userId)) :
      Carries H ⟨.mainWnd, .WM_LOGIN_SUCCESS, some data⟩ (.loginAck userId)
  | roomList {data rooms} (h : (H.cell data).bind Payload.chatRoomListRes? = some rooms) :
      Carries H ⟨.lobbyWnd, .WM_CLIENT_CHATROOM_LIST, some data⟩ (.roomList rooms)
  | entered {data roomName} (h : (H.cell data).bind Payload.chatRoomRes? = some roomName) :
      Carries H ⟨.lobbyWnd, .WM_CLIENT_CHATROOM_ENTER, some data⟩ (.entered roomName)
  | enterRoom {data roomName} (h : (H.cell data).bind Payload.chatRoomRes? = some roomName) :
      Carries H ⟨.mainWnd, .WM_ENTER_CHATROOM, some data⟩ (.enterRoom roomName)
  | chat {data sender message} (h : (H.cell data).bind Payload.chatMessageRes? = some (sender, message)) :
      Carries H ⟨.chatWnd, .WM_CLIENT_RECV, some data⟩ (.chat sender message)

/-- The mail that a message carries, computed. -/
def readMail (H : Cells Payload) : PostedMessage → Option Mail
  | ⟨.mainWnd, .WM_CLIENT_CONNECTED, none⟩ => some .connected
  | ⟨.mainWnd, .WM_LOGIN_SUCCESS, some data⟩ =>
    ((H.cell data).bind Payload.loginResponseData?).bind fun r => if r.1 = .LOGIN_SUCCESS then some (.loginAck r.2) else none
  | ⟨.lobbyWnd, .WM_CLIENT_CHATROOM_LIST, some data⟩ => ((H.cell data).bind Payload.chatRoomListRes?).map .roomList
  | ⟨.lobbyWnd, .WM_CLIENT_CHATROOM_ENTER, some data⟩ => ((H.cell data).bind Payload.chatRoomRes?).map .entered
  | ⟨.mainWnd, .WM_ENTER_CHATROOM, some data⟩ => ((H.cell data).bind Payload.chatRoomRes?).map .enterRoom
  | ⟨.chatWnd, .WM_CLIENT_RECV, some data⟩ => ((H.cell data).bind Payload.chatMessageRes?).map fun r => .chat r.1 r.2
  | _ => none

theorem Carries.readMail_eq {H : Cells Payload} {m : PostedMessage} {mail : Mail} (h : Carries H m mail) :
    readMail H m = some mail := by
  cases h with
  | connected => rfl
  | loginAck h | roomList h | entered h | enterRoom h | chat h => simp [readMail, h]

theorem carries_of_readMail {H : Cells Payload} {m : PostedMessage} {mail : Mail} (h : readMail H m = some mail) :
    Carries H m mail := by
  unfold readMail at h
  split at h
  · obtain rfl := Option.some.inj h
    exact .connected
  · obtain ⟨⟨result, userId⟩, hr, h⟩ := Option.bind_eq_some_iff.1 h
    obtain ⟨rfl, ⟨⟩⟩ := Option.ite_none_right_eq_some.1 h
    exact .loginAck hr
  · obtain ⟨rooms, hr, rfl⟩ := Option.map_eq_some_iff.1 h
    exact .roomList hr
  · obtain ⟨roomName, hr, rfl⟩ := Option.map_eq_some_iff.1 h
    exact .entered hr
  · obtain ⟨roomName, hr, rfl⟩ := Option.map_eq_some_iff.1 h
    exact .enterRoom hr
  · obtain ⟨⟨sender, message⟩, hr, rfl⟩ := Option.map_eq_some_iff.1 h
    exact .chat hr
  · cases h

/-- What a message carries depends on the cell it points to. -/
theorem readMail_congr {H H' : Cells Payload} {m : PostedMessage} (h : ∀ p ∈ m.lParam, H'.cell p = H.cell p) :
    readMail H' m = readMail H m := by
  obtain ⟨hwnd, uMsg, lParam⟩ := m
  cases lParam with
  | none => cases hwnd <;> cases uMsg <;> rfl
  | some data =>
    have hdata : H'.cell data = H.cell data := h data rfl
    cases hwnd <;> cases uMsg <;> simp only [readMail, hdata]

/-! ## The invariant -/

/-- The addresses that messages point to. -/
def refsOf (ms : List PostedMessage) : List Nat := ms.filterMap (fun m => m.lParam)

@[simp] theorem refsOf_nil : refsOf [] = [] := rfl

@[simp] theorem refsOf_append (ms ns : List PostedMessage) : refsOf (ms ++ ns) = refsOf ms ++ refsOf ns :=
  List.filterMap_append

theorem refsOf_cons (m : PostedMessage) (ms : List PostedMessage) : refsOf (m :: ms) = m.lParam.toList ++ refsOf ms := by
  rcases h : m.lParam with _ | p <;> simp [refsOf, h]

theorem mem_refsOf {ms : List PostedMessage} {m : PostedMessage} {p : Nat} (hm : m ∈ ms) (hp : m.lParam = some p) :
    p ∈ refsOf ms :=
  List.mem_filterMap.2 ⟨m, hm, hp⟩

namespace Client

/-- The addresses that the waiting messages and the refused ones point to. -/
def refs (c : Client) : List Nat := refsOf c.messages ++ refsOf c.refused

/-- What is allocated is pointed to, once, and every message carries some mail. -/
structure Tidy (c : Client) : Prop where
  owned : c.heap.Owned c.refs
  readable : ∀ m ∈ c.messages ++ c.refused, (readMail c.heap m).isSome

/-- A client without its heap. -/
def view (c : Client) : ClientView :=
  { c.toClientUi with inbox := c.messages.filterMap (readMail c.heap), lost := c.refused.filterMap (readMail c.heap) }

variable {W : ClientPlatform} {c : Client}

theorem tidy_init : Client.init.Tidy where
  owned := Cells.owned_empty
  readable _ hm := absurd hm List.not_mem_nil

/-- The windows may change. -/
theorem Tidy.withUi (h : c.Tidy) (u : ClientUi) : ({ c with toClientUi := u } : Client).Tidy := ⟨h.owned, h.readable⟩

/-- As many pieces of mail wait as messages, where every message carries some. -/
theorem inbox_length (hread : ∀ m ∈ c.messages ++ c.refused, (readMail c.heap m).isSome) :
    c.view.inbox.length = c.messages.length := by
  refine List.filterMap_length_eq_length.2 fun m hm => ?_
  exact hread m (List.mem_append_left _ hm)

/-- Where nothing that is pointed to changes, the messages carry what they carried. -/
theorem readMail_eq {H : Cells Payload} (h : ∀ p ∈ c.refs, H.cell p = c.heap.cell p) {m : PostedMessage}
    (hm : m ∈ c.messages ++ c.refused) : readMail H m = readMail c.heap m := by
  refine readMail_congr fun p hp => h p ?_
  rw [refs, ← refsOf_append]
  exact mem_refsOf hm hp

/-- The heap may change where nothing points. -/
theorem view_withHeap {H : Cells Payload} (h : ∀ p ∈ c.refs, H.cell p = c.heap.cell p) :
    ({ c with heap := H } : Client).view = c.view := by
  simp only [view]
  rw [List.filterMap_congr fun m hm => readMail_eq h (List.mem_append_left _ hm),
    List.filterMap_congr fun m hm => readMail_eq h (List.mem_append_right _ hm)]

/-- A message is posted whose address, if it has one, nothing else points to. -/
theorem post_spec {m : PostedMessage} {mail : Mail} (hown : c.heap.Owned (m.lParam.toList ++ c.refs))
    (hread : ∀ m ∈ c.messages ++ c.refused, (readMail c.heap m).isSome) (hm : readMail c.heap m = some mail) :
    (c.postMessage W m).Tidy ∧ (c.postMessage W m).view = c.view.post W mail := by
  have hsome : (readMail c.heap m).isSome := Option.isSome_iff_exists.2 ⟨mail, hm⟩
  unfold postMessage ClientView.post
  rw [inbox_length hread]
  split
  · refine ⟨⟨hown.perm ?_, ?_⟩, ?_⟩
    · simp only [refs, refsOf_append, refsOf_cons, refsOf_nil, List.append_nil]
      rw [← List.append_assoc]
      exact List.perm_append_comm.append_right _
    · intro m' hm'
      simp only [List.append_assoc, List.mem_append, List.mem_singleton] at hm'
      rcases hm' with hm' | rfl | hm'
      · exact hread m' (List.mem_append_left _ hm')
      · exact hsome
      · exact hread m' (List.mem_append_right _ hm')
    · simp [view, List.filterMap_append, hm]
  · refine ⟨⟨hown.perm ?_, ?_⟩, ?_⟩
    · simp only [refs, refsOf_append, refsOf_cons, refsOf_nil, List.append_nil]
      rw [← List.append_assoc (refsOf c.messages)]
      exact List.perm_append_comm
    · intro m' hm'
      simp only [← List.append_assoc, List.mem_append, List.mem_singleton] at hm'
      rcases hm' with hm' | rfl
      · exact hread m' (List.mem_append.2 hm')
      · exact hsome
    · simp [view, List.filterMap_append, hm]

/-- Something is allocated and posted. -/
theorem Tidy.postNew (h : c.Tidy) {hwnd : WindowHandle} {uMsg : WindowMessage} {data : Payload} {mail : Mail}
    (hmail : readMail (c.heap.alloc data) ⟨hwnd, uMsg, some c.heap.made⟩ = some mail) :
    (c.postNew W hwnd uMsg data).Tidy ∧ (c.postNew W hwnd uMsg data).view = c.view.post W mail := by
  have hcells : ∀ p ∈ c.refs, (c.heap.alloc data).cell p = c.heap.cell p := fun p hp => h.owned.alloc_other hp data
  have hpost := post_spec (W := W) (c := { c with heap := c.heap.alloc data }) (m := ⟨hwnd, uMsg, some c.heap.made⟩)
    (h.owned.alloc data) (fun m hm => by rw [readMail_eq hcells hm]; exact h.readable m hm) hmail
  rwa [view_withHeap hcells] at hpost

/-! ## Each operation -/

/-- `OnConnected` posts a message without an address. -/
theorem Tidy.onConnected (h : c.Tidy) (session : Nat) (uid : Int) : (c.onConnected W session uid).Tidy ∧
    (c.onConnected W session uid).view = (viewOps W).onConnected c.view session uid :=
  post_spec (c := { c with toClientUi := c.toClientUi.register session uid }) h.owned h.readable rfl

/-- The handler of an answer posts what the answer says. -/
theorem Tidy.handle (h : c.Tidy) (answer : ChatAnswer) :
    (c.handle W answer).Tidy ∧ (c.handle W answer).view = c.view.handle W answer := by
  cases answer with
  | LoginAck success userID => exact h.postNew (by simp [readMail, Payload.loginResponseData?])
  | EnterChatRoomAck roomID roomName => exact h.postNew (by simp [readMail, Payload.chatRoomRes?])
  | ChatRoomListAck success chatroomInfo => exact h.postNew (by simp [readMail, Payload.chatRoomListRes?])
  | ChatAck sender message => exact h.postNew (by simp [readMail, Payload.chatMessageRes?])
  | DummyPacketAck message => exact ⟨h, rfl⟩

@[simp] theorem deref_eq_ok {β : Type} {data : Nat} {type : Payload → Option β} {b : β} :
    c.deref data type = .ok b ↔ (c.heap.cell data).bind type = some b := by
  unfold deref
  cases c.heap.cell data with
  | none => simp
  | some payload =>
    simp only [Option.bind_some]
    cases type payload <;> simp

/-- The window procedure frees what it has read, which nothing else points to. -/
theorem freed_spec {data : Nat} {u : ClientUi} (hown : c.heap.Owned (data :: c.refs))
    (hread : ∀ m ∈ c.messages ++ c.refused, (readMail c.heap m).isSome) :
    (({ c with toClientUi := u } : Client).delete data).Tidy ∧
      (({ c with toClientUi := u } : Client).delete data).view = { c.view with toClientUi := u } := by
  have hcells : ∀ p ∈ c.refs, (c.heap.free data).cell p = c.heap.cell p := fun p hp => hown.free_other hp
  refine ⟨⟨hown.free, fun m hm => ?_⟩, ?_⟩
  · rw [delete, readMail_eq (c := c) hcells hm]
    exact hread m hm
  · exact congrArg (fun v : ClientView => { v with toClientUi := u }) (view_withHeap hcells)

/-- A window procedure goes through, and does what is done with the mail that the message carries. -/
theorem dispatchMessage_spec {m : PostedMessage} {mail : Mail} (localTime : String) (hmail : Carries c.heap m mail)
    (hown : c.heap.Owned (m.lParam.toList ++ c.refs)) (hread : ∀ m ∈ c.messages ++ c.refused, (readMail c.heap m).isSome) :
    ∃ c' requests, c.dispatchMessage W localTime m = .ok (c', requests) ∧ c'.Tidy ∧
      (c'.view, requests) = c.view.openMail W localTime mail := by
  cases hmail with
  | connected => exact ⟨c, [], rfl, ⟨hown, hread⟩, rfl⟩
  | @loginAck data userId h =>
    obtain ⟨htidy, hview⟩ := freed_spec (u := c.toClientUi.onLoginSuccess userId) hown hread
    refine ⟨_, _, except_bind_eq (deref_eq_ok.2 h) _, htidy.withUi _, ?_⟩
    refine Prod.ext ?_ rfl
    exact congrArg (fun v : ClientView => { v with toClientUi := v.toClientUi.showLobby userId }) hview
  | @roomList data rooms h =>
    obtain ⟨htidy, hview⟩ := freed_spec (u := c.toClientUi.updateLobby W rooms) hown hread
    exact ⟨_, _, except_bind_eq (deref_eq_ok.2 h) _, htidy, Prod.ext hview rfl⟩
  | @entered data roomName h =>
    obtain ⟨htidy, hview⟩ := post_spec (W := W) (c := { c with toClientUi := c.toClientUi.hideLobby })
      (m := ⟨.mainWnd, .WM_ENTER_CHATROOM, some data⟩) hown hread (Carries.enterRoom h).readMail_eq
    exact ⟨_, _, rfl, htidy, Prod.ext hview rfl⟩
  | @enterRoom data roomName h =>
    obtain ⟨htidy, hview⟩ := freed_spec (u := c.toClientUi.enterRoom W localTime roomName) hown hread
    exact ⟨_, _, except_bind_eq (deref_eq_ok.2 h) _, htidy, Prod.ext hview rfl⟩
  | @chat data sender message h =>
    obtain ⟨htidy, hview⟩ := freed_spec (u := c.toClientUi.onMessageRecv W localTime sender message) hown hread
    exact ⟨_, _, except_bind_eq (deref_eq_ok.2 h) _, htidy, Prod.ext hview rfl⟩

/-- A turn of the message loop never ends in a fault, and opens the mail that came first. -/
theorem Tidy.dispatch (h : c.Tidy) {m : PostedMessage} {rest : List PostedMessage} (hm : c.messages = m :: rest)
    (localTime : String) : ∃ c' requests, c.dispatch W localTime = some (.ok (c', requests)) ∧ c'.Tidy ∧
      c.view.dispatch W localTime = some (c'.view, requests) := by
  have hread : ∀ m' ∈ (m :: rest) ++ c.refused, (readMail c.heap m').isSome := hm ▸ h.readable
  obtain ⟨mail, hmail⟩ := Option.isSome_iff_exists.1 (hread m List.mem_cons_self)
  have hown : c.heap.Owned (m.lParam.toList ++ ({ c with messages := rest } : Client).refs) := by
    have hrefs : c.refs = m.lParam.toList ++ ({ c with messages := rest } : Client).refs := by
      simp only [refs, hm, refsOf_cons, List.append_assoc]
    exact hrefs ▸ h.owned
  obtain ⟨c', requests, hok, htidy, hview⟩ := dispatchMessage_spec (W := W) (c := { c with messages := rest }) localTime
    (carries_of_readMail hmail) hown fun m' hm' => hread m' (List.mem_cons_of_mem m hm')
  refine ⟨c', requests, ?_, htidy, ?_⟩
  · rw [Client.dispatch, hm]
    exact congrArg some hok
  · have hinbox : c.view.inbox = mail :: rest.filterMap (readMail c.heap) := by
      rw [view, hm, List.filterMap_cons_some hmail]
    rw [ClientView.dispatch, hinbox]
    exact congrArg some hview.symm

end Client

/-! ## From one net to the other -/

/-- The clients of the program are mapped to their views. -/
theorem clientOps_mapsTo (W : ClientPlatform) : (clientOps W).MapsTo (viewOps W) Client.Tidy Client.view where
  stage _ _ := rfl
  connect c a h := ⟨h.withUi _, rfl⟩
  onConnected c a uid h := h.onConnected a uid
  handle c answer h := h.handle answer
  dispatch := by
    intro c t c' requests h hstep
    rcases hm : c.messages with _ | ⟨m, rest⟩
    · simp [clientOps, Client.dispatch, hm] at hstep
    · obtain ⟨d, rs, hd, htidy, hview⟩ := h.dispatch (W := W) hm t
      simp only [clientOps, hd, Option.bind_some, Except.toOption, Option.some.injEq, Prod.mk.injEq] at hstep
      obtain ⟨rfl, rfl⟩ := hstep
      exact ⟨htidy, hview⟩
  act := by
    intro c action c' requests h hstep
    obtain ⟨⟨u, rs⟩, hu, hr⟩ := Option.map_eq_some_iff.1 hstep
    obtain ⟨rfl, rfl⟩ := Prod.mk.inj hr
    exact ⟨h.withUi u, Option.map_eq_some_iff.2 ⟨_, hu, rfl⟩⟩

/-- A run of the server and its clients keeps every heap tidy, and is a run of the net of views. -/
theorem chatNet_run_view {W : ClientPlatform} {stringToUTF8 : String → String} {uid : Nat → Int} {host : Nat → Nat}
    {ls : List ChatNetStep} {s : ChatNet Client}
    (h : (chatNet W stringToUTF8 uid host).run (chatNet W stringToUTF8 uid host).init ls = some s) :
    (∀ i, (s.client i).Tidy) ∧
      (viewNet W stringToUTF8 uid host).run (viewNet W stringToUTF8 uid host).init ls = some (s.map Client.view) :=
  (chatNet W stringToUTF8 uid host).run_map (U := viewNet W stringToUTF8 uid host) (I := fun s => ∀ i, (s.client i).Tidy)
    (f := ChatNet.map Client.view) (fun _ _ _ hs hstep => (clientOps_mapsTo W).step hs hstep) (fun _ => Client.tidy_init) h

end ProjectYJ
