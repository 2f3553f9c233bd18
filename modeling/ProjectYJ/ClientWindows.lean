import ProjectYJ.Chat
import ProjectYJ.Lib.Cells
import ProjectYJ.Lib.Unicode

/-!
# The client and its windows

The client project: the handlers of `ServerPacketHandler.cpp`, which allocate what a packet says and post it to a window, and the
window procedures of `Client.cpp`, `LoginWindow.cpp`, `LobbyWindow.cpp` and `ChatWindow.cpp`, which read it and free it. All
windows belong to one thread, so that a dispatched message and a click of the user are one step each; only the box that
`EnterChatRoom` shows keeps its own message loop, so that it stands open between two steps. The client is taken from the end of
`InitWindow` until a window is closed, which ends the process. `StringToWString` is a conversion by the operating system.
-/

namespace ProjectYJ

/-- What the client leaves to Windows and to its compiler: `StringToWString`, from the bytes of a `string`; the bytes of the narrow
literal that comes before the name in the title of the chat window; and how many messages may wait to be dispatched. -/
structure ClientPlatform where
  stringToWString : List UInt8 → String
  titleLiteral : List UInt8
  postLimit : Nat

/-- `LoginResult` of `enum.h`. -/
inductive LoginResult where
  | LOGIN_SUCCESS
  | LOGIN_FAIL_INVALID_ID
  | LOGIN_FAIL_INVALID_PW
  | LOGIN_FAIL_ALREADY
  | LOGIN_FAIL_SERVER
  deriving DecidableEq, Repr

/-- What a handler allocates with `new`. -/
inductive Payload where
  | LoginResponseData (result : LoginResult) (userId message : String)
  | ChatRoomListRes (rooms : List ChatRoomInfo)
  | ChatRoomRes (roomID : Nat) (roomName : String)
  | ChatMessageRes (sender message : String)
  deriving DecidableEq, Repr

namespace Payload

/-- Read as a `LoginResponseData`. -/
def loginResponseData? : Payload → Option (LoginResult × String)
  | LoginResponseData result userId _ => some (result, userId)
  | _ => none

/-- Read as a `ChatRoomListRes`. -/
def chatRoomListRes? : Payload → Option (List ChatRoomInfo)
  | ChatRoomListRes rooms => some rooms
  | _ => none

/-- Read as a `ChatRoomRes`. -/
def chatRoomRes? : Payload → Option String
  | ChatRoomRes _ roomName => some roomName
  | _ => none

/-- Read as a `ChatMessageRes`. -/
def chatMessageRes? : Payload → Option (String × String)
  | ChatMessageRes sender message => some (sender, message)
  | _ => none

end Payload

/-- The windows a message may be posted to. -/
inductive WindowHandle where
  | mainWnd
  | loginWnd
  | lobbyWnd
  | chatWnd
  deriving DecidableEq, Repr

/-- The messages of `enum.h` that a window procedure of the client handles and that may be posted to it. -/
inductive WindowMessage where
  | WM_CLIENT_CONNECTED
  | WM_CLIENT_DISCONNECT
  | WM_CLIENT_RECV
  | WM_CLIENT_CHATROOM_LIST
  | WM_CLIENT_CHATROOM_ENTER
  | WM_LOGIN_SUCCESS
  | WM_ENTER_CHATROOM
  deriving DecidableEq, Repr

/-- A posted message. `lParam` is the address of what was allocated for it, or null. -/
structure PostedMessage where
  hwnd : WindowHandle
  uMsg : WindowMessage
  lParam : Option Nat
  deriving DecidableEq, Repr

/-- `LoginWindow`. -/
structure LoginWindow where
  visible : Bool
  userID : String

/-- `LobbyWindow`: `roomList` are the lines of `m_hRoomList`, `selected` its selection, and `asking` is the argument of the
`EnterChatRoom` whose box is open. -/
structure LobbyWindow where
  visible : Bool
  currentUserId : String
  chatRooms : List ChatRoomInfo
  roomList : List String
  selected : Option Nat
  asking : Option Int

/-- `ChatWindow`: `listChat` are the lines of `m_hListChat`. -/
structure ChatWindow where
  visible : Bool
  title : String
  isConnect : Bool
  chatMessage : List String
  listChat : List String

/-- What a connection of the client has come to: `async_connect` is waiting; it has completed and the session has its UID; and
`OnConnected` is done. -/
inductive ClientStage where
  | connecting
  | connected (uid : Int)
  | registered (uid : Int)
  deriving DecidableEq, Repr

/-- The UID of the session, which has none to start with. -/
def ClientStage.uid : ClientStage → Int
  | connecting => 0
  | connected uid => uid
  | registered uid => uid

/-- What the windows of the client show and send on: `ClientManager::m_Sessions`; the counter `SessionUID`; the session of each
connection; and the windows. -/
structure ClientUi where
  sessions : Std.TreeMap Int Nat
  nextUID : Int
  stage : Nat → ClientStage
  login : LoginWindow
  lobby : LobbyWindow
  chat : ChatWindow

/-- The client: besides its windows what is allocated, the posted messages that wait to be dispatched, and those that `PostMessage`
did not take. -/
structure Client extends ClientUi where
  heap : Cells Payload
  messages : List PostedMessage
  refused : List PostedMessage

/-- What a window procedure runs into that reads what was freed, or what is of another type. -/
inductive ClientFault where
  | freed
  | wrongType
  deriving DecidableEq, Repr

/-! ## Parts of the windows -/

variable (W : ClientPlatform)

namespace ClientPlatform

/-- `StringToWString`, of a text. -/
def toWString (s : String) : String := W.stringToWString (utf8Bytes s.toList)

/-- The line of the room list for a room. -/
def itemText (room : ChatRoomInfo) : String :=
  W.toWString room.roomName ++ " (" ++ toString room.currentUser ++ "/" ++ toString room.maxUser ++ ")"

/-- The title of the chat window for a room. -/
def roomTitle (roomName : String) : String := W.stringToWString (W.titleLiteral ++ utf8Bytes roomName.toList)

/-- The line that says that the user entered a room. -/
def enteredText (roomName : String) : String := "채팅방 '" ++ W.toWString roomName ++ "'에 입장했습니다."

/-- The line of a chat message. -/
def messageText (sender message : String) : String := W.toWString (sender ++ ": " ++ message)

end ClientPlatform

namespace LobbyWindow

/-- `UpdateLobby`. Emptying a list box takes its selection away. -/
def updateLobby (l : LobbyWindow) (roomList : List ChatRoomInfo) : LobbyWindow :=
  { l with chatRooms := roomList, roomList := roomList.map W.itemText, selected := none }

/-- `EnterChatRoom`, up to its box: nothing is asked when no room of the list has the number. -/
def enterChatRoom (l : LobbyWindow) (roomId : Int) : LobbyWindow :=
  match l.chatRooms.find? (fun room => room.roomID = toUInt32 roomId) with
  | none => l
  | some _ => { l with asking := some roomId }

end LobbyWindow

namespace ChatWindow

/-- The loop of `AddChatMessage`, which erases the first message while there are more than 100. -/
def eraseOldest : List String → List String
  | [] => []
  | message :: rest => if 100 < (message :: rest).length then eraseOldest rest else message :: rest

/-- The line of the list box for a message, with the time in front. -/
def stamped (localTime message : String) : String := "[" ++ localTime ++ "] " ++ message

/-- `AddChatMessage`, at this time. -/
def addChatMessage (w : ChatWindow) (localTime message : String) : ChatWindow :=
  { w with
    chatMessage := eraseOldest (w.chatMessage ++ [message])
    listChat := w.listChat ++ [stamped localTime message] }

/-- `UpdateStatus`. -/
def updateStatus (w : ChatWindow) (isConnect : Bool) : ChatWindow := { w with isConnect := isConnect }

/-- `OnConnect`. -/
def onConnect (w : ChatWindow) (localTime : String) : ChatWindow :=
  (w.updateStatus true).addChatMessage localTime "서버에 연결되었습니다."

/-- `OnDisconnect`. -/
def onDisconnect (w : ChatWindow) (localTime : String) : ChatWindow :=
  (w.updateStatus false).addChatMessage localTime "서버와 연결이 끊어졌습니다."

/-- `OnMessageRecv`. -/
def onMessageRecv (w : ChatWindow) (localTime sender message : String) : ChatWindow :=
  w.addChatMessage localTime (W.messageText sender message)

/-- What `MainWndProc` does with the chat window when a room was entered. -/
def enterRoom (w : ChatWindow) (localTime roomName : String) : ChatWindow :=
  ({ w with title := W.roomTitle roomName, isConnect := true, visible := true }).addChatMessage localTime
    (W.enteredText roomName)

end ChatWindow

namespace ClientUi

/-- After `InitWindow`: the login window is shown. -/
def init : ClientUi where
  sessions := ∅
  nextUID := 0
  stage := fun _ => .connecting
  login := { visible := true, userID := "" }
  lobby := { visible := false, currentUserId := "", chatRooms := [], roomList := [], selected := none, asking := none }
  chat := { visible := false, title := "채팅", isConnect := false, chatMessage := [], listChat := [] }

/-- `GetSessions().begin()->second`, if there is one: the session all windows send on. -/
def firstSession (u : ClientUi) : Option Nat := u.sessions.toList.head?.map Prod.snd

/-- `Send` of a message on the first session. -/
def send (u : ClientUi) (request : ChatRequest) : List (Nat × ChatRequest) :=
  match u.firstSession with
  | none => []
  | some session => [(session, request)]

/-- The completion of `async_connect`, up to `ProcessRecv`: `m_SessionUID = SessionUID.fetch_add(1)`. -/
def connect (u : ClientUi) (session : Nat) : ClientUi :=
  { u with nextUID := toInt32 (u.nextUID + 1), stage := Function.update u.stage session (.connected u.nextUID) }

/-- `ClientManager::Init` as `OnConnected` calls it: the session goes into the map unless there is one under its UID. -/
def register (u : ClientUi) (session : Nat) (uid : Int) : ClientUi :=
  { u with
    sessions := u.sessions.insertIfNew uid session
    stage := Function.update u.stage session (.registered uid) }

/-- `LoginWindow::OnLoginSuccess`. -/
def onLoginSuccess (u : ClientUi) (userID : String) : ClientUi := { u with login := { visible := false, userID := userID } }

/-- `LobbyWindow::Show`, which also asks for the list of rooms. -/
def showLobby (u : ClientUi) (userId : String) : ClientUi :=
  { u with lobby := { u.lobby with currentUserId := userId, visible := true } }

/-- `LobbyWindow::Hide`. -/
def hideLobby (u : ClientUi) : ClientUi := { u with lobby := { u.lobby with visible := false } }

/-- `LobbyWindow::UpdateLobby`. -/
def updateLobby (u : ClientUi) (rooms : List ChatRoomInfo) : ClientUi := { u with lobby := u.lobby.updateLobby W rooms }

/-- What `MainWndProc` does with the chat window when a room was entered. -/
def enterRoom (u : ClientUi) (localTime roomName : String) : ClientUi := { u with chat := u.chat.enterRoom W localTime roomName }

/-- `ChatWindow::OnMessageRecv`. -/
def onMessageRecv (u : ClientUi) (localTime sender message : String) : ClientUi :=
  { u with chat := u.chat.onMessageRecv W localTime sender message }

end ClientUi

namespace Client

/-- After `InitWindow`. -/
def init : Client := { ClientUi.init with heap := .empty, messages := [], refused := [] }

/-- `PostMessage`. When too many messages are waiting it returns `FALSE`, which nobody looks at. -/
def postMessage (c : Client) (m : PostedMessage) : Client :=
  if c.messages.length < W.postLimit then { c with messages := c.messages ++ [m] } else { c with refused := c.refused ++ [m] }

/-- `new` and `PostMessage`. -/
def postNew (c : Client) (hwnd : WindowHandle) (uMsg : WindowMessage) (data : Payload) : Client :=
  { c with heap := c.heap.alloc data }.postMessage W { hwnd := hwnd, uMsg := uMsg, lParam := some c.heap.made }

/-- `delete`. -/
def delete (c : Client) (data : Nat) : Client := { c with heap := c.heap.free data }

/-- Reading what was allocated, as one of the types. -/
def deref {β : Type} (c : Client) (data : Nat) (type : Payload → Option β) : Except ClientFault β :=
  match c.heap.cell data with
  | none => .error .freed
  | some payload =>
    match type payload with
    | none => .error .wrongType
    | some value => .ok value

/-! ## Connections and packets -/

/-- The completion of `async_connect`, up to `ProcessRecv`. -/
def connect (c : Client) (session : Nat) : Client := { c with toClientUi := c.toClientUi.connect session }

/-- `OnConnected`. -/
def onConnected (c : Client) (session : Nat) (uid : Int) : Client :=
  { c with toClientUi := c.toClientUi.register session uid }.postMessage W
    { hwnd := .mainWnd, uMsg := .WM_CLIENT_CONNECTED, lParam := none }

/-- `HandleLoginAck`. The result is a success whatever the packet says. -/
def handleLoginAck (c : Client) (userID : String) : Client :=
  c.postNew W .mainWnd .WM_LOGIN_SUCCESS (.LoginResponseData .LOGIN_SUCCESS userID "Login Success!")

/-- `HandleEnterChatRoomAck`. -/
def handleEnterChatRoomAck (c : Client) (roomID : Nat) (roomName : String) : Client :=
  c.postNew W .lobbyWnd .WM_CLIENT_CHATROOM_ENTER (.ChatRoomRes roomID roomName)

/-- `HandleChatRoomListAck`. -/
def handleChatRoomListAck (c : Client) (chatroomInfo : List ChatRoomInfo) : Client :=
  c.postNew W .lobbyWnd .WM_CLIENT_CHATROOM_LIST (.ChatRoomListRes chatroomInfo)

/-- `HandleChatAck`. -/
def handleChatAck (c : Client) (sender message : String) : Client :=
  c.postNew W .chatWnd .WM_CLIENT_RECV (.ChatMessageRes sender message)

/-- The handler of an answer. That of a `DummyPacketAck` writes to the log. -/
def handle (c : Client) : ChatAnswer → Client
  | .LoginAck _ userID => c.handleLoginAck W userID
  | .EnterChatRoomAck roomID roomName => c.handleEnterChatRoomAck W roomID roomName
  | .ChatRoomListAck _ chatroomInfo => c.handleChatRoomListAck W chatroomInfo
  | .ChatAck sender message => c.handleChatAck W sender message
  | .DummyPacketAck _ => c

/-! ## The window procedures -/

/-- `LobbyWindow::Show`, and what it sends. -/
def showLobby (c : Client) (userId : String) : Client × List (Nat × ChatRequest) :=
  ({ c with toClientUi := c.toClientUi.showLobby userId }, c.send (.ChatRoomListReq true))

/-- `MainWndProc`. -/
def mainWndProc (c : Client) (localTime : String) (uMsg : WindowMessage) (lParam : Option Nat) :
    Except ClientFault (Client × List (Nat × ChatRequest)) :=
  match uMsg, lParam with
  | .WM_LOGIN_SUCCESS, some data => do
    let (result, userId) ← c.deref data Payload.loginResponseData?
    let c := if result = .LOGIN_SUCCESS then { c with toClientUi := c.toClientUi.onLoginSuccess userId } else c
    let c := c.delete data
    return c.showLobby c.login.userID
  | .WM_LOGIN_SUCCESS, none => return c.showLobby c.login.userID
  | .WM_ENTER_CHATROOM, some data => do
    let roomName ← c.deref data Payload.chatRoomRes?
    return ({ c with toClientUi := c.toClientUi.enterRoom W localTime roomName }.delete data, [])
  | _, _ => return (c, [])

/-- `LobbyWindow::WndProc`. What `WM_CLIENT_CHATROOM_ENTER` brings is passed on to the main window. -/
def lobbyWndProc (c : Client) (uMsg : WindowMessage) (lParam : Option Nat) :
    Except ClientFault (Client × List (Nat × ChatRequest)) :=
  match uMsg, lParam with
  | .WM_CLIENT_CHATROOM_LIST, some data => do
    let rooms ← c.deref data Payload.chatRoomListRes?
    return ({ c with toClientUi := c.toClientUi.updateLobby W rooms }.delete data, [])
  | .WM_CLIENT_CHATROOM_ENTER, some data =>
    return ({ c with toClientUi := c.toClientUi.hideLobby }.postMessage W
      { hwnd := .mainWnd, uMsg := .WM_ENTER_CHATROOM, lParam := some data }, [])
  | _, _ => return (c, [])

/-- `ChatWindow::WndProc`. -/
def chatWndProc (c : Client) (localTime : String) (uMsg : WindowMessage) (lParam : Option Nat) :
    Except ClientFault (Client × List (Nat × ChatRequest)) :=
  match uMsg, lParam with
  | .WM_CLIENT_CONNECTED, _ => return ({ c with chat := c.chat.onConnect localTime }, [])
  | .WM_CLIENT_DISCONNECT, _ => return ({ c with chat := c.chat.onDisconnect localTime }, [])
  | .WM_CLIENT_RECV, some data => do
    let (sender, message) ← c.deref data Payload.chatMessageRes?
    return ({ c with toClientUi := c.toClientUi.onMessageRecv W localTime sender message }.delete data, [])
  | _, _ => return (c, [])

/-- `DispatchMessage`: the window procedure of the window. That of the login window knows none of these messages. -/
def dispatchMessage (c : Client) (localTime : String) (m : PostedMessage) :
    Except ClientFault (Client × List (Nat × ChatRequest)) :=
  match m.hwnd with
  | .mainWnd => c.mainWndProc W localTime m.uMsg m.lParam
  | .loginWnd => return (c, [])
  | .lobbyWnd => c.lobbyWndProc W m.uMsg m.lParam
  | .chatWnd => c.chatWndProc W localTime m.uMsg m.lParam

/-- One turn of the message loop, if a message is waiting. -/
def dispatch (c : Client) (localTime : String) : Option (Except ClientFault (Client × List (Nat × ChatRequest))) :=
  match c.messages with
  | [] => none
  | m :: rest => some ({ c with messages := rest }.dispatchMessage W localTime m)

end Client

/-! ## What the user does -/

/-- What the user does: the button of the login window, with what is in its fields; a line of the room list; the buttons of the
lobby window, and of the box of `EnterChatRoom`; and the button of the chat window. -/
inductive UserAction where
  | login (id password : String)
  | select (index : Nat)
  | enter
  | answer (yes : Bool)
  | create (roomName : String)
  | refresh
  | send (message : String)
  deriving DecidableEq, Repr

namespace ClientUi

/-- The lobby window takes clicks when it is shown and no box of its own is open. -/
def LobbyOpen (u : ClientUi) : Prop := u.lobby.visible = true ∧ u.lobby.asking = none

instance (u : ClientUi) : Decidable u.LobbyOpen := inferInstanceAs (Decidable (_ ∧ _))

/-- `LoginWindow::TryLogin`. -/
def tryLogin (u : ClientUi) (id password : String) : List (Nat × ChatRequest) :=
  if id = "" ∨ password = "" then [] else u.send (.LoginReq id password)

/-- The button `IDC_BUTTON_ENTER` of the lobby window. -/
def clickEnter (u : ClientUi) : ClientUi :=
  match u.lobby.selected with
  | none => u
  | some selectedIndex =>
    match u.lobby.chatRooms[selectedIndex]? with
    | none => u
    | some room => { u with lobby := u.lobby.enterChatRoom (toInt32 room.roomID) }

/-- The end of `EnterChatRoom`, when its box was answered. -/
def answerBox (u : ClientUi) (roomId : Int) (yes : Bool) : ClientUi × List (Nat × ChatRequest) :=
  ({ u with lobby := { u.lobby with asking := none } }, if yes then u.send (.EnterChatRoomReq roomId) else [])

/-- `LobbyWindow::CreateNewChatRoom`, for a name that is not empty. -/
def clickCreate (u : ClientUi) (roomName : String) : List (Nat × ChatRequest) :=
  if roomName = "" then [] else u.send (.CreateChatRoomReq roomName)

/-- `ChatWindow::SendChatMessage`. -/
def sendChatMessage (u : ClientUi) (message : String) : List (Nat × ChatRequest) :=
  if u.chat.isConnect = false ∨ message = "" then []
  else
    match u.firstSession with
    | none => []
    | some session => [(session, .ChatReq (toUInt32 (u.stage session).uid) message 0)]

/-- What an action of the user does, if the window it needs is there. -/
def act (u : ClientUi) : UserAction → Option (ClientUi × List (Nat × ChatRequest))
  | .login id password => if u.login.visible = true then some (u, u.tryLogin id password) else none
  | .select index =>
    if u.LobbyOpen ∧ index < u.lobby.roomList.length then
      some ({ u with lobby := { u.lobby with selected := some index } }, [])
    else none
  | .enter => if u.LobbyOpen then some (u.clickEnter, []) else none
  | .answer yes => u.lobby.asking.map fun roomId => u.answerBox roomId yes
  | .create roomName => if u.LobbyOpen then some (u, u.clickCreate roomName) else none
  | .refresh => if u.LobbyOpen then some (u, u.send (.ChatRoomListReq true)) else none
  | .send message => if u.chat.visible = true then some (u, u.sendChatMessage message) else none

end ClientUi

end ProjectYJ
