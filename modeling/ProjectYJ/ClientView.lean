import ProjectYJ.ChatSystem

/-!
# The clients without their heap

What a client does, said without addresses: the messages that wait are what they carry, in a queue in front of the windows. A
message of the queue is opened when it is dispatched; the one that tells the lobby window that a room was entered goes through the
queue a second time, for the main window. `viewNet` is the net of such clients; that the program's clients are of this kind is
proved in `Lemmas.ClientView`.
-/

namespace ProjectYJ

/-- What a message that waits to be dispatched tells the windows. `entered` is for the lobby window, `enterRoom` for the main
window. -/
inductive Mail where
  | connected
  | loginAck (userId : String)
  | roomList (rooms : List ChatRoomInfo)
  | entered (roomName : String)
  | enterRoom (roomName : String)
  | chat (sender message : String)
  deriving DecidableEq, Repr

/-- The windows, the mail that waits, and the mail that was lost because too much was waiting. -/
structure ClientView extends ClientUi where
  inbox : List Mail
  lost : List Mail

/-- The mail an answer of the server becomes. -/
def ChatAnswer.mail : ChatAnswer → List Mail
  | .LoginAck _ userID => [.loginAck userID]
  | .EnterChatRoomAck _ roomName => [.entered roomName]
  | .ChatRoomListAck _ chatroomInfo => [.roomList chatroomInfo]
  | .ChatAck sender message => [.chat sender message]
  | .DummyPacketAck _ => []

namespace ClientView

variable (W : ClientPlatform)

/-- Nothing waits. -/
def init : ClientView := { ClientUi.init with inbox := [], lost := [] }

/-- Mail comes in, or is lost. -/
def post (v : ClientView) (mail : Mail) : ClientView :=
  if v.inbox.length < W.postLimit then { v with inbox := v.inbox ++ [mail] } else { v with lost := v.lost ++ [mail] }

/-- An answer of the server comes in. -/
def handle (v : ClientView) (answer : ChatAnswer) : ClientView := answer.mail.foldl (fun v mail => v.post W mail) v

/-- The windows open some mail. -/
def openMail (v : ClientView) (localTime : String) : Mail → ClientView × List (Nat × ChatRequest)
  | .connected => (v, [])
  | .loginAck userId =>
    ({ v with toClientUi := (v.toClientUi.onLoginSuccess userId).showLobby userId }, v.send (.ChatRoomListReq true))
  | .roomList rooms => ({ v with toClientUi := v.toClientUi.updateLobby W rooms }, [])
  | .entered roomName => ({ v with toClientUi := v.toClientUi.hideLobby }.post W (.enterRoom roomName), [])
  | .enterRoom roomName => ({ v with toClientUi := v.toClientUi.enterRoom W localTime roomName }, [])
  | .chat sender message => ({ v with toClientUi := v.toClientUi.onMessageRecv W localTime sender message }, [])

/-- The windows open the mail that came first. -/
def dispatch (v : ClientView) (localTime : String) : Option (ClientView × List (Nat × ChatRequest)) :=
  match v.inbox with
  | [] => none
  | mail :: rest => some ({ v with inbox := rest }.openMail W localTime mail)

end ClientView

/-- The clients without their heap. -/
def viewOps (W : ClientPlatform) : ClientOps ClientView where
  stage v := v.stage
  connect v a := { v with toClientUi := v.toClientUi.connect a }
  onConnected v a uid := { v with toClientUi := v.toClientUi.register a uid }.post W .connected
  handle v := v.handle W
  dispatch v := v.dispatch W
  act v action := (v.toClientUi.act action).map fun r => ({ v with toClientUi := r.1 }, r.2)

/-- The server and clients without their heap. -/
def viewNet (W : ClientPlatform) : (String → String) → (Nat → Int) → (Nat → Nat) → Lts (ChatNet ClientView) ChatNetStep :=
  netOf (viewOps W) ClientView.init

end ProjectYJ
