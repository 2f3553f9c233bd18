import ProjectYJ.GameSession
import ProjectYJ.Lib.MachineInt
import ProjectYJ.Lib.Multimap
import Mathlib.Logic.Function.Basic

/-!
# Players, chat rooms and the request handlers

`Player.h`, `ChatRoom.cpp`, `ChatRoomManager.cpp` and the handlers of `ClientPacketHandler.cpp`. Sessions, players and rooms
are objects behind shared pointers, named by numbers here. A request is handled as one step: the requests of one session are
handled one after another, and the handlers of different sessions share only the rooms and the list of rooms, which they use
under a mutex. `StringToUTF8`, a conversion by the operating system, is a parameter.
-/

namespace ProjectYJ

/-- `Player`. `ownerSession` is a pointer; a login sets it as soon as the player is made. -/
structure Player where
  playerUID : Nat
  name : String
  chatRoomID : Nat
  ownerSession : Nat
  deriving DecidableEq, Repr

/-- `ChatRoom`. `members` is `m_ChatRoom`, which holds each player under the `m_ChatRoomID` it had when it entered. -/
structure ChatRoom where
  roomID : Nat
  roomName : String
  maxUser : Nat
  members : Multimap Nat Nat

/-- `ChatRoomInfo` of `Struct.proto`. -/
structure ChatRoomInfo where
  roomID : Nat
  currentUser : Nat
  maxUser : Nat
  roomName : String
  deriving DecidableEq, Repr

/-- The messages a client sends, with their fields. -/
inductive ChatRequest where
  | EnterChatRoomReq (roomID : Int)
  | LoginReq (id password : String)
  | ChatRoomListReq (success : Bool)
  | CreateChatRoomReq (roomName : String)
  | RefreshChatRoomReq
  | ChatReq (sessionUID : Nat) (message : String) (roomID : Nat)
  | DummyPacketReq (message : String)
  deriving DecidableEq, Repr

/-- The messages the handlers send. -/
inductive ChatAnswer where
  | EnterChatRoomAck (roomID : Nat) (roomName : String)
  | LoginAck (success : Bool) (userID : String)
  | ChatRoomListAck (success : Bool) (chatroomInfo : List ChatRoomInfo)
  | ChatAck (sender message : String)
  | DummyPacketAck (message : String)
  deriving DecidableEq, Repr

namespace ChatRoom

/-- A room nobody made yet. -/
def unmade : ChatRoom := { roomID := 0, roomName := "", maxUser := 0, members := .empty }

/-- `Enter`, of a player with this `m_ChatRoomID`. -/
def enter (r : ChatRoom) (chatRoomID player : Nat) : ChatRoom := { r with members := r.members.emplace chatRoomID player }

/-- `Leave`, of a player with this `m_ChatRoomID`: the entries are erased by key. -/
def leave (r : ChatRoom) (chatRoomID : Nat) : ChatRoom := { r with members := r.members.erase chatRoomID }

/-- `GetCurrentUser`. -/
def getCurrentUser (r : ChatRoom) : Nat := toUInt16 r.members.size

/-- `GetRoomInfo`. -/
def getRoomInfo (r : ChatRoom) : ChatRoomInfo :=
  { roomID := r.roomID, currentUser := r.getCurrentUser, maxUser := r.maxUser, roomName := r.roomName }

end ChatRoom

/-- The sessions, the players and the rooms that were made so far, and the `ChatRoomManager`: `rooms` is its `m_ChatRoom`. -/
structure ChatState where
  session : Nat → GameSession
  player : Nat → Player
  playersMade : Nat
  chatRoom : Nat → ChatRoom
  roomsMade : Nat
  rooms : Std.TreeMap Nat Nat
  roomNumber : Nat

/-- What a handler runs into when it takes for granted what no earlier request has set up. -/
inductive ChatFault where
  | emptyPlayers
  | nullRoom
  deriving DecidableEq, Repr

/-- What a handler did: the state it left, the messages it sent with the session each went to, in order, and the value it
returned. Some handlers end without a return statement. -/
structure Handled where
  state : ChatState
  sends : List (Nat × ChatAnswer)
  returns : Option Bool

namespace ChatState

/-- Before the first request, with sessions of these UIDs. -/
def init (uid : Nat → Int) : ChatState where
  session := fun a => { GameSession.new with sessionUID := uid a }
  player := fun _ => { playerUID := 0, name := "", chatRoomID := 0, ownerSession := 0 }
  playersMade := 0
  chatRoom := fun _ => ChatRoom.unmade
  roomsMade := 0
  rooms := ∅
  roomNumber := 0

/-- The players of a room, in the order of its multimap. -/
def members (s : ChatState) (room : Nat) : List Nat := (s.chatRoom room).members.values

/-- `m_Player[0]` of a session, if there is one. -/
def player0 (s : ChatState) (session : Nat) : Option Nat := (s.session session).players.head?

/-- Reading `m_Player[0]`. -/
def readPlayer (s : ChatState) (session : Nat) : Except ChatFault Nat :=
  match s.player0 session with
  | none => .error .emptyPlayers
  | some player => .ok player

/-- Using the `ChatRoomPtr` that `GetRoom` returned. -/
def derefRoom : Option Nat → Except ChatFault Nat
  | none => .error .nullRoom
  | some room => .ok room

/-- `player->m_ChatRoomID = roomID`. -/
def setChatRoomID (s : ChatState) (player roomID : Nat) : ChatState :=
  { s with player := Function.update s.player player { s.player player with chatRoomID := roomID } }

/-- `room->Enter(player)`. -/
def enter (s : ChatState) (room player : Nat) : ChatState :=
  { s with chatRoom := Function.update s.chatRoom room ((s.chatRoom room).enter (s.player player).chatRoomID player) }

/-- `room->Leave(player)`. -/
def leave (s : ChatState) (room player : Nat) : ChatState :=
  { s with chatRoom := Function.update s.chatRoom room ((s.chatRoom room).leave (s.player player).chatRoomID) }

/-- `ChatRoomManager::GetRoom`. -/
def getRoom (s : ChatState) (roomID : Nat) : Option Nat := s.rooms[roomID]?

/-- The room number after `fetch_add(1)` on the 16-bit counter. -/
def nextRoomNumber (s : ChatState) : Nat := toUInt16 (s.roomNumber + 1)

variable (stringToUTF8 : String → String)

/-- `ChatRoomManager::CreateRoom`: the state it leaves, in which the new room is the last one made. An entry of the same
number is assigned the new room. -/
def createRoom (s : ChatState) (name : String) (maxUser : Nat) : ChatState :=
  { s with
    roomNumber := s.nextRoomNumber
    chatRoom := Function.update s.chatRoom s.roomsMade
      { roomID := s.nextRoomNumber, roomName := stringToUTF8 name, maxUser := maxUser, members := .empty }
    roomsMade := s.roomsMade + 1
    rooms := s.rooms.insert s.nextRoomNumber s.roomsMade }

/-- `ChatRoomManager::RemoveRoom`. -/
def removeRoom (s : ChatState) (roomID : Nat) : ChatState := { s with rooms := s.rooms.erase roomID }

/-- `ChatRoomManager::GetAllRoom`: the rooms in the order of their numbers. -/
def getAllRoom (s : ChatState) : List (Nat × Nat) := s.rooms.toList

/-- `room->BroadCast(packet)`: one `Send` for each entry of the room. -/
def broadCast (s : ChatState) (room : Nat) (answer : ChatAnswer) : List (Nat × ChatAnswer) :=
  (s.members room).map (fun player => ((s.player player).ownerSession, answer))

/-! ## The handlers -/

/-- `HandleEnterChatRoomReq`. `roomid()` is an `int32` and becomes a `uint16` both as the `m_ChatRoomID` and as the argument
of `GetRoom`. -/
def handleEnterChatRoomReq (s : ChatState) (session : Nat) (roomID : Int) : Except ChatFault Handled := do
  let player ← s.readPlayer session
  let s := s.setChatRoomID player (toUInt16 roomID)
  let selectRoom ← derefRoom (s.getRoom (toUInt16 roomID))
  let s := s.enter selectRoom player
  let room := s.chatRoom selectRoom
  return { state := s, sends := [(session, .EnterChatRoomAck room.roomID room.roomName)], returns := none }

/-- `HandleLoginReq`: the session gets one more player, whether or not it has one. -/
def handleLoginReq (s : ChatState) (session : Nat) (id : String) : Except ChatFault Handled :=
  let gameSession := s.session session
  let player : Player :=
    { playerUID := toUInt64 gameSession.sessionUID, name := id, chatRoomID := 0, ownerSession := session }
  let s := { s with
    player := Function.update s.player s.playersMade player
    playersMade := s.playersMade + 1
    session := Function.update s.session session (gameSession.addPlayer s.playersMade) }
  .ok { state := s, sends := [(session, .LoginAck true id)], returns := some true }

/-- `HandleChatRoomListReq`: the rooms in the order of their numbers. `success` is set with the first one. -/
def handleChatRoomListReq (s : ChatState) (session : Nat) : Except ChatFault Handled :=
  let chatroomInfo := s.rooms.toList.map (fun entry => (s.chatRoom entry.2).getRoomInfo)
  .ok { state := s, sends := [(session, .ChatRoomListAck (!chatroomInfo.isEmpty) chatroomInfo)], returns := some true }

/-- `HandleCreateChatRoomReq`: the player enters with the `m_ChatRoomID` it had so far, and gets the new one after that. -/
def handleCreateChatRoomReq (s : ChatState) (session : Nat) (roomName : String) : Except ChatFault Handled := do
  let player ← s.readPlayer session
  let newRoom := s.roomsMade
  let s := s.createRoom stringToUTF8 roomName 10
  let roomID := (s.chatRoom newRoom).roomID
  let s := (s.enter newRoom player).setChatRoomID player roomID
  return { state := s, sends := [(session, .EnterChatRoomAck roomID roomName)], returns := none }

/-- `HandleRefreshChatRoomReq`. -/
def handleRefreshChatRoomReq (s : ChatState) : Except ChatFault Handled :=
  .ok { state := s, sends := [], returns := some true }

/-- `HandleChatReq`: of the request only the message is read. -/
def handleChatReq (s : ChatState) (session : Nat) (message : String) : Except ChatFault Handled := do
  let player ← s.readPlayer session
  let selectRoom ← derefRoom (s.getRoom (s.player player).chatRoomID)
  return { state := s, sends := s.broadCast selectRoom (.ChatAck (s.player player).name message), returns := none }

/-- `HandleDummyPacketReq`. -/
def handleDummyPacketReq (s : ChatState) (session : Nat) (message : String) : Except ChatFault Handled :=
  .ok { state := s, sends := [(session, .DummyPacketAck message)], returns := some false }

/-- The handler of a request. -/
def handle (s : ChatState) (session : Nat) : ChatRequest → Except ChatFault Handled
  | .EnterChatRoomReq roomID => s.handleEnterChatRoomReq session roomID
  | .LoginReq id _ => s.handleLoginReq session id
  | .ChatRoomListReq _ => s.handleChatRoomListReq session
  | .CreateChatRoomReq roomName => s.handleCreateChatRoomReq stringToUTF8 session roomName
  | .RefreshChatRoomReq => s.handleRefreshChatRoomReq
  | .ChatReq _ message _ => s.handleChatReq session message
  | .DummyPacketReq message => s.handleDummyPacketReq session message

end ChatState

/-! ## Runs of requests -/

/-- A state of the server, and for each player the room it entered or created last, which no field of the program holds. -/
structure ChatRun where
  chat : ChatState
  lastRoom : Nat → Option Nat

namespace ChatRun

/-- The room that a request is about to bring a player to. -/
def destination (s : ChatRun) : ChatRequest → Option Nat
  | .EnterChatRoomReq roomID => s.chat.getRoom (toUInt16 roomID)
  | .CreateChatRoomReq _ => some s.chat.roomsMade
  | _ => none

/-- What the rooms last entered are after a request: that of the player the request is handled for changes, if it goes
anywhere. -/
def lastRoomAfter (s : ChatRun) (session : Nat) (request : ChatRequest) : Nat → Option Nat :=
  match s.chat.player0 session, s.destination request with
  | some player, some room => Function.update s.lastRoom player (some room)
  | _, _ => s.lastRoom

end ChatRun

/-- A session and its request. After a fault there is no further step. -/
def chatStep (stringToUTF8 : String → String) (s : ChatRun) (l : Nat × ChatRequest) : Option ChatRun :=
  match s.chat.handle stringToUTF8 l.1 l.2 with
  | .error _ => none
  | .ok out => some { chat := out.state, lastRoom := s.lastRoomAfter l.1 l.2 }

/-- The server as its clients drive it. -/
def chatSystem (stringToUTF8 : String → String) (uid : Nat → Int) : Lts ChatRun (Nat × ChatRequest) where
  init := { chat := ChatState.init uid, lastRoom := fun _ => none }
  step := chatStep stringToUTF8

end ProjectYJ
