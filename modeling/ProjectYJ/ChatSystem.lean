import ProjectYJ.ClientWindows

/-!
# The server and its clients

The chat server and any number of clients, as they act on one another. A connection carries the requests of its client to the
server and the answers of the server back, each way in order; the messages are taken to be short enough for `MakePacket`, and the
connections to last: what the send and receive paths do to bytes, and what closing a session does, are matters of other modules.
A request is handled as one step, as in `Chat`. What a client does is a parameter of the net, `ClientOps`, so that the clients of
`ClientWindows` and their abstract form are put into the same net.
-/

namespace ProjectYJ

/-- The messages of a list that belong to a connection. -/
def ofConnection {α : Type} (a : Nat) (l : List (Nat × α)) : List α := (l.filter (fun m => m.1 = a)).map Prod.snd

/-- What clients with these states do: the stage of a connection; the completion of `async_connect` and `OnConnected` with the UID
of the session; the handler of an answer; one turn of the message loop; and an action of the user. The last two come with the
requests that are sent, by connection. -/
structure ClientOps (κ : Type) where
  stage : κ → Nat → ClientStage
  connect : κ → Nat → κ
  onConnected : κ → Nat → Int → κ
  handle : κ → ChatAnswer → κ
  dispatch : κ → String → Option (κ × List (Nat × ChatRequest))
  act : κ → UserAction → Option (κ × List (Nat × ChatRequest))

/-- The clients of the program. After a fault there is no further turn of the message loop. -/
def clientOps (W : ClientPlatform) : ClientOps Client where
  stage c := c.stage
  connect c := c.connect
  onConnected c := c.onConnected W
  handle c := c.handle W
  dispatch c localTime := (c.dispatch W localTime).bind Except.toOption
  act c action := (c.toClientUi.act action).map fun r => ({ c with toClientUi := r.1 }, r.2)

/-- The server, with the rooms last entered; the clients; and what is on its way on each connection. The last three fields record
what happened: the requests the clients sent, the answers the server sent, and the answers the clients have handled, each with its
connection. -/
structure ChatNet (κ : Type) where
  server : ChatRun
  client : Nat → κ
  toServer : Nat → List ChatRequest
  toClient : Nat → List ChatAnswer
  asked : List (Nat × ChatRequest)
  sent : List (Nat × ChatAnswer)
  received : List (Nat × ChatAnswer)

/-- The steps. A connection completes and `OnConnected` runs for it; the server handles the next request of a connection; a packet
worker of the client handles the next answer; the windows of a client dispatch the next message, at some time of the day; the user
of a client does something. -/
inductive ChatNetStep where
  | connect (a : Nat)
  | onConnected (a : Nat)
  | serve (a : Nat)
  | receive (a : Nat)
  | dispatch (i : Nat) (localTime : String)
  | user (i : Nat) (action : UserAction)
  deriving DecidableEq, Repr

namespace ChatNet

variable {κ : Type}

/-- All clients in this state, and the server before the first request. -/
def init (uid : Nat → Int) (client : κ) : ChatNet κ where
  server := { chat := ChatState.init uid, lastRoom := fun _ => none }
  client := fun _ => client
  toServer := fun _ => []
  toClient := fun _ => []
  asked := []
  sent := []
  received := []

/-- A client changes. -/
def setClient (s : ChatNet κ) (i : Nat) (c : κ) : ChatNet κ := { s with client := Function.update s.client i c }

/-- Requests are sent. -/
def ask (s : ChatNet κ) (requests : List (Nat × ChatRequest)) : ChatNet κ :=
  { s with toServer := fun a => s.toServer a ++ ofConnection a requests, asked := s.asked ++ requests }

/-- The server has handled the next request of a connection, and sends what its handler sent. -/
def served (s : ChatNet κ) (a : Nat) (request : ChatRequest) (rest : List ChatRequest) (out : Handled) : ChatNet κ :=
  { s with
    server := { chat := out.state, lastRoom := s.server.lastRoomAfter a request }
    toServer := Function.update s.toServer a rest
    toClient := fun b => s.toClient b ++ ofConnection b out.sends
    sent := s.sent ++ out.sends }

/-- A client has taken the next answer of a connection. -/
def taken (s : ChatNet κ) (a : Nat) (answer : ChatAnswer) (rest : List ChatAnswer) : ChatNet κ :=
  { s with toClient := Function.update s.toClient a rest, received := s.received ++ [(a, answer)] }

end ChatNet

/-- The step function, for the client that each connection belongs to. The worker of a client finds the session of an answer once
`OnConnected` has registered it. After a fault of the server there is no further step of it. -/
def chatNetStep {κ : Type} (ops : ClientOps κ) (stringToUTF8 : String → String) (host : Nat → Nat) (s : ChatNet κ) :
    ChatNetStep → Option (ChatNet κ)
  | .connect a =>
    match ops.stage (s.client (host a)) a with
    | .connecting => some (s.setClient (host a) (ops.connect (s.client (host a)) a))
    | _ => none
  | .onConnected a =>
    match ops.stage (s.client (host a)) a with
    | .connected uid => some (s.setClient (host a) (ops.onConnected (s.client (host a)) a uid))
    | _ => none
  | .serve a =>
    match s.toServer a with
    | [] => none
    | request :: rest =>
      match s.server.chat.handle stringToUTF8 a request with
      | .error _ => none
      | .ok out => some (s.served a request rest out)
  | .receive a =>
    match ops.stage (s.client (host a)) a, s.toClient a with
    | .registered _, answer :: rest =>
      some ((s.taken a answer rest).setClient (host a) (ops.handle (s.client (host a)) answer))
    | _, _ => none
  | .dispatch i localTime => (ops.dispatch (s.client i) localTime).map fun r => (s.setClient i r.1).ask r.2
  | .user i action => (ops.act (s.client i) action).map fun r => (s.setClient i r.1).ask r.2

/-- The net of clients that all start alike. -/
def netOf {κ : Type} (ops : ClientOps κ) (client : κ) (stringToUTF8 : String → String) (uid : Nat → Int) (host : Nat → Nat) :
    Lts (ChatNet κ) ChatNetStep where
  init := ChatNet.init uid client
  step := chatNetStep ops stringToUTF8 host

/-- The server and its clients. -/
def chatNet (W : ClientPlatform) : (String → String) → (Nat → Int) → (Nat → Nat) → Lts (ChatNet Client) ChatNetStep :=
  netOf (clientOps W) Client.init

end ProjectYJ
