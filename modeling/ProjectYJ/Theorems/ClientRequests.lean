import ProjectYJ.Lemmas.ClientRequests
import ProjectYJ.Theorems.ChatWindow

/-!
# The clients ask for what the server can handle

The handlers of the server take for granted what earlier requests of a session have set up, and check nothing. What saves them from
the program's own clients is the windows: the lobby window comes with the answer to a login, its list names rooms of the server, and
the chat window is connected by the answer to an entry. `clients_keep_preconditions` says that this is enough as long as a client has
one first session; a client that gets another one after its login sends on a session the server knows no player of, and
`late_session_faults` is a run in which that stops the server.
-/

namespace ProjectYJ

open ChatState

/-- For every run in which no client gets another first session after it has sent something, whatever the users do and however the
steps of the server, the packet workers and the windows interleave: each request on its way to the server meets its precondition, so
that its handler goes through. -/
theorem clients_keep_preconditions {W : ClientPlatform} {stringToUTF8 : String → String} {uid : Nat → Int} {host : Nat → Nat}
    {ls : List ChatNetStep} {s : ChatNet Client}
    (h : (chatNet W stringToUTF8 uid host).run (chatNet W stringToUTF8 uid host).init ls = some s)
    (hsettled : (chatNet W stringToUTF8 uid host).Meets (Settled Client.toClientUi host)
      (chatNet W stringToUTF8 uid host).init ls) (a : Nat) {request : ChatRequest} (hwaits : request ∈ s.toServer a) :
    Precond s.server (a, request) ∧ ∃ out, s.server.chat.handle stringToUTF8 a request = .ok out := by
  have hkeeps := chatNet_run_keeps h hsettled
  have hpre : Precond s.server (a, request) := ChatNet.precond_of_known (hkeeps.requests a request hwaits)
  obtain ⟨out, hout, -⟩ := (@robust_iff stringToUTF8 _ hkeeps.chat (a, request)).2 hpre
  exact ⟨hpre, out, hout⟩

/-- A client with two sessions, of which the one with the larger UID is registered first; its user logs in and creates a room. -/
def twoSessions : List ChatNetStep :=
  [.connect 0, .connect 1, .onConnected 1, .dispatch 0 "12:00:00", .user 0 (.login "ann" "pw"), .serve 1, .receive 1,
    .dispatch 0 "12:00:01", .serve 1, .user 0 (.create "room")]

theorem clients_keep_preconditions_twoSessions : ∃ s,
    (chatNet asciiPlatform id (fun a => a) (fun _ => 0)).run (chatNet asciiPlatform id (fun a => a) (fun _ => 0)).init twoSessions =
      some s ∧
    s.toServer 1 = [.CreateChatRoomReq "room"] ∧ Precond s.server (1, .CreateChatRoomReq "room") ∧
      ∃ out, s.server.chat.handle id 1 (.CreateChatRoomReq "room") = .ok out := by
  have hruns : ((chatNet asciiPlatform id (fun a => a) (fun _ => 0)).run
      (chatNet asciiPlatform id (fun a => a) (fun _ => 0)).init twoSessions).map (fun s => s.toServer 1) =
        some [.CreateChatRoomReq "room"] := by decide +kernel
  obtain ⟨s, hs, hwaits⟩ := Option.map_eq_some_iff.1 hruns
  have hsettled : (chatNet asciiPlatform id (fun a => a) (fun _ => 0)).Meets (Settled Client.toClientUi (fun _ => 0))
      (chatNet asciiPlatform id (fun a => a) (fun _ => 0)).init twoSessions := by decide +kernel
  have hmem : ChatRequest.CreateChatRoomReq "room" ∈ s.toServer 1 := by simp [hwaits]
  exact ⟨s, hs, hwaits, clients_keep_preconditions hs hsettled 1 hmem⟩

/-- When the other session is registered after the login, it is the first one, and the room is asked for on a session that has no
player. -/
theorem late_session_faults : ∃ ls s,
    (chatNet asciiPlatform id (fun a => a) (fun _ => 0)).run (chatNet asciiPlatform id (fun a => a) (fun _ => 0)).init ls = some s ∧
    s.toServer 0 = [.CreateChatRoomReq "room"] ∧
      (s.server.chat.handle id 0 (.CreateChatRoomReq "room")).toOption.isNone = true := by
  have hruns : ((chatNet asciiPlatform id (fun a => a) (fun _ => 0)).run (chatNet asciiPlatform id (fun a => a) (fun _ => 0)).init
      [.connect 0, .connect 1, .onConnected 1, .dispatch 0 "12:00:00", .user 0 (.login "ann" "pw"), .serve 1, .receive 1,
        .dispatch 0 "12:00:01", .serve 1, .onConnected 0, .user 0 (.create "room")]).map
      (fun s => (s.toServer 0, (s.server.chat.handle id 0 (.CreateChatRoomReq "room")).toOption.isNone)) =
        some ([.CreateChatRoomReq "room"], true) := by decide +kernel
  obtain ⟨s, hs, hfault⟩ := Option.map_eq_some_iff.1 hruns
  obtain ⟨hwaits, hnone⟩ := Prod.mk.inj hfault
  exact ⟨_, s, hs, hwaits, hnone⟩

end ProjectYJ
