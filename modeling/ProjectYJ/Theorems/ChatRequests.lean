import ProjectYJ.Lemmas.Chat

/-!
# Requests in any order

Each request handler relies on what earlier requests of the session have set up, and none checks it. `robust_iff` says that
a request is handled without a fault, or refused without an effect, exactly when its precondition holds; no handler refuses
anything.
-/

namespace ProjectYJ

open ChatState

/-- What a request takes for granted: a player, and for entering a room with the number asked for, for chatting a room to
chat in. -/
def Precond (s : ChatRun) : Nat × ChatRequest → Prop
  | (session, .EnterChatRoomReq roomID) =>
    (s.chat.player0 session).isSome ∧ 0 ≤ roomID ∧ (s.chat.getRoom roomID.toNat).isSome
  | (session, .CreateChatRoomReq _) => (s.chat.player0 session).isSome
  | (session, .ChatReq _ _ _) =>
    ∃ player ∈ s.chat.player0 session, ∃ room, room < s.chat.roomsMade ∧ player ∈ s.chat.members room
  | _ => True

instance Precond.decidable (s : ChatRun) : (l : Nat × ChatRequest) → Decidable (Precond s l)
  | (_, .EnterChatRoomReq _) => inferInstanceAs (Decidable (_ ∧ _))
  | (_, .CreateChatRoomReq _) => inferInstanceAs (Decidable (_ = true))
  | (_, .ChatReq _ _ _) => inferInstanceAs (Decidable (∃ player ∈ _, ∃ room, room < _ ∧ player ∈ s.chat.members room))
  | (_, .LoginReq _ _) | (_, .ChatRoomListReq _) | (_, .RefreshChatRoomReq) | (_, .DummyPacketReq _) => isTrue trivial

/-- A request is handled without a fault, and when its precondition does not hold it is refused: nothing is sent, and
sessions, players and rooms are what they were. -/
def Robust (stringToUTF8 : String → String) (s : ChatRun) (l : Nat × ChatRequest) : Prop :=
  ∃ out, s.chat.handle stringToUTF8 l.1 l.2 = .ok out ∧ (¬Precond s l → out.sends = [] ∧ out.state = s.chat)

variable {stringToUTF8 : String → String} {s : ChatRun}

/-- A request that is handled and answered was to be handled. -/
theorem Robust.precond {l : Nat × ChatRequest} (h : Robust stringToUTF8 s l)
    (hsends : ∀ out, s.chat.handle stringToUTF8 l.1 l.2 = .ok out → out.sends ≠ []) : Precond s l := by
  obtain ⟨out, hout, hrefused⟩ := h
  by_contra hpre
  exact hsends out hout (hrefused hpre).1

theorem robust_of_ok {l : Nat × ChatRequest} (hpre : Precond s l)
    (h : ∃ out, s.chat.handle stringToUTF8 l.1 l.2 = .ok out) : Robust stringToUTF8 s l := by
  obtain ⟨out, hout⟩ := h
  exact ⟨out, hout, fun hnot => absurd hpre hnot⟩

/-- A chat message always goes to someone: a room that has a number has a member. -/
theorem broadCast_ne_nil (hs : ChatInv s) {roomID room : Nat} (hroom : s.chat.getRoom roomID = some room)
    (answer : ChatAnswer) : s.chat.broadCast room answer ≠ [] := by
  obtain ⟨p, hp⟩ := hs.creator roomID room hroom
  intro hnil
  rw [List.map_eq_nil_iff.1 hnil] at hp
  cases hp

/-- In every state, and for every request: it is handled as it should be exactly when its precondition holds. -/
theorem robust_iff (hs : ChatInv s) (l : Nat × ChatRequest) : Robust stringToUTF8 s l ↔ Precond s l := by
  obtain ⟨session, request⟩ := l
  cases request with
  | EnterChatRoomReq roomID =>
    constructor
    · intro h
      refine h.precond fun out hout => ?_
      obtain ⟨_, _, _, _, _, hsends⟩ := handleEnterChatRoomReq_ok hout
      exact hsends
    · intro hpre
      obtain ⟨hplayer, hnonneg, hroom⟩ := id hpre
      obtain ⟨player, hplayer⟩ := Option.isSome_iff_exists.1 hplayer
      obtain ⟨room, hroom⟩ := Option.isSome_iff_exists.1 hroom
      -- the number is a room's as an integer, so that the conversion to 16 bits does not change it
      have hlt := (hs.rooms _ room hroom).1
      have hid : toUInt16 roomID = roomID.toNat := by
        unfold toUInt16
        omega
      exact robust_of_ok hpre (handleEnterChatRoomReq_of hplayer (hid ▸ hroom))
  | CreateChatRoomReq roomName =>
    constructor
    · intro h
      refine h.precond fun out hout => ?_
      obtain ⟨_, _, _, hsends⟩ := handleCreateChatRoomReq_ok hout
      exact hsends
    · intro hpre
      obtain ⟨player, hplayer⟩ := Option.isSome_iff_exists.1 hpre
      exact robust_of_ok hpre (handleCreateChatRoomReq_of hplayer)
  | ChatReq sessionUID message roomID =>
    constructor
    · intro h
      refine h.precond fun out hout => ?_
      obtain ⟨_, room, _, hroom, _, hsends⟩ := handleChatReq_ok hout
      rw [hsends]
      exact broadCast_ne_nil hs hroom _
    · intro hpre
      obtain ⟨player, hplayer, room, _, hmember⟩ := id hpre
      obtain ⟨_, hroom⟩ := hs.listed room player hmember
      obtain ⟨room', hroom'⟩ := Option.isSome_iff_exists.1 hroom
      obtain ⟨out, hout, _⟩ := handleChatReq_of hplayer hroom' message
      exact robust_of_ok hpre ⟨out, hout⟩
  | LoginReq | ChatRoomListReq | RefreshChatRoomReq | DummyPacketReq =>
    exact ⟨fun _ => trivial, fun hpre => robust_of_ok hpre ⟨_, rfl⟩⟩

/-- From every state that requests lead to, and for every sequence of further requests: each of them is handled as it should
be exactly when each meets its precondition in its turn. -/
theorem requests_robust_iff {uid : Nat → Int} {ls : List (Nat × ChatRequest)}
    (h : (chatSystem stringToUTF8 uid).run (chatSystem stringToUTF8 uid).init ls = some s) (rs : List (Nat × ChatRequest)) :
    (chatSystem stringToUTF8 uid).Meets (Robust stringToUTF8) s rs ↔ (chatSystem stringToUTF8 uid).Meets Precond s rs :=
  (chatSystem stringToUTF8 uid).meets_congr (fun _ _ _ hs hstep => ChatInv.step hs hstep) (fun _ l hs => robust_iff hs l)
    (ChatInv.run h) rs

/-- A client that logs in, creates a room and chats in it, and another that enters the room and chats. -/
def orderly : List (Nat × ChatRequest) :=
  [(0, .LoginReq "a" "x"), (0, .CreateChatRoomReq "room"), (1, .LoginReq "b" "y"), (0, .ChatReq 0 "hello" 1),
    (1, .ChatRoomListReq true), (1, .EnterChatRoomReq 1), (1, .ChatReq 1 "hi" 1)]

theorem requests_robust_iff_orderly : (chatSystem id (fun a => a)).Meets (Robust id) (chatSystem id (fun a => a)).init orderly :=
  (@requests_robust_iff id (chatSystem id (fun a => a)).init (fun a => a) [] rfl orderly).2 (by decide)

/-- A client that is logged in enters a room that does not exist. -/
theorem not_every_request_robust :
    ¬∀ ls s l, (chatSystem id (fun a => a)).run (chatSystem id (fun a => a)).init ls = some s → Robust id s l := by
  intro hall
  have hfault : ((chatSystem id (fun a => a)).run (chatSystem id (fun a => a)).init [(0, .LoginReq "a" "x")]).map
      (fun s => (s.chat.handle id 0 (.EnterChatRoomReq 99)).toOption.isSome) = some false := by decide
  obtain ⟨s, hs, hnone⟩ := Option.map_eq_some_iff.1 hfault
  obtain ⟨out, hout, _⟩ := hall _ s (0, .EnterChatRoomReq 99) hs
  rw [hout] at hnone
  cases hnone

end ProjectYJ
