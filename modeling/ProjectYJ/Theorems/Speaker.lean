import ProjectYJ.Lemmas.Chat

/-!
# Who speaks, and where

A login appends a player to its session; every later request of the session acts for the first one. And a room's number is
its place in the order of creation modulo `2 ^ 16`, under which the manager knows the last room made. `speaks_iff` says when
the identity and the room a chat is sent under are still those the client was told.
-/

namespace ProjectYJ

open ChatState

/-- The ids of the `LoginReq`s of a session. -/
def loginIds (session : Nat) (ls : List (Nat × ChatRequest)) : List String :=
  ls.filterMap fun l =>
    match l.2 with
    | .LoginReq id _ => if l.1 = session then some id else none
    | _ => none

/-- The `userID`s of the successful `LoginAck`s among some messages to a session. -/
def loginAcks (session : Nat) (sends : List (Nat × ChatAnswer)) : List String :=
  sends.filterMap fun m =>
    match m.2 with
    | .LoginAck true userID => if m.1 = session then some userID else none
    | _ => none

/-- A run, with what its clients can know: the `userID`s acknowledged to each session, in order, and the room each session
entered or created last. -/
structure SpeakRun where
  run : ChatRun
  acked : Nat → List String
  entered : Nat → Option Nat

namespace SpeakRun

/-- The rooms last entered after a request: that of the session changes, if the request leads anywhere. -/
def enteredAfter (r : SpeakRun) (session : Nat) (request : ChatRequest) : Nat → Option Nat :=
  match r.run.destination request with
  | none => r.entered
  | some room => Function.update r.entered session (some room)

/-- The server as its clients drive it, and what they know. -/
def system (stringToUTF8 : String → String) (uid : Nat → Int) : Lts SpeakRun (Nat × ChatRequest) where
  init := { run := (chatSystem stringToUTF8 uid).init, acked := fun _ => [], entered := fun _ => none }
  step r l :=
    match r.run.chat.handle stringToUTF8 l.1 l.2 with
    | .error _ => none
    | .ok out => some
        { run := { chat := out.state, lastRoom := r.run.lastRoomAfter l.1 l.2 }
          acked := fun a => r.acked a ++ loginAcks a out.sends
          entered := r.enteredAfter l.1 l.2 }

/-- The `ChatReq` of a session is broadcast to the room it entered last, and to no other, under the `userID` acknowledged to it
last. -/
def Speaks (stringToUTF8 : String → String) (r : SpeakRun) (session : Nat) (sessionUID : Nat) (message : String)
    (roomID : Nat) : Prop :=
  ∃ out player room userID, r.run.chat.handle stringToUTF8 session (.ChatReq sessionUID message roomID) = .ok out ∧
    r.run.chat.player0 session = some player ∧ r.run.chat.getRoom (r.run.chat.player player).chatRoomID = some room ∧
    r.entered session = some room ∧ (r.acked session).getLast? = some userID ∧
    out.sends = r.run.chat.broadCast room (.ChatAck userID message)

end SpeakRun

/-! ## What a request does to names and numbers -/

section

variable {stringToUTF8 : String → String} {s : ChatState}

theorem setChatRoomID_name (player roomID q : Nat) :
    ((s.setChatRoomID player roomID).player q).name = (s.player q).name := by
  by_cases hq : q = player
  · subst hq
    simp [setChatRoomID]
  · simp [setChatRoomID, hq]

/-- Only a login is acknowledged by a `LoginAck`: with its id, to its session. -/
theorem loginAcks_handle {session : Nat} {request : ChatRequest} {out : Handled}
    (h : s.handle stringToUTF8 session request = .ok out) (a : Nat) :
    loginAcks a out.sends = loginIds a [(session, request)] := by
  cases request with
  | EnterChatRoomReq roomID =>
    obtain ⟨player, -, h⟩ := except_of_bind h
    obtain ⟨room, -, h⟩ := except_of_bind h
    cases h
    rfl
  | CreateChatRoomReq roomName =>
    obtain ⟨player, -, h⟩ := except_of_bind h
    cases h
    rfl
  | ChatReq sessionUID message roomID =>
    obtain ⟨player, room, -, -, -, hsends⟩ := handleChatReq_ok h
    rw [hsends]
    simp [loginAcks, loginIds, broadCast]
  | LoginReq | ChatRoomListReq | RefreshChatRoomReq | DummyPacketReq =>
    cases h
    rfl

end

/-! ## The invariant -/

/-- What holds of names and numbers in every state: the players of a session are its own and named as it was acknowledged;
the manager knows under a number the last room made with it; and the first player of a session that has entered a room has
the number of the room it entered last. -/
structure SpeakInv (r : SpeakRun) : Prop where
  chat : ChatInv r.run
  names : ∀ a, (r.run.chat.session a).players.map (fun p => (r.run.chat.player p).name) = r.acked a
  owner : ∀ a, ∀ p ∈ (r.run.chat.session a).players, (r.run.chat.player p).ownerSession = a
  number : r.run.chat.roomNumber = r.run.chat.roomsMade % 65536
  rooms : ∀ k y, r.run.chat.getRoom k = some y ↔
    y < r.run.chat.roomsMade ∧ (y + 1) % 65536 = k ∧ r.run.chat.roomsMade ≤ y + 65536
  entered : ∀ a x, r.entered a = some x → ∃ p, r.run.chat.player0 a = some p ∧ r.run.lastRoom p = some x ∧
    (r.run.chat.player p).chatRoomID = (x + 1) % 65536

namespace SpeakInv

variable {stringToUTF8 : String → String} {uid : Nat → Int} {r : SpeakRun}

theorem init (uid : Nat → Int) : SpeakInv (SpeakRun.system stringToUTF8 uid).init where
  chat := @ChatInv.init stringToUTF8 uid
  names _ := rfl
  owner _ _ h := absurd h List.not_mem_nil
  number := rfl
  rooms k y := by
    have hnone : (ChatState.init uid).getRoom k = none := Std.TreeMap.getElem?_emptyc
    exact iff_of_false (fun h => nomatch hnone.symm.trans h) (fun h => absurd h.1 (Nat.not_lt_zero y))
  entered _ _ h := nomatch h

/-- The first players of two sessions are two players. -/
theorem player0_ne (h : SpeakInv r) {a b p q : Nat} (hp : r.run.chat.player0 a = some p)
    (hq : r.run.chat.player0 b = some q) (hab : a ≠ b) : p ≠ q := by
  rintro rfl
  exact hab ((h.owner a p (List.mem_of_mem_head? hp)).symm.trans (h.owner b p (List.mem_of_mem_head? hq)))

/-- The next room gets the number of its place in the order of creation. -/
theorem nextRoomNumber (h : SpeakInv r) : r.run.chat.nextRoomNumber = (r.run.chat.roomsMade + 1) % 65536 := by
  have hnumber := h.number
  unfold ChatState.nextRoomNumber toUInt16
  omega

/-- A request that brings the first player of its session to a room, without touching names and owners. -/
theorem joins (h : SpeakInv r) {r' : SpeakRun} {session player : Nat} (hplayer : r.run.chat.player0 session = some player)
    (room : Nat) (hchat : ChatInv r'.run) (hacked : r'.acked = r.acked) (hsession : r'.run.chat.session = r.run.chat.session)
    (hname : ∀ q, (r'.run.chat.player q).name = (r.run.chat.player q).name)
    (howner : ∀ q, (r'.run.chat.player q).ownerSession = (r.run.chat.player q).ownerSession)
    (hnumber : r'.run.chat.roomNumber = r'.run.chat.roomsMade % 65536)
    (hrooms : ∀ k y, r'.run.chat.getRoom k = some y ↔
      y < r'.run.chat.roomsMade ∧ (y + 1) % 65536 = k ∧ r'.run.chat.roomsMade ≤ y + 65536)
    (hid : ∀ q, (r'.run.chat.player q).chatRoomID =
      if q = player then (room + 1) % 65536 else (r.run.chat.player q).chatRoomID)
    (hlast : r'.run.lastRoom = Function.update r.run.lastRoom player (some room))
    (hentered : r'.entered = Function.update r.entered session (some room)) : SpeakInv r' := by
  have hplayer0 : ∀ a, r'.run.chat.player0 a = r.run.chat.player0 a := by
    intro a
    simp only [ChatState.player0, hsession]
  refine ⟨hchat, ?_, ?_, hnumber, hrooms, ?_⟩
  · intro a
    simp only [hsession, hname, hacked]
    exact h.names a
  · intro a p hp
    rw [hsession] at hp
    rw [howner]
    exact h.owner a p hp
  · intro a x hx
    rw [hplayer0]
    by_cases ha : a = session
    · subst ha
      rw [hentered, Function.update_self] at hx
      obtain rfl := Option.some.inj hx
      refine ⟨player, hplayer, ?_, ?_⟩
      · rw [hlast, Function.update_self]
      · rw [hid, if_pos rfl]
    · rw [hentered, Function.update_of_ne ha] at hx
      obtain ⟨p, hp, hlastp, hidp⟩ := h.entered a x hx
      have hne := h.player0_ne hp hplayer ha
      refine ⟨p, hp, ?_, ?_⟩
      · rw [hlast, Function.update_of_ne hne, hlastp]
      · rw [hid, if_neg hne, hidp]

/-- A login: the session gets one more player, which is the first if it had none. -/
theorem login (h : SpeakInv r) {r' : SpeakRun} (session : Nat) {new : Player} (hchat : ChatInv r'.run)
    (hsession : r'.run.chat.session = Function.update r.run.chat.session session
      ((r.run.chat.session session).addPlayer r.run.chat.playersMade))
    (hplayer : r'.run.chat.player = Function.update r.run.chat.player r.run.chat.playersMade new)
    (howner : new.ownerSession = session) (hnumber : r'.run.chat.roomNumber = r.run.chat.roomNumber)
    (hmade : r'.run.chat.roomsMade = r.run.chat.roomsMade) (hrooms : ∀ k, r'.run.chat.getRoom k = r.run.chat.getRoom k)
    (hlast : r'.run.lastRoom = r.run.lastRoom) (hentered : r'.entered = r.entered)
    (hacked : ∀ a, r'.acked a = r.acked a ++ if a = session then [new.name] else []) : SpeakInv r' := by
  have hold : ∀ a, ∀ p ∈ (r.run.chat.session a).players, r'.run.chat.player p = r.run.chat.player p := by
    intro a p hp
    rw [hplayer, Function.update_of_ne (Nat.ne_of_lt (h.chat.owned a p hp))]
  have hnew : r'.run.chat.player r.run.chat.playersMade = new := by
    rw [hplayer, Function.update_self]
  have hplayers : ∀ a, (r'.run.chat.session a).players =
      (r.run.chat.session a).players ++ if a = session then [r.run.chat.playersMade] else [] := by
    intro a
    rw [hsession]
    by_cases ha : a = session
    · subst ha
      simp [GameSession.addPlayer]
    · simp [ha]
  refine ⟨hchat, ?_, ?_, ?_, ?_, ?_⟩
  · intro a
    rw [hplayers, List.map_append, hacked, ← h.names a]
    congr 1
    · exact List.map_congr_left fun p hp => congrArg Player.name (hold a p hp)
    · split
      · rw [List.map_singleton, hnew]
      · rfl
  · intro a p hp
    rw [hplayers] at hp
    rcases List.mem_append.1 hp with hp | hp
    · rw [hold a p hp]
      exact h.owner a p hp
    · split at hp
      · rename_i ha
        rw [List.mem_singleton.1 hp, hnew, howner, ha]
      · cases hp
  · rw [hnumber, hmade]
    exact h.number
  · intro k y
    rw [hrooms, hmade]
    exact h.rooms k y
  · intro a x hx
    rw [hentered] at hx
    obtain ⟨p, hp, hlastp, hid⟩ := h.entered a x hx
    refine ⟨p, ?_, ?_, ?_⟩
    · rw [ChatState.player0, hplayers]
      rw [List.head?_append, show (r.run.chat.session a).players.head? = some p from hp, Option.some_or]
    · rw [hlast]
      exact hlastp
    · rw [hold a p (List.mem_of_mem_head? hp)]
      exact hid

/-- Every request keeps it. -/
theorem step (h : SpeakInv r) {l : Nat × ChatRequest} {r' : SpeakRun}
    (hr : (SpeakRun.system stringToUTF8 uid).step r l = some r') : SpeakInv r' := by
  obtain ⟨session, request⟩ := l
  simp only [SpeakRun.system] at hr
  split at hr
  · cases hr
  rename_i out hout
  obtain rfl := Option.some.inj hr
  have hchat : ChatInv { chat := out.state, lastRoom := r.run.lastRoomAfter session request } := by
    have hstep : chatStep stringToUTF8 r.run (session, request) =
        some { chat := out.state, lastRoom := r.run.lastRoomAfter session request } := chatStep_eq_some.2 ⟨out, hout, rfl⟩
    exact h.chat.step hstep
  have hacks := fun a => loginAcks_handle hout a
  have hsame : r.run.destination request = none → r.run.lastRoomAfter session request = r.run.lastRoom :=
    lastRoomAfter_of_none session
  cases request with
  | EnterChatRoomReq k =>
    obtain ⟨player, room, hplayer, hroom, hstate, -⟩ := handleEnterChatRoomReq_ok hout
    obtain ⟨-, hk, -⟩ := (h.rooms _ _).1 hroom
    refine h.joins hplayer room hchat ?_ ?_ ?_ ?_ ?_ ?_ ?_ ?_ ?_
    · funext a
      simp [hacks, loginIds]
    · simp only [hstate]
      rfl
    · intro q
      simp only [hstate]
      exact setChatRoomID_name player _ q
    · intro q
      simp only [hstate]
      exact setChatRoomID_ownerSession player _ q
    · simp only [hstate]
      exact h.number
    · intro i y
      simp only [hstate]
      exact h.rooms i y
    · intro q
      simp only [hstate, hk]
      exact setChatRoomID_chatRoomID player _ q
    · simp only [ChatRun.lastRoomAfter, ChatRun.destination, hplayer, hroom]
    · simp only [SpeakRun.enteredAfter, ChatRun.destination, hroom]
  | CreateChatRoomReq n =>
    obtain ⟨player, hplayer, hstate, -⟩ := handleCreateChatRoomReq_ok hout
    have hnext := h.nextRoomNumber
    refine h.joins hplayer r.run.chat.roomsMade hchat ?_ ?_ ?_ ?_ ?_ ?_ ?_ ?_ ?_
    · funext a
      simp [hacks, loginIds]
    · simp only [hstate]
      rfl
    · intro q
      simp only [hstate]
      exact setChatRoomID_name player _ q
    · intro q
      simp only [hstate]
      exact setChatRoomID_ownerSession player _ q
    · simp only [hstate]
      exact hnext
    · intro i y
      simp only [hstate]
      have hget : (((r.run.chat.createRoom stringToUTF8 n 10).enter r.run.chat.roomsMade player).setChatRoomID player
          r.run.chat.nextRoomNumber).getRoom i = _ := @createRoom_getRoom stringToUTF8 r.run.chat n 10 i
      have hmade : (((r.run.chat.createRoom stringToUTF8 n 10).enter r.run.chat.roomsMade player).setChatRoomID player
          r.run.chat.nextRoomNumber).roomsMade = r.run.chat.roomsMade + 1 := rfl
      rw [hget, hmade, hnext]
      split
      · rw [Option.some.injEq]
        omega
      · rw [h.rooms]
        omega
    · intro q
      simp only [hstate, ← hnext]
      exact setChatRoomID_chatRoomID player _ q
    · simp only [ChatRun.lastRoomAfter, ChatRun.destination, hplayer]
    · simp only [SpeakRun.enteredAfter, ChatRun.destination]
  | LoginReq id password =>
    cases hout
    refine h.login session hchat rfl rfl rfl rfl rfl (fun _ => rfl) ?_ rfl ?_
    · exact hsame rfl
    · intro a
      simp only [hacks, loginIds, List.filterMap_cons, List.filterMap_nil, eq_comm]
      split <;> simp_all
  | ChatReq sessionUID message roomID =>
    obtain ⟨_, _, _, _, hstate, _⟩ := handleChatReq_ok hout
    simpa [hstate, hsame rfl, hacks, loginIds, SpeakRun.enteredAfter, ChatRun.destination] using h
  | ChatRoomListReq | RefreshChatRoomReq | DummyPacketReq =>
    cases hout
    simpa [hsame rfl, loginAcks, SpeakRun.enteredAfter, ChatRun.destination] using h

end SpeakInv

section

variable {stringToUTF8 : String → String} {uid : Nat → Int}

/-- What was acknowledged to a session are the ids it logged in with. -/
theorem acked_eq_loginIds {r r' : SpeakRun} {ls : List (Nat × ChatRequest)}
    (hr : (SpeakRun.system stringToUTF8 uid).run r ls = some r') (a : Nat) : r'.acked a = r.acked a ++ loginIds a ls := by
  induction ls generalizing r with
  | nil =>
    obtain rfl := Option.some.inj hr
    simp [loginIds]
  | cons l ls ih =>
    obtain ⟨r₁, h1, h2⟩ := Option.bind_eq_some_iff.1 hr
    simp only [SpeakRun.system] at h1
    split at h1
    · cases h1
    · rename_i out hout
      obtain rfl := Option.some.inj h1
      rw [ih h2]
      simp only [loginAcks_handle hout a, List.append_assoc, loginIds, ← List.filterMap_append, List.singleton_append]

/-- In every state that requests of any sessions lead to, and for a `ChatReq` of a session that entered or created a room: it
is broadcast to the room the session entered last, under the `userID` acknowledged to it last, exactly if the session's last
`LoginReq` has the id of its first and no more than `65535` rooms were made after that room. -/
theorem speaks_iff (ls : List (Nat × ChatRequest)) (r : SpeakRun)
    (hr : (SpeakRun.system stringToUTF8 uid).run (SpeakRun.system stringToUTF8 uid).init ls = some r) (session x : Nat)
    (hx : r.entered session = some x) (sessionUID : Nat) (message : String) (roomID : Nat) :
    r.Speaks stringToUTF8 session sessionUID message roomID ↔
      (loginIds session ls).head? = (loginIds session ls).getLast? ∧ r.run.chat.roomsMade ≤ x + 65536 := by
  have h : SpeakInv r :=
    (SpeakRun.system stringToUTF8 uid).run_invariant (fun _ _ _ h hs => h.step hs) (SpeakInv.init uid) hr
  obtain ⟨p, hp, hlast, hid⟩ := h.entered session x hx
  have hmem : p ∈ r.run.chat.members x := h.chat.last p x hlast
  have hmade : x < r.run.chat.roomsMade := by
    by_contra hle
    rw [h.chat.unmade x (Nat.not_lt.1 hle)] at hmem
    cases hmem
  have hacked : r.acked session = loginIds session ls := acked_eq_loginIds hr session
  -- the first player, for which the handlers act, is named as the first login
  have hhead : (r.acked session).head? = some (r.run.chat.player p).name := by
    rw [← h.names session, List.head?_map, show (r.run.chat.session session).players.head? = some p from hp, Option.map_some]
  rw [← hacked, hhead]
  constructor
  · rintro ⟨out, player, room, userID, hout, hplayer, hroom, hentered, hack, hsends⟩
    obtain rfl := Option.some.inj (hp.symm.trans hplayer)
    obtain rfl := Option.some.inj (hx.symm.trans hentered)
    obtain ⟨player', room', hplayer', hroom', -, hsends'⟩ := handleChatReq_ok hout
    obtain rfl := Option.some.inj (hp.symm.trans hplayer')
    obtain rfl := Option.some.inj (hroom.symm.trans hroom')
    have heq := List.map_inj_left.1 (hsends.symm.trans hsends') p hmem
    simp only [Prod.mk.injEq, ChatAnswer.ChatAck.injEq] at heq
    exact ⟨by rw [hack, heq.2.1], ((h.rooms _ _).1 hroom).2.2⟩
  · rintro ⟨hids, hfew⟩
    have hroom : r.run.chat.getRoom (r.run.chat.player p).chatRoomID = some x := by
      rw [h.rooms]
      exact ⟨hmade, hid.symm, hfew⟩
    obtain ⟨out, hout, hsends⟩ := handleChatReq_of hp hroom message
    exact ⟨out, p, x, _, hout, hp, hroom, hx, hids.symm, hsends⟩

end

/-- A client logs in and creates a room. -/
def createsRoom : List (Nat × ChatRequest) := [(0, .LoginReq "a" "x"), (0, .CreateChatRoomReq "room")]

/-- `speaks_iff` after `createsRoom`. -/
theorem speaks_iff_createsRoom :
    ∃ r, (SpeakRun.system id (fun a => a)).run (SpeakRun.system id (fun a => a)).init createsRoom = some r ∧
      r.Speaks id 0 1 "hi" 1 := by
  obtain ⟨r, hr, hf⟩ := Option.map_eq_some_iff.1
    (show ((SpeakRun.system id (fun a => a)).run (SpeakRun.system id (fun a => a)).init createsRoom).map
      (fun r => (r.entered 0, r.run.chat.roomsMade)) = some (some 0, 1) by decide)
  obtain ⟨hx, hmade⟩ := Prod.mk.injEq .. ▸ hf
  exact ⟨r, hr, (speaks_iff createsRoom r hr 0 0 hx 1 "hi" 1).2 ⟨by decide, by omega⟩⟩

/-- The client logs in again, with another id: it still speaks under the first. -/
theorem not_every_chat_speaks :
    ¬∀ ls r session x sessionUID message roomID,
      (SpeakRun.system id (fun a => a)).run (SpeakRun.system id (fun a => a)).init ls = some r →
        r.entered session = some x → r.Speaks id session sessionUID message roomID := by
  intro hall
  obtain ⟨r, hr, hf⟩ := Option.map_eq_some_iff.1
    (show ((SpeakRun.system id (fun a => a)).run (SpeakRun.system id (fun a => a)).init
      (createsRoom ++ [(0, .LoginReq "b" "y")])).map
      (fun r => (r.entered 0, r.acked 0, (r.run.chat.handle id 0 (.ChatReq 1 "hi" 1)).toOption.map Handled.sends)) =
        some (some 0, ["a", "b"], some [(0, .ChatAck "a" "hi")]) by decide)
  simp only [Prod.mk.injEq] at hf
  obtain ⟨hx, hacked, hsends⟩ := hf
  obtain ⟨out, player, room, userID, hout, -, -, -, hack, hto⟩ := hall _ r 0 0 1 "hi" 1 hr hx
  rw [hacked] at hack
  obtain rfl : "b" = userID := Option.some.inj hack
  rw [hout] at hsends
  have hfirst : out.sends = [(0, ChatAnswer.ChatAck "a" "hi")] := Option.some.inj hsends
  rw [hto] at hfirst
  have hmem : (0, ChatAnswer.ChatAck "a" "hi") ∈ r.run.chat.broadCast room (.ChatAck "b" "hi") := by
    rw [hfirst]
    exact List.mem_cons_self
  obtain ⟨_, -, heq⟩ := List.mem_map.1 hmem
  simp at heq

end ProjectYJ
