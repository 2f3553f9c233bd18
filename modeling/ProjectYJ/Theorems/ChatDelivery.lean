import ProjectYJ.Lemmas.Chat

/-!
# Who receives a chat message

A room sends a message to each of its entries, and no handler ever takes an entry out. So a message reaches the players
whose last room it is, and each of them once, exactly as long as no player goes to a second room (or to its own a second
time) and no new room takes the number of an older one.
-/

namespace ProjectYJ

open ChatState

/-- The session's player has entered or created no room so far. -/
def ChatRun.inNoRoom (s : ChatRun) (session : Nat) : Prop := ∀ player ∈ s.chat.player0 session, s.lastRoom player = none

/-- A request that brings a player to a room comes from one that is in none, and a new room gets a number that no room has. -/
def OneRoom (s : ChatRun) : Nat × ChatRequest → Prop
  | (session, .EnterChatRoomReq _) => s.inNoRoom session
  | (session, .CreateChatRoomReq _) => s.inNoRoom session ∧ s.chat.getRoom s.chat.nextRoomNumber = none
  | _ => True

instance ChatRun.inNoRoom.decidable (s : ChatRun) (session : Nat) : Decidable (s.inNoRoom session) :=
  inferInstanceAs (Decidable (∀ player ∈ s.chat.player0 session, s.lastRoom player = none))

instance OneRoom.decidable (s : ChatRun) : (l : Nat × ChatRequest) → Decidable (OneRoom s l)
  | (session, .EnterChatRoomReq _) => inferInstanceAs (Decidable (s.inNoRoom session))
  | (_, .CreateChatRoomReq _) => inferInstanceAs (Decidable (_ ∧ _))
  | (_, .LoginReq _ _) | (_, .ChatRoomListReq _) | (_, .RefreshChatRoomReq) | (_, .ChatReq _ _ _) | (_, .DummyPacketReq _) =>
    isTrue trivial

/-- Each player is listed once in the room it went to last, which is the one its `m_ChatRoomID` names, and in no other. -/
structure Listed (s : ChatRun) : Prop where
  count : ∀ p x, (s.chat.members x).count p = if s.lastRoom p = some x then 1 else 0
  named : ∀ p x, s.lastRoom p = some x → s.chat.getRoom (s.chat.player p).chatRoomID = some x

/-- A `ChatReq` of a player sends one `ChatAck` to each player whose last room is that of the player, and nothing else. -/
def Delivered (stringToUTF8 : String → String) (s : ChatRun) : Prop :=
  ∀ session player room sessionUID message roomID, s.chat.player0 session = some player → s.lastRoom player = some room →
    ∃ out, ∃ recipients : List Nat, s.chat.handle stringToUTF8 session (.ChatReq sessionUID message roomID) = .ok out ∧
      out.sends = recipients.map (fun q =>
        ((s.chat.player q).ownerSession, .ChatAck (s.chat.player player).name message)) ∧
      ∀ q, recipients.count q = if s.lastRoom q = some room then 1 else 0

variable {stringToUTF8 : String → String} {s t : ChatRun}

theorem Listed.delivered (h : Listed s) : Delivered stringToUTF8 s := by
  intro session player room sessionUID message roomID hplayer hlast
  obtain ⟨out, hout, hsends⟩ := handleChatReq_of hplayer (h.named player room hlast) message
  exact ⟨out, s.chat.members room, hout, hsends, fun q => h.count q room⟩

theorem Listed.mem (h : Listed s) {p x : Nat} : p ∈ s.chat.members x ↔ s.lastRoom p = some x := by
  rw [← List.count_pos_iff, h.count]
  split <;> simp_all

/-! ## Steps that keep the lists in order -/

theorem Listed.stays (hs : ChatInv s) (h : Listed s) (hstays : Stays s t) : Listed t := by
  refine ⟨?_, ?_⟩
  · intro p x
    rw [hstays.members, hstays.lastRoom]
    exact h.count p x
  · intro p x hp
    rw [hstays.lastRoom] at hp
    rw [hstays.getRoom, hstays.chatRoomID p (hs.listed x p (hs.last p x hp)).1]
    exact h.named p x hp

/-- What a join must meet for the lists to stay in order: the player is in no room, and the number stands for no other
room. -/
def Joins.Orderly (s : ChatRun) (player room roomID : Nat) : Prop :=
  s.lastRoom player = none ∧ ∀ x, s.chat.getRoom roomID = some x → x = room

theorem Listed.joins {player room roomID : Nat} (h : Listed s) (hjoins : Joins s t player room roomID)
    (hord : Joins.Orderly s player room roomID) : Listed t := by
  obtain ⟨hnone, hnumber⟩ := hord
  refine ⟨?_, ?_⟩
  · intro p x
    rw [hjoins.count, h.count, hjoins.lastRoom]
    by_cases hp : p = player
    · subst hp
      rw [hnone, Function.update_self]
      simp [eq_comm]
    · simp [hp]
  · intro p x hp
    rw [hjoins.lastRoom] at hp
    rw [hjoins.getRoom, hjoins.chatRoomID]
    by_cases hpp : p = player
    · subst hpp
      rw [Function.update_self] at hp
      simpa using hp
    · rw [Function.update_of_ne hpp] at hp
      rw [if_neg hpp]
      have hold := h.named p x hp
      split
      · rename_i heq
        rw [heq] at hold
        rw [hnumber x hold]
      · exact hold

/-! ## Entries stay, and a room whose number was taken does not come back -/

/-- What every later state has of this one: the entries of the rooms, and among the rooms made so far no more with a
number. -/
structure Grows (s t : ChatRun) : Prop where
  count : ∀ x p, (s.chat.members x).count p ≤ (t.chat.members x).count p
  roomsMade : s.chat.roomsMade ≤ t.chat.roomsMade
  getRoom : ∀ k x, x < s.chat.roomsMade → t.chat.getRoom k = some x → s.chat.getRoom k = some x

theorem Stays.grows (h : Stays s t) : Grows s t := by
  refine ⟨fun x p => by rw [h.members], h.roomsMade.ge, fun k x _ hk => ?_⟩
  rw [← h.getRoom]
  exact hk

theorem Joins.grows {player room roomID : Nat} (h : Joins s t player room roomID) : Grows s t := by
  refine ⟨fun x p => by rw [h.count]; exact Nat.le_add_right _ _, h.roomsMade, fun k x hx hk => ?_⟩
  rcases h.getRoom_eq_some hk with ⟨rfl, rfl⟩ | ⟨_, hold⟩
  · rcases h.source with hold | hnew
    · exact hold
    · omega
  · exact hold

theorem Grows.trans {u : ChatRun} (h : Grows s t) (h' : Grows t u) : Grows s u :=
  ⟨fun x p => Nat.le_trans (h.count x p) (h'.count x p), Nat.le_trans h.roomsMade h'.roomsMade,
    fun k x hx hk => h.getRoom k x hx (h'.getRoom k x (Nat.lt_of_lt_of_le hx h.roomsMade) hk)⟩

/-- A request that brings a player anywhere is a join, and it is an orderly one exactly when the request meets `OneRoom`. -/
theorem chatStep_stays_or_joins (hs : ChatInv s) {l : Nat × ChatRequest} (h : chatStep stringToUTF8 s l = some t) :
    (OneRoom s l ∧ Stays s t) ∨
    ∃ player room roomID, Joins s t player room roomID ∧ (OneRoom s l ↔ Joins.Orderly s player room roomID) := by
  obtain ⟨session, request⟩ := l
  rcases chatStep_cases hs h with
    ⟨henter, hcreate, hstays⟩ | ⟨k, player, room, rfl, hplayer, hroom, hjoins⟩ | ⟨n, player, rfl, hplayer, hjoins⟩
  · refine Or.inl ⟨?_, hstays⟩
    cases request with
    | EnterChatRoomReq k => exact absurd rfl (henter k)
    | CreateChatRoomReq n => exact absurd rfl (hcreate n)
    | LoginReq | ChatRoomListReq | RefreshChatRoomReq | ChatReq | DummyPacketReq => trivial
  · refine Or.inr ⟨player, room, _, hjoins, ?_⟩
    simp [OneRoom, ChatRun.inNoRoom, Joins.Orderly, hplayer, hroom]
  · refine Or.inr ⟨player, _, _, hjoins, ?_⟩
    simp only [OneRoom, ChatRun.inNoRoom, Joins.Orderly, hplayer, Option.mem_def, Option.some.injEq, forall_eq']
    refine and_congr_right fun _ => ?_
    constructor
    · intro hnone x hx
      rw [hnone] at hx
      cases hx
    · intro hx
      by_contra hsome
      obtain ⟨x, hroom⟩ := Option.ne_none_iff_exists'.1 hsome
      have := (hs.rooms _ x hroom).2
      rw [hx x hroom] at this
      omega

theorem run_grows {uid : Nat → Int} {ls : List (Nat × ChatRequest)} (hs : ChatInv s)
    (h : (chatSystem stringToUTF8 uid).run s ls = some t) : Grows s t := by
  refine (chatSystem stringToUTF8 uid).run_relation (fun s => (Stays.refl s).grows) (fun _ _ _ => Grows.trans) ?_ hs h
  intro s l t hs hstep
  refine ⟨ChatInv.step hs hstep, ?_⟩
  rcases chatStep_stays_or_joins hs hstep with ⟨_, hstays⟩ | ⟨_, _, _, hjoins, _⟩
  · exact hstays.grows
  · exact hjoins.grows

/-- A member of a room is a member in every later state. -/
theorem Grows.mem (h : Grows s t) {p x : Nat} (hp : p ∈ s.chat.members x) : p ∈ t.chat.members x :=
  List.count_pos_iff.1 (Nat.lt_of_lt_of_le (List.count_pos_iff.2 hp) (h.count x p))

section

variable {u : ChatRun} {player room roomID : Nat}

/-- A player that joined a room while it was in one is listed where it was and where it is, or twice in the same place. -/
theorem not_listed_of_second (h : Listed s) (hjoins : Joins s t player room roomID) (hlast : s.lastRoom player ≠ none)
    (hgrows : Grows t u) : ¬Listed u := by
  intro hu
  obtain ⟨x, hx⟩ := Option.ne_none_iff_exists'.1 hlast
  have hwas : player ∈ t.chat.members x := (hjoins.mem x player).2 (Or.inl (h.mem.2 hx))
  have hnow : player ∈ t.chat.members room := (hjoins.mem room player).2 (Or.inr ⟨rfl, rfl⟩)
  have hxu : u.lastRoom player = some x := hu.mem.1 (hgrows.mem hwas)
  have hroom : u.lastRoom player = some room := hu.mem.1 (hgrows.mem hnow)
  obtain rfl := Option.some.inj (hxu.symm.trans hroom)
  -- the two rooms are one, and count the player twice from the join on
  have htwice : (t.chat.members x).count player = 2 := by
    rw [hjoins.count, h.count, if_pos hx, if_pos ⟨rfl, rfl⟩]
  have hle := hgrows.count x player
  rw [htwice, hu.count, if_pos hxu] at hle
  omega

/-- A room whose number a new room took has a member that no number leads to any more. -/
theorem not_listed_of_taken (hs : ChatInv s) (hjoins : Joins s t player room roomID) {x : Nat}
    (hx : s.chat.getRoom roomID = some x) (hne : x ≠ room) (hgrows : Grows t u) : ¬Listed u := by
  intro hu
  obtain ⟨p, hp⟩ := hs.creator roomID x hx
  have hpu : p ∈ u.chat.members x := hgrows.mem ((hjoins.mem x p).2 (Or.inl hp))
  have hmade : x < t.chat.roomsMade := Nat.lt_of_lt_of_le (hs.rooms roomID x hx).2 hjoins.roomsMade
  have hnumber := hgrows.getRoom _ x hmade (hu.named p x (hu.mem.1 hpu))
  rcases hjoins.getRoom_eq_some hnumber with ⟨_, heq⟩ | ⟨hk, hold⟩
  · exact hne heq
  · exact hk (hs.inj _ _ x hold hx)

/-- After a join that is not orderly the lists are out of order, then and for good. -/
theorem not_listed_of_joins (hs : ChatInv s) (h : Listed s) (hjoins : Joins s t player room roomID)
    (hord : ¬Joins.Orderly s player room roomID) (hgrows : Grows t u) : ¬Listed u := by
  by_cases hnone : s.lastRoom player = none
  · have hother : ∃ x, s.chat.getRoom roomID = some x ∧ x ≠ room := by
      by_contra hno
      exact hord ⟨hnone, fun x hx => by_contra fun hne => hno ⟨x, hx, hne⟩⟩
    obtain ⟨x, hx, hne⟩ := hother
    exact not_listed_of_taken hs hjoins hx hne hgrows
  · exact not_listed_of_second h hjoins hnone hgrows

end

theorem run_listed_iff {uid : Nat → Int} {ls : List (Nat × ChatRequest)} (hs : ChatInv s) (h : Listed s)
    (hrun : (chatSystem stringToUTF8 uid).run s ls = some t) :
    Listed t ↔ (chatSystem stringToUTF8 uid).Meets OneRoom s ls := by
  induction ls generalizing s with
  | nil =>
    obtain rfl := Option.some.inj hrun
    exact ⟨fun _ => trivial, fun _ => h⟩
  | cons l ls ih =>
    obtain ⟨r, hr, hrest⟩ := Option.bind_eq_some_iff.1 hrun
    have hinv := ChatInv.step hs hr
    have hgo : Listed r → (Listed t ↔ (chatSystem stringToUTF8 uid).Meets OneRoom r ls) := fun hlist => ih hinv hlist hrest
    have hmeets : (chatSystem stringToUTF8 uid).Meets OneRoom s (l :: ls) ↔
        OneRoom s l ∧ (chatSystem stringToUTF8 uid).Meets OneRoom r ls := by
      rw [Lts.meets_cons]
      refine and_congr_right fun _ => ⟨fun hall => hall r hr, fun hm r' hr' => ?_⟩
      obtain rfl := Option.some.inj (hr.symm.trans hr')
      exact hm
    rw [hmeets]
    rcases chatStep_stays_or_joins hs hr with ⟨hone, hstays⟩ | ⟨player, room, roomID, hjoins, hiff⟩
    · rw [hgo (h.stays hs hstays)]
      exact (and_iff_right hone).symm
    · rw [hiff]
      by_cases hord : Joins.Orderly s player room roomID
      · rw [hgo (h.joins hjoins hord)]
        exact (and_iff_right hord).symm
      · constructor
        · intro ht
          exact absurd ht (not_listed_of_joins hs h hjoins hord (run_grows hinv hrest))
        · intro hm
          exact absurd hm.1 hord

/-- In a run of requests, every player is listed once in the room it went to last and in no other, and every chat message
reaches exactly the players whose last room it is said in, exactly when each request met `OneRoom`. -/
theorem chat_delivery_iff {uid : Nat → Int} {ls : List (Nat × ChatRequest)}
    (h : (chatSystem stringToUTF8 uid).run (chatSystem stringToUTF8 uid).init ls = some s) :
    Listed s ∧ Delivered stringToUTF8 s ↔
      (chatSystem stringToUTF8 uid).Meets OneRoom (chatSystem stringToUTF8 uid).init ls := by
  have hinit : Listed (chatSystem stringToUTF8 uid).init := ⟨fun _ _ => rfl, nofun⟩
  rw [← run_listed_iff (ChatInv.init uid) hinit h]
  exact ⟨fun hboth => hboth.1, fun hlisted => ⟨hlisted, hlisted.delivered⟩⟩

/-- Two clients log in, one creates a room, and the other enters it. -/
def twoInRoom : List (Nat × ChatRequest) :=
  [(0, .LoginReq "a" "x"), (1, .LoginReq "b" "y"), (0, .CreateChatRoomReq "room"), (1, .EnterChatRoomReq 1)]

theorem chat_delivery_iff_twoInRoom :
    ∃ s, (chatSystem id (fun a => a)).run (chatSystem id (fun a => a)).init twoInRoom = some s ∧
      Listed s ∧ Delivered id s := by
  have hruns : ((chatSystem id (fun a => a)).run (chatSystem id (fun a => a)).init twoInRoom).isSome := by decide
  obtain ⟨s, hs⟩ := Option.isSome_iff_exists.1 hruns
  exact ⟨s, hs, (chat_delivery_iff hs).2 (by decide)⟩

/-- The first client then creates a second room. -/
def movesOn : List (Nat × ChatRequest) := twoInRoom ++ [(0, .CreateChatRoomReq "room 2")]

/-- It is still listed in the first room, and what is said there reaches it. -/
theorem not_every_chat_delivered :
    ¬∀ ls s, (chatSystem id (fun a => a)).run (chatSystem id (fun a => a)).init ls = some s → Listed s ∨ Delivered id s := by
  intro hall
  have hruns : ((chatSystem id (fun a => a)).run (chatSystem id (fun a => a)).init movesOn).isSome := by decide
  obtain ⟨s, hs⟩ := Option.isSome_iff_exists.1 hruns
  have hfact : ∀ {β : Type} (f : ChatRun → β) (b : β),
      ((chatSystem id (fun a => a)).run (chatSystem id (fun a => a)).init movesOn).map f = some b → f s = b := by
    intro β f b hf
    rw [hs] at hf
    exact Option.some.inj hf
  have hmembers := hfact (fun s => s.chat.members 0) [0, 1] (by decide)
  have hlast0 := hfact (fun s => s.lastRoom 0) (some 1) (by decide)
  have hlast1 := hfact (fun s => s.lastRoom 1) (some 0) (by decide)
  have hplayer := hfact (fun s => s.chat.player0 1) (some 1) (by decide)
  have howner := hfact (fun s => (s.chat.player 1).ownerSession) 1 (by decide)
  have hsends := hfact (fun s => (s.chat.handle id 1 (.ChatReq 1 "hi" 1)).toOption.map (fun out => out.sends.map Prod.fst))
    (some [0, 1]) (by decide)
  rcases hall movesOn s hs with hlisted | hdelivered
  · have hcount := hlisted.count 0 0
    rw [hmembers, hlast0] at hcount
    cases hcount
  · obtain ⟨out, recipients, hout, hto, hcount⟩ := hdelivered 1 1 0 1 "hi" 1 hplayer hlast1
    rw [hout] at hsends
    have hfirst : 0 ∈ out.sends.map Prod.fst := by
      have heq : out.sends.map Prod.fst = [0, 1] := Option.some.inj hsends
      rw [heq]
      exact List.mem_cons_self
    rw [hto] at hfirst
    obtain ⟨_, hmem, hzero⟩ := List.mem_map.1 hfirst
    obtain ⟨q, hq, rfl⟩ := List.mem_map.1 hmem
    -- every recipient is a member of the first room, and the first player's last room is the second one
    have hlast : s.lastRoom q = some 0 := by
      by_contra hne
      have := List.count_pos_iff.2 hq
      rw [hcount, if_neg hne] at this
      exact Nat.lt_irrefl 0 this
    have hmember := (ChatInv.run hs).last q 0 hlast
    rw [hmembers] at hmember
    rcases List.mem_pair.1 hmember with rfl | rfl
    · rw [hlast0] at hlast
      cases hlast
    · rw [howner] at hzero
      cases hzero

end ProjectYJ
