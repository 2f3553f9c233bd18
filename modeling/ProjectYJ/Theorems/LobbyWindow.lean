import ProjectYJ.Theorems.ChatAgreement
import ProjectYJ.Theorems.ClientRequests

/-!
# The room that a user picks

The button of the lobby window takes the index of the line that is selected in the list box to the rooms of `m_chatRooms`, and the
box it opens keeps the number of the room while messages go on being dispatched, lists of rooms among them. The user is asked about
the room of the line that was selected, and when the answer is yes it is that room that is asked for, whatever came in between.
-/

namespace ProjectYJ

open ChatState ChatNet

/-- The list box has a line for each room, and what is selected is one of them. -/
structure ListsRooms (W : ClientPlatform) (l : LobbyWindow) : Prop where
  lines : l.roomList = l.chatRooms.map W.itemText
  selected : ∀ k ∈ l.selected, k < l.chatRooms.length

section

variable {W : ClientPlatform} {stringToUTF8 : String → String} {uid : Nat → Int} {host : Nat → Nat}

theorem ListsRooms.act {u u' : ClientUi} {action : UserAction} {requests : List (Nat × ChatRequest)} (hu : ListsRooms W u.lobby)
    (h : u.act action = some (u', requests)) : ListsRooms W u'.lobby := by
  cases action with
  | select index =>
    simp only [ClientUi.act, Option.ite_none_right_eq_some, Option.some.injEq, Prod.mk.injEq] at h
    obtain ⟨⟨-, hindex⟩, rfl, -⟩ := h
    refine ⟨hu.lines, fun k hk => ?_⟩
    obtain rfl : index = k := Option.some.inj hk
    simpa [hu.lines] using hindex
  | enter =>
    simp only [ClientUi.act, Option.ite_none_right_eq_some, Option.some.injEq, Prod.mk.injEq] at h
    obtain ⟨-, rfl, -⟩ := h
    unfold ClientUi.clickEnter LobbyWindow.enterChatRoom
    split
    · exact hu
    · split
      · exact hu
      · split
        · exact hu
        · exact ⟨hu.lines, hu.selected⟩
  | answer yes =>
    obtain ⟨roomId, -, hanswer⟩ := Option.map_eq_some_iff.1 h
    rw [← (Prod.mk.inj hanswer).1]
    exact ⟨hu.lines, hu.selected⟩
  | login | create | refresh | send =>
    simp only [ClientUi.act, Option.ite_none_right_eq_some, Option.some.injEq, Prod.mk.injEq] at h
    obtain ⟨-, rfl, -⟩ := h
    exact hu

/-- What opening some mail does to the lobby window: a new list, or it is shown or hidden. -/
theorem openMail_lobby (v : ClientView) (localTime : String) (mail : Mail) :
    (ListsRooms W v.lobby → ListsRooms W (v.openMail W localTime mail).1.lobby) ∧
      (v.openMail W localTime mail).1.lobby.asking = v.lobby.asking := by
  cases mail with
  | connected | enterRoom | chat => exact ⟨id, rfl⟩
  | loginAck userId => exact ⟨fun hu => ⟨hu.lines, hu.selected⟩, rfl⟩
  | roomList rooms => exact ⟨fun _ => ⟨rfl, nofun⟩, rfl⟩
  | entered roomName =>
    have hui := (post_spec_view W { v with toClientUi := v.toClientUi.hideLobby } (.enterRoom roomName)).1
    have hlobby : (v.openMail W localTime (.entered roomName)).1.lobby = v.toClientUi.hideLobby.lobby := congrArg ClientUi.lobby hui
    rw [hlobby]
    exact ⟨fun hu => ⟨hu.lines, hu.selected⟩, rfl⟩

/-- The windows open the mail that came first. -/
theorem dispatch_lobby {v v' : ClientView} {localTime : String} {requests : List (Nat × ChatRequest)}
    (h : v.dispatch W localTime = some (v', requests)) :
    (ListsRooms W v.lobby → ListsRooms W v'.lobby) ∧ v'.lobby.asking = v.lobby.asking := by
  unfold ClientView.dispatch at h
  split at h
  · cases h
  · rename_i mail rest hinbox
    have hopen := openMail_lobby (W := W) { v with inbox := rest } localTime mail
    rw [Option.some.inj h] at hopen
    exact hopen

/-- In every run. -/
theorem viewNet_listsRooms {ls : List ChatNetStep} {s : ChatNet ClientView}
    (h : (viewNet W stringToUTF8 uid host).run (viewNet W stringToUTF8 uid host).init ls = some s) (i : Nat) :
    ListsRooms W (s.client i).lobby := by
  refine client_invariant (J := fun v _ => ListsRooms W v.lobby) ⟨rfl, fun k hk => absurd hk (Option.not_mem_none k)⟩ ?_ ?_ ?_ ?_ ?_ h i
  · exact fun v _ a hv => hv
  · intro v _ a uid hv
    have hui := (post_spec_view W { v with toClientUi := v.toClientUi.register a uid } .connected).1
    exact (congrArg (fun u : ClientUi => ListsRooms W u.lobby) hui).mpr hv
  · intro v _ answer hv
    rw [show (viewOps W).handle v answer = v.handle W answer from rfl, (handle_spec_view W v answer).1]
    exact hv
  · exact fun v _ localTime v' requests hv hdoes => (dispatch_lobby hdoes).1 hv
  · intro v _ action v' requests hv hdoes
    obtain ⟨⟨u, rs⟩, hu, hr⟩ := Option.map_eq_some_iff.1 hdoes
    obtain ⟨rfl, -⟩ := Prod.mk.inj hr
    exact hv.act hu

/-- Only the user of a client closes the box. -/
theorem asking_of_step {s t : ChatNet ClientView} {i : Nat} {l : ChatNetStep}
    (hstep : chatNetStep (viewOps W) stringToUTF8 host s l = some t) (hl : ∀ action, l ≠ .user i action) :
    (t.client i).lobby.asking = (s.client i).lobby.asking := by
  have hone : ∀ (s : ChatNet ClientView) (j : Nat) (v : ClientView), v.lobby.asking = (s.client j).lobby.asking →
      ((s.setClient j v).client i).lobby.asking = (s.client i).lobby.asking := by
    intro s j v hv
    by_cases hj : i = j
    · subst hj
      rw [setClient_self, hv]
    · rw [setClient_of_ne s hj v]
  cases netMoves_iff.1 hstep with
  | connect hstage => exact hone _ _ _ rfl
  | @onConnected a uid hstage =>
    have hui := (post_spec_view W
      { s.client (host a) with toClientUi := (s.client (host a)).toClientUi.register a uid } .connected).1
    exact hone _ _ _ ((congrArg (fun u : ClientUi => u.lobby.asking) hui).trans rfl)
  | serve hwaits hok => rfl
  | @receive a uid answer rest hstage hwaits =>
    exact hone (s.taken a answer rest) _ _ (congrArg (fun u : ClientUi => u.lobby.asking) (handle_spec_view W _ answer).1)
  | dispatch hdoes => exact hone _ _ _ (dispatch_lobby hdoes).2
  | @user j action v requests hdoes =>
    have hj : i ≠ j := fun heq => hl action (heq ▸ rfl)
    exact congrArg (fun v : ClientView => v.lobby.asking) (setClient_of_ne s hj v)

/-- What the button of the lobby window opens: a box that asks about the room of the line that is selected. -/
theorem clickEnter_asking {u : ClientUi} {k : Nat} {room : ChatRoomInfo} (hselected : u.lobby.selected = some k)
    (hroom : u.lobby.chatRooms[k]? = some room) (hlt : room.roomID < 65536) :
    u.clickEnter.lobby.asking = some (room.roomID : Int) := by
  have hid : toInt32 room.roomID = room.roomID := toInt32_of_lt (Nat.lt_trans hlt (by decide))
  have hback : toUInt32 (room.roomID : Int) = room.roomID := by
    unfold toUInt32
    omega
  have hfound : (u.lobby.chatRooms.find? fun r => r.roomID = toUInt32 (room.roomID : Int)).isSome := by
    rw [List.find?_isSome]
    exact ⟨room, List.mem_of_getElem? hroom, by simp [hback]⟩
  obtain ⟨found, hfound⟩ := Option.isSome_iff_exists.1 hfound
  simp only [ClientUi.clickEnter, hselected, hroom, LobbyWindow.enterChatRoom, hid, hfound]

/-- A box stays open, with its room, until the user answers. -/
theorem asking_of_run {ms : List ChatNetStep} {s r : ChatNet Client} {i : Nat} (htidy : ∀ j, (s.client j).Tidy)
    (hms : ∀ l ∈ ms, ∀ action, l ≠ .user i action) (hr : (chatNet W stringToUTF8 uid host).run s ms = some r) :
    (r.client i).lobby.asking = (s.client i).lobby.asking := by
  have hmeets := ((chatNet W stringToUTF8 uid host).meets_label_iff (C := fun l => ∀ action, l ≠ .user i action) hr).2 hms
  refine ((chatNet W stringToUTF8 uid host).meets_invariant
    (I := fun t => (∀ j, (t.client j).Tidy) ∧ (t.client i).lobby.asking = (s.client i).lobby.asking)
    (fun t l t' hl ht hstep => ?_) ⟨htidy, rfl⟩ hmeets hr).2
  obtain ⟨htidy', hview⟩ := (clientOps_mapsTo W).step ht.1 hstep
  have hasking : (t'.client i).lobby.asking = (t.client i).lobby.asking := asking_of_step hview hl
  exact ⟨htidy', hasking.trans ht.2⟩

/-- For every run in which no client gets another first session after it has sent something: when a user clicks the button while a
line is selected, and answers yes after whatever else has happened, the client asks to enter the room of that line; and the server has
a room of that number. -/
theorem selected_room_is_asked_for {ls ms : List ChatNetStep} {s r t : ChatNet Client} {i k : Nat}
    (h : (chatNet W stringToUTF8 uid host).run (chatNet W stringToUTF8 uid host).init ls = some s)
    (hselected : (s.client i).lobby.selected = some k)
    (hms : ∀ l ∈ ms, ∀ action, l ≠ .user i action)
    (hr : (chatNet W stringToUTF8 uid host).run s (.user i .enter :: ms) = some r)
    (ht : (chatNet W stringToUTF8 uid host).step r (.user i (.answer true)) = some t)
    (hsettled : (chatNet W stringToUTF8 uid host).Meets (Settled Client.toClientUi host)
      (chatNet W stringToUTF8 uid host).init (ls ++ .user i .enter :: ms)) :
    ∃ room a, (s.client i).lobby.chatRooms[k]? = some room ∧ (s.client i).lobby.roomList[k]? = some (W.itemText room) ∧
      (r.client i).firstSession = some a ∧ t.asked = r.asked ++ [(a, .EnterChatRoomReq room.roomID)] ∧
        (r.server.chat.getRoom room.roomID).isSome := by
  obtain ⟨htidy, hview⟩ := chatNet_run_view h
  -- the line that is selected is that of a room the server has
  have hlists : ListsRooms W (s.client i).lobby := viewNet_listsRooms hview i
  obtain ⟨room, hroom⟩ : ∃ room, (s.client i).lobby.chatRooms[k]? = some room :=
    ⟨_, List.getElem?_eq_getElem (hlists.selected k hselected)⟩
  have hkeeps := chatNet_run_keeps h ((chatNet W stringToUTF8 uid host).meets_front hsettled (List.prefix_append _ _))
  obtain ⟨x, hx⟩ := Option.isSome_iff_exists.1 ((hkeeps.windows i).chatRooms room (List.mem_of_getElem? hroom))
  have hlt : room.roomID < 65536 := (hkeeps.chat.rooms _ x hx).1
  -- the click opens the box, and nothing closes it
  obtain ⟨s₁, hs₁, hr₁⟩ := Option.bind_eq_some_iff.1 hr
  replace hs₁ : chatNetStep (clientOps W) stringToUTF8 host s (.user i .enter) = some s₁ := hs₁
  have hasking : (r.client i).lobby.asking = some (room.roomID : Int) := by
    have htidy₁ := ((clientOps_mapsTo W).step htidy hs₁).1
    rw [asking_of_run htidy₁ hms hr₁]
    cases netMoves_iff.1 hs₁ with
    | user hdoes =>
      obtain ⟨⟨u, rs⟩, hu, hc⟩ := Option.map_eq_some_iff.1 hdoes
      obtain ⟨rfl, rfl⟩ := Prod.mk.inj hc
      simp only [ClientUi.act, Option.ite_none_right_eq_some, Option.some.injEq, Prod.mk.injEq] at hu
      obtain ⟨-, rfl, -⟩ := hu
      exact (congrArg (fun c : Client => c.lobby.asking) (setClient_self s i _)).trans (clickEnter_asking hselected hroom hlt)
  -- the answer asks for that room, on the first session
  have hrun : (chatNet W stringToUTF8 uid host).run (chatNet W stringToUTF8 uid host).init (ls ++ .user i .enter :: ms) = some r :=
    (Lts.run_append_of h _).trans hr
  obtain ⟨⟨a, ha, -⟩, -, hknown⟩ := ((chatNet_run_keeps hrun hsettled).windows i).asking _ hasking
  have hfirst : (r.client i).firstSession = some a := ha
  refine ⟨room, a, hroom, ?_, hfirst, ?_, hknown⟩
  · rw [hlists.lines, List.getElem?_map, hroom]
    rfl
  · replace ht : chatNetStep (clientOps W) stringToUTF8 host r (.user i (.answer true)) = some t := ht
    cases netMoves_iff.1 ht with
    | user hdoes =>
      obtain ⟨⟨u, rs⟩, hu, hc⟩ := Option.map_eq_some_iff.1 hdoes
      obtain ⟨rfl, rfl⟩ := Prod.mk.inj hc
      obtain ⟨roomId, hroomId, hanswer⟩ := Option.map_eq_some_iff.1 hu
      obtain rfl : (room.roomID : Int) = roomId := Option.some.inj (hasking.symm.trans hroomId)
      rw [← (Prod.mk.inj hanswer).2, if_pos rfl, ClientUi.send, hfirst]
      rfl

end

/-- While the box is open, somebody in the room says something. -/
theorem selected_room_is_asked_for_talking : ∃ s r t,
    (chatNet asciiPlatform id (fun a => a) (fun a => a)).run (chatNet asciiPlatform id (fun a => a) (fun a => a)).init
      (talking.take 26) = some s ∧
    (chatNet asciiPlatform id (fun a => a) (fun a => a)).run s [.user 1 .enter, .user 0 (.send "hello"), .serve 0] = some r ∧
    (chatNet asciiPlatform id (fun a => a) (fun a => a)).step r (.user 1 (.answer true)) = some t ∧
    ∃ room a, (s.client 1).lobby.chatRooms[0]? = some room ∧
      (s.client 1).lobby.roomList[0]? = some (asciiPlatform.itemText room) ∧
      (r.client 1).firstSession = some a ∧ t.asked = r.asked ++ [(a, .EnterChatRoomReq room.roomID)] ∧
        (r.server.chat.getRoom room.roomID).isSome := by
  have hselected : ((chatNet asciiPlatform id (fun a => a) (fun a => a)).run
      (chatNet asciiPlatform id (fun a => a) (fun a => a)).init (talking.take 26)).map (fun s => (s.client 1).lobby.selected) =
        some (some 0) := by decide +kernel
  obtain ⟨s, hs, hselected⟩ := Option.map_eq_some_iff.1 hselected
  have hopen : ((chatNet asciiPlatform id (fun a => a) (fun a => a)).run
      (chatNet asciiPlatform id (fun a => a) (fun a => a)).init
      (talking.take 26 ++ [.user 1 .enter, .user 0 (.send "hello"), .serve 0, .user 1 (.answer true)])).isSome = true := by
    decide +kernel
  obtain ⟨t, ht⟩ := Option.isSome_iff_exists.1 hopen
  rw [Lts.run_append_of hs] at ht
  obtain ⟨r, hr, ht⟩ : ∃ r, (chatNet asciiPlatform id (fun a => a) (fun a => a)).run s
      [.user 1 .enter, .user 0 (.send "hello"), .serve 0] = some r ∧
        (chatNet asciiPlatform id (fun a => a) (fun a => a)).run r [.user 1 (.answer true)] = some t :=
    Option.bind_eq_some_iff.1 ((Lts.run_append _ s _ [ChatNetStep.user 1 (.answer true)]).symm.trans ht)
  have hstep : (chatNet asciiPlatform id (fun a => a) (fun a => a)).step r (.user 1 (.answer true)) = some t := by
    simpa using ht
  have hsettled : (chatNet asciiPlatform id (fun a => a) (fun a => a)).Meets (Settled Client.toClientUi (fun a => a))
      (chatNet asciiPlatform id (fun a => a) (fun a => a)).init
      (talking.take 26 ++ [.user 1 .enter, .user 0 (.send "hello"), .serve 0]) := by decide +kernel
  exact ⟨s, r, t, hs, hr, hstep, selected_room_is_asked_for hs hselected (by simp) hr hstep hsettled⟩

end ProjectYJ
