import ProjectYJ.Lemmas.ClientView

/-!
# What the handlers of the client allocate

Each handler of the client allocates what its packet says and posts the address to a window, on another thread; the window procedure
reads it and frees it, or posts the address once more. In every state that any clients and the server come to, in whatever order
their threads run, nothing is read that was freed or is of another type, nothing is freed twice, and what is allocated is what a
message points to that waits, or that `PostMessage` refused. Only what was refused is never freed.
-/

namespace ProjectYJ

/-- For every run and each client: no turn of its message loop ends in a fault; and the live allocations are what its waiting and
its refused messages point to, each of them once. -/
theorem payloads_owned {W : ClientPlatform} {stringToUTF8 : String → String} {uid : Nat → Int} {host : Nat → Nat}
    {ls : List ChatNetStep} {s : ChatNet Client}
    (h : (chatNet W stringToUTF8 uid host).run (chatNet W stringToUTF8 uid host).init ls = some s) (i : Nat) :
    (∀ localTime fault, (s.client i).dispatch W localTime ≠ some (.error fault)) ∧
      (refsOf (s.client i).messages ++ refsOf (s.client i).refused).Nodup ∧
      ∀ p, ((s.client i).heap.cell p).isSome ↔ p ∈ refsOf (s.client i).messages ∨ p ∈ refsOf (s.client i).refused := by
  have htidy := (chatNet_run_view h).1 i
  refine ⟨?_, htidy.owned.nodup, fun p => (htidy.owned.live p).trans List.mem_append⟩
  intro localTime fault hfault
  rcases hm : (s.client i).messages with _ | ⟨m, rest⟩
  · simp [Client.dispatch, hm] at hfault
  · obtain ⟨c, requests, hok, -, -⟩ := htidy.dispatch (W := W) hm localTime
    rw [hok] at hfault
    cases hfault

/-- Texts in ASCII, as Windows converts them. -/
def asciiPlatform : ClientPlatform where
  stringToWString bytes := String.ofList (bytes.map fun b => Char.ofNat b.toNat)
  titleLiteral := [0xC3, 0xA4, 0xC6, 0xC3, 0xB9, 0xE6, 0x3A, 0x20]
  postLimit := 10000

/-- A client connects, its user logs in, and the answer has come. -/
def loggingIn : List ChatNetStep :=
  [.connect 0, .onConnected 0, .dispatch 0 "12:00:00", .user 0 (.login "ann" "pw"), .serve 0, .receive 0]

theorem payloads_owned_loggingIn : ∃ s,
    (chatNet asciiPlatform id (fun a => a) (fun a => a)).run (chatNet asciiPlatform id (fun a => a) (fun a => a)).init loggingIn =
      some s ∧
    (∀ localTime fault, (s.client 0).dispatch asciiPlatform localTime ≠ some (.error fault)) ∧
      (refsOf (s.client 0).messages ++ refsOf (s.client 0).refused).Nodup ∧
      ∀ p, ((s.client 0).heap.cell p).isSome ↔ p ∈ refsOf (s.client 0).messages ∨ p ∈ refsOf (s.client 0).refused := by
  have hruns : ((chatNet asciiPlatform id (fun a => a) (fun a => a)).run
      (chatNet asciiPlatform id (fun a => a) (fun a => a)).init loggingIn).isSome = true := by decide +kernel
  obtain ⟨s, hs⟩ := Option.isSome_iff_exists.1 hruns
  exact ⟨s, hs, payloads_owned hs 0⟩

end ProjectYJ
