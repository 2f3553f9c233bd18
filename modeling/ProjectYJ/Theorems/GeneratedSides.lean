import ProjectYJ.ProtoParser
import Mathlib.Data.List.Nodup
import Mathlib.Data.List.Range

/-!
# The two generated sides agree

The server's and the client's header come from one `.proto` text by two runs with the suffixes exchanged. A run with
exchanged suffixes is the same run with the two kinds of packet exchanged, as long as no name can end in both suffixes.
-/

namespace ProjectYJ

namespace ProtoParser

/-- No name ends in both suffixes unless one of them is a suffix of the other. -/
theorem not_endswith_both {a b name : List Char} (hab : ¬a <:+ b) (hba : ¬b <:+ a) (ha : Python.endswith name a = true) :
    Python.endswith name b = false := by
  by_contra hb
  rw [Bool.not_eq_false] at hb
  rcases List.suffix_or_suffix_of_suffix (List.isSuffixOf_iff_suffix.1 ha) (List.isSuffixOf_iff_suffix.1 hb) with h | h
  · exact hab h
  · exact hba h

/-- A line does to the exchanged parser what it does to the parser, exchanged. -/
theorem parseLine_exchanged {p : ProtoParser} (hra : ¬p.requestSuffix <:+ p.ackSuffix)
    (har : ¬p.ackSuffix <:+ p.requestSuffix) (line : List Char) :
    p.exchanged.parseLine line = (p.parseLine line).map exchanged := by
  unfold parseLine
  split
  · rfl
  · cases (Python.split line)[1]? with
    | none => rfl
    | some name =>
      by_cases hr : Python.endswith name p.requestSuffix = true
      · have ha := not_endswith_both hra har hr
        simp [exchanged, count, hr, ha, Except.map]
      · by_cases ha : Python.endswith name p.ackSuffix = true
        · simp [exchanged, count, hr, ha, Except.map]
        · simp [exchanged, hr, ha, Except.map]

/-- So does the loop: the suffixes stay what they were. -/
theorem parseLines_exchanged {p : ProtoParser} (hra : ¬p.requestSuffix <:+ p.ackSuffix)
    (har : ¬p.ackSuffix <:+ p.requestSuffix) (lines : List (List Char)) :
    p.exchanged.parseLines lines = (p.parseLines lines).map exchanged := by
  induction lines generalizing p with
  | nil => rfl
  | cons line lines ih =>
    rw [parseLines, parseLines, parseLine_exchanged hra har]
    cases hline : p.parseLine line with
    | error e => rfl
    | ok p' =>
      obtain ⟨hr, ha⟩ := parseLine_suffixes hline
      exact ih (by rwa [hr, ha]) (by rwa [hr, ha])

/-- A run numbers the packets one by one from where it starts. -/
theorem parseProto_numbered {start : Int} {a b text : List Char} {p : ProtoParser}
    (h : (create start a b).parseProto text = .ok p) : Numbered start p :=
  parseLines_invariant Numbered.parseLine ⟨rfl, (Int.add_zero start).symm⟩ h

/-- The requests and the acknowledgements are among the packets. -/
structure Listed (p : ProtoParser) : Prop where
  request : p.requestPacket ⊆ p.totalPacket
  ack : p.ackPacket ⊆ p.totalPacket

/-- What a line adds to one of the two lists it adds to the packets too. -/
theorem Listed.parseLine {p p' : ProtoParser} {line : List Char} (h : Listed p) (hl : p.parseLine line = .ok p') : Listed p' := by
  have hadd : ∀ {l : List NumberedPacket} {packet}, l ⊆ p.totalPacket → l ++ [packet] ⊆ p.totalPacket ++ [packet] :=
    fun hsub => List.append_subset.2 ⟨List.subset_append_of_subset_left _ hsub, List.subset_append_right _ _⟩
  obtain rfl | ⟨name, rfl | rfl⟩ := parseLine_cases hl
  · exact h
  · exact ⟨hadd h.request, List.subset_append_of_subset_left _ h.ack⟩
  · exact ⟨List.subset_append_of_subset_left _ h.request, hadd h.ack⟩

/-- A run lists its requests and acknowledgements among its packets. -/
theorem parseProto_listed {start : Int} {a b text : List Char} {p : ProtoParser}
    (h : (create start a b).parseProto text = .ok p) : Listed p :=
  parseLines_invariant Listed.parseLine ⟨List.nil_subset _, List.nil_subset _⟩ h

/-- Where no name is used twice, the enumerator of a packet is its number. -/
theorem enumerator_of_mem {p : ProtoParser} (hnames : (p.totalPacket.map (·.name)).Nodup) {packet : NumberedPacket}
    (h : packet ∈ p.totalPacket) : p.enumerator packet.name = some packet.type := by
  have hfind : p.totalPacket.find? (·.name == packet.name) = some packet := by
    obtain ⟨found, hfound⟩ := Option.isSome_iff_exists.1
      (List.find?_isSome.2 ⟨packet, h, beq_self_eq_true packet.name⟩ : (p.totalPacket.find? (·.name == packet.name)).isSome)
    have hname : found.name = packet.name := by simpa using List.find?_some hfound
    rw [hfound, List.inj_on_of_nodup_map hnames (List.mem_of_find?_eq_some hfound) h hname]
  rw [enumerator, hfind, Option.map_some]

/-- So is what the header makes or registers under it. -/
theorem map_enumerator {p : ProtoParser} (hnames : (p.totalPacket.map (·.name)).Nodup) {l : List NumberedPacket}
    (h : l ⊆ p.totalPacket) :
    (l.map fun k => (k.name, p.enumerator k.name)) = l.map fun k => (k.name, some k.type) :=
  List.map_congr_left fun _ hk => by rw [enumerator_of_mem hnames (h hk)]

/-- Packets numbered one by one have distinct numbers. -/
theorem Numbered.nodup {start : Int} {p : ProtoParser} (h : Numbered start p) : (p.totalPacket.map (·.type)).Nodup := by
  rw [h.total]
  refine List.Nodup.map ?_ List.nodup_range
  intro x y hxy
  exact Int.ofNat.inj (Int.add_left_cancel hxy)

end ProtoParser

open ProtoParser

/-- For every text, every start and every two suffixes neither of which is a suffix of the other: if both runs succeed, they
give the same packets with the same numbers, one by one from the start and each used once; what is a request to one is an
acknowledgement to the other; and what the one side's header makes, the other side's registers, under the same number: that of
the packet in the list, if no name is used twice. -/
theorem parseProto_sides_agree (start : Int) (a b text : List Char) (hab : ¬a <:+ b) (hba : ¬b <:+ a) {p q : ProtoParser}
    (hp : (create start a b).parseProto text = .ok p) (hq : (create start b a).parseProto text = .ok q) :
    p.totalPacket = q.totalPacket ∧
      p.totalPacket.map (·.type) = (List.range p.totalPacket.length).map (fun k : Nat => start + (k : Int)) ∧
      (p.totalPacket.map (·.type)).Nodup ∧ p.requestPacket = q.ackPacket ∧ p.ackPacket = q.requestPacket ∧
      p.makes = q.registered ∧ p.registered = q.makes ∧
      ((p.totalPacket.map (·.name)).Nodup →
        (∀ packet ∈ p.totalPacket, p.enumerator packet.name = some packet.type) ∧
          p.makes = p.requestPacket.map (fun k => (k.name, some k.type)) ∧
          p.registered = p.ackPacket.map (fun k => (k.name, some k.type))) := by
  have hpq : q = p.exchanged := by
    have h := @parseLines_exchanged (create start a b) hab hba (Python.readlines (Python.universalNewlines text))
    rw [show (create start a b).parseLines _ = .ok p from hp] at h
    exact Except.ok.inj (hq.symm.trans h)
  have hnum := parseProto_numbered hp
  have hlisted := parseProto_listed hp
  subst hpq
  refine ⟨rfl, hnum.total, hnum.nodup, rfl, rfl, rfl, rfl, fun hnames => ?_⟩
  exact ⟨fun packet hpacket => enumerator_of_mem hnames hpacket, map_enumerator hnames hlisted.request,
    map_enumerator hnames hlisted.ack⟩

/-- `parseProto_sides_agree` at a text with a request and an acknowledgement, and the suffixes of the two invocations: the
client makes `LoginReq` under 1000, and the server registers it there. -/
theorem parseProto_sides_agree_login :
    ∃ p q : ProtoParser, p.totalPacket = [⟨"LoginReq".toList, 1000⟩, ⟨"LoginAck".toList, 1001⟩] ∧
      p.totalPacket = q.totalPacket ∧ p.makes = q.registered ∧ p.makes = [("LoginReq".toList, some 1000)] := by
  have h := parseProto_sides_agree 1000 "Req".toList "Ack".toList "message LoginReq\r\nmessage LoginAck".toList
    (by decide) (by decide) rfl rfl
  exact ⟨_, _, rfl, h.1, h.2.2.2.2.2.1, (h.2.2.2.2.2.2.2 (by decide)).2.1⟩

end ProjectYJ
