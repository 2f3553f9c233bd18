import Mathlib.Data.List.Basic

/-!
# Grammars in extended Backus-Naur form

An expression over nonterminals and token predicates, the words it derives under a table of rules, and a recognizer that
finds derivations. The recognizer is sound (`derives_of_accepts`): a word it accepts has a derivation.
-/

namespace ProjectYJ

universe u v

/-- An expression of extended Backus-Naur form. -/
inductive Ebnf (N : Type u) (T : Type v) where
  | empty
  | token (p : T → Bool)
  | ref (x : N)
  | seq (a b : Ebnf N T)
  | alt (a b : Ebnf N T)
  | many (a : Ebnf N T)

namespace Ebnf

variable {N : Type u} {T : Type v}

/-- One expression after the other. -/
def seqs : List (Ebnf N T) → Ebnf N T
  | [] => .empty
  | [a] => a
  | a :: l => .seq a (seqs l)

/-- One expression of several. -/
def oneOf : List (Ebnf N T) → Ebnf N T
  | [] => .token fun _ => false
  | [a] => a
  | a :: l => .alt a (oneOf l)

/-- The expression, or nothing. -/
def opt (a : Ebnf N T) : Ebnf N T := .alt a .empty

/-- The expression once or more often. -/
def many1 (a : Ebnf N T) : Ebnf N T := .seq a (.many a)

/-- The expression once or more often, with a separator between. -/
def sepBy (a sep : Ebnf N T) : Ebnf N T := .seq a (.many (.seq sep a))

/-- The words an expression stands for, where each nonterminal stands for its rule. -/
inductive Derives (rules : N → Ebnf N T) : Ebnf N T → List T → Prop
  | empty : Derives rules .empty []
  | token {p : T → Bool} {t : T} (h : p t = true) : Derives rules (.token p) [t]
  | ref {x : N} {w : List T} (h : Derives rules (rules x) w) : Derives rules (.ref x) w
  | seq {a b : Ebnf N T} {u w : List T} (ha : Derives rules a u) (hb : Derives rules b w) : Derives rules (.seq a b) (u ++ w)
  | altLeft {a b : Ebnf N T} {w : List T} (h : Derives rules a w) : Derives rules (.alt a b) w
  | altRight {a b : Ebnf N T} {w : List T} (h : Derives rules b w) : Derives rules (.alt a b) w
  | manyNil {a : Ebnf N T} : Derives rules (.many a) []
  | manyCons {a : Ebnf N T} {u w : List T} (ha : Derives rules a u) (hm : Derives rules (.many a) w) :
      Derives rules (.many a) (u ++ w)

/-- What is left of a word after each of its beginnings that the expression stands for, found with `fuel` steps down. -/
def run (rules : N → Ebnf N T) : Nat → Ebnf N T → List T → List (List T)
  | 0, _, _ => []
  | _ + 1, .empty, w => [w]
  | _ + 1, .token _, [] => []
  | _ + 1, .token p, t :: w => if p t then [w] else []
  | fuel + 1, .ref x, w => run rules fuel (rules x) w
  | fuel + 1, .seq a b, w => (run rules fuel a w).flatMap fun rest => run rules fuel b rest
  | fuel + 1, .alt a b, w => run rules fuel a w ++ run rules fuel b w
  | fuel + 1, .many a, w => w :: (run rules fuel a w).flatMap fun rest => run rules fuel (.many a) rest

/-- The recognizer gets to the end of the word. -/
def accepts (rules : N → Ebnf N T) (fuel : Nat) (e : Ebnf N T) (w : List T) : Bool :=
  (run rules fuel e w).any fun rest => rest.isEmpty

variable {rules : N → Ebnf N T} {e : Ebnf N T} {w : List T}

/-- What the recognizer leaves comes after a derived word. -/
theorem derives_of_run {fuel : Nat} {rest : List T} (h : rest ∈ run rules fuel e w) :
    ∃ u, w = u ++ rest ∧ Derives rules e u := by
  induction fuel generalizing e w rest with
  | zero => cases h
  | succ fuel ih =>
    cases e with
    | empty =>
      rw [run, List.mem_singleton] at h
      exact ⟨[], h.symm, .empty⟩
    | token p =>
      cases w with
      | nil => cases h
      | cons t w =>
        rw [run] at h
        split at h
        · rename_i hp
          rw [List.mem_singleton] at h
          exact ⟨[t], by rw [h, List.singleton_append], .token hp⟩
        · cases h
    | ref x =>
      obtain ⟨u, hw, hu⟩ := ih h
      exact ⟨u, hw, .ref hu⟩
    | seq a b =>
      rw [run, List.mem_flatMap] at h
      obtain ⟨mid, ha, hb⟩ := h
      obtain ⟨u, rfl, hu⟩ := ih ha
      obtain ⟨v, rfl, hv⟩ := ih hb
      exact ⟨u ++ v, (List.append_assoc ..).symm, .seq hu hv⟩
    | alt a b =>
      rw [run, List.mem_append] at h
      rcases h with h | h
      · obtain ⟨u, hw, hu⟩ := ih h
        exact ⟨u, hw, .altLeft hu⟩
      · obtain ⟨u, hw, hu⟩ := ih h
        exact ⟨u, hw, .altRight hu⟩
    | many a =>
      rw [run, List.mem_cons, List.mem_flatMap] at h
      rcases h with rfl | ⟨mid, ha, hm⟩
      · exact ⟨[], rfl, .manyNil⟩
      · obtain ⟨u, rfl, hu⟩ := ih ha
        obtain ⟨v, rfl, hv⟩ := ih hm
        exact ⟨u ++ v, (List.append_assoc ..).symm, .manyCons hu hv⟩

/-- A word the recognizer accepts is derived. -/
theorem derives_of_accepts {fuel : Nat} (h : accepts rules fuel e w = true) : Derives rules e w := by
  obtain ⟨rest, hrest, hempty⟩ := List.any_eq_true.1 h
  obtain ⟨u, rfl, hu⟩ := derives_of_run hrest
  rwa [List.isEmpty_iff.1 hempty, List.append_nil]

/-! ## What a derivation looks like -/

theorem derives_token_iff {p : T → Bool} : Derives rules (.token p) w ↔ ∃ t, p t = true ∧ w = [t] := by
  constructor
  · rintro ⟨⟩
    exact ⟨_, ‹_›, rfl⟩
  · rintro ⟨t, ht, rfl⟩
    exact .token ht

theorem derives_ref_iff {x : N} : Derives rules (.ref x) w ↔ Derives rules (rules x) w := by
  constructor
  · rintro ⟨⟩
    assumption
  · exact .ref

theorem derives_seq_iff {a b : Ebnf N T} :
    Derives rules (.seq a b) w ↔ ∃ u v, Derives rules a u ∧ Derives rules b v ∧ w = u ++ v := by
  constructor
  · rintro ⟨⟩
    exact ⟨_, _, ‹_›, ‹_›, rfl⟩
  · rintro ⟨u, v, hu, hv, rfl⟩
    exact .seq hu hv

theorem derives_alt_iff {a b : Ebnf N T} : Derives rules (.alt a b) w ↔ Derives rules a w ∨ Derives rules b w := by
  constructor
  · rintro ⟨⟩
    · exact Or.inl ‹_›
    · exact Or.inr ‹_›
  · rintro (h | h)
    · exact .altLeft h
    · exact .altRight h

/-- What one expression of several stands for, one of them stands for. -/
theorem exists_of_derives_oneOf {l : List (Ebnf N T)} (h : Derives rules (oneOf l) w) : ∃ a ∈ l, Derives rules a w := by
  induction l with
  | nil =>
    obtain ⟨t, ht, -⟩ := derives_token_iff.1 h
    cases ht
  | cons a l ih =>
    cases l with
    | nil => exact ⟨a, List.mem_cons_self, h⟩
    | cons b l =>
      rcases derives_alt_iff.1 h with h | h
      · exact ⟨a, List.mem_cons_self, h⟩
      · obtain ⟨c, hc, hd⟩ := ih h
        exact ⟨c, List.mem_cons_of_mem a hc, hd⟩

/-- A run of tokens of one kind has only these. -/
theorem forall_of_derives_many {p : T → Bool} (h : Derives rules (.many (.token p)) w) : ∀ t ∈ w, p t = true := by
  generalize he : Ebnf.many (Ebnf.token p) = e at h
  induction h with
  | manyNil => exact fun t ht => absurd ht List.not_mem_nil
  | manyCons ha hm iha ihm =>
    cases he
    obtain ⟨t, ht, rfl⟩ := derives_token_iff.1 ha
    exact List.forall_mem_cons.2 ⟨ht, ihm rfl⟩
  | _ => cases he

end Ebnf

end ProjectYJ
