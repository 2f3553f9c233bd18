import ProjectYJ.Proto3
import ProjectYJ.ProtoParser

/-!
# What the grammar says about a message

A top-level statement that begins with the word `message` has an identifier next (`topLevelStatement_message`), and no
character of an identifier separates words (`identifier_word`). A string without escapes stands for its characters
(`parseString_plain`).
-/

namespace ProjectYJ

namespace Proto3

open Ebnf

/-- Two words a token is looked up as are one. -/
theorem Token.lookingAt_inj {t : Token} {s s' : String} (h : t.lookingAt s = true) (h' : t.lookingAt s' = true) :
    s.toList = s'.toList := (beq_iff_eq.1 h).symm.trans (beq_iff_eq.1 h')

/-- A statement that begins with a word: its first token is that word. -/
theorem derives_consume {s : String} {a : Ebnf Rule Token} {l : List (Ebnf Rule Token)} {w : List Token}
    (h : Derives rules (seqs (consume s :: a :: l)) w) :
    ∃ t ts, w = t :: ts ∧ t.lookingAt s = true ∧ Derives rules (seqs (a :: l)) ts := by
  obtain ⟨u, v, hu, hv, rfl⟩ := derives_seq_iff.1 h
  obtain ⟨t, ht, rfl⟩ := derives_token_iff.1 hu
  exact ⟨t, v, rfl, ht, hv⟩

/-- A statement that begins with another word does not begin with `message`. -/
theorem not_message_of_consume {s : String} {a : Ebnf Rule Token} {l : List (Ebnf Rule Token)} {t : Token} {ts : List Token}
    (hs : s.toList ≠ "message".toList) (h : Derives rules (seqs (consume s :: a :: l)) (t :: ts)) :
    t.lookingAt "message" = false := by
  obtain ⟨t', ts', ⟨⟩, ht, -⟩ := derives_consume h
  rw [Bool.eq_false_iff]
  exact fun hmessage => hs (Token.lookingAt_inj ht hmessage)

/-- A message definition: the word, an identifier, the block. -/
theorem messageDefinition_name {t : Token} {ts : List Token} (h : Derives rules (.ref .messageDefinition) (t :: ts)) :
    ∃ name block, ts = name :: block ∧ name.type = .identifier := by
  obtain ⟨t', ts', ⟨⟩, -, hrest⟩ := derives_consume (derives_ref_iff.1 h)
  obtain ⟨u, v, hu, -, rfl⟩ := derives_seq_iff.1 hrest
  obtain ⟨name, hname, rfl⟩ := derives_token_iff.1 hu
  exact ⟨name, v, rfl, beq_iff_eq.1 hname⟩

/-- A top-level statement that begins with `message` has an identifier next: no other statement begins with that word. -/
theorem topLevelStatement_message {t : Token} {ts : List Token} (h : Derives rules (.ref .topLevelStatement) (t :: ts))
    (ht : t.lookingAt "message" = true) : ∃ name block, ts = name :: block ∧ name.type = .identifier := by
  have hother : ∀ {s : String} {a : Ebnf Rule Token} {l : List (Ebnf Rule Token)}, s.toList ≠ "message".toList →
      ¬Derives rules (seqs (consume s :: a :: l)) (t :: ts) := by
    intro s a l hs hd
    rw [not_message_of_consume hs hd] at ht
    cases ht
  have hsemicolon : ¬Derives rules (consume ";") (t :: ts) := by
    intro hd
    obtain ⟨t', ht', ⟨⟩⟩ := derives_token_iff.1 hd
    exact absurd (Token.lookingAt_inj ht' ht) (by decide)
  obtain ⟨e, he, hd⟩ := exists_of_derives_oneOf (derives_ref_iff.1 h)
  simp only [List.mem_cons, List.not_mem_nil, or_false] at he
  rcases he with rfl | rfl | rfl | rfl | rfl | rfl | rfl | rfl
  · exact absurd hd hsemicolon
  · exact messageDefinition_name hd
  · exact absurd hd (hother (by decide))
  · exact absurd hd (hother (by decide))
  · exact absurd hd (hother (by decide))
  · exact absurd hd (hother (by decide))
  · exact absurd hd (hother (by decide))
  · exact absurd hd (hother (by decide))

/-! ## Identifiers -/

/-- A character of an identifier does not separate words. -/
theorem not_isSpace_of_isAlphanumeric {c : Char} (h : isAlphanumeric c = true) : Python.isSpace c = false := by
  have hval : 48 ≤ c.val.toNat ∧ c.val.toNat ≤ 122 := by
    simp only [isAlphanumeric, isLetter, isDigit, Bool.or_eq_true, Bool.and_eq_true, decide_eq_true_eq, beq_iff_eq,
      UInt32.le_iff_toNat_le, UInt32.toNat_ofNat] at h
    rcases h with (h | rfl) | h
    · omega
    · decide
    · omega
  by_contra hs
  rw [Bool.not_eq_false] at hs
  simp only [Python.isSpace, Bool.or_eq_true, Bool.and_eq_true, decide_eq_true_eq, beq_iff_eq, UInt32.le_iff_toNat_le,
    ← UInt32.toNat_inj, UInt32.toNat_ofNat] at hs
  omega

/-- An identifier is a word: it is not empty, and none of its characters separates words. -/
theorem identifier_word {t : Token} (ht : t.type = .identifier) (h : t.Lexical) :
    t.text ≠ [] ∧ ∀ c ∈ t.text, Python.isSpace c = false := by
  rw [Token.Lexical, ht] at h
  obtain ⟨u, v, hu, hv, htext⟩ := derives_seq_iff.1 h
  obtain ⟨c, hc, rfl⟩ := derives_token_iff.1 hu
  have hall : ∀ d ∈ c :: v, isAlphanumeric d = true :=
    List.forall_mem_cons.2 ⟨by rw [isAlphanumeric, hc, Bool.true_or], forall_of_derives_many hv⟩
  rw [htext]
  exact ⟨List.cons_ne_nil c v, fun d hd => not_isSpace_of_isAlphanumeric (hall d hd)⟩

/-! ## Strings -/

/-- The loop copies the characters of a string that has no escapes, up to the quote. -/
theorem unescape_plain {quote : Char} {content : List Char} (h : ∀ c ∈ content, c ≠ '\\') (hquote : quote ≠ '\\') {fuel : Nat}
    (hfuel : content.length < fuel) :
    unescape quote fuel (content ++ [quote]) = content.flatMap fun c => appendUTF8 c.toNat := by
  induction content generalizing fuel with
  | nil =>
    obtain ⟨fuel, rfl⟩ := Nat.exists_eq_succ_of_ne_zero (Nat.ne_of_gt hfuel)
    rw [List.nil_append, unescape]
    · simp
    · exact fun _ _ hc _ => hquote hc
  | cons c content ih =>
    obtain ⟨fuel, rfl⟩ := Nat.exists_eq_succ_of_ne_zero (Nat.ne_of_gt (Nat.lt_of_le_of_lt (Nat.zero_le _) hfuel))
    obtain ⟨hc, hrest⟩ := List.forall_mem_cons.1 h
    rw [List.cons_append, unescape]
    · rw [if_neg (by simp), ih hrest (Nat.lt_of_succ_lt_succ hfuel), List.flatMap_cons]
    · exact fun _ _ hc' _ => hc hc'

/-- A string without escapes stands for the bytes of its characters. -/
theorem parseString_plain {quote : Char} {content : List Char} (h : ∀ c ∈ content, c ≠ '\\') (hquote : quote ≠ '\\') :
    parseString (quote :: (content ++ [quote])) = content.flatMap fun c => appendUTF8 c.toNat :=
  unescape_plain h hquote (by simp)

/-- The name of the syntax may be written in two strings, and with escapes. -/
example : stringValue [⟨.string, "'pro'".toList⟩, ⟨.string, "\"t\\157\\x33\"".toList⟩] = syntaxName := by decide

end Proto3

end ProjectYJ
