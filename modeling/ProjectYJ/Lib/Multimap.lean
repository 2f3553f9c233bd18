import Mathlib.Data.List.Sort

/-!
# Multimaps

An ordered multimap is a list of entries that is sorted by key. Entries of the same key stand in the order in which they
were put in, and what is put in is never merged with what is there: `count_values_emplace` counts one more. Erasing is by key:
it takes out all entries of that key, and `erase_emplace_perm` says that erasing undoes an `emplace` only as far as that.
-/

namespace ProjectYJ

universe u v

/-- An ordered multimap. -/
structure Multimap (κ : Type u) (α : Type v) [LinearOrder κ] where
  entries : List (κ × α)
  sorted : entries.Pairwise (fun e e' => e.1 ≤ e'.1)

namespace Multimap

variable {κ : Type u} {α : Type v} [LinearOrder κ]

/-- No entry. -/
def empty : Multimap κ α := ⟨[], List.Pairwise.nil⟩

/-- The list with one more entry, behind all that have the same key or a smaller one. -/
def insertEntry (k : κ) (a : α) (entries : List (κ × α)) : List (κ × α) :=
  entries.orderedInsert (fun e e' => e.1 < e'.1) (k, a)

/-- An entry put in where its key belongs leaves the list sorted. -/
theorem pairwise_insertEntry (k : κ) (a : α) {entries : List (κ × α)} (h : entries.Pairwise (fun e e' => e.1 ≤ e'.1)) :
    (insertEntry k a entries).Pairwise (fun e e' => e.1 ≤ e'.1) := by
  induction entries with
  | nil => exact List.pairwise_singleton _ _
  | cons e entries ih =>
    obtain ⟨he, hrest⟩ := List.pairwise_cons.1 h
    rw [insertEntry, List.orderedInsert_cons]
    split
    · rename_i hlt
      refine List.pairwise_cons.2 ⟨?_, h⟩
      intro e' he'
      rcases List.mem_cons.1 he' with rfl | hm
      · exact le_of_lt hlt
      · exact le_trans (le_of_lt hlt) (he e' hm)
    · rename_i hlt
      refine List.pairwise_cons.2 ⟨?_, ih hrest⟩
      intro e' he'
      rcases List.mem_cons.1 ((List.perm_orderedInsert _ _ _).mem_iff.1 he') with rfl | hm
      · exact not_lt.1 hlt
      · exact he e' hm

/-- `emplace`: one more entry. -/
def emplace (m : Multimap κ α) (k : κ) (a : α) : Multimap κ α :=
  ⟨insertEntry k a m.entries, pairwise_insertEntry k a m.sorted⟩

/-- `erase` by key: every entry of the key goes. -/
def erase (m : Multimap κ α) (k : κ) : Multimap κ α :=
  ⟨m.entries.filter (fun e => e.1 ≠ k), m.sorted.filter _⟩

/-- The values, in the order of the entries. -/
def values (m : Multimap κ α) : List α := m.entries.map Prod.snd

/-- `size`. -/
def size (m : Multimap κ α) : Nat := m.entries.length

@[simp] theorem values_empty : (empty : Multimap κ α).values = [] := rfl

/-- One more entry. -/
theorem entries_emplace_perm (m : Multimap κ α) (k : κ) (a : α) : (m.emplace k a).entries.Perm ((k, a) :: m.entries) :=
  List.perm_orderedInsert _ _ _

/-- One more value, whatever the key. -/
theorem values_emplace_perm (m : Multimap κ α) (k : κ) (a : α) : (m.emplace k a).values.Perm (a :: m.values) :=
  (List.perm_orderedInsert _ _ _).map Prod.snd

/-- Values that are there already are counted again. -/
theorem count_values_emplace [DecidableEq α] (m : Multimap κ α) (k : κ) (a b : α) :
    (m.emplace k a).values.count b = m.values.count b + if a = b then 1 else 0 := by
  rw [(m.values_emplace_perm k a).count_eq, List.count_cons]
  simp only [beq_iff_eq]

/-! ## Erasing -/

theorem entries_erase (m : Multimap κ α) (k : κ) : (m.erase k).entries = m.entries.filter (fun e => e.1 ≠ k) := rfl

/-- Of a value as many stay as it has entries under other keys. -/
theorem count_values_erase [DecidableEq α] (m : Multimap κ α) (k : κ) (a : α) :
    m.values.count a = (m.erase k).values.count a + m.entries.countP (fun e => e.1 = k ∧ e.2 = a) := by
  have hcount : ∀ es : List (κ × α), (es.map Prod.snd).count a = es.countP (fun e => e.2 = a) := by
    intro es
    rw [List.count, List.countP_map]
    rfl
  show (m.entries.map Prod.snd).count a = ((m.entries.filter _).map Prod.snd).count a + _
  rw [hcount, hcount, List.countP_filter]
  induction m.entries with
  | nil => rfl
  | cons e es ih =>
    simp only [List.countP_cons, ih]
    by_cases hk : e.1 = k <;> by_cases ha : e.2 = a <;> simp [hk, ha] <;> omega

/-- Erasing a key takes out all of one value and nothing of any other exactly when the entries of the key are those of the value. -/
theorem erase_removes_iff [DecidableEq α] (m : Multimap κ α) (k : κ) (a : α) :
    (a ∉ (m.erase k).values ∧ ∀ b, b ≠ a → (m.erase k).values.count b = m.values.count b) ↔
      ∀ e ∈ m.entries, e.1 = k ↔ e.2 = a := by
  constructor
  · rintro ⟨hgone, hkept⟩ e he
    constructor
    · intro hk
      by_contra hne
      have hsum := m.count_values_erase k e.2
      rw [hkept e.2 hne] at hsum
      have hnone : m.entries.countP (fun e' => e'.1 = k ∧ e'.2 = e.2) = 0 := by omega
      exact absurd (List.countP_eq_zero.1 hnone e he) (by simp [hk])
    · intro ha
      by_contra hk
      exact hgone (List.mem_map.2 ⟨e, List.mem_filter.2 ⟨he, by simpa using hk⟩, ha⟩)
  · intro hall
    constructor
    · intro hmem
      obtain ⟨e, he, ha⟩ := List.mem_map.1 hmem
      obtain ⟨he, hk⟩ := List.mem_filter.1 he
      exact absurd ((hall e he).2 ha) (by simpa using hk)
    · intro b hb
      have hsum := m.count_values_erase k b
      have hnone : m.entries.countP (fun e => e.1 = k ∧ e.2 = b) = 0 := by
        refine List.countP_eq_zero.2 fun e he hboth => ?_
        obtain ⟨hk, hv⟩ := of_decide_eq_true hboth
        exact hb (hv.symm.trans ((hall e he).1 hk))
      omega

/-- Putting an entry in and erasing its key leaves what is under other keys. -/
theorem erase_emplace_perm (m : Multimap κ α) (k : κ) (a : α) : ((m.emplace k a).erase k).entries.Perm (m.erase k).entries := by
  have h := (m.entries_emplace_perm k a).filter (fun e => e.1 ≠ k)
  rwa [List.filter_cons_of_neg (by simp)] at h

/-- Erasing a key changes nothing exactly when nothing is under it. -/
theorem erase_perm_iff (m : Multimap κ α) (k : κ) : (m.erase k).values.Perm m.values ↔ ∀ e ∈ m.entries, e.1 ≠ k := by
  constructor
  · intro h
    have hlen := h.length_eq
    rw [values, values, List.length_map, List.length_map] at hlen
    have hall := List.filter_eq_self.1 (List.filter_sublist.eq_of_length hlen)
    exact fun e he => by simpa using hall e he
  · intro hall
    have hself : (m.erase k).entries = m.entries := List.filter_eq_self.2 fun e he => by simpa using hall e he
    rw [values, values, hself]

end Multimap

end ProjectYJ
