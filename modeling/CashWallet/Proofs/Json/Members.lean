import CashWallet.Json.Parser
import CashWallet.Json.Pointer

/-!
# Members of objects

Where the keys of an object increase, each is there once, so a member that is put in is the one that
is found under its key. Every object that is read from a document is of this kind. Other members
stay as they were in any case.
-/

namespace CashWallet.Json

/-- The keys of members increase. -/
def Ordered (members : List (String × Json)) : Prop :=
  members.Pairwise fun m m' => m.1 < m'.1

variable {members : List (String × Json)} {key name : String} {value : Json}

theorem lt_of_not_lt {a b : String} (hne : a ≠ b) (h : ¬ a < b) : b < a :=
  Std.lt_of_le_of_ne (String.not_lt.1 h) (Ne.symm hne)

/-! ## Looking members up -/

theorem member?_cons (k : String) (v : Json) (rest : List (String × Json)) :
    member? name ((k, v) :: rest) = (member? name rest).or (if k = name then some v else none) := by
  have hlast : [(k, v)].find? (·.1 == name) = if k = name then some (k, v) else none := by
    by_cases hk : k = name <;> simp [hk]
  rw [member?, List.reverse_cons, List.find?_append, hlast, Option.map_or, member?]
  split <;> rfl

theorem member?_eq_none (h : ∀ m ∈ members, m.1 ≠ name) : member? name members = none := by
  rw [member?, Option.map_eq_none_iff, List.find?_eq_none]
  intro m hm
  simpa using h m (List.mem_reverse.1 hm)

theorem member?_of_ne (h : key ≠ name) (value : Json) (rest : List (String × Json)) :
    member? name ((key, value) :: rest) = member? name rest := by
  rw [member?_cons, if_neg h, Option.or_none]

/-- What stands in front of greater keys is found. -/
theorem member?_of_lt (h : ∀ m ∈ members, key < m.1) (value : Json) :
    member? key ((key, value) :: members) = some value := by
  have habsent : member? key members = none := by
    apply member?_eq_none
    rintro m hm rfl
    exact String.lt_irrefl _ (h m hm)
  rw [member?_cons, habsent, if_pos rfl, Option.none_or]

/-! ## Putting a member in -/

theorem mem_insertMember {m : String × Json} (h : m ∈ insertMember key value members) :
    m = (key, value) ∨ m ∈ members := by
  induction members with
  | nil => exact Or.inl (List.mem_singleton.1 h)
  | cons entry rest ih =>
      obtain ⟨k, v⟩ := entry
      rw [insertMember] at h
      split at h
      · exact (List.mem_cons.1 h).imp id (List.mem_cons_of_mem _)
      · split at h
        · exact List.mem_cons.1 h
        · rcases List.mem_cons.1 h with rfl | h
          · exact Or.inr List.mem_cons_self
          · exact (ih h).imp id (List.mem_cons_of_mem _)

/-- What is less than the first key is less than all. -/
theorem Ordered.lt_all {k : String} {v : Json} {rest : List (String × Json)}
    (h : Ordered ((k, v) :: rest)) (hlt : key < k) : ∀ m ∈ (k, v) :: rest, key < m.1 := by
  obtain ⟨hfirst, -⟩ := List.pairwise_cons.1 h
  rw [List.forall_mem_cons]
  exact ⟨hlt, fun m hm => String.lt_trans hlt (hfirst m hm)⟩

theorem Ordered.insertMember (h : Ordered members) (key : String) (value : Json) :
    Ordered (insertMember key value members) := by
  induction members with
  | nil => exact List.pairwise_singleton _ _
  | cons entry rest ih =>
      obtain ⟨k, v⟩ := entry
      obtain ⟨hfirst, hrest⟩ := List.pairwise_cons.1 h
      rw [Json.insertMember]
      split
      · next hkey =>
          subst hkey
          exact List.pairwise_cons.2 ⟨hfirst, hrest⟩
      · next hkey =>
          split
          · next hlt => exact List.pairwise_cons.2 ⟨h.lt_all hlt, h⟩
          · next hlt =>
              refine List.pairwise_cons.2 ⟨?_, ih hrest⟩
              intro m hm
              rcases mem_insertMember hm with rfl | hm
              · exact lt_of_not_lt hkey hlt
              · exact hfirst m hm

/-- A member that is put in is found under its key. -/
theorem Ordered.member?_insertMember (h : Ordered members) (key : String) (value : Json) :
    member? key (Json.insertMember key value members) = some value := by
  -- The order excludes a later member under the key, which would be found in place of this one.
  induction members with
  | nil => exact member?_of_lt (List.forall_mem_nil _) value
  | cons entry rest ih =>
      obtain ⟨k, v⟩ := entry
      obtain ⟨hfirst, hrest⟩ := List.pairwise_cons.1 h
      rw [Json.insertMember]
      split
      · next hkey =>
          subst hkey
          exact member?_of_lt hfirst value
      · next hkey =>
          split
          · next hlt => exact member?_of_lt (h.lt_all hlt) value
          · rw [member?_of_ne (Ne.symm hkey)]
            exact ih hrest

/-- Putting a member in leaves the others as they are. -/
theorem member?_insertMember_of_ne (h : key ≠ name) (value : Json)
    (members : List (String × Json)) :
    member? name (insertMember key value members) = member? name members := by
  induction members with
  | nil => exact member?_of_ne h value []
  | cons entry rest ih =>
      obtain ⟨k, v⟩ := entry
      rw [insertMember]
      split
      · next hkey =>
          subst hkey
          rw [member?_of_ne h, member?_of_ne h]
      · split
        · exact member?_of_ne h value _
        · rw [member?_cons, member?_cons, ih]

/-- Where each key is there once, its member is the one that is found. -/
theorem Ordered.member?_eq_some_iff (h : Ordered members) :
    member? key members = some value ↔ (key, value) ∈ members := by
  induction members with
  | nil => simp [member?]
  | cons entry rest ih =>
      obtain ⟨k, v⟩ := entry
      obtain ⟨hfirst, hrest⟩ := List.pairwise_cons.1 h
      rw [List.mem_cons, Prod.mk.injEq]
      by_cases hk : key = k
      · subst hk
        have habsent : (key, value) ∉ rest := fun hm => String.lt_irrefl _ (hfirst (key, value) hm)
        rw [member?_of_lt hfirst, Option.some_inj, or_iff_left habsent, eq_comm]
        exact (and_iff_right rfl).symm
      · rw [member?_of_ne (Ne.symm hk), ih hrest, or_iff_right fun heq => hk heq.1]

/-! ## Objects of documents -/

theorem Ordered.canonicalMembers {done : List (String × Json)} (h : Ordered done)
    (members : List (String × Json)) : Ordered (canonicalMembers done members) := by
  induction members generalizing done with
  | nil => exact h
  | cons entry rest ih => exact ih (h.insertMember entry.1 entry.2.canonical)

/-- The keys of an object that a document stands for increase. -/
theorem ordered_of_read {text : String} (h : read? text = some (.object members)) :
    Ordered members := by
  obtain ⟨document, -, hvalue⟩ := Option.bind_eq_some_iff.1 h
  rw [toValue?] at hvalue
  split at hvalue
  · have hcanonical := Option.some_inj.1 hvalue
    cases document with
    | object found =>
        cases hcanonical
        exact Ordered.canonicalMembers .nil found
    | _ => cases hcanonical
  · cases hvalue

end CashWallet.Json
