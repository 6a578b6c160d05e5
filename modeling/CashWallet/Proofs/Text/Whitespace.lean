import CashWallet.Text.Whitespace
import Mathlib.Data.List.DropRight
import Mathlib.Data.List.TakeWhile

/-!
# What is cut off around a text

Exactly what stands around the first and the last character that stays. So nothing is cut off a text
whose ends stay, and nothing more is cut off by a second cut.
-/

namespace CashWallet.Text

variable {drop : Char → Bool} {before cs after : List Char}

/-- What is cut off is of the class, and what is left is in one piece. -/
theorem exists_append_stripChars (drop : Char → Bool) (cs : List Char) :
    ∃ before after, (∀ c ∈ before, drop c = true) ∧ (∀ c ∈ after, drop c = true) ∧
      cs = before ++ stripChars drop cs ++ after := by
  refine ⟨cs.takeWhile drop, (cs.dropWhile drop).rtakeWhile drop, fun c => List.mem_takeWhile_imp,
    fun c => List.mem_rtakeWhile_imp, ?_⟩
  calc cs = cs.takeWhile drop ++ cs.dropWhile drop := List.takeWhile_append_dropWhile.symm
    _ = cs.takeWhile drop ++ (stripChars drop cs ++ (cs.dropWhile drop).rtakeWhile drop) := by
        rw [stripChars, ← List.rdropWhile, List.rdropWhile_append_rtakeWhile]
    _ = cs.takeWhile drop ++ stripChars drop cs ++ (cs.dropWhile drop).rtakeWhile drop :=
        (List.append_assoc _ _ _).symm

/-- What is not cut off stays. -/
theorem mem_stripChars {c : Char} (hc : c ∈ cs) (hkeep : ¬ drop c = true) :
    c ∈ stripChars drop cs := by
  obtain ⟨before, after, hbefore, hafter, hcs⟩ := exists_append_stripChars drop cs
  rw [hcs, List.mem_append, List.mem_append] at hc
  rcases hc with (hc | hc) | hc
  · exact absurd (hbefore c hc) hkeep
  · exact hc
  · exact absurd (hafter c hc) hkeep

/-- Nothing is cut off exactly if both ends stay. -/
theorem stripChars_eq_self_iff : stripChars drop cs = cs ↔
    (∀ c, cs.head? = some c → drop c = false) ∧ ∀ c, cs.getLast? = some c → drop c = false := by
  have hfront : cs.dropWhile drop = cs ↔ ∀ c, cs.head? = some c → drop c = false := by
    cases cs with
    | nil => simp
    | cons c cs => simp [List.dropWhile_eq_self_iff]
  have hback : cs.rdropWhile drop = cs ↔ ∀ c, cs.getLast? = some c → drop c = false := by
    rw [List.rdropWhile_eq_self_iff]
    cases cs using List.reverseRecOn with
    | nil => simp
    | append_singleton cs c => simp
  rw [stripChars, ← List.rdropWhile, ← hfront, ← hback]
  constructor
  · intro h
    -- a part of a part is the whole only if both are
    have hpart : cs.length ≤ (cs.dropWhile drop).length := by
      calc cs.length = ((cs.dropWhile drop).rdropWhile drop).length := by rw [h]
        _ ≤ (cs.dropWhile drop).length := (List.rdropWhile_prefix drop _).length_le
    have heq := (List.dropWhile_suffix drop).eq_of_length_le hpart
    rw [heq] at h
    exact ⟨heq, h⟩
  · rintro ⟨heq, h⟩
    rw [heq, h]

theorem stripChars_stripChars (drop : Char → Bool) (cs : List Char) :
    stripChars drop (stripChars drop cs) = stripChars drop cs := by
  rw [stripChars_eq_self_iff, stripChars, ← List.rdropWhile]
  constructor
  · intro c hc
    -- what is cut off behind leaves the first character where it is
    have hfirst : (cs.dropWhile drop).head? = some c := by
      obtain ⟨after, happ⟩ := List.rdropWhile_prefix drop (cs.dropWhile drop)
      rw [← happ, List.head?_append, hc, Option.some_or]
    have hstays := List.head?_dropWhile_not drop cs
    rw [hfirst] at hstays
    exact hstays
  · intro c hc
    have hne : (cs.dropWhile drop).rdropWhile drop ≠ [] := by
      rintro hnil
      rw [hnil] at hc
      cases hc
    rw [List.getLast?_eq_some_getLast hne, Option.some_inj] at hc
    rw [← hc]
    exact eq_false_of_ne_true (List.rdropWhile_last_not drop _ hne)

/-- Nothing is cut off a text whose characters all stay. -/
theorem stripChars_eq_self (h : ∀ c ∈ cs, drop c = false) : stripChars drop cs = cs :=
  stripChars_eq_self_iff.2 ⟨fun c hc => h c (List.mem_of_head? hc),
    fun c hc => h c (List.mem_of_getLast? hc)⟩

theorem dropWhile_padded (hbefore : ∀ c ∈ before, drop c = true) (h : ∀ c ∈ cs, drop c = false)
    (hcs : cs ≠ []) (after : List Char) :
    (before ++ cs ++ after).dropWhile drop = cs ++ after := by
  cases cs with
  | nil => exact absurd rfl hcs
  | cons c cs =>
      have hfirst : ¬ drop c = true := by simp [h c List.mem_cons_self]
      rw [List.append_assoc, List.dropWhile_append_of_pos hbefore, List.cons_append,
        List.dropWhile_cons_of_neg hfirst]

/-- Exactly what stands around the characters that stay is cut off. -/
theorem stripChars_padded (hbefore : ∀ c ∈ before, drop c = true)
    (hafter : ∀ c ∈ after, drop c = true) (h : ∀ c ∈ cs, drop c = false) (hcs : cs ≠ []) :
    stripChars drop (before ++ cs ++ after) = cs := by
  have hback : (cs ++ after).reverse = after.reverse ++ cs.reverse ++ [] := by
    rw [List.reverse_append, List.append_nil]
  have hcut : (after.reverse ++ cs.reverse ++ []).dropWhile drop = cs.reverse ++ [] := by
    apply dropWhile_padded
    · intro c hc
      exact hafter c (List.mem_reverse.1 hc)
    · intro c hc
      exact h c (List.mem_reverse.1 hc)
    · simpa using hcs
  rw [stripChars, dropWhile_padded hbefore h hcs, hback, hcut, List.append_nil,
    List.reverse_reverse]

/-- A change of characters that keeps the class commutes with the cut. -/
theorem stripChars_map {f : Char → Char} (hf : ∀ c, drop (f c) = drop c) (cs : List Char) :
    stripChars drop (cs.map f) = (stripChars drop cs).map f := by
  have hclass : drop ∘ f = drop := funext hf
  rw [stripChars, List.dropWhile_map, hclass, ← List.map_reverse, List.dropWhile_map, hclass,
    ← List.map_reverse, stripChars]

theorem toList_trim (text : String) : (trim text).toList = trimChars text.toList :=
  String.toList_ofList

theorem trim_ofList (h : ∀ c ∈ cs, isBlank c = false) :
    trim (String.ofList cs) = String.ofList cs := by
  rw [trim, String.toList_ofList, trimChars, stripChars_eq_self h]

/-- The visible characters of ASCII are not blank. -/
theorem isBlank_of_visible {c : Char} (hlow : 32 < c.toNat) (hhigh : c.toNat < 127) :
    isBlank c = false := by
  -- all blank characters lie outside of these bounds
  have hne (n : UInt32) (hn : n.toNat ≤ 32 ∨ 127 ≤ n.toNat) : c.val ≠ n := by
    rintro rfl
    change c.toNat ≤ 32 ∨ 127 ≤ c.toNat at hn
    omega
  have hspace : c ≠ ' ' := by
    rintro rfl
    exact Nat.lt_irrefl 32 hlow
  have hval : c.val.toNat = c.toNat := rfl
  simp only [isBlank, hspace, hne 0x85 (by decide), hne 0xa0 (by decide), hne 0x1680 (by decide),
    hne 0x2028 (by decide), hne 0x2029 (by decide), hne 0x202f (by decide), hne 0x205f (by decide),
    hne 0x3000 (by decide), Bool.or_eq_false_iff, Bool.and_eq_false_iff,
    decide_eq_false_iff_not, UInt32.le_iff_toNat_le, hval, beq_eq_false_iff_ne, ne_eq,
    not_false_eq_true, and_true]
  have h13 : UInt32.toNat 13 = 13 := rfl
  have h2000 : UInt32.toNat 0x2000 = 0x2000 := rfl
  omega

/-- Letters are not blank in either case. -/
theorem isBlank_toLower (c : Char) : isBlank c.toLower = isBlank c := by
  have hascii : ∀ n < 128, isBlank (Char.ofNat n).toLower = isBlank (Char.ofNat n) := by
    decide +kernel
  by_cases h : c.toNat < 128
  · have hc := hascii c.toNat h
    rwa [Char.ofNat_toNat] at hc
  · have hupper : ¬ (c.val ≥ 'A'.val ∧ c.val ≤ 'Z'.val) := by
      rintro ⟨-, hle⟩
      exact h (Nat.lt_of_le_of_lt (UInt32.le_iff_toNat_le.1 hle) (by decide))
    have hlower : c.toLower = c := dif_neg hupper
    rw [hlower]

end CashWallet.Text
