import CashWallet.Bytes.Field

/-!
# Counts as they lie in bytes

A compact-size integer is read in any of its four forms, and it may stand in a longer one than it
needs. What is read does not tell the form. So a layout keeps, beside the items that are counted,
the form of their count, and tells the bytes that were read.
-/

namespace CashWallet

namespace CompactSize

/-- A compact-size integer as it lies in bytes: one byte that is no marker, or a number of two,
four or eight bytes behind its marker. -/
inductive Form where
  | one (byte : UInt8) (unmarked : byte < 0xfd)
  | three (value : UInt16)
  | five (value : UInt32)
  | nine (value : UInt64)
  deriving DecidableEq

namespace Form

def value : Form → UInt64
  | one byte _ => byte.toUInt64
  | three v => v.toUInt64
  | five v => v.toUInt64
  | nine v => v

def bytes : Form → Bytes
  | one byte _ => [byte]
  | three v => 0xfd :: Endian.toLittle 2 v.toNat
  | five v => 0xfe :: Endian.toLittle 4 v.toNat
  | nine v => 0xff :: Endian.toLittle 8 v.toNat

/-- No form of the same number takes fewer bytes. -/
def IsShortest (f : Form) : Prop :=
  ∀ g : Form, g.value = f.value → f.bytes.length ≤ g.bytes.length

/-- The bytes that a form takes beyond those that its number needs. -/
def excess (f : Form) : Nat :=
  f.bytes.length - size f.value

theorem toUInt8_lt_marker {n : UInt64} (h : n < 0xfd) : n.toUInt8 < 0xfd := by
  rw [UInt64.lt_iff_toNat_lt] at h
  rw [UInt8.lt_iff_toNat_lt, UInt64.toNat_toUInt8]
  exact Nat.lt_of_le_of_lt (Nat.mod_le _ _) h

/-- The form that the writer picks. -/
def shortest (n : UInt64) : Form :=
  if h : n < 0xfd then .one n.toUInt8 (toUInt8_lt_marker h)
  else if n ≤ 0xffff then .three n.toUInt16
  else if n ≤ 0xffffffff then .five n.toUInt32
  else .nine n

theorem value_shortest (n : UInt64) : (shortest n).value = n := by
  unfold shortest
  split
  · next h =>
      have hn : n.toNat < 253 := UInt64.lt_iff_toNat_lt.1 h
      apply UInt64.toNat_inj.1
      rw [value, UInt8.toNat_toUInt64, UInt64.toNat_toUInt8]
      omega
  split
  · next h =>
      have hn : n.toNat ≤ 65535 := UInt64.le_iff_toNat_le.1 h
      apply UInt64.toNat_inj.1
      rw [value, UInt16.toNat_toUInt64, UInt64.toNat_toUInt16]
      omega
  split
  · next h =>
      have hn : n.toNat ≤ 4294967295 := UInt64.le_iff_toNat_le.1 h
      apply UInt64.toNat_inj.1
      rw [value, UInt32.toNat_toUInt64, UInt64.toNat_toUInt32]
      omega
  · rfl

theorem bytes_shortest (n : UInt64) : (shortest n).bytes = encode n := by
  have hback := value_shortest n
  unfold encode
  unfold shortest at hback ⊢
  split
  · rfl
  split
  · next h₁ h₂ =>
      rw [dif_neg h₁, if_pos h₂, value] at hback
      rw [bytes, ← UInt16.toNat_toUInt64, hback]
  split
  · next h₁ h₂ h₃ =>
      rw [dif_neg h₁, if_neg h₂, if_pos h₃, value] at hback
      rw [bytes, ← UInt32.toNat_toUInt64, hback]
  · rfl

/-- A form takes at least as many bytes as its number needs. -/
theorem size_value_le (f : Form) : size f.value ≤ f.bytes.length := by
  cases f with
  | one byte unmarked =>
      have hvalue : byte.toUInt64 < 0xfd := by
        rw [UInt64.lt_iff_toNat_lt, UInt8.toNat_toUInt64]
        exact UInt8.lt_iff_toNat_lt.1 unmarked
      simp [value, bytes, size, hvalue]
  | three v =>
      have hvalue : v.toUInt64 ≤ 0xffff := by
        rw [UInt64.le_iff_toNat_le, UInt16.toNat_toUInt64]
        exact Nat.le_of_lt_succ v.toNat_lt
      rw [value, bytes, size, if_pos hvalue]
      split <;> simp
  | five v =>
      have hvalue : v.toUInt64 ≤ 0xffffffff := by
        rw [UInt64.le_iff_toNat_le, UInt32.toNat_toUInt64]
        exact Nat.le_of_lt_succ v.toNat_lt
      rw [value, bytes, size, if_pos hvalue]
      repeat' split
      all_goals simp
  | nine v =>
      rw [value, bytes, size]
      repeat' split
      all_goals simp

theorem length_bytes (f : Form) : f.bytes.length = size f.value + f.excess := by
  rw [excess, Nat.add_sub_cancel' f.size_value_le]

/-- A number is written in one form of each length at most. -/
theorem ext_of_length {f g : Form} (hvalue : f.value = g.value)
    (hlength : f.bytes.length = g.bytes.length) : f = g := by
  cases f <;> cases g <;>
    simp_all [value, bytes, UInt8.toUInt64_inj, UInt16.toUInt64_inj, UInt32.toUInt64_inj]

theorem isShortest_iff_length (f : Form) : f.IsShortest ↔ f.bytes.length = size f.value := by
  constructor
  · intro h
    apply Nat.le_antisymm _ f.size_value_le
    have hle := h (shortest f.value) (value_shortest f.value)
    rwa [bytes_shortest, length_encode] at hle
  · intro h g hvalue
    rw [h, ← hvalue]
    exact g.size_value_le

theorem isShortest_iff_excess (f : Form) : f.IsShortest ↔ f.excess = 0 := by
  rw [isShortest_iff_length, length_bytes]
  omega

/-- The form that the writer picks is the only shortest one. -/
theorem IsShortest.eq_shortest {f : Form} (h : f.IsShortest) : f = shortest f.value := by
  apply ext_of_length (value_shortest f.value).symm
  rw [(isShortest_iff_length f).1 h, bytes_shortest, length_encode]

end Form

end CompactSize

/-- Items behind their count, in one of the forms of it. -/
structure Counted (α : Type) where
  count : CompactSize.Form
  items : List α
  counted : items.length = count.value.toNat

namespace Counted

def bytes (encode : α → Bytes) (c : Counted α) : Bytes :=
  c.count.bytes ++ c.items.flatMap encode

/-- Other items behind the same count. -/
def map (f : α → β) (c : Counted α) : Counted β :=
  ⟨c.count, c.items.map f, by rw [List.length_map, c.counted]⟩

/-- The same items behind the shortest form of their count. -/
def shortened (c : Counted α) : Counted α :=
  ⟨.shortest c.count.value, c.items, by rw [CompactSize.Form.value_shortest, c.counted]⟩

/-- The bytes of a script behind its length. -/
def script (c : Counted UInt8) : Bytes :=
  c.bytes ([·])

theorem script_eq (c : Counted UInt8) : c.script = c.count.bytes ++ c.items := by
  rw [script, bytes, List.flatMap_singleton']

end Counted

end CashWallet
