import CashWallet.Signature.Basic

/-!
# The written form of a signature

A scalar is written without leading zeros, but for the one that keeps the sign bit clear. Both
scalars together take so few bytes that all lengths fit in one byte, and the strict reader accepts
what is written.
-/

namespace CashWallet.Signature

theorem ofLittle_map_ofNat {ds : List Nat} (h : ∀ d ∈ ds, d < 256) :
    Endian.ofLittle (ds.map UInt8.ofNat) = Digits.toNat 256 ds := by
  induction ds with
  | nil => rfl
  | cons d ds ih =>
      obtain ⟨hd, hds⟩ := List.forall_mem_cons.1 h
      rw [List.map_cons, Endian.ofLittle, ih hds, UInt8.toNat_ofNat_of_lt' hd]
      rfl

/-- The bytes of a positive number, of which the first is not zero. -/
theorem exists_bigDigits {n width : Nat} (h0 : 0 < n) (h : n < Nat.pow 256 width) :
    ∃ b rest, ((Digits.ofNat 256 n).map UInt8.ofNat).reverse = b :: rest ∧ b ≠ 0 ∧
      Endian.ofBig (b :: rest) = n ∧ rest.length < width := by
  have hlt := Digits.lt_pow_log2 (by decide : 2 ≤ 256) n
  have hdigits : ∀ d ∈ Digits.ofNat 256 n, d < 256 := fun d hd =>
    Digits.lt_of_mem_upTo (by decide) hd
  obtain ⟨d, hd, hne⟩ := Digits.getLast?_upTo hlt (Nat.ne_of_gt h0)
  obtain ⟨ds, hds⟩ := List.getLast?_eq_some_iff.1 hd
  change Digits.ofNat 256 n = ds ++ [d] at hds
  have hbytes : ((Digits.ofNat 256 n).map UInt8.ofNat).reverse =
      UInt8.ofNat d :: (ds.map UInt8.ofNat).reverse := by
    rw [hds, List.map_append, List.reverse_append]
    rfl
  have hd256 : d < 256 := hdigits d (by simp [hds])
  refine ⟨_, _, hbytes, ?_, ?_, ?_⟩
  · intro hzero
    rw [← UInt8.toNat_inj, UInt8.toNat_ofNat_of_lt' hd256] at hzero
    exact hne hzero
  · calc Endian.ofBig (UInt8.ofNat d :: (ds.map UInt8.ofNat).reverse)
        = Endian.ofLittle ((Digits.ofNat 256 n).map UInt8.ofNat) := by
          rw [← hbytes, Endian.ofBig_reverse]
      _ = Digits.toNat 256 (Digits.ofNat 256 n) := ofLittle_map_ofNat hdigits
      _ = n := Digits.toNat_ofNat (by decide) n
  · have hlength : (Digits.ofNat 256 n).length ≤ width := Digits.length_upTo_le (by decide) h
    rw [hds, List.length_append] at hlength
    rw [List.length_reverse, List.length_map]
    exact hlength

theorem integerBody_cases {n width : Nat} (h0 : 0 < n) (h : n < Nat.pow 256 width) :
    ∃ b rest, b ≠ 0 ∧ Endian.ofBig (b :: rest) = n ∧ rest.length < width ∧
      ((b < 0x80 ∧ integerBody n = b :: rest) ∨ (¬ b < 0x80 ∧ integerBody n = 0 :: b :: rest)) := by
  obtain ⟨b, rest, hdigits, hb, hn, hlength⟩ := exists_bigDigits h0 h
  refine ⟨b, rest, hb, hn, hlength, ?_⟩
  simp only [integerBody, hdigits, List.headD_cons]
  by_cases hsign : b < 0x80
  · exact Or.inl ⟨hsign, if_pos hsign⟩
  · exact Or.inr ⟨hsign, if_neg hsign⟩

theorem readInteger?_integerBody {n : Nat} (h0 : 0 < n) :
    readInteger? (integerBody n) = some n := by
  have hlt := Digits.lt_pow_log2 (by decide : 2 ≤ 256) n
  obtain ⟨b, rest, hb, rfl, -, ⟨hsign, hbody⟩ | ⟨hsign, hbody⟩⟩ := integerBody_cases h0 hlt
  · rw [hbody]
    cases rest with
    | nil => rw [readInteger?, if_pos hsign]; simp [Endian.ofBig]
    | cons c rest => simp [readInteger?, hsign, hb]
  · rw [hbody, readInteger?, if_neg hsign]

theorem length_integerBody {n width : Nat} (h0 : 0 < n) (h : n < Nat.pow 256 width) :
    0 < (integerBody n).length ∧ (integerBody n).length ≤ width + 1 := by
  obtain ⟨b, rest, -, -, hlength, ⟨-, hbody⟩ | ⟨-, hbody⟩⟩ := integerBody_cases h0 h
  · rw [hbody, List.length_cons]
    omega
  · rw [hbody, List.length_cons, List.length_cons]
    omega

theorem length_element (tag : UInt8) (body : Bytes) :
    (element tag body).length = body.length + 2 := rfl

theorem readElement?_element (tag : UInt8) {body : Bytes} (rest : Bytes)
    (h : body.length < 0x80) : readElement? tag (element tag body ++ rest) = some (body, rest) := by
  have hlength : (UInt8.ofNat body.length).toNat = body.length :=
    UInt8.toNat_ofNat_of_lt' (Nat.lt_trans h (by decide))
  have hshort : UInt8.ofNat body.length < 0x80 := by
    rw [UInt8.lt_iff_toNat_lt, hlength]
    exact h
  simp [element, readElement?, readLength?, hshort, hlength]

theorem scalar_lt {n : Nat} (h : n < Curve.order) : n < Nat.pow 256 32 :=
  Nat.lt_trans h (by decide)

/-- Both scalars and their lengths, each in the range that the bytes of the order allow. -/
theorem length_bodies (sig : Signature) :
    (0 < (integerBody sig.r).length ∧ (integerBody sig.r).length ≤ 33) ∧
      0 < (integerBody sig.s).length ∧ (integerBody sig.s).length ≤ 33 :=
  ⟨length_integerBody sig.r_pos (scalar_lt sig.r_lt),
    length_integerBody sig.s_pos (scalar_lt sig.s_lt)⟩

theorem length_toDer (sig : Signature) : 8 ≤ sig.toDer.length ∧ sig.toDer.length ≤ 72 := by
  obtain ⟨hr, hs⟩ := sig.length_bodies
  simp only [toDer, length_element, List.length_append]
  omega

theorem ofDer?_toDer (sig : Signature) : ofDer? sig.toDer = some sig := by
  obtain ⟨hr, hs⟩ := sig.length_bodies
  have hshort : (element 2 (integerBody sig.r) ++ element 2 (integerBody sig.s)).length < 0x80 := by
    simp only [length_element, List.length_append]
    omega
  have hr' : (integerBody sig.r).length < 0x80 := Nat.lt_of_le_of_lt hr.2 (by decide)
  have hs' : (integerBody sig.s).length < 0x80 := Nat.lt_of_le_of_lt hs.2 (by decide)
  have houter := readElement?_element 0x30 [] hshort
  have hfirst := readElement?_element 2 (element 2 (integerBody sig.s)) hr'
  have hsecond := readElement?_element 2 [] hs'
  rw [List.append_nil] at houter hsecond
  simp only [ofDer?, toDer, houter, hfirst, hsecond, readInteger?_integerBody sig.r_pos,
    readInteger?_integerBody sig.s_pos, ofScalars?, Option.bind_eq_bind, Option.bind_some]
  simp [sig.r_pos, sig.r_lt, sig.s_pos, sig.s_lt]

/-- What is written is read back as the same signature. -/
theorem ofDer_toDer (sig : Signature) : ofDer sig.toDer = .ok sig := by
  rw [ofDer, ofDer?_toDer]
  rfl

end CashWallet.Signature
