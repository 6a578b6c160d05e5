import CashWallet.Proofs.Transaction.FewestInputs

/-!
# Coverage in exact numbers

A selection is made by comparing two clamped sums: what the outputs hold, and the target with the
fee. As long as one of the two is in range, the comparison says the same of the exact sums. Where
both are cut off at the greatest amount it no longer says anything, and outputs may be chosen that
do not pay for the target and the fee.
-/

namespace CashWallet

/-- What outputs hold as an exact number. -/
def Unspent.worth (us : List Unspent) : Nat :=
  (us.map fun u => u.value.toNat).sum

namespace Selector

variable {s : Selector} {target : UInt64} {us candidates : List Unspent}

/-- The fee for some inputs and both outputs as an exact number. -/
def exactFee (s : Selector) (inputs : Nat) : Nat :=
  s.feePerByte.toNat * s.sizeModel.size inputs outputCount

/-- What outputs hold or what they have to hold is not cut off. -/
def InRange (s : Selector) (target : UInt64) (us : List Unspent) : Prop :=
  Unspent.worth us < maxAmount ∨ target.toNat + s.exactFee us.length ≤ maxAmount

theorem toNat_feeFor (s : Selector) (inputs : Nat) :
    (s.feeFor inputs).toNat = min (s.exactFee inputs) maxAmount :=
  s.sizeModel.toNat_fee s.feePerByte inputs outputCount

theorem covers_iff_clamped : s.Covers target us ↔
    min (target.toNat + s.exactFee us.length) maxAmount ≤ min (Unspent.worth us) maxAmount := by
  rw [covers_iff, Unspent.toNat_total, ← Unspent.worth, toNat_feeFor]
  omega

/-- In range, outputs cover the target and the fee if they do so in exact numbers. -/
theorem InRange.covers_iff (h : s.InRange target us) :
    s.Covers target us ↔ target.toNat + s.exactFee us.length ≤ Unspent.worth us := by
  rw [covers_iff_clamped]
  rcases h with h | h <;> omega

/-- In range, the fee of outputs that cover it is not cut off either. -/
theorem InRange.toNat_feeFor (h : s.InRange target us) (hcovers : s.Covers target us) :
    (s.feeFor us.length).toNat = s.exactFee us.length := by
  have hclamped := covers_iff_clamped.1 hcovers
  rw [Selector.toNat_feeFor]
  rcases h with h | h <;> omega

theorem select_of_not_covers (htarget : target ≠ 0) (h : ¬ s.Covers target candidates) :
    s.select candidates target =
      .error (.insufficientFunds (satAdd target (s.feeFor candidates.length))
        (Unspent.total candidates)) := by
  have hless : Unspent.total candidates < satAdd target (s.feeFor candidates.length) :=
    UInt64.not_le.1 h
  simp only [select, if_neg htarget, if_pos hless]

theorem exists_select (htarget : target ≠ 0) (h : s.Covers target candidates) :
    ∃ selection, s.select candidates target = .ok selection := by
  obtain ⟨front, -, htake⟩ := exists_shortestFront htarget h
  have henough : ¬ Unspent.total candidates < satAdd target (s.feeFor candidates.length) :=
    UInt64.not_lt.2 h
  refine ⟨⟨front, s.feeFor front.length⟩, ?_⟩
  simp only [select, if_neg htarget, if_neg henough, htake]

/-- In exact numbers: outputs that are chosen hold the target and their own fee, which is not cut
off, as long as what they hold or what they have to hold is in range; in any case they hold as much
of it as is in range. Candidates that do not hold the target and the fee for all of them are refused
as long as one of the two is in range, and only then. -/
theorem select_solvent (s : Selector) (candidates : List Unspent) (target : UInt64)
    (htarget : target ≠ 0) :
    (∀ selection, s.select candidates target = .ok selection →
      min (target.toNat + s.exactFee selection.chosen.length) maxAmount ≤
          Unspent.worth selection.chosen ∧
        (s.InRange target selection.chosen →
          selection.fee.toNat = s.exactFee selection.chosen.length ∧
            target.toNat + selection.fee.toNat ≤ Unspent.worth selection.chosen)) ∧
    (Unspent.worth candidates < target.toNat + s.exactFee candidates.length →
      ((∃ required available,
          s.select candidates target = .error (.insufficientFunds required available)) ↔
        s.InRange target candidates)) := by
  constructor
  · intro selection h
    obtain ⟨-, -, -, hfee, hcovers, -⟩ := select_eq_ok h
    refine ⟨Nat.le_trans (covers_iff_clamped.1 hcovers) (Nat.min_le_left _ _), fun hrange => ?_⟩
    have hexact := hrange.toNat_feeFor hcovers
    rw [hfee, hexact]
    exact ⟨rfl, hrange.covers_iff.1 hcovers⟩
  · intro hshort
    constructor
    · rintro ⟨required, available, hrefused⟩
      by_contra hbeyond
      rw [InRange, not_or, Nat.not_lt, Nat.not_le] at hbeyond
      have hcovers : s.Covers target candidates := by
        rw [covers_iff_clamped]
        omega
      obtain ⟨selection, hselect⟩ := exists_select htarget hcovers
      rw [hselect] at hrefused
      cases hrefused
    · intro hrange
      have hrefused : ¬ s.Covers target candidates := by
        rw [hrange.covers_iff]
        exact Nat.not_le_of_lt hshort
      exact ⟨_, _, select_of_not_covers htarget hrefused⟩

theorem select_solvent_purse :
    ((1800 : UInt64) ≠ 0 ∧
      frugal.select purse 1800 = .ok ⟨[coin 900, coin 800, coin 700], 522⟩ ∧
      frugal.InRange 1800 [coin 900, coin 800, coin 700] ∧
      1800 + 522 ≤ Unspent.worth [coin 900, coin 800, coin 700]) ∧
    ((2100 : UInt64) ≠ 0 ∧ Unspent.worth purse < 2100 + frugal.exactFee 4 ∧
      frugal.InRange 2100 purse ∧
      ∃ required available,
        frugal.select purse 2100 = .error (.insufficientFunds required available)) := by
  have hselect : frugal.select purse 1800 = .ok ⟨[coin 900, coin 800, coin 700], 522⟩ := by
    rw [select, byValue_purse]
    rfl
  have hchosen : frugal.InRange 1800 [coin 900, coin 800, coin 700] := .inl (by decide)
  have hcandidates : frugal.InRange 2100 purse := .inl (by decide)
  have hshort : Unspent.worth purse < 2100 + frugal.exactFee 4 := by decide
  have hfunded := ((select_solvent frugal purse 1800 (by decide)).1 _ hselect).2 hchosen
  have hrefused := ((select_solvent frugal purse 2100 (by decide)).2 hshort).2 hcandidates
  exact ⟨⟨by decide, hselect, hchosen, hfunded.2⟩, by decide, hshort, hcandidates, hrefused⟩

/-- A single output of the greatest amount. -/
def brimful : List Unspent :=
  [coin 0xffffffffffffffff]

/-- The output is chosen for a payment of all that it holds, and nothing is left for the fee. -/
theorem select_brimful :
    frugal.select brimful 0xffffffffffffffff = .ok ⟨brimful, 226⟩ ∧
      Unspent.worth brimful < (0xffffffffffffffff : UInt64).toNat + frugal.exactFee 1 ∧
      ¬ (0xffffffffffffffff : UInt64).toNat + (226 : UInt64).toNat ≤ Unspent.worth brimful := by
  have hordered : byValue brimful = brimful := by
    rw [byValue, brimful, List.mergeSort_singleton]
  refine ⟨?_, by decide, by decide⟩
  rw [select, hordered]
  rfl

end Selector

end CashWallet
