import CashWallet.Ledger.Normalize
import CashWallet.Proofs.Number.Saturating
import Mathlib.Algebra.BigOperators.Group.List.Basic
import Mathlib.Data.List.Forall2

/-!
# How an address sees a transaction

The inputs decide whether an address sees a transaction as outgoing; then the outputs are parted
into those that pay the address and those that do not, and one of the two parts is the value.
Nothing is lost between the parts. Neither the order of inputs and outputs nor the way in which each
lists its addresses makes a difference, and where a sender or a recipient is looked for, inputs and
outputs without addresses are passed over.
-/

namespace CashWallet

/-! ## Lists up to their order -/

/-- The same entries in any order, up to a relation between the entries. -/
def Reordered {α : Type} (R : α → α → Prop) (l l' : List α) : Prop :=
  ∃ middle, l.Perm middle ∧ List.Forall₂ R middle l'

/-- What the relation leaves as it is stays as it is, up to the order. -/
theorem Reordered.map_perm {α β : Type} {R : α → α → Prop} {l l' : List α} (h : Reordered R l l')
    {f : α → β} (hf : ∀ a b, R a b → f a = f b) : (l.map f).Perm (l'.map f) := by
  obtain ⟨middle, hperm, hall⟩ := h
  have hmap : middle.map f = l'.map f := by
    rw [← List.forall₂_eq_eq_eq, List.forall₂_map_left_iff, List.forall₂_map_right_iff]
    exact hall.imp hf
  rw [← hmap]
  exact hperm.map f

namespace LedgerOutput

variable {outputs outputs' : List LedgerOutput}

/-- All that outputs hold, in exact numbers. -/
def total (outputs : List LedgerOutput) : Nat :=
  (outputs.map fun o => o.value.toNat).sum

/-- The outputs that pay an address, be it alone or among others. -/
def payingTo (address : String) (outputs : List LedgerOutput) : List LedgerOutput :=
  outputs.filter fun o => address ∈ o.addresses

/-- The outputs that do not pay an address. -/
def payingOthers (address : String) (outputs : List LedgerOutput) : List LedgerOutput :=
  outputs.filter fun o => address ∉ o.addresses

theorem total_payingTo_add_payingOthers (address : String) (outputs : List LedgerOutput) :
    total (payingTo address outputs) + total (payingOthers address outputs) = total outputs :=
  List.sum_map_filter_add_sum_map_filter_not (fun o : LedgerOutput => address ∈ o.addresses)
    (fun o => o.value.toNat) outputs

/-- The same addresses, in any order and each of them any number of times. -/
def SameSet (set set' : List String) : Prop :=
  ∀ address, address ∈ set ↔ address ∈ set'

/-- The same value for the same addresses. -/
structure SamePayment (o o' : LedgerOutput) : Prop where
  value : o.value = o'.value
  addresses : SameSet o.addresses o'.addresses

section Reordered

variable (h : Reordered SamePayment outputs outputs')

include h

theorem total_reordered : total outputs = total outputs' :=
  (h.map_perm fun _ _ hsame => congrArg UInt64.toNat hsame.value).sum_eq

theorem total_payingTo_reordered (address : String) :
    total (payingTo address outputs) = total (payingTo address outputs') := by
  have hpart (os : List LedgerOutput) : total (payingTo address os) =
      (os.map fun o => if address ∈ o.addresses then o.value.toNat else 0).sum := by
    rw [List.sum_map_ite]
    simp [total, payingTo]
  rw [hpart, hpart]
  apply (h.map_perm ?_).sum_eq
  intro o o' hsame
  rw [hsame.value]
  simp only [hsame.addresses address]

theorem total_payingOthers_reordered (address : String) :
    total (payingOthers address outputs) = total (payingOthers address outputs') := by
  have hall := total_reordered h
  have hpart := total_payingTo_reordered h address
  have hsplit := total_payingTo_add_payingOthers address outputs
  have hsplit' := total_payingTo_add_payingOthers address outputs'
  omega

end Reordered

/-- The outputs that make the value of a transaction of some direction. -/
def counted : Direction → String → List LedgerOutput → List LedgerOutput
  | .incoming => payingTo
  | .outgoing => payingOthers

/-- The other outputs. -/
def uncounted : Direction → String → List LedgerOutput → List LedgerOutput
  | .incoming => payingOthers
  | .outgoing => payingTo

theorem total_counted_add_uncounted (direction : Direction) (address : String)
    (outputs : List LedgerOutput) :
    total (counted direction address outputs) + total (uncounted direction address outputs) =
      total outputs := by
  have hsplit := total_payingTo_add_payingOthers address outputs
  cases direction with
  | incoming => exact hsplit
  | outgoing => exact (Nat.add_comm _ _).trans hsplit

theorem filter_counts (direction : Direction) (address : String) (outputs : List LedgerOutput) :
    outputs.filter (LedgerTransaction.counts direction address) =
      counted direction address outputs := by
  cases direction with
  | incoming => exact List.filter_congr fun o _ => by simp [LedgerTransaction.counts]
  | outgoing => exact List.filter_congr fun o _ => by simp [LedgerTransaction.counts]

theorem total_counted_reordered (h : Reordered SamePayment outputs outputs') (direction : Direction)
    (address : String) :
    total (counted direction address outputs) = total (counted direction address outputs') := by
  cases direction with
  | incoming => exact total_payingTo_reordered h address
  | outgoing => exact total_payingOthers_reordered h address

end LedgerOutput

namespace LedgerTransaction

open LedgerOutput

variable {tx tx' : LedgerTransaction} {address : String}

/-! ## Direction and value -/

theorem direction_eq_outgoing_iff :
    tx.direction address = .outgoing ↔ ∃ set ∈ tx.inputs, address ∈ set := by
  have hany : tx.inputs.any (·.contains address) = true ↔ ∃ set ∈ tx.inputs, address ∈ set := by
    simp
  rw [← hany, direction]
  cases tx.inputs.any (·.contains address) <;> simp

/-- The value of a transaction is what the counted outputs hold, clamped once. -/
theorem toNat_value_classify (tx : LedgerTransaction) (address : String) :
    (tx.classify address).value.toNat =
      min (total (counted (tx.direction address) address tx.outputs)) maxAmount := by
  rw [classify, toNat_satSum, filter_counts, List.map_map]
  rfl

/-- An entry shows a transaction as an address sees it: it is outgoing if an input is of the
address, its value is what the outputs on the one side hold, clamped once, and with the other side
it makes up all outputs. -/
structure Shows (tx : LedgerTransaction) (address : String) (entry : HistoryEntry) : Prop where
  direction : entry.direction = .outgoing ↔ ∃ set ∈ tx.inputs, address ∈ set
  value : entry.value.toNat = min (total (counted entry.direction address tx.outputs)) maxAmount
  bounded : entry.value.toNat ≤ total tx.outputs
  conserved : total tx.outputs < UInt64.size →
    entry.value.toNat + total (uncounted entry.direction address tx.outputs) = total tx.outputs

theorem shows_classify (tx : LedgerTransaction) (address : String) :
    tx.Shows address (tx.classify address) := by
  have hvalue := toNat_value_classify tx address
  have hsplit := total_counted_add_uncounted (tx.direction address) address tx.outputs
  refine ⟨direction_eq_outgoing_iff, hvalue, ?_, ?_⟩
  · omega
  · intro hrange
    have hsize : UInt64.size = maxAmount + 1 := rfl
    change _ + total (uncounted (tx.direction address) address tx.outputs) = _
    omega

/-! ## What makes no difference -/

/-- The same inputs and outputs in any order, each with the same addresses and each output with the
same value. -/
structure Regroups (tx tx' : LedgerTransaction) : Prop where
  inputs : Reordered SameSet tx.inputs tx'.inputs
  outputs : Reordered SamePayment tx.outputs tx'.outputs

theorem Regroups.direction_eq (h : Regroups tx tx') (address : String) :
    tx.direction address = tx'.direction address := by
  have hsets := h.inputs.map_perm (f := (address ∈ ·)) fun _ _ hsame => propext (hsame address)
  have hinputs : (∃ set ∈ tx.inputs, address ∈ set) ↔ ∃ set ∈ tx'.inputs, address ∈ set := by
    simpa using hsets.mem_iff (a := True)
  rw [← direction_eq_outgoing_iff, ← direction_eq_outgoing_iff] at hinputs
  cases hdirection : tx.direction address <;> cases hdirection' : tx'.direction address <;>
    simp_all

theorem Regroups.value_eq (h : Regroups tx tx') (address : String) :
    (tx.classify address).value = (tx'.classify address).value := by
  apply UInt64.toNat_inj.1
  rw [toNat_value_classify, toNat_value_classify, h.direction_eq address,
    total_counted_reordered h.outputs]

/-- A set without addresses is passed over. -/
theorem lastFirst_passOver (before after : List (List String)) :
    lastFirst (before ++ [] :: after) = lastFirst (before ++ after) := by
  simp [lastFirst, List.findSome?_append, List.findSome?_cons]

/-- The same sender and the same recipient. -/
def SameParties (entry entry' : HistoryEntry) : Prop :=
  entry.sender = entry'.sender ∧ entry.recipient = entry'.recipient

/-- What an address sees: a transaction is outgoing if an input is of the address, else incoming;
its value is what the outputs to others hold, or those to the address, and no more than all outputs
hold; value and rest make up the whole wherever this is in range. In another order, or with the
addresses of a set listed otherwise, direction and value are the same. An input or an output without
addresses, wherever it is put in, leaves sender and recipient alone. -/
theorem classify_conserves (tx : LedgerTransaction) (address : String) :
    tx.Shows address (tx.classify address) ∧
    (∀ tx', Regroups tx tx' →
      (tx.classify address).direction = (tx'.classify address).direction ∧
        (tx.classify address).value = (tx'.classify address).value) ∧
    (∀ before after, tx.inputs = before ++ after →
      SameParties (tx.classify address)
        (classify { tx with inputs := before ++ [] :: after } address)) ∧
    (∀ before after value, tx.outputs = before ++ after →
      SameParties (tx.classify address)
        (classify { tx with outputs := before ++ ⟨[], value⟩ :: after } address)) := by
  refine ⟨shows_classify tx address, ?_, ?_, ?_⟩
  · intro tx' h
    exact ⟨h.direction_eq address, h.value_eq address⟩
  · intro before after hinputs
    refine ⟨?_, rfl⟩
    change lastFirst tx.inputs = lastFirst (before ++ [] :: after)
    rw [hinputs, lastFirst_passOver]
  · intro before after value houtputs
    refine ⟨rfl, ?_⟩
    change lastFirst (tx.outputs.map LedgerOutput.addresses) =
      lastFirst ((before ++ ⟨[], value⟩ :: after).map LedgerOutput.addresses)
    rw [houtputs, List.map_append, List.map_append, List.map_cons, lastFirst_passOver]

/-- Two spend together, and pay one of them and another. -/
def joint : LedgerTransaction where
  hash := "h"
  timestamp := "t"
  confirmations := 1
  inputs := [["b"], ["a", "c"]]
  outputs := [⟨["a", "c"], 5⟩, ⟨["d"], 7⟩]

/-- The same, told the other way round and with addresses repeated. -/
def retold : LedgerTransaction where
  hash := "h"
  timestamp := "t"
  confirmations := 1
  inputs := [["c", "a", "a"], ["b"]]
  outputs := [⟨["d", "d"], 7⟩, ⟨["c", "a"], 5⟩]

theorem regroups_joint : Regroups joint retold where
  inputs := by
    refine ⟨[["a", "c"], ["b"]], .swap _ _ _, .cons ?_ (.cons (fun _ => Iff.rfl) .nil)⟩
    intro address
    simp [or_comm]
  outputs := by
    refine ⟨[⟨["d"], 7⟩, ⟨["a", "c"], 5⟩], .swap _ _ _, .cons ⟨rfl, ?_⟩ (.cons ⟨rfl, ?_⟩ .nil)⟩
    · intro address
      simp
    · intro address
      simp [or_comm]

theorem classify_conserves_joint :
    (joint.Shows "a" (joint.classify "a") ∧ total joint.outputs < UInt64.size ∧
      (joint.classify "a").value.toNat +
        total (uncounted (joint.classify "a").direction "a" joint.outputs) = 12) ∧
    (Regroups joint retold ∧ (retold.classify "a").direction = .outgoing ∧
      (retold.classify "a").value = 7) ∧
    SameParties (joint.classify "a")
      (classify { joint with inputs := [["b"]] ++ [] :: [["a", "c"]] } "a") ∧
    SameParties (joint.classify "a")
      (classify { joint with outputs := joint.outputs ++ ⟨[], 9⟩ :: [] } "a") := by
  have hrange : total joint.outputs < UInt64.size := by decide
  obtain ⟨hshows, hregrouped, hinputs, houtputs⟩ := classify_conserves joint "a"
  obtain ⟨hdirection, hvalue⟩ := hregrouped retold regroups_joint
  refine ⟨⟨hshows, hrange, hshows.conserved hrange⟩, ⟨regroups_joint, ?_, ?_⟩, ?_, ?_⟩
  · rw [← hdirection]
    decide
  · rw [← hvalue]
    decide
  · exact hinputs [["b"]] [["a", "c"]] rfl
  · exact houtputs joint.outputs [] 9 (List.append_nil _).symm

end LedgerTransaction

end CashWallet
