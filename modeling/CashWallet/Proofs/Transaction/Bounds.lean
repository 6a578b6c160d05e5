import CashWallet.Proofs.Transaction.Commitment
import CashWallet.Proofs.Transaction.Layout
import CashWallet.Proofs.Transaction.Metered
import Mathlib.Algebra.Order.BigOperators.Group.List

/-!
# Reading is bounded by the bytes

However many items some bytes declare, no more of them are begun than the bytes can hold, and one.
The room that is reserved for a list is never too small, and a count that the unread bytes cannot
hold is an error.
-/

namespace CashWallet

open CompactSize (Form)

/-! ## The fewest bytes -/

theorem CompactSize.Form.one_le_length (f : Form) : 1 ≤ f.bytes.length := by
  cases f <;> exact Nat.le_add_left 1 _

theorem Counted.le_length_script (c : Counted UInt8) : 1 + c.items.length ≤ c.script.length := by
  rw [Counted.script_eq, List.length_append]
  exact Nat.add_le_add_right c.count.one_le_length _

theorem InputLayout.least_le (l : InputLayout) :
    Transaction.Part.inputs.least ≤ l.bytes.length := by
  have hscript := l.script.le_length_script
  simp only [bytes, List.length_append, Outpoint.length_encode, Endian.length_toLittle,
    Transaction.Part.least]
  omega

theorem OutputLayout.least_le (l : OutputLayout) :
    Transaction.Part.outputs.least ≤ l.bytes.length := by
  have hscript := l.script.le_length_script
  simp only [bytes, List.length_append, Endian.length_toLittle, Transaction.Part.least]
  omega

/-- Items that are no shorter than a length take as many times that length. -/
theorem mul_least_le {κ : Type} {least : Nat} {bytes : κ → Bytes}
    (h : ∀ l, least ≤ (bytes l).length) (ls : List κ) :
    ls.length * least ≤ (ls.flatMap bytes).length := by
  have hlengths : ∀ n ∈ ls.map fun l => (bytes l).length, least ≤ n :=
    List.forall_mem_map.2 fun l _ => h l
  have hsum := List.card_nsmul_le_sum _ least hlengths
  rwa [List.length_map, nsmul_eq_mul, Nat.cast_id, ← List.length_flatMap] at hsum

theorem Counted.le_length_bytes {κ : Type} {least : Nat} {bytes : κ → Bytes}
    (h : ∀ l, least ≤ (bytes l).length) (c : Counted κ) :
    1 + c.items.length * least ≤ (c.bytes bytes).length := by
  rw [Counted.bytes, List.length_append]
  exact Nat.add_le_add c.count.one_le_length (mul_least_le h c.items)

theorem TransactionLayout.le_length (l : TransactionLayout) :
    10 + 41 * l.transaction.inputs.length + 9 * l.transaction.outputs.length ≤ l.bytes.length := by
  have hinputs := Counted.le_length_bytes InputLayout.least_le l.inputs
  have houtputs := Counted.le_length_bytes OutputLayout.least_le l.outputs
  simp only [Transaction.Part.least] at hinputs houtputs
  simp only [bytes, transaction, List.length_append, Endian.length_toLittle, List.length_map]
  omega

/-! ## Runs -/

namespace Transaction

open Walk

variable {bs : Bytes}

def lengthOf (tx : Transaction) : Part → Nat
  | .inputs => tx.inputs.length
  | .outputs => tx.outputs.length

theorem sound_walk (hfits : bs.length < UInt64.size) :
    Ends (Meter.Sound bs fun _ => 0) walk (fun tx => Meter.Sound bs tx.lengthOf)
      (fun m => ∃ done, m.Sound bs done) := by
  apply (sound_untallied hfits (follows_u32.mapFault _)).bind
  intro version
  apply (sound_untallied hfits (follows_compactSize.mapFault _)).bind
  intro inputCount
  apply (sound_counted hfits Input.follows_walk Input.spans_read InputLayout.least_le _).bind
  intro inputs
  apply (sound_untallied hfits (follows_compactSize.mapFault _)).bind
  intro outputCount
  apply (sound_counted hfits Output.follows_walk Output.spans_read OutputLayout.least_le _).bind
  intro outputs
  apply (sound_untallied hfits (follows_u32.mapFault _)).bind
  intro lockTime
  apply ends_pure
  intro m hm
  have hdone : lengthOf ⟨version, inputs, outputs, lockTime⟩ =
      Function.update (Function.update (fun _ => 0) .inputs inputs.length) .outputs
        outputs.length := by
    funext part
    cases part <;> rfl
  rwa [hdone]

theorem sound_walkWhole (hfits : bs.length < UInt64.size) :
    Ends (Meter.Sound bs fun _ => 0) walkWhole (fun tx => Meter.Sound bs tx.lengthOf)
      (fun m => ∃ done, m.Sound bs done) := by
  apply (sound_walk hfits).bind
  intro tx
  apply sound_remaining.bind
  intro unread
  split
  · exact ends_pure fun _ hm => hm
  · exact ends_throw fun _ hm => ⟨tx.lengthOf, hm⟩

theorem sound_metered (hfits : bs.length < UInt64.size) :
    (∃ done, (metered bs).2.Sound bs done) ∧
      ∀ tx, (metered bs).1 = .ok tx → (metered bs).2.Sound bs tx.lengthOf := by
  have hends := sound_walkWhole hfits
  have hstart := Meter.sound_start bs
  rw [metered]
  cases hrun : Walk.run walkWhole (.start bs) with
  | mk result m =>
      cases result with
      | ok tx =>
          have hm := hends.ok _ tx m hstart hrun
          refine ⟨⟨_, hm⟩, ?_⟩
          intro tx' htx
          cases htx
          exact hm
      | error e =>
          refine ⟨hends.error _ e m hstart hrun, ?_⟩
          intro tx htx
          cases htx

end Transaction

/-! ## Declared counts -/

/-- Layouts in a row, behind the first of them. -/
theorem Delimits.split {κ : Type} {bytes : κ → Bytes} (h : Delimits bytes) {ls done : List κ}
    {s s' : Bytes} (hmore : done.length < ls.length)
    (heq : ls.flatMap bytes ++ s = done.flatMap bytes ++ s') :
    ∃ next more, ls = done ++ next :: more ∧ s' = bytes next ++ (more.flatMap bytes ++ s) := by
  have hlength : (ls.take done.length).length = done.length := by
    rw [List.length_take]
    omega
  obtain ⟨next, more, hdrop⟩ : ∃ next more, ls.drop done.length = next :: more := by
    cases hdrop : ls.drop done.length with
    | nil => exact absurd (List.drop_eq_nil_iff.1 hdrop) (by omega)
    | cons next more => exact ⟨next, more, rfl⟩
  rw [← List.take_append_drop done.length ls, hdrop, List.flatMap_append, List.append_assoc] at heq
  obtain ⟨hdone, hrest⟩ := h.flatMap hlength heq
  refine ⟨next, more, ?_, ?_⟩
  · rw [← hdrop, ← hdone, List.length_take_of_le (by omega), List.take_append_drop]
  · rw [← hrest, List.flatMap_cons, List.append_assoc]

namespace Transaction

/-- In front of the last of some bytes stands a count that a transaction would have there, of items
or of the bytes of a script. Each of what it counts takes at least so many of the last bytes. -/
inductive Declares : Bytes → Nat → UInt64 → Bytes → Prop
  | inputs (version : UInt32) (count : Form) (unread : Bytes) :
      Declares (Endian.toLittle 4 version.toNat ++ count.bytes ++ unread) 41 count.value unread
  | inputScript (version : UInt32) (count : Form) (done : List InputLayout)
      (more : done.length < count.value.toNat) (outpoint : Outpoint) (script : Form)
      (unread : Bytes) :
      Declares (Endian.toLittle 4 version.toNat ++ count.bytes ++ done.flatMap InputLayout.bytes ++
        outpoint.encode ++ script.bytes ++ unread) 1 script.value unread
  | outputs (version : UInt32) (inputs : Counted InputLayout) (count : Form) (unread : Bytes) :
      Declares (Endian.toLittle 4 version.toNat ++ inputs.bytes InputLayout.bytes ++ count.bytes ++
        unread) 9 count.value unread
  | outputScript (version : UInt32) (inputs : Counted InputLayout) (count : Form)
      (done : List OutputLayout) (more : done.length < count.value.toNat) (value : UInt64)
      (script : Form) (unread : Bytes) :
      Declares (Endian.toLittle 4 version.toNat ++ inputs.bytes InputLayout.bytes ++ count.bytes ++
        done.flatMap OutputLayout.bytes ++ Endian.toLittle 8 value.toNat ++ script.bytes ++
        unread) 1 script.value unread

theorem Declares.least_pos {bs unread : Bytes} {least : Nat} {count : UInt64}
    (h : Declares bs least count unread) : 0 < least := by
  cases h <;> decide

end Transaction

theorem Counted.le_of_script {c : Counted UInt8} {count : Form} {s unread : Bytes}
    (h : c.script ++ s = count.bytes ++ unread) : count.value.toNat ≤ unread.length := by
  rw [Counted.script_eq, List.append_assoc] at h
  obtain ⟨rfl, rfl⟩ := delimits_form _ _ _ _ h
  rw [List.length_append, c.counted]
  exact Nat.le_add_right _ _

theorem Counted.le_of_items {κ : Type} {least : Nat} {bytes : κ → Bytes} {c : Counted κ}
    (hleast : ∀ l, least ≤ (bytes l).length) (s : Bytes) :
    c.count.value.toNat * least ≤ (c.items.flatMap bytes ++ s).length := by
  rw [← c.counted, List.length_append]
  exact Nat.le_trans (mul_least_le hleast c.items) (Nat.le_add_right _ _)

namespace TransactionLayout

variable {l : TransactionLayout} {version : UInt32} {count : Form} {s : Bytes}

theorem inputs_of_bytes (h : l.bytes = Endian.toLittle 4 version.toNat ++ (count.bytes ++ s)) :
    l.inputs.count = count ∧ ∃ t, l.inputs.items.flatMap InputLayout.bytes ++ t = s := by
  simp only [bytes, Counted.bytes, List.append_assoc] at h
  obtain ⟨-, hinputs⟩ := (Read.takes_u32 l.version).selfDelimiting (Read.takes_u32 version) h
  obtain ⟨hcount, hitems⟩ := delimits_form _ _ _ _ hinputs
  exact ⟨hcount, _, hitems⟩

theorem outputs_of_bytes {inputs : Counted InputLayout}
    (h : l.bytes = Endian.toLittle 4 version.toNat ++ (inputs.bytes InputLayout.bytes ++
      (count.bytes ++ s))) :
    l.outputs.count = count ∧ ∃ t, l.outputs.items.flatMap OutputLayout.bytes ++ t = s := by
  simp only [bytes, List.append_assoc] at h
  obtain ⟨-, hinputs⟩ := (Read.takes_u32 l.version).selfDelimiting (Read.takes_u32 version) h
  obtain ⟨-, houtputs⟩ := InputLayout.delimits.counted _ _ _ _ hinputs
  rw [Counted.bytes, List.append_assoc] at houtputs
  obtain ⟨hcount, hitems⟩ := delimits_form _ _ _ _ houtputs
  exact ⟨hcount, _, hitems⟩

/-- In a transaction the unread bytes hold what is declared. -/
theorem declared_le {unread : Bytes} {least : Nat} {declared : UInt64}
    (h : Transaction.Declares l.bytes least declared unread) :
    declared.toNat * least ≤ unread.length := by
  generalize hbytes : l.bytes = bs at h
  cases h with
  | inputs version count unread =>
      rw [List.append_assoc] at hbytes
      obtain ⟨rfl, t, rfl⟩ := inputs_of_bytes hbytes
      exact Counted.le_of_items InputLayout.least_le t
  | inputScript version count done more outpoint script unread =>
      simp only [List.append_assoc] at hbytes
      obtain ⟨rfl, t, hitems⟩ := inputs_of_bytes hbytes
      rw [← l.inputs.counted] at more
      obtain ⟨next, _, -, hnext⟩ := InputLayout.delimits.split more hitems
      simp only [InputLayout.bytes, List.append_assoc] at hnext
      obtain ⟨-, hscript⟩ := outpoint.takes_encode.selfDelimiting next.outpoint.takes_encode hnext
      rw [Nat.mul_one]
      exact Counted.le_of_script hscript.symm
  | outputs version inputs count unread =>
      simp only [List.append_assoc] at hbytes
      obtain ⟨rfl, t, rfl⟩ := outputs_of_bytes hbytes
      exact Counted.le_of_items OutputLayout.least_le t
  | outputScript version inputs count done more value script unread =>
      simp only [List.append_assoc] at hbytes
      obtain ⟨rfl, t, hitems⟩ := outputs_of_bytes hbytes
      rw [← l.outputs.counted] at more
      obtain ⟨next, _, -, hnext⟩ := OutputLayout.delimits.split more hitems
      simp only [OutputLayout.bytes, List.append_assoc] at hnext
      obtain ⟨-, hscript⟩ :=
        (Read.takes_u64 value).selfDelimiting (Read.takes_u64 next.value) hnext
      rw [Nat.mul_one]
      exact Counted.le_of_script hscript.symm

end TransactionLayout

namespace Transaction

/-- Reading is bounded by the bytes, whatever counts they declare. It leaves the numbers of 64 bits
nowhere and no slice leaves the bytes. It begins no more rounds of a list than the bytes can hold
items, and one; the items that are done have room. A count that the unread bytes cannot hold is an
error. What is read takes the fewest bytes of its items, and all of these have room. -/
theorem metered_bounded {bs : Bytes} (h : bs.length < UInt64.size) :
    (metered bs).1 = (ofBytes bs).mapError .fault ∧
      (∀ part, ((metered bs).2.tally part).begun ≤ bs.length / part.least + 1 ∧
        ((metered bs).2.tally part).done ≤ ((metered bs).2.tally part).room) ∧
      (∀ least count unread, Declares bs least count unread →
        unread.length / least < count.toNat → ∃ e, ofBytes bs = .error e) ∧
      ∀ tx, ofBytes bs = .ok tx →
        10 + 41 * tx.inputs.length + 9 * tx.outputs.length ≤ bs.length ∧
          ∀ part, ((metered bs).2.tally part).done = tx.lengthOf part ∧
            tx.lengthOf part ≤ ((metered bs).2.tally part).room := by
  have hresult := metered_fst h
  obtain ⟨⟨done, hsound⟩, haccepted⟩ := sound_metered h
  refine ⟨hresult, ?_, ?_, ?_⟩
  · intro part
    exact ⟨(hsound.fits part).begun_le, (hsound.fits part).done_le⟩
  · intro least count unread hdeclares hmany
    cases hread : ofBytes bs with
    | error e => exact ⟨e, rfl⟩
    | ok tx =>
        obtain ⟨l, -, rfl⟩ := ofBytes_eq_ok_iff.1 hread
        have hheld := TransactionLayout.declared_le hdeclares
        have hshort := (Nat.div_lt_iff_lt_mul hdeclares.least_pos).1 hmany
        exact absurd hheld (Nat.not_le_of_lt hshort)
  · intro tx hread
    obtain ⟨l, rfl, rfl⟩ := ofBytes_eq_ok_iff.1 hread
    refine ⟨l.le_length, ?_⟩
    intro part
    have hread' : (metered l.bytes).1 = .ok l.transaction := by
      rw [hresult, hread]
      rfl
    have hfull := haccepted _ hread'
    refine ⟨hfull.done_eq part, ?_⟩
    rw [← hfull.done_eq part]
    exact (hfull.fits part).done_le

/-- The greatest count of inputs in front of a few bytes, and a transaction with long counts. -/
theorem metered_bounded_greatest :
    let bs : Bytes := [1, 0, 0, 0] ++ (Form.nine 0xffffffffffffffff).bytes ++ [7, 8]
    bs.length < UInt64.size ∧ Declares bs 41 0xffffffffffffffff [7, 8] ∧
      (∃ e, ofBytes bs = .error e) ∧ (metered bs).2.tally .inputs = ⟨0, 1, 0⟩ ∧
      padded.bytes.length < UInt64.size ∧ ofBytes padded.bytes = .ok padded.transaction ∧
      (metered padded.bytes).2.tally .inputs = ⟨1, 1, 1⟩ ∧
      10 + 41 * 1 + 9 * 1 ≤ padded.bytes.length := by
  have hdeclares := Declares.inputs 1 (Form.nine 0xffffffffffffffff) [7, 8]
  have hread : ofBytes padded.bytes = .ok padded.transaction := by rfl
  have hgreatest : List.length (Endian.toLittle 4 1 ++ (Form.nine 0xffffffffffffffff).bytes ++
      [7, 8]) < UInt64.size := by decide
  have hpadded : padded.bytes.length < UInt64.size := by decide
  refine ⟨hgreatest, hdeclares, ?_, by rfl, hpadded, hread, by rfl, ?_⟩
  · exact (metered_bounded hgreatest).2.2.1 41 _ [7, 8] hdeclares (by decide)
  · exact ((metered_bounded hpadded).2.2.2 _ hread).1

end Transaction

end CashWallet
