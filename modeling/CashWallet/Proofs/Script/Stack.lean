import CashWallet.Proofs.Script.Grammar
import CashWallet.Script.Stack
import Mathlib.Data.FinEnum

/-!
# Items that are read off and items on the stack

What is read off a push-only script is what the script leaves on the stack, bottom to top, except
for the numbers that opcodes stand for: each of them is read as an empty item. A script is therefore
read right exactly if it has no such opcode, and scripts that leave different stacks may be read
alike as soon as one of them has.
-/

namespace CashWallet

open Results

/-- The opcodes that do nothing but push: zero, the direct pushes, the pushes with a counted length,
minus one, and one up to sixteen. -/
def Opcode.Pushes (op : UInt8) : Prop :=
  op = push0 ∨ (1 ≤ op ∧ op ≤ maxDirectPush) ∨ op ∈ [pushData1, pushData2, pushData4] ∨
    op = pushMinusOne ∨ (push1 ≤ op ∧ op ≤ push16)

instance (op : UInt8) : Decidable (Opcode.Pushes op) :=
  inferInstanceAs (Decidable (_ ∨ _))

namespace Chunk

variable {op : UInt8} {chunk : Chunk} {part item : Bytes} {chunks : List Chunk}
  {parts items : List Bytes}

/-! ## One chunk -/

/-- What is read off for a chunk that puts an item on the stack. -/
def shown (chunk : Chunk) (item : Bytes) : Bytes :=
  if chunk.isNumber then [] else item

/-- The reader of pushes classifies the opcodes alike. -/
theorem isPushOnly_iff_pushes : ∀ op, Opcode.isPushOnly op = true ↔ Opcode.Pushes op := by
  decide +kernel

theorem number?_of_data : ∀ op : UInt8, 0x01 ≤ op ∧ op ≤ 0x4e → Opcode.number? op = none := by
  decide +kernel

theorem isSome_number?_of_pushes : ∀ op, Opcode.Pushes op → ¬ (0x01 ≤ op ∧ op ≤ 0x4e) →
    op ≠ Opcode.push0 → (Opcode.number? op).isSome = true := by
  decide +kernel

/-- A number is never an empty item. -/
theorem ne_nil_of_number? (h : Opcode.number? op = some item) : item ≠ [] := by
  unfold Opcode.number? at h
  split at h
  · cases h
    exact List.cons_ne_nil _ _
  · split at h
    · cases h
      exact List.cons_ne_nil _ _
    · cases h

/-- A chunk that does nothing but push puts an item on the stack. It is read off as it is, or as an
empty item if the opcode stands for a number. -/
structure Puts (chunk : Chunk) (item : Bytes) : Prop where
  puts : chunk.item? = some item
  read : Script.pushedBy chunk = .ok (chunk.shown item)
  shown_eq_iff : chunk.shown item = item ↔ ¬ chunk.isNumber = true

theorem puts_data {data : Bytes} (h : 0x01 ≤ op ∧ op ≤ 0x4e) (hpush : Opcode.Pushes op) :
    Puts ⟨op, some data⟩ data := by
  have hnumber : isNumber ⟨op, some data⟩ = false := by
    rw [isNumber, number?_of_data op h]
    rfl
  have hshown : shown ⟨op, some data⟩ data = data := by
    rw [shown, hnumber, if_neg (by decide)]
  refine ⟨rfl, ?_, ?_⟩
  · rw [Script.pushedBy, if_pos ((isPushOnly_iff_pushes op).2 hpush), hshown]
    rfl
  · rw [hshown, hnumber]
    exact iff_of_true rfl Bool.false_ne_true

theorem exists_puts_bare (h : ¬ (0x01 ≤ op ∧ op ≤ 0x4e)) (hpush : Opcode.Pushes op) :
    ∃ item, Puts ⟨op, none⟩ item := by
  have hread : Script.pushedBy ⟨op, none⟩ = .ok [] := by
    rw [Script.pushedBy, if_pos ((isPushOnly_iff_pushes op).2 hpush)]
    rfl
  by_cases hzero : op = Opcode.push0
  · subst hzero
    exact ⟨[], rfl, hread, by decide⟩
  · have hnumber := isSome_number?_of_pushes op hpush h hzero
    obtain ⟨item, hitem⟩ := Option.isSome_iff_exists.1 hnumber
    have hshown : shown ⟨op, none⟩ item = [] := if_pos hnumber
    refine ⟨item, ?_, ?_, ?_⟩
    · rw [item?, if_neg hzero, hitem]
    · rw [hread, hshown]
    · rw [hshown]
      exact ⟨fun heq => absurd heq.symm (ne_nil_of_number? hitem), fun hnot => absurd hnumber hnot⟩

/-- Each chunk of a script that has one of these opcodes puts an item on the stack. -/
theorem Element.exists_puts (h : Element chunk part) (hpush : Opcode.Pushes chunk.opcode) :
    ∃ item, chunk.Puts item := by
  cases h with
  | opcode op bare => exact exists_puts_bare bare hpush
  | direct op data short told =>
      refine ⟨data, puts_data ⟨?_, ?_⟩ hpush⟩
      · exact UInt8.le_iff_toNat_le.2 (told ▸ short.1)
      · exact UInt8.le_iff_toNat_le.2 (Nat.le_trans (told ▸ short.2) (by decide))
  | counted op width form digits data wide told =>
      refine ⟨data, puts_data ?_ hpush⟩
      simp only [List.mem_cons, Prod.mk.injEq, List.not_mem_nil, or_false] at form
      rcases form with ⟨rfl, rfl⟩ | ⟨rfl, rfl⟩ | ⟨rfl, rfl⟩ <;> exact ⟨by decide, by decide⟩

/-! ## A row of chunks -/

/-- Carried out one after the other, the chunks put their items on the stack. -/
theorem run?_eq_of_puts (h : List.Forall₂ Puts chunks items) (stack : Stack) :
    stack.run? chunks = some (items.reverse ++ stack) := by
  induction h generalizing stack with
  | nil => rfl
  | cons hchunk _ ih =>
      rw [Stack.run?, hchunk.puts, Option.bind_some, ih, List.reverse_cons, List.append_assoc]
      rfl

theorem mapM_pushedBy_of_puts (h : List.Forall₂ Puts chunks items) :
    chunks.mapM Script.pushedBy = .ok (List.zipWith shown chunks items) := by
  induction h with
  | nil => rfl
  | cons hchunk _ ih =>
      rw [List.mapM_cons, hchunk.read, ih]
      rfl

/-- The items are read off as they are exactly if none of them is a number of an opcode. -/
theorem zipWith_shown_eq_iff (h : List.Forall₂ Puts chunks items) :
    List.zipWith shown chunks items = items ↔ ∀ chunk ∈ chunks, ¬ chunk.isNumber = true := by
  induction h with
  | nil => simp
  | cons hchunk _ ih =>
      rw [List.zipWith_cons_cons, List.cons.injEq, List.forall_mem_cons, ih, hchunk.shown_eq_iff]

/-- The chunks of a script that does nothing but push each put an item on the stack. -/
theorem exists_puts (h : List.Forall₂ Element chunks parts)
    (hpush : ∀ chunk ∈ chunks, Opcode.Pushes chunk.opcode) :
    ∃ items, List.Forall₂ Puts chunks items := by
  induction h with
  | nil => exact ⟨[], .nil⟩
  | cons helement _ ih =>
      obtain ⟨hfirst, hrest⟩ := List.forall_mem_cons.1 hpush
      obtain ⟨item, hitem⟩ := helement.exists_puts hfirst
      obtain ⟨items, hitems⟩ := ih hrest
      exact ⟨item :: items, .cons hitem hitems⟩

end Chunk

namespace Script

variable {s s' : Script} {chunks chunks' : List Chunk}

/-- The script is cut into these chunks, and all of them push. -/
structure PushOnly (s : Script) (chunks : List Chunk) : Prop where
  cut : s.chunks = .ok chunks
  push : ∀ chunk ∈ chunks, Opcode.Pushes chunk.opcode

/-- The script pushes nothing but data: no chunk of it stands for a number. -/
structure DataOnly (s : Script) (chunks : List Chunk) : Prop extends PushOnly s chunks where
  data : ∀ chunk ∈ chunks, ¬ chunk.isNumber = true

theorem PushOnly.exists_items (h : PushOnly s chunks) :
    ∃ items, List.Forall₂ Chunk.Puts chunks items ∧ s.execute? = some items.reverse ∧
      s.pushes = .ok (List.zipWith Chunk.shown chunks items) := by
  obtain ⟨items, hitems⟩ := Chunk.exists_puts (Chunk.elements_of_decodeAll h.cut) h.push
  refine ⟨items, hitems, ?_, ?_⟩
  · rw [execute?, h.cut]
    exact (Chunk.run?_eq_of_puts hitems []).trans (by rw [List.append_nil])
  · rw [pushes, h.cut]
    exact Chunk.mapM_pushedBy_of_puts hitems

theorem DataOnly.exists_stack (h : DataOnly s chunks) :
    ∃ stack, s.execute? = some stack ∧ s.pushes = .ok stack.reverse := by
  obtain ⟨items, hitems, hexecute, hread⟩ := h.toPushOnly.exists_items
  refine ⟨items.reverse, hexecute, ?_⟩
  rw [hread, (Chunk.zipWith_shown_eq_iff hitems).2 h.data, List.reverse_reverse]

/-- Scripts of data that leave different stacks are read differently. -/
theorem DataOnly.pushes_ne (h : DataOnly s chunks) (h' : DataOnly s' chunks')
    (hne : s.execute? ≠ s'.execute?) : s.pushes ≠ s'.pushes := by
  obtain ⟨stack, hexecute, hread⟩ := h.exists_stack
  obtain ⟨stack', hexecute', hread'⟩ := h'.exists_stack
  rw [hexecute, hexecute', Ne, Option.some_inj] at hne
  rw [hread, hread', Ne, Except.ok.injEq, List.reverse_inj]
  exact hne

/-- A script that does nothing but push leaves one item for each of its chunks. They are read off
bottom to top, with an empty item for each number that an opcode stands for; without such opcodes
the list tells the stack, so that scripts which leave different stacks are read differently. -/
theorem pushes_executed (s : Script) (chunks : List Chunk) (h : PushOnly s chunks) :
    ∃ stack, s.execute? = some stack ∧ stack.length = chunks.length ∧
      s.pushes = .ok (List.zipWith Chunk.shown chunks stack.reverse) ∧
      (s.pushes = .ok stack.reverse ↔ DataOnly s chunks) ∧
      (DataOnly s chunks → ∀ s' chunks', DataOnly s' chunks' → s.execute? ≠ s'.execute? →
        s.pushes ≠ s'.pushes) := by
  obtain ⟨items, hitems, hexecute, hread⟩ := h.exists_items
  refine ⟨items.reverse, hexecute, ?_, ?_, ?_, ?_⟩
  · rw [List.length_reverse, hitems.length_eq]
  · rw [hread, List.reverse_reverse]
  · rw [hread, List.reverse_reverse, Except.ok.injEq, Chunk.zipWith_shown_eq_iff hitems]
    exact ⟨fun hdata => ⟨h, hdata⟩, fun hdata => hdata.data⟩
  · intro hdata s' chunks' hdata' hne
    exact hdata.pushes_ne hdata' hne

/-- An empty item, two bytes, the numbers one and minus one, and a byte behind a counted length. -/
def mixed : Script := ⟨[0x00, 0x02, 7, 8, 0x51, 0x4f, 0x4c, 1, 9]⟩

def mixedChunks : List Chunk :=
  [⟨0x00, none⟩, ⟨0x02, some [7, 8]⟩, ⟨0x51, none⟩, ⟨0x4f, none⟩, ⟨0x4c, some [9]⟩]

theorem mixed_pushOnly : PushOnly mixed mixedChunks where
  cut := by cbv
  push := by decide

/-- A push of one byte. -/
theorem dataOnly_single (b : UInt8) : DataOnly ⟨[0x01, b]⟩ [⟨0x01, some [b]⟩] := by
  have hshort : 1 ≤ [b].length ∧ [b].length ≤ 75 := by simp
  have hpush : Opcode.Pushes 0x01 := by decide
  have hdata : Opcode.number? 0x01 = none := by decide
  refine ⟨⟨?_, ?_⟩, ?_⟩
  · exact Chunk.decodeAll_of_elements (.cons (.direct 0x01 [b] hshort rfl) .nil)
  · exact List.forall_mem_singleton.2 hpush
  · rw [List.forall_mem_singleton, Chunk.isNumber, hdata]
    exact Bool.false_ne_true

/-- The two numbers are read as empty items, so that the list does not tell the stack; scripts that
push a byte each are told apart. -/
theorem pushes_executed_mixed :
    (∃ stack, mixed.execute? = some stack ∧ stack.length = mixedChunks.length ∧
      mixed.pushes = .ok (List.zipWith Chunk.shown mixedChunks stack.reverse) ∧
      stack = [[9], [0x81], [1], [7, 8], []] ∧
      List.zipWith Chunk.shown mixedChunks stack.reverse = [[], [7, 8], [], [], [9]] ∧
      ¬ DataOnly mixed mixedChunks) ∧
    (Script.mk [0x01, 7]).execute? ≠ (Script.mk [0x01, 8]).execute? ∧
    (Script.mk [0x01, 7]).pushes ≠ (Script.mk [0x01, 8]).pushes := by
  constructor
  · obtain ⟨stack, hexecute, hlength, hread, hexact, -⟩ :=
      pushes_executed mixed mixedChunks mixed_pushOnly
    have hstack : mixed.execute? = some [[9], [0x81], [1], [7, 8], []] := by cbv
    cases hexecute.symm.trans hstack
    have hinexact : mixed.pushes ≠ .ok [[], [7, 8], [1], [0x81], [9]] := by
      rw [hread]
      decide
    exact ⟨_, hexecute, hlength, hread, rfl, by decide, fun hdata => hinexact (hexact.2 hdata)⟩
  · have hne : (Script.mk [0x01, 7]).execute? ≠ (Script.mk [0x01, 8]).execute? := by
      have h7 : (Script.mk [0x01, 7]).execute? = some [[7]] := by cbv
      have h8 : (Script.mk [0x01, 8]).execute? = some [[8]] := by cbv
      rw [h7, h8]
      decide
    obtain ⟨_, -, -, -, -, hapart⟩ := pushes_executed _ _ (dataOnly_single 7).toPushOnly
    exact ⟨hne, hapart (dataOnly_single 7) _ _ (dataOnly_single 8) hne⟩

/-- The numbers one and two are left on the stack, and both scripts are read as an empty item. -/
theorem pushes_numbers :
    PushOnly ⟨[0x51]⟩ [⟨0x51, none⟩] ∧ (Script.mk [0x51]).execute? = some [[1]] ∧
    PushOnly ⟨[0x52]⟩ [⟨0x52, none⟩] ∧ (Script.mk [0x52]).execute? = some [[2]] ∧
    (Script.mk [0x51]).pushes ≠ .ok [[1]] ∧ (Script.mk [0x51]).pushes = .ok [[]] ∧
    (Script.mk [0x52]).pushes = (Script.mk [0x51]).pushes := by
  have hcut : ∀ op, ¬ (0x01 ≤ op ∧ op ≤ 0x4e) → (Script.mk [op]).chunks = .ok [⟨op, none⟩] :=
    fun op bare => Chunk.decodeAll_of_elements (.cons (.opcode op bare) .nil)
  have hone : (Script.mk [0x51]).pushes = .ok [[]] := by cbv
  have htwo : (Script.mk [0x52]).pushes = .ok [[]] := by cbv
  refine ⟨⟨hcut 0x51 (by decide), by decide⟩, by cbv, ⟨hcut 0x52 (by decide), by decide⟩, by cbv,
    ?_, hone, htwo.trans hone.symm⟩
  rw [hone]
  decide

end Script

end CashWallet
