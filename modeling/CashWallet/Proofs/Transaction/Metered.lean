import CashWallet.Proofs.Bytes.Cursor
import CashWallet.Proofs.Bytes.Layout
import CashWallet.Transaction.Metered

/-!
# The cost of reading a transaction

Reading in place with its tallies ends as reading off the front does. An item that is done has taken
the bytes of its layout, and reading stops at the first that is not. So the items of a list that are
done have used no more than the bytes behind its count, and one more round is begun at most.
-/

namespace CashWallet

open Walk (Follows Stays)

/-! ## Reading in place is reading -/

namespace Outpoint

theorem follows_walk : Follows id walk read := by
  apply ((Walk.follows_bytes 32).mapFault _).bind
  intro bs
  apply (Walk.follows_u32.mapFault _).bind
  intro index
  cases TxId.ofBytes bs with
  | ok txid => exact Walk.follows_pure _
  | error e => exact Walk.follows_fail _

end Outpoint

theorem Output.follows_walk : Follows id Output.walk Output.read :=
  (Walk.follows_u64.mapFault _).bind fun _ =>
    (Walk.follows_varBytes.mapFault _).bind fun _ => Walk.follows_pure _

theorem Input.follows_walk : Follows id Input.walk Input.read :=
  Outpoint.follows_walk.bind fun _ =>
    (Walk.follows_varBytes.mapFault _).bind fun _ =>
      (Walk.follows_u32.mapFault _).bind fun _ => Walk.follows_pure _

namespace Walk

open Transaction (Meter Part Tally untallied round rounds counted)

variable {ε α : Type} {w item : Walk Cursor ε α} {r : Read ε α}

theorem follows_untallied (h : Follows id w r) : Follows Meter.cursor (untallied w) r :=
  fun m => h m.cursor

theorem stays_note (part : Part) (f : Tally → Tally) :
    Stays Meter.cursor (modify (·.note part f) : Walk Meter ε Unit) fun _ => () :=
  fun m _ _ _ => ⟨m.note part f, rfl, rfl⟩

theorem stays_untallied {value : Bytes → α} (h : Stays id w value) :
    Stays Meter.cursor (untallied w) value := by
  intro m before unread hm
  obtain ⟨c, hrun, hc⟩ := h m.cursor before unread hm
  exact ⟨{ m with cursor := c }, congrArg (fun s => (s.1, { m with cursor := s.2 })) hrun, hc⟩

theorem follows_round (h : Follows id item r) (part : Part) :
    Follows Meter.cursor (round part item) r := by
  -- the note behind the item is one more step, so the read is taken with one more too
  have hr : r >>= pure = r := by
    funext unread
    rw [Read.bind_run]
    cases r unread with
    | mk result rest => cases result <;> rfl
  rw [← hr]
  apply (stays_note part _).bind
  intro _
  apply (follows_untallied h).bind
  intro a
  exact (stays_note part _).bind fun _ => follows_pure a

theorem follows_rounds (h : Follows id item r) (part : Part) (n : Nat) :
    Follows Meter.cursor (rounds part item n) (r.times n) := by
  induction n with
  | zero => exact follows_pure []
  | succ n ih =>
      apply (follows_round h part).bind
      intro a
      exact ih.bind fun rest => follows_pure (a :: rest)

theorem follows_counted (h : Follows id item r) (part : Part) (count : UInt64) :
    Follows Meter.cursor (counted part item count) (r.times count.toNat) := by
  apply (stays_untallied stays_remaining).bind
  intro unread
  exact (stays_note part _).bind fun _ => follows_rounds h part count.toNat

end Walk

namespace Transaction

open Walk

variable {bs : Bytes}

theorem follows_walk : Follows Meter.cursor walk read := by
  apply (follows_untallied (follows_u32.mapFault _)).bind
  intro version
  apply (follows_untallied (follows_compactSize.mapFault _)).bind
  intro inputCount
  apply (follows_counted Input.follows_walk .inputs inputCount).bind
  intro inputs
  apply (follows_untallied (follows_compactSize.mapFault _)).bind
  intro outputCount
  apply (follows_counted Output.follows_walk .outputs outputCount).bind
  intro outputs
  apply (follows_untallied (follows_u32.mapFault _)).bind
  intro lockTime
  exact follows_pure _

/-- No sum, difference or slice leaves its range, and the result is that of reading off the
front. -/
theorem metered_fst (h : bs.length < UInt64.size) :
    (metered bs).1 = (ofBytes bs).mapError .fault := by
  obtain ⟨taken, hsplit, hresult, hcursor⟩ := follows_walk (.start bs) [] bs rfl h
  rw [metered, walkWhole, run_bind, ofBytes]
  cases hread : read bs with
  | mk result rest =>
      cases hrun : Walk.run walk (.start bs) with
      | mk result' m =>
          rw [hread] at hsplit hresult
          rw [hrun] at hresult hcursor
          dsimp only at hsplit hresult hcursor
          subst hresult
          cases result with
          | error e => rfl
          | ok tx =>
              obtain ⟨m', hleft, -⟩ :=
                stays_untallied (stays_remaining (ε := TransactionError)) m taken rest
                  (by rw [hcursor, ← hsplit]; rfl)
              dsimp only [Except.mapError]
              rw [run_bind, hleft]
              cases rest <;> rfl

end Transaction

/-! ## Conditions of walks -/

namespace Walk

variable {σ ε α β : Type} {P P' E E' : σ → Prop} {Q Q' : α → σ → Prop} {R : β → σ → Prop}

/-- From a state with `P`, a walk that succeeds ends in a state with `Q` of its result, and one that
stops does so in a state with `E`. -/
structure Ends (P : σ → Prop) (w : Walk σ ε α) (Q : α → σ → Prop) (E : σ → Prop) : Prop where
  ok : ∀ s a s', P s → run w s = (.ok a, s') → Q a s'
  error : ∀ s e s', P s → run w s = (.error e, s') → E s'

theorem ends_pure {a : α} (h : ∀ s, P s → Q a s) : Ends P (pure a : Walk σ ε α) Q E := by
  constructor
  · intro s _ _ hs hrun
    cases hrun
    exact h s hs
  · intro s _ _ _ hrun
    cases hrun

theorem ends_throw {e : Stop ε} (h : ∀ s, P s → E s) : Ends P (throw e : Walk σ ε α) Q E := by
  constructor
  · intro s _ _ _ hrun
    cases hrun
  · intro s _ _ hs hrun
    cases hrun
    exact h s hs

theorem ends_modify {f : σ → σ} {Q : Unit → σ → Prop} (h : ∀ s, P s → Q () (f s)) :
    Ends P (modify f : Walk σ ε Unit) Q E := by
  constructor
  · intro s _ _ hs hrun
    cases hrun
    exact h s hs
  · intro s _ _ _ hrun
    cases hrun

theorem Ends.bind {w : Walk σ ε α} {f : α → Walk σ ε β} (hw : Ends P w Q E)
    (hf : ∀ a, Ends (Q a) (f a) R E) : Ends P (w >>= f) R E := by
  constructor
  · intro s b s' hs hrun
    rw [run_bind] at hrun
    split at hrun
    · next a middle ha => exact (hf a).ok middle b s' (hw.ok s a middle hs ha) hrun
    · cases hrun
  · intro s e s' hs hrun
    rw [run_bind] at hrun
    split at hrun
    · next a middle ha => exact (hf a).error middle e s' (hw.ok s a middle hs ha) hrun
    · next fault middle hfault =>
        cases hrun
        exact hw.error s e s' hs hfault

theorem Ends.imp {w : Walk σ ε α} (h : Ends P w Q E) (hP : ∀ s, P' s → P s)
    (hQ : ∀ a s, Q a s → Q' a s) (hE : ∀ s, E s → E' s) : Ends P' w Q' E' where
  ok s a s' hs hrun := hQ a s' (h.ok s a s' (hP s hs) hrun)
  error s e s' hs hrun := hE s' (h.error s e s' (hP s hs) hrun)

end Walk

/-! ## Tallies -/

namespace Transaction

/-- No more items are done than there is room for, and no more rounds are begun than a number of
bytes can hold, and one. -/
structure Tally.Fits (part : Part) (size : Nat) (t : Tally) : Prop where
  done_le : t.done ≤ t.room
  begun_le : t.begun ≤ size / part.least + 1

theorem Part.least_pos (part : Part) : 0 < part.least := by
  cases part <;> decide

/-- Items that have used no more than was there. -/
theorem Tally.fits_of_used {part : Part} {size there count begun done : Nat}
    (hcount : done ≤ count) (hbegun : begun ≤ done + 1) (hused : done * part.least ≤ there)
    (hthere : there ≤ size) :
    Tally.Fits part size ⟨min count (there / part.least), begun, done⟩ where
  done_le := Nat.le_min.2 ⟨hcount, (Nat.le_div_iff_mul_le part.least_pos).2 hused⟩
  begun_le := by
    have hdone : done ≤ size / part.least :=
      (Nat.le_div_iff_mul_le part.least_pos).2 (Nat.le_trans hused hthere)
    exact Nat.le_trans hbegun (Nat.succ_le_succ hdone)

/-- The cursor stands in the bytes, the tallies are these, and the unread bytes with those that are
used are no more than there have been. -/
structure Meter.At (bs : Bytes) (there used : Nat) (tally : Part → Tally) (m : Meter) : Prop where
  left : ∃ before unread, before ++ unread = bs ∧ m.cursor = ⟨before ++ unread, before.length⟩ ∧
    used + unread.length ≤ there
  there_le : there ≤ bs.length
  tally_eq : m.tally = tally

namespace Meter.At

variable {bs : Bytes} {there used used' : Nat} {tally : Part → Tally} {m : Meter}

theorem used_le (h : m.At bs there used tally) : used ≤ there := by
  obtain ⟨before, unread, -, -, hleft⟩ := h.left
  omega

theorem mono (h : m.At bs there used tally) (hle : used' ≤ used) : m.At bs there used' tally := by
  obtain ⟨before, unread, hbytes, hcursor, hleft⟩ := h.left
  exact ⟨⟨before, unread, hbytes, hcursor, by omega⟩, h.there_le, h.tally_eq⟩

/-- The same where nothing is known but the bytes. -/
theorem anywhere (h : m.At bs there used tally) : m.At bs bs.length 0 tally := by
  obtain ⟨before, unread, hbytes, hcursor, hleft⟩ := h.left
  have hthere := h.there_le
  exact ⟨⟨before, unread, hbytes, hcursor, by omega⟩, Nat.le_refl _, h.tally_eq⟩

end Meter.At

/-- So many items of each list are done. -/
structure Meter.Sound (bs : Bytes) (done : Part → Nat) (m : Meter) : Prop where
  at_tally : m.At bs bs.length 0 m.tally
  fits : ∀ part, (m.tally part).Fits part bs.length
  done_eq : ∀ part, (m.tally part).done = done part

theorem Meter.sound_start (bs : Bytes) : (Meter.start bs).Sound bs fun _ => 0 where
  at_tally := ⟨⟨[], bs, rfl, rfl, Nat.le_of_eq (Nat.zero_add _)⟩, Nat.le_refl _, rfl⟩
  fits _ := ⟨Nat.le_refl _, Nat.zero_le _⟩
  done_eq _ := rfl

namespace Meter.Sound

variable {bs : Bytes} {done : Part → Nat} {m m' : Meter}

theorem same (h : m.Sound bs done) (hm' : m'.At bs bs.length 0 m.tally) : m'.Sound bs done := by
  have htally := hm'.tally_eq
  exact ⟨htally ▸ hm', htally ▸ h.fits, htally ▸ h.done_eq⟩

theorem update (h : m.Sound bs done) {part : Part} {x : Tally} (hx : x.Fits part bs.length)
    (hm' : m'.At bs bs.length 0 (Function.update m.tally part x)) :
    m'.Sound bs (Function.update done part x.done) := by
  have htally := hm'.tally_eq
  refine ⟨htally ▸ hm', ?_, ?_⟩
  · rw [htally]
    apply (Function.forall_update_iff m.tally fun other t => t.Fits other bs.length).2
    exact ⟨hx, fun other _ => h.fits other⟩
  · rw [htally]
    apply (Function.forall_update_iff m.tally
      fun other t => t.done = Function.update done part x.done other).2
    refine ⟨(@Function.update_self _ (fun _ => Nat) ..).symm, ?_⟩
    intro other hother
    rw [Function.update_of_ne hother]
    exact h.done_eq other

end Meter.Sound

end Transaction

/-! ## Lists -/

namespace Walk

open Transaction (Meter Part Tally untallied round rounds counted)

variable {ε α κ : Type} {w item : Walk Cursor ε α} {r : Read ε α} {bytes : κ → Bytes}
  {value : κ → α} {bs : Bytes} {part : Part} {tally : Part → Tally} {there used room : Nat}
  {done : Part → Nat}

/-- What a walk takes is used. -/
theorem at_untallied (hfits : bs.length < UInt64.size) (h : Follows id w r) {m : Meter}
    (hm : m.At bs there used tally) :
    ∃ unread taken, unread = taken ++ (r unread).2 ∧
      (run (untallied w) m).1 = (r unread).1.mapError .fault ∧
      (run (untallied w) m).2.At bs there (used + taken.length) tally := by
  obtain ⟨⟨before, unread, rfl, hcursor, hleft⟩, hthere, htally⟩ := hm
  obtain ⟨taken, hsplit, hresult, hcursor'⟩ :=
    follows_untallied h m before unread hcursor hfits
  have hplace : before ++ unread = before ++ taken ++ (r unread).2 := by
    rw [List.append_assoc, ← hsplit]
  have hlength := congrArg List.length hsplit
  rw [List.length_append] at hlength
  refine ⟨unread, taken, hsplit, hresult, ⟨before ++ taken, _, hplace.symm, ?_, ?_⟩, hthere, htally⟩
  · rw [hcursor', hplace]
  · omega

theorem ends_untallied (hfits : bs.length < UInt64.size) (h : Follows id w r) :
    Ends (Meter.At bs there used tally) (untallied w) (fun _ => Meter.At bs there used tally)
      (Meter.At bs there used tally) := by
  have hkept {m : Meter} (hm : m.At bs there used tally) :
      (run (untallied w) m).2.At bs there used tally := by
    obtain ⟨unread, taken, -, -, hat⟩ := at_untallied hfits h hm
    exact hat.mono (Nat.le_add_right _ _)
  constructor
  · intro m a m' hm hrun
    have hat := hkept hm
    rwa [hrun] at hat
  · intro m e m' hm hrun
    have hat := hkept hm
    rwa [hrun] at hat

theorem ends_note {x : Tally} {f : Tally → Tally} {E : Meter → Prop} :
    Ends (Meter.At bs there used (Function.update tally part x))
      (modify (·.note part f) : Walk Meter ε Unit)
      (fun _ => Meter.At bs there used (Function.update tally part (f x))) E := by
  apply ends_modify
  rintro m ⟨hleft, hthere, htally⟩
  refine ⟨hleft, hthere, ?_⟩
  rw [Meter.note, htally, Function.update_self, Function.update_idem]

theorem ends_remaining {E : Meter → Prop} :
    Ends (Meter.At bs there used tally) (untallied Walk.remaining : Walk Meter ε Nat)
      (fun n => Meter.At bs n 0 tally) E := by
  have hrun {m : Meter} (hm : m.At bs there used tally) : ∃ n m', m'.At bs n 0 tally ∧
      run (untallied Walk.remaining : Walk Meter ε Nat) m = (.ok n, m') := by
    obtain ⟨⟨before, unread, hbytes, hcursor, -⟩, -, htally⟩ := hm
    obtain ⟨m', hrun, hcursor'⟩ :=
      stays_untallied (stays_remaining (ε := ε)) m before unread hcursor
    have htally' : m'.tally = m.tally := congrArg (fun s => s.2.tally) hrun.symm
    refine ⟨unread.length, m', ⟨⟨before, unread, hbytes, hcursor'.trans hcursor, ?_⟩, ?_, ?_⟩, hrun⟩
    · exact Nat.le_of_eq (Nat.zero_add _)
    · rw [← hbytes, List.length_append]
      exact Nat.le_add_left _ _
    · rw [htally', htally]
  constructor
  · intro m n m' hm hstep
    obtain ⟨n', m'', hat, hrun⟩ := hrun hm
    cases hstep.symm.trans hrun
    exact hat
  · intro m e m' hm hstep
    obtain ⟨n', m'', -, hrun⟩ := hrun hm
    cases hstep.symm.trans hrun

/-- Whatever keeps the tallies keeps how many items are done. -/
theorem Ends.sound {w : Walk Meter ε α}
    (h : ∀ tally, Ends (Meter.At bs bs.length 0 tally) w
      (fun _ => Meter.At bs bs.length 0 tally) (Meter.At bs bs.length 0 tally)) :
    Ends (Meter.Sound bs done) w (fun _ => Meter.Sound bs done)
      (fun m => ∃ done, m.Sound bs done) where
  ok m a m' hm hrun := hm.same ((h m.tally).ok m a m' hm.at_tally hrun)
  error m e m' hm hrun := ⟨done, hm.same ((h m.tally).error m e m' hm.at_tally hrun)⟩

theorem sound_untallied (hfits : bs.length < UInt64.size) (h : Follows id w r) :
    Ends (Meter.Sound bs done) (untallied w) (fun _ => Meter.Sound bs done)
      (fun m => ∃ done, m.Sound bs done) :=
  .sound fun _ => ends_untallied hfits h

theorem sound_remaining :
    Ends (Meter.Sound bs done) (untallied Walk.remaining : Walk Meter ε Nat)
      (fun _ => Meter.Sound bs done) (fun m => ∃ done, m.Sound bs done) :=
  .sound fun _ => ends_remaining.imp (fun _ => id) (fun _ _ hm => hm.anywhere) fun _ => id

section

variable (hfits : bs.length < UInt64.size) (h : Follows id item r) (hspans : r.Spans bytes value)
  (hleast : ∀ l, part.least ≤ (bytes l).length)

include hfits h hspans hleast

/-- An item that is read has used the bytes of its layout. -/
theorem ends_item :
    Ends (Meter.At bs there used tally) (untallied item)
      (fun _ => Meter.At bs there (used + part.least) tally) (Meter.At bs there used tally) := by
  refine ⟨?_, (ends_untallied hfits h).error⟩
  intro m a m' hm hrun
  obtain ⟨unread, taken, hsplit, hresult, hat⟩ := at_untallied hfits h hm
  rw [hrun] at hresult hat
  cases hread : r unread with
  | mk result rest =>
      rw [hread] at hsplit hresult
      cases result with
      | error e => cases hresult
      | ok a' =>
          obtain ⟨l, -, hunread⟩ := hspans.iff.1 hread
          have htaken : taken = bytes l := List.append_cancel_right (hsplit.symm.trans hunread)
          apply hat.mono
          rw [htaken]
          exact Nat.add_le_add_left (hleast l) used

theorem ends_round {k : Nat} :
    Ends (Meter.At bs there (k * part.least) (Function.update tally part ⟨room, k, k⟩))
      (round part item)
      (fun _ => Meter.At bs there ((k + 1) * part.least)
        (Function.update tally part ⟨room, k + 1, k + 1⟩))
      (Meter.At bs there (k * part.least) (Function.update tally part ⟨room, k + 1, k⟩)) := by
  apply ends_note.bind
  intro _
  apply (ends_item hfits h hspans hleast).bind
  intro a
  apply ends_note.bind
  intro _
  apply ends_pure
  intro m hm
  rw [Nat.succ_mul]
  exact hm

/-- Some rounds of a list, behind others. They stop in the round behind the last that is done. -/
theorem ends_rounds {k n : Nat} :
    Ends (Meter.At bs there (k * part.least) (Function.update tally part ⟨room, k, k⟩))
      (rounds part item n)
      (fun as m => as.length = n ∧ m.At bs there ((k + n) * part.least)
        (Function.update tally part ⟨room, k + n, k + n⟩))
      (fun m => ∃ j < k + n, m.At bs there (j * part.least)
        (Function.update tally part ⟨room, j + 1, j⟩)) := by
  induction n generalizing k with
  | zero => exact ends_pure fun m hm => ⟨rfl, hm⟩
  | succ n ih =>
      apply ((ends_round hfits h hspans hleast).imp (fun _ => id) (fun _ _ => id) ?_).bind
      · intro a
        apply ((ih (k := k + 1)).imp (fun _ => id) (fun _ _ => id) ?_).bind
        · intro rest
          apply ends_pure
          rintro m ⟨hlength, hm⟩
          rw [Nat.add_right_comm] at hm
          exact ⟨congrArg Nat.succ hlength, hm⟩
        · rintro m ⟨j, hj, hm⟩
          exact ⟨j, by omega, hm⟩
      · intro m hm
        exact ⟨k, by omega, hm⟩

/-- The rounds of a list use no more than the bytes that are unread when its count has been read. -/
theorem ends_counted (count : UInt64) :
    Ends (Meter.At bs bs.length 0 tally) (counted part item count)
      (fun as m => ∃ x : Tally, x.Fits part bs.length ∧ x.done = as.length ∧
        m.At bs bs.length 0 (Function.update tally part x))
      (fun m => ∃ x : Tally, x.Fits part bs.length ∧
        m.At bs bs.length 0 (Function.update tally part x)) := by
  apply ends_remaining.bind
  intro there
  have hroom {E : Meter → Prop} :
      Ends (Meter.At bs there 0 tally)
        (modify (·.note part fun _ => ⟨min count.toNat (there / part.least), 0, 0⟩) :
          Walk Meter ε Unit)
        (fun _ => Meter.At bs there (0 * part.least)
          (Function.update tally part ⟨min count.toNat (there / part.least), 0, 0⟩)) E := by
    have hnote := @ends_note ε bs part tally there 0 (tally part)
      (fun _ => ⟨min count.toNat (there / part.least), 0, 0⟩) E
    simpa only [Function.update_eq_self, Nat.zero_mul] using hnote
  apply hroom.bind
  intro _
  apply (ends_rounds hfits h hspans hleast).imp (fun _ => id)
  · rintro as m ⟨hlength, hm⟩
    rw [Nat.zero_add] at hm
    exact ⟨_, Tally.fits_of_used (Nat.le_refl _) (Nat.le_succ _) hm.used_le hm.there_le,
      hlength.symm, hm.anywhere⟩
  · rintro m ⟨j, hj, hm⟩
    exact ⟨_, Tally.fits_of_used (by omega) (Nat.le_refl _) hm.used_le hm.there_le, hm.anywhere⟩

theorem sound_counted (count : UInt64) :
    Ends (Meter.Sound bs done) (counted part item count)
      (fun as => Meter.Sound bs (Function.update done part as.length))
      (fun m => ∃ done, m.Sound bs done) where
  ok m as m' hm hrun := by
    obtain ⟨x, hx, hdone, hat⟩ :=
      (ends_counted hfits h hspans hleast count).ok m as m' hm.at_tally hrun
    rw [← hdone]
    exact hm.update hx hat
  error m e m' hm hrun := by
    obtain ⟨x, hx, hat⟩ :=
      (ends_counted hfits h hspans hleast count).error m e m' hm.at_tally hrun
    exact ⟨_, hm.update hx hat⟩

end

end Walk

end CashWallet
