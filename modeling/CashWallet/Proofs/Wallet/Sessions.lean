import CashWallet.Proofs.Wallet.Calls

/-!
# The payment that a wallet shows

A wallet shows the course that it remembered last. Payments remember theirs, and so does a report
that is confirmed for the first time, whichever payment it is about. So a wallet shows its latest
payment, perhaps with its confirmation, as long as no older payment is confirmed after it; if one
is, the wallet shows that one.
-/

namespace CashWallet

namespace SendHistory

variable {course shown next : SendHistory}

/-- A course, or what it became by a later confirmation. -/
def Continues (course shown : SendHistory) : Prop :=
  shown = course ∨ course.advance .confirmed = .ok shown

theorem advance_confirmed_iff :
    course.advance .confirmed = .ok next ↔
      course.state = .submitted ∧ next = course.enter .confirmed := by
  obtain ⟨earlier, state⟩ := course
  cases state <;> simp [advance, SendState.allows, eq_comm]

/-- What was confirmed before is not confirmed again. -/
theorem Continues.advance_confirmed (h : course.Continues shown)
    (hadvance : shown.advance .confirmed = .ok next) : course.advance .confirmed = .ok next := by
  rcases h with rfl | hconfirmed
  · exact hadvance
  · obtain ⟨-, rfl⟩ := advance_confirmed_iff.1 hconfirmed
    obtain ⟨hstate, -⟩ := advance_confirmed_iff.1 hadvance
    cases hstate

end SendHistory

namespace Wallet.Session

/-- A report that is as it was, is handed out once more. -/
theorem checked_kept (s : Session) (number : Nat) (before : SendReport)
    (result : Except WalletError Bool) (w : Wallet) :
    s.checked number before (result, before, w) =
      { s with wallet := w, reports := s.reports ++ [(number, before)] } := by
  simp [checked]

theorem checked_confirmed (s : Session) (number : Nat) {before : SendReport}
    {history : SendHistory} (hadvance : before.history.advance .confirmed = .ok history)
    (result : Except WalletError Bool) (w : Wallet) :
    s.checked number before (result, { before with history }, w) =
      { s with
        wallet := w
        reports := s.reports ++ [(number, { before with history })]
        confirmed := s.confirmed ++ [number] } := by
  obtain ⟨hstate, rfl⟩ := SendHistory.advance_confirmed_iff.1 hadvance
  simp [checked, hstate, SendHistory.enter]

/-- What is true of a session at any time: every report is about its payment, and the wallet shows
the payment that was confirmed last, or else the latest one. -/
structure Faithful (first : Option SendHistory) (s : Session) : Prop where
  reported : ∀ number report, (number, report) ∈ s.reports →
    ∃ course, s.courses[number]? = some course ∧ course.Continues report.history
  unconfirmed : s.confirmed = [] → s.wallet.lastSend = s.courses.getLast?.or first
  confirmed : ∀ number, s.confirmed.getLast? = some number →
    ∃ course shown, s.courses[number]? = some course ∧ course.advance .confirmed = .ok shown ∧
      s.wallet.lastSend = some shown

namespace Faithful

variable {first : Option SendHistory} {s : Session}

theorem start (w : Wallet) : Faithful w.lastSend (start w) where
  reported := nofun
  unconfirmed _ := rfl
  confirmed := nofun

theorem updated (h : Faithful first s) {w : Wallet} (hw : Updated s.wallet w) :
    Faithful first { s with wallet := w } where
  reported := h.reported
  unconfirmed hnone := hw.lastSend_eq.trans (h.unconfirmed hnone)
  confirmed number hlast := by
    obtain ⟨course, shown, hcourse, hadvance, hshown⟩ := h.confirmed number hlast
    exact ⟨course, shown, hcourse, hadvance, hw.lastSend_eq.trans hshown⟩

theorem handedOut (h : Faithful first s) {number : Nat} {report : SendReport}
    {course : SendHistory} (hcourse : s.courses[number]? = some course)
    (hcontinues : course.Continues report.history) :
    Faithful first { s with reports := s.reports ++ [(number, report)] } where
  reported number' report' hmem := by
    rcases List.mem_append.1 hmem with hmem | hmem
    · exact h.reported number' report' hmem
    · cases List.mem_singleton.1 hmem
      exact ⟨course, hcourse, hcontinues⟩
  unconfirmed := h.unconfirmed
  confirmed := h.confirmed

theorem recorded (h : Faithful first s) {number : Nat} {course shown : SendHistory}
    (hcourse : s.courses[number]? = some course)
    (hadvance : course.advance .confirmed = .ok shown) :
    Faithful first
      { s with wallet := s.wallet.record shown, confirmed := s.confirmed ++ [number] } where
  reported := h.reported
  unconfirmed hnone := by simp at hnone
  confirmed number' hlast := by
    cases (List.getLast?_concat).symm.trans hlast
    exact ⟨course, shown, hcourse, hadvance, rfl⟩

theorem paid (h : Faithful first s) {course : SendHistory} {result : Except WalletError SendReport}
    (hreport : ∀ report, result = .ok report → report.history = course) :
    Faithful first (s.paid course (result, s.wallet.record course)) where
  reported number report hmem := by
    rcases List.mem_append.1 hmem with hmem | hmem
    · obtain ⟨before, hbefore, hcontinues⟩ := h.reported number report hmem
      refine ⟨before, ?_, hcontinues⟩
      obtain ⟨hlength, -⟩ := List.getElem?_eq_some_iff.1 hbefore
      exact (List.getElem?_append_left hlength).trans hbefore
    · cases result with
      | error fault => cases hmem
      | ok report' =>
          cases List.mem_singleton.1 hmem
          exact ⟨course, List.getElem?_concat_length, Or.inl (hreport _ rfl)⟩
  unconfirmed _ := by simp [Session.paid, record]
  confirmed := nofun

theorem checked (h : Faithful first s) {number : Nat} {report report' : SendReport}
    (hmem : (number, report) ∈ s.reports) {result : Except WalletError Bool} {w : Wallet}
    (hchecked : Checked s.wallet report report' w) :
    Faithful first (s.checked number report (result, report', w)) := by
  obtain ⟨course, hcourse, hcontinues⟩ := h.reported number report hmem
  cases hchecked with
  | kept hw =>
      rw [checked_kept]
      exact (h.updated hw).handedOut hcourse hcontinues
  | confirmed hw hadvance =>
      rw [checked_confirmed s number hadvance]
      have hconfirmed := hcontinues.advance_confirmed hadvance
      exact ((h.updated hw).handedOut hcourse (Or.inr hconfirmed)).recorded hcourse hconfirmed

theorem moves (h : Faithful first s) {s' : Session} (hmoves : Moves s s') : Faithful first s' := by
  cases hmoves with
  | updated hw => exact h.updated hw
  | paid hreport => exact h.paid hreport
  | checked hmem hchecked => exact h.checked hmem hchecked

theorem after (h : Faithful first s) (calls : List Call) : Faithful first (s.after calls) := by
  induction calls generalizing s with
  | nil => exact h
  | cons c calls ih => exact ih (h.moves (s.step_moves c))

end Faithful

/-- What a wallet shows after any calls. As long as no older payment has been confirmed since the
latest one, it shows the latest one, perhaps with its confirmation. Otherwise it shows the payment
that was confirmed last. -/
theorem after_lastSend (w : Wallet) (calls : List Call) :
    let s := (Session.start w).after calls
    (s.confirmed = [] → s.wallet.lastSend = s.courses.getLast?.or w.lastSend) ∧
    (∀ course, s.courses.getLast? = some course →
      (∀ number ∈ s.confirmed, number + 1 = s.courses.length) →
      ∃ shown, s.wallet.lastSend = some shown ∧ course.Continues shown) ∧
    ∀ number, s.confirmed.getLast? = some number →
      ∃ course shown, s.courses[number]? = some course ∧ course.advance .confirmed = .ok shown ∧
        s.wallet.lastSend = some shown := by
  intro s
  have hs : Faithful w.lastSend s := (Faithful.start w).after calls
  refine ⟨hs.unconfirmed, ?_, hs.confirmed⟩
  intro course hlatest hown
  cases hlast : s.confirmed.getLast? with
  | none =>
      have hshown := hs.unconfirmed (List.getLast?_eq_none_iff.1 hlast)
      rw [hlatest] at hshown
      exact ⟨course, hshown, Or.inl rfl⟩
  | some number =>
      obtain ⟨course', shown, hcourse', hadvance, hshown⟩ := hs.confirmed number hlast
      have hnumber := hown number (List.mem_of_getLast? hlast)
      have hsame : course' = course := by
        rw [List.getLast?_eq_getElem?, ← hnumber, Nat.add_sub_cancel] at hlatest
        exact Option.some_inj.1 (hcourse'.symm.trans hlatest)
      subst hsame
      exact ⟨shown, hshown, Or.inr hadvance⟩

/-- A backend that drafts transactions without anything to sign, and takes them. -/
def taking : Broadcaster where
  broadcast _ := .done (.ok "ab")
  createDraft _ _ _ := .done (.ok ⟨[], 0, .object []⟩)
  submitDraft _ _ := .done (.ok "ab")

/-- A wallet pays itself. -/
def payment (amount : UInt64) : Call :=
  ⟨.sendCooperative taking fresh.address amount, fun _ => .unreachable⟩

/-- The first report is checked, and the backend tells that its payment is confirmed. -/
def confirmation : Call :=
  ⟨.checkConfirmation 0, fun _ =>
    .reply 200 "\x7b\"txs\":[\x7b\"txid\":\"ab\",\"confirmations\":1\x7d]\x7d"⟩

/-- A payment of nothing fails at once; the payment before it is confirmed after that. -/
def overtaking : List Call := [payment 5, payment 0, confirmation]

theorem after_lastSend_confirmed :
    (∃ shown, ((Session.start fresh).after [payment 5, confirmation]).wallet.lastSend = some shown ∧
      SendHistory.submitted.Continues shown) ∧
    ∃ course shown, ((Session.start fresh).after overtaking).courses[0]? = some course ∧
      course.advance .confirmed = .ok shown ∧
      ((Session.start fresh).after overtaking).wallet.lastSend = some shown := by
  obtain ⟨-, hlatest, -⟩ := after_lastSend fresh [payment 5, confirmation]
  obtain ⟨-, -, hconfirmed⟩ := after_lastSend fresh overtaking
  constructor
  · exact hlatest .submitted (by decide +kernel) (by decide +kernel)
  · exact hconfirmed 0 (by decide +kernel)

/-- So a wallet does not always show its latest payment, be it with a confirmation or without. -/
theorem after_lastSend_overtaken : ¬ ∀ (w : Wallet) (calls : List Call) (course : SendHistory),
    ((Session.start w).after calls).courses.getLast? = some course →
    ∃ shown, ((Session.start w).after calls).wallet.lastSend = some shown ∧
      course.Continues shown := by
  intro h
  have hlatest : ((Session.start fresh).after overtaking).courses.getLast? =
      some (SendHistory.start.close (.transaction .zeroAmount)) := by
    decide +kernel
  have hshown : ((Session.start fresh).after overtaking).wallet.lastSend =
      some (SendHistory.submitted.enter .confirmed) := by
    decide +kernel
  obtain ⟨shown, heq, hcontinues⟩ := h fresh overtaking _ hlatest
  cases hshown.symm.trans heq
  rcases hcontinues with hsame | hadvance
  · exact absurd hsame (by decide)
  · obtain ⟨hstate, -⟩ := SendHistory.advance_confirmed_iff.1 hadvance
    exact absurd hstate (by decide)

end Wallet.Session

end CashWallet
