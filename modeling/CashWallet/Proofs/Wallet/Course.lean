import CashWallet.Ledger.Dealing
import CashWallet.Proofs.Ledger.Exchange
import CashWallet.Proofs.Wallet.Stages

/-!
# The course of a payment

Either way of paying is one dealing with the broadcaster, the same for all broadcasters. Along each
of its paths there is at most one submission, and only after everything before it has been done. The
course that the wallet remembers is the stages that were reached, in their order, and the end: none
if the payment was taken, rejected if the submission was, failed with the words of the fault else.
-/

namespace CashWallet

namespace Dealing

variable {α : Type}

/-- Whatever the broadcaster is and whatever it is answered, a dealing that is carried out goes
along one of its paths. -/
theorem exists_path (b : Broadcaster) (answer : List Request → Outcome) (d : Dealing α)
    (asked : List Request) :
    ∃ events, d.Path events (Exchange.runFrom answer asked (d.carryOut b)) := by
  induction d generalizing asked with
  | done a => exact ⟨[], .done a⟩
  | askDraft source target amount next ih =>
      rw [carryOut, Exchange.runFrom_bind]
      obtain ⟨events, htail⟩ := ih _ _
      exact ⟨_, .askDraft htail⟩
  | submit submission next ih =>
      rw [carryOut, Exchange.runFrom_bind]
      obtain ⟨events, htail⟩ := ih _ _
      exact ⟨_, .submit htail⟩

end Dealing

open Dealing (Event submissions)

namespace SendState

/-- The stages of a payment that goes well, up to its submission. -/
def stages : List SendState :=
  [.unfunded, .selected, .built, .signed, .submitted]

end SendState

/-! ## The end of a course -/

/-- How a course ends: not at all if the payment was taken, by the rejection of what was submitted,
or by a failure with the text of the fault. -/
def ending (replies : List (Except LedgerError String)) :
    Except WalletError SendReport → List SendState
  | .ok _ => []
  | .error fault =>
    match replies with
    | [.error (.rejected _)] => [.rejected]
    | _ => [.failed fault.message]

namespace SendHistory

/-- Before it is submitted, a payment can only fail, whatever the fault is. -/
theorem states_close {h : SendHistory} (hlive : h.isTerminal = false)
    (hnot : h.state ≠ .submitted) (fault : WalletError) :
    (h.close fault).states = h.states ++ [.failed fault.message] := by
  have hstate : (fault.isRejection && h.state = .submitted) = false := by simp [hnot]
  simp only [close, hstate, fail, hlive, enter, states]
  rfl

/-- The course after the reply to a submission. -/
def closedBy : Except LedgerError String → SendHistory
  | .ok _ => submitted
  | .error fault => submitted.close (.ledger fault)

/-- What was submitted is rejected if the network refused it, and has failed else. -/
theorem states_closedBy (reply : Except LedgerError String) (report : String → SendReport) :
    (closedBy reply).states =
      SendState.stages ++ ending [reply] ((reply.mapError .ledger).map report) := by
  cases reply with
  | ok txid => rfl
  | error fault => cases fault <;> rfl

end SendHistory

/-! ## What a course tells -/

/-- The work behind a stage presupposes that behind the one before. -/
structure Milestones (achieved : SendState → Prop) : Prop where
  selected_of_built : achieved .built → achieved .selected
  built_of_signed : achieved .signed → achieved .built

namespace Milestones

variable {achieved : SendState → Prop}

theorem reached_start (h : Milestones achieved) (hselected : ¬ achieved .selected) :
    ∀ stage ∈ [SendState.selected, .built, .signed],
      stage ∈ SendHistory.start.states ↔ achieved stage := by
  have hbuilt : ¬ achieved .built := fun hb => hselected (h.selected_of_built hb)
  have hsigned : ¬ achieved .signed := fun hs => hbuilt (h.built_of_signed hs)
  simp [SendHistory.start, SendHistory.states, hselected, hbuilt, hsigned]

theorem reached_selected (h : Milestones achieved) (hselected : achieved .selected)
    (hbuilt : ¬ achieved .built) :
    ∀ stage ∈ [SendState.selected, .built, .signed],
      stage ∈ SendHistory.selected.states ↔ achieved stage := by
  have hsigned : ¬ achieved .signed := fun hs => hbuilt (h.built_of_signed hs)
  simp [SendHistory.selected, SendHistory.start, SendHistory.enter, SendHistory.states, hselected,
    hbuilt, hsigned]

theorem reached_built (h : Milestones achieved) (hbuilt : achieved .built)
    (hsigned : ¬ achieved .signed) :
    ∀ stage ∈ [SendState.selected, .built, .signed],
      stage ∈ SendHistory.built.states ↔ achieved stage := by
  have hselected := h.selected_of_built hbuilt
  simp [SendHistory.built, SendHistory.selected, SendHistory.start, SendHistory.enter,
    SendHistory.states, hselected, hbuilt, hsigned]

theorem all (h : Milestones achieved) (hsigned : achieved .signed) :
    ∀ stage ∈ [SendState.selected, .built, .signed], achieved stage := by
  have hbuilt := h.built_of_signed hsigned
  simp only [List.forall_mem_cons]
  exact ⟨h.selected_of_built hbuilt, hbuilt, hsigned, nofun⟩

end Milestones

/-- A run of a payment: the stages that were passed are a front of the good course, each of them
achieved; there is one submission if all work before it is done and none otherwise; and the course
closes as the result demands. -/
structure Course (achieved : SendState → Prop) (events : List Event)
    (result : Except WalletError SendReport) (history : SendHistory) (passed : List SendState) :
    Prop where
  begun : passed ≠ []
  inOrder : passed <+: SendState.stages
  reached : ∀ stage ∈ [SendState.selected, .built, .signed], stage ∈ passed ↔ achieved stage
  handedOver : .submitted ∈ passed ↔ .signed ∈ passed
  submitted : .submitted ∈ passed ↔ submissions events ≠ []
  once : (submissions events).length ≤ 1
  taken : (∃ report, result = .ok report) ↔ ∃ txid, submissions events = [.ok txid]
  told : ∀ report, result = .ok report → report.history = history
  granted : ∀ source target, result ≠ .error (.invalidState source target)
  states : history.states = passed ++ ending (submissions events) result

namespace Course

variable {achieved : SendState → Prop} {events : List Event}

/-- A payment that stops before it is submitted fails after the stages that it reached. -/
theorem stopped {fault : WalletError} {history : SendHistory}
    (hlive : history ∈ [SendHistory.start, .selected, .built])
    (hreached : ∀ stage ∈ [SendState.selected, .built, .signed],
      stage ∈ history.states ↔ achieved stage)
    (hnone : submissions events = [])
    (hfault : ∀ source target, fault ≠ .invalidState source target) :
    Course achieved events (.error fault) (history.close fault) history.states := by
  have hfacts : history.states ≠ [] ∧ history.states <+: SendState.stages ∧
      .submitted ∉ history.states ∧ .signed ∉ history.states ∧ history.isTerminal = false ∧
      history.state ≠ .submitted := by
    simp only [List.mem_cons, List.not_mem_nil, or_false] at hlive
    rcases hlive with rfl | rfl | rfl <;> decide
  obtain ⟨hbegun, horder, hsubmitted, hsigned, hterminal, hstate⟩ := hfacts
  constructor
  case begun => exact hbegun
  case inOrder => exact horder
  case reached => exact hreached
  case handedOver => simp [hsubmitted, hsigned]
  case submitted => simp [hsubmitted, hnone]
  case once => simp [hnone]
  case taken => simp [hnone]
  case told => nofun
  case granted =>
    intro source target heq
    exact hfault source target (Except.error.inj heq)
  case states =>
    rw [SendHistory.states_close hterminal hstate, hnone]
    rfl

/-- A payment that is submitted has all stages behind it, and the reply decides how it ends. -/
theorem submittedOnce {reply : Except LedgerError String} {report : String → SendReport}
    (hreport : ∀ txid, (report txid).history = .submitted)
    (hachieved : ∀ stage ∈ [SendState.selected, .built, .signed], achieved stage)
    (honce : submissions events = [reply]) :
    Course achieved events ((reply.mapError .ledger).map report) (.closedBy reply)
      SendState.stages := by
  constructor
  case begun => decide
  case inOrder => exact List.prefix_rfl
  case reached =>
    intro stage hstage
    have hmem : stage ∈ SendState.stages := by
      revert stage
      decide
    simp [hmem, hachieved stage hstage]
  case handedOver => decide
  case submitted => simp [honce, SendState.stages]
  case once => simp [honce]
  case taken => cases reply <;> simp [honce, Except.mapError, Except.map]
  case told =>
    cases reply with
    | error fault => nofun
    | ok txid =>
        rintro _ ⟨⟩
        exact hreport txid
  case granted => cases reply <;> nofun
  case states =>
    rw [honce]
    exact SendHistory.states_closedBy reply report

end Course

/-! ## Payments from known outputs -/

namespace Wallet

/-- The transaction is built from outputs that were chosen, and pays the fee that was settled. -/
def Builds (w : Wallet) (recipient : Address) (amount : UInt64) (unsigned : UnsignedTransaction) :
    Prop :=
  ∃ selection change, w.selector.select w.unspents amount = .ok selection ∧
    Change.settle selection.total amount selection.fee w.config.dustThreshold = .ok change ∧
    ({} : Builder).build (w.destinations recipient amount change.value) selection.chosen =
      .ok unsigned ∧
    checkFee unsigned change.fee = .ok ()

/-- The work that stands behind a stage of a payment from known outputs. -/
def Achieved (w : Wallet) (recipient : Address) (amount : UInt64) : SendState → Prop
  | .selected => ∃ selection, w.selector.select w.unspents amount = .ok selection
  | .built => ∃ unsigned, w.Builds recipient amount unsigned
  | .signed => ∃ unsigned signed, w.Builds recipient amount unsigned ∧
      unsigned.sign [w.key] w.config.digestAlgorithm = .ok signed ∧ signed.verify = .ok ()
  | _ => False

variable {w : Wallet} {recipient : Address} {amount : UInt64}

theorem achieved_milestones : Milestones (w.Achieved recipient amount) where
  selected_of_built := by
    rintro ⟨unsigned, selection, change, hselection, -⟩
    exact ⟨selection, hselection⟩
  built_of_signed := by
    rintro ⟨unsigned, signed, hbuilds, -⟩
    exact ⟨unsigned, hbuilds⟩

/-- What is chosen and settled is determined, so the rest of the work is what counts. -/
theorem builds_iff {selection : Selection} {change : Change}
    (hselection : w.selector.select w.unspents amount = .ok selection)
    (hchange : Change.settle selection.total amount selection.fee w.config.dustThreshold =
      .ok change) {unsigned : UnsignedTransaction} :
    w.Builds recipient amount unsigned ↔
      ({} : Builder).build (w.destinations recipient amount change.value) selection.chosen =
          .ok unsigned ∧
        checkFee unsigned change.fee = .ok () := by
  constructor
  · rintro ⟨selection', change', hselection', hchange', hbuild, hfee⟩
    cases Except.ok.inj (hselection.symm.trans hselection')
    cases Except.ok.inj (hchange.symm.trans hchange')
    exact ⟨hbuild, hfee⟩
  · rintro ⟨hbuild, hfee⟩
    exact ⟨selection, change, hselection, hchange, hbuild, hfee⟩

theorem builds_unique {unsigned unsigned' : UnsignedTransaction}
    (h : w.Builds recipient amount unsigned) (h' : w.Builds recipient amount unsigned') :
    unsigned = unsigned' := by
  obtain ⟨selection, change, hselection, hchange, hbuild, -⟩ := h
  obtain ⟨hbuild', -⟩ := (builds_iff hselection hchange).1 h'
  exact Except.ok.inj (hbuild.symm.trans hbuild')

/-- The preparation of a payment that stops has achieved what its stages say. -/
theorem reached_of_prepare {fault : TransactionError} {history : SendHistory}
    (h : w.prepare recipient amount = .error (fault, history)) :
    history ∈ [SendHistory.start, .selected, .built] ∧
      ∀ stage ∈ [SendState.selected, .built, .signed],
        stage ∈ history.states ↔ w.Achieved recipient amount stage := by
  have hmilestones : Milestones (w.Achieved recipient amount) := achieved_milestones
  unfold prepare at h
  rcases Results.mapError_bind_eq_error_iff.1 h with ⟨_, hstop, heq⟩ | ⟨selection, hselection, h⟩
  · cases heq
    refine ⟨by decide, hmilestones.reached_start ?_⟩
    rintro ⟨selection, hselection⟩
    cases hselection.symm.trans hstop
  rcases Results.mapError_bind_eq_error_iff.1 h with ⟨_, hstop, heq⟩ | ⟨change, hchange, h⟩
  · cases heq
    refine ⟨by decide, hmilestones.reached_selected ⟨selection, hselection⟩ ?_⟩
    rintro ⟨_, selection', change, hselection', hchange, -⟩
    cases Except.ok.inj (hselection.symm.trans hselection')
    cases hchange.symm.trans hstop
  rcases Results.mapError_bind_eq_error_iff.1 h with ⟨_, hstop, heq⟩ | ⟨unsigned, hunsigned, h⟩
  · cases heq
    refine ⟨by decide, hmilestones.reached_selected ⟨selection, hselection⟩ ?_⟩
    rintro ⟨unsigned, hbuilds⟩
    obtain ⟨hunsigned, -⟩ := (builds_iff hselection hchange).1 hbuilds
    cases hunsigned.symm.trans hstop
  rcases Results.mapError_bind_eq_error_iff.1 h with ⟨_, hstop, heq⟩ | ⟨_, hfee, h⟩
  · cases heq
    refine ⟨by decide, hmilestones.reached_selected ⟨selection, hselection⟩ ?_⟩
    rintro ⟨unsigned', hbuilds⟩
    obtain ⟨hunsigned', hfee⟩ := (builds_iff hselection hchange).1 hbuilds
    cases Except.ok.inj (hunsigned.symm.trans hunsigned')
    cases hfee.symm.trans hstop
  have hbuilds : w.Builds recipient amount unsigned :=
    (builds_iff hselection hchange).2 ⟨hunsigned, hfee⟩
  rcases Results.mapError_bind_eq_error_iff.1 h with ⟨_, hstop, heq⟩ | ⟨signed, hsigned, h⟩
  · cases heq
    refine ⟨by decide, hmilestones.reached_built ⟨unsigned, hbuilds⟩ ?_⟩
    rintro ⟨unsigned', signed, hbuilds', hsigned, -⟩
    cases builds_unique hbuilds hbuilds'
    cases hsigned.symm.trans hstop
  rcases Results.mapError_bind_eq_error_iff.1 h with ⟨_, hstop, heq⟩ | ⟨_, -, h⟩
  · cases heq
    refine ⟨by decide, hmilestones.reached_built ⟨unsigned, hbuilds⟩ ?_⟩
    rintro ⟨unsigned', signed', hbuilds', hsigned', hverify⟩
    cases builds_unique hbuilds hbuilds'
    cases Except.ok.inj (hsigned.symm.trans hsigned')
    cases hverify.symm.trans hstop
  · cases h

theorem achieved_of_prepare {p : Prepared} (h : w.prepare recipient amount = .ok p) :
    ∀ stage ∈ [SendState.selected, .built, .signed], w.Achieved recipient amount stage := by
  simp only [prepare, Results.bind_eq_ok_iff, Results.mapError_eq_ok_iff] at h
  obtain ⟨selection, hselection, change, hchange, unsigned, hunsigned, _, hfee, signed, hsigned, _,
    hverify, -⟩ := h
  have hbuilds : w.Builds recipient amount unsigned :=
    ⟨selection, change, hselection, hchange, hunsigned, hfee⟩
  exact achieved_milestones.all ⟨unsigned, signed, hbuilds, hsigned, hverify⟩

/-- A payment from known outputs, as a dealing. -/
def localDealing (w : Wallet) (recipient : Address) (amount : UInt64) :
    Dealing (Except WalletError SendReport × Wallet) :=
  match w.prepare recipient amount with
  | .error (fault, h) =>
    .done (.error (.transaction fault), w.record (h.close (.transaction fault)))
  | .ok p => .submit (.raw p.signed.transaction.toHex) fun reply =>
    .done ((reply.mapError .ledger).map (report p), w.record (.closedBy reply))

theorem send_eq_carryOut (w : Wallet) (recipient : Address) (amount : UInt64) (b : Broadcaster) :
    w.send b recipient amount = (w.localDealing recipient amount).carryOut b := by
  rw [send_eq, localDealing]
  cases w.prepare recipient amount with
  | error stopped => rfl
  | ok p =>
      rw [Dealing.carryOut]
      dsimp only [Broadcaster.submit]
      congr 1
      funext reply
      cases reply <;> rfl

theorem localDealing_course {events : List Event} {result : Except WalletError SendReport}
    {after : Wallet} (h : (w.localDealing recipient amount).Path events (result, after)) :
    ∃ history passed, after = w.record history ∧
      Course (w.Achieved recipient amount) events result history passed := by
  unfold localDealing at h
  cases hprepare : w.prepare recipient amount with
  | error stopped =>
      rw [hprepare] at h
      cases h
      obtain ⟨hlive, hreached⟩ := reached_of_prepare hprepare
      exact ⟨_, _, rfl, Course.stopped hlive hreached rfl nofun⟩
  | ok p =>
      rw [hprepare] at h
      cases h with
      | submit htail =>
          cases htail
          exact ⟨_, _, rfl, Course.submittedOnce (fun _ => rfl) (achieved_of_prepare hprepare) rfl⟩

/-! ## Payments by drafts -/

/-- The work that stands behind a stage of a payment that the backend builds: it was asked for a
draft, and the digests of the draft were signed. -/
def DraftAchieved (w : Wallet) (recipient : Address) (amount : UInt64) (events : List Event) :
    SendState → Prop
  | .selected => amount ≠ 0 ∧ ∃ draft, .drafted w.address recipient amount (.ok draft) ∈ events
  | .built => amount ≠ 0 ∧ ∃ draft, .drafted w.address recipient amount (.ok draft) ∈ events
  | .signed => amount ≠ 0 ∧ ∃ draft signatures,
      .drafted w.address recipient amount (.ok draft) ∈ events ∧
        w.signDigests draft.digests = .ok signatures
  | _ => False

theorem draftAchieved_milestones {events : List Event} :
    Milestones (w.DraftAchieved recipient amount events) where
  selected_of_built h := h
  built_of_signed := by
    rintro ⟨hamount, draft, signatures, hdraft, -⟩
    exact ⟨hamount, draft, hdraft⟩

/-- The report of a payment that the backend built and took. -/
def draftReport (draft : Draft) (txid : String) : SendReport :=
  ⟨txid, draft.fee, 0, none, .submitted⟩

/-- A payment by a draft, as a dealing. -/
def draftDealing (w : Wallet) (recipient : Address) (amount : UInt64) :
    Dealing (Except WalletError SendReport × Wallet) :=
  if amount = 0 then
    .done (.error (.transaction .zeroAmount),
      w.record (SendHistory.start.close (.transaction .zeroAmount)))
  else .askDraft w.address recipient amount fun reply =>
    match reply with
    | .error fault =>
      .done (.error (.ledger fault), w.record (SendHistory.start.close (.ledger fault)))
    | .ok draft =>
      match w.signDigests draft.digests with
      | .error fault =>
        .done (.error (.transaction fault), w.record (SendHistory.built.close (.transaction fault)))
      | .ok signatures => .submit (.signedDraft draft signatures) fun reply =>
        .done ((reply.mapError .ledger).map (draftReport draft), w.record (.closedBy reply))

/-- A payment by a draft runs as it says. -/
theorem sendDrafted_run (w : Wallet) (b : Broadcaster) (recipient : Address) {amount : UInt64}
    (hamount : amount ≠ 0) :
    (w.sendDrafted b recipient amount).run.run .start =
      (b.createDraft w.address recipient amount).bind fun reply =>
        match reply with
        | .error fault => .done (.error (.ledger fault), .start)
        | .ok draft =>
          match w.signDigests draft.digests with
          | .error fault => .done (.error (.transaction fault), .built)
          | .ok signatures => (b.submitDraft draft signatures).bind fun reply =>
            .done (reply.mapError .ledger |>.map fun txid => (txid, ⟨draft.fee, 0⟩, none),
              .submitted) := by
  unfold sendDrafted
  rw [if_neg hamount, Sending.run_ask]
  congr 1
  funext reply
  cases reply with
  | error fault => rfl
  | ok draft =>
      dsimp only
      rw [Sending.run_advance rfl, Sending.run_advance rfl, Sending.run_check]
      cases w.signDigests draft.digests with
      | error fault => rfl
      | ok signatures =>
          dsimp only
          rw [Sending.run_advance rfl, Sending.run_advance rfl, Sending.run_ask]
          congr 1
          funext reply
          cases reply <;> rfl

theorem sendCooperative_eq_carryOut (w : Wallet) (recipient : Address) (amount : UInt64)
    (b : Broadcaster) :
    w.sendCooperative b recipient amount = (w.draftDealing recipient amount).carryOut b := by
  unfold sendCooperative complete draftDealing
  rw [Exchange.bind_eq]
  by_cases hamount : amount = 0
  · rw [if_pos hamount, sendDrafted, if_pos hamount]
    rfl
  rw [if_neg hamount, sendDrafted_run w b recipient hamount, Exchange.bind_assoc,
    Dealing.carryOut]
  congr 1
  funext reply
  cases reply with
  | error fault => rfl
  | ok draft =>
      dsimp only
      cases w.signDigests draft.digests with
      | error fault => rfl
      | ok signatures =>
          dsimp only
          rw [Exchange.bind_assoc, Dealing.carryOut, Broadcaster.submit]
          congr 1
          funext reply
          cases reply <;> rfl

theorem draftDealing_course {events : List Event} {result : Except WalletError SendReport}
    {after : Wallet} (h : (w.draftDealing recipient amount).Path events (result, after)) :
    ∃ history passed, after = w.record history ∧
      Course (w.DraftAchieved recipient amount events) events result history passed := by
  have hmilestones : Milestones (w.DraftAchieved recipient amount events) :=
    draftAchieved_milestones
  unfold draftDealing at h
  split at h
  · next hamount =>
      cases h
      refine ⟨_, _, rfl, Course.stopped (by decide) (hmilestones.reached_start ?_) rfl nofun⟩
      rintro ⟨hne, -⟩
      exact hne hamount
  · next hamount =>
      cases h with
      | @askDraft _ _ _ _ reply events _ htail =>
          cases reply with
          | error fault =>
              cases htail
              refine ⟨_, _, rfl,
                Course.stopped (by decide) (hmilestones.reached_start ?_) rfl nofun⟩
              rintro ⟨-, draft, hdraft⟩
              cases List.mem_singleton.1 hdraft
          | ok draft =>
              dsimp only at htail
              cases hsign : w.signDigests draft.digests with
              | error fault =>
                  rw [hsign] at htail
                  cases htail
                  refine ⟨_, _, rfl, Course.stopped (by decide)
                    (hmilestones.reached_built ⟨hamount, draft, List.mem_cons_self⟩ ?_) rfl nofun⟩
                  rintro ⟨-, draft', signatures, hdraft, hsigned⟩
                  cases List.mem_singleton.1 hdraft
                  cases hsigned.symm.trans hsign
              | ok signatures =>
                  rw [hsign] at htail
                  cases htail with
                  | submit htail =>
                      cases htail
                      exact ⟨_, _, rfl, Course.submittedOnce (fun _ => rfl) (hmilestones.all
                        ⟨hamount, draft, signatures, List.mem_cons_self, hsign⟩) rfl⟩

/-- Either way of paying is one dealing, whoever the broadcaster is, and each run of it along its
paths has the course that the wallet remembers afterwards. -/
theorem payment_course (w : Wallet) (recipient : Address) (amount : UInt64) :
    (∃ dealing : Dealing (Except WalletError SendReport × Wallet),
      (∀ b, w.send b recipient amount = dealing.carryOut b) ∧
      (∀ b answer, ∃ events, dealing.Path events ((w.send b recipient amount).run answer)) ∧
      ∀ events result after, dealing.Path events (result, after) →
        ∃ history passed, after = { w with lastSend := some history } ∧
          Course (w.Achieved recipient amount) events result history passed) ∧
    ∃ dealing : Dealing (Except WalletError SendReport × Wallet),
      (∀ b, w.sendCooperative b recipient amount = dealing.carryOut b) ∧
      (∀ b answer, ∃ events,
        dealing.Path events ((w.sendCooperative b recipient amount).run answer)) ∧
      ∀ events result after, dealing.Path events (result, after) →
        ∃ history passed, after = { w with lastSend := some history } ∧
          Course (w.DraftAchieved recipient amount events) events result history passed := by
  constructor
  · refine ⟨w.localDealing recipient amount, w.send_eq_carryOut recipient amount, ?_, ?_⟩
    · intro b answer
      rw [send_eq_carryOut]
      exact Dealing.exists_path b answer _ []
    · intro events result after h
      exact localDealing_course h
  · refine ⟨w.draftDealing recipient amount, w.sendCooperative_eq_carryOut recipient amount, ?_, ?_⟩
    · intro b answer
      rw [sendCooperative_eq_carryOut]
      exact Dealing.exists_path b answer _ []
    · intro events result after h
      exact draftDealing_course h

/-- A wallet that knows of nothing. -/
def fresh : Wallet :=
  .ofStore { scalar := 1, scalar_pos := by decide, scalar_lt := by decide } {} .empty

def someAddress : Address :=
  ⟨"", List.replicate 20 1, .mainnet, List.length_replicate⟩

/-- A broadcaster that refuses everything, drafts as well. -/
def refusing : Broadcaster where
  broadcast _ := .done (.error (.rejected "no"))
  createDraft _ _ _ := .done (.error (.rejected "no"))
  submitDraft _ _ := .done (.error (.rejected "no"))

/-- A draft that is refused is no submission, so the payment has failed and is not rejected. -/
theorem payment_course_refused :
    ∃ events history passed,
      (fresh.sendCooperative refusing someAddress 5).run (fun _ => .unreachable) =
        (.error (.ledger (.rejected "no")), { fresh with lastSend := some history }) ∧
      Course (fresh.DraftAchieved someAddress 5 events) events (.error (.ledger (.rejected "no")))
        history passed ∧
      history.states = [.unfunded, .failed "provider error: broadcast rejected: no"] := by
  obtain ⟨-, dealing, -, hpath, hcourse⟩ := payment_course fresh someAddress 5
  obtain ⟨events, hevents⟩ := hpath refusing fun _ => .unreachable
  have hrun : (fresh.sendCooperative refusing someAddress 5).run (fun _ => .unreachable) =
      (.error (.ledger (.rejected "no")),
        fresh.record (SendHistory.start.close (.ledger (.rejected "no")))) := rfl
  rw [hrun] at hevents
  obtain ⟨history, passed, hafter, hc⟩ := hcourse _ _ _ hevents
  have hhistory : SendHistory.start.close (.ledger (.rejected "no")) = history :=
    Option.some_inj.1 (congrArg lastSend hafter)
  refine ⟨events, history, passed, by rw [hrun, hafter], hc, ?_⟩
  rw [← hhistory]
  decide

end Wallet

end CashWallet
