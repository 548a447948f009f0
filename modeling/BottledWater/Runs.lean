import BottledWater.Refinement

/-! When the producer takes an event, read off the queue it refines (`step_iff_enabled`): the
guards of the callbacks become conditions on the tracker. With it, a sequence of events the tracker
admits is a run of the producer (`Reachable.run_admits`), and so are transactions without rows
from any state with an empty buffer (`Reachable.rowless_run`). The classes of upstream runs the
later modules speak of are defined here, and `Reachable.txns_forall` packages the induction for a
property of each transaction that the events keep. -/

namespace BottledWater

open Tracker

/-- Whether a producer with the given output format and error policy takes the event in a state
that refines `a`. -/
def Enabled (outputFormat : OutputFormat) (errorPolicy : ErrorPolicy) (a : Tracker) :
    Event → Prop
  | .beginTxn xid => a.begun - a.retired < xactListLen - 1 ∧
      (xid = 0 → a.retired % xactListLen = 0 ∧ a.retired = a.begun)
  | .commitTxn _ _ => True
  | .row _ _ sent => sent = true → outputFormat ≠ .undefined
  | .deliver r => r.index < a.envelopes.length ∧ (r.err = false ∨ errorPolicy = .log)

instance Tracker.Upstream.decidable (a : Tracker) : (e : Event) → Decidable (Upstream a e)
  | .beginTxn _ => inferInstanceAs (Decidable (0 < a.begun → _))
  | .commitTxn _ _ => inferInstanceAs (Decidable (_ ∧ _ ∧ _))
  | .row _ _ _ => inferInstanceAs (Decidable (_ ∧ _))
  | .deliver _ => inferInstanceAs (Decidable True)

instance Enabled.decidable (outputFormat : OutputFormat) (errorPolicy : ErrorPolicy)
    (a : Tracker) : (e : Event) → Decidable (Enabled outputFormat errorPolicy a e)
  | .beginTxn _ => inferInstanceAs (Decidable (_ ∧ _))
  | .commitTxn _ _ => inferInstanceAs (Decidable True)
  | .row _ _ _ => inferInstanceAs (Decidable (_ → _))
  | .deliver _ => inferInstanceAs (Decidable (_ ∧ _))

section

variable {s : ProducerContext} {a : Tracker}

/-- The producer takes an event the upstream promises exactly when the event is enabled. -/
theorem step_iff_enabled (hr : Refines s a) (hi : Inv a) {e : Event} (hup : Upstream a e) :
    (∃ s', step s e = some s') ↔ Enabled s.outputFormat s.errorPolicy a e := by
  have hlen := hr.length_eq hi.toCore
  have hle := hi.retired_le
  have hcap := hi.capacity
  cases e with
  | beginTxn xid =>
      have ht := congrArg Fin.val hr.tail_eq
      rw [slotOf_val] at ht
      constructor
      · rintro ⟨s', hs⟩
        obtain ⟨h0, hfull, -⟩ := step_beginTxn.1 hs
        rw [xactListFull, beq_eq_false_iff_ne, hlen] at hfull
        refine ⟨by omega, fun hx => ?_⟩
        obtain ⟨htail, hemp⟩ := h0 hx
        rw [xactListEmpty_iff, hlen] at hemp
        exact ⟨by omega, by omega⟩
      · rintro ⟨hroom, h0⟩
        refine ⟨_, step_beginTxn.2 ⟨fun hx => ?_, ?_, rfl⟩⟩
        · obtain ⟨h1, h2⟩ := h0 hx
          rw [xactListEmpty_iff, hlen]
          exact ⟨by omega, by omega⟩
        · rw [xactListFull, beq_eq_false_iff_ne, hlen]
          omega
  | commitTxn walPos xid =>
      obtain ⟨hB, -, hxid⟩ := hup
      have hrec := hr.slot_eq hi.toCore (k := a.begun - 1) (by omega) (.inr (by omega))
      simp only [step_commitTxn, exists_eq_right, Enabled, iff_true]
      rw [hr.head_eq_slotOf hB, hrec, hxid]
  | row walPos relid sent => simp only [step_row, exists_eq_right, Enabled]
  | deliver r =>
      have hlen' := congrArg List.length hr.inFlight_eq
      simp only [List.length_map] at hlen'
      constructor
      · rintro ⟨s', hs⟩
        obtain ⟨envelope, henv, herr, -⟩ := step_deliver.1 hs
        exact ⟨by have := (List.getElem?_eq_some_iff.1 henv).1; omega, herr⟩
      · rintro ⟨hi, herr⟩
        exact ⟨_, step_deliver.2 ⟨_, List.getElem?_eq_getElem (by omega), herr, rfl⟩⟩

end

/-- The tracker after a sequence of events. -/
def Tracker.run (a : Tracker) (es : List Event) : Tracker := es.foldl Tracker.step a

/-- The tracker admits a sequence of events: each is one the upstream promises, satisfies `P`,
and is enabled for a producer with the given output format and error policy. -/
def Admits (P : Tracker → Event → Prop) (outputFormat : OutputFormat)
    (errorPolicy : ErrorPolicy) : Tracker → List Event → Prop
  | _, [] => True
  | a, e :: es => Upstream a e ∧ P a e ∧ Enabled outputFormat errorPolicy a e ∧
      Admits P outputFormat errorPolicy (a.step e) es

instance Admits.decidable (P : Tracker → Event → Prop) [∀ a e, Decidable (P a e)]
    (outputFormat : OutputFormat) (errorPolicy : ErrorPolicy) :
    (a : Tracker) → (es : List Event) → Decidable (Admits P outputFormat errorPolicy a es)
  | _, [] => inferInstanceAs (Decidable True)
  | a, e :: es =>
    have := Admits.decidable P outputFormat errorPolicy (a.step e) es
    inferInstanceAs (Decidable (_ ∧ _ ∧ _ ∧ _))

/-- A sequence of events the tracker admits is a run of the producer, which keeps its output
format and error policy. -/
theorem Reachable.run_admits {P : Tracker → Event → Prop} {fsyncLsn : Nat}
    {takingSnapshot : Bool} : ∀ {s : ProducerContext} {a : Tracker} (es : List Event),
    Reachable P fsyncLsn takingSnapshot s a → Admits P s.outputFormat s.errorPolicy a es →
      ∃ s', run s es = some s' ∧ Reachable P fsyncLsn takingSnapshot s' (a.run es) ∧
        s'.outputFormat = s.outputFormat ∧ s'.errorPolicy = s.errorPolicy
  | s, a, [], h, _ => ⟨s, rfl, h, rfl, rfl⟩
  | s, a, e :: es, h, ⟨hup, hp, hen, hes⟩ => by
      obtain ⟨hi, hr⟩ := h.inv_refines
      obtain ⟨s1, h1⟩ := (step_iff_enabled hr hi hup).2 hen
      obtain ⟨hfmt, hpol⟩ := step_config h1
      rw [← hfmt, ← hpol] at hes
      obtain ⟨s', hrun, hreach, hfmt', hpol'⟩ := Reachable.run_admits es (h.step hup hp h1) hes
      exact ⟨s', run_cons_eq h1 hrun, hreach, hfmt'.trans hfmt, hpol'.trans hpol⟩

theorem Reachable.length_eq {P : Tracker → Event → Prop} {fsyncLsn : Nat}
    {takingSnapshot : Bool} {s : ProducerContext} {a : Tracker}
    (h : Reachable P fsyncLsn takingSnapshot s a) : xactListLength s = a.begun - a.retired :=
  h.inv_refines.2.length_eq h.inv_refines.1.toCore

theorem Reachable.mono {P Q : Tracker → Event → Prop} (hPQ : ∀ a e, P a e → Q a e)
    {fsyncLsn : Nat} {takingSnapshot : Bool} {s : ProducerContext} {a : Tracker}
    (h : Reachable P fsyncLsn takingSnapshot s a) : Reachable Q fsyncLsn takingSnapshot s a := by
  induction h with
  | init outputFormat errorPolicy => exact .init outputFormat errorPolicy
  | step _ hup hp hs ih => exact ih.step hup (hPQ _ _ hp) hs

/-- `n` transactions without rows, each committed at once; the `k`-th has xid and commit
position `k`. -/
def rowlessTxns : Nat → List Event
  | 0 => []
  | n + 1 => rowlessTxns n ++ [.beginTxn (n + 1), .commitTxn (n + 1) (n + 1)]

theorem Tracker.run_append (a : Tracker) (es es' : List Event) :
    a.run (es ++ es') = (a.run es).run es' :=
  List.foldl_append _ _ _ _

theorem Tracker.run_rowless {a : Tracker} (hR : a.retired = a.begun) {x : Nat} (hx : 0 < x) :
    (a.run [.beginTxn x, .commitTxn x x]).begun = a.begun + 1 ∧
      (a.run [.beginTxn x, .commitTxn x x]).retired = a.begun + 1 ∧
      ((a.run [.beginTxn x, .commitTxn x x]).txns a.begun).committed = true := by
  have hroom : a.begun - a.retired < xactListLen - 1 := by
    rw [hR, Nat.sub_self, xactListLen_eq]; decide
  simp only [Tracker.run, List.foldl, Tracker.step, if_pos hroom]
  refine ⟨by simp, ?_, by simp [commitAt]⟩
  rw [checkpoint_retired, if_pos (by simp; omega)]
  simp [popCount, queued, hR, checkpointable, commitAt, fresh, hx]

/-- From a reachable state with an empty buffer whose last transaction has committed, `n`
transactions without rows run one after another, each retired at its commit. -/
theorem Reachable.rowless_run {fsyncLsn : Nat} {takingSnapshot : Bool} (n : Nat) :
    ∀ {s : ProducerContext} {a : Tracker},
      Reachable (fun _ _ => True) fsyncLsn takingSnapshot s a → a.retired = a.begun →
      (0 < a.begun → (a.txns (a.begun - 1)).committed = true) →
      ∃ s', run s (rowlessTxns n) = some s' ∧
        Reachable (fun _ _ => True) fsyncLsn takingSnapshot s' (a.run (rowlessTxns n)) ∧
        (a.run (rowlessTxns n)).begun = a.begun + n ∧
        (a.run (rowlessTxns n)).retired = a.begun + n ∧
        (0 < a.begun + n → ((a.run (rowlessTxns n)).txns (a.begun + n - 1)).committed = true) ∧
        s'.outputFormat = s.outputFormat ∧ s'.errorPolicy = s.errorPolicy := by
  induction n with
  | zero => intro s a h hR hc; exact ⟨s, rfl, h, rfl, hR, hc, rfl, rfl⟩
  | succ n ih =>
      intro s a h hR hc
      obtain ⟨s1, hrun, hs, hB, hR1, hc1, hfmt, hpol⟩ := ih h hR hc
      obtain ⟨hB', hR', hc'⟩ := (a.run (rowlessTxns n)).run_rowless (hR1.trans hB.symm)
        (Nat.succ_pos n)
      have hroom : (a.run (rowlessTxns n)).begun - (a.run (rowlessTxns n)).retired <
          xactListLen - 1 := by
        rw [hR1, hB, Nat.sub_self, xactListLen_eq]; decide
      have hadm : Admits (fun _ _ => True) s1.outputFormat s1.errorPolicy (a.run (rowlessTxns n))
          [.beginTxn (n + 1), .commitTxn (n + 1) (n + 1)] := by
        refine ⟨fun h0 => ?_, trivial, ⟨hroom, fun h => absurd h (Nat.succ_ne_zero n)⟩, ?_,
          trivial, trivial, trivial⟩
        · rw [hB] at h0 ⊢; exact hc1 h0
        · simp only [Tracker.step, if_pos hroom, Upstream, push_begun, push_txns,
            Nat.add_sub_cancel, if_true]
          exact ⟨Nat.succ_pos _, rfl, rfl⟩
      obtain ⟨s', hrun', hs', hfmt', hpol'⟩ := hs.run_admits _ hadm
      rw [rowlessTxns, Tracker.run_append]
      refine ⟨s', by rw [run_append, hrun]; exact hrun', hs', by rw [hB', hB]; omega,
        by rw [hR', hB]; omega, fun _ => ?_, hfmt'.trans hfmt, hpol'.trans hpol⟩
      rw [show a.begun + (n + 1) - 1 = (a.run (rowlessTxns n)).begun by rw [hB]; omega]
      exact hc'

/-- Every row's message is handed to librdkafka. -/
def SendsSucceed : Event → Prop
  | .row _ _ sent => sent = true
  | _ => True

/-- The first transaction, and only it, is the snapshot. -/
def SnapshotFirst (a : Tracker) : Event → Prop
  | .beginTxn xid => (xid = 0 ↔ a.begun = 0)
  | _ => True

/-- Commit positions are positive. -/
def PositiveCommit : Event → Prop
  | .commitTxn walPos _ => 0 < walPos
  | _ => True

instance SendsSucceed.decidable : (e : Event) → Decidable (SendsSucceed e)
  | .row _ _ _ => inferInstanceAs (Decidable (_ = _))
  | .beginTxn _ | .commitTxn _ _ | .deliver _ => inferInstanceAs (Decidable True)

instance SnapshotFirst.decidable (a : Tracker) : (e : Event) → Decidable (SnapshotFirst a e)
  | .beginTxn _ => inferInstanceAs (Decidable (_ ↔ _))
  | .commitTxn _ _ | .row _ _ _ | .deliver _ => inferInstanceAs (Decidable True)

instance PositiveCommit.decidable : (e : Event) → Decidable (PositiveCommit e)
  | .commitTxn _ _ => inferInstanceAs (Decidable (_ < _))
  | .beginTxn _ | .row _ _ _ | .deliver _ => inferInstanceAs (Decidable True)

/-- While the snapshot is the only transaction begun, its rows are handed to librdkafka and its
commit position is positive. -/
def SnapshotSent (a : Tracker) (e : Event) : Prop :=
  a.begun ≤ 1 → PositiveCommit e ∧ SendsSucceed e

instance SnapshotSent.decidable (a : Tracker) (e : Event) : Decidable (SnapshotSent a e) :=
  inferInstanceAs (Decidable (_ → _ ∧ _))

/-- A property of every transaction begun, kept by the events that satisfy `P`: `fresh` gives it
at a begin, and a row, a commit and a delivery report keep it. -/
theorem Reachable.txns_forall {P : Tracker → Event → Prop} {fsyncLsn : Nat}
    {takingSnapshot : Bool} (Q : Nat → Txn → Prop)
    (hbegin : ∀ a xid, P a (.beginTxn xid) → Q a.begun (fresh xid))
    (hrow : ∀ a walPos relid sent t, P a (.row walPos relid sent) → Q (a.begun - 1) t →
      Q (a.begun - 1) (sendRow sent t))
    (hcommit : ∀ a walPos xid t, P a (.commitTxn walPos xid) → Q (a.begun - 1) t →
      Q (a.begun - 1) (commitAt walPos t))
    (hdeliver : ∀ k t, Q k t → Q k (deliverOne t)) {s : ProducerContext} {a : Tracker}
    (h : Reachable P fsyncLsn takingSnapshot s a) : ∀ k < a.begun, Q k (a.txns k) := by
  induction h with
  | init => intro k hk; exact absurd hk (Nat.not_lt_zero k)
  | @step s a e s' _ _ hp _ ih =>
      intro k hk
      cases e with
      | beginTxn xid =>
          simp only [Tracker.step] at hk ⊢
          split_ifs at hk ⊢ with hroom
          · simp only [push_begun, push_txns] at hk ⊢
            split_ifs with hkB
            · subst hkB; exact hbegin a xid hp
            · exact ih k (by omega)
          · exact ih k hk
      | commitTxn walPos xid =>
          simp only [Tracker.step, checkpoint_begun, checkpoint_txns, modify_begun,
            modify_txns] at hk ⊢
          split_ifs with hkB
          · subst hkB; exact hcommit a walPos xid _ hp (ih _ hk)
          · exact ih k hk
      | row walPos relid sent =>
          simp only [Tracker.step, recordRow_begun, recordRow_txns] at hk ⊢
          split_ifs with hkB
          · subst hkB; exact hrow a walPos relid sent _ hp (ih _ hk)
          · exact ih k hk
      | deliver r =>
          simp only [Tracker.step] at hk ⊢
          cases hE : a.envelopes[r.index]? with
          | none =>
              simp only [hE] at hk ⊢
              exact ih k hk
          | some j =>
              simp only [hE, checkpoint_begun, checkpoint_txns, acknowledge_begun,
                acknowledge_txns] at hk ⊢
              split_ifs with hkj
              · subst hkj; exact hdeliver _ _ (ih _ hk)
              · exact ih k hk

theorem Reachable.sent_positive {fsyncLsn : Nat} {takingSnapshot : Bool} {s : ProducerContext}
    {a : Tracker}
    (h : Reachable (fun _ e => PositiveCommit e ∧ SendsSucceed e) fsyncLsn takingSnapshot s a) :
    ∀ k < a.begun, (a.txns k).failed = 0 ∧
      ((a.txns k).committed = true → 0 < (a.txns k).info.commitLsn) :=
  h.txns_forall (fun _ t => t.failed = 0 ∧ (t.committed = true → 0 < t.info.commitLsn))
    (fun _ _ _ => ⟨rfl, fun hc => absurd hc (by simp [fresh])⟩)
    (fun _ _ _ _ _ hp ht => by cases hp.2; simpa [sendRow] using ht)
    (fun _ _ _ _ hp ht => ⟨ht.1, fun _ => hp.1⟩) (fun _ _ ht => ht)

end BottledWater
