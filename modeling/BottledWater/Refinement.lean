import BottledWater.Invariant

/-! The circular buffer refines the tracker's queue. `Refines s a` says where each transaction of
the queue sits in the buffer: the tail is the slot of the first queued transaction, the slot after
the head is where the next one goes, a slot written within the last `XACT_LIST_LEN` begins holds
the record of the transaction begun into it, a slot never written still holds the zero record of
`init_producer`, each envelope points at the slot of its transaction, and the checkpoint position
and the snapshot flag agree. Every step of the producer that the upstream allows takes a refined
pair to a refined pair (`refines_step`): on the buffer `maybe_checkpoint` walks slots, on the queue
`Tracker.checkpoint` pops transactions (`refines_checkpoint`). `Reachable` pairs every state a run
of the producer reaches with the tracker of the same events. -/

namespace BottledWater

open Tracker

/-- The slot `on_begin_txn` writes the `k`-th transaction into. -/
def slotOf (k : Nat) : Fin xactListLen := ⟨k % xactListLen, Nat.mod_lt _ xactListLen_pos⟩

theorem slotOf_val (k : Nat) : (slotOf k).val = k % xactListLen := rfl

theorem nextSlot_slotOf (k : Nat) : nextSlot (slotOf k) = slotOf (k + 1) :=
  Fin.ext (by simp only [nextSlot_val, slotOf_val, Nat.mod_add_mod])

theorem slotOf_eq_iff {j k : Nat} (hjk : j < k + xactListLen) (hkj : k < j + xactListLen) :
    slotOf j = slotOf k ↔ j = k := by
  refine ⟨fun h => ?_, fun h => h ▸ rfl⟩
  have := congrArg Fin.val h
  simp only [slotOf_val, xactListLen_eq] at this hjk hkj
  omega

theorem map_eraseIdx {α β : Type} (f : α → β) :
    ∀ (l : List α) (i : Nat), (l.eraseIdx i).map f = (l.map f).eraseIdx i
  | [], _ => rfl
  | _ :: _, 0 => rfl
  | x :: l, i + 1 => by simp [map_eraseIdx f l i]

/-- The buffer holds the records of the last `XACT_LIST_LEN` transactions begun, and the zero
record where nothing was ever written. -/
structure SlotsHold (xs : Fin xactListLen → TransactionInfo) (begun : Nat) (txns : Nat → Txn) :
    Prop where
  written : ∀ k < begun, begun ≤ k + xactListLen → xs (slotOf k) = (txns k).info
  unwritten : ∀ j : Fin xactListLen, begun ≤ j.val → xs j = TransactionInfo.zero

section Slots

variable {xs : Fin xactListLen → TransactionInfo} {begun : Nat} {txns : Nat → Txn}

theorem SlotsHold.update (h : SlotsHold xs begun txns) {k : Nat} (hk : k < begun)
    (hkN : begun ≤ k + xactListLen) (t : Txn) :
    SlotsHold (Function.update xs (slotOf k) t.info) begun (Function.update txns k t) where
  written := fun j hj hjN => by
    by_cases hjk : j = k
    · subst hjk; simp
    · have hne : slotOf j ≠ slotOf k := fun he => hjk ((slotOf_eq_iff (by omega) (by omega)).1 he)
      simp [Function.update_noteq hne, Function.update_noteq hjk, h.written j hj hjN]
  unwritten := fun j hj => by
    have hne : j ≠ slotOf k := fun he => by
      have := Nat.mod_le k xactListLen
      rw [he, slotOf_val] at hj
      omega
    rw [Function.update_noteq hne]
    exact h.unwritten j hj

theorem SlotsHold.push (h : SlotsHold xs begun txns) (t : Txn) :
    SlotsHold (Function.update xs (slotOf begun) t.info) (begun + 1)
      (Function.update txns begun t) where
  written := fun j hj hjN => by
    by_cases hjk : j = begun
    · subst hjk; simp
    · have hne : slotOf j ≠ slotOf begun :=
        fun he => hjk ((slotOf_eq_iff (by omega) (by omega)).1 he)
      simp [Function.update_noteq hne, Function.update_noteq hjk, h.written j (by omega) (by omega)]
  unwritten := fun j hj => by
    have hne : j ≠ slotOf begun := fun he => by
      have := Nat.mod_le begun xactListLen
      rw [he, slotOf_val] at hj
      omega
    rw [Function.update_noteq hne]
    exact h.unwritten j (by omega)

end Slots

/-- The buffer `s` stands for the queue `a`. -/
structure Refines (s : ProducerContext) (a : Tracker) : Prop where
  tail_eq : s.xactTail = slotOf a.retired
  head_eq : nextSlot s.xactHead = slotOf a.begun
  slots : SlotsHold s.xactList a.begun a.txns
  inFlight_eq : s.inFlight.map (·.xact) = a.envelopes.map slotOf
  fsyncLsn_eq : s.fsyncLsn = a.fsyncLsn
  takingSnapshot_eq : s.takingSnapshot = a.takingSnapshot

theorem refines_init (fsyncLsn : Nat) (takingSnapshot : Bool) (outputFormat : OutputFormat)
    (errorPolicy : ErrorPolicy) :
    Refines (initProducer fsyncLsn takingSnapshot outputFormat errorPolicy)
      (init fsyncLsn takingSnapshot) where
  tail_eq := rfl
  head_eq := Fin.ext (by simp only [nextSlot_val, slotOf_val, initProducer, init, xactListLen_eq])
  slots := ⟨fun k hk => absurd hk (Nat.not_lt_zero k), fun _ _ => rfl⟩
  inFlight_eq := rfl
  fsyncLsn_eq := rfl
  takingSnapshot_eq := rfl

section

variable {s : ProducerContext} {a : Tracker}

theorem Refines.slotAt_eq (hr : Refines s a) (i : Nat) : slotAt s i = slotOf (a.retired + i) :=
  Fin.ext (by rw [slotAt_val, hr.tail_eq, slotOf_val, slotOf_val, Nat.mod_add_mod])

theorem Refines.length_eq (hr : Refines s a) (hc : Core a) :
    xactListLength s = a.begun - a.retired := by
  have hh := congrArg Fin.val hr.head_eq
  have ht := congrArg Fin.val hr.tail_eq
  have hhead := s.xactHead.isLt
  have hle := hc.retired_le
  have hcap := hc.capacity
  simp only [nextSlot_val, slotOf_val, xactListLength, xactListLen_eq] at hh ht hhead hcap ⊢
  omega

theorem Refines.head_eq_slotOf (hr : Refines s a) (hB : 0 < a.begun) :
    s.xactHead = slotOf (a.begun - 1) := by
  have hh := congrArg Fin.val hr.head_eq
  have hhead := s.xactHead.isLt
  apply Fin.ext
  simp only [nextSlot_val, slotOf_val, xactListLen_eq] at hh hhead ⊢
  omega

theorem Refines.slot_eq (hr : Refines s a) (hc : Core a) {k : Nat} (hk : k < a.begun)
    (hR : a.retired ≤ k ∨ k + 1 = a.begun) : s.xactList (slotOf k) = (a.txns k).info :=
  hr.slots.written k hk (by have := hc.capacity; rw [xactListLen_eq] at this ⊢; omega)

theorem Refines.envelope_xact (hr : Refines s a) {i : Nat} {envelope : MsgEnvelope}
    (henv : s.inFlight[i]? = some envelope) :
    ∃ k, a.envelopes[i]? = some k ∧ envelope.xact = slotOf k := by
  have hmap := congrArg (·[i]?) hr.inFlight_eq
  simp only [List.getElem?_map, henv, Option.map_some'] at hmap
  cases hE : a.envelopes[i]? with
  | none => simp [hE] at hmap
  | some k => exact ⟨k, rfl, by simpa [hE] using hmap⟩

theorem Refines.queued_eq (hr : Refines s a) (hc : Core a) {i : Nat}
    (hi : i < a.begun - a.retired) : s.xactList (slotAt s i) = a.queued i := by
  rw [hr.slotAt_eq]
  exact hr.slot_eq hc (by omega) (.inl (Nat.le_add_right _ _))

theorem Refines.stale_eq (hr : Refines s a) (hR : a.retired = a.begun) {i : Nat}
    (hi : i < xactListLen) : s.xactList (slotAt s i) = a.stale i := by
  rw [hr.slotAt_eq, hR, stale]
  split_ifs with hlt
  · exact hr.slots.unwritten _ (by rw [slotOf_val, Nat.mod_eq_of_lt hlt]; omega)
  · have hslot : slotOf (a.begun + i) = slotOf (a.begun + i - xactListLen) :=
      Fin.ext (by
        simp only [slotOf_val]
        rw [xactListLen_eq] at hlt hi ⊢
        omega)
    rw [hslot]
    exact hr.slots.written _ (by omega) (by omega)

/-- `p` passes of the loop body over slots that hold `rec` are `retireRecords rec p`. -/
theorem Refines.retire (hr : Refines s a) {rec : Nat → TransactionInfo} {p : Nat}
    (hrec : ∀ m < p, s.xactList (slotAt s m) = rec m) {retired : Nat}
    (htail : slotAt s p = slotOf retired) :
    Refines (retireTail^[p] s) { retireRecords rec p a with retired := retired } where
  tail_eq := by rw [retireTail_iterate_xactTail]; exact htail
  head_eq := by rw [retireTail_iterate_xactHead]; exact hr.head_eq
  slots := by rw [retireTail_iterate_xactList]; exact hr.slots
  inFlight_eq := by rw [retireTail_iterate_inFlight]; exact hr.inFlight_eq
  fsyncLsn_eq := by
    rw [retireTail_iterate]
    simp only [retireRecords_fsyncLsn]
    split_ifs with hp
    · exact hr.fsyncLsn_eq
    · rw [hrec _ (by omega)]
  takingSnapshot_eq := by
    rw [retireTail_iterate]
    simp only [retireRecords_takingSnapshot, hr.takingSnapshot_eq]
    congr 1
    exact Bool.eq_iff_iff.2 (by
      simp only [List.all_eq_true, List.mem_range]
      exact forall₂_congr fun m hm => by rw [hrec m hm])

/-- `maybe_checkpoint` on the buffer is `Tracker.checkpoint` on the queue. -/
theorem refines_checkpoint (hr : Refines s a) (hc : Core a) :
    Refines (maybeCheckpoint s) (checkpoint a) := by
  obtain ⟨p, hpb, hall, hstop, heq⟩ := maybeCheckpoint_spec s
  have hlen := hr.length_eq hc
  rw [heq, checkpoint_eq]
  split_ifs with hlt hcs
  · have hb : checkpointBound s = a.begun - a.retired := by
      rw [checkpointBound, hlen, if_neg (by omega)]
    rw [hb] at hpb hstop
    have hp : popCount (fun i => checkpointable (a.queued i)) (a.begun - a.retired) = p :=
      popCount_eq hpb (fun m hm => hr.queued_eq hc (i := m) (by omega) ▸ hall m hm)
        (fun h => hr.queued_eq hc h ▸ hstop h)
    rw [hp]
    exact hr.retire (fun m hm => hr.queued_eq hc (by omega)) (hr.slotAt_eq p)
  · have hR : a.retired = a.begun := by have := hc.retired_le; omega
    have hb : checkpointBound s = xactListLen := by rw [checkpointBound, hlen, if_pos (by omega)]
    rw [hb] at hpb hstop
    have hp : p = xactListLen := by
      by_contra hne
      have h := hstop (by omega)
      rw [hr.stale_eq hR (by omega)] at h
      by_cases hm : p < xactListLen - 1
      · rw [hc.stale_checkpointable hR hm] at h; cases h
      · rw [show p = xactListLen - 1 by omega, hcs] at h; cases h
    subst hp
    exact hr.retire (fun m hm => hr.stale_eq hR hm)
      (by rw [hr.slotAt_eq, hR]; exact Fin.ext (by simp only [slotOf_val, Nat.add_sub_cancel,
        Nat.add_mod_right]))
  · have hR : a.retired = a.begun := by have := hc.retired_le; omega
    have hB : 0 < a.begun := by
      by_contra h0
      have : a.stale (xactListLen - 1) = TransactionInfo.zero := by
        rw [stale, if_pos (by rw [xactListLen_eq]; omega)]
      rw [this, checkpointable_zero] at hcs
      exact hcs rfl
    have hb : checkpointBound s = xactListLen := by rw [checkpointBound, hlen, if_pos (by omega)]
    rw [hb] at hpb hstop
    have hp : p = xactListLen - 1 := by
      rcases Nat.lt_or_ge p (xactListLen - 1) with hm | hm
      · have h := hstop (by omega)
        rw [hr.stale_eq hR (by omega), hc.stale_checkpointable hR hm] at h
        cases h
      · by_contra hne
        have h := hall (xactListLen - 1) (by omega)
        rw [hr.stale_eq hR (by rw [xactListLen_eq]; omega)] at h
        exact hcs h
    subst hp
    exact hr.retire (fun m hm => hr.stale_eq hR (by omega))
      (by
        rw [hr.slotAt_eq, hR]
        exact Fin.ext (by simp only [slotOf_val]; rw [xactListLen_eq]; omega))

theorem refines_beginTxn (hr : Refines s a) (hc : Core a) {xid : Nat} {s' : ProducerContext}
    (hs : step s (.beginTxn xid) = some s') : Refines s' (a.step (.beginTxn xid)) := by
  obtain ⟨-, hfull, rfl⟩ := step_beginTxn.1 hs
  have hroom : a.begun - a.retired < xactListLen - 1 := by
    have := hc.capacity
    rw [xactListFull, beq_eq_false_iff_ne, hr.length_eq hc] at hfull
    omega
  simp only [Tracker.step, if_pos hroom]
  refine ⟨hr.tail_eq, ?_, ?_, hr.inFlight_eq, hr.fsyncLsn_eq, hr.takingSnapshot_eq⟩
  · show nextSlot (nextSlot s.xactHead) = slotOf (a.begun + 1)
    rw [hr.head_eq, nextSlot_slotOf]
  · show SlotsHold (Function.update s.xactList (nextSlot s.xactHead) (fresh xid).info)
      (a.begun + 1) (Function.update a.txns a.begun (fresh xid))
    rw [hr.head_eq]
    exact hr.slots.push (fresh xid)

theorem refines_commitTxn (hr : Refines s a) (hc : Core a) (hB : 0 < a.begun)
    {walPos xid : Nat} {s' : ProducerContext} (hs : step s (.commitTxn walPos xid) = some s') :
    Refines s' (a.step (.commitTxn walPos xid)) := by
  obtain ⟨-, rfl⟩ := step_commitTxn.1 hs
  apply refines_checkpoint _ (hc.commitLast walPos)
  have hhead := hr.head_eq_slotOf hB
  have hrec := hr.slot_eq hc (k := a.begun - 1) (by omega) (.inr (by omega))
  refine ⟨hr.tail_eq, hr.head_eq, ?_, hr.inFlight_eq, hr.fsyncLsn_eq, hr.takingSnapshot_eq⟩
  show SlotsHold (Function.update s.xactList s.xactHead
      { s.xactList s.xactHead with commitLsn := walPos }) a.begun
    (Function.update a.txns (a.begun - 1) (commitAt walPos (a.txns (a.begun - 1))))
  rw [hhead, hrec]
  exact hr.slots.update (by omega) (by have := xactListLen_pos; omega)
    (commitAt walPos (a.txns (a.begun - 1)))

theorem refines_row (hr : Refines s a) (hc : Core a) (hB : 0 < a.begun)
    {walPos relid : Nat} {sent : Bool} {s' : ProducerContext}
    (hs : step s (.row walPos relid sent) = some s') :
    Refines s' (a.step (.row walPos relid sent)) := by
  obtain ⟨-, rfl⟩ := step_row.1 hs
  have hhead := hr.head_eq_slotOf hB
  have hrec := hr.slot_eq hc (k := a.begun - 1) (by omega) (.inr (by omega))
  have hslots : SlotsHold (bumpHead s).xactList a.begun (recordRow sent a).txns := by
    show SlotsHold (Function.update s.xactList s.xactHead
        { s.xactList s.xactHead with
          recvdEvents := (s.xactList s.xactHead).recvdEvents + 1
          pendingEvents := (s.xactList s.xactHead).pendingEvents + 1 }) a.begun
      (Function.update a.txns (a.begun - 1) (sendRow sent (a.txns (a.begun - 1))))
    rw [hhead, hrec]
    exact hr.slots.update (by omega) (by have := xactListLen_pos; omega)
      (sendRow sent (a.txns (a.begun - 1)))
  cases sent
  · exact ⟨hr.tail_eq, hr.head_eq, hslots, hr.inFlight_eq, hr.fsyncLsn_eq, hr.takingSnapshot_eq⟩
  · refine ⟨hr.tail_eq, hr.head_eq, hslots, ?_, hr.fsyncLsn_eq, hr.takingSnapshot_eq⟩
    simp [Tracker.step, enqueue, bumpHead, hr.inFlight_eq, hhead]

theorem refines_deliver (hr : Refines s a) (hc : Core a) {r : DeliveryReport}
    {s' : ProducerContext} (hs : step s (.deliver r) = some s') :
    Refines s' (a.step (.deliver r)) := by
  obtain ⟨envelope, henv, -, rfl⟩ := step_deliver.1 hs
  have hmap := congrArg (·[r.index]?) hr.inFlight_eq
  simp only [List.getElem?_map, henv, Option.map_some'] at hmap
  obtain ⟨k, hk, hxk⟩ : ∃ k, a.envelopes[r.index]? = some k ∧ envelope.xact = slotOf k := by
    cases hE : a.envelopes[r.index]? with
    | none => simp [hE] at hmap
    | some k => exact ⟨k, rfl, by simpa [hE] using hmap⟩
  simp only [Tracker.step, hk]
  apply refines_checkpoint _ (hc.acknowledge hk)
  obtain ⟨hkB, hlive⟩ := hc.envelope_live k (List.getElem?_mem hk)
  have hrec := hr.slot_eq hc hkB hlive
  refine ⟨hr.tail_eq, hr.head_eq, ?_, ?_, hr.fsyncLsn_eq, hr.takingSnapshot_eq⟩
  · show SlotsHold (Function.update s.xactList envelope.xact
        { s.xactList envelope.xact with
          pendingEvents := (s.xactList envelope.xact).pendingEvents - 1 }) a.begun
      (Function.update a.txns k (deliverOne (a.txns k)))
    rw [hxk, hrec]
    exact hr.slots.update hkB (by have := hc.capacity; rw [xactListLen_eq] at this ⊢; omega)
      (deliverOne (a.txns k))
  · show (s.inFlight.eraseIdx r.index).map (·.xact) = (a.envelopes.eraseIdx r.index).map slotOf
    rw [map_eraseIdx, map_eraseIdx, hr.inFlight_eq]

/-- One step of the producer and the same event on the tracker keep the refinement. -/
theorem refines_step (hr : Refines s a) (hi : Inv a) {e : Event} (hup : Upstream a e)
    {s' : ProducerContext} (hs : step s e = some s') : Refines s' (a.step e) := by
  cases e with
  | beginTxn xid => exact refines_beginTxn hr hi.toCore hs
  | commitTxn walPos xid => exact refines_commitTxn hr hi.toCore hup.1 hs
  | row walPos relid sent => exact refines_row hr hi.toCore hup.1 hs
  | deliver r => exact refines_deliver hr hi.toCore hs

end

/-- The states a run of the producer reaches from `init_producer`, each with the tracker of the
same events; every event is one the upstream promises, and satisfies `P`. -/
inductive Reachable (P : Tracker → Event → Prop) (fsyncLsn : Nat) (takingSnapshot : Bool) :
    ProducerContext → Tracker → Prop
  | init (outputFormat : OutputFormat) (errorPolicy : ErrorPolicy) :
      Reachable P fsyncLsn takingSnapshot
        (initProducer fsyncLsn takingSnapshot outputFormat errorPolicy)
        (Tracker.init fsyncLsn takingSnapshot)
  | step {s : ProducerContext} {a : Tracker} {e : Event} {s' : ProducerContext} :
      Reachable P fsyncLsn takingSnapshot s a → Upstream a e → P a e → step s e = some s' →
      Reachable P fsyncLsn takingSnapshot s' (a.step e)

/-- Along every run the tracker keeps its invariant and the buffer refines it. -/
theorem Reachable.inv_refines {P : Tracker → Event → Prop} {fsyncLsn : Nat}
    {takingSnapshot : Bool} {s : ProducerContext} {a : Tracker}
    (h : Reachable P fsyncLsn takingSnapshot s a) : Inv a ∧ Refines s a := by
  induction h with
  | init outputFormat errorPolicy =>
      exact ⟨init_inv _ _, refines_init _ _ outputFormat errorPolicy⟩
  | step _ hup _ hs ih => exact ⟨ih.1.step hup, refines_step ih.2 ih.1 hup hs⟩

end BottledWater
