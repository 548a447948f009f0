import BottledWater.Tracker

/-! The tracker's invariant. `Core` is what every change of a transaction keeps: the queue's
bounds, that a message librdkafka holds belongs to a live transaction, that a transaction's
pending count is its messages in flight plus its failed sends, and that the retired transactions
are checkpointable. `Inv` adds what each run of `maybe_checkpoint` leaves behind: a retired most
recent transaction is checkpointable or is the open snapshot, and the front of the queue is not
checkpointable unless it has not committed yet. Every event the upstream promises keeps `Inv`
(`Inv.step`). -/

namespace BottledWater

namespace Tracker

/-- What every change of a transaction keeps, checkpointing included. -/
structure Core (a : Tracker) : Prop where
  /-- Retirement never passes the most recently begun transaction. -/
  retired_le : a.retired ≤ a.begun
  /-- The queue never holds more than `XACT_LIST_LEN - 1` transactions. -/
  capacity : a.begun ≤ a.retired + (xactListLen - 1)
  /-- A message librdkafka holds belongs to a queued transaction or to the most recent one. -/
  envelope_live : ∀ k ∈ a.envelopes, k < a.begun ∧ (a.retired ≤ k ∨ k + 1 = a.begun)
  /-- A transaction's pending count is its messages in librdkafka plus its failed sends. -/
  pending_eq : ∀ k < a.begun,
    (a.txns k).info.pendingEvents = (a.envelopes.count k : Int) + (a.txns k).failed
  /-- A transaction has no commit position before its commit event. -/
  uncommitted_lsn : ∀ k < a.begun, (a.txns k).committed = false → (a.txns k).info.commitLsn = 0
  /-- Every transaction but the most recent has committed. -/
  committed_of_lt : ∀ k, k + 1 < a.begun → (a.txns k).committed = true
  /-- A retired transaction other than the most recent is checkpointable. -/
  retired_checkpointable : ∀ k < a.retired, k + 1 < a.begun →
    checkpointable (a.txns k).info = true

/-- The invariant: `Core`, and what the last run of `maybe_checkpoint` left. -/
structure Inv (a : Tracker) extends Core a : Prop where
  /-- A retired most recent transaction is checkpointable, or is an open snapshot. -/
  last_retired : a.retired = a.begun → 0 < a.begun →
    checkpointable (a.txns (a.begun - 1)).info = true ∨
      ((a.txns (a.begun - 1)).committed = false ∧ (a.txns (a.begun - 1)).info.xid = 0)
  /-- The front of the queue is not checkpointable, unless it has not committed yet. -/
  front_blocked : a.retired < a.begun → checkpointable (a.txns a.retired).info = true →
    (a.txns a.retired).committed = false

theorem count_eraseIdx {l : List Nat} {i k : Nat} (h : l[i]? = some k) (j : Nat) :
    l.count j = (l.eraseIdx i).count j + if k = j then 1 else 0 := by
  obtain ⟨hi, rfl⟩ := List.getElem?_eq_some_iff.1 h
  conv_lhs => rw [← List.take_append_drop i l, List.drop_eq_getElem_cons hi]
  rw [List.eraseIdx_eq_take_drop_succ, List.count_append, List.count_append, List.count_cons]
  split_ifs <;> simp_all
  omega

theorem init_inv (fsyncLsn : Nat) (takingSnapshot : Bool) : Inv (init fsyncLsn takingSnapshot) where
  retired_le := le_rfl
  capacity := Nat.zero_le _
  envelope_live := by simp [init]
  pending_eq := by simp [init]
  uncommitted_lsn := by simp [init]
  committed_of_lt := by simp [init]
  retired_checkpointable := by simp [init]
  last_retired := by simp [init]
  front_blocked := by simp [init]

section

variable {a : Tracker}

theorem Core.pending_nonneg (h : Core a) {k : Nat} (hk : k < a.begun) :
    0 ≤ (a.txns k).info.pendingEvents := by
  rw [h.pending_eq k hk]
  omega

theorem Core.not_mem_of_checkpointable (h : Core a) {k : Nat} (hk : k < a.begun)
    (hc : checkpointable (a.txns k).info = true) : k ∉ a.envelopes := by
  have hp := (checkpointable_iff.1 hc).1
  have hcount := h.pending_eq k hk
  rw [hp] at hcount
  have : a.envelopes.count k = 0 := by omega
  exact List.count_eq_zero.1 this

theorem checkpoint_retired_le (h : a.retired ≤ a.begun) : (checkpoint a).retired ≤ a.begun := by
  have := popCount_le (fun i => checkpointable (a.queued i)) (a.begun - a.retired)
  rw [checkpoint_retired]
  split_ifs <;> omega

theorem checkpoint_popped {k : Nat} (hR : a.retired ≤ k) (hk : k < (checkpoint a).retired) :
    checkpointable (a.txns k).info = true := by
  rw [checkpoint_retired] at hk
  split_ifs at hk
  · have := (popCount_spec (fun i => checkpointable (a.queued i)) (a.begun - a.retired)).1
      (k - a.retired) (by omega)
    rwa [queued, Nat.add_sub_cancel' hR] at this
  · omega
  · omega

theorem stale_last (a : Tracker) (hB : 0 < a.begun) :
    a.stale (xactListLen - 1) = (a.txns (a.begun - 1)).info := by
  have h : a.begun + (xactListLen - 1) - xactListLen = a.begun - 1 := by
    rw [xactListLen_eq]; omega
  rw [stale, if_neg (by rw [xactListLen_eq]; omega), h]

theorem Core.stale_checkpointable (h : Core a) (hR : a.retired = a.begun) {m : Nat}
    (hm : m < xactListLen - 1) : checkpointable (a.stale m) = true := by
  unfold stale
  split_ifs with hlt
  · exact checkpointable_zero
  · exact h.retired_checkpointable _ (by omega) (by omega)

theorem checkpoint_front (hlt : (checkpoint a).retired < a.begun) :
    checkpointable (a.txns (checkpoint a).retired).info = false := by
  rw [checkpoint_retired] at hlt ⊢
  split_ifs at hlt ⊢ with h1 h2
  · exact (popCount_spec (fun i => checkpointable (a.queued i)) (a.begun - a.retired)).2
      (by omega)
  · omega
  · rw [stale_last a (by omega)] at h2
    simpa using h2

theorem checkpoint_last (hB : 0 < a.begun) (heq : (checkpoint a).retired = a.begun) :
    checkpointable (a.txns (a.begun - 1)).info = true := by
  rw [checkpoint_retired] at heq
  split_ifs at heq with h1 h2
  · have := (popCount_spec (fun i => checkpointable (a.queued i)) (a.begun - a.retired)).1
      (a.begun - 1 - a.retired) (by omega)
    rwa [queued, show a.retired + (a.begun - 1 - a.retired) = a.begun - 1 by omega] at this
  · rwa [stale_last a hB] at h2
  · omega

theorem checkpoint_capacity (h : Core a) :
    a.begun ≤ (checkpoint a).retired + (xactListLen - 1) := by
  have := h.capacity
  rw [checkpoint_retired]
  split_ifs <;> rw [xactListLen_eq] at this ⊢ <;> omega

/-- Checkpointing establishes the invariant. -/
theorem Core.checkpoint (h : Core a) : Inv (checkpoint a) where
  retired_le := by simpa using checkpoint_retired_le h.retired_le
  capacity := by simpa using checkpoint_capacity h
  envelope_live := by
    intro k hk
    simp only [checkpoint_envelopes, checkpoint_begun] at hk ⊢
    obtain ⟨hkB, hlive⟩ := h.envelope_live k hk
    refine ⟨hkB, ?_⟩
    by_contra hne
    have hpop := checkpoint_popped (a := a) (k := k) (by omega) (by omega)
    exact h.not_mem_of_checkpointable hkB hpop hk
  pending_eq := by simpa using h.pending_eq
  uncommitted_lsn := by simpa using h.uncommitted_lsn
  committed_of_lt := by simpa using h.committed_of_lt
  retired_checkpointable := by
    intro k hk hkB
    simp only [checkpoint_txns, checkpoint_begun] at hkB ⊢
    by_cases hkR : k < a.retired
    · exact h.retired_checkpointable k hkR hkB
    · exact checkpoint_popped (by omega) hk
  last_retired := by
    intro heq hB
    simp only [checkpoint_txns, checkpoint_begun] at heq hB ⊢
    exact .inl (checkpoint_last hB heq)
  front_blocked := by
    intro hlt hc
    simp only [checkpoint_txns, checkpoint_begun] at hlt hc
    rw [checkpoint_front hlt] at hc
    cases hc

theorem Inv.beginTxn (h : Inv a) {xid : Nat} (hup : Upstream a (.beginTxn xid)) :
    Inv (a.step (.beginTxn xid)) := by
  simp only [step]
  split_ifs with hroom
  swap
  · exact h
  have hcomm : 0 < a.begun → (a.txns (a.begun - 1)).committed = true := hup
  have hprev : a.retired = a.begun → 0 < a.begun →
      checkpointable (a.txns (a.begun - 1)).info = true := fun hR hB => by
    rcases h.last_retired hR hB with hc | ⟨hc, -⟩
    · exact hc
    · rw [hcomm hB] at hc; cases hc
  have hcap := h.capacity
  have hle := h.retired_le
  refine ⟨⟨?_, ?_, ?_, ?_, ?_, ?_, ?_⟩, ?_, ?_⟩ <;>
    simp only [push_begun, push_retired, push_envelopes, push_txns]
  · omega
  · omega
  · intro k hk
    obtain ⟨hkB, hlive⟩ := h.envelope_live k hk
    refine ⟨by omega, ?_⟩
    rcases hlive with hR | hlast
    · exact .inl hR
    · by_contra hne
      exact h.not_mem_of_checkpointable hkB
        (by rw [show k = a.begun - 1 by omega]; exact hprev (by omega) (by omega)) hk
  · intro k hk
    split_ifs with hkB
    · have : a.envelopes.count k = 0 :=
        List.count_eq_zero.2 fun hm => by have := (h.envelope_live k hm).1; omega
      simp [fresh, this]
    · exact h.pending_eq k (by omega)
  · intro k hk
    split_ifs with hkB
    · simp [fresh]
    · exact h.uncommitted_lsn k (by omega)
  · intro k hk
    rw [if_neg (by omega)]
    by_cases hk' : k + 1 < a.begun
    · exact h.committed_of_lt k hk'
    · rw [show k = a.begun - 1 by omega]; exact hcomm (by omega)
  · intro k hk hkB
    rw [if_neg (by omega)]
    by_cases hk' : k + 1 < a.begun
    · exact h.retired_checkpointable k hk hk'
    · rw [show k = a.begun - 1 by omega]; exact hprev (by omega) (by omega)
  · intro heq; omega
  · intro hlt hc
    split_ifs at hc ⊢ with hR
    · rfl
    have hRB : a.retired < a.begun := by omega
    have hc' : (a.txns a.retired).committed = true := by
      by_cases hk' : a.retired + 1 < a.begun
      · exact h.committed_of_lt _ hk'
      · rw [show a.retired = a.begun - 1 by omega]; exact hcomm (by omega)
    rw [h.front_blocked hRB hc] at hc'
    cases hc'

theorem Inv.recordRow (h : Inv a) {walPos relid : Nat} {sent : Bool}
    (hup : Upstream a (.row walPos relid sent)) : Inv (a.step (.row walPos relid sent)) := by
  obtain ⟨hB, hopen⟩ : 0 < a.begun ∧ (a.txns (a.begun - 1)).committed = false := hup
  simp only [step]
  refine ⟨⟨?_, ?_, ?_, ?_, ?_, ?_, ?_⟩, ?_, ?_⟩ <;>
    simp only [recordRow_begun, recordRow_retired, recordRow_envelopes, recordRow_txns]
  · exact h.retired_le
  · exact h.capacity
  · intro k hk
    split_ifs at hk
    · rcases List.mem_append.1 hk with hk | hk
      · exact h.envelope_live k hk
      · rw [List.mem_singleton.1 hk]; omega
    · exact h.envelope_live k hk
  · intro k hk
    have hp := h.pending_eq k hk
    by_cases hk1 : k = a.begun - 1
    · subst hk1
      cases sent <;> simp [sendRow, List.count_append, hp] <;> omega
    · cases sent <;> simp [hk1, List.count_append, List.count_singleton, hp, Ne.symm hk1]
  · intro k hk
    split_ifs
    · simpa [sendRow] using h.uncommitted_lsn _ (by omega)
    · exact h.uncommitted_lsn k hk
  · intro k hk
    rw [if_neg (by omega)]
    exact h.committed_of_lt k hk
  · intro k hk hkB
    rw [if_neg (by omega)]
    exact h.retired_checkpointable k hk hkB
  · intro hR _
    refine .inr ⟨hopen, ?_⟩
    rcases h.last_retired hR hB with hc | ⟨-, hx⟩
    · have hlsn := h.uncommitted_lsn _ (by omega) hopen
      simpa [hlsn] using (checkpointable_iff.1 hc).2
    · exact hx
  · intro hlt hc
    split_ifs at hc ⊢ with hR
    · have hp := h.toCore.pending_nonneg (k := a.begun - 1) (by omega)
      have := (checkpointable_iff.1 hc).1
      simp only [sendRow] at this
      omega
    · exact h.front_blocked hlt hc

theorem Core.commitLast (h : Core a) (walPos : Nat) :
    Core (modify (a.begun - 1) (commitAt walPos) a) where
  retired_le := h.retired_le
  capacity := h.capacity
  envelope_live := h.envelope_live
  pending_eq := fun k hk => by
    simp only [modify_txns, modify_envelopes]
    split_ifs with hk1
    · subst hk1; exact h.pending_eq _ hk
    · exact h.pending_eq k hk
  uncommitted_lsn := fun k hk => by
    simp only [modify_txns]
    split_ifs with hk1
    · simp [commitAt]
    · exact h.uncommitted_lsn k hk
  committed_of_lt := fun k hk => by
    simp only [modify_txns, modify_begun] at hk ⊢
    rw [if_neg (by omega)]
    exact h.committed_of_lt k hk
  retired_checkpointable := fun k hk hkB => by
    simp only [modify_txns, modify_begun] at hkB ⊢
    rw [if_neg (by omega)]
    exact h.retired_checkpointable k hk hkB

theorem Core.acknowledge (h : Core a) {i k : Nat} (hk : a.envelopes[i]? = some k) :
    Core (acknowledge i k a) where
  retired_le := h.retired_le
  capacity := h.capacity
  envelope_live := fun j hj => h.envelope_live j (List.mem_of_mem_eraseIdx hj)
  pending_eq := fun j hj => by
    have hcount := count_eraseIdx hk j
    have hp := h.pending_eq j hj
    simp only [acknowledge_txns, acknowledge_envelopes]
    by_cases hjk : j = k
    · subst hjk
      simp only [if_true, deliverOne] at hcount ⊢
      omega
    · simp only [if_neg hjk, if_neg (Ne.symm hjk), Nat.add_zero] at hcount ⊢
      rw [hp, hcount]
  uncommitted_lsn := fun j hj => by
    simp only [acknowledge_txns]
    split_ifs with hj1
    · subst hj1; exact h.uncommitted_lsn _ hj
    · exact h.uncommitted_lsn j hj
  committed_of_lt := fun j hj => by
    simp only [acknowledge_txns]
    split_ifs with hj1
    · subst hj1; exact h.committed_of_lt _ hj
    · exact h.committed_of_lt j hj
  retired_checkpointable := fun j hj hjB => by
    have hlive := h.envelope_live k (List.getElem?_mem hk)
    simp only [acknowledge_txns, acknowledge_retired, acknowledge_begun] at hj hjB ⊢
    rw [if_neg (by omega)]
    exact h.retired_checkpointable j hj hjB

/-- Every event the upstream promises keeps the invariant. -/
theorem Inv.step (h : Inv a) {e : Event} (hup : Upstream a e) : Inv (a.step e) := by
  cases e with
  | beginTxn xid => exact h.beginTxn hup
  | commitTxn walPos xid => exact (h.toCore.commitLast walPos).checkpoint
  | row walPos relid sent => exact h.recordRow hup
  | deliver r =>
      simp only [Tracker.step]
      split
      · exact h
      · rename_i k hk
        exact (h.toCore.acknowledge hk).checkpoint

end

end Tracker

end BottledWater
