import BottledWater.Producer
import Mathlib.Logic.Function.Iterate

/-! `maybe_checkpoint`: the `while` loop that retires slots from the tail of the circular buffer
while the tail slot is checkpointable, setting `fsync_lsn` to each retired slot's commit position,
and stops early when the buffer has become empty. The loop is modelled with a bound on its
iterations; `maybeCheckpoint_loop_bound` shows that `XACT_LIST_LEN` iterations always suffice,
so the bound never cuts the loop short. Every run of the loop is `retireTail` iterated: the
number of iterations is the count of leading checkpointable slots, capped at the buffer length,
or at `XACT_LIST_LEN` when the loop is entered on an empty buffer and walks the stale slots. -/

namespace BottledWater

/-- The snapshot transaction after its commit: the slot whose retirement clears
`taking_snapshot`. -/
def committedSnapshot (xact : TransactionInfo) : Bool :=
  xact.xid == 0 && decide (0 < xact.commitLsn)

/-- One pass of the loop body on the slot at `xact_tail`. -/
def retireTail (s : ProducerContext) : ProducerContext :=
  let xact := s.xactList s.xactTail
  { s with
    fsyncLsn := xact.commitLsn
    takingSnapshot := if committedSnapshot xact then false else s.takingSnapshot
    xactTail := nextSlot s.xactTail }

/-- The `while` loop of `maybe_checkpoint` for at most `fuel` tests of its condition; `none` if it
has not exited by then. -/
def checkpointLoop : Nat → ProducerContext → Option ProducerContext
  | 0, _ => none
  | fuel + 1, s =>
    if checkpointable (s.xactList s.xactTail) then
      let s' := retireTail s
      if xactListEmpty s' then some s' else checkpointLoop fuel s'
    else some s

/-- `maybe_checkpoint`. -/
def maybeCheckpoint (s : ProducerContext) : ProducerContext :=
  (checkpointLoop xactListLen s).getD s

/-- The most slots one call of the loop can retire: the buffer length, or every slot when the
buffer is empty on entry. -/
def checkpointBound (s : ProducerContext) : Nat :=
  if xactListLength s = 0 then xactListLen else xactListLength s

theorem slotAt_zero (s : ProducerContext) : slotAt s 0 = s.xactTail :=
  Fin.ext (Nat.mod_eq_of_lt s.xactTail.isLt)

theorem slotAt_xactListLength (s : ProducerContext) :
    slotAt s (xactListLength s) = nextSlot s.xactHead := by
  have hh := s.xactHead.isLt
  have ht := s.xactTail.isLt
  apply Fin.ext
  simp only [slotAt_val, nextSlot_val, xactListLength, xactListLen_eq] at hh ht ⊢
  omega

/-- Every field but the three the loop body writes is left alone, and those three have closed
forms after `k` passes. -/
theorem retireTail_iterate (k : Nat) (s : ProducerContext) :
    retireTail^[k] s = { s with
      fsyncLsn := if k = 0 then s.fsyncLsn else (s.xactList (slotAt s (k - 1))).commitLsn
      takingSnapshot := s.takingSnapshot &&
        (List.range k).all fun m => !committedSnapshot (s.xactList (slotAt s m))
      xactTail := slotAt s k } := by
  induction k with
  | zero => simp [slotAt_zero]
  | succ k ih =>
      rw [Function.iterate_succ_apply', ih]
      have htail : nextSlot (slotAt s k) = slotAt s (k + 1) := by
        apply Fin.ext
        simp only [nextSlot_val, slotAt_val, xactListLen_eq]
        omega
      simp only [retireTail, htail, List.range_succ, List.all_append, List.all_cons,
        List.all_nil, Bool.and_true, Nat.add_sub_cancel, Nat.succ_ne_zero, if_false]
      cases committedSnapshot (s.xactList (slotAt s k)) <;> simp

@[simp] theorem retireTail_iterate_xactList (k : Nat) (s : ProducerContext) :
    (retireTail^[k] s).xactList = s.xactList := by
  rw [retireTail_iterate]

@[simp] theorem retireTail_iterate_xactHead (k : Nat) (s : ProducerContext) :
    (retireTail^[k] s).xactHead = s.xactHead := by
  rw [retireTail_iterate]

@[simp] theorem retireTail_iterate_inFlight (k : Nat) (s : ProducerContext) :
    (retireTail^[k] s).inFlight = s.inFlight := by
  rw [retireTail_iterate]

@[simp] theorem retireTail_iterate_errorPolicy (k : Nat) (s : ProducerContext) :
    (retireTail^[k] s).errorPolicy = s.errorPolicy := by
  rw [retireTail_iterate]

@[simp] theorem retireTail_iterate_outputFormat (k : Nat) (s : ProducerContext) :
    (retireTail^[k] s).outputFormat = s.outputFormat := by
  rw [retireTail_iterate]

theorem retireTail_iterate_xactTail (k : Nat) (s : ProducerContext) :
    (retireTail^[k] s).xactTail = slotAt s k := by
  rw [retireTail_iterate]

/-- `k` passes shorten the buffer by `k`, modulo `XACT_LIST_LEN`: an empty buffer looks full
after one pass. -/
theorem xactListLength_retireTail_iterate {k : Nat} (hk : k ≤ xactListLen) (s : ProducerContext) :
    xactListLength (retireTail^[k] s) = (xactListLength s + xactListLen - k) % xactListLen := by
  have hh := s.xactHead.isLt
  have ht := s.xactTail.isLt
  rw [retireTail_iterate]
  simp only [xactListLength, slotAt_val, xactListLen_eq] at hh ht hk ⊢
  omega

theorem slotAt_retireTail (s : ProducerContext) (m : Nat) :
    slotAt (retireTail s) m = slotAt s (m + 1) := by
  apply Fin.ext
  simp only [slotAt_val, retireTail, nextSlot_val, xactListLen_eq]
  omega

theorem checkpointBound_pos (s : ProducerContext) : 0 < checkpointBound s := by
  unfold checkpointBound
  split
  · exact xactListLen_pos
  · omega

theorem checkpointBound_le (s : ProducerContext) : checkpointBound s ≤ xactListLen := by
  have := xactListLength_lt s
  unfold checkpointBound
  split <;> omega

/-- After one pass on a buffer the loop does not stop at, one pass fewer remains. -/
theorem checkpointBound_retireTail {s : ProducerContext}
    (hne : xactListEmpty (retireTail s) = false) :
    checkpointBound (retireTail s) = checkpointBound s - 1 := by
  have hlen := xactListLength_retireTail_iterate (k := 1) (by decide) s
  have hlt := xactListLength_lt s
  rw [Function.iterate_one] at hlen
  rw [xactListEmpty, beq_eq_false_iff_ne, hlen] at hne
  unfold checkpointBound
  rw [hlen, if_neg hne]
  rw [xactListLen_eq] at hlt hne ⊢
  split <;> omega

/-- The loop retires exactly the leading checkpointable slots, at most `checkpointBound` of them,
whenever it may test its condition that often. -/
theorem checkpointLoop_eq {p : Nat} : ∀ {s : ProducerContext} {fuel : Nat},
    p ≤ checkpointBound s → checkpointBound s ≤ fuel →
    (∀ m < p, checkpointable (s.xactList (slotAt s m)) = true) →
    (p < checkpointBound s → checkpointable (s.xactList (slotAt s p)) = false) →
    checkpointLoop fuel s = some (retireTail^[p] s) := by
  induction p with
  | zero =>
      intro s fuel _ hfuel _ hstop
      have hpos := checkpointBound_pos s
      obtain ⟨fuel, rfl⟩ : ∃ f, fuel = f + 1 := ⟨fuel - 1, by omega⟩
      have hfail := hstop hpos
      rw [slotAt_zero] at hfail
      simp [checkpointLoop, hfail]
  | succ p ih =>
      intro s fuel hp hfuel hret hstop
      obtain ⟨fuel, rfl⟩ : ∃ f, fuel = f + 1 := ⟨fuel - 1, by omega⟩
      have htail := hret 0 (Nat.succ_pos p)
      rw [slotAt_zero] at htail
      rw [checkpointLoop, if_pos htail, Function.iterate_succ_apply]
      cases hempty : xactListEmpty (retireTail s) with
      | true =>
          have hlen := xactListLength_retireTail_iterate (k := 1) (by decide) s
          have hlt := xactListLength_lt s
          rw [Function.iterate_one, xactListEmpty_iff.1 hempty] at hlen
          have hone : xactListLength s = 1 := by rw [xactListLen_eq] at hlt hlen; omega
          have hp0 : p = 0 := by simp [checkpointBound, hone] at hp; omega
          subst hp0
          simp only [hempty, if_true, Function.iterate_zero, id]
      | false =>
          have hb := checkpointBound_retireTail hempty
          simp only [hempty, Bool.false_eq_true, if_false]
          refine @ih (retireTail s) fuel (by omega) (by omega) (fun m hm => ?_)
            (fun hm => ?_)
          · rw [slotAt_retireTail]
            exact hret (m + 1) (by omega)
          · rw [slotAt_retireTail]
            exact hstop (by omega)

private theorem exists_first_false (q : Nat → Bool) (b : Nat) :
    ∃ p ≤ b, (∀ m < p, q m = true) ∧ (p < b → q p = false) := by
  induction b with
  | zero => exact ⟨0, le_rfl, fun _ h => absurd h (Nat.not_lt_zero _), fun h => absurd h (by omega)⟩
  | succ b ih =>
      obtain ⟨p, hp, hall, hstop⟩ := ih
      by_cases hpb : p < b
      · exact ⟨p, by omega, hall, fun _ => hstop hpb⟩
      · have hpb : p = b := by omega
        subst hpb
        cases hq : q p with
        | false => exact ⟨p, by omega, hall, fun _ => hq⟩
        | true =>
            refine ⟨p + 1, le_rfl, fun m hm => ?_, fun h => absurd h (by omega)⟩
            rcases Nat.lt_succ_iff_lt_or_eq.1 hm with hm | rfl
            · exact hall m hm
            · exact hq

/-- Spec of `maybe_checkpoint`: it is `retireTail` iterated over the leading checkpointable slots,
at most `checkpointBound` of them. -/
theorem maybeCheckpoint_spec (s : ProducerContext) :
    ∃ p ≤ checkpointBound s, (∀ m < p, checkpointable (s.xactList (slotAt s m)) = true) ∧
      (p < checkpointBound s → checkpointable (s.xactList (slotAt s p)) = false) ∧
      maybeCheckpoint s = retireTail^[p] s := by
  obtain ⟨p, hp, hret, hstop⟩ :=
    exists_first_false (fun m => checkpointable (s.xactList (slotAt s m))) (checkpointBound s)
  refine ⟨p, hp, hret, hstop, ?_⟩
  rw [maybeCheckpoint, checkpointLoop_eq hp (checkpointBound_le s) hret hstop]
  rfl

/-- More tests of its condition never change what the loop returns. -/
theorem checkpointLoop_fuel_mono {n m : Nat} (hle : n ≤ m) {s s' : ProducerContext}
    (h : checkpointLoop n s = some s') : checkpointLoop m s = some s' := by
  induction n generalizing m s with
  | zero => cases h
  | succ n ih =>
      obtain ⟨m, rfl⟩ : ∃ m', m = m' + 1 := ⟨m - 1, by omega⟩
      simp only [checkpointLoop] at h ⊢
      split_ifs at h ⊢
      · exact h
      · exact ih (by omega) h
      · exact h

/-- The loop of `maybe_checkpoint` exits within `XACT_LIST_LEN` tests of its condition, whatever
the slots hold; on a non-empty buffer it exits within `xact_list_length` tests, having retired the
leading checkpointable slots and stopped at the first one that is not, or at `xact_head + 1`, and
that is what `maybe_checkpoint` leaves. -/
theorem maybeCheckpoint_loop_bound (s : ProducerContext) :
    (checkpointLoop xactListLen s).isSome = true ∧
    (0 < xactListLength s → ∃ p ≤ xactListLength s,
      checkpointLoop (xactListLength s) s = some (retireTail^[p] s) ∧
      maybeCheckpoint s = retireTail^[p] s ∧
      (retireTail^[p] s).xactTail = slotAt s p ∧
      (∀ m < p, checkpointable (s.xactList (slotAt s m)) = true) ∧
      (p < xactListLength s → checkpointable (s.xactList (slotAt s p)) = false)) := by
  obtain ⟨p, hp, hret, hstop⟩ :=
    exists_first_false (fun m => checkpointable (s.xactList (slotAt s m))) (checkpointBound s)
  refine ⟨by rw [checkpointLoop_eq hp (checkpointBound_le s) hret hstop]; rfl, fun hpos => ?_⟩
  have hb : checkpointBound s = xactListLength s := by
    simp only [checkpointBound]
    exact if_neg (Nat.pos_iff_ne_zero.1 hpos)
  rw [hb] at hp hstop
  have hloop : checkpointLoop (xactListLength s) s = some (retireTail^[p] s) :=
    checkpointLoop_eq (by omega) (by omega) hret (by rwa [hb])
  refine ⟨p, hp, hloop, ?_, retireTail_iterate_xactTail p s, hret, hstop⟩
  rw [maybeCheckpoint, checkpointLoop_fuel_mono (xactListLength_lt s).le hloop]
  rfl

end BottledWater
