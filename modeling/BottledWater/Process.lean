import BottledWater.Options
import BottledWater.Run
import Mathlib.Logic.Relation

/-! `main` as a process, and the processes that race on pidfiles. `Phase.step` is `main`'s control
flow one call at a time: parse the options, make `/tmp/bw_<slot>.pid`, start the producer and the
client, then poll until a callback, a failing poll or the end of the stream reaches
`exit_nicely`, the only exit that unlinks the pidfile. Any number of processes run at once over
shared files (`System`). The pidfile is a lock: in every interleaving at most one process holds
it, and it exists while held (`pidfile_mutual_exclusion`). A pidfile with no holder stays
forever and blocks its slot; a failing `start_producer` leaves one (`start_failure_blocks_restart`),
and only it and a `make_pidfile` that fails after creating the file do (`stale_pidfile_sources`).
A running process's producer is reached from `init_producer` with the format and policy its
options chose (`running_configured`). -/

namespace BottledWater

/-- `MAXPGPATH`, PostgreSQL's bound on path lengths and the size of `pidfile`. -/
def maxPgPath : Nat := 1024

/-- The path `make_pidfile` writes into `pidfile`: `snprintf` with `sizeof(pidfile) - 1` keeps at
most `MAXPGPATH - 2` characters. -/
def pidfilePath (slotName : String) : String :=
  ⟨("/tmp/bw_" ++ slotName ++ ".pid").data.take (maxPgPath - 2)⟩

/-- Which calls of `make_pidfile` fail, besides `open` on an existing path: `open` for another
reason, `fdopen`, `flock(LOCK_EX|LOCK_NB)`, `flock(LOCK_UN)` and `chmod`. -/
structure PidfileCalls where
  openFails : Bool
  fdopenFails : Bool
  lockFails : Bool
  unlockFails : Bool
  chmodFails : Bool
  deriving DecidableEq, Repr

/-- `make_pidfile` over the files that exist: its return value and the files after it. `open`
with `O_CREAT|O_EXCL` fails on an existing path and otherwise creates the file; a later failure
returns 1 and leaves the file. -/
def makePidfile (calls : PidfileCalls) (path : String) (files : String → Bool) :
    Int × (String → Bool) :=
  if files path || calls.openFails then (1, files)
  else
    let files := Function.update files path true
    if calls.fdopenFails || calls.lockFails || calls.unlockFails || calls.chmodFails then (1, files)
    else (0, files)

/-- What `start_producer` and `db_client_start` meet: whether `rd_kafka_new` makes a producer,
how many brokers `rd_kafka_brokers_add` adds, and whether `db_client_start` succeeds, with the
`fsync_lsn` and `taking_snapshot` it leaves. -/
structure StartCalls where
  kafkaNew : Bool
  brokersAdded : Nat
  dbStart : Bool
  fsyncLsn : Nat
  takingSnapshot : Bool
  deriving DecidableEq, Repr

/-- Where a process of `main` is: before `parse_options`; with its settings parsed; holding its
pidfile; in the main loop with its producer; or exited, with its status and whether it dropped
the replication slot. -/
inductive Phase
  | init
  | parsed (settings : Settings)
  | locked (settings : Settings)
  | running (settings : Settings) (s : ProducerContext)
  | exited (status : Int) (slotDropped : Bool)

/-- A call a process makes: `parse_options`, `make_pidfile`, `start_producer` with
`db_client_start`, a call into the producer, `on_client_error`, or the end of the main loop, by
an `ensure` on a failing `db_client_poll` or `db_client_wait` or by the end of the stream. -/
inductive Action
  | parseOptions (env : ConfigEnv) (progname : String) (opts : List (LongOption × String))
      (extraArgs : Bool)
  | makePidfile (calls : PidfileCalls)
  | start (calls : StartCalls)
  | call (c : Callback)
  | clientError
  | loopExit (failed : Bool)

def Outcome.erase {α : Type} : Outcome α → Outcome Unit
  | .done _ s => .done () s
  | .exit status s => .exit status s

/-- A call into the producer, exits included; `callback` keeps only the returns. -/
def callOutcome (s : ProducerContext) : Callback → Option (Outcome Unit)
  | .beginTxn polls xid => (onBeginTxn polls xid s).map Outcome.erase
  | .commitTxn walPos xid => some (onCommitTxn walPos xid s).erase
  | .insertRow env walPos relid => (onInsertRow env walPos relid s).map Outcome.erase
  | .updateRow env walPos relid => (onUpdateRow env walPos relid s).map Outcome.erase
  | .deleteRow env walPos relid hasKey =>
    (onDeleteRow env walPos relid hasKey s).map Outcome.erase
  | .keepalive _ => some (.done () s)
  | .poll reports => rdKafkaPoll reports s

/-- `exit_nicely(context, status)` in a process holding the pidfile of `settings`: the
replication slot is dropped if `exitNicelyDropsSlot`, the pidfile is unlinked, and the process
exits. -/
def exitNicely (settings : Settings) (status : Int) (s : ProducerContext)
    (files : String → Bool) : Phase × (String → Bool) :=
  (.exited status (exitNicelyDropsSlot s status),
    Function.update files (pidfilePath settings.slotName) false)

/-- One call of `main`: the phase and the files after it, or `none` if the process does not make
that call in its phase. -/
def Phase.step (files : String → Bool) : Phase → Action → Option (Phase × (String → Bool))
  | .init, .parseOptions env progname opts extraArgs =>
    match parseOptions env progname opts extraArgs with
    | .ok settings => some (.parsed settings, files)
    | .error e => some (.exited e.status false, files)
  | .parsed settings, .makePidfile calls =>
    let (ret, files) := makePidfile calls (pidfilePath settings.slotName) files
    some (if ret = 0 then .locked settings else .exited 1 false, files)
  | .locked settings, .start calls =>
    let s := initProducer calls.fsyncLsn calls.takingSnapshot settings.outputFormat
      settings.errorPolicy
    if !calls.kafkaNew || calls.brokersAdded = 0 then some (.exited 1 false, files)
    else if !calls.dbStart then some (exitNicely settings 1 s files)
    else some (.running settings s, files)
  | .running settings s, .call c =>
    (callOutcome s c).map fun
      | .done _ s => (.running settings s, files)
      | .exit status s => exitNicely settings status s files
  | .running settings s, .clientError =>
    match handleError s with
    | .done _ s => some (.running settings s, files)
    | .exit status s => some (exitNicely settings status s files)
  | .running settings s, .loopExit failed =>
    some (exitNicely settings (if failed then 1 else 0) s files)
  | _, _ => none

/-- The pidfile a process holds: from `make_pidfile` returning 0 until it exits. -/
def Phase.pidfile : Phase → Option String
  | .locked settings | .running settings _ => some (pidfilePath settings.slotName)
  | _ => none

/-- Processes of `main` and the files they share. -/
structure System where
  procs : Nat → Phase
  files : String → Bool

/-- Every process before `parse_options`, over any files. -/
def System.init (files : String → Bool) : System := ⟨fun _ => .init, files⟩

/-- Process `i` makes a call. -/
def System.step (sys : System) (i : Nat) (a : Action) : Option System :=
  (Phase.step sys.files (sys.procs i) a).map fun (phase, files) =>
    ⟨Function.update sys.procs i phase, files⟩

/-- Some process makes a call. -/
def System.Next (sys sys' : System) : Prop := ∃ i a, sys.step i a = some sys'

/-- What some interleaving reaches. -/
def System.Reachable (sys : System) : Prop :=
  ∃ files, Relation.ReflTransGen System.Next (System.init files) sys

/-! ### What a call does to the pidfiles -/

/-- `make_pidfile` leaves the files as they are and returns 1, or creates the absent file and
returns 0 or 1. -/
theorem makePidfile_cases (calls : PidfileCalls) (path : String) (files : String → Bool) :
    makePidfile calls path files = (1, files) ∨
      files path = false ∧ (makePidfile calls path files = (0, Function.update files path true) ∨
        makePidfile calls path files = (1, Function.update files path true)) := by
  unfold makePidfile
  split_ifs with h1 h2
  · exact .inl rfl
  · simp only [Bool.or_eq_true, not_or, Bool.not_eq_true] at h1
    exact .inr ⟨h1.1, .inr rfl⟩
  · simp only [Bool.or_eq_true, not_or, Bool.not_eq_true] at h1
    exact .inr ⟨h1.1, .inl rfl⟩

theorem makePidfile_created_fails {calls : PidfileCalls} {path : String} {files : String → Bool}
    (h : makePidfile calls path files = (1, Function.update files path true))
    (hf : files path = false) :
    calls.openFails = false ∧
      (calls.fdopenFails || calls.lockFails || calls.unlockFails || calls.chmodFails) = true := by
  unfold makePidfile at h
  split_ifs at h with h1 h2
  · have := congrFun (Prod.mk.inj h).2 path
    simp [hf] at this
  · simp only [Bool.or_eq_true, not_or, Bool.not_eq_true] at h1
    exact ⟨h1.2, h2⟩
  · cases (Prod.mk.inj h).1

theorem exitNicely_eq {settings : Settings} {status : Int} {s : ProducerContext}
    {files files' : String → Bool} {ph' : Phase}
    (h : exitNicely settings status s files = (ph', files')) :
    ph'.pidfile = none ∧ files' = Function.update files (pidfilePath settings.slotName) false := by
  simp only [exitNicely, Prod.mk.injEq] at h
  obtain ⟨rfl, rfl⟩ := h
  exact ⟨rfl, rfl⟩

/-- What a call does to the pidfile a process holds and to the files: nothing; `make_pidfile`
creating an absent file, which the process then holds, or not when a call after `open` fails;
or the process letting go of its pidfile, which `exit_nicely` unlinks and which a failing
`start_producer` leaves. -/
theorem Phase.step_files {files files' : String → Bool} {ph ph' : Phase} {a : Action}
    (h : Phase.step files ph a = some (ph', files')) :
    (ph'.pidfile = ph.pidfile ∧ files' = files) ∨
      (∃ p, ph.pidfile = none ∧ files p = false ∧ files' = Function.update files p true ∧
        (ph'.pidfile = some p ∨
          ph'.pidfile = none ∧ ∃ settings calls, ph = .parsed settings ∧ a = .makePidfile calls ∧
            p = pidfilePath settings.slotName ∧ calls.openFails = false ∧
            (calls.fdopenFails || calls.lockFails || calls.unlockFails || calls.chmodFails) =
              true)) ∨
      (∃ p, ph.pidfile = some p ∧ ph'.pidfile = none ∧
        (files' = Function.update files p false ∨
          files' = files ∧ ∃ settings calls, ph = .locked settings ∧ a = .start calls ∧
            p = pidfilePath settings.slotName ∧
            (calls.kafkaNew = false ∨ calls.brokersAdded = 0))) := by
  cases ph <;> cases a <;> simp only [Phase.step, reduceCtorEq] at h
  case init.parseOptions env progname opts extraArgs =>
    left
    split at h <;> simp only [Option.some.injEq, Prod.mk.injEq] at h <;> obtain ⟨rfl, rfl⟩ := h <;>
      exact ⟨rfl, rfl⟩
  case parsed.makePidfile settings calls =>
    rcases makePidfile_cases calls (pidfilePath settings.slotName) files with hm | ⟨hf, hm | hm⟩ <;>
      rw [hm] at h <;> simp only [Option.some.injEq, Prod.mk.injEq] at h <;> obtain ⟨rfl, rfl⟩ := h
    · exact .inl ⟨rfl, rfl⟩
    · exact .inr (.inl ⟨_, rfl, hf, rfl, .inl rfl⟩)
    · exact .inr (.inl ⟨_, rfl, hf, rfl,
        .inr ⟨rfl, settings, calls, rfl, rfl, rfl, makePidfile_created_fails hm hf⟩⟩)
  case locked.start settings calls =>
    split_ifs at h with h1 <;> simp only [Option.some.injEq, Prod.mk.injEq] at h
    · obtain ⟨rfl, rfl⟩ := h
      exact .inr (.inr ⟨_, rfl, rfl, .inr ⟨rfl, settings, calls, rfl, rfl, rfl,
        by simpa [Bool.or_eq_true] using h1⟩⟩)
    · obtain ⟨h1, h2⟩ := exitNicely_eq h
      exact .inr (.inr ⟨_, rfl, h1, .inl h2⟩)
    · obtain ⟨rfl, rfl⟩ := h
      exact .inl ⟨rfl, rfl⟩
  case running.call settings s c =>
    obtain ⟨o, -, ho⟩ := Option.map_eq_some'.1 h
    cases o with
    | done u s' =>
        simp only [Prod.mk.injEq] at ho
        obtain ⟨rfl, rfl⟩ := ho
        exact .inl ⟨rfl, rfl⟩
    | exit status s' =>
        obtain ⟨h1, h2⟩ := exitNicely_eq ho
        exact .inr (.inr ⟨_, rfl, h1, .inl h2⟩)
  case running.clientError settings s =>
    split at h <;> simp only [Option.some.injEq] at h
    · obtain ⟨rfl, rfl⟩ := Prod.mk.injEq _ _ _ _ ▸ h
      exact .inl ⟨rfl, rfl⟩
    · obtain ⟨h1, h2⟩ := exitNicely_eq h
      exact .inr (.inr ⟨_, rfl, h1, .inl h2⟩)
  case running.loopExit settings s failed =>
    obtain ⟨h1, h2⟩ := exitNicely_eq (Option.some.inj h)
    exact .inr (.inr ⟨_, rfl, h1, .inl h2⟩)

theorem System.step_eq {sys sys' : System} {i : Nat} {a : Action} (h : sys.step i a = some sys') :
    ∃ ph' files', Phase.step sys.files (sys.procs i) a = some (ph', files') ∧
      sys' = ⟨Function.update sys.procs i ph', files'⟩ := by
  obtain ⟨⟨ph', files'⟩, h1, rfl⟩ := Option.map_eq_some'.1 h
  exact ⟨ph', files', h1, rfl⟩

theorem System.Reachable.of_next {P : System → Prop} (hinit : ∀ files, P (System.init files))
    (hnext : ∀ sys sys', P sys → sys.Next sys' → P sys') {sys : System} (h : sys.Reachable) :
    P sys := by
  obtain ⟨files, h⟩ := h
  induction h with
  | refl => exact hinit files
  | tail _ hn ih => exact hnext _ _ ih hn

theorem pidfile_update_eq_some {procs : Nat → Phase} {i j : Nat} {ph : Phase} {q : String} :
    (Function.update procs i ph j).pidfile = some q ↔
      (j = i ∧ ph.pidfile = some q) ∨ (j ≠ i ∧ (procs j).pidfile = some q) := by
  by_cases hj : j = i
  · subst hj; simp
  · simp [hj]

/-! ### The pidfile as a lock -/

/-- The lock: a held pidfile exists, and at most one process holds it. -/
structure System.LockInv (sys : System) : Prop where
  held_exists : ∀ i p, (sys.procs i).pidfile = some p → sys.files p = true
  held_unique : ∀ i j p, (sys.procs i).pidfile = some p → (sys.procs j).pidfile = some p → i = j

theorem System.LockInv.init (files : String → Bool) : (System.init files).LockInv where
  held_exists _ _ h := by cases h
  held_unique _ _ _ h := by cases h

theorem System.LockInv.next {sys sys' : System} (hinv : sys.LockInv) (hn : sys.Next sys') :
    sys'.LockInv := by
  obtain ⟨i, a, hs⟩ := hn
  obtain ⟨ph', files', hstep, rfl⟩ := System.step_eq hs
  have held := hinv.held_exists
  have uniq := hinv.held_unique
  rcases Phase.step_files hstep with ⟨hp, rfl⟩ | ⟨p, hnone, hfalse, rfl, hp'⟩ |
      ⟨p, hsome, hp', hfiles⟩
  · have hsame : ∀ j q, (Function.update sys.procs i ph' j).pidfile = some q →
        (sys.procs j).pidfile = some q := by
      intro j q hq
      rcases pidfile_update_eq_some.1 hq with ⟨rfl, h⟩ | ⟨-, h⟩
      · rwa [← hp]
      · exact h
    exact ⟨fun j q hq => held j q (hsame j q hq),
      fun j k q hj hk => uniq j k q (hsame j q hj) (hsame k q hk)⟩
  · have hfree : ∀ j, (sys.procs j).pidfile ≠ some p := fun j hj => by
      rw [held j p hj] at hfalse
      cases hfalse
    have hnew : ∀ j q, (Function.update sys.procs i ph' j).pidfile = some q →
        (j = i ∧ q = p) ∨ (sys.procs j).pidfile = some q := by
      intro j q hq
      rcases pidfile_update_eq_some.1 hq with ⟨hj, h⟩ | ⟨-, h⟩
      · rcases hp' with h' | ⟨h', -⟩ <;> rw [h'] at h <;> cases h
        exact .inl ⟨hj, rfl⟩
      · exact .inr h
    refine ⟨fun j q hq => ?_, fun j k q hj hk => ?_⟩
    · rcases hnew j q hq with ⟨-, rfl⟩ | hq
      · simp
      · by_cases hqp : q = p
        · subst hqp; simp
        · simp [hqp, held j q hq]
    · rcases hnew j q hj with ⟨rfl, hqp⟩ | hj' <;> rcases hnew k q hk with ⟨rfl, hqp'⟩ | hk'
      · rfl
      · exact absurd (hqp ▸ hk') (hfree k)
      · exact absurd (hqp' ▸ hj') (hfree j)
      · exact uniq j k q hj' hk'
  · have hold : ∀ j q, (Function.update sys.procs i ph' j).pidfile = some q →
        j ≠ i ∧ (sys.procs j).pidfile = some q := by
      intro j q hq
      rcases pidfile_update_eq_some.1 hq with ⟨-, h⟩ | h
      · rw [hp'] at h
        cases h
      · exact h
    refine ⟨fun j q hq => ?_, fun j k q hj hk => uniq j k q (hold j q hj).2 (hold k q hk).2⟩
    obtain ⟨hji, hjq⟩ := hold j q hq
    have hqp : q ≠ p := fun hqp => hji (uniq j i q hjq (hqp ▸ hsome))
    rcases hfiles with rfl | ⟨rfl, -⟩
    · simp [hqp, held j q hjq]
    · exact held j q hjq

theorem System.Reachable.lockInv {sys : System} (h : sys.Reachable) : sys.LockInv :=
  h.of_next System.LockInv.init fun _ _ hinv hn => hinv.next hn

/-- Whatever the interleaving, at most one process holds a pidfile, and it exists while held. -/
theorem pidfile_mutual_exclusion {sys : System} (h : sys.Reachable) {i j : Nat} {p : String}
    (hi : (sys.procs i).pidfile = some p) (hj : (sys.procs j).pidfile = some p) :
    i = j ∧ sys.files p = true :=
  ⟨h.lockInv.held_unique i j p hi hj, h.lockInv.held_exists i p hi⟩

theorem pidfile_mutual_exclusion_locked :
    ∃ sys : System, sys.Reachable ∧
      (sys.procs 0).pidfile = some (pidfilePath defaultReplicationSlot) ∧
      0 = 0 ∧ sys.files (pidfilePath defaultReplicationSlot) = true := by
  obtain ⟨sys, hreach, hp⟩ : ∃ sys : System, sys.Reachable ∧
      (sys.procs 0).pidfile = some (pidfilePath defaultReplicationSlot) :=
    ⟨_, ⟨fun _ => false, .tail (.single ⟨0, .parseOptions ⟨fun _ => true, fun _ _ => none,
      fun _ _ => none⟩ "bottledwater" [(.postgres, "dbname=shop")] false, rfl⟩)
      ⟨0, .makePidfile ⟨false, false, false, false, false⟩, rfl⟩⟩, rfl⟩
  exact ⟨sys, hreach, hp, pidfile_mutual_exclusion hreach hp hp⟩

/-! ### Stale pidfiles -/

/-- A pidfile is stale when it exists and no process holds it. -/
def System.Stale (sys : System) (p : String) : Prop :=
  sys.files p = true ∧ ∀ i, (sys.procs i).pidfile ≠ some p

theorem System.Stale.next {sys sys' : System} {p : String} (h : sys.Stale p) (hn : sys.Next sys') :
    sys'.Stale p := by
  obtain ⟨i, a, hs⟩ := hn
  obtain ⟨ph', files', hstep, rfl⟩ := System.step_eq hs
  obtain ⟨hfile, hfree⟩ := h
  have hnew : ∀ j, (Function.update sys.procs i ph' j).pidfile = some p → ph'.pidfile = some p :=
    fun j hj => (pidfile_update_eq_some.1 hj).elim And.right fun h => absurd h.2 (hfree j)
  rcases Phase.step_files hstep with ⟨hp, rfl⟩ | ⟨q, -, hfalse, rfl, hp'⟩ | ⟨q, hsome, hp', hfiles⟩
  · exact ⟨hfile, fun j hj => hfree i (hp ▸ hnew j hj)⟩
  · have hqp : q ≠ p := fun hqp => by rw [hqp, hfile] at hfalse; cases hfalse
    refine ⟨by simp [Ne.symm hqp, hfile], fun j hj => ?_⟩
    rcases hp' with h | ⟨h, -⟩ <;> have := hnew j hj <;> rw [h] at this <;> cases this
    exact hqp rfl
  · have hqp : q ≠ p := fun hqp => hfree i (hqp ▸ hsome)
    refine ⟨by rcases hfiles with rfl | ⟨rfl, -⟩ <;> simp [Ne.symm hqp, hfile], fun j hj => ?_⟩
    have := hnew j hj
    rw [hp'] at this
    cases this

theorem System.Stale.reflTransGen {sys sys' : System} {p : String} (h : sys.Stale p)
    (hn : Relation.ReflTransGen System.Next sys sys') : sys'.Stale p := by
  induction hn with
  | refl => exact h
  | tail _ hn ih => exact ih.next hn

theorem System.Stale.makePidfile_exits {sys sys' : System} {i : Nat} {settings : Settings}
    {calls : PidfileCalls} (h : sys.Stale (pidfilePath settings.slotName))
    (hi : sys.procs i = .parsed settings) (hs : sys.step i (.makePidfile calls) = some sys') :
    sys'.procs i = .exited 1 false := by
  obtain ⟨ph', files', hstep, rfl⟩ := System.step_eq hs
  rw [hi] at hstep
  simp only [Phase.step, makePidfile, h.1, Bool.true_or, if_true, Option.some.injEq,
    Prod.mk.injEq] at hstep
  rw [← hstep.1]
  simp

/-- A `start_producer` that fails exits with status 1 and leaves the pidfile stale. -/
theorem start_failure_stale {sys sys' : System} {i : Nat} {settings : Settings}
    {calls : StartCalls} (hinv : sys.LockInv) (hi : sys.procs i = .locked settings)
    (hfail : calls.kafkaNew = false ∨ calls.brokersAdded = 0)
    (hs : sys.step i (.start calls) = some sys') :
    sys'.procs i = .exited 1 false ∧ sys'.Stale (pidfilePath settings.slotName) := by
  obtain ⟨ph', files', hstep, rfl⟩ := System.step_eq hs
  have hcond : (!calls.kafkaNew || decide (calls.brokersAdded = 0)) = true := by
    rcases hfail with h | h <;> simp [h]
  rw [hi] at hstep
  simp only [Phase.step, hcond, if_true, Option.some.injEq, Prod.mk.injEq] at hstep
  obtain ⟨rfl, rfl⟩ := hstep
  have hheld : (sys.procs i).pidfile = some (pidfilePath settings.slotName) := by rw [hi]; rfl
  refine ⟨by simp, hinv.held_exists i _ hheld, fun j hj => ?_⟩
  rcases pidfile_update_eq_some.1 hj with ⟨-, h⟩ | ⟨hji, h⟩
  · cases h
  · exact hji (hinv.held_unique j i _ h hheld)

/-- A `start_producer` that fails, for a Kafka producer it cannot make or brokers it cannot add,
exits without unlinking the pidfile `make_pidfile` created. Whatever the processes do next, the
file stays, no process holds it, and every process for that slot exits at `make_pidfile` with
status 1. -/
theorem start_failure_blocks_restart {sys sys' : System} {i : Nat} {settings : Settings}
    {calls : StartCalls} (h : sys.Reachable) (hi : sys.procs i = .locked settings)
    (hfail : calls.kafkaNew = false ∨ calls.brokersAdded = 0)
    (hs : sys.step i (.start calls) = some sys') :
    sys'.procs i = .exited 1 false ∧
      ∀ sys'', Relation.ReflTransGen System.Next sys' sys'' →
        sys''.files (pidfilePath settings.slotName) = true ∧
        (∀ j, (sys''.procs j).pidfile ≠ some (pidfilePath settings.slotName)) ∧
        ∀ j settings' calls' sys''', sys''.procs j = .parsed settings' →
          pidfilePath settings'.slotName = pidfilePath settings.slotName →
          sys''.step j (.makePidfile calls') = some sys''' → sys'''.procs j = .exited 1 false := by
  obtain ⟨hexit, hstale⟩ := start_failure_stale h.lockInv hi hfail hs
  refine ⟨hexit, fun sys'' hn => ?_⟩
  have h'' := hstale.reflTransGen hn
  exact ⟨h''.1, h''.2, fun j settings' calls' sys''' hj hp hs' =>
    (hp ▸ h'' : sys''.Stale (pidfilePath settings'.slotName)).makePidfile_exits hj hs'⟩

theorem start_failure_blocks_restart_brokers :
    ∃ (sys sys' : System) (settings : Settings), sys.Reachable ∧ sys.procs 0 = .locked settings ∧
      ((⟨true, 0, true, 0, false⟩ : StartCalls).kafkaNew = false ∨
        (⟨true, 0, true, 0, false⟩ : StartCalls).brokersAdded = 0) ∧
      sys.step 0 (.start ⟨true, 0, true, 0, false⟩) = some sys' ∧
      sys'.procs 0 = .exited 1 false ∧
      ∀ sys'', Relation.ReflTransGen System.Next sys' sys'' →
        sys''.files (pidfilePath settings.slotName) = true ∧
        (∀ j, (sys''.procs j).pidfile ≠ some (pidfilePath settings.slotName)) ∧
        ∀ j settings' calls' sys''', sys''.procs j = .parsed settings' →
          pidfilePath settings'.slotName = pidfilePath settings.slotName →
          sys''.step j (.makePidfile calls') = some sys''' → sys'''.procs j = .exited 1 false := by
  obtain ⟨sys, settings, hreach, hi⟩ : ∃ (sys : System) (settings : Settings), sys.Reachable ∧
      sys.procs 0 = .locked settings :=
    ⟨_, _, ⟨fun _ => false, .tail (.single ⟨0, .parseOptions ⟨fun _ => true, fun _ _ => none,
      fun _ _ => none⟩ "bottledwater" [(.postgres, "dbname=shop")] false, rfl⟩)
      ⟨0, .makePidfile ⟨false, false, false, false, false⟩, rfl⟩⟩, rfl⟩
  obtain ⟨sys', hs⟩ : ∃ sys', sys.step 0 (.start ⟨true, 0, true, 0, false⟩) = some sys' := by
    simp [System.step, hi, Phase.step]
  exact ⟨sys, sys', settings, hreach, hi, .inr rfl, hs,
    start_failure_blocks_restart hreach hi (.inr rfl) hs⟩

/-- The only calls that leave a stale pidfile, whatever the other processes hold: `make_pidfile`
creating the file and then failing at `fdopen`, `flock` or `chmod`, and a failing
`start_producer`, which calls `exit(1)` and not `exit_nicely`. Every other exit of a process
holding a pidfile unlinks it. -/
theorem stale_pidfile_sources {sys sys' : System} {i : Nat} {a : Action}
    (hs : sys.step i a = some sys') {p : String} (hnot : ¬ sys.Stale p) (hst : sys'.Stale p) :
    (∃ settings calls, sys.procs i = .parsed settings ∧ a = .makePidfile calls ∧
        p = pidfilePath settings.slotName ∧ sys.files p = false ∧ calls.openFails = false ∧
        (calls.fdopenFails || calls.lockFails || calls.unlockFails || calls.chmodFails) = true) ∨
      ∃ settings calls, sys.procs i = .locked settings ∧ a = .start calls ∧
        p = pidfilePath settings.slotName ∧ (calls.kafkaNew = false ∨ calls.brokersAdded = 0) := by
  obtain ⟨ph', files', hstep, rfl⟩ := System.step_eq hs
  obtain ⟨hp, hfree⟩ := hst
  change files' p = true at hp
  have hfree' : ph'.pidfile ≠ some p := fun h => hfree i (by simpa using h)
  have hbefore : sys.files p = false ∨ (sys.procs i).pidfile = some p := by
    by_contra hb
    simp only [not_or, Bool.not_eq_false] at hb
    refine hnot ⟨hb.1, fun j hj => ?_⟩
    by_cases hji : j = i
    · exact hb.2 (hji ▸ hj)
    · exact hfree j (by simpa [hji] using hj)
  have hother : files' p = sys.files p → (sys.procs i).pidfile ≠ some p → False := by
    intro hsame hnh
    rcases hbefore with hb | hb
    · rw [hsame, hb] at hp; cases hp
    · exact hnh hb
  rcases Phase.step_files hstep with ⟨h1, rfl⟩ | ⟨q, hnone, hq, rfl, hheld | ⟨-, hmake⟩⟩ |
      ⟨q, hsome, -, rfl | ⟨rfl, hstart⟩⟩
  · exact (hother rfl fun hb => hfree' (h1 ▸ hb)).elim
  · by_cases hpq : p = q
    · exact absurd (hpq ▸ hheld) hfree'
    · exact (hother (Function.update_noteq hpq _ _) (by rw [hnone]; simp)).elim
  · by_cases hpq : p = q
    · obtain ⟨settings, calls, hi, ha, hpath, hopen, hfail⟩ := hmake
      exact .inl ⟨settings, calls, hi, ha, hpq.trans hpath, hpq ▸ hq, hopen, hfail⟩
    · exact (hother (Function.update_noteq hpq _ _) (by rw [hnone]; simp)).elim
  · by_cases hpq : p = q
    · subst hpq; simp at hp
    · exact (hother (Function.update_noteq hpq _ _)
        fun hb => hpq (Option.some.inj (hb.symm.trans hsome))).elim
  · by_cases hpq : p = q
    · obtain ⟨settings, calls, hi, ha, hpath, hfail⟩ := hstart
      exact .inr ⟨settings, calls, hi, ha, hpq.trans hpath, hfail⟩
    · exact (hother rfl fun hb => hpq (Option.some.inj (hb.symm.trans hsome))).elim

/-- `flock` fails after `make_pidfile` created the pidfile of the default slot. -/
theorem stale_pidfile_sources_lock :
    ∃ sys sys' : System, sys.step 0 (.makePidfile ⟨false, false, true, false, false⟩) = some sys' ∧
      ¬ sys.Stale (pidfilePath defaultReplicationSlot) ∧
      sys'.Stale (pidfilePath defaultReplicationSlot) ∧
      ((∃ settings calls, sys.procs 0 = .parsed settings ∧
          Action.makePidfile ⟨false, false, true, false, false⟩ = .makePidfile calls ∧
          pidfilePath defaultReplicationSlot = pidfilePath settings.slotName ∧
          sys.files (pidfilePath defaultReplicationSlot) = false ∧ calls.openFails = false ∧
          (calls.fdopenFails || calls.lockFails || calls.unlockFails || calls.chmodFails) = true) ∨
        ∃ settings calls, sys.procs 0 = .locked settings ∧
          Action.makePidfile ⟨false, false, true, false, false⟩ = .start calls ∧
          pidfilePath defaultReplicationSlot = pidfilePath settings.slotName ∧
          (calls.kafkaNew = false ∨ calls.brokersAdded = 0)) := by
  let sys : System := ⟨fun _ => .parsed initSettings, fun _ => false⟩
  obtain ⟨sys', hs⟩ : ∃ sys', sys.step 0 (.makePidfile ⟨false, false, true, false, false⟩) =
      some sys' := ⟨_, rfl⟩
  have hnot : ¬ sys.Stale (pidfilePath defaultReplicationSlot) := fun h => by cases h.1
  have hst : sys'.Stale (pidfilePath defaultReplicationSlot) := by
    simp only [System.step, Phase.step, makePidfile, Option.map_some', Option.some.injEq] at hs
    subst hs
    refine ⟨by simp [sys, initSettings], fun j hj => ?_⟩
    by_cases hj0 : j = 0
    · subst hj0; cases hj
    · simp [sys, hj0, Phase.pidfile] at hj
  exact ⟨sys, sys', hs, hnot, hst, stale_pidfile_sources hs hnot hst⟩

/-! ### Running processes -/

theorem callOutcome_done {s s' : ProducerContext} {c : Callback} {u : Unit}
    (h : callOutcome s c = some (.done u s')) : callback s c = some s' := by
  have hmap : ∀ {α : Type} {x : Option (Outcome α)}, x.map Outcome.erase = some (.done u s') →
      x.bind Outcome.returned = some s' := fun {α} {x} hx => by
    obtain ⟨o, rfl, ho⟩ := Option.map_eq_some'.1 hx
    cases o with
    | done ret s₁ => cases ho; rfl
    | exit status s₁ => cases ho
  cases c with
  | commitTxn walPos xid =>
      have h' : (some (onCommitTxn walPos xid s)).map Outcome.erase = some (.done u s') := h
      exact hmap h'
  | keepalive _ =>
      simp only [callOutcome, Option.some.injEq, Outcome.done.injEq] at h
      simp [callback, h.2]
  | poll reports =>
      simp only [callOutcome] at h
      simp [callback, h, Outcome.returned]
  | beginTxn polls xid => exact hmap h
  | insertRow env walPos relid => exact hmap h
  | updateRow env walPos relid => exact hmap h
  | deleteRow env walPos relid hasKey => exact hmap h

theorem handleError_done {s s' : ProducerContext} {ret : Int}
    (h : handleError s = .done ret s') : s' = s := by
  unfold handleError at h
  split at h <;> cases h
  rfl

theorem run_config {s s' : ProducerContext} :
    ∀ {es : List Event}, run s es = some s' →
      s'.outputFormat = s.outputFormat ∧ s'.errorPolicy = s.errorPolicy
  | [], h => by cases h; exact ⟨rfl, rfl⟩
  | e :: es, h => by
      obtain ⟨s₁, h₁, h₂⟩ := Option.bind_eq_some.1 h
      obtain ⟨hf, hp⟩ := step_config h₁
      obtain ⟨hf', hp'⟩ := run_config h₂
      exact ⟨hf'.trans hf, hp'.trans hp⟩

/-- What a process's phase carries: settings that are valid once parsed, and in the main loop a
producer that a run of events reaches from `init_producer` with them. -/
def Phase.Configured : Phase → Prop
  | .parsed settings | .locked settings => settings.Valid
  | .running settings s => settings.Valid ∧ ∃ fsyncLsn takingSnapshot es,
      run (initProducer fsyncLsn takingSnapshot settings.outputFormat settings.errorPolicy) es =
        some s
  | _ => True

theorem exitNicely_configured (settings : Settings) (status : Int) (s : ProducerContext)
    (files : String → Bool) : (exitNicely settings status s files).1.Configured := trivial

theorem fst_of_some_eq {x : Phase × (String → Bool)} {ph' : Phase} {files' : String → Bool}
    (h : some x = some (ph', files')) : ph' = x.1 := by
  cases h; rfl

theorem Phase.Configured.step {files files' : String → Bool} {ph ph' : Phase} {a : Action}
    (hc : ph.Configured) (h : Phase.step files ph a = some (ph', files')) : ph'.Configured := by
  cases ph <;> cases a <;> simp only [Phase.step, reduceCtorEq] at h
  case init.parseOptions env progname opts extraArgs =>
    split at h <;> simp only [Option.some.injEq, Prod.mk.injEq] at h <;> obtain ⟨rfl, rfl⟩ := h
    · exact parseOptions_valid ‹_›
    · trivial
  case parsed.makePidfile settings calls =>
    simp only [Option.some.injEq, Prod.mk.injEq] at h
    rw [← h.1]
    split_ifs
    · exact hc
    · trivial
  case locked.start settings calls =>
    split_ifs at h
    · cases h; trivial
    · rw [fst_of_some_eq h]; exact exitNicely_configured ..
    · cases h; exact ⟨hc, _, _, [], rfl⟩
  case running.call settings s c =>
    obtain ⟨o, ho, hph⟩ := Option.map_eq_some'.1 h
    cases o with
    | done u s' =>
        simp only [Prod.mk.injEq] at hph
        rw [← hph.1]
        obtain ⟨hvalid, lsn, snap, es, hrun⟩ := hc
        obtain ⟨es', hrun'⟩ := callback_run (callOutcome_done ho)
        exact ⟨hvalid, lsn, snap, es ++ es', by rw [run_append, hrun, Option.some_bind, hrun']⟩
    | exit status s' => rw [fst_of_some_eq (congrArg some hph)]; exact exitNicely_configured ..
  case running.clientError settings s =>
    split at h
    · rename_i ret s' hh
      cases h
      rw [handleError_done hh]
      exact hc
    · rw [fst_of_some_eq h]; exact exitNicely_configured ..
  case running.loopExit settings s failed =>
    rw [fst_of_some_eq h]; exact exitNicely_configured ..

/-- Every process's phase carries what `Phase.Configured` says. -/
def System.Configured (sys : System) : Prop := ∀ i, (sys.procs i).Configured

theorem System.Configured.next {sys sys' : System} (hc : sys.Configured) (hn : sys.Next sys') :
    sys'.Configured := by
  obtain ⟨i, a, hs⟩ := hn
  obtain ⟨ph', files', hstep, rfl⟩ := System.step_eq hs
  intro j
  by_cases hj : j = i
  · subst hj
    simpa using (hc j).step hstep
  · simpa [hj] using hc j

theorem System.Reachable.configured {sys : System} (h : sys.Reachable) : sys.Configured :=
  h.of_next (fun _ _ => trivial) fun _ _ hc hn => hc.next hn

theorem sendKafkaMsg_of_outputFormat {s : ProducerContext} (hf : s.outputFormat ≠ .undefined)
    (env : SendEnv) (walPos relid : Nat) :
    sendKafkaMsg env walPos relid s =
      if !env.tableFound then some (.done 1 (bumpHead s))
      else if env.encodeErr ≠ 0 then some (.done env.encodeErr (bumpHead s))
      else produceLoop env ⟨walPos, relid, s.xactHead⟩ (bumpHead s) := by
  unfold sendKafkaMsg
  cases hfmt : s.outputFormat
  · exact absurd hfmt hf
  all_goals simp [hfmt]

/-- Whatever the interleaving and whatever the calls meet, a process in the main loop has valid
settings, and its producer is reached from `init_producer` by a run of events, keeping the output
format and error policy of its options; so `send_kafka_msg` never takes its invalid-format exit,
and `handle_error` never its invalid-policy one. -/
theorem running_configured {sys : System} (h : sys.Reachable) {i : Nat} {settings : Settings}
    {s : ProducerContext} (hi : sys.procs i = .running settings s) :
    settings.Valid ∧
      (∃ fsyncLsn takingSnapshot es,
        run (initProducer fsyncLsn takingSnapshot settings.outputFormat settings.errorPolicy) es =
          some s) ∧
      s.outputFormat = settings.outputFormat ∧ s.errorPolicy = settings.errorPolicy ∧
      ∀ env walPos relid, sendKafkaMsg env walPos relid s =
        if !env.tableFound then some (.done 1 (bumpHead s))
        else if env.encodeErr ≠ 0 then some (.done env.encodeErr (bumpHead s))
        else produceLoop env ⟨walPos, relid, s.xactHead⟩ (bumpHead s) := by
  have hc := h.configured i
  rw [hi] at hc
  obtain ⟨hvalid, lsn, snap, es, hrun⟩ := hc
  obtain ⟨hf, hp⟩ := run_config hrun
  exact ⟨hvalid, ⟨lsn, snap, es, hrun⟩, hf, hp,
    sendKafkaMsg_of_outputFormat (hf ▸ hvalid.outputFormat_ne)⟩

theorem running_configured_started :
    ∃ (sys : System) (settings : Settings) (s : ProducerContext), sys.Reachable ∧
      sys.procs 0 = .running settings s ∧
      settings.Valid ∧
      (∃ fsyncLsn takingSnapshot es,
        run (initProducer fsyncLsn takingSnapshot settings.outputFormat settings.errorPolicy) es =
          some s) ∧
      s.outputFormat = settings.outputFormat ∧ s.errorPolicy = settings.errorPolicy ∧
      ∀ env walPos relid, sendKafkaMsg env walPos relid s =
        if !env.tableFound then some (.done 1 (bumpHead s))
        else if env.encodeErr ≠ 0 then some (.done env.encodeErr (bumpHead s))
        else produceLoop env ⟨walPos, relid, s.xactHead⟩ (bumpHead s) := by
  obtain ⟨sys, settings, s, hreach, hi⟩ : ∃ (sys : System) (settings : Settings)
      (s : ProducerContext), sys.Reachable ∧ sys.procs 0 = .running settings s :=
    ⟨_, _, _, ⟨fun _ => false, .tail (.tail (.single ⟨0, .parseOptions ⟨fun _ => true,
      fun _ _ => none, fun _ _ => none⟩ "bottledwater" [(.postgres, "dbname=shop")] false, rfl⟩)
      ⟨0, .makePidfile ⟨false, false, false, false, false⟩, rfl⟩)
      ⟨0, .start ⟨true, 1, true, 0, true⟩, rfl⟩⟩, rfl⟩
  exact ⟨sys, settings, s, hreach, hi, running_configured hreach hi⟩

end BottledWater
