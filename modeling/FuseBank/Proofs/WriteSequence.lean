import FuseBank.Proofs.Handshakes
import FuseBank.Proofs.RawTraffic
import FuseBank.Proofs.VerifiedWrites

/-!
A write on the device gets to the end of its sequence whatever becomes of the word write in it. On any
bus its accesses are those of the word write, then the power-up, the refresh and the wait, and only then
is the result looked at; on the emulated macro the shadow registers therefore show the rows again after
every write (`write_finishes_sequence`).
-/

namespace FuseBank
open Routine Operation

variable {σ α β : Type} {hw : Hardware σ} {s s' s'' : σ}

namespace Routine

/-- A run that gets to its end, with what it returns, what it sends and what it leaves. -/
structure Traces (hw : Hardware σ) (p : Routine α) (s : σ) (a : α) (es : List Event) (s' : σ) :
    Prop where
  result : (run hw p s).result = .ok a
  traffic : (run hw p s).traffic = es
  state : (run hw p s).state = s'

variable {a : α} {b : β} {es fs : List Event}

theorem traces_done (a : α) (s : σ) : Traces hw (done a) s a [] s := ⟨rfl, rfl, rfl⟩

theorem traces_note (level : Log.Level) (source : Log.Source) (message : String) (s : σ) :
    Traces hw (note level source message) s () [] s := ⟨rfl, rfl, rfl⟩

theorem Traces.prepend {p q : Routine α} {earlier : List Event} (rest : Traces hw q s' a es s'')
    (goesOn : run hw p s = (run hw q s').after earlier) :
    Traces hw p s a (earlier.filter Event.isTraffic ++ es) s'' where
  result := by
    rw [goesOn]
    exact rest.result
  traffic := by
    rw [goesOn, Run.traffic_after, rest.traffic]
  state := by
    rw [goesOn]
    exact rest.state

theorem Traces.run_bind {p : Routine α} (h : Traces hw p s a es s') (f : α → Routine β) :
    run hw (p >>= f) s = (run hw (f a) s').after (run hw p s).events := by
  rw [Routine.run_bind, Run.andThen, h.result, h.state]

theorem Traces.bind {p : Routine α} {f : α → Routine β} (hp : Traces hw p s a es s')
    (hf : Traces hw (f a) s' b fs s'') : Traces hw (p >>= f) s b (es ++ fs) s'' := by
  have inTurn := hf.prepend (hp.run_bind f)
  rwa [← Run.traffic, hp.traffic] at inTurn

theorem traces_read {o : Nat} {next : Word → Routine α} {v : Word}
    (answer : (hw.bus.read o s).result = .ok v)
    (rest : Traces hw (next v) (hw.bus.read o s).state a es s') :
    Traces hw (read o next) s a (.read o v :: es) s' := by
  obtain ⟨earlier, sent, goesOn⟩ := run_read_ok answer next
  have inTurn := rest.prepend goesOn
  rwa [sent] at inTurn

theorem traces_write {o : Nat} {v : Word} {next : Routine α}
    (answer : (hw.bus.write o v s).result = .ok ())
    (rest : Traces hw next (hw.bus.write o v s).state a es s') :
    Traces hw (write o v next) s a (.write o v :: es) s' := by
  obtain ⟨earlier, sent, goesOn⟩ := run_write_ok answer next
  have inTurn := rest.prepend goesOn
  rwa [sent] at inTurn

end Routine

namespace Operation

variable {a : α} {es fs : List Event}

theorem traces_lift {p : Routine α} (h : Traces hw p s a es s') :
    Traces hw (liftM p : Operation α).run s (.ok a) es s' := by
  rw [ExceptT.run_liftM, map_eq_pure_bind, ← List.append_nil es]
  exact h.bind (traces_done _ _)

theorem traces_andThen {op : Operation α} {f : α → Operation β} {r : Except DeviceError β}
    (hop : Traces hw op.run s (.ok a) es s') (hf : Traces hw (f a).run s' r fs s'') :
    Traces hw (op >>= f).run s r (es ++ fs) s'' := by
  rw [ExceptT.run_bind]
  exact hop.bind hf

theorem traces_attempt {op : Operation α} {r : Except DeviceError α} (h : Traces hw op.run s r es s') :
    Traces hw (Operation.attempt op).run s (.ok r) es s' :=
  traces_lift h

end Operation

/-- A wait of `polls` status reads at most: it ends with the first that finds the macro idle, or in a
timeout if all of them find it busy. -/
inductive Polled (limit polls : Nat) : List Event → Except DeviceError Unit → Prop where
  | settled (busy : List Event) (last : Event) (few : busy.length < polls)
      (each : ∀ e ∈ busy, e.isBusyPoll) (idle : last.isIdlePoll) :
      Polled limit polls (busy ++ [last]) (.ok ())
  | timedOut (busy : List Event) (all : busy.length = polls) (each : ∀ e ∈ busy, e.isBusyPoll) :
      Polled limit polls busy (.error (.timeout limit))

theorem Polled.cons {limit polls : Nat} {e : Event} (busy : e.isBusyPoll) {es : List Event}
    {outcome : Except DeviceError Unit} (h : Polled limit polls es outcome) :
    Polled limit (polls + 1) (e :: es) outcome := by
  cases h with
  | settled before last few each idle =>
    exact .settled (e :: before) last (Nat.succ_lt_succ few) (List.forall_mem_cons.2 ⟨busy, each⟩) idle
  | timedOut _ all each =>
    exact .timedOut (e :: es) (congrArg Nat.succ all) (List.forall_mem_cons.2 ⟨busy, each⟩)

theorem Controller.poll_polled {limit polls : Nat} {es : List Event} {outcome : Except DeviceError Unit}
    (h : Sends (poll limit polls).run es (some outcome)) : Polled limit polls es outcome := by
  induction polls generalizing es with
  | zero =>
    rw [poll_zero] at h
    cases h with
    | log h =>
      obtain ⟨rfl, none | returned⟩ := sends_done h
      · cases none
      · cases returned
        exact .timedOut [] rfl nofun
  | succ polls ih =>
    rw [poll_succ] at h
    cases h with
    | @read _ _ es' _ v h =>
      dsimp only at h
      split at h
      · rename_i busy
        have found : (Event.read Offset.status v).isBusyPoll := decide_eq_true ⟨rfl, busy⟩
        exact (ih h).cons found
      · rename_i idle
        obtain ⟨rfl, none | returned⟩ := sends_done h
        · cases none
        · cases returned
          have found : (Event.read Offset.status v).isIdlePoll :=
            decide_eq_true ⟨rfl, Bool.eq_false_iff.2 idle⟩
          exact .settled [] _ (Nat.succ_pos polls) nofun found

theorem Operation.traces_of_keeps (bus : hw.bus.Answers) {pulsed : Word → Prop} {downs : Prop}
    {op : Operation α} (h : op.run.Keeps (Admitted pulsed False downs))
    (never : op.run.HaltsOnly fun _ => False) (s : σ) :
    ∃ outcome, Traces hw op.run s outcome (run hw op.run s).traffic (run hw op.run s).state := by
  obtain ⟨outcome, returned⟩ := (h none).returns bus Admitted.clockless never s
  exact ⟨outcome, returned, rfl, rfl⟩

theorem Controller.waitReady_traces (bus : hw.bus.Answers) (c : Controller) (s : σ) :
    ∃ outcome polls, Polled c.pollLimit c.pollLimit polls outcome ∧
      Traces hw c.waitReady.run s outcome polls (run hw c.waitReady.run s).state := by
  have keeps : c.waitReady.run.Keeps (Admitted (fun _ => False) False False) := keeps_waitReady c
  obtain ⟨outcome, traced⟩ := Operation.traces_of_keeps bus keeps c.haltsOnly_waitReady s
  exact ⟨outcome, _, poll_polled (sends_of_returned traced.result), traced⟩

theorem Controller.powerUp_traces (bus : hw.bus.Answers) (s : σ) : ∃ m s',
    Traces hw (power true) s () [.read Offset.mode m, .write Offset.mode (m ||| Mode.execute)] s' := by
  obtain ⟨m, answer⟩ := bus.read Offset.mode s
  have taken := bus.write Offset.mode (m ||| Mode.execute) (hw.bus.read Offset.mode s).state
  exact ⟨m, _, traces_read answer (traces_write taken (traces_done _ _))⟩

namespace Device

def writeResult (outcome : Except DeviceError WriteReport) (waited : Except DeviceError Unit) :
    Except DeviceError WriteReport :=
  match outcome, waited with
  | .error e, _ => .error e
  | .ok _, .error e => .error e
  | .ok report, .ok () => .ok report

theorem traces_settle (outcome : Except DeviceError WriteReport) (waited : Except DeviceError Unit)
    (s : σ) : Traces hw (do
      let report ← Operation.ofOutcome outcome
      Operation.ofOutcome waited
      return report : Operation WriteReport).run s (writeResult outcome waited) [] s := by
  cases outcome with
  | error e => exact traces_done _ s
  | ok report =>
    cases waited with
    | error e => exact traces_done _ s
    | ok _ => exact traces_done _ s

/-- The power-up and the refresh that end a write; `m` is what the mode register showed. -/
def closing (m : Word) : List Event :=
  [.read Offset.mode m, .write Offset.mode (m ||| Mode.execute), .write Offset.mode Mode.refreshCommand]

theorem clockedWrite_traces (bus : hw.bus.Answers) (c : Controller) (word value : Word) (s : σ) :
    let inner := run hw (c.writeWord word value).run s
    ∃ outcome m polls waited t, inner.result = .ok outcome ∧
      Polled c.pollLimit c.pollLimit polls waited ∧
      Traces hw (clockedWrite c word value).run s (writeResult outcome waited)
        (inner.traffic ++ closing m ++ polls)
        (run hw c.waitReady.run (hw.bus.write Offset.mode Mode.refreshCommand t).state).state := by
  intro inner
  have keeps : (c.writeWord word value).run.Keeps (Admitted (fun _ => True) False False) :=
    Controller.keeps_writeWord c trivial value
  obtain ⟨outcome, written⟩ := Operation.traces_of_keeps bus keeps (c.haltsOnly_writeWord word value) s
  obtain ⟨m, t, powered⟩ := Controller.powerUp_traces bus inner.state
  have refreshed : Traces hw Controller.refresh t () [.write Offset.mode Mode.refreshCommand]
      (hw.bus.write Offset.mode Mode.refreshCommand t).state :=
    traces_write (bus.write _ _ t) (traces_done _ _)
  obtain ⟨waited, polls, polled, settled⟩ := Controller.waitReady_traces bus c
    (hw.bus.write Offset.mode Mode.refreshCommand t).state
  refine ⟨outcome, m, polls, waited, t, written.result, polled, ?_⟩
  have order : inner.traffic ++ closing m ++ polls =
      inner.traffic ++ ([] ++ ([.read Offset.mode m, .write Offset.mode (m ||| Mode.execute)] ++
        ([.write Offset.mode Mode.refreshCommand] ++ (polls ++ [])))) := by
    simp [closing]
  rw [order]
  refine traces_andThen (traces_attempt written) ?_
  refine traces_andThen (traces_lift (traces_note _ _ _ _)) ?_
  refine traces_andThen (traces_lift powered) ?_
  refine traces_andThen (traces_lift refreshed) ?_
  exact traces_andThen (traces_attempt settled) (traces_settle outcome waited _)

end Device

namespace Routine

variable {a : α}

theorem run_disable_state (a : α) (s : σ) :
    (run hw (disable (done a)) s).state = (hw.gate.disable s).state := by
  rw [run_disable]
  cases answer : (hw.gate.disable s).result with
  | error fault => exact (Reply.andThen_error _ answer).2.2
  | ok _ => exact (Reply.andThen_ok _ answer).2.2

theorem traces_disable (off : (hw.gate.disable s).result = .ok ()) (a : α) :
    Traces hw (disable (done a)) s a [.disabled] (hw.gate.disable s).state := by
  obtain ⟨earlier, sent, goesOn⟩ := run_disable_ok off (done a)
  have inTurn := (traces_done a _).prepend goesOn
  rwa [sent] at inTurn

end Routine

namespace Operation

theorem withClock_traces {body : Operation α} {r : Except DeviceError α} {es : List Event}
    (on : (hw.gate.enable s).result = .ok (.ok ()))
    (h : Traces hw body.run (hw.gate.enable s).state r es s') :
    (run hw (Controller.withClock body).run s).state = (hw.gate.disable s').state ∧
    ((hw.gate.disable s').result = .ok () → Traces hw (Controller.withClock body).run s r
      (.enabled :: es ++ [.disabled]) (hw.gate.disable s').state) := by
  -- An operation that gets to its end while the clock is held. Then the clock is switched off, and
  -- what that leaves is left also if the switch faults.
  obtain ⟨earlier, enabling, opened⟩ := run_withClock_ok on body
  constructor
  · rw [opened, h.run_bind]
    exact run_disable_state r s'
  · intro off
    have closed := h.bind (f := fun result => disable (done result)) (traces_disable off r)
    have inTurn := closed.prepend opened
    rwa [enabling] at inTurn

end Operation

def Run.seen (r : Run σ α) : Except Fault α × List Event × σ := (r.result, r.traffic, r.state)

theorem Operation.seen_guarded {guard : Operation α} {a : α}
    (passed : guard.run.unaided? = some (.ok a)) (f : α → Operation β) :
    (run hw (guard >>= f).run s).seen = (run hw (f a).run s).seen := by
  obtain ⟨returned, silent, unchanged⟩ := run_of_unaided hw s passed
  have checked : Traces hw guard.run s (.ok a) [] s := ⟨returned, silent, unchanged⟩
  have traffic : (run hw guard.run s).events.filter Event.isTraffic = [] := silent
  unfold Run.seen
  rw [ExceptT.run_bind, checked.run_bind, Run.traffic_after, traffic]
  rfl

namespace Device

theorem seen_write {d : Device} (enabled : d.programmingEnabled = true) {addr : Word}
    (valid : Controller.ValidAddress addr) (value : Word) :
    (run hw (d.write addr value).run s).seen =
      (run hw (Controller.withClock (clockedWrite d.controller (addr / 4) value)).run s).seen := by
  rw [write_eq, seen_guarded (a := ()) rfl, seen_guarded (checkProgramming_enabled enabled),
    seen_guarded (Controller.checkAddress_valid valid)]

theorem write_traces (bus : hw.bus.Answers) {d : Device} (enabled : d.programmingEnabled = true)
    {addr : Word} (valid : Controller.ValidAddress addr) (value : Word)
    (on : (hw.gate.enable s).result = .ok (.ok ())) :
    let inner := run hw (d.controller.writeWord (addr / 4) value).run (hw.gate.enable s).state
    let r := run hw (d.write addr value).run s
    ∃ outcome m polls waited t, inner.result = .ok outcome ∧
      Polled d.controller.pollLimit d.controller.pollLimit polls waited ∧
      let settled := run hw d.controller.waitReady.run (hw.bus.write Offset.mode Mode.refreshCommand t).state
      r.state = (hw.gate.disable settled.state).state ∧
      ((hw.gate.disable settled.state).result = .ok () →
        r.result = .ok (writeResult outcome waited) ∧
        r.traffic = .enabled :: (inner.traffic ++ closing m ++ polls) ++ [.disabled]) := by
  intro inner r
  obtain ⟨outcome, m, polls, waited, t, returned, polled, clocked⟩ :=
    clockedWrite_traces bus d.controller (addr / 4) value (hw.gate.enable s).state
  obtain ⟨state, closes⟩ := withClock_traces on clocked
  have seen : r.seen = _ := seen_write enabled valid value
  simp only [Run.seen, Prod.mk.injEq] at seen
  refine ⟨outcome, m, polls, waited, t, returned, polled, seen.2.2.trans state, fun off => ?_⟩
  exact ⟨seen.1.trans (closes off).result, seen.2.1.trans (closes off).traffic⟩

end Device

theorem FuseMacro.refreshed_shadow {g : Gate FuseMacro} (c : Controller) (m : FuseMacro) :
    let t := (run ⟨bus, g⟩ c.waitReady.run (writeRegister Offset.mode Mode.refreshCommand m).state).state
    t.shadow = t.rows.words := by
  intro t
  have refreshed : (writeRegister Offset.mode Mode.refreshCommand m).state =
      { m with busyRemaining := m.busyPolls, shadow := m.rows.words } := rfl
  have answers : (Hardware.mk bus g).bus.Answers := bus_answers
  obtain ⟨_, _, -, traced⟩ := Controller.waitReady_traces answers c
    (writeRegister Offset.mode Mode.refreshCommand m).state
  obtain ⟨busy, state⟩ := ensures_poll c.pollLimit c.pollLimit _ _ traced.result
  have left : t = { m with busyRemaining := busy, shadow := m.rows.words } := by
    rw [refreshed] at state
    exact state
  rw [left]

/-- Once the clock is on, a permitted write to a valid address always carries out its whole sequence: the
accesses of the word write, however that ends, then the power-up, the refresh and the wait, and the clock
goes off. Its result is the failure of the word write, else that of the wait, else the report. On the
macro every shadow word then shows its two rows. -/
theorem write_finishes_sequence {d : Device} (enabled : d.programmingEnabled = true) {addr : Word}
    (valid : Controller.ValidAddress addr) (value : Word) :
    (∀ {σ : Type} (hw : Hardware σ) (s : σ), hw.bus.Answers →
      (hw.gate.enable s).result = .ok (.ok ()) → (∀ t, (hw.gate.disable t).result = .ok ()) →
      let inner := run hw (d.controller.writeWord (addr / 4) value).run (hw.gate.enable s).state
      let r := run hw (d.write addr value).run s
      ∃ outcome m polls waited, inner.result = .ok outcome ∧
        Polled d.controller.pollLimit d.controller.pollLimit polls waited ∧
        r.traffic = .enabled :: (inner.traffic ++ Device.closing m ++ polls) ++ [.disabled] ∧
        r.result = .ok (Device.writeResult outcome waited)) ∧
    ∀ (hw : Hardware FuseMacro) (m : FuseMacro), OnMacro hw → (hw.gate.enable m).result = .ok (.ok ()) →
      let r := run hw (d.write addr value).run m
      ∀ i : Fin 64, r.state.shadow.get i = r.state.rows.get ⟨2 * i.val, Rows.low_lt i⟩ |||
        r.state.rows.get ⟨2 * i.val + 1, Rows.high_lt i⟩ := by
  constructor
  · intro σ hw s bus on off inner r
    obtain ⟨outcome, m, polls, waited, t, returned, polled, -, closes⟩ :=
      Device.write_traces bus enabled valid value on
    obtain ⟨result, traffic⟩ := closes (off _)
    exact ⟨outcome, m, polls, waited, returned, polled, traffic, result⟩
  · intro hw m onMacro on r i
    obtain ⟨bus, g⟩ := hw
    have same : bus = FuseMacro.bus := onMacro.bus_eq
    subst same
    have answers : (Hardware.mk FuseMacro.bus g).bus.Answers := FuseMacro.bus_answers
    obtain ⟨-, -, -, -, t, -, -, state, -⟩ := Device.write_traces answers enabled valid value on
    have loaded := FuseMacro.refreshed_shadow (g := g) d.controller t
    obtain ⟨_, _, off⟩ := onMacro.disable_state
      (run ⟨FuseMacro.bus, g⟩ d.controller.waitReady.run
        (FuseMacro.writeRegister Offset.mode Mode.refreshCommand t).state).state
    have left : r.state.shadow = r.state.rows.words := by
      have final : r.state = _ := state.trans off
      rw [final]
      exact loaded
    rw [left]
    exact Rows.words_get _ i

def FuseMacro.hung : FuseMacro :=
  { FuseMacro.blank with rows := FuseMacro.blank.rows.put (Address.rowOf 3 .low) 1, hang := true }

theorem write_finishes_sequence_hung :
    Controller.ValidAddress 12 ∧ FuseMacro.ungated.bus.Answers ∧
    let r := run FuseMacro.ungated (Device.write ⟨.ofLimit 2, true⟩ 12 5).run FuseMacro.hung
    (∃ before m polls waited, Polled 2 2 polls waited ∧
      r.traffic = .enabled :: (before ++ Device.closing m ++ polls) ++ [.disabled]) ∧
    r.result = .ok (.error (.timeout 2)) ∧ FuseMacro.hung.shadow.get 3 = 0 ∧ r.state.shadow.get 3 = 1 := by
  have valid : Controller.ValidAddress 12 := by decide
  have failed : (run FuseMacro.ungated (Device.write ⟨.ofLimit 2, true⟩ 12 5).run FuseMacro.hung).result =
      .ok (.error (.timeout 2)) := by
    decide +kernel
  obtain ⟨sequence, reload⟩ := write_finishes_sequence (d := ⟨.ofLimit 2, true⟩) rfl valid 5
  obtain ⟨-, m, polls, waited, -, polled, traffic, -⟩ :=
    sequence FuseMacro.ungated FuseMacro.hung FuseMacro.bus_answers rfl fun _ => rfl
  have loaded := reload FuseMacro.ungated FuseMacro.hung (.inl rfl) rfl 3
  have shown : FuseMacro.hung.shadow.get 3 = 0 := by decide
  refine ⟨valid, FuseMacro.bus_answers, ⟨_, m, polls, waited, polled, traffic⟩, failed, shown, ?_⟩
  exact loaded.trans (by decide +kernel)

end FuseBank
