import FuseBank.Proofs.FuseGrowth

/-!
What no traffic changes on the emulated macro: the settings of the bench (`settings_run`). The clock's
counters do change, each by exactly the clock calls that the traffic shows (`accounts_run`).
-/

namespace FuseBank
open Routine

variable {α β : Type}

namespace FuseMacro

variable {m m' m'' : FuseMacro} {hw : Hardware FuseMacro}

structure SameSettings (m m' : FuseMacro) : Prop where
  stuck : m'.stuck = m.stuck
  weak : m'.weak = m.weak
  busyPolls : m'.busyPolls = m.busyPolls
  hang : m'.hang = m.hang
  attached : m'.clock.attached = m.clock.attached
  failing : m'.clock.failing = m.clock.failing

theorem SameSettings.refl (m : FuseMacro) : SameSettings m m := ⟨rfl, rfl, rfl, rfl, rfl, rfl⟩

theorem SameSettings.trans (h : SameSettings m m') (h' : SameSettings m' m'') : SameSettings m m'' where
  stuck := h'.stuck.trans h.stuck
  weak := h'.weak.trans h.weak
  busyPolls := h'.busyPolls.trans h.busyPolls
  hang := h'.hang.trans h.hang
  attached := h'.attached.trans h.attached
  failing := h'.failing.trans h.failing

theorem settings_write (o : Nat) (v : Word) (m : FuseMacro) :
    SameSettings m (writeRegister o v m).state := by
  obtain ⟨-, state⟩ | ⟨_, _, state⟩ := writeRegister_cases o v m
  · rw [state]
    obtain ⟨-, command⟩ | ⟨-, command⟩ | ⟨_, _, _, command⟩ := command_cases m v
    · rw [command]
      exact ⟨rfl, rfl, rfl, rfl, rfl, rfl⟩
    · rw [command, pulse_eq]
      exact ⟨rfl, rfl, rfl, rfl, rfl, rfl⟩
    · rw [command]
      exact ⟨rfl, rfl, rfl, rfl, rfl, rfl⟩
  · rw [state]
    exact ⟨rfl, rfl, rfl, rfl, rfl, rfl⟩

theorem relates_settings (h : OnMacro hw) : Relates hw (fun _ _ => True) SameSettings :=
  h.relates .refl (fun _ _ _ => SameSettings.trans)
    (fun _ _ _ _ _ => ⟨rfl, rfl, rfl, rfl, rfl, rfl⟩) fun _ o v m _ _ => settings_write o v m

theorem settings_run (h : OnMacro hw) (p : Routine α) (m : FuseMacro) :
    SameSettings m (run hw p m).state :=
  (keeps_any p).related (relates_settings h) m

/-- The counters stand where the clock calls of the traffic have brought them. -/
structure Accounts (before : MacroClock) (traffic : List Event) (after : MacroClock) : Prop where
  enables : after.enableCount.toNat = before.enableCount.toNat + traffic.count .enabled
  disables : after.disableCount.toNat = before.disableCount.toNat + traffic.count .disabled

variable {before after : MacroClock} {es fs : List Event}

theorem Accounts.nil (before : MacroClock) : Accounts before [] before := ⟨rfl, rfl⟩

theorem Accounts.append {between : MacroClock} (h : Accounts before es between)
    (h' : Accounts between fs after) : Accounts before (es ++ fs) after where
  enables := by
    rw [h'.enables, h.enables, List.count_append]
    omega
  disables := by
    rw [h'.disables, h.disables, List.count_append]
    omega

theorem Accounts.cons {between : MacroClock} {e : Event} (h : Accounts before [e] between)
    (h' : Accounts between es after) : Accounts before (e :: es) after :=
  h.append h'

theorem toNat_succ {count : Word} (h : count ≠ BitVec.allOnes 32) :
    (count + 1).toNat = count.toNat + 1 := by
  have below : count.toNat ≠ 2 ^ 32 - 1 := fun same => h (BitVec.eq_of_toNat_eq same)
  have bound := count.isLt
  rw [BitVec.toNat_add]
  change (count.toNat + 1) % 2 ^ 32 = _
  omega

theorem enableClock_accounts (m : FuseMacro) :
    (∀ f, (enableClock m).result = .error f → Accounts m.clock [] (enableClock m).state.clock) ∧
    ∀ answer, (enableClock m).result = .ok answer →
      Accounts m.clock [.ofEnable answer] (enableClock m).state.clock := by
  unfold enableClock
  split
  · refine ⟨nofun, ?_⟩
    rintro _ ⟨⟩
    exact ⟨rfl, rfl⟩
  dsimp only
  split
  · exact ⟨fun _ _ => ⟨rfl, rfl⟩, nofun⟩
  · refine ⟨nofun, ?_⟩
    rintro _ ⟨⟩
    exact ⟨toNat_succ ‹_›, rfl⟩

theorem disableClock_accounts (m : FuseMacro) :
    (∀ f, (disableClock m).result = .error f → Accounts m.clock [] (disableClock m).state.clock) ∧
    ((disableClock m).result = .ok () →
      Accounts m.clock [.disabled] (disableClock m).state.clock) := by
  unfold disableClock
  dsimp only
  split
  · exact ⟨fun _ _ => ⟨rfl, rfl⟩, nofun⟩
  · exact ⟨nofun, fun _ => ⟨rfl, toNat_succ ‹_›⟩⟩

theorem accounts_request {r : Reply FuseMacro β} {next : β → FuseMacro → Run FuseMacro α}
    (fault : ∀ f, r.result = .error f → Accounts before [] r.state.clock)
    (answer : ∀ a, r.result = .ok a →
      Accounts before (next a r.state).traffic (next a r.state).state.clock) :
    Accounts before (r.toRun.andThen next).traffic (r.toRun.andThen next).state.clock := by
  cases h : r.result with
  | error f =>
    obtain ⟨-, traffic, state⟩ := Reply.andThen_error next h
    rw [traffic, state]
    exact fault f h
  | ok a =>
    obtain ⟨-, traffic, state⟩ := Reply.andThen_ok next h
    rw [traffic, state]
    exact answer a h

theorem writeRegister_clock (o : Nat) (v : Word) (m : FuseMacro) :
    (writeRegister o v m).state.clock = m.clock := by
  obtain ⟨-, state⟩ | ⟨_, _, state⟩ := writeRegister_cases o v m
  · rw [state]
    obtain ⟨-, command⟩ | ⟨-, command⟩ | ⟨_, _, _, command⟩ := command_cases m v
    · rw [command]
    · rw [command, pulse_eq]
    · rw [command]
  · rw [state]

theorem readRegister_clock (o : Nat) (m : FuseMacro) :
    (readRegister o m).state.clock = m.clock := by
  obtain ⟨_, state⟩ := readRegister_cases o m
  rw [state]

theorem accounts_run (p : Routine α) (m : FuseMacro) :
    Accounts m.clock (run hardware p m).traffic (run hardware p m).state.clock := by
  induction p generalizing m with
  | done a => exact .nil _
  | halt fault => exact .nil _
  | read o next ih =>
    have same : (hardware.bus.read o m).state.clock = m.clock := readRegister_clock o m
    rw [run_read]
    refine accounts_request (fun _ _ => same ▸ .nil _) fun v _ => ?_
    rw [Run.traffic_after]
    exact .cons (e := .read o v) (same ▸ ⟨rfl, rfl⟩) (ih v _)
  | write o v next ih =>
    have same : (hardware.bus.write o v m).state.clock = m.clock := writeRegister_clock o v m
    rw [run_write, Run.after_andThen, Run.traffic_after]
    have sent : Accounts m.clock [.write o v] m.clock := ⟨rfl, rfl⟩
    refine sent.cons ?_
    exact accounts_request (fun _ _ => same ▸ .nil _) fun _ _ => same ▸ ih _
  | enable next ih =>
    obtain ⟨failed, answered⟩ := enableClock_accounts m
    rw [run_enable]
    refine accounts_request failed fun answer given => ?_
    rw [Run.traffic_after]
    cases answer with
    | ok _ => exact .cons (answered _ given) (ih _ _)
    | error e => exact .cons (answered _ given) (ih _ _)
  | disable next ih =>
    obtain ⟨failed, answered⟩ := disableClock_accounts m
    rw [run_disable]
    refine accounts_request failed fun _ given => ?_
    rw [Run.traffic_after]
    exact .cons (answered given) (ih _)
  | log e next ih =>
    rw [run_log, Run.traffic_after]
    exact ih m

end FuseMacro

end FuseBank
