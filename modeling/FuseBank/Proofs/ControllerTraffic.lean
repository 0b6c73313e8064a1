import FuseBank.Controller
import FuseBank.Proofs.Observation

/-!
What the controller's register sequences send on any bus. Each sequence either stops early, by a
timeout or cut short, or runs to its end, and in both cases its program commands and the rows that
it reads out are known.
-/

namespace FuseBank.Controller
open Routine Operation Traffic

def Stopped (limit : Nat) (stop : Option DeviceError) : Prop := ∀ e ∈ stop, e = .timeout limit

theorem stopped_none (limit : Nat) : Stopped limit none := by simp [Stopped]

/-- How far an operation got: it stopped where only `early` holds, or reached a value with `full`,
which it returned unless it was cut short there. -/
def Progress {α : Type} (limit : Nat) (early : Prop) (full : α → Prop)
    (r : Option (Except DeviceError α)) : Prop :=
  (∃ stop, r = stop.map .error ∧ Stopped limit stop ∧ early) ∨
    ∃ a, (r = none ∨ r = some (.ok a)) ∧ full a

section Progress

variable {α : Type} {limit : Nat} {early : Prop} {full : α → Prop}

theorem Progress.stopped {stop : Option DeviceError}
    (h : Progress limit early full (stop.map .error)) :
    Stopped limit stop ∧ (early ∨ stop = none ∧ ∃ a, full a) := by
  obtain ⟨stop', same, limited, he⟩ | ⟨a, hr, hf⟩ := h
  · have stops : stop = stop' := Option.map_injective (fun _ _ h => Except.error.inj h) same
    rw [stops]
    exact ⟨limited, .inl he⟩
  · cases stop with
    | none => exact ⟨stopped_none _, .inr ⟨rfl, a, hf⟩⟩
    | some e => simp at hr

theorem Progress.ok {a : α} (h : Progress limit early full (some (.ok a))) : full a := by
  obtain ⟨stop, hs, -⟩ | ⟨a', hr, hf⟩ := h
  · cases stop <;> simp at hs
  · have same : a = a' := by simpa using hr
    rw [same]
    exact hf

end Progress

variable {es : List Event}

theorem poll_zero (limit : Nat) :
    (poll limit 0).run = log ⟨.error, .poll, s!"eFUSE still busy after {limit} status polls"⟩
      (done (.error (.timeout limit))) := rfl

theorem poll_succ (limit n : Nat) :
    (poll limit (n + 1)).run =
      read Offset.status fun v => if v.getLsbD 0 then (poll limit n).run else done (.ok ()) := by
  simp only [poll, isBusy, readRegister, ExceptT.run_bind, ExceptT.run_liftM, read_bind, done_bind,
    bind_map_left, pure_eq]
  congr 1

theorem poll_sends {limit n : Nat} {r : Option (Except DeviceError Unit)}
    (h : Sends (poll limit n).run es r) :
    IsPolling es ∧ ∀ e, r = some (.error e) → e = .timeout limit := by
  induction n generalizing es with
  | zero =>
    rw [poll_zero] at h
    cases h with
    | cut => simp [IsPolling]
    | log h =>
      obtain ⟨rfl, rfl | rfl⟩ := sends_done h
      · simp [IsPolling]
      · simp [IsPolling]
  | succ n ih =>
    rw [poll_succ] at h
    cases h with
    | cut => simp [IsPolling]
    | @read _ _ es' _ v h =>
      have polled : IsPolling es' ∧ ∀ e, r = some (.error e) → e = .timeout limit := by
        dsimp only at h
        split at h
        · exact ih h
        · obtain ⟨rfl, rfl | rfl⟩ := sends_done h
          · simp [IsPolling]
          · simp [IsPolling]
      refine ⟨?_, polled.2⟩
      intro e he
      obtain rfl | he := List.mem_cons.1 he
      · exact ⟨v, rfl⟩
      · exact polled.1 e he

theorem waitReady_sends {c : Controller} {r : Option (Except DeviceError Unit)}
    (h : Sends c.waitReady.run es r) :
    IsPolling es ∧ ∀ e, r = some (.error e) → e = .timeout c.pollLimit :=
  poll_sends h

theorem waitReady_stopped {c : Controller} {stop : Option DeviceError}
    (h : Sends c.waitReady.run es (stop.map .error)) : Stopped c.pollLimit stop := by
  rintro e rfl
  exact (waitReady_sends h).2 e rfl

theorem readRegister_sends {o : Nat} {r : Option Word} (h : Sends (readRegister o) es r) :
    (es = [] ∧ r = none) ∨ ∃ v, es = [.read o v] ∧ (r = none ∨ r = some v) := by
  cases h with
  | cut => exact .inl ⟨rfl, rfl⟩
  | read v h =>
    obtain ⟨rfl, hr⟩ := sends_done h
    exact .inr ⟨v, rfl, hr⟩

theorem writeRegister_sends {o : Nat} {v : Word} {r : Option Unit}
    (h : Sends (writeRegister o v) es r) : (es = [] ∧ r = none) ∨ es = [.write o v] := by
  cases h with
  | cut => exact .inl ⟨rfl, rfl⟩
  | write h =>
    obtain ⟨rfl, -⟩ := sends_done h
    exact .inr rfl

theorem setBits_sends {o : Nat} {mask : Word} {r : Option Unit} (h : Sends (setBits o mask) es r) :
    es = [] ∨ ∃ v, es = [.read o v] ∨ es = [.read o v, .write o (v ||| mask)] := by
  cases h with
  | cut => exact .inl rfl
  | read v h =>
    cases h with
    | cut => exact .inr ⟨v, .inl rfl⟩
    | write h =>
      obtain ⟨rfl, -⟩ := sends_done h
      exact .inr ⟨v, .inr rfl⟩

theorem power_sends {up : Bool} {r : Option Unit} (h : Sends (power up) es r) : Shows es [] [] := by
  obtain rfl | ⟨v, rfl | rfl⟩ := setBits_sends h
  · exact .nil
  · constructor <;> intros <;> rfl
  · constructor
    · intro prev
      simp [pulses, programs, Event.isProgram, Event.addressed?]
    · intro a c
      rfl

theorem refresh_sends {r : Option Unit} (h : Sends refresh es r) : Shows es [] [] := by
  cases h with
  | cut => exact .nil
  | write h =>
    obtain ⟨rfl, -⟩ := sends_done h
    constructor <;> intros <;> rfl

theorem note_sends {level : Log.Level} {source : Log.Source} {message : String} {r : Option Unit}
    (h : Sends (note level source message) es r) : es = [] := by
  cases h with
  | cut => rfl
  | log h => exact (sends_done h).1

theorem shows_writes (v w : Word) (quiet : w &&& Mode.program = 0) :
    Shows [.write Offset.address v] [] [] ∧
      Shows [.write Offset.address v, .write Offset.mode w] [] [] := by
  have address : Offset.address ≠ Offset.mode := by decide
  refine ⟨⟨?_, fun _ _ => rfl⟩, ⟨?_, fun _ _ => rfl⟩⟩ <;> intro prev <;>
    simp [pulses, programs, Event.isProgram, address, quiet]

theorem shows_command {polls : List Event} (hp : IsPolling polls) (index command v : Word)
    (quiet : command &&& Mode.program = 0) :
    Shows ([.write Offset.address index, .write Offset.mode command] ++
      (polls ++ [.read Offset.readData v])) [] [⟨some index, some command, v⟩] where
  pulses prev := by
    have writes := (shows_writes index command quiet).2.pulses prev
    rw [pulses] at writes ⊢
    rw [programs_append, programs_append, hp.programs, List.filterMap_append, writes]
    rfl
  readings a c := by
    change readings (some index) (some command) (polls ++ _) = _
    rw [hp.readings]
    rfl

theorem command_quiet (mode : ReadMode) : mode.command &&& Mode.program = 0 := by
  cases mode <;> rfl

theorem readPhysical_sends {c : Controller} {index : Word} {mode : ReadMode}
    {r : Option (Except DeviceError Word)} (h : Sends (c.readPhysical index mode).run es r) :
    Progress c.pollLimit (Shows es [] [])
      (fun v => Shows es [] [⟨some index, some mode.command, v⟩]) r := by
  have writes := shows_writes index mode.command (command_quiet mode)
  unfold readPhysical at h
  obtain ⟨rfl, hu⟩ | ⟨_, up, es₁, rfl, hu, h₁⟩ := sends_lift_bind h
  · exact .inl ⟨none, rfl, stopped_none _, power_sends hu⟩
  obtain ⟨stop, rfl, hw⟩ | ⟨_, polls, es₂, rfl, hw, h₂⟩ := sends_andThen h₁
  · exact .inl ⟨stop, rfl, waitReady_stopped hw, (power_sends hu).append (waitReady_sends hw).1.shows⟩
  have before := (power_sends hu).append (waitReady_sends hw).1.shows
  obtain ⟨rfl, ha⟩ | ⟨_, addressed, es₃, rfl, ha, h₃⟩ := sends_lift_bind h₂
  · obtain ⟨rfl, -⟩ | rfl := writeRegister_sends ha
    · exact .inl ⟨none, rfl, stopped_none _, by simpa using before⟩
    · exact .inl ⟨none, rfl, stopped_none _, by simpa using before.append writes.1⟩
  obtain ⟨-, ha⟩ | rfl := writeRegister_sends ha
  · cases ha
  obtain ⟨rfl, hm⟩ | ⟨_, commanded, es₄, rfl, hm, h₄⟩ := sends_lift_bind h₃
  · obtain ⟨rfl, -⟩ | rfl := writeRegister_sends hm
    · exact .inl ⟨none, rfl, stopped_none _, by simpa using before.append writes.1⟩
    · exact .inl ⟨none, rfl, stopped_none _, by simpa using before.append writes.2⟩
  obtain ⟨-, hm⟩ | rfl := writeRegister_sends hm
  · cases hm
  obtain ⟨stop, rfl, hs⟩ | ⟨_, settled, es₅, rfl, hs, h₅⟩ := sends_andThen h₄
  · exact .inl ⟨stop, rfl, waitReady_stopped hs, by
      simpa using before.append (writes.2.append (waitReady_sends hs).1.shows)⟩
  have settling := (waitReady_sends hs).1
  obtain ⟨r', rfl, hd⟩ := sends_lift h₅
  obtain ⟨rfl, rfl⟩ | ⟨v, rfl, hr⟩ := readRegister_sends hd
  · exact .inl ⟨none, rfl, stopped_none _, by simpa using before.append (writes.2.append settling.shows)⟩
  · refine .inr ⟨v, ?_, ?_⟩
    · obtain rfl | rfl := hr
      · exact .inl rfl
      · exact .inr rfl
    · simpa using before.append (shows_command settling index mode.command v (command_quiet mode))

theorem shows_pulse {polls : List Event} (hp : IsPolling polls) (a : Word) :
    Shows (polls ++ [.write Offset.address a, .write Offset.mode (Mode.program ||| Mode.execute)])
      [a] [] where
  pulses prev := by
    rw [pulses, programs_append, hp.programs]
    rfl
  readings a c := by
    rw [hp.readings]
    rfl

theorem programBit_sends {c : Controller} {word bit : Word} {row : Row}
    {r : Option (Except DeviceError Unit)} (h : Sends (c.programBit word bit row).run es r) :
    Progress c.pollLimit (Shows es [] []) (fun _ => Shows es [Address.compose word bit row] []) r := by
  unfold programBit at h
  obtain ⟨stop, rfl, hw⟩ | ⟨_, polls, es₁, rfl, hw, h₁⟩ := sends_andThen h
  · exact .inl ⟨stop, rfl, waitReady_stopped hw, (waitReady_sends hw).1.shows⟩
  have polling := (waitReady_sends hw).1
  obtain ⟨rfl, ha⟩ | ⟨_, addressed, es₂, rfl, ha, h₂⟩ := sends_lift_bind h₁
  · refine .inl ⟨none, rfl, stopped_none _, ?_⟩
    obtain ⟨rfl, -⟩ | rfl := writeRegister_sends ha
    · simpa using polling.shows
    · exact polling.shows.append (shows_writes _ 0 rfl).1
  obtain ⟨-, ha⟩ | rfl := writeRegister_sends ha
  · cases ha
  obtain ⟨r', rfl, hm⟩ := sends_lift h₂
  obtain ⟨rfl, rfl⟩ | rfl := writeRegister_sends hm
  · exact .inl ⟨none, rfl, stopped_none _, polling.shows.append (shows_writes _ 0 rfl).1⟩
  · refine .inr ⟨(), ?_, shows_pulse polling _⟩
    cases r' with
    | none => exact .inl rfl
    | some _ => exact .inr rfl

end FuseBank.Controller
