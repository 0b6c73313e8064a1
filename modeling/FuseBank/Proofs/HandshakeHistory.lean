import FuseBank.Emulation.FuseMacro
import FuseBank.Proofs.Handshakes

/-!
Handshakes over many steps. What `Admits` says of the accesses before one, latest first, `Handshaken`
says of them in their order, and it goes on holding after whatever was accessed before
(`Handshaken.prepend`); so a history keeps the rule because each of its steps does.
-/

namespace FuseBank
open Routine Operation Traffic

variable {σ α β : Type}

/-- What comes before an access that needs the macro idle; `before` are all accesses so far, in their
order. -/
structure Handshaken (before : List Event) (e : Event) : Prop where
  address : e.isAddressing → ∃ earlier poll, before = earlier ++ [poll] ∧ poll.isIdlePoll
  command : e.isRowCommand → ∃ earlier address, before = earlier ++ [address] ∧ address.isAddressing
  data : e.isDataRead → ∃ earlier command polls poll,
    before = earlier ++ command :: (polls ++ [poll]) ∧ command.isRowRead ∧ IsPolling polls ∧
      poll.isIdlePoll

/-- The accesses of one step, under a controller that makes `limit` polls. An address may stand without
its command only where a fault has cut the step off; and then there is no response. -/
structure StepHandshaken (limit : Nat) (response : Option Response) (accesses : List Event) : Prop where
  kept : ∀ before e after, accesses = before ++ e :: after → Handshaken before e
  paired : ∀ before e after, accesses = before ++ e :: after → e.isAddressing →
    (∃ command rest, after = command :: rest ∧ command.isRowCommand ∧
      ∀ next ∈ rest.head?, next.isRowCommand = false) ∨ after = [] ∧ response = none
  expired : ∀ before polls after, accesses = before ++ polls ++ after → polls.length = limit →
    (∀ e ∈ polls, e.isBusyPoll) → ∀ e ∈ after, e.isGuarded = false
  timeout : ∀ answer n, response = some answer → answer.result = .error (.timeout n) →
    accesses = [] ∨ n = limit ∧ ∃ before polls after, accesses = before ++ polls ++ after ∧
      polls.length = limit ∧ ∀ e ∈ polls, e.isBusyPoll

def Bus.ClearsMode (bus : Bus σ) : Prop := ∀ s v, (bus.read Offset.mode s).result = .ok v → v = 0

theorem shown_run {hw : Hardware σ} (clears : hw.bus.ClearsMode) (p : Routine α) (s : σ) :
    Shown ModeClear (run hw p s).traffic := by
  rintro _ v read rfl
  obtain ⟨s', answer⟩ := answer_of_read read
  exact clears s' v answer

theorem last_of_reverse {before : List Event} {test : Event → Bool}
    (h : before.reverse.head?.any test = true) :
    ∃ earlier e, before = earlier ++ [e] ∧ test e = true := by
  rw [List.head?_reverse] at h
  obtain rfl | ⟨earlier, e, rfl⟩ := List.eq_nil_or_concat before
  · simp at h
  · exact ⟨earlier, e, by simp, by simpa using h⟩

theorem Admits.handshaken {limit : Nat} {before : List Event} {e : Event}
    (h : Admits limit before.reverse e) : Handshaken before e where
  address needed := last_of_reverse (h.address needed)
  command needed := last_of_reverse (h.command needed)
  data needed := by
    obtain ⟨idle, polls, command, earlier, split, polling, rowRead⟩ := h.data needed
    cases polls with
    | nil =>
      -- the command itself is no poll
      rw [split] at idle
      cases command with
      | read => cases rowRead
      | _ => cases idle
    | cons poll polls =>
      have order : before = earlier.reverse ++ command :: (polls.reverse ++ [poll]) := by
        simpa using congrArg List.reverse split
      rw [split] at idle
      refine ⟨_, command, polls.reverse, poll, order, rowRead, ?_, by simpa using idle⟩
      exact fun e he => polling e (List.mem_cons_of_mem _ (List.mem_reverse.1 he))

theorem Handshaken.prepend {before : List Event} {e : Event} (h : Handshaken before e)
    (first : List Event) : Handshaken (first ++ before) e where
  address needed := by
    obtain ⟨earlier, poll, rfl, idle⟩ := h.address needed
    exact ⟨first ++ earlier, poll, by simp, idle⟩
  command needed := by
    obtain ⟨earlier, address, rfl, addressing⟩ := h.command needed
    exact ⟨first ++ earlier, address, by simp, addressing⟩
  data needed := by
    obtain ⟨earlier, command, polls, poll, rfl, rest⟩ := h.data needed
    exact ⟨first ++ earlier, command, polls, poll, by simp, rest⟩

theorem Event.isAddressing_of_isRowCommand {e : Event} (h : e.isRowCommand = true) :
    e.isAddressing = false := by
  cases e with
  | write o v =>
    have mode : o = Offset.mode := by
      simp only [isRowCommand, isProgram, isRowRead, Bool.or_eq_true, decide_eq_true_eq] at h
      exact h.elim And.left And.left
    subst mode
    rfl
  | _ => cases h

theorem stepHandshaken_of_admits {limit : Nat} (positive : 0 < limit) {response : Option Response}
    {accesses : List Event} (admits : ∀ before e after, accesses = before ++ e :: after →
      Admits limit before.reverse e)
    (concluded : ∀ answer, response = some answer → Concluded limit answer.result accesses.reverse) :
    StepHandshaken limit response accesses where
  kept before e after split := (admits before e after split).handshaken
  paired before e after split addressing := by
    cases after with
    | nil =>
      refine .inr ⟨rfl, Option.eq_none_iff_forall_ne_some.2 fun answer returned => ?_⟩
      have rested := (concluded answer returned).rested
      rw [split, Rested] at rested
      simp [addressing] at rested
    | cons command rest =>
      have first := admits (before ++ [e]) command rest (by simp [split])
      have commands : command.isRowCommand = true := first.paired (by simpa using addressing)
      refine .inl ⟨command, rest, rfl, commands, fun next following => ?_⟩
      cases rest with
      | nil => cases following
      | cons next' rest =>
        cases following
        have second := admits (before ++ [e, command]) next rest (by simp [split])
        rw [← Bool.not_eq_true]
        intro again
        have addressed := second.command again
        simp [Event.isAddressing_of_isRowCommand commands] at addressed
  expired before polls after split length busy e later := by
    obtain ⟨between, rest, rfl⟩ := List.append_of_mem later
    have admitted := admits (before ++ polls ++ between) e rest (by simp [split])
    have run : limit ≤ busyRun (polls.reverse ++ before.reverse) := by
      rw [busyRun_append fun e he => busy e (List.mem_reverse.1 he), List.length_reverse]
      omega
    have expired := (expired_of_busyRun positive run).append between.reverse
    rw [← Bool.not_eq_true]
    intro guarded
    exact admitted.pending guarded (by simpa using expired)
  timeout answer n returned failed := by
    obtain nothing | ⟨same, expired⟩ := (concluded answer returned).timeout n failed
    · exact .inl (by simpa using nothing)
    · obtain ⟨later, polls, earlier, split, length, busy⟩ := expired.polls
      have order : accesses = earlier.reverse ++ polls.reverse ++ later.reverse := by
        simpa using congrArg List.reverse split
      refine .inr ⟨same, _, _, _, order, by simp [length], fun e he => busy e ?_⟩
      exact List.mem_reverse.1 he

theorem Session.tracked_answer {limit : Nat} (session : Session) (step : Step)
    (own : ∀ call, step = .call call → limit = session.device.controller.pollLimit) :
    (session.answer step).Tracked ModeClear (Admits limit)
      (fun x past => ∀ answer, x.1 = some answer → Concluded limit answer.result past) [] := by
  cases step with
  | call call =>
    obtain rfl := own call rfl
    refine (session.tracked_perform call).rewrap _ fun x _ concluded answer same => ?_
    cases same
    exact concluded
  | restart config =>
    have down : Device.shutdown.Tracked ModeClear (Admits limit) (fun _ _ => True) [] := by
      have nothing : Rested [] := rfl
      refine (Controller.tracked_power false nothing).bind fun _ _ _ => ?_
      exact trivial
    refine down.bind fun _ past _ => ?_
    refine Routine.Tracked.bind (P := fun _ _ => True) ?_ fun _ _ _ => nofun
    unfold Device.start
    split
    · exact trivial
    · exact trivial

theorem serve_handshaken {hw : Hardware σ} (clears : hw.bus.ClearsMode) (session : Session) (s : σ)
    (step : Step) : StepHandshaken (session.serve hw s step).session.device.controller.pollLimit
      (session.serve hw s step).response ((session.serve hw s step).traffic.filter Event.isAccess) := by
  have sends := sends_run hw (session.answer step) s
  have shown := shown_run clears (session.answer step) s
  have own : ∀ call, step = .call call →
      (session.serve hw s step).session.device.controller.pollLimit = session.device.controller.pollLimit := by
    rintro call rfl
    obtain same | ⟨config, restart, -⟩ := session.serve_device hw s (.call call)
    · rw [same]
    · cases restart
  have tracked := session.tracked_answer step own
  refine stepHandshaken_of_admits (Controller.pollLimit_pos _) ?_ ?_
  · intro before e after split
    simpa using tracked.admits sends shown split
  · intro answer returned
    obtain ⟨x, ended, answered⟩ := Option.bind_eq_some_iff.1 returned
    rw [ended] at sends
    have concluded := tracked.ended sends shown answer answered
    rw [List.append_nil] at concluded
    exact concluded

theorem handshaken_in_transcript {log : List (Step × Served σ)}
    (each : ∀ x ∈ log, ∀ before e after, x.2.traffic.filter Event.isAccess = before ++ e :: after →
      Handshaken before e) {before after : List Event} {e : Event}
    (split : (log.flatMap fun x => x.2.traffic).filter Event.isAccess = before ++ e :: after) :
    Handshaken before e := by
  induction log generalizing before with
  | nil => simp at split
  | cons x log ih =>
    have later := fun y hy => each y (List.mem_cons_of_mem _ hy)
    rw [List.flatMap_cons, List.filter_append] at split
    obtain ⟨between, rfl, rest⟩ | ⟨between, own, rest⟩ := List.append_eq_append_iff.1 split
    · exact (ih later rest).prepend _
    · cases between with
      | nil =>
        rw [List.append_nil] at own
        rw [← own, ← List.append_nil (x.2.traffic.filter _)]
        have first : Handshaken [] e := ih later rest.symm
        exact first.prepend _
      | cons e' between =>
        obtain ⟨rfl, -⟩ := List.cons.inj rest
        exact each x (by simp) before e between own

/-- On any bus whose mode register reads zero, and whatever else it answers, over any sequence of
calls and restarts: every address is written directly after a poll that shows the macro idle, every
command to a row directly after an address and every address directly before one such command, and the
data register is read directly after an idle poll with nothing but polls since the row read. And where
a handshake of a call runs out of polls, nothing follows in that call that a handshake has to come
before; a timeout is always that of such a handshake. -/
theorem handshakes_kept {hw : Hardware σ} (clears : hw.bus.ClearsMode) (session : Session) (s : σ)
    (steps : List Step) :
    (∀ before e after, (session.history hw s steps).filter Event.isAccess = before ++ e :: after →
      Handshaken before e) ∧
    ∀ x ∈ session.transcript hw s steps, StepHandshaken x.2.session.device.controller.pollLimit
      x.2.response (x.2.traffic.filter Event.isAccess) := by
  have each : ∀ x ∈ session.transcript hw s steps, StepHandshaken
      x.2.session.device.controller.pollLimit x.2.response (x.2.traffic.filter Event.isAccess) :=
    Session.transcript_induction (I := fun _ _ => True) (P := fun _ served => StepHandshaken
        served.session.device.controller.pollLimit served.response
        (served.traffic.filter Event.isAccess)) trivial
      fun session s step _ _ => ⟨serve_handshaken clears session s step, trivial⟩
  refine ⟨?_, each⟩
  rw [← Session.transcript_traffic]
  intro before e after split
  exact handshaken_in_transcript (fun x hx => (each x hx).kept) split

theorem handshakes_kept_slow :
    FuseMacro.hardware.bus.ClearsMode ∧
    let log := Session.transcript FuseMacro.hardware ⟨⟨.ofLimit 3, true⟩, []⟩
      { FuseMacro.blank with busyPolls := 4 }
      [.call (.write 12 5), .restart { pollLimit := 8 }, .call (.readPhysical 6 1)]
    (log.map fun x => (x.2.traffic.length, x.2.traffic.countP Event.isGuarded)) =
      [(13, 0), (2, 0), (17, 3)] ∧
    ∀ x ∈ log, StepHandshaken x.2.session.device.controller.pollLimit x.2.response
      (x.2.traffic.filter Event.isAccess) := by
  have clears : FuseMacro.hardware.bus.ClearsMode := fun _ _ read => (Except.ok.inj read).symm
  refine ⟨clears, by decide +kernel, ?_⟩
  exact (handshakes_kept clears ⟨⟨.ofLimit 3, true⟩, []⟩ { FuseMacro.blank with busyPolls := 4 }
    [.call (.write 12 5), .restart { pollLimit := 8 }, .call (.readPhysical 6 1)]).2

end FuseBank
