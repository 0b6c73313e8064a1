import FuseBank.Proofs.AccessHistory
import FuseBank.Proofs.Transcript

/-!
The order in which rows are accessed, on any bus whose mode register reads zero: an address only after
a status read that shows the macro idle, a pulse or a row read only right after its address, and the
data register only after a row read and an idle status read. A handshake that runs out of polls is the
end of all this for the call that it belongs to. `Session.tracked_perform` has every call keep to this.

Everything is said of the accesses so far, the latest first, and `Expired` is what a handshake without
success leaves among them: as many busy polls in a row as the controller makes.
-/

namespace FuseBank
open Routine Operation Traffic

variable {σ α β : Type}

namespace Event

def isIdlePoll : Event → Bool
  | read o v => o = Offset.status ∧ v.getLsbD 0 = false
  | _ => false

def isBusyPoll : Event → Bool
  | read o v => o = Offset.status ∧ v.getLsbD 0 = true
  | _ => false

def isAddressing : Event → Bool
  | write o _ => o = Offset.address
  | _ => false

def isRowRead : Event → Bool
  | write o v => o = Offset.mode ∧ v &&& (Mode.arrayRead ||| Mode.marginRead) ≠ 0
  | _ => false

def isRowCommand (e : Event) : Bool := e.isProgram || e.isRowRead

def isDataRead : Event → Bool
  | read o _ => o = Offset.readData
  | _ => false

def isGuarded (e : Event) : Bool := e.isAddressing || e.isRowCommand || e.isDataRead

theorem isGuarded_eq_false {e : Event} : e.isGuarded = false ↔
    e.isAddressing = false ∧ e.isRowCommand = false ∧ e.isDataRead = false := by
  simp [isGuarded, and_assoc]

end Event

def busyRun : List Event → Nat
  | [] => 0
  | e :: past => if e.isBusyPoll then busyRun past + 1 else 0

/-- At some point `limit` polls in a row had shown the macro busy. -/
def Expired (limit : Nat) : List Event → Prop
  | [] => False
  | e :: past => limit ≤ busyRun (e :: past) ∨ Expired limit past

section Polls

variable {limit : Nat} {past : List Event}

theorem busyRun_append {polls : List Event} (busy : ∀ e ∈ polls, e.isBusyPoll = true) :
    busyRun (polls ++ past) = polls.length + busyRun past := by
  induction polls with
  | nil => simp
  | cons e polls ih =>
    obtain ⟨first, rest⟩ := List.forall_mem_cons.1 busy
    simp only [List.cons_append, busyRun, first, if_true, ih rest, List.length_cons]
    omega

theorem take_busyRun {n : Nat} (h : n ≤ busyRun past) :
    (past.take n).length = n ∧ ∀ e ∈ past.take n, e.isBusyPoll = true := by
  induction past generalizing n with
  | nil => simp_all [busyRun]
  | cons e past ih =>
    cases n with
    | zero => simp
    | succ n =>
      simp only [busyRun] at h
      split at h
      · obtain ⟨length, busy⟩ := ih (n := n) (by omega)
        rw [List.take_succ_cons]
        exact ⟨by simp [length], List.forall_mem_cons.2 ⟨‹_›, busy⟩⟩
      · omega

theorem Expired.append (h : Expired limit past) (later : List Event) : Expired limit (later ++ past) := by
  induction later with
  | nil => exact h
  | cons e later ih => exact .inr ih

theorem expired_of_busyRun (positive : 0 < limit) (h : limit ≤ busyRun past) : Expired limit past := by
  cases past with
  | nil => exact absurd h (Nat.not_le.2 positive)
  | cons e past => exact .inl h

theorem Expired.polls (h : Expired limit past) : ∃ later polls earlier,
    past = later ++ (polls ++ earlier) ∧ polls.length = limit ∧ ∀ e ∈ polls, e.isBusyPoll = true := by
  induction past with
  | nil => cases h
  | cons e past ih =>
    obtain run | before := h
    · obtain ⟨length, busy⟩ := take_busyRun run
      exact ⟨[], _, (e :: past).drop limit, by simp, length, busy⟩
    · obtain ⟨later, polls, earlier, rfl, rest⟩ := ih before
      exact ⟨e :: later, polls, earlier, rfl, rest⟩

theorem not_expired_cons (positive : 0 < limit) (pending : ¬ Expired limit past) {e : Event}
    (other : e.isBusyPoll = false) : ¬ Expired limit (e :: past) := by
  rintro (run | before)
  · simp only [busyRun, other] at run
    exact absurd run (Nat.not_le.2 positive)
  · exact pending before

end Polls

/-- What may be accessed after the accesses in `past`, the latest of them first. -/
structure Admits (limit : Nat) (past : List Event) (e : Event) : Prop where
  address : e.isAddressing → past.head?.any Event.isIdlePoll
  command : e.isRowCommand → past.head?.any Event.isAddressing
  data : e.isDataRead → past.head?.any Event.isIdlePoll ∧ ∃ polls command earlier,
    past = polls ++ command :: earlier ∧ IsPolling polls ∧ command.isRowRead
  paired : past.head?.any Event.isAddressing → e.isRowCommand
  pending : e.isGuarded → ¬ Expired limit past

def Rested (past : List Event) : Prop := past.head?.any Event.isAddressing = false

/-- Where the next handshake can begin. -/
structure Ready (limit : Nat) (past : List Event) : Prop where
  pending : ¬ Expired limit past
  counted : busyRun past = 0
  rested : Rested past

def ModeClear (o : Nat) (v : Word) : Prop := o = Offset.mode → v = 0

section Rule

variable {limit : Nat} {past : List Event} {e : Event}

theorem Admits.of_plain (rested : Rested past) (plain : e.isGuarded = false) : Admits limit past e := by
  obtain ⟨address, command, data⟩ := Event.isGuarded_eq_false.1 plain
  unfold Rested at rested
  constructor <;> simp [*]

theorem Ready.nil (limit : Nat) : Ready limit [] := ⟨id, rfl, rfl⟩

theorem Ready.of_pending (positive : 0 < limit) (pending : ¬ Expired limit past)
    (other : e.isBusyPoll = false) (rested : e.isAddressing = false) : Ready limit (e :: past) where
  pending := not_expired_cons positive pending other
  counted := by simp [busyRun, other]
  rested := rested

end Rule

inductive Waited (limit : Nat) (past : List Event) : Except DeviceError Unit → List Event → Prop where
  | idle (polls : List Event) (poll : Event) (polling : IsPolling (poll :: polls))
      (idle : poll.isIdlePoll) (pending : ¬ Expired limit (poll :: polls ++ past)) :
      Waited limit past (.ok ()) (poll :: polls ++ past)
  | expired (polls : List Event) (expired : Expired limit (polls ++ past))
      (rested : Rested (polls ++ past)) : Waited limit past (.error (.timeout limit)) (polls ++ past)

/-- An operation of the controller ends ready for the next handshake, or with its own expired. -/
inductive Settled (limit : Nat) : Except DeviceError α → List Event → Prop where
  | ready {outcome : Except DeviceError α} {past : List Event}
      (other : ∀ n, outcome ≠ .error (.timeout n)) (ready : Ready limit past) : Settled limit outcome past
  | expired {past : List Event} (expired : Expired limit past) (rested : Rested past) :
      Settled limit (.error (.timeout limit)) past

/-- A call has given every address its command, and a timeout is that of an expired handshake unless
nothing has been accessed. -/
structure Concluded (limit : Nat) (result : Except DeviceError α) (past : List Event) : Prop where
  rested : Rested past
  timeout : ∀ n, result = .error (.timeout n) → past = [] ∨ n = limit ∧ Expired limit past

section Ends

variable {limit : Nat} {past after : List Event}

theorem Waited.of_cons {e : Event} {outcome : Except DeviceError Unit} (poll : IsPolling [e])
    (h : Waited limit (e :: past) outcome after) : Waited limit past outcome after := by
  have joined (polls : List Event) : polls ++ e :: past = (polls ++ [e]) ++ past := by simp
  cases h with
  | idle polls last polling idle pending =>
    rw [joined] at pending ⊢
    refine .idle (polls ++ [e]) last ?_ idle pending
    rw [← List.cons_append]
    exact fun e' he => (List.mem_append.1 he).elim (polling e') (poll e')
  | expired polls expired rested =>
    rw [joined] at expired rested ⊢
    exact .expired _ expired rested

theorem Settled.of_ok {a : α} (h : Settled limit (.ok a) past) : Ready limit past := by
  generalize same : Except.ok a = outcome at h
  cases h with
  | ready other ready => exact ready
  | expired => cases same

theorem Settled.of_error {e : DeviceError} (h : Settled limit (.error e : Except DeviceError α) past) :
    Settled limit (.error e : Except DeviceError β) past := by
  generalize same : (Except.error e : Except DeviceError α) = outcome at h
  cases h with
  | ready other ready =>
    subst same
    exact .ready (fun n same => other n (congrArg Except.error (Except.error.inj same))) ready
  | expired expired rested =>
    cases same
    exact .expired expired rested

theorem Settled.concluded {outcome : Except DeviceError α} (h : Settled limit outcome past) :
    Concluded limit outcome past := by
  cases h with
  | ready other ready => exact ⟨ready.rested, fun n same => absurd same (other n)⟩
  | expired expired rested =>
    refine ⟨rested, fun n same => .inr ⟨?_, expired⟩⟩
    cases same
    rfl

theorem Concluded.of_errors {result : Except DeviceError α} {result' : Except DeviceError β}
    (h : Concluded limit result past) (same : ∀ e, result' = .error e → result = .error e) :
    Concluded limit result' past :=
  ⟨h.rested, fun n failed => h.timeout n (same _ failed)⟩

theorem Concluded.map {result : Except DeviceError α} (h : Concluded limit result past) (f : α → β) :
    Concluded limit (result.map f) past := by
  refine h.of_errors fun e failed => ?_
  cases result with
  | error e' =>
    cases failed
    rfl
  | ok a => cases failed

theorem Concluded.nil (limit : Nat) (result : Except DeviceError α) : Concluded limit result [] :=
  ⟨rfl, fun _ _ => .inl rfl⟩

end Ends

theorem Routine.Tracked.of_unaided {A : Nat → Word → Prop} {R : List Event → Event → Prop}
    {Q : α → List Event → Prop} {past : List Event} {p : Routine α} {a : α}
    (h : p.unaided? = some a) (ha : Q a past) : p.Tracked A R Q past := by
  induction p with
  | done b =>
    cases h
    exact ha
  | log e next ih => exact ih h
  | _ => cases h

namespace Controller

variable {c : Controller} {past : List Event} {limit : Nat}

theorem tracked_poll {n : Nat} (positive : 0 < limit) (counted : busyRun past + n = limit)
    (pending : n = 0 ∨ ¬ Expired limit past) (rested : Rested past) :
    (poll limit n).run.Tracked ModeClear (Admits limit) (Waited limit past) past := by
  induction n generalizing past with
  | zero =>
    rw [poll_zero]
    exact .expired [] (expired_of_busyRun positive (Nat.le_of_eq counted.symm)) rested
  | succ n ih =>
    have unexpired : ¬ Expired limit past := by simpa using pending
    rw [poll_succ]
    intro v _
    refine ⟨.of_plain rested rfl, ?_⟩
    have polled : IsPolling [.read Offset.status v] := by simp [IsPolling]
    dsimp only
    split
    · rename_i busy
      have isBusy : (Event.read Offset.status v).isBusyPoll = true := decide_eq_true ⟨rfl, busy⟩
      have longer : busyRun (.read Offset.status v :: past) = busyRun past + 1 := by
        simp only [busyRun, isBusy, if_true]
      -- the handshake has expired only if no poll is left
      have pending : n = 0 ∨ ¬ Expired limit (.read Offset.status v :: past) := by
        by_cases last : n = 0
        · exact .inl last
        · right
          rintro (run | before)
          · omega
          · exact unexpired before
      exact (ih (by omega) pending rfl).imp fun _ _ => Waited.of_cons polled
    · rename_i idle
      have quiet : (Event.read Offset.status v).isBusyPoll = false :=
        decide_eq_false fun busy => idle busy.2
      refine .idle [] _ polled ?_ (not_expired_cons positive unexpired quiet)
      exact decide_eq_true ⟨rfl, Bool.eq_false_iff.2 idle⟩

theorem tracked_waitReady (ready : Ready c.pollLimit past) :
    c.waitReady.run.Tracked ModeClear (Admits c.pollLimit) (Waited c.pollLimit past) past :=
  tracked_poll c.pollLimit_pos (by rw [ready.counted, Nat.zero_add]) (.inr ready.pending) ready.rested

theorem tracked_poll_rested (limit' n : Nat) (rested : Rested past) :
    (poll limit' n).run.Tracked ModeClear (Admits limit)
      (fun _ after => Rested after ∧ ∃ later, after = later ++ past) past := by
  induction n generalizing past with
  | zero =>
    rw [poll_zero]
    exact ⟨rested, [], rfl⟩
  | succ n ih =>
    rw [poll_succ]
    intro v _
    refine ⟨.of_plain rested rfl, ?_⟩
    dsimp only
    split
    · have rested : Rested (.read Offset.status v :: past) := rfl
      refine (ih rested).imp ?_
      rintro _ _ ⟨rested, later, rfl⟩
      exact ⟨rested, later ++ [.read Offset.status v], by simp⟩
    · exact ⟨rfl, [.read Offset.status v], rfl⟩

theorem tracked_power (up : Bool) (rested : Rested past) :
    (power up).Tracked ModeClear (Admits limit)
      (fun _ after => ∃ command, after = .write Offset.mode command :: .read Offset.mode 0 :: past) past := by
  intro v clear
  obtain rfl := clear rfl
  refine ⟨.of_plain rested rfl, .of_plain rfl ?_, _, rfl⟩
  cases up <;> rfl

theorem tracked_powerUp_ready (positive : 0 < limit) (ready : Ready limit past) :
    (power true).Tracked ModeClear (Admits limit) (fun _ => Ready limit) past := by
  refine (tracked_power true ready.rested).imp ?_
  rintro _ _ ⟨command, rfl⟩
  exact .of_pending positive (not_expired_cons positive ready.pending rfl) rfl rfl

theorem tracked_refresh (rested : Rested past) :
    refresh.Tracked ModeClear (Admits limit)
      (fun _ after => after = .write Offset.mode Mode.refreshCommand :: past) past :=
  ⟨.of_plain rested rfl, rfl⟩

theorem tracked_settled {op : Operation α} {f : α → Operation β}
    (h : op.run.Tracked ModeClear (Admits limit) (Settled limit) past)
    (hf : ∀ a after, Ready limit after →
      (f a).run.Tracked ModeClear (Admits limit) (Settled limit) after) :
    (op >>= f).run.Tracked ModeClear (Admits limit) (Settled limit) past :=
  tracked_andThen h (fun _ _ => Settled.of_error) fun a after settled => hf a after settled.of_ok

theorem settled_pure (a : α) (ready : Ready limit past) :
    (pure a : Operation α).run.Tracked ModeClear (Admits limit) (Settled limit) past :=
  .ready nofun ready

theorem settled_lift {p : Routine α} (h : p.Tracked ModeClear (Admits limit) (fun _ => Ready limit) past) :
    (liftM p : Operation α).run.Tracked ModeClear (Admits limit) (Settled limit) past :=
  tracked_lift (h.imp fun _ _ => .ready nofun)

theorem settled_note (level : Log.Level) (source : Log.Source) (message : String)
    (ready : Ready limit past) : (liftM (note level source message) : Operation Unit).run.Tracked
      ModeClear (Admits limit) (Settled limit) past :=
  settled_lift ready

theorem tracked_command (address command : Word) (positive : 0 < limit)
    (rowCommand : (Event.write Offset.mode command).isRowCommand) {poll : Event} {earlier : List Event}
    (idle : poll.isIdlePoll) (pending : ¬ Expired limit (poll :: earlier)) :
    Admits limit (poll :: earlier) (.write Offset.address address) ∧
    Admits limit (.write Offset.address address :: poll :: earlier) (.write Offset.mode command) := by
  have unaddressed : poll.isAddressing = false := by
    cases poll <;> first | rfl | cases idle
  have later : ¬ Expired limit (.write Offset.address address :: poll :: earlier) :=
    not_expired_cons positive pending rfl
  have noCommand : (Event.write Offset.address address).isRowCommand = false := by
    simp [Event.isRowCommand, Event.isProgram, Event.isRowRead, Offset.address, Offset.mode]
  constructor
  · refine ⟨fun _ => idle, ?_, Bool.noConfusion, ?_, fun _ => pending⟩
    · simp [noCommand]
    · simp [unaddressed]
  · exact ⟨Bool.noConfusion, fun _ => rfl, Bool.noConfusion, fun _ => rowCommand, fun _ => later⟩

theorem rowRead_command (mode : ReadMode) : (Event.write Offset.mode mode.command).isRowRead = true := by
  cases mode <;> rfl

theorem tracked_readPhysical (index : Word) (mode : ReadMode) (ready : Ready c.pollLimit past) :
    (c.readPhysical index mode).run.Tracked ModeClear (Admits c.pollLimit) (Settled c.pollLimit) past := by
  have positive := c.pollLimit_pos
  unfold readPhysical
  refine tracked_settled (settled_lift (tracked_powerUp_ready positive ready)) fun _ past ready => ?_
  refine tracked_andThen (tracked_waitReady ready) ?_ ?_
  · rintro _ _ (_ | ⟨polls, expired, rested⟩)
    exact .expired expired rested
  rintro _ _ ⟨polls, poll, -, idle, pending⟩
  have rowCommand : (Event.write Offset.mode mode.command).isRowCommand = true := by
    simp [Event.isRowCommand, rowRead_command]
  obtain ⟨addressed, commanded⟩ := tracked_command index mode.command positive rowCommand idle
    pending
  refine tracked_lift_bind (P := fun _ after => after = .write Offset.address index ::
    (poll :: polls ++ past)) ⟨addressed, rfl⟩ ?_
  rintro _ _ rfl
  refine tracked_lift_bind (P := fun _ after => after = .write Offset.mode mode.command ::
    .write Offset.address index :: (poll :: polls ++ past)) ⟨commanded, rfl⟩ ?_
  rintro _ _ rfl
  have sent : Ready c.pollLimit (.write Offset.mode mode.command :: .write Offset.address index ::
      (poll :: polls ++ past)) :=
    .of_pending positive (not_expired_cons positive pending rfl) rfl rfl
  refine tracked_andThen (tracked_waitReady sent) ?_ ?_
  · rintro _ _ (_ | ⟨polls, expired, rested⟩)
    exact .expired expired rested
  rintro _ _ ⟨polls', poll', polling, idle', pending'⟩
  refine tracked_lift fun v _ => ⟨?_, .ready nofun (.of_pending positive pending' rfl rfl)⟩
  have unaddressed : poll'.isAddressing = false := by
    cases poll' <;> first | rfl | cases idle'
  refine ⟨nofun, nofun, fun _ => ⟨idle', poll' :: polls', _, _, rfl, polling, rowRead_command mode⟩, ?_,
    fun _ => pending'⟩
  simp [unaddressed]

theorem tracked_programBit (word bit : Word) (row : Row) (ready : Ready c.pollLimit past) :
    (c.programBit word bit row).run.Tracked ModeClear (Admits c.pollLimit) (Settled c.pollLimit) past := by
  have positive := c.pollLimit_pos
  unfold programBit
  refine tracked_andThen (tracked_waitReady ready) ?_ ?_
  · rintro _ _ (_ | ⟨polls, expired, rested⟩)
    exact .expired expired rested
  rintro _ _ ⟨polls, poll, -, idle, pending⟩
  obtain ⟨addressed, commanded⟩ := tracked_command (Address.compose word bit row)
    (Mode.program ||| Mode.execute) positive rfl idle pending
  refine tracked_lift_bind (P := fun _ after => after = .write Offset.address
    (Address.compose word bit row) :: (poll :: polls ++ past)) ⟨addressed, rfl⟩ ?_
  rintro _ _ rfl
  refine settled_lift ⟨commanded, ?_⟩
  exact .of_pending positive (not_expired_cons positive pending rfl) rfl rfl

theorem tracked_pulses (word : Word) (row : Row) (bits : List Nat) (ready : Ready c.pollLimit past) :
    (forM bits fun bit => c.programBit word (BitVec.ofNat 32 bit) row).run.Tracked ModeClear
      (Admits c.pollLimit) (Settled c.pollLimit) past := by
  induction bits generalizing past with
  | nil => exact settled_pure _ ready
  | cons bit bits ih =>
    rw [List.forM_cons]
    exact tracked_settled (tracked_programBit word _ row ready) fun _ _ ready => ih ready

theorem tracked_writeRow (word value : Word) (row : Row) (failed : Nat) (ready : Ready c.pollLimit past) :
    (c.writeRow word value row failed).run.Tracked ModeClear (Admits c.pollLimit)
      (Settled c.pollLimit) past := by
  unfold writeRow
  refine tracked_settled (settled_note _ _ _ ready) fun _ _ ready => ?_
  refine tracked_settled (tracked_readPhysical _ _ ready) fun before _ ready => ?_
  refine tracked_settled (tracked_pulses word row _ ready) fun _ _ ready => ?_
  refine tracked_settled (tracked_readPhysical _ _ ready) fun margin _ ready => ?_
  refine tracked_settled (settled_note _ _ _ ready) fun _ _ ready => ?_
  dsimp only
  split
  · exact tracked_settled (settled_note _ _ _ ready) fun _ _ ready => settled_pure _ ready
  · exact settled_pure _ ready

theorem tracked_writeWord (word value : Word) (ready : Ready c.pollLimit past) :
    (c.writeWord word value).run.Tracked ModeClear (Admits c.pollLimit) (Settled c.pollLimit) past := by
  unfold writeWord
  refine tracked_settled (tracked_writeRow word value _ _ ready) fun low _ ready => ?_
  refine tracked_settled (tracked_writeRow word value _ _ ready) fun high _ ready => ?_
  refine tracked_settled (settled_lift ((tracked_refresh ready.rested).imp ?_)) fun _ _ ready => ?_
  · rintro _ _ rfl
    exact .of_pending c.pollLimit_pos ready.pending rfl rfl
  dsimp only
  split
  · exact .ready nofun ready
  · exact settled_pure _ ready

theorem shadow_plain (k : Nat) (v : Word) : (Event.read (Offset.shadow + k) v).isGuarded = false := by
  have apart : Offset.shadow + k ≠ Offset.readData := by
    simp only [Offset.shadow, Offset.readData]
    omega
  refine Event.isGuarded_eq_false.2 ⟨rfl, rfl, decide_eq_false apart⟩

theorem tracked_readWords (k count : Nat) (rested : Rested past) :
    (readWords (Offset.shadow + k) count).Tracked ModeClear (Admits limit) (fun _ => Rested) past := by
  induction count generalizing past k with
  | zero => exact rested
  | succ count ih =>
    unfold readWords
    refine Tracked.bind (P := fun _ => Rested) ?_ fun _ _ rested => ?_
    · exact fun v _ => ⟨.of_plain rested (shadow_plain k v), rfl⟩
    · rw [Nat.add_assoc]
      exact (ih (k + 4) rested).bind fun _ _ rested => rested

theorem tracked_withClock {body : Operation α}
    (h : body.run.Tracked ModeClear (Admits limit) (Concluded limit) []) :
    (withClock body).run.Tracked ModeClear (Admits limit) (Concluded limit) [] := by
  intro answer
  cases answer with
  | error e => exact .nil _ _
  | ok _ =>
    have off : (body.run >>= fun result => Routine.disable (.done result)).Tracked ModeClear
        (Admits limit) (Concluded limit) [] := h.bind fun _ _ concluded => concluded
    exact off

theorem tracked_withClock_settled {body : Operation α}
    (h : body.run.Tracked ModeClear (Admits limit) (Settled limit) []) :
    (withClock body).run.Tracked ModeClear (Admits limit) (Concluded limit) [] :=
  tracked_withClock (h.imp fun _ _ => Settled.concluded)

theorem tracked_guarded {guard : Operation α} {f : α → Operation β} {r : Except DeviceError α}
    (checked : guard.run.unaided? = some r)
    (h : ∀ a, (f a).run.Tracked ModeClear (Admits limit) (Concluded limit) []) :
    (guard >>= f).run.Tracked ModeClear (Admits limit) (Concluded limit) [] := by
  have silent : guard.run.Tracked ModeClear (Admits limit) (fun _ after => after = []) [] :=
    .of_unaided checked rfl
  refine tracked_andThen silent ?_ ?_
  · rintro e _ rfl
    exact .nil _ _
  · rintro a _ rfl
    exact h a

theorem tracked_readShadow (addr : Word) :
    (readShadow addr).run.Tracked ModeClear (Admits limit) (Concluded limit) [] := by
  refine tracked_guarded (checkAddress_unaided addr) fun _ => ?_
  refine tracked_withClock (tracked_lift fun v _ => ⟨.of_plain rfl (shadow_plain _ v), rfl, nofun⟩)

theorem tracked_readBuffer (addr : Word) (buffer : List Byte) :
    (readBuffer addr buffer).Tracked ModeClear (Admits limit) (fun x => Concluded limit x.1) [] := by
  unfold readBuffer
  dsimp only
  split
  · exact .nil _ _
  split
  · exact .nil _ _
  split
  · exact .nil _ _
  have nothing : Rested [] := rfl
  have words : (withClock (readWords (Offset.shadow + addr.toNat)
      ((min buffer.length fuseBytes + 3) / 4) : Operation (List Word))).run.Tracked ModeClear
      (Admits limit) (Concluded limit) [] :=
    tracked_withClock (tracked_lift
      ((tracked_readWords _ _ nothing).imp fun _ _ rested => ⟨rested, nofun⟩))
  refine words.bind fun outcome _ concluded => ?_
  cases outcome with
  | error e => exact concluded.of_errors fun _ h => by cases h; rfl
  | ok words => exact concluded.of_errors nofun

end Controller

namespace Device

variable (d : Device)

theorem tracked_readPhysical (index : Word) (mode : ReadMode) :
    (d.readPhysical index mode).run.Tracked ModeClear (Admits d.controller.pollLimit)
      (Concluded d.controller.pollLimit) [] :=
  Controller.tracked_withClock_settled (Controller.tracked_readPhysical index mode (.nil _))

theorem tracked_programBit (word bit : Word) (row : Row) :
    (d.programBit word bit row).run.Tracked ModeClear (Admits d.controller.pollLimit)
      (Concluded d.controller.pollLimit) [] :=
  Controller.tracked_guarded d.checkProgramming_unaided fun _ =>
    Controller.tracked_withClock_settled (Controller.tracked_programBit word bit row (.nil _))

theorem tracked_writeWord (word value : Word) :
    (d.writeWord word value).run.Tracked ModeClear (Admits d.controller.pollLimit)
      (Concluded d.controller.pollLimit) [] :=
  Controller.tracked_guarded d.checkProgramming_unaided fun _ =>
    Controller.tracked_withClock_settled (Controller.tracked_writeWord word value (.nil _))

theorem tracked_tail {outcome : Except DeviceError WriteReport} {past : List Event}
    (settled : Settled d.controller.pollLimit outcome past) :
    (do
      note .debug .device s!"write(): ret={Device.outcomeText outcome}"
      Controller.power true
      Controller.refresh
      let settled ← Operation.attempt d.controller.waitReady
      let report ← Operation.ofOutcome outcome
      Operation.ofOutcome settled
      return report : Operation WriteReport).run.Tracked ModeClear (Admits d.controller.pollLimit)
      (Concluded d.controller.pollLimit) past := by
  have positive := d.controller.pollLimit_pos
  refine tracked_lift_bind (P := fun _ after => after = past) rfl ?_
  rintro _ _ rfl
  cases settled with
  | ready other ready =>
    refine tracked_lift_bind (Controller.tracked_powerUp_ready positive ready) fun _ past ready => ?_
    refine tracked_lift_bind (Controller.tracked_refresh ready.rested) ?_
    rintro _ _ rfl
    have refreshed : Ready d.controller.pollLimit (.write Offset.mode Mode.refreshCommand :: past) :=
      .of_pending positive ready.pending rfl rfl
    refine tracked_attempt_bind (Controller.tracked_waitReady refreshed) fun waited after ends => ?_
    cases ends with
    | idle polls poll polling idle pending =>
      have rested : Rested (poll :: polls ++ .write Offset.mode Mode.refreshCommand :: past) := by
        cases poll <;> first | rfl | cases idle
      cases outcome with
      | error e => exact ⟨rested, fun n same => absurd same (other n)⟩
      | ok report => exact ⟨rested, nofun⟩
    | expired polls expired rested =>
      cases outcome with
      | error e => exact ⟨rested, fun n same => absurd same (other n)⟩
      | ok report =>
        refine ⟨rested, ?_⟩
        rintro n ⟨⟩
        exact .inr ⟨rfl, expired⟩
  | expired expired rested =>
    -- the handshake that failed stays the cause, whatever the last one comes to
    refine tracked_lift_bind (Controller.tracked_power true rested) ?_
    rintro _ _ ⟨command, rfl⟩
    refine tracked_lift_bind (Controller.tracked_refresh rfl) ?_
    rintro _ _ rfl
    refine tracked_attempt_bind (Controller.tracked_poll_rested _ _ rfl) ?_
    rintro waited _ ⟨rested, later, rfl⟩
    refine ⟨rested, ?_⟩
    rintro n ⟨⟩
    exact .inr ⟨rfl, (expired.append [_, _, _]).append later⟩

theorem tracked_write (addr value : Word) :
    (d.write addr value).run.Tracked ModeClear (Admits d.controller.pollLimit)
      (Concluded d.controller.pollLimit) [] := by
  unfold write
  refine Controller.tracked_guarded (r := .ok ()) rfl fun _ => ?_
  refine Controller.tracked_guarded d.checkProgramming_unaided fun _ => ?_
  refine Controller.tracked_guarded (Controller.checkAddress_unaided addr) fun _ => ?_
  refine Controller.tracked_withClock ?_
  refine tracked_attempt_bind (Controller.tracked_writeWord (addr / 4) value (.nil _)) ?_
  exact fun outcome past settled => d.tracked_tail settled

end Device

namespace OpenFile

variable (f : OpenFile) (d : Device) {limit : Nat}

theorem tracked_read (buffer : List Byte) :
    (f.read buffer).Tracked ModeClear (Admits limit) (fun t => Concluded limit t.result) [] := by
  unfold read
  split
  · exact .nil _ _
  refine (Controller.tracked_readBuffer _ _).bind ?_
  rintro ⟨outcome, page⟩ _ concluded
  cases outcome with
  | error e => exact concluded.of_errors fun _ h => h
  | ok n => exact concluded.of_errors nofun

theorem tracked_written {A : Nat → Word → Prop} {R : List Event → Event → Prop}
    {Q : Transfer → List Event → Prop} {past : List Event} {data : List Byte}
    (h : Q ⟨.ok data.length, f.advance data.length, data⟩ past) : (f.written data).Tracked A R Q past := by
  unfold written
  split
  · exact h
  · trivial

theorem tracked_write (data : List Byte) :
    (f.write d data).Tracked ModeClear (Admits d.controller.pollLimit)
      (fun t => Concluded d.controller.pollLimit t.result) [] := by
  unfold write
  split
  · refine (d.tracked_write _ _).bind fun outcome _ concluded => ?_
    cases outcome with
    | error e => exact concluded.of_errors fun _ h => by cases h; rfl
    | ok report => exact f.tracked_written (concluded.of_errors nofun)
  · exact .nil _ _

theorem tracked_control (request : Word) (argument : List Byte) :
    (f.control d request argument).Tracked ModeClear (Admits d.controller.pollLimit)
      (fun t => Concluded d.controller.pollLimit t.result) [] := by
  unfold control
  split
  · exact .nil _ _
  split
  · refine (Controller.tracked_readShadow _).bind fun outcome _ concluded => ?_
    cases outcome with
    | error e => exact concluded.of_errors fun _ h => by cases h; rfl
    | ok value => exact concluded.of_errors nofun
  split
  · refine (d.tracked_write _ _).bind fun outcome _ concluded => ?_
    cases outcome with
    | error e => exact concluded.of_errors fun _ h => by cases h; rfl
    | ok report => exact concluded.of_errors nofun
  · exact .nil _ _

end OpenFile

namespace Session

theorem tracked_perform (session : Session) (call : Call) :
    (session.perform call).Tracked ModeClear (Admits session.device.controller.pollLimit)
      (fun x => Concluded session.device.controller.pollLimit x.1.result) [] := by
  have same := session.prepared_device call
  cases call with
  | programmingEnabled => exact .nil _ _
  | readShadow addr => exact (Controller.tracked_readShadow addr).rewrap _ fun _ _ h => h.map _
  | readBuffer addr buffer =>
    exact (Controller.tracked_readBuffer addr buffer).rewrap _ fun _ _ h => h.map _
  | readPhysical index mode =>
    refine (Controller.tracked_guarded (ReadMode.ofWord_unaided mode) fun mode =>
      session.device.tracked_readPhysical index mode).rewrap _ fun _ _ h => h.map _
  | programBit word bit row =>
    exact (session.device.tracked_programBit word bit row).rewrap _ fun _ _ h => h.map _
  | writeWord word value =>
    exact (session.device.tracked_writeWord word value).rewrap _ fun _ _ h => h.map _
  | write addr value => exact (session.device.tracked_write addr value).rewrap _ fun _ _ h => h.map _
  | openFile => exact .nil _ _
  | onFile number call =>
    rw [← same]
    cases call with
    | tell => exact .nil _ _
    | seek target => exact .nil _ _
    | read buffer => exact (OpenFile.tracked_read _ buffer).rewrap _ fun _ _ h => h.map _
    | write data => exact (OpenFile.tracked_write _ _ data).rewrap _ fun _ _ h => h.map _
    | control request argument =>
      exact (OpenFile.tracked_control _ _ request argument).rewrap _ fun _ _ h => h.map _

end Session

end FuseBank
