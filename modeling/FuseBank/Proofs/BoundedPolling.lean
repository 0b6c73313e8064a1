import FuseBank.Emulation.RegisterFile
import FuseBank.Proofs.WriteSequence

/-!
How many polls a wait makes. The status reads of a bus are numbered; the wait makes them in this order
and no other access. It ends with the first that shows the macro idle, and gives up after as many reads
as its limit allows, whatever the bus answers (`waitReady_bounded`).
-/

namespace FuseBank
open Routine Operation

variable {σ : Type}

def Bus.polled (b : Bus σ) : σ → Nat → σ
  | s, 0 => s
  | s, n + 1 => b.polled (b.read Offset.status s).state n

theorem Bus.polled_succ (b : Bus σ) (s : σ) (n : Nat) :
    b.polled s (n + 1) = (b.read Offset.status (b.polled s n)).state := by
  induction n generalizing s with
  | zero => rfl
  | succ n ih => exact ih _

/-- The bus answers its first `n` status reads, with `values`. -/
def Bus.Reports (b : Bus σ) (s : σ) (values : Nat → Word) (n : Nat) : Prop :=
  ∀ i < n, (b.read Offset.status (b.polled s i)).result = .ok (values i)

namespace Bus.Reports

variable {b : Bus σ} {s : σ} {values : Nat → Word} {n : Nat}

theorem head (h : b.Reports s values (n + 1)) : (b.read Offset.status s).result = .ok (values 0) :=
  h 0 (Nat.succ_pos n)

theorem tail (h : b.Reports s values (n + 1)) :
    b.Reports (b.read Offset.status s).state (fun i => values (i + 1)) n :=
  fun i below => h (i + 1) (Nat.succ_lt_succ below)

theorem less (h : b.Reports s values (n + 1)) : b.Reports s values n :=
  fun i below => h i (Nat.lt_succ_of_lt below)

end Bus.Reports

def statusReads (values : Nat → Word) (n : Nat) : List Event :=
  (List.range n).map fun i => .read Offset.status (values i)

theorem statusReads_cons (values : Nat → Word) (n : Nat) :
    statusReads values (n + 1) =
      .read Offset.status (values 0) :: statusReads (fun i => values (i + 1)) n := by
  simp [statusReads, List.range_succ_eq_map]

theorem statusReads_concat (values : Nat → Word) (n : Nat) :
    statusReads values (n + 1) = statusReads values n ++ [.read Offset.status (values n)] := by
  simp [statusReads, List.range_succ]

/-- The first `n` values have the busy bit. It is the lowest; the others do not matter. -/
def AllBusy (values : Nat → Word) (n : Nat) : Prop := ∀ i < n, (values i).getLsbD 0 = true

theorem AllBusy.tail {values : Nat → Word} {n : Nat} (h : AllBusy values (n + 1)) :
    AllBusy (fun i => values (i + 1)) n :=
  fun i below => h (i + 1) (Nat.succ_lt_succ below)

namespace Controller

variable {hw : Hardware σ} {s : σ} {values : Nat → Word} {n polls : Nat} (limit : Nat)

theorem poll_length {es : List Event} {r : Option (Except DeviceError Unit)}
    (h : Sends (poll limit polls).run es r) : es.length ≤ polls := by
  induction polls generalizing es with
  | zero =>
    rw [poll_zero] at h
    cases h with
    | cut => exact Nat.le_refl 0
    | log h => simp [(sends_done h).1]
  | succ polls ih =>
    rw [poll_succ] at h
    cases h with
    | cut => exact Nat.zero_le _
    | read v h =>
      dsimp only at h
      split at h
      · exact Nat.succ_le_succ (ih h)
      · simp [(sends_done h).1]

theorem run_poll_busy (left : Nat) (answers : hw.bus.Reports s values n) (busy : AllBusy values n) :
    ∃ earlier, earlier.filter Event.isTraffic = statusReads values n ∧
      run hw (poll limit (left + n)).run s =
        (run hw (poll limit left).run (hw.bus.polled s n)).after earlier := by
  induction n generalizing s values with
  | zero => exact ⟨[], rfl, rfl⟩
  | succ n ih =>
    obtain ⟨first, sent, goesOn⟩ := run_read_ok answers.head
      fun v => if v.getLsbD 0 then (poll limit (left + n)).run else done (.ok ())
    obtain ⟨earlier, rest, after⟩ := ih answers.tail busy.tail
    refine ⟨first ++ earlier, ?_, ?_⟩
    · rw [List.filter_append, sent, rest, statusReads_cons]
      rfl
    · rw [← Nat.add_assoc, poll_succ, goesOn, if_pos (busy 0 (Nat.succ_pos n)), after, Run.after_after]
      rfl

theorem poll_idle (within : n < polls) (answers : hw.bus.Reports s values (n + 1))
    (busy : AllBusy values n) (idle : (values n).getLsbD 0 = false) :
    Traces hw (poll limit polls).run s (.ok ()) (statusReads values (n + 1))
      (hw.bus.polled s (n + 1)) := by
  obtain ⟨left, rfl⟩ : ∃ left, polls = left + 1 + n := ⟨polls - n - 1, by omega⟩
  obtain ⟨earlier, sent, goesOn⟩ := run_poll_busy limit (left + 1) answers.less busy
  have last : Traces hw (poll limit (left + 1)).run (hw.bus.polled s n) (.ok ())
      [.read Offset.status (values n)] (hw.bus.polled s (n + 1)) := by
    rw [poll_succ, Bus.polled_succ]
    refine traces_read (answers n (Nat.lt_succ_self n)) ?_
    rw [idle]
    exact traces_done _ _
  have whole := last.prepend goesOn
  rwa [sent, ← statusReads_concat] at whole

theorem poll_timeout (answers : hw.bus.Reports s values polls) (busy : AllBusy values polls) :
    Traces hw (poll limit polls).run s (.error (.timeout limit)) (statusReads values polls)
      (hw.bus.polled s polls) := by
  obtain ⟨earlier, sent, goesOn⟩ := run_poll_busy limit 0 answers busy
  have givesUp : Traces hw (poll limit 0).run (hw.bus.polled s polls) (.error (.timeout limit)) []
      (hw.bus.polled s polls) := ⟨rfl, rfl, rfl⟩
  rw [Nat.zero_add] at goesOn
  have whole := givesUp.prepend goesOn
  rwa [sent, List.append_nil] at whole

theorem poll_fault {fault : Fault} (within : n < polls) (answers : hw.bus.Reports s values n)
    (busy : AllBusy values n)
    (fails : (hw.bus.read Offset.status (hw.bus.polled s n)).result = .error fault) :
    (run hw (poll limit polls).run s).result = .error fault ∧
      (run hw (poll limit polls).run s).traffic = statusReads values n := by
  obtain ⟨left, rfl⟩ : ∃ left, polls = left + 1 + n := ⟨polls - n - 1, by omega⟩
  obtain ⟨earlier, sent, goesOn⟩ := run_poll_busy limit (left + 1) answers busy
  obtain ⟨result, quiet, -⟩ := Reply.andThen_error (fun v s =>
    (run hw (if v.getLsbD 0 then (poll limit left).run else done (.ok ())) s).after
      [.read Offset.status v]) fails
  rw [goesOn, Run.traffic_after, sent, poll_succ, run_read, quiet, List.append_nil]
  exact ⟨result, rfl⟩

end Controller

/-- A wait reads the status and does nothing else, and never more often than its limit says, where zero
counts as one. It ends well with the first read that does not show the busy bit, if that is within the
limit; if all of the reads up to the limit show it, they are all made and the wait times out. A bus that
cannot serve one of these reads ends the wait there. -/
theorem waitReady_bounded (hw : Hardware σ) (s : σ) (limit : Word) (values : Nat → Word) :
    let polls := max limit.toNat 1
    let r := run hw (Controller.ofLimit limit).waitReady.run s
    ((∀ e ∈ r.traffic, ∃ v, e = .read Offset.status v) ∧ r.traffic.length ≤ polls) ∧
    (∀ k < polls, hw.bus.Reports s values (k + 1) → AllBusy values k → (values k).getLsbD 0 = false →
      r.result = .ok (.ok ()) ∧ r.traffic = statusReads values (k + 1) ∧
        r.state = hw.bus.polled s (k + 1)) ∧
    (hw.bus.Reports s values polls → AllBusy values polls →
      r.result = .ok (.error (.timeout polls)) ∧ r.traffic = statusReads values polls ∧
        r.state = hw.bus.polled s polls) ∧
    ∀ k < polls, ∀ fault, hw.bus.Reports s values k → AllBusy values k →
      (hw.bus.read Offset.status (hw.bus.polled s k)).result = .error fault →
      r.result = .error fault ∧ r.traffic = statusReads values k := by
  intro polls r
  have sent : Sends (Controller.poll polls polls).run r.traffic r.result.toOption := sends_run hw _ s
  refine ⟨⟨(Controller.poll_sends sent).1, Controller.poll_length polls sent⟩, ?_, ?_, ?_⟩
  · intro k within answers busy idle
    obtain ⟨result, traffic, state⟩ := Controller.poll_idle polls within answers busy idle
    exact ⟨result, traffic, state⟩
  · intro answers busy
    obtain ⟨result, traffic, state⟩ := Controller.poll_timeout polls answers busy
    exact ⟨result, traffic, state⟩
  · intro k within fault answers busy fails
    exact Controller.poll_fault polls within answers busy fails

def RegisterFile.slow : RegisterFile := { scripts := [(Offset.status, [0x1, 0x1, 0xfffffffe])] }

theorem waitReady_bounded_slow :
    let values (i : Nat) : Word := if i < 2 then 0x1 else 0xfffffffe
    let wait (limit : Word) :=
      run RegisterFile.hardware (Controller.ofLimit limit).waitReady.run RegisterFile.slow
    RegisterFile.hardware.bus.Reports RegisterFile.slow values 3 ∧ AllBusy values 2 ∧
    (wait 3).result = .ok (.ok ()) ∧ (wait 3).traffic = statusReads values 3 ∧
    (wait 2).result = .ok (.error (.timeout 2)) ∧ (wait 2).traffic = statusReads values 2 ∧
    (wait 0).result = .ok (.error (.timeout 1)) := by
  -- Three polls are enough for it, and two are not.
  intro values wait
  have answers : RegisterFile.hardware.bus.Reports RegisterFile.slow values 3 := by
    unfold Bus.Reports
    decide
  have busy : AllBusy values 2 := by
    unfold AllBusy
    decide
  obtain ⟨-, idle, -, -⟩ := waitReady_bounded RegisterFile.hardware RegisterFile.slow 3 values
  obtain ⟨-, -, late, -⟩ := waitReady_bounded RegisterFile.hardware RegisterFile.slow 2 values
  obtain ⟨-, -, once, -⟩ := waitReady_bounded RegisterFile.hardware RegisterFile.slow 0 values
  obtain ⟨settled, three, -⟩ := idle 2 (by decide) answers busy (by decide)
  obtain ⟨expired, two, -⟩ := late answers.less busy
  obtain ⟨first, -, -⟩ := once answers.less.less fun i below => busy i (Nat.lt_of_lt_of_le below (by decide))
  exact ⟨answers, busy, settled, three, expired, two, first⟩

end FuseBank
