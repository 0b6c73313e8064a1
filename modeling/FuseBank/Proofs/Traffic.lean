import FuseBank.Hardware

/-!
What a routine can send to registers and clock, whatever hardware answers it. `Sends p es r` says
that with some answers `p` sends `es` and ends with `r`, or is cut short after `es` if `r` is `none`.
`sends_run` makes every run such a sequence, so a fact about `Sends` holds on every bus and every
clock, and at every point where a run can stop.
-/

namespace FuseBank

variable {σ α β : Type}

/-- Register accesses and clock calls; log lines are no traffic. -/
def Event.isTraffic (e : Event) : Bool := e.isAccess || e.isClockCall

def Run.traffic (r : Run σ α) : List Event := r.events.filter Event.isTraffic

namespace Run

@[simp] theorem traffic_after (es : List Event) (r : Run σ α) :
    (r.after es).traffic = es.filter Event.isTraffic ++ r.traffic := by
  simp [traffic, after]

theorem accesses_eq (r : Run σ α) : r.accesses = r.traffic.filter Event.isAccess := by
  rw [accesses, traffic, List.filter_filter]
  congr 1
  funext e
  cases e <;> rfl

end Run

namespace Reply

variable {r : Reply σ α} (next : α → σ → Run σ β)

private theorem quiet_log (r : Reply σ α) : (r.log.map Event.log).filter Event.isTraffic = [] := by
  simp [List.filter_eq_nil_iff, Event.isTraffic, Event.isAccess, Event.isClockCall]

theorem andThen_error {f : Fault} (h : r.result = .error f) :
    (r.toRun.andThen next).result = .error f ∧ (r.toRun.andThen next).traffic = [] ∧
      (r.toRun.andThen next).state = r.state := by
  simp only [Run.andThen, toRun, h, Run.traffic, quiet_log, and_self]

theorem andThen_served {a : α} (h : r.result = .ok a) :
    r.toRun.andThen next = (next a r.state).after (r.log.map Event.log) := by
  simp only [Run.andThen, toRun, h]

theorem andThen_ok {a : α} (h : r.result = .ok a) :
    (r.toRun.andThen next).result = (next a r.state).result ∧
      (r.toRun.andThen next).traffic = (next a r.state).traffic ∧
      (r.toRun.andThen next).state = (next a r.state).state := by
  rw [andThen_served next h, Run.traffic_after, quiet_log]
  exact ⟨rfl, rfl, rfl⟩

theorem andThen_cases (r : Reply σ α) :
    (∃ f, r.result = .error f ∧ (r.toRun.andThen next).result = .error f ∧
      (r.toRun.andThen next).traffic = []) ∨
    ∃ a, r.result = .ok a ∧ (r.toRun.andThen next).result = (next a r.state).result ∧
      (r.toRun.andThen next).traffic = (next a r.state).traffic := by
  cases h : r.result with
  | error f =>
    obtain ⟨result, traffic, -⟩ := andThen_error next h
    exact .inl ⟨f, rfl, result, traffic⟩
  | ok a =>
    obtain ⟨result, traffic, -⟩ := andThen_ok next h
    exact .inr ⟨a, rfl, result, traffic⟩

end Reply

namespace Routine

inductive Sends : Routine α → List Event → Option α → Prop where
  | cut (p : Routine α) : Sends p [] none
  | done (a : α) : Sends (done a) [] (some a)
  | read {o : Nat} {next : Word → Routine α} {es : List Event} {r : Option α} (v : Word) :
      Sends (next v) es r → Sends (read o next) (.read o v :: es) r
  | write {o : Nat} {v : Word} {next : Routine α} {es : List Event} {r : Option α} :
      Sends next es r → Sends (write o v next) (.write o v :: es) r
  | enable {next : Except DeviceError Unit → Routine α} {es : List Event} {r : Option α}
      (answer : Except DeviceError Unit) :
      Sends (next answer) es r → Sends (enable next) (.ofEnable answer :: es) r
  | disable {next : Routine α} {es : List Event} {r : Option α} :
      Sends next es r → Sends (disable next) (.disabled :: es) r
  | log {e : Log.Entry} {next : Routine α} {es : List Event} {r : Option α} :
      Sends next es r → Sends (log e next) es r

section Steps

variable {hw : Hardware σ} {s : σ}

theorem run_read_ok {o : Nat} {v : Word} (served : (hw.bus.read o s).result = .ok v)
    (next : Word → Routine α) : ∃ earlier, earlier.filter Event.isTraffic = [.read o v] ∧
      run hw (read o next) s = (run hw (next v) (hw.bus.read o s).state).after earlier := by
  rw [run_read, Reply.andThen_served _ served, Run.after_after]
  refine ⟨_, ?_, rfl⟩
  rw [List.filter_append, Reply.quiet_log]
  rfl

theorem run_write_ok {o : Nat} {v : Word} (served : (hw.bus.write o v s).result = .ok ())
    (next : Routine α) : ∃ earlier, earlier.filter Event.isTraffic = [.write o v] ∧
      run hw (write o v next) s = (run hw next (hw.bus.write o v s).state).after earlier := by
  rw [run_write, Run.after_andThen, Reply.andThen_served _ served, Run.after_after]
  refine ⟨_, ?_, rfl⟩
  rw [List.filter_append, Reply.quiet_log]
  rfl

theorem run_enable_ok {answer : Except DeviceError Unit} (served : (hw.gate.enable s).result = .ok answer)
    (next : Except DeviceError Unit → Routine α) :
    ∃ earlier, earlier.filter Event.isTraffic = [.ofEnable answer] ∧
      run hw (enable next) s = (run hw (next answer) (hw.gate.enable s).state).after earlier := by
  rw [run_enable, Reply.andThen_served _ served, Run.after_after]
  refine ⟨_, ?_, rfl⟩
  rw [List.filter_append, Reply.quiet_log]
  cases answer <;> rfl

theorem run_disable_ok (served : (hw.gate.disable s).result = .ok ()) (next : Routine α) :
    ∃ earlier, earlier.filter Event.isTraffic = [.disabled] ∧
      run hw (disable next) s = (run hw next (hw.gate.disable s).state).after earlier := by
  rw [run_disable, Reply.andThen_served _ served, Run.after_after]
  refine ⟨_, ?_, rfl⟩
  rw [List.filter_append, Reply.quiet_log]
  rfl

variable (hw s)

theorem run_read_cases (o : Nat) (next : Word → Routine α) :
    ((run hw (read o next) s).result.toOption = none ∧ (run hw (read o next) s).traffic = []) ∨
    ∃ v, (hw.bus.read o s).result = .ok v ∧
      (run hw (read o next) s).result = (run hw (next v) (hw.bus.read o s).state).result ∧
      (run hw (read o next) s).traffic =
        .read o v :: (run hw (next v) (hw.bus.read o s).state).traffic := by
  rw [run_read]
  obtain ⟨f, -, hr, ht⟩ | ⟨v, hv, hr, ht⟩ := Reply.andThen_cases
    (fun v s => (run hw (next v) s).after [.read o v]) (hw.bus.read o s)
  · rw [hr, ht]
    exact .inl ⟨rfl, rfl⟩
  · rw [hr, ht, Run.traffic_after]
    exact .inr ⟨v, hv, rfl, rfl⟩

theorem run_write_cases (o : Nat) (v : Word) (next : Routine α) :
    ((run hw (write o v next) s).result.toOption = none ∧
      (run hw (write o v next) s).traffic = [.write o v]) ∨
    ((run hw (write o v next) s).result = (run hw next (hw.bus.write o v s).state).result ∧
      (run hw (write o v next) s).traffic =
        .write o v :: (run hw next (hw.bus.write o v s).state).traffic) := by
  rw [run_write, Run.after_andThen, Run.traffic_after]
  obtain ⟨f, -, hr, ht⟩ | ⟨_, -, hr, ht⟩ := Reply.andThen_cases
    (fun _ s => run hw next s) (hw.bus.write o v s)
  · rw [ht, Run.after, hr]
    exact .inl ⟨rfl, rfl⟩
  · rw [ht, Run.after, hr]
    exact .inr ⟨rfl, rfl⟩

theorem run_enable_cases (next : Except DeviceError Unit → Routine α) :
    ((run hw (enable next) s).result.toOption = none ∧ (run hw (enable next) s).traffic = []) ∨
    ∃ answer,
      (run hw (enable next) s).result = (run hw (next answer) (hw.gate.enable s).state).result ∧
      (run hw (enable next) s).traffic =
        .ofEnable answer :: (run hw (next answer) (hw.gate.enable s).state).traffic := by
  rw [run_enable]
  obtain ⟨f, -, hr, ht⟩ | ⟨answer, -, hr, ht⟩ := Reply.andThen_cases
    (fun a s => (run hw (next a) s).after [.ofEnable a]) (hw.gate.enable s)
  · rw [hr, ht]
    exact .inl ⟨rfl, rfl⟩
  · rw [hr, ht, Run.traffic_after]
    exact .inr ⟨answer, rfl, by cases answer <;> rfl⟩

theorem run_disable_cases (next : Routine α) :
    ((run hw (disable next) s).result.toOption = none ∧ (run hw (disable next) s).traffic = []) ∨
    ((run hw (disable next) s).result = (run hw next (hw.gate.disable s).state).result ∧
      (run hw (disable next) s).traffic =
        .disabled :: (run hw next (hw.gate.disable s).state).traffic) := by
  rw [run_disable]
  obtain ⟨f, -, hr, ht⟩ | ⟨_, -, hr, ht⟩ := Reply.andThen_cases
    (fun _ s => (run hw next s).after [.disabled]) (hw.gate.disable s)
  · rw [hr, ht]
    exact .inl ⟨rfl, rfl⟩
  · rw [hr, ht, Run.traffic_after]
    exact .inr ⟨rfl, rfl⟩

end Steps

theorem sends_run (hw : Hardware σ) (p : Routine α) (s : σ) :
    Sends p (run hw p s).traffic (run hw p s).result.toOption := by
  induction p generalizing s with
  | done a => exact .done a
  | halt fault => exact .cut _
  | read o next ih =>
    obtain ⟨hr, ht⟩ | ⟨v, -, hr, ht⟩ := run_read_cases hw s o next
    · rw [hr, ht]
      exact .cut _
    · rw [hr, ht]
      exact .read v (ih v _)
  | write o v next ih =>
    obtain ⟨hr, ht⟩ | ⟨hr, ht⟩ := run_write_cases hw s o v next
    · rw [hr, ht]
      exact .write (.cut _)
    · rw [hr, ht]
      exact .write (ih _)
  | enable next ih =>
    obtain ⟨hr, ht⟩ | ⟨answer, hr, ht⟩ := run_enable_cases hw s next
    · rw [hr, ht]
      exact .cut _
    · rw [hr, ht]
      exact .enable answer (ih answer _)
  | disable next ih =>
    obtain ⟨hr, ht⟩ | ⟨hr, ht⟩ := run_disable_cases hw s next
    · rw [hr, ht]
      exact .cut _
    · rw [hr, ht]
      exact .disable (ih _)
  | log e next ih =>
    rw [run_log, Run.traffic_after]
    exact .log (ih s)

theorem sends_of_returned {hw : Hardware σ} {p : Routine α} {s : σ} {a : α}
    (returned : (run hw p s).result = .ok a) : Sends p (run hw p s).traffic (some a) := by
  have sends := sends_run hw p s
  rwa [returned] at sends

theorem answer_of_read {hw : Hardware σ} {p : Routine α} {s : σ} {o : Nat} {v : Word}
    (h : .read o v ∈ (run hw p s).traffic) : ∃ s', (hw.bus.read o s').result = .ok v := by
  induction p generalizing s with
  | done a => cases h
  | halt fault => cases h
  | read o' next ih =>
    obtain ⟨-, ht⟩ | ⟨v', hv, -, ht⟩ := run_read_cases hw s o' next
    · simp [ht] at h
    · rw [ht, List.mem_cons] at h
      obtain h | h := h
      · cases h
        exact ⟨s, hv⟩
      · exact ih v' h
  | write o' v' next ih =>
    obtain ⟨-, ht⟩ | ⟨-, ht⟩ := run_write_cases hw s o' v' next
    · simp [ht] at h
    · exact ih (by simpa [ht] using h)
  | enable next ih =>
    obtain ⟨-, ht⟩ | ⟨answer, -, ht⟩ := run_enable_cases hw s next
    · simp [ht] at h
    · rw [ht, List.mem_cons] at h
      obtain h | h := h
      · cases answer <;> cases h
      · exact ih answer h
  | disable next ih =>
    obtain ⟨-, ht⟩ | ⟨-, ht⟩ := run_disable_cases hw s next
    · simp [ht] at h
    · exact ih (by simpa [ht] using h)
  | log e next ih => exact ih (s := s) (by simpa [run_log] using h)

theorem Sends.cutShort {p : Routine α} {es fs : List Event} {r : Option α} (h : Sends p es r)
    (hp : fs <+: es) : Sends p fs none := by
  induction h generalizing fs with
  | cut p => rw [List.prefix_nil.1 hp]; exact .cut p
  | done a => rw [List.prefix_nil.1 hp]; exact .cut _
  | read v _ ih =>
    obtain rfl | ⟨gs, rfl, hg⟩ := List.prefix_cons_iff.1 hp
    · exact .cut _
    · exact .read v (ih hg)
  | write _ ih =>
    obtain rfl | ⟨gs, rfl, hg⟩ := List.prefix_cons_iff.1 hp
    · exact .cut _
    · exact .write (ih hg)
  | enable answer _ ih =>
    obtain rfl | ⟨gs, rfl, hg⟩ := List.prefix_cons_iff.1 hp
    · exact .cut _
    · exact .enable answer (ih hg)
  | disable _ ih =>
    obtain rfl | ⟨gs, rfl, hg⟩ := List.prefix_cons_iff.1 hp
    · exact .cut _
    · exact .disable (ih hg)
  | log _ ih => exact .log (ih hp)

theorem sends_done {a : α} {es : List Event} {r : Option α} (h : Sends (done a) es r) :
    es = [] ∧ (r = none ∨ r = some a) := by
  cases h with
  | cut => exact ⟨rfl, .inl rfl⟩
  | done => exact ⟨rfl, .inr rfl⟩

theorem sends_bind {p : Routine α} {f : α → Routine β} {es : List Event} {r : Option β}
    (h : Sends (p >>= f) es r) :
    (r = none ∧ Sends p es none) ∨
      ∃ a es₁ es₂, es = es₁ ++ es₂ ∧ Sends p es₁ (some a) ∧ Sends (f a) es₂ r := by
  induction p generalizing es with
  | done a => exact .inr ⟨a, [], es, rfl, .done a, h⟩
  | halt fault =>
    cases h with
    | cut => exact .inl ⟨rfl, .cut _⟩
  | read o next ih =>
    cases h with
    | cut => exact .inl ⟨rfl, .cut _⟩
    | read v h =>
      obtain ⟨hr, h⟩ | ⟨a, es₁, es₂, rfl, h₁, h₂⟩ := ih v h
      · exact .inl ⟨hr, .read v h⟩
      · exact .inr ⟨a, _, es₂, rfl, .read v h₁, h₂⟩
  | write o v next ih =>
    cases h with
    | cut => exact .inl ⟨rfl, .cut _⟩
    | write h =>
      obtain ⟨hr, h⟩ | ⟨a, es₁, es₂, rfl, h₁, h₂⟩ := ih h
      · exact .inl ⟨hr, .write h⟩
      · exact .inr ⟨a, _, es₂, rfl, .write h₁, h₂⟩
  | enable next ih =>
    cases h with
    | cut => exact .inl ⟨rfl, .cut _⟩
    | enable answer h =>
      obtain ⟨hr, h⟩ | ⟨a, es₁, es₂, rfl, h₁, h₂⟩ := ih answer h
      · exact .inl ⟨hr, .enable answer h⟩
      · exact .inr ⟨a, _, es₂, rfl, .enable answer h₁, h₂⟩
  | disable next ih =>
    cases h with
    | cut => exact .inl ⟨rfl, .cut _⟩
    | disable h =>
      obtain ⟨hr, h⟩ | ⟨a, es₁, es₂, rfl, h₁, h₂⟩ := ih h
      · exact .inl ⟨hr, .disable h⟩
      · exact .inr ⟨a, _, es₂, rfl, .disable h₁, h₂⟩
  | log e next ih =>
    cases h with
    | cut => exact .inl ⟨rfl, .cut _⟩
    | log h =>
      obtain ⟨hr, h⟩ | ⟨a, es₁, es₂, rfl, h₁, h₂⟩ := ih h
      · exact .inl ⟨hr, .log h⟩
      · exact .inr ⟨a, _, es₂, rfl, .log h₁, h₂⟩

end Routine

namespace Operation
open Routine

variable {es : List Event}

theorem sends_pure {a : α} {r : Option (Except DeviceError α)}
    (h : Sends (pure a : Operation α).run es r) : es = [] ∧ (r = none ∨ r = some (.ok a)) :=
  sends_done h

theorem sends_throw {e : DeviceError} {r : Option (Except DeviceError α)}
    (h : Sends (throw e : Operation α).run es r) : es = [] ∧ (r = none ∨ r = some (.error e)) :=
  sends_done h

theorem sends_lift {p : Routine α} {r : Option (Except DeviceError α)}
    (h : Sends (liftM p : Operation α).run es r) : ∃ r', r = r'.map .ok ∧ Sends p es r' := by
  rw [ExceptT.run_liftM, map_eq_pure_bind] at h
  obtain ⟨rfl, hp⟩ | ⟨a, es₁, es₂, rfl, h₁, h₂⟩ := sends_bind h
  · exact ⟨none, rfl, hp⟩
  · obtain ⟨rfl, rfl | rfl⟩ := sends_done h₂
    · exact ⟨none, rfl, h₁.cutShort (by simp)⟩
    · exact ⟨some a, rfl, by simpa using h₁⟩

theorem sends_lift_bind {p : Routine α} {f : α → Operation β} {r : Option (Except DeviceError β)}
    (h : Sends (liftM p >>= f).run es r) :
    (r = none ∧ Sends p es none) ∨
      ∃ a es₁ es₂, es = es₁ ++ es₂ ∧ Sends p es₁ (some a) ∧ Sends (f a).run es₂ r := by
  rw [ExceptT.run_bind, ExceptT.run_liftM, bind_map_left] at h
  exact Routine.sends_bind h

theorem sends_andThen {op : Operation α} {f : α → Operation β} {r : Option (Except DeviceError β)}
    (h : Sends (op >>= f).run es r) :
    (∃ stop : Option DeviceError, r = stop.map .error ∧ Sends op.run es (stop.map .error)) ∨
      ∃ a es₁ es₂, es = es₁ ++ es₂ ∧ Sends op.run es₁ (some (.ok a)) ∧ Sends (f a).run es₂ r := by
  rw [ExceptT.run_bind] at h
  obtain ⟨rfl, hop⟩ | ⟨outcome, es₁, es₂, rfl, h₁, h₂⟩ := Routine.sends_bind h
  · exact .inl ⟨none, rfl, hop⟩
  · cases outcome with
    | ok a => exact .inr ⟨a, es₁, es₂, rfl, h₁, h₂⟩
    | error e =>
      obtain ⟨rfl, rfl | rfl⟩ := sends_done h₂
      · exact .inl ⟨none, rfl, h₁.cutShort (by simp)⟩
      · exact .inl ⟨some e, rfl, by simpa using h₁⟩

end Operation

end FuseBank
