import FuseBank.Routine

/-!
What carries a routine out: a register bus and a clock gate over one state. `Routine.run` gives
the result, the state afterwards and the events in order; `run_bind` says that a sequence of two
routines runs as its parts do, one after the other.

A request can be one that the hardware cannot serve at all. The `Fault` ends the run on the spot,
as one of the routine's own does, with the state and the events reached so far.
-/

namespace FuseBank

instance decidableEqExcept {ε α : Type} [DecidableEq ε] [DecidableEq α] : DecidableEq (Except ε α)
  | .error e, .error f => decidable_of_iff (e = f) ⟨congrArg Except.error, Except.error.inj⟩
  | .ok a, .ok b => decidable_of_iff (a = b) ⟨congrArg Except.ok, Except.ok.inj⟩
  | .error _, .ok _ | .ok _, .error _ => isFalse nofun

/-- The hardware's answer to one request, with the log lines that it wrote meanwhile. -/
structure Reply (σ α : Type) where
  result : Except Fault α
  state : σ
  log : List Log.Entry := []

structure Bus (σ : Type) where
  read : Nat → σ → Reply σ Word
  write : Nat → Word → σ → Reply σ Unit

structure Gate (σ : Type) where
  enable : σ → Reply σ (Except DeviceError Unit)
  disable : σ → Reply σ Unit

def Gate.alwaysOn (σ : Type) : Gate σ where
  enable := fun s => { result := .ok (.ok ()), state := s }
  disable := fun s => { result := .ok (), state := s }

structure Hardware (σ : Type) where
  bus : Bus σ
  gate : Gate σ

/-- What happened during a run. A write is noted before the bus carries it out and a read after,
so a write may be one that faulted and a read never is. -/
inductive Event where
  | read (offset : Nat) (value : Word)
  | write (offset : Nat) (value : Word)
  | enabled
  | refused (error : DeviceError)
  | disabled
  | log (entry : Log.Entry)
deriving DecidableEq

namespace Event

def isAccess : Event → Bool
  | read _ _ | write _ _ => true
  | _ => false

def isClockCall : Event → Bool
  | enabled | refused _ | disabled => true
  | _ => false

def entry? : Event → Option Log.Entry
  | log entry => some entry
  | _ => none

def ofEnable : Except DeviceError Unit → Event
  | .ok () => enabled
  | .error e => refused e

end Event

structure Run (σ α : Type) where
  result : Except Fault α
  state : σ
  events : List Event

namespace Run

variable {σ α β : Type}

def after (earlier : List Event) (r : Run σ α) : Run σ α := { r with events := earlier ++ r.events }

@[simp] theorem after_nil (r : Run σ α) : r.after [] = r := rfl

theorem after_after (es fs : List Event) (r : Run σ α) :
    (r.after es).after fs = r.after (fs ++ es) := by simp [after]

def andThen (r : Run σ α) (next : α → σ → Run σ β) : Run σ β :=
  match r.result with
  | .error f => ⟨.error f, r.state, r.events⟩
  | .ok a => (next a r.state).after r.events

theorem after_andThen (es : List Event) (r : Run σ α) (next : α → σ → Run σ β) :
    (r.after es).andThen next = (r.andThen next).after es := by
  unfold andThen after
  cases r.result <;> simp

theorem andThen_andThen {γ : Type} (r : Run σ α) (f : α → σ → Run σ β) (g : β → σ → Run σ γ) :
    (r.andThen f).andThen g = r.andThen fun a s => (f a s).andThen g := by
  cases h : r.result with
  | error e => simp [andThen, h]
  | ok a => simp only [andThen, h]; exact after_andThen _ _ g

def accesses (r : Run σ α) : List Event := r.events.filter Event.isAccess

def logLines (r : Run σ α) : List Log.Entry := r.events.filterMap Event.entry?

end Run

namespace Reply

variable {σ α β : Type}

def toRun (r : Reply σ α) : Run σ α := ⟨r.result, r.state, r.log.map .log⟩

end Reply

namespace Routine

variable {σ α β : Type}

/-- Carries a routine out; `seen` holds the earlier events, the latest first. -/
def exec (hw : Hardware σ) : Routine α → σ → List Event → Run σ α
  | done a, s, seen => ⟨.ok a, s, seen.reverse⟩
  | halt fault, s, seen => ⟨.error fault, s, seen.reverse⟩
  | read offset next, s, seen =>
    let r := hw.bus.read offset s
    let seen := r.log.foldl (fun es e => .log e :: es) seen
    match r.result with
    | .error f => ⟨.error f, r.state, seen.reverse⟩
    | .ok v => exec hw (next v) r.state (.read offset v :: seen)
  | write offset value next, s, seen =>
    let r := hw.bus.write offset value s
    let seen := r.log.foldl (fun es e => .log e :: es) (.write offset value :: seen)
    match r.result with
    | .error f => ⟨.error f, r.state, seen.reverse⟩
    | .ok () => exec hw next r.state seen
  | enable next, s, seen =>
    let r := hw.gate.enable s
    let seen := r.log.foldl (fun es e => .log e :: es) seen
    match r.result with
    | .error f => ⟨.error f, r.state, seen.reverse⟩
    | .ok answer => exec hw (next answer) r.state (.ofEnable answer :: seen)
  | disable next, s, seen =>
    let r := hw.gate.disable s
    let seen := r.log.foldl (fun es e => .log e :: es) seen
    match r.result with
    | .error f => ⟨.error f, r.state, seen.reverse⟩
    | .ok () => exec hw next r.state (.disabled :: seen)
  | log entry next, s, seen => exec hw next s (.log entry :: seen)

def run (hw : Hardware σ) (p : Routine α) (s : σ) : Run σ α := exec hw p s []

private theorem foldl_log (es : List Log.Entry) (seen : List Event) :
    es.foldl (fun es e => .log e :: es) seen = (es.map Event.log).reverse ++ seen := by
  induction es generalizing seen with
  | nil => rfl
  | cons e es ih => simp [ih]

theorem exec_eq (hw : Hardware σ) (p : Routine α) (s : σ) (seen : List Event) :
    exec hw p s seen = (run hw p s).after seen.reverse := by
  unfold run
  induction p generalizing s seen with
  | done a => simp [exec, Run.after]
  | halt fault => simp [exec, Run.after]
  | read o next ih =>
    simp only [exec, foldl_log]
    split
    · simp [Run.after]
    · rw [ih, ih _ _ (_ :: _)]; simp [Run.after]
  | write o v next ih =>
    simp only [exec, foldl_log]
    split
    · simp [Run.after]
    · rw [ih, ih _ (_ ++ _)]; simp [Run.after]
  | enable next ih =>
    simp only [exec, foldl_log]
    split
    · simp [Run.after]
    · rw [ih, ih _ _ (_ :: _)]; simp [Run.after]
  | disable next ih =>
    simp only [exec, foldl_log]
    split
    · simp [Run.after]
    · rw [ih, ih _ (_ :: _)]; simp [Run.after]
  | log e next ih =>
    simp only [exec]
    rw [ih, ih _ [_]]; simp [Run.after]

@[simp] theorem run_done (hw : Hardware σ) (a : α) (s : σ) : run hw (done a) s = ⟨.ok a, s, []⟩ := rfl

@[simp] theorem run_halt (hw : Hardware σ) (fault : Fault) (s : σ) :
    run hw (halt fault : Routine α) s = ⟨.error fault, s, []⟩ := rfl

theorem run_read (hw : Hardware σ) (o : Nat) (next : Word → Routine α) (s : σ) :
    run hw (read o next) s =
      (hw.bus.read o s).toRun.andThen fun v s => (run hw (next v) s).after [.read o v] := by
  simp only [run, exec, foldl_log, Run.andThen, Reply.toRun]
  split <;> rename_i h <;> simp only [h]
  · simp
  · rw [exec_eq]; simp [run, Run.after]

theorem run_write (hw : Hardware σ) (o : Nat) (v : Word) (next : Routine α) (s : σ) :
    run hw (write o v next) s =
      ((hw.bus.write o v s).toRun.after [.write o v]).andThen fun _ s => run hw next s := by
  simp only [run, exec, foldl_log, Run.andThen, Reply.toRun, Run.after]
  split <;> rename_i h <;> simp only [h]
  · simp
  · rw [exec_eq]; simp [run, Run.after]

theorem run_enable (hw : Hardware σ) (next : Except DeviceError Unit → Routine α) (s : σ) :
    run hw (enable next) s =
      (hw.gate.enable s).toRun.andThen fun a s => (run hw (next a) s).after [.ofEnable a] := by
  simp only [run, exec, foldl_log, Run.andThen, Reply.toRun]
  split <;> rename_i h <;> simp only [h]
  · simp
  · rw [exec_eq]; simp [run, Run.after]

theorem run_disable (hw : Hardware σ) (next : Routine α) (s : σ) :
    run hw (disable next) s =
      (hw.gate.disable s).toRun.andThen fun _ s => (run hw next s).after [.disabled] := by
  simp only [run, exec, foldl_log, Run.andThen, Reply.toRun]
  split <;> rename_i h <;> simp only [h]
  · simp
  · rw [exec_eq]; simp [run, Run.after]

theorem run_log (hw : Hardware σ) (e : Log.Entry) (next : Routine α) (s : σ) :
    run hw (log e next) s = (run hw next s).after [.log e] := by
  simp only [run, exec]
  rw [exec_eq]
  rfl

theorem run_bind (hw : Hardware σ) (p : Routine α) (f : α → Routine β) (s : σ) :
    run hw (p >>= f) s = (run hw p s).andThen fun a s => run hw (f a) s := by
  induction p generalizing s with
  | done a => simp [Run.andThen]
  | halt fault => rfl
  | read o next ih => simp only [read_bind, run_read, ih, Run.andThen_andThen, Run.after_andThen]
  | write o v next ih => simp only [write_bind, run_write, ih, Run.andThen_andThen]
  | enable next ih => simp only [enable_bind, run_enable, ih, Run.andThen_andThen, Run.after_andThen]
  | disable next ih =>
    simp only [disable_bind, run_disable, ih, Run.andThen_andThen, Run.after_andThen]
  | log e next ih => simp only [log_bind, run_log, ih, Run.after_andThen]

end Routine

end FuseBank
