import FuseBank.DeviceError
import FuseBank.Log

/-!
Register sequences before anything carries them out. A `Routine` is a finite tree of requests:
reading or writing a register, switching the clock, writing a log line. What follows a request
depends on its answer alone, so a routine says what is done on every hardware at once. A routine
that cannot go on halts with a `Fault`, and whatever was to follow is not done.

An `Operation` is a routine that may fail with a `DeviceError`.
-/

namespace FuseBank

inductive Fault where
  | outsideWindow (offset : Nat)
  | overflow
  | noSuchIndex
deriving DecidableEq

def Fault.message? : Fault → Option String
  | outsideWindow offset => some s!"register offset {Text.Hex.marked offset} outside window"
  | overflow | noSuchIndex => none

inductive Routine (α : Type) where
  | done (result : α)
  | halt (fault : Fault)
  | read (offset : Nat) (next : Word → Routine α)
  | write (offset : Nat) (value : Word) (next : Routine α)
  | enable (next : Except DeviceError Unit → Routine α)
  | disable (next : Routine α)
  | log (entry : Log.Entry) (next : Routine α)

namespace Routine

def bind {α β : Type} : Routine α → (α → Routine β) → Routine β
  | done a, f => f a
  | halt fault, _ => halt fault
  | read offset next, f => read offset fun v => bind (next v) f
  | write offset value next, f => write offset value (bind next f)
  | enable next, f => enable fun r => bind (next r) f
  | disable next, f => disable (bind next f)
  | log entry next, f => log entry (bind next f)

instance : Monad Routine where
  pure := done
  bind := bind

variable {α β : Type}

@[simp] theorem pure_eq (a : α) : (pure a : Routine α) = done a := rfl
@[simp] theorem done_bind (a : α) (f : α → Routine β) : (done a >>= f) = f a := rfl
@[simp] theorem halt_bind (fault : Fault) (f : α → Routine β) : (halt fault >>= f) = halt fault := rfl
@[simp] theorem read_bind (o : Nat) (next : Word → Routine α) (f : α → Routine β) :
    (read o next >>= f) = read o fun v => next v >>= f := rfl
@[simp] theorem write_bind (o : Nat) (v : Word) (next : Routine α) (f : α → Routine β) :
    (write o v next >>= f) = write o v (next >>= f) := rfl
@[simp] theorem enable_bind (next : Except DeviceError Unit → Routine α) (f : α → Routine β) :
    (enable next >>= f) = enable fun r => next r >>= f := rfl
@[simp] theorem disable_bind (next : Routine α) (f : α → Routine β) :
    (disable next >>= f) = disable (next >>= f) := rfl
@[simp] theorem log_bind (e : Log.Entry) (next : Routine α) (f : α → Routine β) :
    (log e next >>= f) = log e (next >>= f) := rfl

private theorem bind_done (p : Routine α) : bind p done = p := by
  induction p with
  | done a => rfl
  | halt fault => rfl
  | read o next ih => exact congrArg (read o) (funext ih)
  | write o v next ih => exact congrArg (write o v) ih
  | enable next ih => exact congrArg enable (funext ih)
  | disable next ih => exact congrArg disable ih
  | log e next ih => exact congrArg (log e) ih

private theorem bind_bind {γ : Type} (p : Routine α) (f : α → Routine β) (g : β → Routine γ) :
    bind (bind p f) g = bind p fun a => bind (f a) g := by
  induction p with
  | done a => rfl
  | halt fault => rfl
  | read o next ih => exact congrArg (read o) (funext ih)
  | write o v next ih => exact congrArg (write o v) ih
  | enable next ih => exact congrArg enable (funext ih)
  | disable next ih => exact congrArg disable ih
  | log e next ih => exact congrArg (log e) ih

instance : LawfulMonad Routine :=
  LawfulMonad.mk' Routine bind_done (fun _ _ => rfl) bind_bind

def readRegister (offset : Nat) : Routine Word := read offset done
def writeRegister (offset : Nat) (value : Word) : Routine Unit := write offset value (done ())
def note (level : Log.Level) (source : Log.Source) (message : String) : Routine Unit :=
  log ⟨level, source, message⟩ (done ())

def setBits (offset : Nat) (mask : Word) : Routine Unit := do
  let value ← readRegister offset
  writeRegister offset (value ||| mask)

end Routine

abbrev Operation (α : Type) := ExceptT DeviceError Routine α

namespace Operation

variable {α : Type}

/-- Goes on after a failure, with the outcome at hand. -/
def attempt (op : Operation α) : Operation (Except DeviceError α) := ExceptT.lift op.run

def ofOutcome (outcome : Except DeviceError α) : Operation α := ExceptT.mk (pure outcome)

end Operation

end FuseBank
