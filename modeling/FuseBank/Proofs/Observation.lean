import FuseBank.Address
import FuseBank.Proofs.Traffic

/-!
Reading traffic: which program commands it holds and which rows were read out. A program command is
told by the address that was written directly before it, a value of the data register by the address
and the command that stood when it was read.

`Shows es ps rs` sums a stretch of traffic up without regard to what came before it, so stretches
can be put together (`Shows.append`).
-/

namespace FuseBank

def Event.isProgram : Event → Bool
  | write o v => o = Offset.mode ∧ v &&& Mode.program ≠ 0
  | _ => false

def Event.addressed? : Event → Option Word
  | write o v => if o = Offset.address then some v else none
  | _ => none

namespace Traffic

def programs : Option Event → List Event → List (Option Word)
  | _, [] => []
  | prev, e :: es =>
    if e.isProgram then prev.bind Event.addressed? :: programs (some e) es
    else programs (some e) es

/-- The addresses that were written directly before a program command. -/
def pulses (prev : Option Event) (es : List Event) : List Word := (programs prev es).filterMap id

/-- A value of the data register, with the values last written to the address and the mode
register. -/
structure Reading where
  address : Option Word
  command : Option Word
  value : Word
deriving DecidableEq

def readings (address command : Option Word) : List Event → List Reading
  | [] => []
  | .read o v :: es =>
    if o = Offset.readData then ⟨address, command, v⟩ :: readings address command es
    else readings address command es
  | .write o v :: es =>
    if o = Offset.address then readings (some v) command es
    else if o = Offset.mode then readings address (some v) es
    else readings address command es
  | _ :: es => readings address command es

variable {es fs : List Event}

theorem programs_append (prev : Option Event) (es fs : List Event) :
    programs prev (es ++ fs) =
      programs prev es ++ programs (es.foldl (fun _ e => some e) prev) fs := by
  induction es generalizing prev with
  | nil => rfl
  | cons e es ih =>
    simp only [List.cons_append, programs, List.foldl_cons, ih]
    split <;> rfl

theorem readings_append (address command : Option Word) (es fs : List Event) :
    ∃ address' command', readings address command (es ++ fs) =
      readings address command es ++ readings address' command' fs := by
  induction es generalizing address command with
  | nil => exact ⟨address, command, rfl⟩
  | cons e es ih =>
    cases e with
    | read o v =>
      obtain ⟨a, c, h⟩ := ih address command
      refine ⟨a, c, ?_⟩
      simp only [List.cons_append, readings, h]
      split <;> rfl
    | write o v =>
      simp only [List.cons_append, readings]
      split
      · exact ih _ _
      · split
        · exact ih _ _
        · exact ih _ _
    | enabled => exact ih _ _
    | refused e => exact ih _ _
    | disabled => exact ih _ _
    | log entry => exact ih _ _

/-- Whatever came before, the traffic sends the pulses `ps` and reads out `rs`. -/
structure Shows (es : List Event) (ps : List Word) (rs : List Reading) : Prop where
  pulses : ∀ prev, pulses prev es = ps
  readings : ∀ address command, readings address command es = rs

theorem Shows.nil : Shows [] [] [] := ⟨fun _ => rfl, fun _ _ => rfl⟩

theorem Shows.append {ps qs : List Word} {rs ts : List Reading} (h : Shows es ps rs)
    (h' : Shows fs qs ts) : Shows (es ++ fs) (ps ++ qs) (rs ++ ts) where
  pulses prev := by
    rw [Traffic.pulses, programs_append, List.filterMap_append, ← h.pulses prev,
      ← h'.pulses (es.foldl (fun _ e => some e) prev)]
    rfl
  readings a c := by
    obtain ⟨a', c', happ⟩ := readings_append a c es fs
    rw [happ, h.readings, h'.readings]

def IsPolling (es : List Event) : Prop := ∀ e ∈ es, ∃ v, e = .read Offset.status v

theorem IsPolling.readings (h : IsPolling es) (address command : Option Word) (fs : List Event) :
    readings address command (es ++ fs) = Traffic.readings address command fs := by
  induction es with
  | nil => rfl
  | cons e es ih =>
    obtain ⟨v, rfl⟩ := h e (by simp)
    simpa [Traffic.readings, Offset.status, Offset.readData] using
      ih fun e he => h e (List.mem_cons_of_mem _ he)

theorem IsPolling.programs (h : IsPolling es) (prev : Option Event) : programs prev es = [] := by
  induction es generalizing prev with
  | nil => rfl
  | cons e es ih =>
    obtain ⟨v, rfl⟩ := h e (by simp)
    simpa [Traffic.programs, Event.isProgram] using
      ih (fun e he => h e (List.mem_cons_of_mem _ he)) _

theorem IsPolling.shows (h : IsPolling es) : Shows es [] [] where
  pulses prev := by rw [Traffic.pulses, h.programs]; rfl
  readings a c := by simpa [Traffic.readings] using h.readings a c []

end Traffic

end FuseBank
