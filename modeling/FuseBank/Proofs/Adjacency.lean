import FuseBank.Proofs.Halting
import FuseBank.Proofs.Traffic

/-!
Relations between an event and the one directly before it. `Chained R prev es` says that `R` holds
all along `es`, where `prev` is what came before. `Along R Q prev p` is the same for everything that
`p` can send, with `Q` for its result and last event, and `Keeps R p` asks it after any `prev`; it
goes through sequences step by step.
-/

namespace FuseBank

variable {σ α β : Type} {R : Option Event → Event → Prop}

structure Bus.Answers (bus : Bus σ) : Prop where
  read : ∀ o s, ∃ v, (bus.read o s).result = .ok v
  write : ∀ o v s, (bus.write o v s).result = .ok ()

/-- The hardware serves every request that `R` admits, whatever the answer may be. -/
structure Hardware.Serves (hw : Hardware σ) (R : Option Event → Event → Prop) : Prop where
  read : ∀ prev o s, (∀ v, R prev (.read o v)) → ∃ v, (hw.bus.read o s).result = .ok v
  write : ∀ prev o v s, R prev (.write o v) → (hw.bus.write o v s).result = .ok ()
  enable : ∀ prev s, (∀ answer, R prev (.ofEnable answer)) →
    ∃ answer, (hw.gate.enable s).result = .ok answer
  disable : ∀ prev s, R prev .disabled → (hw.gate.disable s).result = .ok ()

def Chained (R : Option Event → Event → Prop) : Option Event → List Event → Prop
  | _, [] => True
  | prev, e :: es => R prev e ∧ Chained R (some e) es

theorem Chained.imp {S : Option Event → Event → Prop} {prev : Option Event} {es : List Event}
    (h : Chained R prev es) (himp : ∀ prev e, R prev e → S prev e) : Chained S prev es := by
  induction es generalizing prev with
  | nil => trivial
  | cons e es ih => exact ⟨himp prev e h.1, ih h.2⟩

theorem Chained.append {prev : Option Event} {es fs : List Event} (h : Chained R prev es)
    (hf : ∀ last, Chained R last fs) : Chained R prev (es ++ fs) := by
  induction es generalizing prev with
  | nil => exact hf prev
  | cons e es ih => exact ⟨h.1, ih h.2⟩

theorem Chained.of_mem {prev : Option Event} {es : List Event} (h : Chained R prev es) {e : Event}
    (he : e ∈ es) : ∃ before, R before e := by
  induction es generalizing prev with
  | nil => cases he
  | cons e' es ih =>
    obtain rfl | he := List.mem_cons.1 he
    · exact ⟨prev, h.1⟩
    · exact ih h.2 he

namespace Routine

def Along (R : Option Event → Event → Prop) (Q : α → Option Event → Prop) :
    Option Event → Routine α → Prop
  | prev, done a => Q a prev
  | _, halt _ => True
  | prev, read o next => ∀ v, R prev (.read o v) ∧ Along R Q (some (.read o v)) (next v)
  | prev, write o v next => R prev (.write o v) ∧ Along R Q (some (.write o v)) next
  | prev, enable next =>
    ∀ answer, R prev (.ofEnable answer) ∧ Along R Q (some (.ofEnable answer)) (next answer)
  | prev, disable next => R prev .disabled ∧ Along R Q (some .disabled) next
  | prev, log _ next => Along R Q prev next

theorem Along.chained {p : Routine α} {Q : α → Option Event → Prop} {prev : Option Event}
    {es : List Event} {r : Option α} (hp : p.Along R Q prev) (h : Sends p es r) :
    Chained R prev es := by
  induction h generalizing prev with
  | cut p => trivial
  | done a => trivial
  | read v _ ih => exact ⟨(hp v).1, ih (hp v).2⟩
  | write _ ih => exact ⟨hp.1, ih hp.2⟩
  | enable answer _ ih => exact ⟨(hp answer).1, ih (hp answer).2⟩
  | disable _ ih => exact ⟨hp.1, ih hp.2⟩
  | log _ ih => exact ih hp

/-- On hardware that serves all that may be asked of it a run gets to its end, unless the routine
halts of its own accord. -/
theorem Along.served {hw : Hardware σ} (serves : hw.Serves R) {p : Routine α}
    {Q : α → Option Event → Prop} {prev : Option Event} (hp : p.Along R Q prev) {F : Fault → Prop}
    (halts : p.HaltsOnly F) (s : σ) :
    (∃ a, (run hw p s).result = .ok a) ∨ ∃ fault, F fault ∧ (run hw p s).result = .error fault := by
  induction p generalizing prev s with
  | done a => exact .inl ⟨a, rfl⟩
  | halt fault => exact .inr ⟨fault, halts, rfl⟩
  | read o next ih =>
    obtain ⟨v, hv⟩ := serves.read prev o s fun v => (hp v).1
    obtain ⟨_, -, goesOn⟩ := run_read_ok hv next
    rw [goesOn]
    exact ih v (hp v).2 (halts v) _
  | write o v next ih =>
    obtain ⟨_, -, goesOn⟩ := run_write_ok (serves.write prev o v s hp.1) next
    rw [goesOn]
    exact ih hp.2 halts _
  | enable next ih =>
    obtain ⟨answer, served⟩ := serves.enable prev s fun answer => (hp answer).1
    obtain ⟨_, -, goesOn⟩ := run_enable_ok served next
    rw [goesOn]
    exact ih answer (hp answer).2 (halts answer) _
  | disable next ih =>
    obtain ⟨_, -, goesOn⟩ := run_disable_ok (serves.disable prev s hp.1) next
    rw [goesOn]
    exact ih hp.2 halts _
  | log e next ih =>
    rw [run_log]
    exact ih hp halts s

theorem Along.returns {hw : Hardware σ} (answers : hw.bus.Answers)
    (clockless : ∀ prev e, R prev e → e.isClockCall = false) {p : Routine α}
    {Q : α → Option Event → Prop} {prev : Option Event} (hp : p.Along R Q prev)
    (never : p.HaltsOnly fun _ => False) (s : σ) : ∃ a, (run hw p s).result = .ok a := by
  have serves : hw.Serves R := by
    refine ⟨fun _ o s _ => answers.read o s, fun _ o v s _ => answers.write o v s, ?_, ?_⟩
    · intro prev s admitted
      have call := clockless _ _ (admitted (.ok ()))
      cases call
    · intro prev s admitted
      have call := clockless _ _ admitted
      cases call
  exact (hp.served serves never s).resolve_right fun ⟨_, no, _⟩ => no

theorem Along.bind {p : Routine α} {f : α → Routine β} {P : α → Option Event → Prop}
    {Q : β → Option Event → Prop} {prev : Option Event} (hp : p.Along R P prev)
    (hf : ∀ a last, P a last → (f a).Along R Q last) : (p >>= f).Along R Q prev := by
  induction p generalizing prev with
  | done a => exact hf a prev hp
  | halt fault => trivial
  | read o next ih => exact fun v => ⟨(hp v).1, ih v (hp v).2⟩
  | write o v next ih => exact ⟨hp.1, ih hp.2⟩
  | enable next ih => exact fun answer => ⟨(hp answer).1, ih answer (hp answer).2⟩
  | disable next ih => exact ⟨hp.1, ih hp.2⟩
  | log e next ih => exact ih hp

theorem Along.rewrap {p : Routine α} {P : β → Option Event → Prop} {Q : α → Option Event → Prop}
    {prev : Option Event} (hp : p.Along R Q prev) (f : α → β) (h : ∀ a last, Q a last → P (f a) last) :
    (p >>= fun a => done (f a)).Along R P prev :=
  hp.bind fun a last ha => h a last ha

theorem Along.ended {p : Routine α} {Q : α → Option Event → Prop} {prev : Option Event}
    (hp : p.Along R Q prev) {es : List Event} {a : α} (h : Sends p es (some a)) :
    Q a (es.foldl (fun _ e => some e) prev) := by
  generalize hr : some a = r at h
  induction h generalizing prev with
  | cut p => cases hr
  | done b =>
    cases hr
    exact hp
  | read v _ ih => exact ih (hp v).2 hr
  | write _ ih => exact ih hp.2 hr
  | enable answer _ ih => exact ih (hp answer).2 hr
  | disable _ ih => exact ih hp.2 hr
  | log _ ih => exact ih hp hr

def Keeps (R : Option Event → Event → Prop) (p : Routine α) : Prop :=
  ∀ prev, p.Along R (fun _ _ => True) prev

theorem Keeps.chained {p : Routine α} (hp : p.Keeps R) (hw : Hardware σ) (s : σ) :
    Chained R none (run hw p s).traffic :=
  (hp none).chained (sends_run hw p s)

theorem keeps_done (a : α) : (done a).Keeps R := fun _ => trivial

theorem keeps_any (p : Routine α) : p.Keeps fun _ _ => True := by
  intro prev
  induction p generalizing prev with
  | done a => trivial
  | halt fault => trivial
  | read o next ih => exact fun v => ⟨trivial, ih v _⟩
  | write o v next ih => exact ⟨trivial, ih _⟩
  | enable next ih => exact fun answer => ⟨trivial, ih answer _⟩
  | disable next ih => exact ⟨trivial, ih _⟩
  | log e next ih => exact ih prev

theorem keeps_note (level : Log.Level) (source : Log.Source) (message : String) :
    (note level source message).Keeps R := fun _ => trivial

theorem keeps_read {o : Nat} {next : Word → Routine α} (h : ∀ prev v, R prev (.read o v))
    (hn : ∀ v, (next v).Keeps R) : (read o next).Keeps R :=
  fun prev v => ⟨h prev v, hn v _⟩

theorem keeps_readRegister {o : Nat} (h : ∀ prev v, R prev (.read o v)) :
    (readRegister o).Keeps R :=
  keeps_read h keeps_done

theorem Keeps.bind {p : Routine α} {f : α → Routine β} (hp : p.Keeps R)
    (hf : ∀ a, (f a).Keeps R) : (p >>= f).Keeps R :=
  fun prev => (hp prev).bind fun a last _ => hf a last

theorem Keeps.map {p : Routine α} (f : α → β) (hp : p.Keeps R) : (f <$> p).Keeps R := by
  rw [map_eq_pure_bind]
  exact hp.bind fun a => keeps_done (f a)

end Routine

namespace Operation
open Routine

theorem keeps_pure (a : α) : (pure a : Operation α).run.Keeps R := keeps_done _

theorem keeps_throw (e : DeviceError) : (throw e : Operation α).run.Keeps R := keeps_done _

theorem keeps_lift {p : Routine α} (hp : p.Keeps R) : (liftM p : Operation α).run.Keeps R := by
  rw [ExceptT.run_liftM]
  exact hp.map _

theorem keeps_andThen {op : Operation α} {f : α → Operation β} (hop : op.run.Keeps R)
    (hf : ∀ a, (f a).run.Keeps R) : (op >>= f).run.Keeps R := by
  rw [ExceptT.run_bind]
  refine hop.bind fun outcome => ?_
  cases outcome with
  | ok a => exact hf a
  | error e => exact keeps_done _

theorem keeps_attempt {op : Operation α} (hop : op.run.Keeps R) :
    (Operation.attempt op).run.Keeps R :=
  hop.map _

theorem keeps_ofOutcome (outcome : Except DeviceError α) :
    (Operation.ofOutcome outcome).run.Keeps R := keeps_done _

theorem keeps_forM {γ : Type} {f : γ → Operation Unit} (xs : List γ)
    (hf : ∀ x, (f x).run.Keeps R) : (forM xs f).run.Keeps R := by
  induction xs with
  | nil => exact keeps_pure _
  | cons x xs ih =>
    rw [List.forM_cons]
    exact keeps_andThen (hf x) fun _ => ih

end Operation

end FuseBank
