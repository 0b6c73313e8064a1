import FuseBank.Proofs.FuseGrowth

/-!
What a run leaves behind if it returns. `Ensures hw p Q s` asks `Q` of the value and the state in which
`p` ends, and nothing of a run that a fault cuts off; `Succeeds hw op Q s` asks it of an operation only
where it succeeds. Both go through sequences step by step, so a timeout on the way needs no case.
-/

namespace FuseBank
open Routine

variable {σ α β : Type} {hw : Hardware σ} {s s' : σ}

namespace Routine

def Ensures (hw : Hardware σ) (p : Routine α) (Q : α → σ → Prop) (s : σ) : Prop :=
  ∀ a, (run hw p s).result = .ok a → Q a (run hw p s).state

variable {p : Routine α} {Q : α → σ → Prop}

theorem Ensures.imp {P : α → σ → Prop} (h : Ensures hw p P s) (himp : ∀ a t, P a t → Q a t) :
    Ensures hw p Q s :=
  fun a returned => himp a _ (h a returned)

theorem ensures_true (p : Routine α) (s : σ) : Ensures hw p (fun _ _ => True) s := fun _ _ => trivial

theorem ensures_done {a : α} (h : Q a s) : Ensures hw (done a) Q s := by
  rintro _ ⟨⟩
  exact h

theorem Yields.ensures {a : α} (h : Yields hw p s a s') (hQ : Q a s') : Ensures hw p Q s := by
  intro b returned
  rw [h.1] at returned
  cases returned
  rw [h.2]
  exact hQ

theorem Ensures.bind {P : α → σ → Prop} {f : α → Routine β} {R : β → σ → Prop}
    (hp : Ensures hw p P s) (hf : ∀ a t, P a t → Ensures hw (f a) R t) :
    Ensures hw (p >>= f) R s := by
  intro b returned
  rw [run_bind] at returned ⊢
  unfold Run.andThen at returned ⊢
  cases first : (run hw p s).result with
  | error fault =>
    rw [first] at returned
    cases returned
  | ok a =>
    rw [first] at returned
    exact hf a _ (hp a first) b returned

end Routine

theorem Reply.ensures {r : Reply σ β} {next : β → σ → Run σ α} {Q : α → σ → Prop}
    (h : ∀ b, r.result = .ok b → ∀ a, (next b r.state).result = .ok a → Q a (next b r.state).state) :
    ∀ a, (r.toRun.andThen next).result = .ok a → Q a (r.toRun.andThen next).state := by
  intro a returned
  cases answer : r.result with
  | error fault =>
    rw [(andThen_error next answer).1] at returned
    cases returned
  | ok b =>
    obtain ⟨result, -, state⟩ := andThen_ok next answer
    rw [result] at returned
    rw [state]
    exact h b answer a returned

namespace Routine

variable {Q : α → σ → Prop}

theorem ensures_read {o : Nat} {next : Word → Routine α}
    (h : ∀ v, (hw.bus.read o s).result = .ok v →
      Ensures hw (next v) Q (hw.bus.read o s).state) : Ensures hw (read o next) Q s := by
  unfold Ensures
  rw [run_read]
  exact Reply.ensures h

theorem ensures_log {e : Log.Entry} {next : Routine α} (h : Ensures hw next Q s) :
    Ensures hw (log e next) Q s := by
  unfold Ensures
  rw [run_log]
  exact h

theorem ensures_enable {next : Except DeviceError Unit → Routine α}
    (h : ∀ answer, (hw.gate.enable s).result = .ok answer →
      Ensures hw (next answer) Q (hw.gate.enable s).state) : Ensures hw (enable next) Q s := by
  unfold Ensures
  rw [run_enable]
  exact Reply.ensures h

theorem ensures_disable {next : Routine α}
    (h : Ensures hw next Q (hw.gate.disable s).state) : Ensures hw (disable next) Q s := by
  unfold Ensures
  rw [run_disable]
  exact Reply.ensures fun _ _ => h

end Routine

namespace Operation
open Routine

def Succeeds (hw : Hardware σ) (op : Operation α) (Q : α → σ → Prop) (s : σ) : Prop :=
  Ensures hw op.run (fun outcome t => ∀ a, outcome = .ok a → Q a t) s

variable {op : Operation α} {Q : α → σ → Prop}

theorem succeeds_pure {a : α} (h : Q a s) : Succeeds hw (pure a : Operation α) Q s := by
  refine ensures_done ?_
  rintro _ ⟨⟩
  exact h

theorem succeeds_throw (e : DeviceError) : Succeeds hw (throw e : Operation α) Q s :=
  ensures_done nofun

theorem succeeds_true (op : Operation α) (s : σ) : Succeeds hw op (fun _ _ => True) s :=
  fun _ _ _ _ => trivial

theorem Succeeds.imp {P : α → σ → Prop} (h : Succeeds hw op P s) (himp : ∀ a t, P a t → Q a t) :
    Succeeds hw op Q s :=
  Ensures.imp h fun _ t hP a same => himp a t (hP a same)

theorem Succeeds.with_state (h : Succeeds hw op Q s) {R : σ → Prop} (hR : R (run hw op.run s).state) :
    Succeeds hw op (fun a t => Q a t ∧ R t) s :=
  fun outcome returned a same => ⟨h outcome returned a same, hR⟩

theorem succeeds_lift {p : Routine α} (h : Ensures hw p Q s) :
    Succeeds hw (liftM p : Operation α) Q s := by
  unfold Succeeds
  rw [ExceptT.run_liftM, map_eq_pure_bind]
  refine h.bind fun a t hQ => ensures_done ?_
  rintro _ ⟨⟩
  exact hQ

theorem Succeeds.andThen {P : α → σ → Prop} {f : α → Operation β} {R : β → σ → Prop}
    (h : Succeeds hw op P s) (hf : ∀ a t, P a t → Succeeds hw (f a) R t) :
    Succeeds hw (op >>= f) R s := by
  unfold Succeeds
  rw [ExceptT.run_bind]
  refine Ensures.bind h fun outcome t hP => ?_
  cases outcome with
  | error e => exact ensures_done nofun
  | ok a => exact hf a t (hP a rfl)

theorem Succeeds.bind {f : Except DeviceError α → Routine β} {R : β → σ → Prop}
    (h : Succeeds hw op Q s) (failure : ∀ e t, Ensures hw (f (.error e)) R t)
    (success : ∀ a t, Q a t → Ensures hw (f (.ok a)) R t) : Ensures hw (op.run >>= f) R s := by
  refine Ensures.bind h fun outcome t hQ => ?_
  cases outcome with
  | error e => exact failure e t
  | ok a => exact success a t (hQ a rfl)

theorem Succeeds.of_yields {p : Routine α} {a : α} {f : α → Operation β} {R : β → σ → Prop}
    (h : Yields hw p s a s') (hf : Succeeds hw (f a) R s') : Succeeds hw (liftM p >>= f) R s := by
  refine (succeeds_lift (h.ensures (Q := fun b t => b = a ∧ t = s') ⟨rfl, rfl⟩)).andThen ?_
  rintro _ _ ⟨rfl, rfl⟩
  exact hf

theorem succeeds_attempt {Q : Except DeviceError α → σ → Prop} (h : Ensures hw op.run Q s) :
    Succeeds hw (Operation.attempt op) Q s :=
  succeeds_lift h

theorem succeeds_withClock
    (h : (hw.gate.enable s).result = .ok (.ok ()) →
      Succeeds hw op (fun a t => Q a (hw.gate.disable t).state) (hw.gate.enable s).state) :
    Succeeds hw (Controller.withClock op) Q s := by
  refine ensures_enable fun answer on => ?_
  cases answer with
  | error e => exact ensures_log (ensures_done nofun)
  | ok _ =>
    have body := Ensures.bind (h on)
      (f := fun outcome => Routine.disable (.done outcome))
      (R := fun outcome t => ∀ a, outcome = .ok a → Q a t)
      fun outcome t hQ => ensures_disable (ensures_done hQ)
    exact body

end Operation

end FuseBank
