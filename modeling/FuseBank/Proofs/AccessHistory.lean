import FuseBank.Proofs.Traffic

/-!
Rules for an access that look at all accesses before it. `Tracked A R Q past p` says that whatever `p`
accesses, `R` admits it after the accesses so far, which begin with `past` and are listed latest first,
and that `Q` holds of the result and all accesses at the end; it takes into account only values that
`A` lets a register show. Clock calls are no accesses, so they leave the list as it is.
-/

namespace FuseBank

variable {α β γ : Type} {A : Nat → Word → Prop} {R : List Event → Event → Prop}

namespace Routine

def Tracked (A : Nat → Word → Prop) (R : List Event → Event → Prop) (Q : α → List Event → Prop) :
    List Event → Routine α → Prop
  | past, done a => Q a past
  | _, halt _ => True
  | past, read o next =>
    ∀ v, A o v → R past (.read o v) ∧ Tracked A R Q (.read o v :: past) (next v)
  | past, write o v next => R past (.write o v) ∧ Tracked A R Q (.write o v :: past) next
  | past, enable next => ∀ answer, Tracked A R Q past (next answer)
  | past, disable next => Tracked A R Q past next
  | past, log _ next => Tracked A R Q past next

variable {p : Routine α} {P Q : α → List Event → Prop} {past : List Event}

theorem Tracked.imp (h : p.Tracked A R P past) (himp : ∀ a after, P a after → Q a after) :
    p.Tracked A R Q past := by
  induction p generalizing past with
  | done a => exact himp a past h
  | halt fault => trivial
  | read o next ih => exact fun v shown => ⟨(h v shown).1, ih v (h v shown).2⟩
  | write o v next ih => exact ⟨h.1, ih h.2⟩
  | enable next ih => exact fun answer => ih answer (h answer)
  | disable next ih => exact ih h
  | log e next ih => exact ih h

theorem Tracked.bind {f : α → Routine β} {Q : β → List Event → Prop} (h : p.Tracked A R P past)
    (hf : ∀ a after, P a after → (f a).Tracked A R Q after) : (p >>= f).Tracked A R Q past := by
  induction p generalizing past with
  | done a => exact hf a past h
  | halt fault => trivial
  | read o next ih => exact fun v shown => ⟨(h v shown).1, ih v (h v shown).2⟩
  | write o v next ih => exact ⟨h.1, ih h.2⟩
  | enable next ih => exact fun answer => ih answer (h answer)
  | disable next ih => exact ih h
  | log e next ih => exact ih h

theorem Tracked.rewrap {Q : β → List Event → Prop} (h : p.Tracked A R P past) (f : α → β)
    (himp : ∀ a after, P a after → Q (f a) after) : (p >>= fun a => done (f a)).Tracked A R Q past :=
  h.bind fun a after hP => himp a after hP

/-- The registers have shown nothing but what `A` lets them show. -/
def Shown (A : Nat → Word → Prop) (es : List Event) : Prop := ∀ o v, .read o v ∈ es → A o v

theorem Shown.tail {e : Event} {es : List Event} (h : Shown A (e :: es)) : Shown A es :=
  fun o v read => h o v (List.mem_cons_of_mem _ read)

/-- Every access of a run was admitted after those before it. -/
theorem Tracked.admits (h : p.Tracked A R Q past) {es : List Event} {r : Option α}
    (sends : Sends p es r) (shown : Shown A es) {before after : List Event} {e : Event}
    (split : es.filter Event.isAccess = before ++ e :: after) : R (before.reverse ++ past) e := by
  induction sends generalizing past before with
  | cut p => simp at split
  | done a => simp at split
  | @read o next es r v _ ih =>
    obtain ⟨admitted, later⟩ := h v (shown o v (by simp))
    change .read o v :: es.filter Event.isAccess = _ at split
    obtain ⟨rfl, same⟩ | ⟨before, rfl, rest⟩ := List.cons_eq_append_iff.1 split
    · obtain ⟨rfl, -⟩ := List.cons.inj same
      exact admitted
    · simpa using ih later shown.tail rest
  | @write o v next es r _ ih =>
    obtain ⟨admitted, later⟩ := h
    change .write o v :: es.filter Event.isAccess = _ at split
    obtain ⟨rfl, same⟩ | ⟨before, rfl, rest⟩ := List.cons_eq_append_iff.1 split
    · obtain ⟨rfl, -⟩ := List.cons.inj same
      exact admitted
    · simpa using ih later shown.tail rest
  | @enable next es r answer _ ih =>
    refine ih (h answer) shown.tail ?_
    cases answer <;> exact split
  | disable _ ih => exact ih h shown.tail split
  | log _ ih => exact ih h shown split

theorem Tracked.ended (h : p.Tracked A R Q past) {es : List Event} {a : α}
    (sends : Sends p es (some a)) (shown : Shown A es) :
    Q a ((es.filter Event.isAccess).reverse ++ past) := by
  generalize hr : some a = r at sends
  induction sends generalizing past with
  | cut p => cases hr
  | done b =>
    cases hr
    exact h
  | @read o next es r v _ ih =>
    have rest := ih (h v (shown o v (by simp))).2 shown.tail hr
    change Q a ((.read o v :: es.filter Event.isAccess).reverse ++ past)
    simpa using rest
  | @write o v next es r _ ih =>
    have rest := ih h.2 shown.tail hr
    change Q a ((.write o v :: es.filter Event.isAccess).reverse ++ past)
    simpa using rest
  | @enable next es r answer _ ih =>
    have rest := ih (h answer) shown.tail hr
    cases answer <;> exact rest
  | disable _ ih => exact ih h shown.tail hr
  | log _ ih => exact ih h shown hr

end Routine

namespace Operation
open Routine

variable {past : List Event}

theorem tracked_lift {p : Routine α} {Q : Except DeviceError α → List Event → Prop}
    (h : p.Tracked A R (fun a => Q (.ok a)) past) :
    (liftM p : Operation α).run.Tracked A R Q past := by
  rw [ExceptT.run_liftM, map_eq_pure_bind]
  exact h.rewrap _ fun _ _ hQ => hQ

theorem tracked_andThen {op : Operation α} {f : α → Operation β}
    {P : Except DeviceError α → List Event → Prop} {Q : Except DeviceError β → List Event → Prop}
    (h : op.run.Tracked A R P past)
    (failed : ∀ e after, P (.error e) after → Q (.error e) after)
    (hf : ∀ a after, P (.ok a) after → (f a).run.Tracked A R Q after) :
    (op >>= f).run.Tracked A R Q past := by
  rw [ExceptT.run_bind]
  refine h.bind fun outcome after hP => ?_
  cases outcome with
  | ok a => exact hf a after hP
  | error e => exact failed e after hP

theorem tracked_lift_bind {p : Routine α} {f : α → Operation β} {P : α → List Event → Prop}
    {Q : Except DeviceError β → List Event → Prop} (h : p.Tracked A R P past)
    (hf : ∀ a after, P a after → (f a).run.Tracked A R Q after) :
    (liftM p >>= f).run.Tracked A R Q past := by
  rw [ExceptT.run_bind, ExceptT.run_liftM, bind_map_left]
  exact h.bind hf

theorem tracked_attempt_bind {op : Operation α} {f : Except DeviceError α → Operation β}
    {P : Except DeviceError α → List Event → Prop} {Q : Except DeviceError β → List Event → Prop}
    (h : op.run.Tracked A R P past)
    (hf : ∀ outcome after, P outcome after → (f outcome).run.Tracked A R Q after) :
    (Operation.attempt op >>= f).run.Tracked A R Q past :=
  tracked_lift_bind h hf

end Operation

end FuseBank
