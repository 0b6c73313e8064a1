import FuseBank.Proofs.Adjacency

/-!
The states that the hardware passes through during a run, and what holds of all of them. If every
request that a routine may make takes the hardware to a related state, then so does the whole run, at
each point where it can be looked at (`Along.related`). A view of the state that each request changes in
a known way can be read off the traffic of the run (`Along.follows`).
-/

namespace FuseBank

variable {σ α β : Type}

def Reply.onward (r : Reply σ α) (next : α → σ → List σ) : List σ :=
  match r.result with
  | .error _ => [r.state]
  | .ok a => next a r.state

theorem Reply.state_mem_onward (r : Reply σ α) {run : α → σ → Run σ β} {next : α → σ → List σ}
    (later : ∀ a s, (run a s).state ∈ next a s) : (r.toRun.andThen run).state ∈ r.onward next := by
  cases h : r.result with
  | error f => simp [onward, Run.andThen, toRun, h]
  | ok a => simpa [onward, Run.andThen, toRun, h, Run.after] using later a r.state

theorem Reply.forall_onward (r : Reply σ α) {next : α → σ → List σ} {P : σ → Prop} (here : P r.state)
    (later : ∀ a, r.result = .ok a → ∀ t ∈ next a r.state, P t) : ∀ t ∈ r.onward next, P t := by
  unfold onward
  split
  · simpa using here
  · exact later _ ‹_›

namespace Routine

def visits (hw : Hardware σ) : Routine α → σ → List σ
  | done _, s | halt _, s => [s]
  | read offset next, s => s :: (hw.bus.read offset s).onward fun v t => visits hw (next v) t
  | write offset value next, s => s :: (hw.bus.write offset value s).onward fun _ t => visits hw next t
  | enable next, s => s :: (hw.gate.enable s).onward fun answer t => visits hw (next answer) t
  | disable next, s => s :: (hw.gate.disable s).onward fun _ t => visits hw next t
  | log _ next, s => visits hw next s

variable {hw : Hardware σ} {R : Option Event → Event → Prop} {Rel : σ → σ → Prop}

theorem state_mem_visits (p : Routine α) (s : σ) : (run hw p s).state ∈ visits hw p s := by
  induction p generalizing s with
  | done a => exact List.mem_singleton.2 rfl
  | halt fault => exact List.mem_singleton.2 rfl
  | read o next ih =>
    rw [run_read]
    exact List.mem_cons_of_mem _ (Reply.state_mem_onward _ fun v t => ih v t)
  | write o v next ih =>
    rw [run_write, Run.after_andThen]
    exact List.mem_cons_of_mem _ (Reply.state_mem_onward _ fun _ t => ih t)
  | enable next ih =>
    rw [run_enable]
    exact List.mem_cons_of_mem _ (Reply.state_mem_onward _ fun answer t => ih answer t)
  | disable next ih =>
    rw [run_disable]
    exact List.mem_cons_of_mem _ (Reply.state_mem_onward _ fun _ t => ih t)
  | log e next ih =>
    rw [run_log]
    exact ih s

def Answered (hw : Hardware σ) (e : Option Event) : Prop :=
  ∀ o v, e = some (.read o v) → ∃ s, (hw.bus.read o s).result = .ok v

/-- Every request relates the state before to the state after; of the writes only those that `R`
admits after what the bus has just given. -/
structure Relates (hw : Hardware σ) (R : Option Event → Event → Prop) (Rel : σ → σ → Prop) : Prop where
  refl : ∀ s, Rel s s
  trans : ∀ s t u, Rel s t → Rel t u → Rel s u
  read : ∀ o s, Rel s (hw.bus.read o s).state
  write : ∀ prev o v s, Answered hw prev → R prev (.write o v) → Rel s (hw.bus.write o v s).state
  enable : ∀ s, Rel s (hw.gate.enable s).state
  disable : ∀ s, Rel s (hw.gate.disable s).state

theorem Relates.of_request (h : Relates hw R Rel) {s : σ} (r : Reply σ α) {next : α → σ → List σ}
    (step : Rel s r.state)
    (later : ∀ a, r.result = .ok a → ∀ t ∈ next a r.state, Rel r.state t) :
    ∀ t ∈ s :: r.onward next, Rel s t := by
  refine List.forall_mem_cons.2 ⟨h.refl s, ?_⟩
  exact r.forall_onward step fun a answer t ht => h.trans _ _ _ step (later a answer t ht)

theorem answered_of_ne {e : Option Event} (h : ∀ o v, e ≠ some (.read o v)) : Answered hw e :=
  fun o v same => absurd same (h o v)

theorem Along.related {Q : α → Option Event → Prop} (h : Relates hw R Rel) {p : Routine α}
    {prev : Option Event} (given : Answered hw prev) (hp : p.Along R Q prev) (s : σ) :
    ∀ t ∈ visits hw p s, Rel s t := by
  induction p generalizing prev s with
  | done a => simpa [visits] using h.refl s
  | halt fault => simpa [visits] using h.refl s
  | read o next ih =>
    refine h.of_request _ (h.read o s) fun v answer => ih v ?_ (hp v).2 _
    rintro _ _ ⟨⟩
    exact ⟨s, answer⟩
  | write o v next ih =>
    exact h.of_request _ (h.write prev o v s given hp.1) fun _ _ => ih (answered_of_ne (by simp)) hp.2 _
  | enable next ih =>
    refine h.of_request _ (h.enable s) fun answer _ => ih answer (answered_of_ne ?_) (hp answer).2 _
    cases answer <;> simp [Event.ofEnable]
  | disable next ih => exact h.of_request _ (h.disable s) fun _ _ => ih (answered_of_ne (by simp)) hp.2 _
  | log e next ih => exact ih given hp s

/-- A view of the state that follows the traffic: each request that `R` admits changes the view as its
event says. -/
structure Follows {γ : Type} (hw : Hardware σ) (R : Option Event → Event → Prop) (view : σ → γ)
    (change : γ → Event → γ) : Prop where
  read : ∀ prev o v s, R prev (.read o v) → view (hw.bus.read o s).state = change (view s) (.read o v)
  write : ∀ prev o v s, R prev (.write o v) →
    view (hw.bus.write o v s).state = change (view s) (.write o v)
  enable : ∀ prev answer s, R prev (.ofEnable answer) →
    view (hw.gate.enable s).state = change (view s) (.ofEnable answer)
  disable : ∀ prev s, R prev .disabled → view (hw.gate.disable s).state = change (view s) .disabled

theorem Along.follows {γ : Type} {view : σ → γ} {change : γ → Event → γ} (serves : hw.Serves R)
    (follows : Follows hw R view change) {p : Routine α} {Q : α → Option Event → Prop}
    {prev : Option Event} (hp : p.Along R Q prev) (s : σ) :
    view (run hw p s).state = (run hw p s).traffic.foldl change (view s) := by
  induction p generalizing prev s with
  | done a => rfl
  | halt fault => rfl
  | read o next ih =>
    obtain ⟨v, served⟩ := serves.read prev o s fun v => (hp v).1
    obtain ⟨earlier, sent, goesOn⟩ := run_read_ok served next
    rw [goesOn, Run.traffic_after, sent, List.foldl_append, List.foldl_cons, List.foldl_nil,
      ← follows.read prev o v s (hp v).1]
    exact ih v (hp v).2 _
  | write o v next ih =>
    obtain ⟨earlier, sent, goesOn⟩ := run_write_ok (serves.write prev o v s hp.1) next
    rw [goesOn, Run.traffic_after, sent, List.foldl_append, List.foldl_cons, List.foldl_nil,
      ← follows.write prev o v s hp.1]
    exact ih hp.2 _
  | enable next ih =>
    obtain ⟨answer, served⟩ := serves.enable prev s fun answer => (hp answer).1
    obtain ⟨earlier, sent, goesOn⟩ := run_enable_ok served next
    rw [goesOn, Run.traffic_after, sent, List.foldl_append, List.foldl_cons, List.foldl_nil,
      ← follows.enable prev answer s (hp answer).1]
    exact ih answer (hp answer).2 _
  | disable next ih =>
    obtain ⟨earlier, sent, goesOn⟩ := run_disable_ok (serves.disable prev s hp.1) next
    rw [goesOn, Run.traffic_after, sent, List.foldl_append, List.foldl_cons, List.foldl_nil,
      ← follows.disable prev s hp.1]
    exact ih hp.2 _
  | log e next ih =>
    rw [run_log, Run.traffic_after]
    exact ih hp s

theorem Keeps.related {p : Routine α} (hp : p.Keeps R) (h : Relates hw R Rel) (s : σ) :
    Rel s (run hw p s).state :=
  (hp none).related h (answered_of_ne (by simp)) s _ (state_mem_visits p s)

end Routine

end FuseBank
